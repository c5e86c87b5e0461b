import HazardDispatch.CommandLine.Outcome
import HazardDispatch.CommandLine.Values
import HazardDispatch.Controller.Config
import HazardDispatch.Net.SocketAddress
import HazardDispatch.Source.Plan

/-!
# The controller's command line

The controller either serves, or runs one calculation: it reads source groups from a file, plans them,
waits for workers and prints the report. Its own options stand before the command, those of a run
after it.

`RunOptions.outcome` is how a run ends when no worker ever registers.
-/

namespace HazardDispatch.CommandLine

structure RunOptions where
  /-- The file with the source groups. -/
  sources : String := ""
  operation : Operation := .preclassical
  /-- About how many tasks there should be. -/
  tasks : Nat := 16
  seed : UInt64 := 42
  /-- Workers that are waited for. -/
  minWorkers : Nat := 1
  /-- How long they are waited for. -/
  waitSeconds : Nat := 60
  /-- Where the report goes, if not to the standard output. -/
  output : Option String := none

inductive Action where
  | serve
  | run (o : RunOptions)

structure ControllerCommand where
  config : ControllerConfig
  action : Action

namespace ControllerCommand

/-- The path that a text denotes. -/
def path? (s : String) : Option String := if s.isEmpty then none else some s

def serverSettings : List (Setting ControllerConfig) :=
  [⟨"bind", some "QUAKERUN_BIND", fun v c =>
      (Net.SocketAddress.ofText? v).map fun a => { c with bindAddress := a.text }⟩,
    ⟨"max-retries", some "QUAKERUN_MAX_RETRIES", fun v c =>
      (word32? v).map fun n => { c with maxRetries := n }⟩,
    ⟨"task-timeout-secs", some "QUAKERUN_TASK_TIMEOUT", fun v c =>
      (word64? v).map fun n =>
        { c with taskTimeout := n * 1000, requestTimeout := 2 * (n * 1000) }⟩,
    ⟨"probe-interval-secs", some "QUAKERUN_PROBE_INTERVAL", fun v c =>
      (word64? v).map fun n => { c with probeInterval := n * 1000 }⟩,
    ⟨"probe-failure-threshold", some "QUAKERUN_PROBE_FAILURES", fun v c =>
      (word32? v).map fun n => { c with probeFailureThreshold := n.toNat }⟩,
    ⟨"max-queue-depth", some "QUAKERUN_MAX_QUEUE_DEPTH", fun v c =>
      (word64? v).map fun n => { c with maxQueueDepth := n }⟩,
    ⟨"top-k-sources", none, fun v c => (word64? v).map fun n => { c with topKSources := n }⟩]

def runSettings : List (Setting RunOptions) :=
  [⟨"sources", none, fun v o => (path? v).map fun p => { o with sources := p }⟩,
    ⟨"operation", none, fun v o => (Operation.ofName? v).map fun op => { o with operation := op }⟩,
    ⟨"concurrent-tasks", none, fun v o => (word64? v).map fun n => { o with tasks := n }⟩,
    ⟨"seed", none, fun v o => (word64? v).map fun n => { o with seed := .ofNat n }⟩,
    ⟨"min-workers", none, fun v o => (word64? v).map fun n => { o with minWorkers := n }⟩,
    ⟨"wait-secs", none, fun v o => (word64? v).map fun n => { o with waitSeconds := n }⟩,
    ⟨"output", none, fun v o => (path? v).map fun p => { o with output := some p }⟩]

def names : List String := ["serve", "run", "help"]

/-- The command with its arguments. The file with the sources has to be given. -/
def readAction (name : String) (args : List String) : Except Stop Action :=
  match name with
  | "serve" => (readArguments ([] : List (Setting Unit)) [] ⟨(), [], none⟩ args).map fun _ => .serve
  | "run" =>
    match readArguments runSettings [] ⟨{}, [], none⟩ args with
    | .error e => .error e
    | .ok r => if r.given.contains "sources" then .ok (.run r.settings) else .error .usage
  | _ =>
    match args with
    | [] => .error .help
    | [topic] => if names.contains topic then .error .help else .error .usage
    | _ => .error .usage

def read (environment : String → Option String) (args : List String) :
    Except Stop ControllerCommand := do
  let r ← readArguments serverSettings names ⟨{}, [], none⟩ args
  match r.command with
  | none => .error .usage
  | some (name, rest) =>
    let action ← readAction name rest
    let config ← readEnvironment serverSettings environment r
    return { config, action }

end ControllerCommand

/-- A time has to fit into so many seconds. -/
def secondsBound : Nat := Word64.bound

def planLog (p : Plan) : List LogLine :=
  List.zipWith (fun l figures => { l with message := l.message ++ " " ++ figures }) p.log
    [s!"maxweight={p.limit.toNat}", s!"num_sources={p.numSources} num_tasks={p.tasks.length}"]

/-- The end of the wait for workers can be named: the clock counts seconds with 63 bits. -/
def RunOptions.canWait (o : RunOptions) : Bool := decide (o.waitSeconds < Nat.pow 2 63 - 1)

/-- How a run ends when no worker registers, given what reading the file with the sources told. -/
def RunOptions.outcome (o : RunOptions) (now : Instant) (contents : Except FileError String) :
    Outcome :=
  match contents with
  | .error e => .silent (.failed (.unreadableSources o.sources e))
  | .ok text =>
    match (Document.ofText text).read SourceGroup.listOfJson with
    | .error e => .silent (.failed (.badSources e))
    | .ok groups =>
      match Plan.ofGroups groups o.operation o.tasks o.seed now with
      | .error _ => .silent .overflow
      | .ok plan => ⟨planLog plan, if o.canWait then .failed .noWorkers else .overflow⟩

namespace ControllerCommand

/-- The time for a request, twice that for an attempt, can be told in seconds. -/
def canStart (c : ControllerCommand) : Bool :=
  decide (c.config.requestTimeout < secondsBound * 1000)

def startLine (c : ControllerCommand) : LogLine :=
  ⟨.info, "Starting QuakeRun controller addr=" ++ c.config.bindAddress⟩

/-- How the controller ends when it is told to while it serves, and when no worker registers for a
run. -/
def outcome (c : ControllerCommand) (now : Instant) (read : String → Except FileError String) :
    Outcome :=
  if !c.canStart then .silent .overflow
  else
    match c.action with
    | .serve => ⟨[c.startLine], .done⟩
    | .run o =>
      let out := o.outcome now (read o.sources)
      { out with log := c.startLine :: out.log }

def call (environment : String → Option String) (args : List String) (now : Instant)
    (files : String → Except FileError String) : Outcome :=
  match read environment args with
  | .error e => .silent (.stopped e)
  | .ok c => c.outcome now files

end ControllerCommand
end HazardDispatch.CommandLine
