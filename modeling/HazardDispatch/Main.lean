import HazardDispatch.CommandLine.Controller
import HazardDispatch.CommandLine.Worker
import HazardDispatch.Task.Fresh

/-!
# The program

The first argument says which of the two programs is meant; the others are for that one. Log lines go
to the standard error. A program that serves does so until its standard input ends.
-/

open HazardDispatch CommandLine

/-- The variables that options fall back to, as far as they are set. -/
def readVariables (names : List String) : IO (List (String × String)) :=
  names.filterMapM fun name => do
    return (← IO.getEnv name).map (name, ·)

def fileError : IO.Error → FileError
  | .noFileOrDirectory _ _ _ => .noSuchFile
  | .inappropriateType _ code text => ⟨text, code.toNat⟩
  | .permissionDenied _ code text => ⟨text, code.toNat⟩
  | .noSuchThing _ code text => ⟨text, code.toNat⟩
  | e => ⟨toString e, 0⟩

def readContents (path : String) : IO (Except FileError String) := do
  try
    return .ok (← IO.FS.readFile path)
  catch e =>
    return .error (fileError e)

/-- Waits for the end of the standard input. -/
partial def waitForEnd (stdin : IO.FS.Stream) : IO Unit := do
  if (← stdin.getLine).isEmpty then return
  waitForEnd stdin

def conclude (o : Outcome) : IO UInt32 := do
  for l in o.log do
    IO.eprintln l.text
  match o.ending with
  | .failed why => IO.eprintln ("Error: " ++ Text.quoted why.message)
  | .stopped .usage => IO.eprintln "usage: (controller | worker) [options] [command]"
  | .stopped .help => IO.println "usage: (controller | worker) [options] [command]"
  | _ => pure ()
  return .ofNat o.ending.status

def runController (args : List String) : IO UInt32 := do
  let found ← readVariables (ControllerCommand.serverSettings.filterMap (·.fallback))
  match ControllerCommand.read (found.lookup ·) args with
  | .error e => conclude (.silent (.stopped e))
  | .ok c =>
    let contents ← match c.action with
      | .run o => readContents o.sources
      | .serve => pure (.error .noSuchFile)
    let status ← conclude (c.outcome default fun _ => contents)
    match c.action with
    | .serve => waitForEnd (← IO.getStdin)
    | .run _ => pure ()
    return status

def runWorker (args : List String) : IO UInt32 := do
  let found ← readVariables (WorkerCommand.settings.filterMap (·.fallback))
  match WorkerCommand.read (found.lookup ·) args with
  | .error e => conclude (.silent (.stopped e))
  | .ok c =>
    let id := WorkerId.fresh (.ofNat (← IO.rand 0 Word64.greatest))
      (.ofNat (← IO.rand 0 Word64.greatest))
    let name := (c.workerName.map WorkerId.mk).getD id
    let status ← conclude ⟨[c.startLine name], .done⟩
    waitForEnd (← IO.getStdin)
    return status

def main (args : List String) : IO UInt32 :=
  match args with
  | "controller" :: rest => runController rest
  | "worker" :: rest => runWorker rest
  | _ => conclude (.silent (.stopped .usage))
