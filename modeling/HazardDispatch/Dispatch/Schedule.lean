import HazardDispatch.Dispatch.Basic

/-!
# Scheduling

A scheduling cycle gives queued tasks to idle workers until one or the other runs out. Each time the
first task in the queue is taken that a worker can be had for; that need not be the first of all,
since a task that failed waits for a worker other than the one it failed on.

* `nextAssignment?`  the task whose turn it is, and its worker;
* `launch`           starts the attempt;
* `pump`             the whole cycle;
* `wake`             the cycle that an idle worker asks for.
-/

namespace HazardDispatch

/-- A task with the worker that was taken for it, and the pool without that worker. -/
structure Assignment where
  task : TaskId
  worker : WorkerHandle
  pool : Pool
  log : List LogLine

namespace Dispatcher

variable {σ : Type}

/-- A worker for the task, if one can be had. -/
def assign? (d : Dispatcher σ) (t : TaskId) : Option Assignment :=
  let reply := d.pool.acquireAvoiding ((d.tasks.get? t).bind (·.lastWorker))
  reply.value.map fun w => { task := t, worker := w, pool := reply.pool, log := reply.log }

/-- The first queued task that a worker can be had for. -/
def nextAssignment? (d : Dispatcher σ) : Option Assignment := d.pending.findSome? d.assign?

/-- Starts the attempt: it is in flight, waits for its worker, and has a deadline. -/
def launch (d : Dispatcher σ) (a : Assignment) : Change σ :=
  let d := { d with pool := a.pool, pending := d.pending.erase a.task }
  match d.tasks.get? a.task with
  | none => (d.withReply (d.pool.release a.worker.workerId)).saying a.log
  | some e =>
    let number := e.attempts + 1
    let attempt : Attempt :=
      { launch := d.nextLaunch, task := e.task, worker := a.worker, number, startedAt := d.now }
    let timer : Timer :=
      { launch := d.nextLaunch, task := a.task, attempt := number
        due := d.now + d.config.taskTimeout }
    let entry := { e with
      attempts := number, state := .running, lastWorker := some a.worker.workerId }
    let d := { d with
      tasks := d.tasks.put a.task entry
      inFlight := d.inFlight.put a.task attempt
      waiting := d.waiting ++ [attempt]
      timers := d.timers ++ [timer]
      nextLaunch := d.nextLaunch + 1 }
    Change.saying (a.log ++ [⟨.info, "Assigning task to worker"⟩])
      ⟨d, [.launched e.ticket attempt]⟩

/-- At most `n` assignments. -/
def pumpRounds : Nat → Dispatcher σ → Change σ
  | 0, d => .none d
  | n + 1, d =>
    match d.nextAssignment? with
    | none => .none d
    | some a => (d.launch a).andThen (pumpRounds n)

/-- A scheduling cycle. Each assignment takes a task from the queue, so there are at most as many as
tasks in it. -/
def pump (d : Dispatcher σ) : Change σ := pumpRounds d.pending.length d

/-- The cycle that is due when a worker became idle. It uses up the stored wake-up. -/
def wake (d : Dispatcher σ) : Change σ :=
  if d.pool.permit && !d.stopped then
    pump { d with pool := { d.pool with permit := false } }
  else .none d

end Dispatcher
end HazardDispatch
