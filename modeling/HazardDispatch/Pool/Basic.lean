import HazardDispatch.LogLine
import HazardDispatch.Table
import HazardDispatch.Worker.Handle

/-!
# The worker pool

The registry of known workers. A worker is handed out by `acquire` and stays busy until it is
released. Of the idle workers the one is taken whose last release is longest ago; workers not
released since they registered come first, and equals are taken in the order of their names.

A worker that is marked unreachable is out of rotation until it is restored. Failed probes are
counted, and as many in a row as the threshold says remove it.

Whenever a worker becomes idle, or is idle when it registers, one wake-up is stored (`permit`), so
that whoever waits for idle workers never misses one. Storing it twice is storing it once.

Each operation gives a `Reply`: the value, the pool after it, and what is logged.
-/

namespace HazardDispatch

/-- What is known of a registered worker, its name apart. -/
structure PoolEntry where
  address : String
  status : WorkerStatus
  registeredAt : Instant
  /-- The pool's `clock` at the last release; 0 if there was none. -/
  lastUsed : Nat
  /-- Failed probes in a row. -/
  probeFailures : Nat
deriving DecidableEq, Repr

def PoolEntry.handle (e : PoolEntry) (w : WorkerId) : WorkerHandle :=
  { workerId := w, address := e.address, status := e.status, registeredAt := e.registeredAt }

structure Pool where
  workers : Table WorkerId PoolEntry
  /-- Logical time: the number of releases that were asked for. A program counts them in 64 bits; that
  many are out of reach, so the number here has no bound. -/
  clock : Nat
  /-- A wake-up is stored. -/
  permit : Bool
  /-- Failed probes in a row that remove a worker. -/
  threshold : Nat
deriving DecidableEq, Repr

namespace Pool

/-- What an operation gives. -/
structure Reply (α : Type) where
  value : α
  pool : Pool
  log : List LogLine
deriving Repr

def empty (threshold : Nat) : Pool := ⟨.empty, 0, false, max threshold 1⟩

/-! ## looking -/

def entry? (p : Pool) (w : WorkerId) : Option PoolEntry := p.workers.get? w

def get? (p : Pool) (w : WorkerId) : Option WorkerHandle := (p.entry? w).map (·.handle w)

def status? (p : Pool) (w : WorkerId) : Option WorkerStatus := (p.entry? w).map (·.status)

/-- All workers, by name. -/
def handles (p : Pool) : List WorkerHandle := p.workers.entries.map fun (w, e) => e.handle w

def size (p : Pool) : Nat := p.workers.size

def count (p : Pool) (s : WorkerStatus) : Nat := p.workers.values.countP (·.status == s)

def idleCount (p : Pool) : Nat := p.count .idle

/-- The workers that are out of rotation. They are given by name here; a program may find them in any
order, and nothing may depend on it. -/
def unreachable (p : Pool) : List WorkerHandle := p.handles.filter (·.status == .unreachable)

/-! ## changing one entry -/

def setEntry (p : Pool) (w : WorkerId) (e : PoolEntry) : Pool :=
  { p with workers := p.workers.put w e }

def wake (p : Pool) : Pool := { p with permit := true }

/-! ## registration -/

/-- Registers a worker, as idle, or refreshes its registration: the address is taken over, the
status stays. The value says whether the worker is new. -/
def register (p : Pool) (h : WorkerHandle) : Reply Bool :=
  match p.entry? h.workerId with
  | some e =>
    let p := p.setEntry h.workerId { e with address := h.address, probeFailures := 0 }
    ⟨false, if e.status.acceptsTasks then p.wake else p,
      [⟨.debug, "Worker registration refreshed"⟩]⟩
  | none =>
    let e := { address := h.address, status := .idle, registeredAt := h.registeredAt
               lastUsed := 0, probeFailures := 0 }
    ⟨true, (p.setEntry h.workerId e).wake, [⟨.info, "Worker registered"⟩]⟩

/-- Removes a worker. The value is its handle, if it was known. -/
def deregister (p : Pool) (w : WorkerId) : Reply (Option WorkerHandle) :=
  match p.entry? w with
  | some e => ⟨some (e.handle w), { p with workers := p.workers.erase w },
      [⟨.info, "Worker deregistered"⟩]⟩
  | none => ⟨none, p, []⟩

/-! ## handing out -/

/-- The entry whose last release is longest ago; of equals the first. -/
def leastUsed : List (WorkerId × PoolEntry) → Option (WorkerId × PoolEntry)
  | [] => none
  | e :: es =>
    match leastUsed es with
    | none => some e
    | some f => if f.2.lastUsed < e.2.lastUsed then some f else some e

/-- The idle workers, except one that is not wanted. -/
def candidates (p : Pool) (skip : Option WorkerId) : List (WorkerId × PoolEntry) :=
  p.workers.entries.filter fun e => e.2.status.acceptsTasks && some e.1 != skip

def nextIdle (p : Pool) (skip : Option WorkerId) : Option (WorkerId × PoolEntry) :=
  leastUsed (p.candidates skip)

/-- Marks a worker busy and hands it out. -/
def handOut (p : Pool) (w : WorkerId) (e : PoolEntry) (log : List LogLine) :
    Reply (Option WorkerHandle) :=
  let e := { e with status := .busy }
  ⟨some (e.handle w), p.setEntry w e, log⟩

def acquire (p : Pool) : Reply (Option WorkerHandle) :=
  match p.nextIdle none with
  | some (w, e) => p.handOut w e []
  | none => ⟨none, p, []⟩

/-- A live worker other than `w` is registered. -/
def othersLive (p : Pool) (w : WorkerId) : Bool :=
  p.workers.entries.any fun e => e.1 != w && e.2.status.isLive

/-- Takes an idle worker, one other than `avoid` if possible. The avoided worker is only taken when
no other one is alive, for then waiting would not help. -/
def acquireAvoiding (p : Pool) (avoid : Option WorkerId) : Reply (Option WorkerHandle) :=
  match p.nextIdle avoid with
  | some (w, e) => p.handOut w e []
  | none =>
    match avoid with
    | none => ⟨none, p, []⟩
    | some w =>
      match p.entry? w with
      | none => ⟨none, p, []⟩
      | some e =>
        if e.status.acceptsTasks && !p.othersLive w then
          p.handOut w e [⟨.debug, "Reusing the only live worker for a retry"⟩]
        else ⟨none, p, []⟩

/-- Makes a busy worker idle again. The value is false, and no worker changes, if it is not busy. -/
def release (p : Pool) (w : WorkerId) : Reply Bool :=
  let p := { p with clock := p.clock + 1 }
  match p.entry? w with
  | some e =>
    if e.status = .busy then
      ⟨true, (p.setEntry w { e with status := .idle, lastUsed := p.clock }).wake, []⟩
    else ⟨false, p, [⟨.debug, "Release ignored for non-busy worker"⟩]⟩
  | none => ⟨false, p, []⟩

/-! ## reachability -/

/-- Takes a worker out of rotation. The value says whether it is known. -/
def markUnreachable (p : Pool) (w : WorkerId) : Reply Bool :=
  match p.entry? w with
  | some e =>
    if e.status = .unreachable then ⟨true, p, []⟩
    else
      ⟨true, p.setEntry w { e with status := .unreachable, probeFailures := 0 },
        [⟨.warn, "Worker marked unreachable"⟩]⟩
  | none => ⟨false, p, []⟩

def restore (p : Pool) (w : WorkerId) : Reply Bool :=
  match p.entry? w with
  | some e =>
    if e.status = .unreachable then
      ⟨true, (p.setEntry w { e with status := .idle, probeFailures := 0 }).wake,
        [⟨.info, "Worker restored after successful probe"⟩]⟩
    else ⟨false, p, []⟩
  | none => ⟨false, p, []⟩

/-- Counts a failed probe. The value says whether the worker was removed for it. -/
def recordProbeFailure (p : Pool) (w : WorkerId) : Reply Bool :=
  match p.entry? w with
  | some e =>
    let failures := e.probeFailures + 1
    if p.threshold ≤ failures then
      ⟨true, { p with workers := p.workers.erase w },
        [⟨.warn, "Worker evicted after consecutive probe failures"⟩]⟩
    else
      ⟨false, p.setEntry w { e with probeFailures := failures }, [⟨.debug, "Probe failed"⟩]⟩
  | none => ⟨false, p, []⟩

end Pool
end HazardDispatch
