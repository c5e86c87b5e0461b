import HazardDispatch.Pool.Basic

/-!
# Histories of a pool

The operations of the pool as data, so that a run of the pool is a list of calls: `Pool.perform` does
one of them, `Pool.performAll` a list, with the answers in order.
-/

namespace HazardDispatch

inductive PoolCall where
  | register (h : WorkerHandle)
  | deregister (w : WorkerId)
  | acquire
  | acquireAvoiding (avoid : Option WorkerId)
  | release (w : WorkerId)
  | markUnreachable (w : WorkerId)
  | restore (w : WorkerId)
  | probeFailure (w : WorkerId)
deriving DecidableEq, Repr

inductive PoolAnswer where
  | flag (b : Bool)
  | worker (h : Option WorkerHandle)
deriving DecidableEq, Repr

namespace Pool

def Reply.map {α β : Type} (r : Reply α) (f : α → β) : Reply β := ⟨f r.value, r.pool, r.log⟩

def perform (p : Pool) : PoolCall → Reply PoolAnswer
  | .register h => (p.register h).map .flag
  | .deregister w => (p.deregister w).map .worker
  | .acquire => p.acquire.map .worker
  | .acquireAvoiding avoid => (p.acquireAvoiding avoid).map .worker
  | .release w => (p.release w).map .flag
  | .markUnreachable w => (p.markUnreachable w).map .flag
  | .restore w => (p.restore w).map .flag
  | .probeFailure w => (p.recordProbeFailure w).map .flag

/-- A list of operations: the answers, and the pool after them. -/
def performAll (p : Pool) : List PoolCall → List PoolAnswer × Pool
  | [] => ([], p)
  | c :: cs =>
    let r := p.perform c
    let (answers, p) := performAll r.pool cs
    (r.value :: answers, p)

def consume (p : Pool) : Pool := { p with permit := false }

end Pool
end HazardDispatch
