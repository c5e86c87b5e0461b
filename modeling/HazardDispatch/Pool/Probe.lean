import HazardDispatch.Pool.Basic
import HazardDispatch.Wire.Message
import HazardDispatch.Wire.TransportError

/-!
# Probing

Workers that are out of rotation are asked how they are. One that answers and is idle comes back; one
that answers and still runs a task stays out; a failed probe is counted.

A round looks up once who is out of rotation, and then asks these workers one after the other.
-/

namespace HazardDispatch

abbrev ProbeAnswer := Except TransportError HealthResponse

namespace Pool

/-- What becomes of a worker that was probed. -/
def afterProbe (p : Pool) (w : WorkerId) : ProbeAnswer → Reply Unit
  | .ok health =>
    if health.isIdle then
      let r := p.restore w
      ⟨(), r.pool, r.log⟩
    else ⟨(), p, [⟨.debug, "Worker answers but is still busy"⟩]⟩
  | .error _ =>
    let r := p.recordProbeFailure w
    ⟨(), r.pool,
      r.log ++ if r.value then [⟨.info, "Worker deregistered - not answering probes"⟩] else []⟩

def probeEach (ask : WorkerHandle → ProbeAnswer) (p : Pool) : List WorkerHandle → Reply Unit
  | [] => ⟨(), p, []⟩
  | h :: hs =>
    let first := p.afterProbe h.workerId (ask h)
    let rest := probeEach ask first.pool hs
    ⟨(), rest.pool, first.log ++ rest.log⟩

/-- A round of probes. The value is who was probed. -/
def probeRound (ask : WorkerHandle → ProbeAnswer) (p : Pool) : Reply (List WorkerId) :=
  let r := probeEach ask p p.unreachable
  ⟨p.unreachable.map (·.workerId), r.pool, r.log⟩

end Pool
end HazardDispatch
