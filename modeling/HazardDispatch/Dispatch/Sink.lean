import HazardDispatch.Halting
import HazardDispatch.LogLine
import HazardDispatch.Report.Assembler
import HazardDispatch.Task.Basic

/-!
# Who takes in results

The dispatcher hands each result to its sinks, before it decides what becomes of the task. Sinks are
asked in order; one that stops half-way keeps the later ones from being asked.

The figures by operation and the account of the calculation are sinks. `Accounts` is both, the
figures first.
-/

namespace HazardDispatch

/-- A type whose values take in results. -/
class Sink (σ : Type) where
  /-- Takes in the result of an attempt. -/
  record : σ → TaskResult → Halting σ
  /-- Is told that a task is given up. -/
  abandon : σ → Task → FailureReason → σ
  /-- What is logged when a result is taken in. -/
  log : σ → TaskResult → List LogLine

/-- Two sinks, one after the other. -/
instance {σ τ : Type} [Sink σ] [Sink τ] : Sink (σ × τ) where
  record s r :=
    match Sink.record s.1 r with
    | (a, none) => let (b, stop) := Sink.record s.2 r; ((a, b), stop)
    | (a, some e) => ((a, s.2), some e)
  abandon s t why := (Sink.abandon s.1 t why, Sink.abandon s.2 t why)
  log s r :=
    Sink.log s.1 r ++ match (Sink.record s.1 r).2 with
      | none => Sink.log s.2 r
      | some _ => []

section
variable {F : Type} [Add F] [Sub F] [Mul F] [Div F] [Scalar F]

instance : Sink (Metrics F) where
  record m r := .done (m.record r)
  abandon m _ _ := m
  log _ _ := []

instance : Sink (Assembler F) where
  record := Assembler.absorb
  abandon a t _ := a.markFailed t.id
  log := Assembler.absorbLog

/-- The accounts of a calculation. -/
abbrev Accounts (F : Type) := Metrics F × Assembler F

namespace Accounts

def empty (topK : Nat) : Accounts F := (.empty, .empty topK)

def report (a : Accounts F) : CompositeReport F := a.2.report a.1.snapshot

/-- Announces how many tasks the report is to cover. -/
def expect (a : Accounts F) (n : Nat) : Accounts F := (a.1, a.2.expect n)

end Accounts
end
end HazardDispatch
