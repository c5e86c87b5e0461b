import HazardDispatch.Word64

/-!
# Changes that may stop half-way

A change to some account is made in small steps, one after the other, and a checked sum can stop it
between two of them. The steps made before that stay.
-/

namespace HazardDispatch

/-- A state after a change that may have stopped half-way. -/
abbrev Halting (σ : Type) := σ × Option Overflow

namespace Halting

variable {σ τ α : Type}

/-- A change that was made to its end. -/
def done (s : σ) : Halting σ := (s, none)

/-- The next change, unless one before it stopped. -/
def andThen (h : Halting σ) (f : σ → Halting σ) : Halting σ :=
  match h with
  | (s, none) => f s
  | (s, some e) => (s, some e)

/-- Changes for all items of a list, until one stops. -/
def overList (f : σ → α → Halting σ) (s : σ) : List α → Halting σ
  | [] => done s
  | a :: as => (f s a).andThen fun s => overList f s as

end Halting

end HazardDispatch
