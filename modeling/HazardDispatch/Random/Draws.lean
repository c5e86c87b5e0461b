import HazardDispatch.Random.Keystream
import HazardDispatch.Word64

/-!
# Random draws

What the simulation of a task draws at random. `Draws` says which draws there are, for any source
of randomness; `keystreamDraws` makes them from a stream of words.

A draw from a range is made by rejection: words that would make it uneven are passed over. The fuel
of `firstOf` bounds how many are passed over in a row; the chance to reach it is below `2 ^ (-800)`.
-/

namespace HazardDispatch.Random

/-- The draws of a simulation, from a source with states `ρ`. -/
structure Draws (ρ : Type) where
  /-- A factor from 0.8 to below 1.2. -/
  jitter : ρ → Float × ρ
  /-- A number of sites from 1 to 100. -/
  sites : ρ → UInt64 × ρ
  /-- An event that happens nine times in ten. -/
  event : ρ → Bool × ρ

/-- The numbers of sites that are drawn are in their range. -/
def Draws.InRange {ρ : Type} (d : Draws ρ) : Prop :=
  ∀ s, 1 ≤ (d.sites s).1.toNat ∧ (d.sites s).1.toNat ≤ 100

namespace Keystream

/-- Words until `accept` makes a value of one; `d` if the fuel runs out. -/
def firstOf {α : Type} (accept : UInt64 → Option α) (d : α) : Nat → Keystream → α × Keystream
  | 0, s => (d, s)
  | n + 1, s =>
    let (w, s) := s.word
    match accept w with
    | some a => (a, s)
    | none => firstOf accept d n s

/-- The double in `[1, 2)` with the upper 52 bits of the word as its fraction, less one. -/
def unit (w : UInt64) : Float := Float.ofBits (((1023 : UInt64) <<< 52) ||| (w >>> 12)) - 1.0

def jitter? (w : UInt64) : Option Float :=
  let x := unit w * (1.2 - 0.8) + 0.8
  if x < 1.2 then some x else none

/-- The high half of the product with 100, unless the low half is in the uneven rest. -/
def sites? (w : UInt64) : Option UInt64 :=
  let m := w.toNat * 100
  if m % Word64.bound ≤ 100 * Nat.pow 2 57 - 1 then some (.ofNat (1 + m / Word64.bound)) else none

/-- Nine tenths of all words, rounded down. -/
def eventBound : UInt64 := 16602069666338596864

end Keystream

/-- The draws from a stream of words. -/
def keystreamDraws : Draws Keystream where
  jitter := Keystream.firstOf Keystream.jitter? 0.8 400
  sites := Keystream.firstOf Keystream.sites? 1 400
  event s := let (w, s) := s.word; (decide (w < Keystream.eventBound), s)

end HazardDispatch.Random
