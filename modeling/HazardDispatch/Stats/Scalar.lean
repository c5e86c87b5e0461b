/-!
# The numbers that figures are kept in

Running figures are written once, for any type of number that has the four operations and the few
things listed in `Scalar`. The program keeps them in doubles; laws about them are stated for exact
arithmetic.
-/

namespace HazardDispatch

/-- What the figures need of a number type, besides `+`, `-`, `*` and `/`. -/
class Scalar (F : Type) where
  ofNat : Nat → F
  /-- The value of a double that was measured. -/
  ofFloat : Float → F
  sqrt : F → F
  /-- The lesser of the least value so far, if there is one, and a new one. -/
  lesser : Option F → F → F
  /-- The greater of the greatest value so far, if there is one, and a new one. -/
  greater : Option F → F → F
  /-- `a` stands before `b` in increasing order. -/
  less : F → F → Bool

/-- Doubles. What is no number is left out of extremes; if it is all there is, the extreme stays at
infinity. -/
instance : Scalar Float where
  ofNat := Float.ofNat
  ofFloat x := x
  sqrt := Float.sqrt
  lesser a x :=
    let m := a.getD (1 / 0)
    if x.isNaN then m else if m.isNaN || x < m then x else m
  greater a x :=
    let m := a.getD (-1 / 0)
    if x.isNaN then m else if m.isNaN || m < x then x else m
  less a b := a < b

end HazardDispatch
