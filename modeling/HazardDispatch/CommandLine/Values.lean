import HazardDispatch.Decimal.Numeral
import HazardDispatch.Text.Pieces

/-!
# Values on a command line

How numbers are read: whole numbers may have a sign and leading zeros, and have to be in range;
fractional numbers may leave out the digits on one side of the point.
-/

namespace HazardDispatch.CommandLine

/-- The text without a plus sign at its front. -/
def withoutPlus : List Char → List Char
  | '+' :: cs => cs
  | cs => cs

/-- A number below `bound`. -/
def naturalBelow? (bound : Nat) (s : String) : Option Nat :=
  (Decimal.natural? (withoutPlus s.toList)).filter (· < bound)

def word64? (s : String) : Option Nat := naturalBelow? Word64.bound s

/-- A number of 32 bits. Zero may have a minus sign. -/
def word32? (s : String) : Option UInt32 :=
  match s.toList with
  | '-' :: cs => (Decimal.natural? cs).bind fun n => if n = 0 then some 0 else none
  | _ => (naturalBelow? Word32.bound s).map .ofNat

/-! ## fractional numbers -/

/-- The digits at the front, and what follows them. -/
def takeDigits (cs : List Char) : List Decimal.Digit × List Char :=
  Text.takeValues Decimal.Digit.ofChar? cs

/-- The sign at the front, and what follows it. -/
def takeSign : List Char → Bool × List Char
  | '-' :: cs => (true, cs)
  | '+' :: cs => (false, cs)
  | cs => (false, cs)

/-- A power of ten with nothing after it. -/
def exponent? : List Char → Option (Option Decimal.Exponent)
  | [] => some none
  | c :: cs =>
    if c = 'e' ∨ c = 'E' then
      let (negative, cs) := takeSign cs
      match takeDigits cs with
      | ([], _) => none
      | (ds, []) => some (some ⟨negative, ds⟩)
      | _ => none
    else none

/-- An unsigned numeral with nothing after it, which gets the given sign. -/
def numeral? (negative : Bool) (cs : List Char) : Option Decimal.Numeral := do
  let (whole, cs) := takeDigits cs
  let (fraction, cs) := match cs with
    | '.' :: rest => takeDigits rest
    | cs => ([], cs)
  if whole.isEmpty && fraction.isEmpty then none
  return ⟨negative, whole, fraction, ← exponent? cs⟩

/-- The double that is nearest to a numeral. -/
def nearest (n : Decimal.Numeral) : Float :=
  let m := Decimal.value (n.whole ++ n.fraction)
  let power : Int := match n.exponent with
    | none => 0
    | some e => if e.negative then -(Decimal.value e.digits : Int) else Decimal.value e.digits
  let power := power - n.fraction.length
  let size : Int := power + (Decimal.digits m).length
  let x : Float :=
    if m = 0 ∨ size < -400 then 0
    else if 400 < size then 1 / 0
    else Float.ofScientific m (power < 0) power.natAbs
  if n.negative then -x else x

/-- A fractional number, infinite or no number at all if a word says so. -/
def float? (s : String) : Option Float :=
  let (negative, cs) := takeSign s.toList
  let sign (x : Float) : Float := if negative then -x else x
  let word := String.ofList (cs.map Char.toLower)
  if word = "nan" then some (0 / 0)
  else if word = "inf" ∨ word = "infinity" then some (sign (1 / 0))
  else (numeral? negative cs).map nearest

end HazardDispatch.CommandLine
