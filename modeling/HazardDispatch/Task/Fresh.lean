import HazardDispatch.Task.Id
import HazardDispatch.Text.Hex

/-!
# Fresh names

A name that nobody chose is made of 128 random bits, six of which are replaced by the marks of a
random identifier: version 4 in the upper half, variant 1 in the lower.
-/

namespace HazardDispatch

/-- Sixteen hexadecimal digits. -/
def Hex.ofWord (w : UInt64) : List Char :=
  (List.range 16).map fun i => Hex.digit (w.toNat / Nat.pow 16 (15 - i) % 16)

/-- The 32 digits of an identifier made of random words. -/
def freshDigits (hi lo : UInt64) : List Char :=
  Hex.ofWord ((hi &&& 0xFFFFFFFFFFFF0FFF) ||| 0x4000) ++
    Hex.ofWord ((lo &&& 0x3FFFFFFFFFFFFFFF) ||| 0x8000000000000000)

/-- A task's fresh name: the digits in groups of 8, 4, 4, 4 and 12. -/
def TaskId.fresh (hi lo : UInt64) : TaskId :=
  let ds := freshDigits hi lo
  let part := fun (start len : Nat) => String.ofList ((ds.drop start).take len)
  ⟨String.intercalate "-" [part 0 8, part 8 4, part 12 4, part 16 4, part 20 12]⟩

def WorkerId.fresh (hi lo : UInt64) : WorkerId := ⟨"worker-" ++ String.ofList (freshDigits hi lo)⟩

end HazardDispatch
