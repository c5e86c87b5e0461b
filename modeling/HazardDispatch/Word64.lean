/-!
# 64-bit counters

Counters are words of 64 bits. Sums that the accounting relies on are checked: `add?` and `sum?`
report an `Overflow` instead of wrapping. Weights, which only steer how work is cut into blocks,
saturate: `satAdd` and `satMul` stop at the greatest word.
-/

namespace HazardDispatch

/-- A checked sum left the range of 64 bits. -/
structure Overflow where
deriving DecidableEq, Repr

def Overflow.message (_ : Overflow) : String := "attempt to add with overflow"

/-- How many words of 32 bits there are. -/
def Word32.bound : Nat := 4294967296

namespace Word64

/-- How many words of 64 bits there are. -/
def bound : Nat := 18446744073709551616

def greatest : Nat := bound - 1

/-- The sum, if it is in range. -/
def add? (a b : UInt64) : Except Overflow UInt64 :=
  if a.toNat + b.toNat < bound then .ok (a + b) else .error {}

/-- The sum of a list, taken from the left, if all partial sums are in range. -/
def sum? (ws : List UInt64) : Except Overflow UInt64 := ws.foldlM add? 0

/-- The sum, or the greatest word if that is less. -/
def satAdd (a b : UInt64) : UInt64 := .ofNat (min (a.toNat + b.toNat) greatest)

/-- The product, or the greatest word if that is less. -/
def satMul (a b : UInt64) : UInt64 := .ofNat (min (a.toNat * b.toNat) greatest)

theorem toNat_satAdd (a b : UInt64) :
    (satAdd a b).toNat = min (a.toNat + b.toNat) greatest := by
  unfold satAdd greatest bound
  rw [UInt64.toNat_ofNat_of_lt']
  show _ < 2 ^ 64
  omega

theorem toNat_satMul (a b : UInt64) :
    (satMul a b).toNat = min (a.toNat * b.toNat) greatest := by
  unfold satMul greatest bound
  rw [UInt64.toNat_ofNat_of_lt']
  show _ < 2 ^ 64
  omega

end Word64
end HazardDispatch
