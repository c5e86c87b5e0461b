/-!
# Decimal digits

A number as the list of its decimal digits, the most significant first.

* `digits n`   the digits of `n`, without leading zeros (`0` is the one digit `0`);
* `value ds`   the number that a digit list stands for; `value_digits` says that it undoes `digits`.
-/

namespace HazardDispatch.Decimal

abbrev Digit := Fin 10

def Digit.zero : Digit := ⟨0, by decide⟩

def Digit.char (d : Digit) : Char := Char.ofNat (48 + d.val)

def Digit.ofChar? (c : Char) : Option Digit :=
  if h : 48 ≤ c.toNat ∧ c.toNat < 58 then some ⟨c.toNat - 48, by omega⟩ else none

def digits (n : Nat) : List Digit :=
  if h : n < 10 then [⟨n, h⟩]
  else digits (n / 10) ++ [⟨n % 10, Nat.mod_lt n (by decide)⟩]

/-- The number that a digit list stands for. -/
def value (ds : List Digit) : Nat := ds.foldl (fun v d => 10 * v + d.val) 0

@[simp] theorem value_nil : value [] = 0 := rfl

theorem value_concat (ds : List Digit) (d : Digit) :
    value (ds ++ [d]) = 10 * value ds + d.val := by
  simp [value]

theorem value_digits (n : Nat) : value (digits n) = n := by
  induction n using digits.induct with
  | case1 n h => rw [digits, dif_pos h]; simp [value]
  | case2 n h ih => rw [digits, dif_neg h, value_concat, ih]; simp only; omega

theorem digits_ne_nil (n : Nat) : digits n ≠ [] := by
  rw [digits]; split <;> simp

/-- The text of a digit list. -/
def text (ds : List Digit) : List Char := ds.map Digit.char

/-- The decimal text of a number. -/
def ofNat (n : Nat) : String := String.ofList (text (digits n))

/-- The decimal text of a number, with zeros before it up to the given width. -/
def padded (width n : Nat) : String :=
  let ds := digits n
  String.ofList (text (List.replicate (width - ds.length) Digit.zero ++ ds))

/-- The number that a text of digits denotes; nothing for any other text. -/
def natural? (cs : List Char) : Option Nat :=
  if cs.isEmpty then none else (cs.mapM Digit.ofChar?).map value

end HazardDispatch.Decimal
