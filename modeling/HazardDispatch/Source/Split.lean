import HazardDispatch.Word64

/-!
# Cutting a list into blocks

Consecutive items are put into one block as long as their weight stays within a limit. A block is
closed when the next item would push it past the limit, so an item that is too heavy by itself ends
up alone.
-/

namespace HazardDispatch.Split

/-- The limit with which about `tasks` blocks cover the total. -/
def limit (total : UInt64) (tasks : Nat) : UInt64 :=
  let n := max tasks 1
  .ofNat (max ((total.toNat + n - 1) / n) 1)

variable {α : Type}

/-- The blocks of the items, when `block` with weight `filled` is open. -/
def blocksFrom (limit : UInt64) (weight : α → UInt64) :
    List α → UInt64 → List α → List (List α)
  | block, _, [] => if block.isEmpty then [] else [block]
  | block, filled, x :: xs =>
    if !block.isEmpty && limit < Word64.satAdd filled (weight x) then
      block :: blocksFrom limit weight [x] (Word64.satAdd 0 (weight x)) xs
    else blocksFrom limit weight (block ++ [x]) (Word64.satAdd filled (weight x)) xs

/-- The items in consecutive blocks of at most the limit. -/
def blocks (limit : UInt64) (weight : α → UInt64) (items : List α) : List (List α) :=
  blocksFrom limit weight [] 0 items

end HazardDispatch.Split
