/-!
# Cutting lists

* `takeValues f xs`   the values that `f` gives to the elements at the front, up to the first that has
                      none, and what is left from there on;
* `pieces sep xs`     the lists between separators, at least one.
-/

namespace HazardDispatch.Text

/-- The values of the elements at the front, and what follows them. -/
def takeValues {α β : Type} (f : α → Option β) : List α → List β × List α
  | [] => ([], [])
  | a :: as =>
    match f a with
    | none => ([], a :: as)
    | some b => (b :: (takeValues f as).1, (takeValues f as).2)

theorem takeValues_append {α β : Type} (f : α → Option β) (g : β → α)
    (h : ∀ b, f (g b) = some b) (bs : List β) (as : List α)
    (stop : ∀ a ∈ as.head?, f a = none) : takeValues f (bs.map g ++ as) = (bs, as) := by
  induction bs with
  | nil =>
    cases as with
    | nil => rfl
    | cons a as => simp [takeValues, stop a (by simp)]
  | cons b bs ih => simp [takeValues, h, ih]

/-- The lists between separators. -/
def pieces (sep : Char) : List Char → List (List Char)
  | [] => [[]]
  | c :: cs =>
    if c = sep then [] :: pieces sep cs
    else
      match pieces sep cs with
      | [] => [[c]]
      | p :: ps => (c :: p) :: ps

theorem pieces_ne_nil (sep : Char) (cs : List Char) : pieces sep cs ≠ [] := by
  cases cs with
  | nil => simp [pieces]
  | cons c cs => rw [pieces]; split; · simp
                 · split <;> simp

end HazardDispatch.Text
