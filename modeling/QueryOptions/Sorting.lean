/-!
Stable insertion sort. Elements that the order does not tell apart keep their order.
-/

namespace QueryOptions.Sorting

variable {α : Type u}

def insert (le : α → α → Bool) (element : α) : List α → List α
  | [] => [element]
  | first :: rest =>
      if le element first then element :: first :: rest else first :: insert le element rest

def sort (le : α → α → Bool) (elements : List α) : List α := elements.foldr (insert le) []

/-- Drops elements that follow an equal one. -/
def dropRepeats [BEq α] : List α → List α
  | [] => []
  | [element] => [element]
  | first :: second :: rest =>
      if first == second then dropRepeats (second :: rest)
      else first :: dropRepeats (second :: rest)

theorem insert_perm (le : α → α → Bool) (element : α) (elements : List α) :
    (insert le element elements).Perm (element :: elements) := by
  induction elements with
  | nil => exact .refl _
  | cons first rest ih =>
      unfold insert
      split
      · exact .refl _
      · exact (ih.cons first).trans (.swap element first rest)

theorem sort_perm (le : α → α → Bool) (elements : List α) :
    (sort le elements).Perm elements := by
  induction elements with
  | nil => exact .refl _
  | cons first rest ih => exact (insert_perm le first _).trans (ih.cons first)

theorem eq_nil_of_sort {le : α → α → Bool} {elements : List α} (sorted : sort le elements = []) :
    elements = [] := by
  have perm := sort_perm le elements
  rw [sorted] at perm
  exact perm.nil_eq.symm

end QueryOptions.Sorting
