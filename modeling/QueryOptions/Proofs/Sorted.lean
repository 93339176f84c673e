import Mathlib.Data.List.Lex
import Mathlib.Data.List.Sort
import QueryOptions.Sorting
import QueryOptions.Text.Basic

namespace QueryOptions

/-! What sorting comes to. Texts are ordered by their code points, lists of texts by their texts. A
sorted list never goes back, and without its repeats it is known by its members. -/

namespace Text

abbrev Before (left right : Text) : Prop := List.Lex (· < ·) left right

abbrev ListBefore (left right : List Text) : Prop := List.Lex Before left right

theorem le_iff {left right : Text} : left.le right = true ↔ ¬ right.Before left := by
  induction left generalizing right with
  | nil => simp [le]
  | cons point rest ih =>
      cases right with
      | nil => simp [le]
      | cons other others =>
          simp only [le, Bool.or_eq_true, decide_eq_true_eq, Bool.and_eq_true, beq_iff_eq, ih,
            List.cons_lex_cons_iff]
          rcases Nat.lt_trichotomy point other with less | same | more
          · simp [less, Nat.lt_asymm less, Nat.ne_of_gt less]
          · simp [same]
          · simp [more, Nat.lt_asymm more, Nat.ne_of_gt more]

theorem listLe_iff {left right : List Text} :
    listLe left right = true ↔ ¬ ListBefore right left := by
  induction left generalizing right with
  | nil => simp [listLe]
  | cons text rest ih =>
      cases right with
      | nil => simp [listLe]
      | cons other others =>
          rw [listLe, ListBefore, List.cons_lex_cons_iff]
          by_cases same : text = other
          · have irreflexive : ¬ other.Before other := irrefl other
            rw [if_pos same, ih, same]
            simp [irreflexive]
          · rw [if_neg same, le_iff]
            simp [Ne.symm same]

end Text

namespace Sorting

variable {α κ : Type} {key : α → κ} {before : κ → κ → Prop} {le : α → α → Bool} {element : α}
  {elements : List α}

section Order

variable [IsOrderConnected κ before] [Std.Asymm before]

theorem pairwise_insert
    (agrees : ∀ left right, le left right = true ↔ ¬ before (key right) (key left))
    (sorted : elements.Pairwise fun left right => ¬ before (key right) (key left)) :
    (insert le element elements).Pairwise fun left right => ¬ before (key right) (key left) := by
  induction elements with
  | nil => simp [insert]
  | cons first rest ih =>
      obtain ⟨least, sortedRest⟩ := List.pairwise_cons.mp sorted
      unfold insert
      split
      · rename_i ahead
        have notAfter := (agrees element first).mp ahead
        refine List.pairwise_cons.mpr ⟨List.forall_mem_cons.mpr ⟨notAfter, ?_⟩, sorted⟩
        exact fun other inRest => IsOrderConnected.neg_trans (least other inRest) notAfter
      · rename_i behind
        have firstBefore : before (key first) (key element) := by
          by_contra not
          exact behind ((agrees element first).mpr not)
        refine List.pairwise_cons.mpr ⟨fun other inside => ?_, ih sortedRest⟩
        rcases List.mem_cons.mp ((insert_perm le element rest).mem_iff.mp inside) with rfl | inRest
        · exact asymm firstBefore
        · exact least other inRest

theorem pairwise_sort (key : α → κ)
    (agrees : ∀ left right, le left right = true ↔ ¬ before (key right) (key left))
    (elements : List α) :
    (sort le elements).Pairwise fun left right => ¬ before (key right) (key left) := by
  induction elements with
  | nil => exact .nil
  | cons first rest ih => exact pairwise_insert agrees ih

end Order

variable [BEq α] [LawfulBEq α]

theorem mem_dropRepeats : element ∈ dropRepeats elements ↔ element ∈ elements := by
  fun_induction dropRepeats elements with
  | case1 => rfl
  | case2 => rfl
  | case3 first second rest same ih =>
      rw [ih, eq_of_beq same]
      simp
  | case4 first second rest other ih => rw [List.mem_cons, ih, List.mem_cons (l := second :: rest)]

/-- Without repeats each element comes strictly before the later ones, if elements that stand alike
are equal. -/
theorem pairwise_dropRepeats [IsOrderConnected κ before] [Std.Trichotomous before]
    (sorted : elements.Pairwise fun left right => ¬ before (key right) (key left))
    (injective : ∀ left ∈ elements, ∀ right ∈ elements, key left = key right → left = right) :
    (dropRepeats elements).Pairwise fun left right => before (key left) (key right) := by
  fun_induction dropRepeats elements with
  | case1 => exact .nil
  | case2 => exact List.pairwise_singleton _ _
  | case3 first second rest same ih =>
      exact ih sorted.tail fun left inLeft right inRight =>
        injective left (List.mem_cons_of_mem _ inLeft) right (List.mem_cons_of_mem _ inRight)
  | case4 first second rest different ih =>
      obtain ⟨least, sortedRest⟩ := List.pairwise_cons.mp sorted
      have unequal : key first ≠ key second := fun equal => different (beq_iff_eq.mpr
        (injective first List.mem_cons_self second (by simp) equal))
      have next : before (key first) (key second) := by
        by_contra not
        exact unequal (Std.Trichotomous.trichotomous _ _ not (least second List.mem_cons_self))
      refine List.pairwise_cons.mpr ⟨fun other inside => ?_, ih sortedRest ?_⟩
      · rcases List.mem_cons.mp (mem_dropRepeats.mp inside) with rfl | inRest
        · exact next
        · exact (IsOrderConnected.conn _ (key other) _ next).resolve_right
            ((List.pairwise_cons.mp sortedRest).1 other inRest)
      · exact fun left inLeft right inRight =>
          injective left (List.mem_cons_of_mem _ inLeft) right (List.mem_cons_of_mem _ inRight)

end Sorting

end QueryOptions
