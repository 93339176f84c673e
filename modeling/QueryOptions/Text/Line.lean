import QueryOptions.Text.Digit

/-!
Texts that stand on one line: those without a line feed.
-/

namespace QueryOptions.Text

def IsLine (text : Text) : Prop := '\n'.toNat ∉ text

instance (text : Text) : Decidable (IsLine text) := inferInstanceAs (Decidable (_ ∉ _))

variable {text more : Text} {point : CodePoint}

@[simp] theorem isLine_nil : IsLine [] := List.not_mem_nil

@[simp] theorem isLine_cons : IsLine (point :: text) ↔ point ≠ '\n'.toNat ∧ IsLine text := by
  simp [IsLine, eq_comm]

@[simp] theorem isLine_append : IsLine (text ++ more) ↔ IsLine text ∧ IsLine more := by
  simp [IsLine]

theorem IsLine.of_subset (line : IsLine text) (part : ∀ point ∈ more, point ∈ text) : IsLine more :=
  fun inside => line (part _ inside)

theorem isLine_flatMap {α : Type} {items : List α} {piece : α → Text} :
    IsLine (items.flatMap piece) ↔ ∀ item ∈ items, IsLine (piece item) := by
  simp [IsLine]

theorem isLine_join_iff {separator : Text} (line : IsLine separator) {pieces : List Text} :
    IsLine (join separator pieces) ↔ ∀ piece ∈ pieces, IsLine piece := by
  unfold join
  induction pieces with
  | nil => simp
  | cons piece rest ih =>
      cases rest with
      | nil => simp [List.intercalate_singleton]
      | cons next rest =>
          rw [List.intercalate_cons_cons]
          simp only [isLine_append, ih, line, and_true, List.forall_mem_cons]

theorem isLine_join (separator : Text) (line : IsLine separator) {pieces : List Text}
    (lines : ∀ piece ∈ pieces, IsLine piece) : IsLine (join separator pieces) :=
  (isLine_join_iff line).mpr lines

/-! Numbers. -/

theorem isLine_of_digits {digits : List Nat} : IsLine (digits.map (· + '0'.toNat)) := by
  intro inside
  obtain ⟨digit, -, same⟩ := List.mem_map.mp inside
  exact absurd (Nat.le_of_add_left_le (Nat.le_of_eq same)) (by decide)

@[simp] theorem isLine_ofNat (number : Nat) : IsLine (ofNat number) := isLine_of_digits

@[simp] theorem isLine_ofInt (number : Int) : IsLine (ofInt number) := by
  cases number with
  | ofNat number => exact isLine_ofNat number
  | negSucc number => exact isLine_cons.mpr ⟨by decide, isLine_ofNat _⟩

/-- A labelled number that is left out where it is zero. -/
theorem isLine_of_mem_labelled {label : Text} (line : IsLine label) (number : Int) :
    ∀ piece ∈ (if number = 0 then [] else [label ++ ofInt number]), IsLine piece := by
  split
  · exact nofun
  · exact List.forall_mem_singleton.mpr (isLine_append.mpr ⟨line, isLine_ofInt number⟩)

theorem isLine_replicate (different : point ≠ '\n'.toNat) (count : Nat) :
    IsLine (List.replicate count point) :=
  fun inside => different (List.eq_of_mem_replicate inside).symm

@[simp] theorem isLine_ofNatPadded (width number : Nat) : IsLine (ofNatPadded width number) :=
  isLine_append.mpr ⟨isLine_replicate (by decide) _, isLine_ofNat number⟩

end QueryOptions.Text
