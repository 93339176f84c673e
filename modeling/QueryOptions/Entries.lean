/-!
Mappings as lists of pairs in the order in which keys were first given. Giving a key again replaces
its value and keeps the place and the spelling of the key.
-/

namespace QueryOptions.Entries

variable {κ : Type u} {ν : Type v} [BEq κ]

def put (key : κ) (value : ν) : List (κ × ν) → List (κ × ν)
  | [] => [(key, value)]
  | (known, old) :: rest =>
      if known == key then (known, value) :: rest else (known, old) :: put key value rest

/-- The mapping that the pairs give one after the other. -/
def ofPairs (pairs : List (κ × ν)) : List (κ × ν) :=
  pairs.foldl (fun entries pair => put pair.1 pair.2 entries) []

def find? (key : κ) : List (κ × ν) → Option ν
  | [] => none
  | (known, value) :: rest => if known == key then some value else find? key rest

def hasKey (key : κ) (entries : List (κ × ν)) : Bool := (find? key entries).isSome

theorem exists_mem_of_find? {key : κ} {value : ν} {entries : List (κ × ν)}
    (found : find? key entries = some value) :
    ∃ known, (known, value) ∈ entries ∧ (known == key) = true := by
  induction entries with
  | nil => simp [find?] at found
  | cons entry rest ih =>
      obtain ⟨known, first⟩ := entry
      unfold find? at found
      split at found
      · cases found
        exact ⟨known, List.mem_cons_self, ‹_›⟩
      · obtain ⟨other, inRest, same⟩ := ih found
        exact ⟨other, List.mem_cons_of_mem _ inRest, same⟩

theorem hasKey_iff {key : κ} {entries : List (κ × ν)} :
    hasKey key entries = true ↔ ∃ entry ∈ entries, (entry.1 == key) = true := by
  induction entries with
  | nil => simp [hasKey, find?]
  | cons entry rest ih =>
      obtain ⟨known, value⟩ := entry
      by_cases same : known == key
      · simp [hasKey, find?, same]
      · simpa [hasKey, find?, same] using ih

theorem find?_eq_none_iff {key : κ} {entries : List (κ × ν)} :
    find? key entries = none ↔ ∀ entry ∈ entries, (entry.1 == key) = false := by
  rw [← Option.not_isSome_iff_eq_none, show (find? key entries).isSome = hasKey key entries from rfl,
    hasKey_iff]
  simp

/-- Giving a key keeps the spellings of the keys that are there. -/
theorem of_mem_put {key : κ} {value : ν} {entry : κ × ν} {entries : List (κ × ν)}
    (inside : entry ∈ put key value entries) : entry ∈ entries ∨
      entry.2 = value ∧ (entry.1 = key ∨ ∃ known ∈ entries, entry.1 = known.1) := by
  induction entries with
  | nil =>
      rw [put, List.mem_singleton] at inside
      exact .inr (inside ▸ ⟨rfl, .inl rfl⟩)
  | cons first rest ih =>
      unfold put at inside
      split at inside
      · rcases List.mem_cons.mp inside with rfl | inRest
        · exact .inr ⟨rfl, .inr ⟨first, List.mem_cons_self, rfl⟩⟩
        · exact .inl (List.mem_cons_of_mem _ inRest)
      · rcases List.mem_cons.mp inside with rfl | inRest
        · exact .inl List.mem_cons_self
        · rcases ih inRest with old | ⟨new, given | ⟨known, listed, same⟩⟩
          · exact .inl (List.mem_cons_of_mem _ old)
          · exact .inr ⟨new, .inl given⟩
          · exact .inr ⟨new, .inr ⟨known, List.mem_cons_of_mem _ listed, same⟩⟩

theorem exists_key_of_mem_put {key : κ} {value : ν} {entry : κ × ν} {entries : List (κ × ν)}
    (inside : entry ∈ put key value entries) :
    entry.1 = key ∨ ∃ known ∈ entries, entry.1 = known.1 := by
  rcases of_mem_put inside with old | ⟨-, given⟩
  · exact .inr ⟨entry, old, rfl⟩
  · exact given

theorem ofPairs_concat (pairs : List (κ × ν)) (pair : κ × ν) :
    ofPairs (pairs ++ [pair]) = put pair.1 pair.2 (ofPairs pairs) := by
  rw [ofPairs, List.foldl_append]
  rfl

/-- Every key of a mapping comes from a pair. -/
theorem exists_of_mem_ofPairs {entry : κ × ν} {pairs : List (κ × ν)}
    (inside : entry ∈ ofPairs pairs) : ∃ pair ∈ pairs, entry.1 = pair.1 := by
  generalize same : pairs.reverse = reversed
  obtain rfl : pairs = reversed.reverse := by rw [← same, List.reverse_reverse]
  clear same
  induction reversed generalizing entry with
  | nil => cases inside
  | cons pair rest ih =>
      rw [List.reverse_cons, ofPairs_concat] at inside
      rcases exists_key_of_mem_put inside with given | ⟨known, listed, spelled⟩
      · exact ⟨pair, by simp, given⟩
      · obtain ⟨first, inRest, given⟩ := ih listed
        exact ⟨first, by simp [List.mem_reverse.mp inRest], spelled.trans given⟩

theorem find?_congr [PartialEquivBEq κ] {left right : κ} (same : (left == right) = true)
    (entries : List (κ × ν)) : find? left entries = find? right entries := by
  induction entries with
  | nil => rfl
  | cons entry rest ih => rw [find?, find?, BEq.congr_right same, ih]

/-- No key is given twice. -/
def Distinct (entries : List (κ × ν)) : Prop :=
  entries.Pairwise fun left right => (left.1 == right.1) = false

instance (entries : List (κ × ν)) : Decidable (Distinct entries) :=
  inferInstanceAs (Decidable (entries.Pairwise _))

theorem Distinct.put {key : κ} {value : ν} {entries : List (κ × ν)} (distinct : Distinct entries) :
    Distinct (Entries.put key value entries) := by
  induction entries with
  | nil => exact List.pairwise_singleton _ _
  | cons first rest ih =>
      obtain ⟨apart, others⟩ := List.pairwise_cons.mp distinct
      unfold Entries.put
      split
      · exact List.pairwise_cons.mpr ⟨apart, others⟩
      · rename_i other
        refine List.pairwise_cons.mpr ⟨fun entry inside => ?_, ih others⟩
        rcases exists_key_of_mem_put inside with given | ⟨known, listed, spelled⟩
        · rw [given]
          exact Bool.eq_false_iff.mpr other
        · rw [spelled]
          exact apart known listed

section Distinct

variable [EquivBEq κ] {key : κ} {entry other : κ × ν} {entries : List (κ × ν)}

theorem Distinct.entry_eq (distinct : Distinct entries) (inside : entry ∈ entries)
    (otherInside : other ∈ entries) (same : (entry.1 == other.1) = true) : entry = other := by
  induction entries with
  | nil => simp at inside
  | cons first rest ih =>
      obtain ⟨apart, others⟩ := List.pairwise_cons.mp distinct
      rcases List.mem_cons.mp inside with rfl | inRest <;>
        rcases List.mem_cons.mp otherInside with rfl | otherInRest
      · rfl
      · rw [apart other otherInRest] at same
        contradiction
      · rw [BEq.comm, apart entry inRest] at same
        contradiction
      · exact ih others inRest otherInRest

theorem Distinct.find?_of_mem (distinct : Distinct entries) (inside : entry ∈ entries)
    (same : (entry.1 == key) = true) : find? key entries = some entry.2 := by
  obtain ⟨value, found⟩ := Option.isSome_iff_exists.mp (hasKey_iff.mpr ⟨entry, inside, same⟩)
  obtain ⟨known, other, hit⟩ := exists_mem_of_find? found
  rw [found, distinct.entry_eq inside other (BEq.trans same (BEq.symm hit))]

end Distinct

theorem find?_put [EquivBEq κ] (key other : κ) (value : ν) (entries : List (κ × ν)) :
    find? other (put key value entries) = if key == other then some value else find? other entries := by
  induction entries with
  | nil => simp [put, find?]
  | cons entry rest ih =>
      obtain ⟨known, old⟩ := entry
      by_cases same : known == key
      · simp only [put, find?, same, BEq.congr_left same, if_true]
        split <;> rfl
      · by_cases hit : known == other
        · have apart : ¬ (key == other) = true := fun met => same (BEq.trans hit (BEq.symm met))
          simp [put, find?, same, hit, apart]
        · simp [put, find?, same, hit, ih]

theorem find?_put_self [LawfulBEq κ] (key : κ) (value : ν) (entries : List (κ × ν)) :
    find? key (put key value entries) = some value := by
  simp [find?_put]

theorem find?_put_of_ne [LawfulBEq κ] {key other : κ} (value : ν) (entries : List (κ × ν))
    (different : key ≠ other) : find? other (put key value entries) = find? other entries := by
  simp [find?_put, different]

/-- Giving a key twice is to give it once. -/
theorem put_put [ReflBEq κ] (key : κ) (value old : ν) (entries : List (κ × ν)) :
    put key value (put key old entries) = put key value entries := by
  induction entries with
  | nil => simp [put]
  | cons entry rest ih =>
      obtain ⟨known, first⟩ := entry
      by_cases same : known == key
      · simp [put, same]
      · simp [put, same, ih]

theorem find?_append (key : κ) (first second : List (κ × ν)) :
    find? key (first ++ second) = (find? key first).or (find? key second) := by
  induction first with
  | nil => rfl
  | cons entry rest ih =>
      obtain ⟨known, value⟩ := entry
      rw [List.cons_append, find?, find?, ih]
      split <;> rfl

/-- Of the pairs with one key the last one counts. -/
theorem find?_ofPairs [EquivBEq κ] (key : κ) (pairs : List (κ × ν)) :
    find? key (ofPairs pairs) = find? key pairs.reverse := by
  generalize same : pairs.reverse = reversed
  obtain rfl : pairs = reversed.reverse := by rw [← same, List.reverse_reverse]
  clear same
  induction reversed with
  | nil => rfl
  | cons pair rest ih =>
      rw [List.reverse_cons, ofPairs_concat, find?_put, ih]
      rfl

end QueryOptions.Entries
