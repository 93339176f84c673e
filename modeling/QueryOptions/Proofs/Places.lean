import QueryOptions.Proofs.SourceLookup
import QueryOptions.Yaml.Document

namespace QueryOptions

/-! The places of a node tree. A path of keys and indices leads to a node, past entries whose key is
given again later; the last place noted under the pointer of the path is where that node stands,
since pointers of different paths differ. -/

namespace Pointer

theorem unescape_escape (token : Text) : unescape (escape token) = token := by
  induction token with
  | nil => rfl
  | cons point rest ih =>
      rw [escape, List.flatMap_cons, ← escape]
      split
      · rename_i tilde
        rw [tilde]
        show '~'.toNat :: unescape (escape rest) = _
        rw [ih]
      · rename_i plain
        split
        · rename_i slash
          rw [slash]
          show '/'.toNat :: unescape (escape rest) = _
          rw [ih]
        · rw [List.singleton_append]
          cases escaped : escape rest with
          | nil => rw [unescape, ← ih, escaped, unescape]
          | cons next others =>
              have other : ¬ point = 126 := plain
              rw [unescape, ← escaped, ih]
              simp [other]

theorem append_inj {base other token another : Text} :
    append base token = append other another ↔ base = other ∧ token = another := by
  refine ⟨fun same => ?_, fun ⟨bases, tokens⟩ => by rw [bases, tokens]⟩
  rw [append_eq, append_eq] at same
  have cut := congrArg (Text.splitLast? '/') same
  rw [Text.splitLast?_append (slash_notMem_escape _),
    Text.splitLast?_append (slash_notMem_escape _)] at cut
  obtain ⟨bases, escapes⟩ := Prod.mk.inj (Option.some.inj cut)
  exact ⟨bases, by rw [← unescape_escape token, escapes, unescape_escape]⟩

theorem ofTokens_injective : Function.Injective ofTokens := by
  intro left right same
  induction left using List.reverseRecOn generalizing right with
  | nil =>
      rcases List.eq_nil_or_concat right with rfl | ⟨others, other, rfl⟩
      · rfl
      · simp [append_eq] at same
  | append_singleton tokens token ih =>
      rcases List.eq_nil_or_concat right with rfl | ⟨others, other, rfl⟩
      · simp [append_eq] at same
      · rw [List.concat_eq_append, ofTokens_concat, ofTokens_concat, append_inj] at same
        rw [List.concat_eq_append, ih same.1, same.2]

theorem foldl_append (tokens more : List Text) :
    more.foldl append (ofTokens tokens) = ofTokens (tokens ++ more) := List.foldl_append.symm

end Pointer

namespace Yaml

/-- A step on the way to a value: the key of a mapping or the place in a list. -/
inductive PathStep where
  | key (name : Text)
  | item (index : Nat)

/-- What the step puts into pointers. -/
def PathStep.token : PathStep → Text
  | .key name => name
  | .item index => Text.ofNat index

/-- The pointer of a path. -/
def pointerOf (path : List PathStep) : Text := Pointer.ofTokens (path.map PathStep.token)

end Yaml

open Yaml (PathStep)

namespace Value

def below? : Value → PathStep → Option Value
  | .map entries, .key name => Entries.find? (.text name) entries
  | .list items, .item index => items[index]?
  | _, _ => none

/-- The value that a path leads to. -/
def at? (path : List PathStep) (value : Value) : Option Value := path.foldlM below? value

theorem at?_key (name : Text) (path : List PathStep) (entries : List (Value × Value)) :
    (Value.map entries).at? (.key name :: path) =
      (Entries.find? (.text name) entries).bind (·.at? path) := rfl

theorem at?_empty {path : List PathStep} {value : Value}
    (led : (Value.map []).at? path = some value) : path = [] ∧ value = .map [] := by
  cases path with
  | nil => exact ⟨rfl, (Option.some.inj led).symm⟩
  | cons step rest => cases step <;> cases led

/-- Whether a value is a list or a mapping. -/
def isCollection : Value → Bool
  | .list _ => true
  | .map _ => true
  | _ => false

theorem isCollection_of_below? {value part : Value} {step : PathStep}
    (found : value.below? step = some part) : value.isCollection = true := by
  unfold below? at found
  split at found
  · rfl
  · rfl
  · cases found

end Value

namespace Yaml.Node

variable {node below : Node} {step : PathStep} {path : List PathStep} {pointer token : Text}
  {tokens : List Text} {place : Text × Position}

/-- The nodes right below a node, each with its token in pointers. -/
def parts : Node → List (Text × Node)
  | .scalar _ _ _ => []
  | .sequence _ items _ => items.zipIdx.map fun (item, index) => (Text.ofNat index, item)
  | .mapping _ entries _ => entries.map fun (key, value) => (key.pointerToken, value)

/-- Induction over nodes, from the parts of each. -/
theorem parts_induction {motive : Node → Prop}
    (step : ∀ node : Node, (∀ part ∈ node.parts, motive part.2) → motive node) (node : Node) :
    motive node := by
  refine @Node.rec motive (fun items => ∀ item ∈ items, motive item)
    (fun entries => ∀ entry ∈ entries, motive entry.2) (fun entry => motive entry.2)
    (fun _ _ _ => step _ (by simp [parts])) ?_ ?_ (by simp)
    (fun _ _ first rest => List.forall_mem_cons.mpr ⟨first, rest⟩) (by simp)
    (fun _ _ first rest => List.forall_mem_cons.mpr ⟨first, rest⟩) (fun _ _ _ value => value) node
  · intro tag items mark ih
    refine step _ fun part inside => ?_
    obtain ⟨⟨item, index⟩, listed, rfl⟩ := List.mem_map.mp inside
    exact ih item (List.fst_mem_of_mem_zipIdx listed)
  · intro tag entries mark ih
    refine step _ fun part inside => ?_
    obtain ⟨entry, listed, rfl⟩ := List.mem_map.mp inside
    exact ih entry listed

/-- The node one step below; of several entries with one key it is in the last. -/
def below? : Node → PathStep → Option Node
  | .mapping tag entries mark, .key name =>
      Entries.find? name (parts (.mapping tag entries mark)).reverse
  | .sequence _ items _, .item index => items[index]?
  | _, _ => none

/-- The node that a path leads to. -/
def at? (path : List PathStep) (node : Node) : Option Node := path.foldlM below? node

theorem distinct_items (items : List Node) : Entries.Distinct
    (items.zipIdx.map fun (item, index) => (Text.ofNat index, item)).reverse := by
  have increasing : (items.zipIdx.map Prod.snd).Pairwise (· < ·) := by
    rw [List.zipIdx_map_snd]
    exact List.pairwise_lt_range'
  refine List.pairwise_reverse.mpr (List.pairwise_map.mpr ?_)
  refine (List.pairwise_map.mp increasing).imp ?_
  intro left right less
  exact beq_false_of_ne fun same => Nat.ne_of_lt less (Text.ofNat_inj.mp same).symm

theorem find?_of_below? (found : node.below? step = some below) :
    Entries.find? step.token node.parts.reverse = some below := by
  unfold below? at found
  split at found
  · exact found
  · rename_i tag items mark index
    have inside : (Text.ofNat index, below) ∈ (parts (.sequence tag items mark)).reverse :=
      List.mem_reverse.mpr (List.mem_map.mpr
        ⟨(below, index), List.mk_mem_zipIdx_iff_getElem?.mpr found, rfl⟩)
    exact (distinct_items items).find?_of_mem inside (beq_self_eq_true _)
  · cases found

theorem exists_part_of_below? (found : node.below? step = some below) :
    ∃ name, (name, below) ∈ node.parts := by
  obtain ⟨name, inside, -⟩ := Entries.exists_mem_of_find? (find?_of_below? found)
  exact ⟨name, List.mem_reverse.mp inside⟩

theorem places_eq (pointer : Text) (node : Node) :
    node.places pointer = (pointer, node.position) ::
      node.parts.flatMap fun part => part.2.places (Pointer.append pointer part.1) := by
  cases node with
  | scalar => rfl
  | sequence tag items mark =>
      have items (start : Nat) : placesOfItems pointer start items =
          (items.zipIdx start).flatMap fun (item, index) =>
            item.places (Pointer.append pointer (Text.ofNat index)) := by
        induction items generalizing start with
        | nil => rfl
        | cons item rest ih => rw [placesOfItems, ih]; rfl
      rw [places, items, parts, List.flatMap_map]
  | mapping tag entries mark =>
      have entries : placesOfEntries pointer entries = entries.flatMap fun (key, value) =>
          value.places (Pointer.append pointer key.pointerToken) := by
        induction entries with
        | nil => rfl
        | cons entry rest ih => rw [placesOfEntries, ih]; rfl
      rw [places, entries, parts, List.flatMap_map]

/-- The places of a node have pointers that begin with the node's, and lines and columns. -/
theorem exists_of_mem_places (inside : place ∈ node.places pointer) :
    (∃ more : List Text, place.1 = more.foldl Pointer.append pointer) ∧
      ∃ line column, place.2 = ⟨some line, some column⟩ := by
  induction node using parts_induction generalizing pointer with
  | step node ih =>
      rw [places_eq] at inside
      rcases List.mem_cons.mp inside with rfl | inside
      · exact ⟨⟨[], rfl⟩, _, _, rfl⟩
      · obtain ⟨part, listed, within⟩ := List.mem_flatMap.mp inside
        obtain ⟨⟨more, pointed⟩, known⟩ := ih part listed within
        exact ⟨⟨part.1 :: more, pointed⟩, known⟩

theorem exists_tokens_of_mem_places {part : Node}
    (inside : place ∈ part.places (Pointer.append (Pointer.ofTokens tokens) token)) :
    ∃ more, place.1 = Pointer.ofTokens (tokens ++ token :: more) := by
  obtain ⟨⟨more, pointed⟩, -⟩ := exists_of_mem_places inside
  rw [← Pointer.ofTokens_concat, Pointer.foldl_append, ← List.append_cons] at pointed
  exact ⟨more, pointed⟩

/-- Under a pointer that begins with a part's, none of the places of other parts is noted. -/
theorem find?_places_of_ne {name : Text} (part : Node) (more : List Text) (other : name ≠ token) :
    Entries.find? (Pointer.ofTokens (tokens ++ token :: more))
      (part.places (Pointer.append (Pointer.ofTokens tokens) name)).reverse = none := by
  refine Entries.find?_eq_none_iff.mpr fun place inside => beq_false_of_ne fun same => ?_
  obtain ⟨further, pointed⟩ := exists_tokens_of_mem_places (List.mem_reverse.mp inside)
  have tokensSame := Pointer.ofTokens_injective (pointed.symm.trans same)
  simp [other] at tokensSame

/-- Under the pointer of a node, none of the places of its parts is noted. -/
theorem find?_places_of_parts (node : Node) (tokens : List Text) :
    Entries.find? (Pointer.ofTokens tokens) (node.parts.flatMap fun part =>
      part.2.places (Pointer.append (Pointer.ofTokens tokens) part.1)).reverse = none := by
  refine Entries.find?_eq_none_iff.mpr fun place inside => beq_false_of_ne fun same => ?_
  obtain ⟨part, -, within⟩ := List.mem_flatMap.mp (List.mem_reverse.mp inside)
  obtain ⟨more, pointed⟩ := exists_tokens_of_mem_places within
  have tokensSame := Pointer.ofTokens_injective (pointed.symm.trans same)
  simp at tokensSame

/-- The last place under a pointer below a part is among the places of the part. -/
theorem find?_places_of_part {more : List Text} {position : Position}
    (found : Entries.find? token node.parts.reverse = some below)
    (noted : Entries.find? (Pointer.ofTokens (tokens ++ token :: more))
      (below.places (Pointer.ofTokens (tokens ++ [token]))).reverse = some position) :
    Entries.find? (Pointer.ofTokens (tokens ++ token :: more))
      (node.places (Pointer.ofTokens tokens)).reverse = some position := by
  rw [places_eq, List.reverse_cons, Entries.find?_append, List.reverse_flatMap]
  refine Option.or_eq_some_iff.mpr (.inl ?_)
  generalize node.parts.reverse = parts at found ⊢
  induction parts with
  | nil => cases found
  | cons part rest ih =>
      obtain ⟨name, first⟩ := part
      rw [List.flatMap_cons, Entries.find?_append]
      unfold Entries.find? at found
      split at found
      · rename_i same
        cases found
        rw [beq_iff_eq.mp same, Function.comp_apply, ← Pointer.ofTokens_concat, noted]
        rfl
      · rename_i other
        rw [Function.comp_apply, find?_places_of_ne first more (mt beq_iff_eq.mpr other),
          Option.none_or]
        exact ih found

/-- The last place under the pointer of a path is that of the node that the path leads to. -/
theorem find?_places (led : node.at? path = some below) :
    Entries.find? (Pointer.ofTokens (tokens ++ path.map PathStep.token))
      (node.places (Pointer.ofTokens tokens)).reverse = some below.position := by
  induction path generalizing node tokens with
  | nil =>
      have here : node = below := Option.some.inj led
      rw [places_eq, List.reverse_cons, Entries.find?_append, List.map_nil, List.append_nil,
        find?_places_of_parts, Option.none_or, Entries.find?, if_pos (beq_self_eq_true _), here]
  | cons step rest ih =>
      obtain ⟨middle, stepped, onward⟩ := Option.bind_eq_some_iff.mp led
      refine find?_places_of_part (find?_of_below? stepped) ?_
      rw [List.append_cons]
      exact ih onward

/-- The source map has the position of every node that a path leads to. -/
theorem find?_sourceMap (led : node.at? path = some below) :
    Entries.find? (pointerOf path) node.sourceMap = some below.position := by
  rw [sourceMap, Entries.find?_ofPairs]
  show Entries.find? (Pointer.ofTokens ([] ++ path.map PathStep.token))
    (node.places (Pointer.ofTokens [])).reverse = some below.position
  exact find?_places led

end Yaml.Node

end QueryOptions
