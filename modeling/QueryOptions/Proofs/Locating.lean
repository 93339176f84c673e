import QueryOptions.Catalog.Basic
import QueryOptions.Proofs.Places
import QueryOptions.Proofs.UntaggedTrees

namespace QueryOptions

/-! The source map locates the data. Filling a node tree without tags whose keys are texts makes
lists of its sequences and mappings of its mappings, so that a path of keys and indices leads to a
value and to the node it was made from alike. -/

namespace Yaml

namespace Filled

variable {α β : Type} {left : Filled α} {right : Filled β} {rest : Filled (List α)}

theorem both_eq_ok {pair : α × β} :
    both left right = .ok pair ↔ left = .ok pair.1 ∧ right = .ok pair.2 := by
  obtain ⟨first, second⟩ := pair
  cases left <;> cases right <;> simp [both]

theorem cons_eq_ok {values : List α} : cons left rest = .ok values ↔
    ∃ value others, left = .ok value ∧ rest = .ok others ∧ value :: others = values := by
  simp only [cons, map_eq_ok_iff, both_eq_ok, Prod.exists]
  grind

theorem append_ok_eq_ok {before values : List α} : append (.ok before) rest = .ok values ↔
    ∃ others, rest = .ok others ∧ before ++ others = values := by
  simp [append, map_eq_ok_iff, both_eq_ok]

end Filled

namespace Node

/-- A key that makes a text: an untagged scalar of no other form, or the sign for a default. -/
def isTextKey : Node → Bool
  | .scalar tag _ _ => tag = Tag.string || tag = Tag.value
  | _ => false

mutual

/-- Every key of every mapping makes a text. -/
def hasTextKeys : Node → Bool
  | .scalar _ _ _ => true
  | .sequence _ items _ => itemsHaveTextKeys items
  | .mapping _ entries _ => entriesHaveTextKeys entries

def itemsHaveTextKeys : List Node → Bool
  | [] => true
  | item :: rest => item.hasTextKeys && itemsHaveTextKeys rest

def entriesHaveTextKeys : List (Node × Node) → Bool
  | [] => true
  | (key, value) :: rest => key.isTextKey && value.hasTextKeys && entriesHaveTextKeys rest

end

/-- What filling makes of a node in an untagged tree with texts for keys. -/
inductive Makes (depth : Nat) : Node → Value → Prop
  | scalar {tag text : Text} {mark : Mark} {value : Value}
      (single : value.isCollection = false) : Makes depth (.scalar tag text mark) value
  | list {tag : Text} {items : List Node} {mark : Mark} {values : List Value}
      (made : List.Forall₂ (fun item value => item.fill (depth + 1) = .ok value) items values) :
      Makes depth (.sequence tag items mark) (.list values)
  | map {tag : Text} {entries : List (Node × Node)} {mark : Mark} {pairs : List (Value × Value)}
      (made : List.Forall₂ (fun entry pair => pair.1 = .text entry.1.pointerToken ∧
        entry.2.fill (depth + 1) = .ok pair.2) entries pairs) :
      Makes depth (.mapping tag entries mark) (.map (Entries.ofPairs pairs))

variable {node : Node} {value part : Value} {depth : Nat} {step : PathStep} {path : List PathStep}

theorem isCollection_of_readTimestamp {text : Text} (read : readTimestamp text = .ok value) :
    value.isCollection = false := by
  unfold readTimestamp at read
  split at read
  · cases read
  · split at read
    · cases read
      rfl
    · cases read
      rfl
    · cases read

theorem isCollection_of_readBinary {text : Text} (read : readBinary text = .ok value) :
    value.isCollection = false := by
  unfold readBinary at read
  split at read
  · split at read
    · cases read
      rfl
    · cases read
  · cases read

theorem isCollection_of_readScalar {tag text : Text} (read : readScalar tag text = .ok value) :
    value.isCollection = false := by
  unfold readScalar at read
  repeat' split at read
  · cases read
    rfl
  · cases read
    rfl
  · obtain ⟨flag, -, rfl⟩ := map_eq_ok_iff.mp read
    rfl
  · obtain ⟨number, -, rfl⟩ := map_eq_ok_iff.mp read
    rfl
  · obtain ⟨number, -, rfl⟩ := map_eq_ok_iff.mp read
    rfl
  · exact isCollection_of_readTimestamp read
  · exact isCollection_of_readBinary read
  · cases read

theorem readScalar_string (text : Text) : readScalar Tag.string text = .ok (.text text) :=
  if_pos rfl

theorem nodeKey_of_isTextKey (depth : Nat) (keyed : node.isTextKey = true) :
    nodeKey depth node = .ok (.text node.pointerToken) ∧ isMergeKey node = false := by
  unfold isTextKey at keyed
  split at keyed
  · rename_i tag text mark
    rcases (Bool.or_eq_true _ _).mp keyed with named | named
    · obtain rfl : tag = Tag.string := of_decide_eq_true named
      have other : Tag.string ≠ Tag.value := by decide
      have read : keyTag (.scalar Tag.string text mark) = Tag.string := if_neg other
      rw [nodeKey, read, readScalar_string]
      exact ⟨rfl, decide_eq_false (by decide : Tag.string ≠ Tag.merge)⟩
    · obtain rfl : tag = Tag.value := of_decide_eq_true named
      have read : keyTag (.scalar Tag.value text mark) = Tag.string := if_pos rfl
      rw [nodeKey, read, readScalar_string]
      exact ⟨rfl, decide_eq_false (by decide : Tag.value ≠ Tag.merge)⟩
  · cases keyed

theorem fillOwn_eq_ok {entries : List (Node × Node)} {pairs : List (Value × Value)}
    (keyed : entriesHaveTextKeys entries = true) (filled : fillOwn depth entries = .ok pairs) :
    List.Forall₂ (fun entry pair => pair.1 = .text entry.1.pointerToken ∧
      entry.2.fill depth = .ok pair.2) entries pairs := by
  induction entries generalizing pairs with
  | nil =>
      cases filled
      exact .nil
  | cons entry rest ih =>
      obtain ⟨key, value⟩ := entry
      simp only [entriesHaveTextKeys, Bool.and_eq_true] at keyed
      obtain ⟨made, own⟩ := nodeKey_of_isTextKey depth keyed.1.1
      simp only [fillOwn, own, Bool.false_eq_true, if_false] at filled
      obtain ⟨pair, others, first, later, rfl⟩ := Filled.cons_eq_ok.mp filled
      obtain ⟨keyMade, valueMade⟩ := Filled.both_eq_ok.mp first
      exact .cons ⟨Except.ok.inj (keyMade.symm.trans made), valueMade⟩ (ih keyed.2 later)

theorem fillMerged_eq_nil {entries : List (Node × Node)}
    (keyed : entriesHaveTextKeys entries = true) : fillMerged depth entries = .ok [] := by
  induction entries with
  | nil => rfl
  | cons entry rest ih =>
      obtain ⟨key, value⟩ := entry
      simp only [entriesHaveTextKeys, Bool.and_eq_true] at keyed
      obtain ⟨-, own⟩ := nodeKey_of_isTextKey depth keyed.1.1
      simpa only [fillMerged, own, Bool.false_eq_true, if_false] using ih keyed.2

theorem fillItems_eq_ok {items : List Node} {values : List Value}
    (filled : fillItems depth items = .ok values) :
    List.Forall₂ (fun item value => item.fill depth = .ok value) items values := by
  induction items generalizing values with
  | nil =>
      cases filled
      exact .nil
  | cons item rest ih =>
      obtain ⟨first, others, made, later, rfl⟩ := Filled.cons_eq_ok.mp filled
      exact .cons made (ih later)

theorem makes_of_fill (untagged : node.Untagged) (keyed : node.hasTextKeys = true)
    (filled : node.fill depth = .ok value) : node.Makes depth value := by
  cases untagged with
  | @scalar tag text mark =>
      unfold fill at filled
      split at filled
      · cases filled
      · cases read : readScalar tag text with
        | error error =>
            rw [read] at filled
            cases filled
        | ok single =>
            rw [read] at filled
            cases filled
            exact .scalar (isCollection_of_readScalar read)
  | sequence within =>
      rw [fill, if_pos rfl] at filled
      obtain ⟨values, made, rfl⟩ := map_eq_ok_iff.mp filled
      exact .list (fillItems_eq_ok made)
  | @mapping entries mark keys values =>
      rw [fill, if_pos rfl, fillMerged_eq_nil keyed] at filled
      obtain ⟨pairs, joined, rfl⟩ := map_eq_ok_iff.mp filled
      unfold joinMerged at joined
      split at joined
      · obtain ⟨others, own, rfl⟩ := Filled.append_ok_eq_ok.mp joined
        exact .map (fillOwn_eq_ok keyed own)
      · cases joined

theorem find?_of_forall₂ {entries : List (Node × Node)} {pairs : List (Value × Value)} {name : Text}
    (made : List.Forall₂ (fun entry pair => pair.1 = .text entry.1.pointerToken ∧
      entry.2.fill depth = .ok pair.2) entries pairs)
    (found : Entries.find? (.text name) pairs = some part) :
    ∃ below, Entries.find? name
      (entries.map fun (key, value) => (key.pointerToken, value)) = some below ∧
        below.fill depth = .ok part := by
  induction made with
  | nil => cases found
  | @cons entry pair entries pairs first rest ih =>
      obtain ⟨key, value⟩ := pair
      obtain ⟨rfl, filled⟩ := first
      have same : (Value.text entry.1.pointerToken == .text name) =
          (entry.1.pointerToken == name) := rfl
      rw [Entries.find?, same] at found
      rw [List.map_cons, Entries.find?]
      split at found
      · rename_i hit
        cases found
        exact ⟨entry.2, if_pos hit, filled⟩
      · rename_i other
        obtain ⟨below, there, made⟩ := ih found
        exact ⟨below, (if_neg other).trans there, made⟩

theorem untagged_of_part (untagged : node.Untagged) {name : Text} {below : Node}
    (inside : (name, below) ∈ node.parts) : below.Untagged := by
  cases untagged with
  | scalar => cases inside
  | sequence within =>
      obtain ⟨⟨item, index⟩, listed, same⟩ := List.mem_map.mp inside
      cases same
      exact within _ (List.fst_mem_of_mem_zipIdx listed)
  | mapping keys values =>
      obtain ⟨entry, listed, same⟩ := List.mem_map.mp inside
      cases same
      exact values entry listed

theorem itemsHaveTextKeys_iff {items : List Node} :
    itemsHaveTextKeys items = true ↔ ∀ item ∈ items, item.hasTextKeys = true := by
  induction items with
  | nil => simp [itemsHaveTextKeys]
  | cons item rest ih => simp [itemsHaveTextKeys, ih]

theorem entriesHaveTextKeys_iff {entries : List (Node × Node)} :
    entriesHaveTextKeys entries = true ↔
      ∀ entry ∈ entries, entry.1.isTextKey = true ∧ entry.2.hasTextKeys = true := by
  induction entries with
  | nil => simp [entriesHaveTextKeys]
  | cons entry rest ih => simp [entriesHaveTextKeys, ih]

theorem hasTextKeys_of_part (keyed : node.hasTextKeys = true) {name : Text} {below : Node}
    (inside : (name, below) ∈ node.parts) : below.hasTextKeys = true := by
  cases node with
  | scalar => cases inside
  | sequence tag items mark =>
      obtain ⟨⟨item, index⟩, listed, same⟩ := List.mem_map.mp inside
      cases same
      exact itemsHaveTextKeys_iff.mp keyed _ (List.fst_mem_of_mem_zipIdx listed)
  | mapping tag entries mark =>
      obtain ⟨entry, listed, same⟩ := List.mem_map.mp inside
      cases same
      exact (entriesHaveTextKeys_iff.mp keyed entry listed).2

/-- What one step leads to in a value was made from what the step leads to in the node. -/
theorem Makes.below (makes : node.Makes depth value) (found : value.below? step = some part) :
    ∃ below, node.below? step = some below ∧ below.fill (depth + 1) = .ok part := by
  cases makes with
  | scalar single =>
      rw [Value.isCollection_of_below? found] at single
      contradiction
  | @list tag items mark values made =>
      cases step with
      | key => cases found
      | item index =>
          obtain ⟨within, rfl⟩ := List.getElem?_eq_some_iff.mp found
          have inside : index < items.length := made.length_eq ▸ within
          exact ⟨items[index], List.getElem?_eq_getElem inside, made.get inside within⟩
  | @map tag entries mark pairs made =>
      cases step with
      | item => cases found
      | key name =>
          rw [Value.below?, Entries.find?_ofPairs] at found
          obtain ⟨below, there, filled⟩ := find?_of_forall₂ (List.rel_reverse made) found
          exact ⟨below, by rwa [below?, parts, ← List.map_reverse], filled⟩

/-- What a path leads to in a value was made from what the path leads to in the node. -/
theorem exists_of_at? (untagged : node.Untagged) (keyed : node.hasTextKeys = true)
    (filled : node.fill depth = .ok value) (led : value.at? path = some part) :
    ∃ below, node.at? path = some below ∧ below.Makes (depth + path.length) part ∧
      below.fill (depth + path.length) = .ok part := by
  induction path generalizing node value depth with
  | nil =>
      cases led
      exact ⟨node, rfl, makes_of_fill untagged keyed filled, filled⟩
  | cons step rest ih =>
      obtain ⟨middle, stepped, onward⟩ := Option.bind_eq_some_iff.mp led
      obtain ⟨below, found, made⟩ := (makes_of_fill untagged keyed filled).below stepped
      obtain ⟨name, inside⟩ := exists_part_of_below? found
      obtain ⟨last, walked, ends⟩ :=
        ih (untagged_of_part untagged inside) (hasTextKeys_of_part keyed inside) made onward
      refine ⟨last, ?_, ?_⟩
      · rw [at?, List.foldlM_cons, found]
        exact walked
      · rwa [List.length_cons, Nat.add_comm rest.length, ← Nat.add_assoc]

end Node

variable {text : Text} {root : Node} {document : Document} {path : List PathStep}

/-- The data of a document with a root; null counts as an empty mapping. -/
theorem Document.ofText_eq_ok (composed : Node.ofText? text = .ok (some root))
    (loaded : Document.ofText text = .ok document) : document.sources = root.sourceMap ∧
      (root.fill 0 = .ok document.value ∨ root.fill 0 = .ok .null ∧ document.value = .map []) := by
  unfold Document.ofText Node.value at loaded
  rw [composed] at loaded
  dsimp only [bind, Except.bind] at loaded
  cases filled : root.fill 0 with
  | error fault =>
      rw [filled] at loaded
      cases loaded
  | ok value =>
      rw [filled] at loaded
      cases value with
      | null =>
          cases loaded
          exact ⟨rfl, .inr ⟨rfl, rfl⟩⟩
      | _ =>
          cases loaded
          exact ⟨rfl, .inl rfl⟩

namespace Document

/-- The node that the value at a path was made from. A root that is null makes an empty mapping. -/
theorem exists_node (composed : Node.ofText? text = .ok (some root))
    (loaded : ofText text = .ok document) (untagged : root.Untagged)
    (keyed : root.hasTextKeys = true) {value : Value} (led : document.value.at? path = some value) :
    ∃ node, root.at? path = some node ∧ (node.fill path.length = .ok value ∨
      path = [] ∧ root.fill 0 = .ok .null ∧ document.value = .map []) := by
  obtain ⟨-, filled | ⟨null, empty⟩⟩ := ofText_eq_ok composed loaded
  · obtain ⟨node, there, -, made⟩ := Node.exists_of_at? untagged keyed filled led
    exact ⟨node, there, .inl (by rwa [Nat.zero_add] at made)⟩
  · obtain ⟨rfl, -⟩ := Value.at?_empty (empty ▸ led)
    exact ⟨root, rfl, .inr ⟨rfl, null, empty⟩⟩

/-- The keys of a mapping in the data are texts. -/
theorem exists_text_of_mem (composed : Node.ofText? text = .ok (some root))
    (loaded : ofText text = .ok document) (untagged : root.Untagged)
    (keyed : root.hasTextKeys = true) {entries : List (Value × Value)}
    (led : document.value.at? path = some (.map entries)) {entry : Value × Value}
    (inside : entry ∈ entries) : ∃ name, entry.1 = .text name := by
  obtain ⟨-, filled | ⟨-, empty⟩⟩ := ofText_eq_ok composed loaded
  · obtain ⟨node, -, makes, -⟩ := Node.exists_of_at? untagged keyed filled led
    cases makes with
    | scalar single => cases single
    | map made =>
        obtain ⟨pair, given, same⟩ := Entries.exists_of_mem_ofPairs inside
        obtain ⟨made, -, spelled, -⟩ := exists_of_forall₂ made.flip given
        exact ⟨_, same.trans spelled⟩
  · obtain ⟨-, same⟩ := Value.at?_empty (empty ▸ led)
    cases same
    cases inside

/-- The way to what an issue is about is a path in the data. -/
theorem exists_path_of_issue (composed : Node.ofText? text = .ok (some root))
    (loaded : ofText text = .ok document) (untagged : root.Untagged)
    (keyed : root.hasTextKeys = true) {issue : ShapeIssue}
    (found : issue ∈ Shape.issues document.value) :
    ∃ path, (document.value.at? path).isSome ∧ issue.pointer = pointerOf path := by
  rcases Shape.tokens_of_mem_issues found with whole | ⟨entries, mapping, field | operation⟩
  · exact ⟨[], rfl, congrArg Pointer.ofTokens whole⟩
  · obtain ⟨name, value, given, tokens⟩ := field
    refine ⟨[.key name], ?_, congrArg Pointer.ofTokens tokens⟩
    rw [mapping, Value.at?_key, given]
    rfl
  · obtain ⟨operations, operation, given, inside, tokens⟩ := operation
    have led : document.value.at? [.key "operations"] = some (.map operations) := by
      rw [mapping, Value.at?_key, given]
      rfl
    obtain ⟨name, named⟩ := exists_text_of_mem composed loaded untagged keyed led inside
    refine ⟨[.key "operations", .key name], ?_, ?_⟩
    · have listed : Entries.hasKey (.text name) operations = true :=
        Entries.hasKey_iff.mpr ⟨operation, inside, named ▸ BEq.refl _⟩
      obtain ⟨value, declared⟩ := Option.isSome_iff_exists.mp listed
      rw [mapping, Value.at?_key, given, Option.bind_some, Value.at?_key, declared]
      rfl
    · rw [ShapeIssue.pointer, tokens, named]
      rfl

/-- The source map locates the data: the entry under the pointer of a path is where the node stands
that the value at the path was made from. So every issue of the shape is located at its own value.
-/
theorem located (composed : Node.ofText? text = .ok (some root))
    (loaded : ofText text = .ok document)
    (untagged : ∀ token ∈ (TokenStream.ofText text).tokens, token.isTag = false)
    (keyed : root.hasTextKeys = true) :
    (∀ path value, document.value.at? path = some value → ∃ node, root.at? path = some node ∧
      (node.fill path.length = .ok value ∨
        path = [] ∧ root.fill 0 = .ok .null ∧ document.value = .map []) ∧
      Entries.find? (pointerOf path) (sourcesOfText text) =
        some ⟨some (node.mark.line + 1), some (node.mark.column + 1)⟩) ∧
    ∀ file, ∀ issue ∈ Shape.issues document.value, ∃ path node,
      (document.value.at? path).isSome ∧ root.at? path = some node ∧
      issue.pointer = pointerOf path ∧
      CatalogDocument.locate ⟨document.value, some document.sources, file⟩ issue.pointer =
        ⟨file, some issue.pointer, some (node.mark.line + 1), some (node.mark.column + 1)⟩ := by
  have plain := Node.untagged_of_ofText? untagged composed
  have sources : sourcesOfText text = root.sourceMap := by rw [sourcesOfText, composed]
  refine ⟨fun path value led => ?_, fun file issue found => ?_⟩
  · obtain ⟨node, there, made⟩ := exists_node composed loaded plain keyed led
    exact ⟨node, there, made, sources ▸ Node.find?_sourceMap there⟩
  · obtain ⟨path, stands, pointed⟩ := exists_path_of_issue composed loaded plain keyed found
    obtain ⟨value, led⟩ := Option.isSome_iff_exists.mp stands
    obtain ⟨node, there, -⟩ := exists_node composed loaded plain keyed led
    refine ⟨path, node, stands, there, pointed, ?_⟩
    have known : document.sources.known? issue.pointer = some node.position := by
      rw [SourceMap.known?, pointed, (ofText_eq_ok composed loaded).1, Node.find?_sourceMap there]
      rfl
    rw [CatalogDocument.locate, SourceLocation.locate, (SourceMap.Search.hit known).position?_eq]
    rfl

/-- A key given twice, the first time with more in it, an alias, and an operation with a slash in
its name. -/
def twiceGiven : Text :=
  "old: &old {a: 1, b: [2, {c: 3}]}\nold: {a: 4}\nname: *old\noperations:\n  x/y: 5\n"

/-- A value below the alias stands where it was first written, of two entries the later counts, and
the misshapen operation is located at its own value. -/
theorem twiceGiven_located : ∃ root document, Node.ofText? twiceGiven = .ok (some root) ∧
    ofText twiceGiven = .ok document ∧
    (∀ token ∈ (TokenStream.ofText twiceGiven).tokens, token.isTag = false) ∧
    root.hasTextKeys = true ∧
    (∀ path ∈ [[.key "name", .key "b", .item 1], [.key "old", .key "a"]],
      ∃ node, root.at? path = some node ∧
        Entries.find? (pointerOf path) (sourcesOfText twiceGiven) =
          some ⟨some (node.mark.line + 1), some (node.mark.column + 1)⟩) ∧
    ∀ issue ∈ Shape.issues document.value, ∃ path node, (document.value.at? path).isSome ∧
      root.at? path = some node ∧ issue.pointer = pointerOf path ∧
      CatalogDocument.locate ⟨document.value, some document.sources, none⟩ issue.pointer =
        ⟨none, some issue.pointer, some (node.mark.line + 1), some (node.mark.column + 1)⟩ := by
  have plain : (TokenStream.ofText twiceGiven).tokens.all (!·.isTag) = true := by decide +kernel
  have texts : ((Node.ofText? twiceGiven).toOption.any fun found =>
      found.any Node.hasTextKeys) = true := by decide +kernel
  have reached : ((ofText twiceGiven).toOption.any fun document =>
      (document.value.at? [.key "name", .key "b", .item 1]).isSome &&
        (document.value.at? [.key "old", .key "a"]).isSome) = true := by decide +kernel
  have untagged : ∀ token ∈ (TokenStream.ofText twiceGiven).tokens, token.isTag = false := by
    simpa using plain
  obtain ⟨found, composed, rooted⟩ := exists_ok_of_any texts
  obtain ⟨root, rfl, keyed⟩ := (Option.any_eq_true _ _).mp rooted
  obtain ⟨document, loaded, both⟩ := exists_ok_of_any reached
  obtain ⟨name, old⟩ := (Bool.and_eq_true _ _).mp both
  obtain ⟨places, issues⟩ := located composed loaded untagged keyed
  have here : ∀ path, (document.value.at? path).isSome = true → ∃ node,
      root.at? path = some node ∧ Entries.find? (pointerOf path) (sourcesOfText twiceGiven) =
        some ⟨some (node.mark.line + 1), some (node.mark.column + 1)⟩ := by
    intro path stands
    obtain ⟨value, led⟩ := Option.isSome_iff_exists.mp stands
    obtain ⟨node, there, -, noted⟩ := places path value led
    exact ⟨node, there, noted⟩
  refine ⟨root, document, composed, loaded, untagged, keyed, ?_, issues none⟩
  exact List.forall_mem_cons.mpr ⟨here _ name, List.forall_mem_singleton.mpr (here _ old)⟩

end Document

end Yaml

end QueryOptions
