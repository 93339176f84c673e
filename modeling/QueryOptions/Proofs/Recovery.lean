import QueryOptions.Proofs.DistinctNames
import QueryOptions.Proofs.Loops

namespace QueryOptions

/-! What can be read back from the parameters of a request. Where no wire name has a dot in it, the
parameters below one value fall apart into blocks, one for each element or entry: those of a block
go on with the same word after the name of the value, and no two blocks with the same. Hence two
values with the same parameters have the same elements or keys in the same order, and scalars with
the same texts. -/

namespace Node

/-- The values agree in all but the types of their scalars: collections in their length, mappings
in their keys and the order of these, scalars in their texts. -/
def Agrees (codec : BlobCodec) (node : Node) (left right : Value) : Prop :=
  match node with
  | .scalar _ leaf =>
      ∃ text, leaf.encode? codec left = some text ∧ leaf.encode? codec right = some text
  | .list _ member _ => ∃ lefts rights, left.elements? = some lefts ∧
      right.elements? = some rights ∧
      List.Forall₂ (fun left right => member.Agrees codec left right) lefts rights
  | .structure _ members => ∃ lefts rights, left = .map lefts ∧ right = .map rights ∧
      List.Forall₂ (fun left right => left.1.shown = right.1.shown ∧
        ∃ member, ∃ _ : findBinding? left.1.shown members = some member,
          member.Agrees codec left.2 right.2) lefts rights
termination_by sizeOf node
decreasing_by
  · simp only [Node.list.sizeOf_spec]
    omega
  · have smaller := List.sizeOf_lt_of_mem (mem_of_findBinding? ‹_›)
    simp only [Node.structure.sizeOf_spec]
    omega

/-- No mapping that a structure takes, at or below a value, is empty. -/
def Filled (node : Node) (value : Value) : Prop :=
  node.EveryMapping (fun entries => entries ≠ []) value

/-- No mapping that a structure takes below a value is empty. -/
def FilledBelow (node : Node) (value : Value) : Prop :=
  ∀ child ∈ node.children value, child.node.Filled child.value

variable {node : Node} {value : Value}

theorem Filled.below (filled : node.Filled value) : node.FilledBelow value :=
  fun _ first => EveryMapping.child filled first

/-- What is needed for a value to be told from its parameters. -/
structure Recoverable (node : Node) (value : Value) : Prop where
  encodable : node.Encodable value
  keys : node.KeysDistinct value
  filled : node.FilledBelow value

theorem Recoverable.child (fit : node.Recoverable value) {child : Child}
    (first : child ∈ node.children value) : child.node.Recoverable child.value :=
  ⟨fit.encodable.child first, fit.keys.child first, (fit.filled child first).below⟩

/-- Something is sent for every value in which no mapping is empty. -/
theorem exists_sends (encodable : node.Encodable value) (filled : node.Filled value) :
    ∃ visit, node.Sends value visit := by
  induction node generalizing value with
  | scalar heading leaf => exact ⟨⟨[], _, _⟩, .here, by simp [Emits]⟩
  | list heading member join ih =>
      by_cases below : ∃ visit,
          Child.EmitsBelow ((Node.list heading member join).children value) visit
      · obtain ⟨visit, sent⟩ := below
        exact ⟨visit, sends_iff.mpr (.inr sent)⟩
      · exact ⟨_, sends_iff.mpr (.inl ⟨rfl, emits_list_iff.mpr (not_exists.mp below)⟩)⟩
  | members heading nodes ih =>
      obtain ⟨entries, rfl, known⟩ := encodable Base64.encode _ _ _ .here
      obtain ⟨⟨key, inner⟩, rest, shape⟩ := List.exists_cons_of_ne_nil (filled _ _ _ _ .here)
      subst shape
      obtain ⟨member, found⟩ := known (key, inner) List.mem_cons_self
      have first : ⟨.entry 0 key.shown member.wire, member, inner⟩ ∈
          (Node.structure heading nodes).children (.map ((key, inner) :: rest)) :=
        mem_children_structure.mpr ⟨0, key, inner, member, rfl, found, rfl⟩
      obtain ⟨visit, sent⟩ := ih member (mem_of_findBinding? found) (encodable.child first)
        (filled.below _ first)
      exact ⟨_, sends_iff.mpr (.inr ⟨_, first, visit, sent, rfl⟩)⟩

end Node

/-! Blocks. -/

section Blocks

variable {α κ : Type} {key : α → κ} {keys others : List κ} {blocks otherBlocks : List (List α)}

/-- The items of each block have a key of its own. -/
def Keyed (key : α → κ) (keys : List κ) (blocks : List (List α)) : Prop :=
  List.Forall₂ (fun own block => block ≠ [] ∧ ∀ item ∈ block, key item = own) keys blocks

theorem Keyed.key_mem (keyed : Keyed key keys blocks) {item : α} (member : item ∈ blocks.flatten) :
    key item ∈ keys := by
  induction keyed with
  | nil => simp at member
  | cons own _ ih =>
      rcases List.mem_append.mp (List.flatten_cons ▸ member) with inBlock | inRest
      · exact own.2 item inBlock ▸ List.mem_cons_self
      · exact List.mem_cons_of_mem _ (ih inRest)

theorem filter_block [DecidableEq κ] {own : κ} {block : List α}
    (here : ∀ item ∈ block, key item = own) (rest : Keyed key keys blocks) (fresh : own ∉ keys) :
    ((block ++ blocks.flatten).filter fun item => key item = own) = block := by
  have kept : (block.filter fun item => key item = own) = block :=
    List.filter_eq_self.mpr fun item member => decide_eq_true (here item member)
  have dropped : (blocks.flatten.filter fun item => key item = own) = [] :=
    List.filter_eq_nil_iff.mpr fun item member hit =>
      fresh (of_decide_eq_true hit ▸ rest.key_mem member)
  rw [List.filter_append, kept, dropped, List.append_nil]

/-- Blocks with keys of their own can be told apart after they have been joined. -/
theorem Keyed.unique [DecidableEq κ] (keyed : Keyed key keys blocks) (distinct : keys.Nodup)
    (otherKeyed : Keyed key others otherBlocks) (otherDistinct : others.Nodup)
    (same : blocks.flatten = otherBlocks.flatten) : blocks = otherBlocks := by
  induction keyed generalizing others otherBlocks with
  | nil =>
      cases otherKeyed with
      | nil => rfl
      | cons own _ =>
          exact absurd (List.append_eq_nil_iff.mp same.symm).1 own.1
  | @cons first block keys blocks own rest ih =>
      cases otherKeyed with
      | nil => exact absurd (List.append_eq_nil_iff.mp same).1 own.1
      | @cons otherFirst otherBlock others otherBlocks otherOwn otherRest =>
          obtain ⟨fresh, distinctRest⟩ := List.nodup_cons.mp distinct
          obtain ⟨otherFresh, otherDistinctRest⟩ := List.nodup_cons.mp otherDistinct
          simp only [List.flatten_cons] at same
          have firsts : first = otherFirst := by
            obtain ⟨item, tail, shape⟩ := List.exists_cons_of_ne_nil own.1
            obtain ⟨otherItem, otherTail, otherShape⟩ := List.exists_cons_of_ne_nil otherOwn.1
            subst shape otherShape
            rw [← own.2 item List.mem_cons_self, (List.cons.inj same).1,
              otherOwn.2 otherItem List.mem_cons_self]
          subst firsts
          -- The first block is all that has the first key.
          have block_eq : block = otherBlock := by
            rw [← filter_block own.2 rest fresh, same, filter_block otherOwn.2 otherRest otherFresh]
          subst block_eq
          rw [ih distinctRest otherRest otherDistinctRest (List.append_cancel_left same)]

end Blocks

/-! The blocks of the children of a value. -/

/-- What stands between `stem` and the next dot in the name of a parameter. -/
def Param.wordAfter (stem : Text) (param : Param) : Text :=
  (Text.split '.' (param.name.text.drop stem.length)).headD []

theorem Param.wordAfter_of_name {param : Param} {stem own : Text} {way : Way}
    (named : param.name = .plain (stem ++ own ++ way.flatMap Step.suffix))
    (absent : '.'.toNat ∉ own) (dotless : way.Dotless) : param.wordAfter stem = own := by
  have after : param.name.text.drop stem.length = own ++ way.flatMap Step.suffix := by
    rw [named, List.append_assoc]
    exact List.drop_left
  rw [wordAfter, after, Way.split_suffixes dotless absent, List.headD_cons]

theorem Child.exists_blocks {codec : BlobCodec} {nameOf : Way → WireName} {children : List Child}
    {params : List Param} (encoded : paramsOfAll codec nameOf children = some params) :
    ∃ blocks, List.Forall₂ (fun child block => child.params? codec nameOf = some block) children
      blocks ∧ blocks.flatten = params := by
  induction children generalizing params with
  | nil =>
      cases encoded
      exact ⟨[], .nil, rfl⟩
  | cons child rest ih =>
      simp only [paramsOfAll, Option.bind_eq_bind, Option.bind_eq_some_iff, Option.some.injEq,
        pure] at encoded
      obtain ⟨first, firstEncoded, others, restEncoded, rfl⟩ := encoded
      obtain ⟨blocks, all, rfl⟩ := ih restEncoded
      exact ⟨first :: blocks, .cons firstEncoded all, rfl⟩

namespace Node

variable {node : Node} {value left right : Value} {codec : BlobCodec}

theorem words_eq_of_ownName {leftChild rightChild : Child} (first : leftChild ∈ node.children left)
    (second : rightChild ∈ node.children right)
    (same : leftChild.step.ownName.text = rightChild.step.ownName.text) :
    leftChild.step.words = rightChild.step.words := by
  cases leadsTo_of_mem_children first with
  | @element heading member join =>
      cases leadsTo_of_mem_children second with
      | element =>
          have number : Text.ofNat _ = Text.ofNat _ := same
          cases join <;> simp only [Step.words, number]
  | entry =>
      cases leadsTo_of_mem_children second with
      | entry => exact congrArg (fun text => [text]) same

theorem ownNames_nodup (named : node.Everywhere WellNamed) (keys : node.KeysDistinct value) :
    ((node.children value).map fun child => child.step.ownName.text).Nodup := by
  refine List.pairwise_map.mpr ((node.pairwise_children value).imp_of_mem ?_)
  intro left right first second before same
  have words := congrArg (· ++ ([] : List Text)) (words_eq_of_ownName first second same)
  rw [(child_eq_of_words named keys first second words).1] at before
  exact Std.Asymm.asymm _ _ before before

/-- Two children that add the same to the name above and have the same parameters. -/
structure Matches (node : Node) (codec : BlobCodec) (left right : Value) (first second : Child) :
    Prop where
  inLeft : first ∈ node.children left
  inRight : second ∈ node.children right
  ownName : first.step.ownName.text = second.step.ownName.text
  params : ∃ name block, first.node.params? codec first.value (.plain name) = some block ∧
    second.node.params? codec second.value (.plain name) = some block

/-- At one level all names start with the same stem. -/
def Stemmed (node : Node) (nameOf : Way → WireName) (stem : Text) : Prop :=
  ∀ value, ∀ child ∈ node.children value,
    nameOf [child.step] = .plain (stem ++ child.step.ownName.text)

/-- A child with its parameters. -/
structure BlockOf (node : Node) (codec : BlobCodec) (value : Value) (stem : Text) (child : Child)
    (block : List Param) : Prop where
  first : child ∈ node.children value
  encoded : child.node.params? codec child.value
    (.plain (stem ++ child.step.ownName.text)) = some block

variable {nameOf : Way → WireName} {stem : Text} {params : List Param} {child : Child}
  {block : List Param} {blocks : List (List Param)}

theorem exists_blocks (stemmed : node.Stemmed nameOf stem)
    (encoded : Child.paramsOfAll codec nameOf (node.children value) = some params) :
    ∃ blocks, List.Forall₂ (node.BlockOf codec value stem) (node.children value) blocks ∧
      blocks.flatten = params := by
  obtain ⟨blocks, all, joined⟩ := Child.exists_blocks encoded
  refine ⟨blocks, ((List.forall₂_and_left _ _).mpr ⟨fun _ => id, all⟩).imp ?_, joined⟩
  intro child block both
  obtain ⟨first, encoded⟩ := both
  exact ⟨first, stemmed value child first ▸ encoded⟩

section Undotted

variable (named : node.Everywhere WellNamed) (undotted : node.Everywhere Undotted)

include named undotted

/-- The parameters of a value are named after it, and there are some. -/
theorem named_params (encodable : node.Encodable value) (filled : node.Filled value) {name : Text}
    {params : List Param} (encoded : node.params? codec value (.plain name) = some params) :
    params ≠ [] ∧ ∀ param ∈ params, ∃ way : Way, way.Dotless ∧
      param.name = .plain (name ++ way.flatMap Step.suffix) := by
  obtain ⟨emissions, sent, written⟩ := node.exists_emissions value encodable
  obtain ⟨also, encodedAlso, all⟩ := written codec (.plain name)
  obtain rfl : also = params := Option.some.inj (encodedAlso.symm.trans encoded)
  constructor
  · rintro rfl
    cases all
    obtain ⟨visit, sends⟩ := exists_sends encodable filled
    simpa using (sent.mem_iff visit).mpr sends
  · intro param member
    obtain ⟨visit, inside, wrote⟩ := exists_of_forall₂ all.flip member
    have reached := ((sent.mem_iff visit).mp inside).reached
    exact ⟨visit.way, reached.ownNames (fun wire => '.'.toNat ∉ wire.text) Text.dot_notMem_ofNat
      undotted, wrote.1.trans (Way.nameFrom_of_plain (reached.plain named) name)⟩

/-- The block of a child has the own name of the child as its key. -/
theorem BlockOf.keyed (part : node.BlockOf codec value stem child block)
    (fit : node.Recoverable value) :
    block ≠ [] ∧ ∀ param ∈ block, param.wordAfter stem = child.step.ownName.text := by
  obtain ⟨first, encoded⟩ := part
  obtain ⟨filled, names⟩ := named_params (named.child first) (undotted.child first)
    (fit.encodable.child first) (fit.filled child first) encoded
  refine ⟨filled, fun param member => ?_⟩
  obtain ⟨way, dotless, name⟩ := names param member
  have absent : '.'.toNat ∉ child.step.ownName.text := ownName_of_mem_children
    (fun wire => '.'.toNat ∉ wire.text) Text.dot_notMem_ofNat undotted first
  exact Param.wordAfter_of_name name absent dotless

theorem keyed_children (fit : node.Recoverable value)
    (all : List.Forall₂ (node.BlockOf codec value stem) (node.children value) blocks) :
    Keyed (Param.wordAfter stem)
      ((node.children value).map fun child => child.step.ownName.text) blocks :=
  List.forall₂_map_left_iff.mpr (all.imp fun _ _ part => part.keyed named undotted fit)

theorem stem_length_le (fit : node.Recoverable value) (stemmed : node.Stemmed nameOf stem)
    (encoded : Child.paramsOfAll codec nameOf (node.children value) = some params) :
    ∀ param ∈ params, stem.length ≤ param.name.text.length := by
  obtain ⟨blocks, all, rfl⟩ := exists_blocks stemmed encoded
  intro param member
  obtain ⟨block, inside, inBlock⟩ := List.mem_flatten.mp member
  obtain ⟨child, -, first, own⟩ := exists_of_forall₂ all.flip inside
  obtain ⟨-, names⟩ := named_params (named.child first) (undotted.child first)
    (fit.encodable.child first) (fit.filled child first) own
  obtain ⟨way, -, name⟩ := names param inBlock
  rw [name]
  simp only [WireName.plain, List.length_append]
  omega

theorem children_match (leftFit : node.Recoverable left) (rightFit : node.Recoverable right)
    (stemmed : node.Stemmed nameOf stem)
    (leftEncoded : Child.paramsOfAll codec nameOf (node.children left) = some params)
    (rightEncoded : Child.paramsOfAll codec nameOf (node.children right) = some params) :
    List.Forall₂ (node.Matches codec left right) (node.children left) (node.children right) := by
  obtain ⟨blocks, leftAll, leftJoined⟩ := exists_blocks stemmed leftEncoded
  obtain ⟨others, rightAll, rightJoined⟩ := exists_blocks stemmed rightEncoded
  have same : blocks = others := (keyed_children named undotted leftFit leftAll).unique
    (ownNames_nodup named leftFit.keys) (keyed_children named undotted rightFit rightAll)
    (ownNames_nodup named rightFit.keys) (leftJoined.trans rightJoined.symm)
  subst same
  -- A block that two children have in common starts with a parameter that names both.
  refine (forall₂_comp leftAll rightAll.flip).imp fun first second common => ?_
  obtain ⟨block, leftPart, rightPart⟩ := common
  obtain ⟨filled, leftWords⟩ := leftPart.keyed named undotted leftFit
  obtain ⟨-, rightWords⟩ := rightPart.keyed named undotted rightFit
  obtain ⟨param, member⟩ := List.exists_mem_of_ne_nil block filled
  have ownName : first.step.ownName.text = second.step.ownName.text :=
    (leftWords param member).symm.trans (rightWords param member)
  exact ⟨leftPart.first, rightPart.first, ownName, _, block, leftPart.encoded,
    ownName ▸ rightPart.encoded⟩

end Undotted

/-! Children and what they come from. -/

theorem forall₂_elements {heading : Heading} {member : Node} {join : ListJoin}
    {elements : List Value} (shape : value.elements? = some elements) :
    List.Forall₂ (fun element child => ∃ index, child = ⟨.element index join, member, element⟩)
      elements ((Node.list heading member join).children value) := by
  simp only [children, shape, Option.getD_some]
  clear shape
  generalize 0 = start
  induction elements generalizing start with
  | nil => exact .nil
  | cons element rest ih => exact .cons ⟨start, rfl⟩ (ih (start + 1))

theorem forall₂_entries {heading : Heading} {members : List Node} {entries : List (Value × Value)}
    (known : ∀ entry ∈ entries, ∃ member, findBinding? entry.1.shown members = some member) :
    List.Forall₂ (fun entry child => ∃ index member,
        findBinding? entry.1.shown members = some member ∧
        child = ⟨.entry index entry.1.shown member.wire, member, entry.2⟩)
      entries ((Node.structure heading members).children (.map entries)) := by
  simp only [children]
  generalize 0 = start
  induction entries generalizing start with
  | nil => exact .nil
  | cons entry rest ih =>
      obtain ⟨⟨member, found⟩, others⟩ := List.forall_mem_cons.mp known
      rw [List.zipIdx_cons, List.filterMap_cons]
      simp only [Child.ofEntry?, found, Option.map_some]
      exact .cons ⟨start, member, found, rfl⟩ (ih others (start + 1))

/-! Values. -/

section Values

variable {heading : Heading} {name : Text} {params : List Param}

theorem stemmed_list {member : Node} {join : ListJoin} :
    (Node.list heading member join).Stemmed (Way.nameFrom (.plain name)) (name ++ join.text) := by
  intro value child first
  cases leadsTo_of_mem_children first with
  | element => rfl

theorem stemmed_structure {members : List Node} (named : WellNamed members) :
    (Node.structure heading members).Stemmed (Way.nameFrom (.plain name)) (name ++ ".") := by
  intro value child first
  cases leadsTo_of_mem_children first with
  | entry supplied found =>
      have plain := named.plain _ (mem_of_findBinding? found)
      simp only [Step.ownName, Way.nameFrom, List.foldl_cons, List.foldl_nil, Step.extend]
      rw [plain]
      rfl

/-- What elements leave is never taken for the empty parameter of a list without any. -/
theorem params_ne_marker {member : Node} {join : ListJoin}
    (named : (Node.list heading member join).Everywhere WellNamed)
    (undotted : (Node.list heading member join).Everywhere Undotted)
    (fit : (Node.list heading member join).Recoverable value)
    (encoded : Child.paramsOfAll codec (Way.nameFrom (.plain name))
      ((Node.list heading member join).children value) = some params) :
    params ≠ [⟨.plain name, []⟩] := by
  rintro rfl
  have longer := stem_length_le named undotted fit stemmed_list encoded _ List.mem_cons_self
  have joined : 0 < join.text.length := by cases join <;> decide
  simp only [WireName.plain, List.length_append] at longer
  omega

theorem agrees_structure {members : List Node} (named : WellNamed members)
    {lefts rights : List (Value × Value)}
    (leftFit : (Node.structure heading members).Recoverable (.map lefts))
    (rightFit : (Node.structure heading members).Recoverable (.map rights))
    (matched : List.Forall₂
      ((Node.structure heading members).Matches codec (.map lefts) (.map rights))
      ((Node.structure heading members).children (.map lefts))
      ((Node.structure heading members).children (.map rights)))
    (below : ∀ member ∈ members, ∀ first second name block, member.Recoverable first →
      member.Recoverable second → member.params? codec first (.plain name) = some block →
      member.params? codec second (.plain name) = some block → member.Agrees codec first second) :
    (Node.structure heading members).Agrees codec (.map lefts) (.map rights) := by
  obtain ⟨_, leftShape, leftKnown⟩ := leftFit.encodable codec _ _ _ .here
  obtain ⟨_, rightShape, rightKnown⟩ := rightFit.encodable codec _ _ _ .here
  cases leftShape
  cases rightShape
  rw [Agrees]
  refine ⟨lefts, rights, rfl, rfl, ?_⟩
  refine (forall₂_comp (forall₂_comp (forall₂_entries leftKnown) matched)
    (forall₂_entries rightKnown).flip).imp fun first second common => ?_
  obtain ⟨_, ⟨_, ⟨_, member, found, rfl⟩, pair⟩, _, other, otherFound, rfl⟩ := common
  have shown : first.1.shown = second.1.shown :=
    shown_eq_of_wire named found otherFound pair.ownName
  have same : member = other := by
    rw [← shown, found] at otherFound
    exact Option.some.inj otherFound
  subst same
  obtain ⟨name, block, leftBlock, rightBlock⟩ := pair.params
  exact ⟨shown, member, found, below member (mem_of_findBinding? found) _ _ name block
    (leftFit.child pair.inLeft) (rightFit.child pair.inRight) leftBlock rightBlock⟩

theorem agrees_of_params {node : Node} (named : node.Everywhere WellNamed)
    (undotted : node.Everywhere Undotted) {left right : Value} (leftFit : node.Recoverable left)
    (rightFit : node.Recoverable right)
    (leftEncoded : node.params? codec left (.plain name) = some params)
    (rightEncoded : node.params? codec right (.plain name) = some params) :
    node.Agrees codec left right := by
  induction node generalizing left right name params with
  | scalar heading leaf =>
      rw [params?] at leftEncoded rightEncoded
      obtain ⟨text, leftText, rfl⟩ := Option.map_eq_some_iff.mp leftEncoded
      obtain ⟨other, rightText, same⟩ := Option.map_eq_some_iff.mp rightEncoded
      cases same
      rw [Agrees]
      exact ⟨text, leftText, rightText⟩
  | list heading member join ih =>
      obtain ⟨lefts, leftShape⟩ := leftFit.encodable codec _ _ _ .here
      obtain ⟨rights, rightShape⟩ := rightFit.encodable codec _ _ _ .here
      rw [params?_list leftShape] at leftEncoded
      rw [params?_list rightShape] at rightEncoded
      obtain ⟨leftParams, leftAll, rfl⟩ := Option.map_eq_some_iff.mp leftEncoded
      obtain ⟨rightParams, rightAll, made⟩ := Option.map_eq_some_iff.mp rightEncoded
      -- An empty parameter and parameters of elements cannot be equal, so neither list is read as
      -- an empty one if the other is not.
      have leftMarker := params_ne_marker named undotted leftFit leftAll
      have rightMarker := params_ne_marker named undotted rightFit rightAll
      have same : leftParams = rightParams := by
        cases leftParams with
        | nil =>
            cases rightParams with
            | nil => rfl
            | cons => exact absurd made rightMarker
        | cons =>
            cases rightParams with
            | nil => exact absurd made.symm leftMarker
            | cons => exact made.symm
      subst same
      have matched := children_match named undotted leftFit rightFit stemmed_list leftAll rightAll
      rw [Agrees]
      refine ⟨lefts, rights, leftShape, rightShape, ?_⟩
      refine (forall₂_comp (forall₂_comp (forall₂_elements leftShape) matched)
        (forall₂_elements rightShape).flip).imp fun first second common => ?_
      obtain ⟨_, ⟨_, ⟨_, rfl⟩, pair⟩, _, _, rfl⟩ := common
      obtain ⟨name, block, leftBlock, rightBlock⟩ := pair.params
      exact ih (everywhere_list.mp named) (everywhere_list.mp undotted)
        (leftFit.child pair.inLeft) (rightFit.child pair.inRight) leftBlock rightBlock
  | members heading nodes ih =>
      obtain ⟨lefts, rfl, leftKnown⟩ := leftFit.encodable codec _ _ _ .here
      obtain ⟨rights, rfl, rightKnown⟩ := rightFit.encodable codec _ _ _ .here
      rw [params?_structure leftKnown] at leftEncoded
      rw [params?_structure rightKnown] at rightEncoded
      obtain ⟨namedHere, namedMembers⟩ := everywhere_structure.mp named
      obtain ⟨-, undottedMembers⟩ := everywhere_structure.mp undotted
      have matched := children_match named undotted leftFit rightFit (stemmed_structure namedHere)
        leftEncoded rightEncoded
      exact agrees_structure namedHere leftFit rightFit matched
        fun member inside _ _ _ _ firstFit secondFit => ih member inside
          (namedMembers member inside) (undottedMembers member inside) firstFit secondFit

end Values

end Node

namespace Schema

variable {schema : Schema}

theorem stemmed_root (named : WellNamed schema.options) : schema.root.Stemmed Way.name [] := by
  intro value child first
  cases Node.leadsTo_of_mem_children first with
  | entry supplied found => exact named.plain _ (mem_of_findBinding? found)

/-- Options with the same parameters agree in everything but the types of scalars, where no wire
name has a dot in it, no two keys of a mapping look alike and no mapping below the options is
empty. -/
theorem agrees_of_requestParams_eq (reachable : schema.PlainlyReachable)
    (undotted : schema.root.Everywhere Undotted) {codec : BlobCodec}
    {lefts rights : List (Value × Value)} (leftValid : schema.validate (.map lefts) = .ok ())
    (rightValid : schema.validate (.map rights) = .ok ())
    (leftKeys : schema.root.KeysDistinct (.map lefts))
    (rightKeys : schema.root.KeysDistinct (.map rights))
    (leftFilled : schema.root.FilledBelow (.map lefts))
    (rightFilled : schema.root.FilledBelow (.map rights))
    (same : schema.requestParams codec (.map lefts) = schema.requestParams codec (.map rights)) :
    schema.root.Agrees codec (.map lefts) (.map rights) := by
  have named := reachable.wellNamed
  have leftFit : schema.root.Recoverable (.map lefts) :=
    ⟨encodable_of_valid leftValid, leftKeys, leftFilled⟩
  have rightFit : schema.root.Recoverable (.map rights) :=
    ⟨encodable_of_valid rightValid, rightKeys, rightFilled⟩
  obtain ⟨_, leftShape, leftKnown⟩ := leftFit.encodable codec _ _ _ .here
  obtain ⟨_, rightShape, rightKnown⟩ := rightFit.encodable codec _ _ _ .here
  cases leftShape
  cases rightShape
  obtain ⟨_, params, leftShape, leftEncoded⟩ := exists_params_of_valid leftValid codec
  obtain ⟨_, others, rightShape, rightEncoded⟩ := exists_params_of_valid rightValid codec
  cases leftShape
  cases rightShape
  rw [requestParams_of_valid leftValid leftEncoded,
    requestParams_of_valid rightValid rightEncoded] at same
  cases same
  rw [params?_eq leftKnown] at leftEncoded
  rw [params?_eq rightKnown] at rightEncoded
  obtain ⟨namedHere, namedOptions⟩ := Node.everywhere_structure.mp named
  obtain ⟨-, undottedOptions⟩ := Node.everywhere_structure.mp undotted
  have matched := Node.children_match named undotted leftFit rightFit (stemmed_root namedHere)
    leftEncoded rightEncoded
  exact Node.agrees_structure namedHere leftFit rightFit matched
    fun member inside _ _ _ _ => Node.agrees_of_params (namedOptions member inside)
      (undottedOptions member inside)

/-- Two filters, one of them without values, in a kind of collection. -/
def filtersIn (collection : List Value → Value) : List (Value × Value) :=
  [(.text "filter", collection [
    .map [(.text "value", collection []), (.text "name", .text "zone")],
    .map [(.text "name", .text "state"), (.text "value", collection [.text "a", .text "b"])]]),
    (.text "owner", .text "me")]

theorem filtersIn_mappings (collection : List Value → Value)
    (shape : ∀ items, (collection items).elements? = some items) :
    filters.root.EveryMapping
      (fun entries => (entries.map fun entry => entry.1.shown).Nodup ∧ entries ≠ [])
      (.map (filtersIn collection)) := by
  have listed : ∀ property heading member join items,
      (∀ item ∈ items, member.EveryMapping property item) →
        (Node.list heading member join).EveryMapping property (collection items) := by
    intro property heading member join items each
    refine Node.everyMapping_list fun child first => ?_
    obtain ⟨_, element, at_, rfl⟩ := (Node.mem_children_list (shape items)).mp first
    exact each element (List.mem_of_getElem? at_)
  have values : ∀ property heading items,
      (Node.list heading Node.listMember .flat).EveryMapping property (collection items) :=
    fun _ _ _ => listed _ _ _ _ _ fun _ _ => Node.everyMapping_scalar
  have outer : [Text.ofString "filter", Text.ofString "owner"].Nodup := by decide
  have inner : [Text.ofString "value", Text.ofString "name"].Nodup := by decide
  have turned : [Text.ofString "name", Text.ofString "value"].Nodup := by decide
  refine Node.everyMapping_structure ⟨outer, List.cons_ne_nil _ _⟩ (List.forall_mem_cons.mpr
    ⟨listed _ _ _ _ _ (List.forall_mem_cons.mpr ⟨?_, List.forall_mem_singleton.mpr ?_⟩),
      List.forall_mem_singleton.mpr Node.everyMapping_scalar⟩)
  · exact Node.everyMapping_structure ⟨inner, List.cons_ne_nil _ _⟩ (List.forall_mem_cons.mpr
      ⟨values _ _ _, List.forall_mem_singleton.mpr Node.everyMapping_scalar⟩)
  · exact Node.everyMapping_structure ⟨turned, List.cons_ne_nil _ _⟩ (List.forall_mem_cons.mpr
      ⟨Node.everyMapping_scalar, List.forall_mem_singleton.mpr (values _ _ _)⟩)

/-- Lists and tuples of filters are sent alike, and agree. -/
theorem filters_agree_filtersIn :
    filters.PlainlyReachable ∧ filters.root.Everywhere Undotted ∧
    (filters.validate (.map (filtersIn .list)) = .ok () ∧
      filters.validate (.map (filtersIn .tuple)) = .ok ()) ∧
    (filters.root.KeysDistinct (.map (filtersIn .list)) ∧
      filters.root.KeysDistinct (.map (filtersIn .tuple))) ∧
    (filters.root.FilledBelow (.map (filtersIn .list)) ∧
      filters.root.FilledBelow (.map (filtersIn .tuple))) ∧
    filters.requestParams Base64.encode (.map (filtersIn .list)) =
      filters.requestParams Base64.encode (.map (filtersIn .tuple)) ∧
    filters.root.Agrees Base64.encode (.map (filtersIn .list)) (.map (filtersIn .tuple)) := by
  have unwarned : ∀ finding ∈ NamingLint.operationFindings (.locate none none none)
      (.text "DescribeImages") filters, finding.isWarning = false := by decide
  have undotted : filters.root.Everywhere Undotted := undotted_of_unwarned unwarned
  have leftValid : filters.validate (.map (filtersIn .list)) = .ok () := rfl
  have rightValid : filters.validate (.map (filtersIn .tuple)) = .ok () := rfl
  have lefts := filtersIn_mappings .list fun _ => rfl
  have rights := filtersIn_mappings .tuple fun _ => rfl
  have leftKeys : filters.root.KeysDistinct (.map (filtersIn .list)) :=
    fun _ _ _ _ reached => (lefts _ _ _ _ reached).1
  have rightKeys : filters.root.KeysDistinct (.map (filtersIn .tuple)) :=
    fun _ _ _ _ reached => (rights _ _ _ _ reached).1
  have leftFilled : filters.root.FilledBelow (.map (filtersIn .list)) :=
    fun _ first _ _ _ _ reached => (lefts.child first _ _ _ _ reached).2
  have rightFilled : filters.root.FilledBelow (.map (filtersIn .tuple)) :=
    fun _ first _ _ _ _ reached => (rights.child first _ _ _ _ reached).2
  have same : filters.requestParams Base64.encode (.map (filtersIn .list)) =
      filters.requestParams Base64.encode (.map (filtersIn .tuple)) := rfl
  exact ⟨plainlyReachable_filters, undotted, ⟨leftValid, rightValid⟩, ⟨leftKeys, rightKeys⟩,
    ⟨leftFilled, rightFilled⟩, same, agrees_of_requestParams_eq plainlyReachable_filters undotted
      leftValid rightValid leftKeys rightKeys leftFilled rightFilled same⟩

end Schema

end QueryOptions
