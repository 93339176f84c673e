import QueryOptions.Yaml.Node.Compose

namespace QueryOptions.Yaml

/-! Node trees of texts without tags. Sequences and mappings have the tags of their forms then, also
where an alias repeats them. -/

def Token.isTag (token : Token) : Bool :=
  match token.kind with
  | .tag _ _ => true
  | _ => false

namespace Node

/-- Sequences and mappings have the tags that their forms give them. -/
inductive Untagged : Node → Prop
  | scalar {tag text : Text} {mark : Mark} : Untagged (.scalar tag text mark)
  | sequence {items : List Node} {mark : Mark} (within : ∀ item ∈ items, Untagged item) :
      Untagged (.sequence Tag.sequence items mark)
  | mapping {entries : List (Node × Node)} {mark : Mark}
      (keys : ∀ entry ∈ entries, Untagged entry.1) (values : ∀ entry ∈ entries, Untagged entry.2) :
      Untagged (.mapping Tag.mapping entries mark)

end Node

/-- No tag is left to read, and the nodes with anchors are untagged. -/
structure ComposeState.Untagged (state : ComposeState) : Prop where
  tokens : ∀ token ∈ state.tokens, token.isTag = false
  anchors : ∀ name node, state.anchors.lookup name = some (some node) → node.Untagged

namespace Compose

variable {α β : Type} {action : Compose α} {result middle : α → Prop}

/-- Where no tag is left the action leaves none, and what it returns is as said. -/
def Keeps (action : Compose α) (result : α → Prop) : Prop :=
  ∀ state value next, state.Untagged → action.run state = .ok (value, next) →
    next.Untagged ∧ result value

namespace Keeps

theorem pure {value : α} (holds : result value) : Keeps (Pure.pure value) result := by
  rintro state _ _ sound ⟨⟩
  exact ⟨sound, holds⟩

theorem throw {error : Error} : Keeps (throw error) result := by
  rintro state value next sound ⟨⟩

theorem bind {rest : α → Compose β} {final : β → Prop} (first : Keeps action middle)
    (after : ∀ value, middle value → Keeps (rest value) final) :
    Keeps (action >>= rest) final := by
  intro state value next sound run
  rw [StateT.run_bind] at run
  cases ran : action.run state with
  | error error =>
      rw [ran] at run
      cases run
  | ok outcome =>
      rw [ran] at run
      obtain ⟨kept, holds⟩ := first state _ _ sound ran
      exact after outcome.1 holds outcome.2 _ _ kept run

theorem pure_bind {value : α} {rest : α → Compose β} {final : β → Prop}
    (after : Keeps (rest value) final) : Keeps (Pure.pure value >>= rest) final := by
  rwa [LawfulMonad.pure_bind]

theorem throw_bind {error : Error} {rest : α → Compose β} {final : β → Prop} :
    Keeps (MonadExcept.throw error >>= rest) final :=
  throw.bind fun _ (never : False) => never.elim

theorem ite {condition : Prop} [Decidable condition] {other : Compose α}
    (yes : Keeps action result) (no : Keeps other result) :
    Keeps (if condition then action else other) result := by
  split
  · exact yes
  · exact no

theorem map {change : α → β} {final : β → Prop} (kept : Keeps action middle)
    (changed : ∀ value, middle value → final (change value)) : Keeps (change <$> action) final := by
  rw [map_eq_pure_bind]
  exact kept.bind fun value holds => .pure (changed value holds)

theorem get : Keeps get ComposeState.Untagged := by
  rintro state _ _ sound ⟨⟩
  exact ⟨sound, sound⟩

theorem modify {change : ComposeState → ComposeState}
    (kept : ∀ state : ComposeState, state.Untagged → (change state).Untagged) :
    Keeps (modify change) fun _ => True := by
  rintro state _ _ sound ⟨⟩
  exact ⟨kept state sound, trivial⟩

theorem peek : Keeps peek fun token => token.isTag = false := by
  refine get.bind fun state sound => ?_
  split
  · exact throw
  · rename_i token rest left
    exact pure (sound.tokens token (left ▸ List.mem_cons_self))

theorem take : Keeps take fun token => token.isTag = false := by
  refine peek.bind fun token untagged => (modify fun state sound => ?_).bind fun _ _ =>
    pure untagged
  exact ⟨fun token inRest => sound.tokens token (List.mem_of_mem_drop inRest), sound.anchors⟩

theorem peekKind : Keeps peekKind fun _ => True := peek.bind fun _ _ => pure trivial

theorem expect (kind : Token.Kind) : Keeps (expect kind) fun _ => True := by
  refine take.bind fun token _ => ?_
  split
  · exact pure trivial
  · exact throw

theorem skipIf (kind : Token.Kind) : Keeps (skipIf kind) fun _ => True := by
  refine peekKind.bind fun next _ => ?_
  split
  · exact take.bind fun _ _ => pure trivial
  · exact pure trivial

theorem isOneOf (kinds : List Token.Kind) : Keeps (isOneOf kinds) fun _ => True :=
  peekKind.bind fun _ _ => pure trivial

/-- A collection goes on, after a separator or at its beginning. -/
theorem separated {kind : Token.Kind} {later : Bool} (after : Keeps action result) :
    Keeps (if later = true then do let _ ← Compose.expect kind; action else action) result :=
  ite ((expect kind).bind fun _ _ => after) after

theorem anchorProperty? : Keeps anchorProperty? fun _ => True := by
  refine peek.bind fun token _ => ?_
  split
  · exact take.bind fun _ _ => pure trivial
  · exact pure trivial

theorem tagProperty? : Keeps tagProperty? fun found => found = none := by
  refine peek.bind fun token untagged => ?_
  split
  · rename_i tagged
    simp [Token.isTag, tagged] at untagged
  · exact pure rfl

theorem properties : Keeps properties fun properties => properties.tag = none := by
  refine anchorProperty?.bind fun leading _ => tagProperty?.bind fun tag missing => ?_
  subst missing
  cases leading with
  | none => exact pure_bind (pure_bind (pure rfl))
  | some leading => exact pure_bind (pure_bind (pure rfl))

theorem putAnchor (name : Text) {node : Option Node} (untagged : ∀ known ∈ node, known.Untagged) :
    Keeps (putAnchor name node) fun _ => True := by
  refine modify fun state sound => ⟨sound.tokens, fun other known found => ?_⟩
  rw [List.lookup_cons] at found
  split at found
  · exact untagged known (Option.some.inj found)
  · exact sound.anchors other known found

theorem openAnchor (anchor : Option Text) : Keeps (openAnchor anchor) fun _ => True := by
  unfold Compose.openAnchor
  cases anchor with
  | none => exact pure trivial
  | some name =>
      have opened : Keeps (Compose.putAnchor name none) fun _ => True := putAnchor name (by simp)
      exact get.bind fun state _ => ite throw_bind opened

theorem closeAnchor (anchor : Option Text) {node : Node} (untagged : node.Untagged) :
    Keeps (closeAnchor anchor node) fun _ => True := by
  unfold Compose.closeAnchor
  cases anchor with
  | none => exact pure trivial
  | some name => exact putAnchor name (by simpa using untagged)

end Keeps

/-- All functions that read nodes, with one amount of fuel. -/
structure KeepsAll (fuel : Nat) : Prop where
  node (context : Context) : Keeps (node fuel context) Node.Untagged
  blockItems : Keeps (blockItems fuel) fun items => ∀ item ∈ items, item.Untagged
  indentlessItems : Keeps (indentlessItems fuel) fun items => ∀ item ∈ items, item.Untagged
  blockEntries : Keeps (blockEntries fuel) fun entries =>
    ∀ entry ∈ entries, entry.1.Untagged ∧ entry.2.Untagged
  blockValue : Keeps (blockValue fuel) Node.Untagged
  flowItems (isFirst : Bool) : Keeps (flowItems fuel isFirst) fun items =>
    ∀ item ∈ items, item.Untagged
  flowEntries (isFirst : Bool) : Keeps (flowEntries fuel isFirst) fun entries =>
    ∀ entry ∈ entries, entry.1.Untagged ∧ entry.2.Untagged
  flowValue (ends : List Token.Kind) : Keeps (flowValue fuel ends) Node.Untagged

namespace KeepsAll

variable {fuel : Nat} (below : KeepsAll fuel)

include below

theorem orEmpty {β : Type} {rest : Node → Compose β} {final : β → Prop} {missing : Bool}
    {mark : Mark} {context : Context}
    (after : ∀ node : Node, node.Untagged → Keeps (rest node) final) :
    Keeps (if missing = true then do let node ← Pure.pure (emptyScalar mark); rest node
      else do let node ← Compose.node fuel context; rest node) final :=
  .ite (.pure_bind (after _ .scalar)) ((below.node context).bind after)

theorem blockItems_succ :
    Keeps (Compose.blockItems (fuel + 1)) fun items => ∀ item ∈ items, item.Untagged := by
  refine Keeps.peekKind.bind fun kind _ => .ite ?_ ?_
  · refine Keeps.take.bind fun entry _ => (Keeps.isOneOf _).bind fun missing _ => ?_
    refine below.orEmpty fun item untagged => below.blockItems.bind fun rest others => ?_
    exact .pure (List.forall_mem_cons.mpr ⟨untagged, others⟩)
  · exact (Keeps.expect _).bind fun _ _ => .pure (by simp)

theorem indentlessItems_succ :
    Keeps (Compose.indentlessItems (fuel + 1)) fun items => ∀ item ∈ items, item.Untagged := by
  refine Keeps.peekKind.bind fun kind _ => .ite ?_ (.pure (by simp))
  refine Keeps.take.bind fun entry _ => (Keeps.isOneOf _).bind fun missing _ => ?_
  refine below.orEmpty fun item untagged => below.indentlessItems.bind fun rest others => ?_
  exact .pure (List.forall_mem_cons.mpr ⟨untagged, others⟩)

theorem blockEntries_succ : Keeps (Compose.blockEntries (fuel + 1)) fun entries =>
    ∀ entry ∈ entries, entry.1.Untagged ∧ entry.2.Untagged := by
  refine Keeps.peek.bind fun token _ => ?_
  split
  · refine Keeps.take.bind fun indicator _ => (Keeps.isOneOf _).bind fun missing _ => ?_
    refine below.orEmpty fun key keyUntagged => below.blockValue.bind fun value valueUntagged => ?_
    refine below.blockEntries.bind fun rest others => .pure ?_
    exact List.forall_mem_cons.mpr ⟨⟨keyUntagged, valueUntagged⟩, others⟩
  · exact (Keeps.expect _).bind fun _ _ => .pure (by simp)

theorem blockValue_succ : Keeps (Compose.blockValue (fuel + 1)) Node.Untagged := by
  refine Keeps.peek.bind fun token _ => ?_
  split
  · refine Keeps.take.bind fun indicator _ => (Keeps.isOneOf _).bind fun missing _ => ?_
    exact .ite (.pure .scalar) (below.node _)
  · exact Keeps.peek.bind fun _ _ => .pure .scalar

theorem flowItems_succ (isFirst : Bool) :
    Keeps (Compose.flowItems (fuel + 1) isFirst) fun items => ∀ item ∈ items, item.Untagged := by
  refine (Keeps.skipIf _).bind fun closed _ => .ite (.pure (by simp)) (.separated ?_)
  refine Keeps.peek.bind fun token _ => ?_
  split
  · refine Keeps.take.bind fun indicator _ => (Keeps.isOneOf _).bind fun missing _ => ?_
    refine below.orEmpty fun key keyUntagged =>
      (below.flowValue _).bind fun value valueUntagged => ?_
    have item : (Node.mapping Tag.mapping [(key, value)] indicator.start).Untagged :=
      .mapping (by simpa using keyUntagged) (by simpa using valueUntagged)
    exact (below.flowItems false).bind fun rest others =>
      .pure (List.forall_mem_cons.mpr ⟨item, others⟩)
  · refine (Keeps.skipIf _).bind fun closed _ => .ite (.pure (by simp)) ?_
    refine (below.node _).bind fun item untagged =>
      (below.flowItems false).bind fun rest others => ?_
    exact .pure (List.forall_mem_cons.mpr ⟨untagged, others⟩)

theorem flowEntries_succ (isFirst : Bool) : Keeps (Compose.flowEntries (fuel + 1) isFirst)
    fun entries => ∀ entry ∈ entries, entry.1.Untagged ∧ entry.2.Untagged := by
  refine (Keeps.skipIf _).bind fun closed _ => .ite (.pure (by simp)) (.separated ?_)
  refine Keeps.peek.bind fun token _ => ?_
  split
  · refine Keeps.take.bind fun indicator _ => (Keeps.isOneOf _).bind fun missing _ => ?_
    refine below.orEmpty fun key keyUntagged =>
      (below.flowValue _).bind fun value valueUntagged => ?_
    refine (below.flowEntries false).bind fun rest others => .pure ?_
    exact List.forall_mem_cons.mpr ⟨⟨keyUntagged, valueUntagged⟩, others⟩
  · refine (Keeps.skipIf _).bind fun closed _ => .ite (.pure (by simp)) ?_
    refine (below.node _).bind fun key untagged => Keeps.peek.bind fun token _ => ?_
    refine (below.flowEntries false).bind fun rest others => .pure ?_
    exact List.forall_mem_cons.mpr ⟨⟨untagged, .scalar⟩, others⟩

theorem flowValue_succ (ends : List Token.Kind) :
    Keeps (Compose.flowValue (fuel + 1) ends) Node.Untagged := by
  refine Keeps.peek.bind fun token _ => ?_
  split
  · refine Keeps.take.bind fun indicator _ => (Keeps.isOneOf _).bind fun missing _ => ?_
    exact .ite (.pure .scalar) (below.node _)
  · exact Keeps.peek.bind fun _ _ => .pure .scalar

theorem node_succ (context : Context) : Keeps (Compose.node (fuel + 1) context) Node.Untagged := by
  refine Keeps.peek.bind fun token _ => ?_
  split
  · refine Keeps.take.bind fun _ _ => Keeps.get.bind fun state sound => ?_
    split
    · exact .pure (sound.anchors _ _ (by assumption))
    · exact .throw
  · refine Keeps.properties.bind fun properties noTag => Keeps.peek.bind fun token _ => ?_
    refine (Keeps.openAnchor _).bind fun _ _ => ?_
    have joined : ∀ node : Node, node.Untagged →
        Keeps (do closeAnchor properties.anchor node; return node) Node.Untagged :=
      fun node untagged => (Keeps.closeAnchor _ untagged).bind fun _ _ => .pure untagged
    have ofItems : ∀ items : List Node, (∀ item ∈ items, item.Untagged) →
        (Node.sequence (tagOr properties.tag Tag.sequence) items
          (properties.start.getD token.start)).Untagged :=
      fun items untagged => noTag ▸ .sequence untagged
    have ofEntries : ∀ entries : List (Node × Node),
        (∀ entry ∈ entries, entry.1.Untagged ∧ entry.2.Untagged) →
          (Node.mapping (tagOr properties.tag Tag.mapping) entries
            (properties.start.getD token.start)).Untagged :=
      fun entries untagged => noTag ▸ .mapping (fun entry inside => (untagged entry inside).1)
        fun entry inside => (untagged entry inside).2
    dsimp only
    split
    · exact Keeps.take.bind fun _ _ => .pure_bind (joined _ .scalar)
    · exact Keeps.take.bind fun _ _ => ((below.flowItems true).map ofItems).bind joined
    · exact Keeps.take.bind fun _ _ => ((below.flowEntries true).map ofEntries).bind joined
    · refine .ite ((below.indentlessItems.map ofItems).bind joined) (.ite ?_ (.ite ?_ (.ite ?_ ?_)))
      · exact Keeps.take.bind fun _ _ => (below.blockItems.map ofItems).bind joined
      · exact Keeps.take.bind fun _ _ => (below.blockEntries.map ofEntries).bind joined
      · exact .pure_bind (joined _ .scalar)
      · exact .throw_bind

end KeepsAll

theorem keepsAll (fuel : Nat) : KeepsAll fuel := by
  induction fuel with
  | zero => exact ⟨fun _ => .throw, .throw, .throw, .throw, .throw, fun _ => .throw,
      fun _ => .throw, fun _ => .throw⟩
  | succ fuel below =>
      exact ⟨below.node_succ, below.blockItems_succ, below.indentlessItems_succ,
        below.blockEntries_succ, below.blockValue_succ, below.flowItems_succ,
        below.flowEntries_succ, below.flowValue_succ⟩

theorem keeps_directives (fuel : Nat) (versioned : Bool) (handles : List (Text × Text)) :
    Keeps (directives fuel versioned handles) fun _ => True := by
  induction fuel generalizing versioned handles with
  | zero => exact .throw
  | succ fuel ih =>
      refine Keeps.peek.bind fun token _ => ?_
      split
      · exact Keeps.take.bind fun _ _ => .ite .throw_bind (ih _ _)
      · exact Keeps.take.bind fun _ _ => .ite .throw_bind (ih _ _)
      · exact Keeps.take.bind fun _ _ => ih _ _
      · exact .pure trivial

theorem keeps_skipDocumentEnds (fuel : Nat) : Keeps (skipDocumentEnds fuel) fun _ => True := by
  induction fuel with
  | zero => exact .throw
  | succ fuel ih => exact (Keeps.skipIf _).bind fun _ _ => .ite ih (.pure trivial)

theorem keeps_explicitRoot (fuel : Nat) : Keeps (explicitRoot fuel) Node.Untagged := by
  refine (keeps_directives fuel false []).bind fun handles _ => ?_
  refine (Keeps.modify ?_).bind fun _ _ => (Keeps.expect _).bind fun _ _ => ?_
  · exact fun state sound => ⟨sound.tokens, sound.anchors⟩
  refine Keeps.peek.bind fun token _ => ?_
  exact .ite (.pure .scalar) ((keepsAll fuel).node _)

theorem keeps_document? (fuel : Nat) :
    Keeps (document? fuel) fun found => ∀ root ∈ found, root.Untagged := by
  have ofRoot : ∀ root : Node, root.Untagged → ∀ known ∈ some root, known.Untagged := by simp
  have joined : ∀ found : Option Node, (∀ root ∈ found, root.Untagged) →
      Keeps (do
        if found.isSome then
          let _ ← skipIf .documentEnd
          skipDocumentEnds fuel
        let _ ← expect .streamEnd
        return found) fun found => ∀ root ∈ found, root.Untagged := by
    intro found untagged
    have ended : ∀ _ : Unit, True → Keeps (do let _ ← expect .streamEnd; return found)
        fun found => ∀ root ∈ found, root.Untagged :=
      fun _ _ => (Keeps.expect _).bind fun _ _ => .pure untagged
    exact .ite ((Keeps.skipIf _).bind fun _ _ => (keeps_skipDocumentEnds fuel).bind ended)
      (ended () trivial)
  refine Keeps.peek.bind fun token _ => .ite (((keeps_explicitRoot fuel).map ofRoot).bind joined) ?_
  exact .ite (.pure_bind (joined none (by simp)))
    ((((keepsAll fuel).node _).map ofRoot).bind joined)

end Compose

theorem Node.untagged_of_ofText? {text : Text} {root : Node}
    (untagged : ∀ token ∈ (TokenStream.ofText text).tokens, token.isTag = false)
    (composed : Node.ofText? text = .ok (some root)) : root.Untagged := by
  let stream := TokenStream.ofText text
  let start : ComposeState := ⟨stream.tokens, stream.failure, Compose.standardHandles, []⟩
  have sound : start.Untagged := ⟨untagged, fun _ _ found => nomatch found⟩
  have kept := Compose.keeps_document? (4 * stream.tokens.length + 4)
  cases ran : (Compose.document? (4 * stream.tokens.length + 4)).run start with
  | error error => exact nomatch (congrArg (Functor.map Prod.fst) ran).symm.trans composed
  | ok outcome =>
      have found : outcome.1 = some root :=
        Except.ok.inj ((congrArg (Functor.map Prod.fst) ran).symm.trans composed)
      exact (kept start _ _ sound ran).2 root found

end QueryOptions.Yaml
