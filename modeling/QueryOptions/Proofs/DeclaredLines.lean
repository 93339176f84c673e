import QueryOptions.Proofs.Level
import QueryOptions.Schema.Basic

namespace QueryOptions

/-! Names that stand on one line. Where no text of a declaration has a second line, no wire name that
is made of it has one, and neither has the error that refuses it. -/

/-- What is met when a value is gone through is a part of it. -/
theorem Value.lined_of_items? {value item : Value} {items : List Value} (lined : value.Lined)
    (found : value.items? = some items) (inside : item ∈ items) : item.Lined := by
  have single {content : Text} (line : Text.IsLine content) {point : CodePoint}
      (known : point ∈ content) : (Value.text [point]).Lined :=
    lined_text.mpr (line.of_subset fun other same => List.mem_singleton.mp same ▸ known)
  cases value with
  | text content =>
      cases found
      obtain ⟨point, known, rfl⟩ := List.mem_map.mp inside
      exact single (lined_text.mp lined) known
  | kind named =>
      cases found
      obtain ⟨point, known, rfl⟩ := List.mem_map.mp inside
      exact single named.isLine_name known
  | bytes form data =>
      cases found
      obtain ⟨byte, -, rfl⟩ := List.mem_map.mp inside
      exact nofun
  | map entries =>
      cases found
      obtain ⟨entry, known, rfl⟩ := List.mem_map.mp inside
      exact (lined_map.mp lined entry known).1
  | range start stop step =>
      cases found
      obtain ⟨index, -, rfl⟩ := List.mem_map.mp inside
      exact nofun
  | list all => cases found; exact lined_list.mp lined item inside
  | tuple all => cases found; exact lined_tuple.mp lined item inside
  | set frozen all => cases found; exact lined_set.mp lined item inside
  | once all => cases found; exact lined_once.mp lined item inside
  | _ => cases found

namespace SchemaError

/-- The texts that the error cites stand on one line each. -/
def Lined : SchemaError → Prop
  | .unknownDescriptor name => Text.IsLine name
  | .missingArgument _ owner => Text.IsLine owner
  | .unexpectedArgument _ owner => Text.IsLine owner
  | .descriptorList owner given => Text.IsLine owner ∧ given.Lined
  | .member owner given => Text.IsLine owner ∧ given.Lined
  | .members owner given => Text.IsLine owner ∧ given.Lined
  | .description name given => Text.IsLine name ∧ given.Lined
  | .descriptorName given => given.Lined
  | .descriptorEntries given => given.Lined
  | .declaration given => given.Lined
  | .configuration given => given.Lined
  | .noEntry => True
  | .manyEntries => True
  | .notIterable _ => True

theorem isLine_message {error : SchemaError} (lined : error.Lined) : Text.IsLine error.message := by
  have about {opening middle owner : Text} {given : Value} (before : Text.IsLine opening)
      (between : Text.IsLine middle) (cited : Text.IsLine owner ∧ given.Lined) :
      Text.IsLine (opening ++ owner ++ middle ++ given.written) := by
    simp only [Text.isLine_append]
    exact ⟨⟨⟨before, cited.1⟩, between⟩, given.isLine_written cited.2⟩
  have alone {opening : Text} {given : Value} (before : Text.IsLine opening) (cited : given.Lined) :
      Text.IsLine (opening ++ given.written) :=
    Text.isLine_append.mpr ⟨before, given.isLine_written cited⟩
  cases error with
  | descriptorName => exact alone (by decide) lined
  | unknownDescriptor name =>
      simp only [message, Text.isLine_append]
      exact ⟨⟨⟨by decide, lined⟩, by decide⟩, by decide⟩
  | descriptorEntries => exact alone (by decide) lined
  | missingArgument kind owner =>
      simp only [message, Text.isLine_append]
      exact ⟨⟨⟨⟨by decide, kind.isLine_name⟩, by decide⟩, lined⟩, by decide⟩
  | unexpectedArgument kind owner =>
      simp only [message, Text.isLine_append]
      exact ⟨⟨⟨⟨by decide, kind.isLine_name⟩, by decide⟩, lined⟩, by decide⟩
  | descriptorList => exact about (by decide) (by decide) lined
  | member => exact about (by decide) (by decide) lined
  | members => exact about (by decide) (by decide) lined
  | noEntry => decide
  | manyEntries => decide
  | description => exact about (by decide) (by decide) lined
  | declaration => exact alone (by decide) lined
  | configuration => exact alone (by decide) lined
  | notIterable given =>
      simp only [message, Text.isLine_append]
      exact ⟨⟨by decide, given.isLine_qualifiedTypeName⟩, by decide⟩

/-- A reading gives something fit, or it ends with an error that cites single lines. -/
def Tells {α : Type} (fit : α → Prop) : Except SchemaError α → Prop
  | .ok value => fit value
  | .error error => error.Lined

variable {α β : Type} {fit : α → Prop} {next : β → Prop}

theorem Tells.bind {read : Except SchemaError α} {step : α → Except SchemaError β}
    (first : Tells fit read) (second : ∀ value, fit value → Tells next (step value)) :
    Tells next (read >>= step) := by
  cases read with
  | error error => exact first
  | ok value => exact second value first

theorem Tells.map {read : Except SchemaError α} {change : α → β} (first : Tells fit read)
    (kept : ∀ value, fit value → next (change value)) : Tells next (read.map change) := by
  cases read with
  | error error => exact first
  | ok value => exact kept value first

theorem Tells.mapM {items : List β} {step : β → Except SchemaError α}
    (each : ∀ item ∈ items, Tells fit (step item)) :
    Tells (fun values => ∀ value ∈ values, fit value) (items.mapM step) := by
  induction items with
  | nil => exact nofun
  | cons item rest ih =>
      obtain ⟨here, later⟩ := List.forall_mem_cons.mp each
      rw [List.mapM_cons]
      refine here.bind fun value fits => (ih later).bind fun values others => ?_
      exact List.forall_mem_cons.mpr ⟨fits, others⟩

theorem Tells.foldlM {items : List β} {step : α → β → Except SchemaError α} {start : α}
    (initially : fit start)
    (each : ∀ item ∈ items, ∀ before, fit before → Tells fit (step before item)) :
    Tells fit (items.foldlM step start) := by
  induction items generalizing start with
  | nil => exact initially
  | cons item rest ih =>
      obtain ⟨here, later⟩ := List.forall_mem_cons.mp each
      rw [List.foldlM_cons]
      exact (here start initially).bind fun value fits => ih fits later

end SchemaError

open SchemaError (Tells)

/-! Descriptors. -/

/-- The members that the descriptor declares, at any depth, have names on one line each. -/
inductive Descriptor.Lined : Descriptor → Prop
  | leaf {type : LeafType} : Lined (.leaf type)
  | required : Lined .required
  | rename {target : Text} : Lined (.rename target)
  | pattern : Lined .pattern
  | list {join : ListJoin} {block : List Descriptor} (inside : ∀ descriptor ∈ block, Lined descriptor) :
      Lined (.list join block)
  | structure {members : List (Text × List Descriptor)}
      (named : ∀ member ∈ members, Text.IsLine member.1)
      (inside : ∀ member ∈ members, ∀ descriptor ∈ member.2, Lined descriptor) :
      Lined (.structure members)

namespace Descriptor

def AllLined (block : List Descriptor) : Prop := ∀ descriptor ∈ block, descriptor.Lined

def MembersLined (members : List (Text × List Descriptor)) : Prop :=
  ∀ member ∈ members, Text.IsLine member.1 ∧ AllLined member.2

theorem tells_resolve {name : Value} (lined : name.Lined) :
    Tells (fun _ => True) (DescriptorKind.resolve name) := by
  unfold DescriptorKind.resolve
  split
  · trivial
  · exact lined
  · split
    · trivial
    · exact Value.lined_text.mp lined
  · exact lined

theorem tells_checkArgument {kind : DescriptorKind} {owner : Text} (line : Text.IsLine owner)
    (argument : Value) : Tells (fun _ => True) (kind.checkArgument owner argument) := by
  unfold DescriptorKind.checkArgument
  split
  · exact line
  · trivial
  · exact line
  · trivial

theorem tells_assemble {owner : Text} (line : Text.IsLine owner) {name argument : Value}
    (lined : name.Lined) {block : Unit → Except SchemaError (List Descriptor)}
    {members : Unit → Except SchemaError (List (Text × List Descriptor))}
    (blocked : Tells AllLined (block ())) (membered : Tells MembersLined (members ())) :
    Tells Lined (assemble owner name argument block members) := by
  refine (tells_resolve lined).bind fun kind _ =>
    (tells_checkArgument line argument).bind fun _ _ => ?_
  cases kind with
  | leaf type => exact .leaf
  | required => exact .required
  | rename => exact .rename
  | pattern => exact .pattern
  | list join => exact blocked.bind fun block inside => .list inside
  | «structure» =>
      refine membered.bind fun members inside => ?_
      exact Lined.structure (fun member known => (inside member known).1)
        fun member known => (inside member known).2

theorem tells_bare {owner : Text} (line : Text.IsLine owner) {value : Value} (lined : value.Lined) :
    Tells Lined (bare owner value) := by
  unfold bare
  split
  · exact lined
  · exact tells_assemble line lined nofun nofun

theorem tells_checkMemberEntries {owner : Text} (line : Text.IsLine owner) {items : List Value}
    (lined : ∀ item ∈ items, item.Lined) :
    Tells (fun _ => True) (checkMemberEntries owner items) := by
  unfold checkMemberEntries
  split
  · rename_i found
    exact ⟨line, lined _ (List.mem_of_find?_eq_some found)⟩
  · trivial

theorem tells_single {read : Except SchemaError Descriptor} (told : Tells Lined read) :
    Tells AllLined (do return [← read]) :=
  told.bind fun _ lined => List.forall_mem_singleton.mpr lined

theorem tells_entry {name : Value} (named : name.Lined)
    {block : Except SchemaError (List Descriptor)}
    {rest : Except SchemaError (List (Text × List Descriptor))} (here : Tells AllLined block)
    (later : Tells MembersLined rest) :
    Tells MembersLined (do
      let block ← block
      return (name.shown, block) :: (← rest)) :=
  here.bind fun _ inside => later.bind fun _ others =>
    List.forall_mem_cons.mpr ⟨⟨name.isLine_shown named, inside⟩, others⟩

mutual

theorem tells_readBlock {owner inner : Text} (line : Text.IsLine owner) (inLine : Text.IsLine inner) :
    ∀ value : Value, value.Lined → Tells AllLined (readBlock owner inner value)
  | .null, _ => nofun
  | .list items, lined => tells_readAll inLine items (Value.lined_list.mp lined)
  | .tuple items, lined => tells_readAll inLine items (Value.lined_tuple.mp lined)
  | .map [(name, argument)], lined => by
      obtain ⟨named, argued⟩ := Value.lined_map.mp lined _ (List.mem_singleton_self _)
      rw [readBlock]
      exact tells_single (tells_assemble inLine named
        (tells_readBlock inLine (by decide) argument argued) (tells_readMembers inLine argument argued))
  | .text content, lined => tells_single (tells_bare inLine lined)
  | .kind named, lined => tells_single (tells_bare inLine lined)
  | .map [], lined | .map (_ :: _ :: _), lined => lined
  | .bool _, lined | .int _, lined | .float _, lined | .decimal _, lined | .fraction _ _, lined
  | .bytes _ _, lined | .set _ _, lined | .range _ _ _, lined | .once _, lined | .date _, lined
  | .moment _, lined => ⟨line, lined⟩

theorem tells_read {owner : Text} (line : Text.IsLine owner) :
    ∀ value : Value, value.Lined → Tells Lined (read owner value)
  | .map [(name, argument)], lined => by
      obtain ⟨named, argued⟩ := Value.lined_map.mp lined _ (List.mem_singleton_self _)
      rw [read]
      exact tells_assemble line named (tells_readBlock line (by decide) argument argued)
        (tells_readMembers line argument argued)
  | .null, lined | .map [], lined | .map (_ :: _ :: _), lined | .bool _, lined | .int _, lined
  | .float _, lined | .decimal _, lined | .fraction _ _, lined | .text _, lined | .kind _, lined
  | .bytes _ _, lined | .list _, lined | .tuple _, lined | .set _ _, lined | .range _ _ _, lined
  | .once _, lined | .date _, lined | .moment _, lined => tells_bare line lined

theorem tells_readAll {owner : Text} (line : Text.IsLine owner) :
    ∀ declared : List Value, (∀ given ∈ declared, given.Lined) →
      Tells AllLined (readAll owner declared)
  | [], _ => nofun
  | given :: rest, lined => by
      obtain ⟨here, later⟩ := List.forall_mem_cons.mp lined
      rw [readAll_cons]
      refine (tells_read line given here).bind fun descriptor first => ?_
      refine (tells_readAll line rest later).bind fun block others => ?_
      exact List.forall_mem_cons.mpr ⟨first, others⟩

theorem tells_readMembers {owner : Text} (line : Text.IsLine owner) :
    ∀ value : Value, value.Lined → Tells MembersLined (readMembers owner value)
  | .map entries, lined => tells_readEntries entries (Value.lined_map.mp lined)
  | .list items, lined => by
      have each := Value.lined_list.mp lined
      exact (tells_checkMemberEntries line each).bind fun _ _ => tells_readItems items each
  | .tuple items, lined => by
      have each := Value.lined_tuple.mp lined
      exact (tells_checkMemberEntries line each).bind fun _ _ => tells_readItems items each
  | .null, lined | .bool _, lined | .int _, lined | .float _, lined | .decimal _, lined
  | .fraction _ _, lined | .text _, lined | .kind _, lined | .bytes _ _, lined | .set _ _, lined
  | .range _ _ _, lined | .once _, lined | .date _, lined | .moment _, lined => ⟨line, lined⟩

theorem tells_readEntries : ∀ entries : List (Value × Value),
    (∀ entry ∈ entries, entry.1.Lined ∧ entry.2.Lined) → Tells MembersLined (readEntries entries)
  | [], _ => nofun
  | (name, declared) :: rest, lined => by
      obtain ⟨⟨named, given⟩, later⟩ := List.forall_mem_cons.mp lined
      have line := name.isLine_shown named
      rw [readEntries]
      exact tells_entry named (tells_readBlock line line declared given)
        (tells_readEntries rest later)

theorem tells_readItems : ∀ items : List Value, (∀ item ∈ items, item.Lined) →
    Tells MembersLined (readItems items)
  | [], _ => nofun
  | .map [(name, declared)] :: rest, lined => by
      obtain ⟨here, later⟩ := List.forall_mem_cons.mp lined
      obtain ⟨named, given⟩ := Value.lined_map.mp here _ (List.mem_singleton_self _)
      have line := name.isLine_shown named
      rw [readItems]
      exact tells_entry named (tells_readBlock line line declared given)
        (tells_readItems rest later)
  | .list [name, declared] :: rest, lined => by
      obtain ⟨here, later⟩ := List.forall_mem_cons.mp lined
      obtain ⟨named, given⟩ := List.forall_mem_cons.mp (Value.lined_list.mp here)
      have line := name.isLine_shown named
      rw [readItems]
      exact tells_entry named
        (tells_readBlock line line declared (List.forall_mem_singleton.mp given))
        (tells_readItems rest later)
  | .tuple [name, declared] :: rest, lined => by
      obtain ⟨here, later⟩ := List.forall_mem_cons.mp lined
      obtain ⟨named, given⟩ := List.forall_mem_cons.mp (Value.lined_tuple.mp here)
      have line := name.isLine_shown named
      rw [readItems]
      exact tells_entry named
        (tells_readBlock line line declared (List.forall_mem_singleton.mp given))
        (tells_readItems rest later)
  | .map [] :: rest, lined | .map (_ :: _ :: _) :: rest, lined | .list [] :: rest, lined
  | .list [_] :: rest, lined | .list (_ :: _ :: _ :: _) :: rest, lined | .tuple [] :: rest, lined
  | .tuple [_] :: rest, lined | .tuple (_ :: _ :: _ :: _) :: rest, lined | .null :: rest, lined
  | .bool _ :: rest, lined | .int _ :: rest, lined | .float _ :: rest, lined
  | .decimal _ :: rest, lined | .fraction _ _ :: rest, lined | .text _ :: rest, lined
  | .kind _ :: rest, lined | .bytes _ _ :: rest, lined | .set _ _ :: rest, lined
  | .range _ _ _ :: rest, lined | .once _ :: rest, lined | .date _ :: rest, lined
  | .moment _ :: rest, lined => tells_readItems rest (List.forall_mem_cons.mp lined).2

end

end Descriptor

/-! Nodes. -/

/-- The wire names of the level are spelled on one line each. -/
def WiresLined (level : List Node) : Prop := ∀ node ∈ level, Text.IsLine node.wire.spelling

theorem WiresLined.put {node : Node} {level : List Node} (lines : WiresLined level)
    (line : Text.IsLine node.wire.spelling) : WiresLined (putNode node level) := by
  intro other inside
  rcases mem_putNode inside with rfl | known
  · exact line
  · exact lines other known

theorem WiresLined.declared {level : List Node} (lines : WiresLined level) {wire : WireName}
    (line : Text.IsLine wire.spelling) :
    Text.IsLine ((findWire? wire.text level).getD (.default wire)).wire.spelling := by
  cases found : findWire? wire.text level with
  | none => exact line
  | some node => exact lines node (mem_of_findWire? found)

namespace Node

theorem allLevels_members {node : Node} (holds : node.Everywhere WiresLined) :
    AllLevels WiresLined node.members := by
  cases node with
  | «structure» heading members => exact everywhere_structure.mp holds
  | _ => exact ⟨nofun, nofun⟩

/-- One more declared member. -/
theorem AllLevels.declareLined {known : List Node} (holds : AllLevels WiresLined known)
    {wire : WireName} (line : Text.IsLine wire.spelling) {block : List Descriptor}
    (inside : (((findWire? wire.text known).getD (default wire)).extend block).Everywhere
      WiresLined) :
    AllLevels WiresLined
      (putNode (((findWire? wire.text known).getD (default wire)).extend block) known) := by
  refine holds.put (holds.1.put ?_) inside
  rw [wire_extend]
  exact holds.1.declared line

mutual

theorem wiresLined_apply (node : Node) (holds : node.Everywhere WiresLined) :
    ∀ descriptor : Descriptor, descriptor.Lined → (node.apply descriptor).Everywhere WiresLined
  | .leaf _, _ => everywhere_scalar
  | .required, _ => everywhere_withHeading holds
  | .rename _, _ => everywhere_withHeading holds
  | .pattern, _ => holds
  | .list _ block, lined => by
      cases lined with
      | list inside =>
          rw [apply, everywhere_list]
          exact wiresLined_extend _ (everywhere_listMemberOf holds) block inside
  | .structure members, lined => by
      cases lined with
      | «structure» named inside =>
          rw [apply, everywhere_structure]
          exact wiresLined_extendMembers _ (allLevels_members holds) members named inside

theorem wiresLined_extend (node : Node) (holds : node.Everywhere WiresLined) :
    ∀ block : List Descriptor, (∀ descriptor ∈ block, descriptor.Lined) →
      (node.extend block).Everywhere WiresLined
  | [], _ => holds
  | descriptor :: rest, lined => by
      obtain ⟨here, later⟩ := List.forall_mem_cons.mp lined
      rw [extend]
      exact wiresLined_extend _ (wiresLined_apply node holds descriptor here) rest later

theorem wiresLined_extendMembers (known : List Node) (holds : AllLevels WiresLined known) :
    ∀ declared : List (Text × List Descriptor), (∀ member ∈ declared, Text.IsLine member.1) →
      (∀ member ∈ declared, ∀ descriptor ∈ member.2, descriptor.Lined) →
      AllLevels WiresLined (extendMembers known declared)
  | [], _, _ => holds
  | (name, block) :: rest, named, inside => by
      obtain ⟨line, lines⟩ := List.forall_mem_cons.mp named
      obtain ⟨here, later⟩ := List.forall_mem_cons.mp inside
      have extended := wiresLined_extend _ (holds.everywhere_declared (.plain name)) block here
      have wire : Text.IsLine (WireName.plain name).spelling := line
      rw [extendMembers]
      exact wiresLined_extendMembers _ (holds.declareLined wire extended) rest lines later

end

end Node

/-! Schemas. -/

/-- All wire names in the schema are spelled on one line each. -/
def Schema.Lined (schema : Schema) : Prop := Node.AllLevels WiresLined schema.options

namespace Declaration

def Lined (declaration : Declaration) : Prop :=
  Text.IsLine declaration.name.spelling ∧ ∀ given ∈ declaration.descriptors, given.Lined

theorem tells_ofEntry {name description : Value} (named : name.Lined) (given : description.Lined) :
    Tells Lined (ofEntry name description) := by
  have line := name.isLine_shown named
  unfold ofEntry
  split
  · exact ⟨line, nofun⟩
  · exact ⟨line, Value.lined_list.mp given⟩
  · exact ⟨line, Value.lined_tuple.mp given⟩
  · exact ⟨line, given⟩

theorem tells_ofValue {value : Value} (lined : value.Lined) : Tells Lined (ofValue value) := by
  unfold ofValue
  split
  · trivial
  · obtain ⟨named, given⟩ := Value.lined_map.mp lined _ (List.mem_singleton_self _)
    exact tells_ofEntry named given
  · trivial
  · exact lined
  · exact ⟨Value.lined_text.mp lined, nofun⟩
  · exact ⟨DescriptorKind.isLine_symbol _, nofun⟩
  · exact lined

theorem tells_ofConfiguration {value : Value} (lined : value.Lined) :
    Tells (fun declarations => ∀ declaration ∈ declarations, declaration.Lined)
      (ofConfiguration value) := by
  unfold ofConfiguration
  split
  · exact nofun
  · exact Tells.mapM fun entry inside =>
      have both := Value.lined_map.mp lined entry inside
      tells_ofEntry both.1 both.2
  · exact lined
  · exact lined
  · exact lined
  · split
    · rename_i items found
      exact Tells.mapM fun item inside => tells_ofValue (Value.lined_of_items? lined found inside)
    · trivial

end Declaration

namespace Schema

theorem lined_empty : empty.Lined := ⟨nofun, nofun⟩

theorem tells_declare {schema : Schema} (lined : schema.Lined) {declaration : Declaration}
    (given : declaration.Lined) : Tells Lined (schema.declare declaration) := by
  obtain ⟨line, descriptors⟩ := given
  have read := Descriptor.tells_readAll (lined.1.declared line) declaration.descriptors descriptors
  have extended : Tells (fun node => Node.AllLevels WiresLined (putNode node schema.options))
      (((findWire? declaration.name.text schema.options).getD
        (.default declaration.name)).extendDeclared declaration.descriptors) :=
    read.map fun block inside => lined.declareLined line
      (Node.wiresLined_extend _ (lined.everywhere_declared declaration.name) block inside)
  exact extended.bind fun _ holds => holds

theorem tells_customize {base : Schema} (lined : base.Lined) {configuration : Value}
    (given : configuration.Lined) : Tells Lined (base.customize configuration) :=
  (Declaration.tells_ofConfiguration given).bind fun _ declared =>
    Tells.foldlM lined fun declaration inside _ before =>
      tells_declare before (declared declaration inside)

end Schema

end QueryOptions
