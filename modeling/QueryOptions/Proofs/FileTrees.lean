import QueryOptions.Proofs.Caching

namespace QueryOptions

/-! File trees. No directory has two entries of one name, and no name has a slash or leads upwards;
so it stays whatever is written, made or removed. -/

namespace Path

theorem slash_notMem_ofText (text : Text) : ∀ name ∈ (ofText text).names, '/'.toNat ∉ name :=
  fun _ inside => Text.notMem_of_mem_split (List.mem_filter.mp inside).1

theorem slash_notMem_name (path : Path) (plain : ∀ name ∈ path.names, '/'.toNat ∉ name) :
    '/'.toNat ∉ path.name := by
  rcases List.eq_nil_or_concat path.names with empty | ⟨above, last, longer⟩
  · rw [Path.name, empty]
    exact List.not_mem_nil
  · rw [Path.name, longer, List.concat_eq_append, List.getLastD_concat]
    exact plain last (by simp [longer])

end Path

namespace FileSystem

/-- What an entry of a directory can be called. -/
def IsName (name : Text) : Prop := '/'.toNat ∉ name ∧ name ≠ parentName

instance (name : Text) : Decidable (IsName name) := inferInstanceAs (Decidable (_ ∧ _))

end FileSystem

namespace FileEntry

/-- The names lead from a directory to an entry below it, at any depth. -/
inductive Holds : FileEntry → List Text → FileEntry → Prop
  | child {entries : List (Text × FileEntry)} {name : Text} {entry : FileEntry}
      (listed : (name, entry) ∈ entries) : Holds (.directory entries) [name] entry
  | deeper {entries : List (Text × FileEntry)} {name : Text} {entry below : FileEntry}
      {names : List Text} (listed : (name, entry) ∈ entries) (holds : Holds entry names below) :
      Holds (.directory entries) (name :: names) below

/-- The names in each directory are distinct, and none of them has a slash or leads upwards. -/
inductive WellFormed : FileEntry → Prop
  | file {content : Bytes} : WellFormed (.file content)
  | device : WellFormed .device
  | directory {entries : List (Text × FileEntry)} (distinct : Entries.Distinct entries)
      (named : ∀ entry ∈ entries, FileSystem.IsName entry.1)
      (below : ∀ entry ∈ entries, WellFormed entry.2) : WellFormed (.directory entries)

variable {entry below : FileEntry} {name : Text} {names more : List Text} {path : Path}
  {found : Path × FileEntry}

theorem holds_cons_iff {rest : List (Text × FileEntry)} :
    (directory ((name, entry) :: rest)).Holds names below ↔
      (names = [name] ∧ below = entry) ∨ (∃ more, names = name :: more ∧ entry.Holds more below) ∨
        (directory rest).Holds names below := by
  constructor
  · intro holds
    cases holds with
    | child listed =>
        rcases List.mem_cons.mp listed with same | inRest
        · cases same
          exact .inl ⟨rfl, rfl⟩
        · exact .inr (.inr (.child inRest))
    | deeper listed lower =>
        rcases List.mem_cons.mp listed with same | inRest
        · cases same
          exact .inr (.inl ⟨_, rfl, lower⟩)
        · exact .inr (.inr (.deeper inRest lower))
  · rintro (⟨rfl, rfl⟩ | ⟨more, rfl, lower⟩ | holds)
    · exact .child List.mem_cons_self
    · exact .deeper List.mem_cons_self lower
    · cases holds with
      | child listed => exact .child (List.mem_cons_of_mem _ listed)
      | deeper listed lower => exact .deeper (List.mem_cons_of_mem _ listed) lower

mutual

theorem mem_descendants_iff : ∀ {path : Path} (entry : FileEntry),
    found ∈ entry.descendants path ↔
      ∃ names, entry.Holds names found.2 ∧ found.1 = ⟨path.root, path.names ++ names⟩
  | path, .file content => by
      simp only [descendants, List.not_mem_nil, false_iff]
      rintro ⟨names, holds, -⟩
      cases holds
  | path, .device => by
      simp only [descendants, List.not_mem_nil, false_iff]
      rintro ⟨names, holds, -⟩
      cases holds
  | path, .directory entries => mem_descendantsOf_iff entries

theorem mem_descendantsOf_iff : ∀ {path : Path} (entries : List (Text × FileEntry)),
    found ∈ descendantsOf path entries ↔
      ∃ names, (directory entries).Holds names found.2 ∧
        found.1 = ⟨path.root, path.names ++ names⟩
  | path, [] => by
      simp only [descendantsOf, List.not_mem_nil, false_iff]
      rintro ⟨names, holds, -⟩
      cases holds with
      | child listed => simp at listed
      | deeper listed _ => simp at listed
  | path, (name, entry) :: rest => by
      simp only [descendantsOf, List.mem_cons, List.mem_append, mem_descendants_iff entry,
        mem_descendantsOf_iff rest, holds_cons_iff, Path.child]
      constructor
      · rintro (rfl | ⟨names, holds, placed⟩ | ⟨names, holds, placed⟩)
        · exact ⟨[name], .inl ⟨rfl, rfl⟩, rfl⟩
        · exact ⟨name :: names, .inr (.inl ⟨names, rfl, holds⟩), by simpa using placed⟩
        · exact ⟨names, .inr (.inr holds), placed⟩
      · rintro ⟨names, ⟨rfl, stands⟩ | ⟨more, rfl, holds⟩ | holds, placed⟩
        · exact .inl (Prod.ext placed stands)
        · exact .inr (.inl ⟨more, holds, by simpa using placed⟩)
        · exact .inr (.inr ⟨names, holds, placed⟩)

end

theorem Holds.trans {lowest : FileEntry} (holds : entry.Holds names below)
    (lower : below.Holds more lowest) : entry.Holds (names ++ more) lowest := by
  induction holds with
  | child listed => exact .deeper listed lower
  | deeper listed _ ih => exact .deeper listed (ih lower)

theorem get?_append (entry : FileEntry) (names more : List Text) :
    entry.get? (names ++ more) = (entry.get? names).bind (·.get? more) := by
  induction names generalizing entry with
  | nil => cases entry <;> rfl
  | cons name rest ih =>
      cases entry with
      | directory entries =>
          rw [List.cons_append, get?, get?]
          cases Entries.find? name entries with
          | none => rfl
          | some found => exact ih found
      | _ => rfl

namespace WellFormed

variable {entries : List (Text × FileEntry)}

theorem child (sound : (FileEntry.directory entries).WellFormed)
    (listed : (name, entry) ∈ entries) : entry.WellFormed := by
  cases sound with
  | directory _ _ others => exact others _ listed

theorem find?_of_mem (sound : (FileEntry.directory entries).WellFormed)
    (listed : (name, entry) ∈ entries) : Entries.find? name entries = some entry := by
  cases sound with
  | directory distinct _ _ => exact distinct.find?_of_mem listed (beq_self_eq_true name)

theorem get? (sound : entry.WellFormed) (stands : entry.get? names = some below) :
    below.WellFormed := by
  induction names generalizing entry with
  | nil => cases entry <;> (cases stands; exact sound)
  | cons name rest ih =>
      cases entry with
      | directory entries =>
          obtain ⟨next, found, lower⟩ := Option.bind_eq_some_iff.mp stands
          obtain ⟨known, listed, -⟩ := Entries.exists_mem_of_find? found
          exact ih (sound.child listed) lower
      | _ => contradiction

theorem isName (sound : (FileEntry.directory entries).WellFormed)
    (listed : (name, entry) ∈ entries) : FileSystem.IsName name := by
  cases sound with
  | directory _ named _ => exact named _ listed

theorem isName_of_holds (sound : entry.WellFormed) (holds : entry.Holds names below) :
    ∀ name ∈ names, FileSystem.IsName name := by
  induction holds with
  | child listed => exact List.forall_mem_singleton.mpr (sound.isName listed)
  | deeper listed _ ih =>
      exact List.forall_mem_cons.mpr ⟨sound.isName listed, ih (sound.child listed)⟩

theorem putEntry (sound : (FileEntry.directory entries).WellFormed)
    (named : FileSystem.IsName name) (new : entry.WellFormed) :
    (FileEntry.directory (Entries.put name entry entries)).WellFormed := by
  cases sound with
  | directory distinct allNamed others =>
      refine .directory distinct.put (fun placed inside => ?_) fun placed inside => ?_
      · rcases Entries.exists_key_of_mem_put inside with given | ⟨known, listed, spelled⟩
        · exact given ▸ named
        · exact spelled ▸ allNamed known listed
      · rcases Entries.of_mem_put inside with old | ⟨given, -⟩
        · exact others placed old
        · exact given ▸ new

theorem put {added : FileEntry} (sound : entry.WellFormed)
    (named : ∀ name ∈ names, FileSystem.IsName name) (new : added.WellFormed) :
    (entry.put names added).WellFormed := by
  induction names generalizing entry with
  | nil =>
      rw [FileEntry.put]
      exact new
  | cons name rest ih =>
      obtain ⟨first, others⟩ := List.forall_mem_cons.mp named
      cases entry with
      | directory entries =>
          refine sound.putEntry first (ih ?_ others)
          cases found : Entries.find? name entries with
          | none => exact .directory .nil (by simp) (by simp)
          | some known =>
              obtain ⟨spelled, listed, -⟩ := Entries.exists_mem_of_find? found
              exact sound.child listed
      | _ => exact sound

theorem remove (sound : entry.WellFormed) : (entry.remove names).WellFormed := by
  fun_induction FileEntry.remove entry names with
  | case1 entries name =>
      cases sound with
      | directory distinct named others =>
          exact .directory (distinct.filter _)
            (fun placed inside => named placed (List.mem_filter.mp inside).1)
            fun placed inside => others placed (List.mem_filter.mp inside).1
  | case2 entries name rest _ known found ih =>
      obtain ⟨spelled, listed, same⟩ := Entries.exists_mem_of_find? found
      obtain rfl : spelled = name := beq_iff_eq.mp same
      exact sound.putEntry (sound.isName listed) (ih (sound.child listed))
  | case3 => exact sound
  | case4 => exact sound

end WellFormed

end FileEntry

namespace FileSystem

/-- The tree is well-formed, and the names on the way to the current directory have no slash. -/
structure WellFormed (system : FileSystem) : Prop where
  root : system.root.WellFormed
  current : ∀ name ∈ system.current, '/'.toNat ∉ name

variable {system next : FileSystem} {root after : FileEntry} {place onward names : List Text}
  {name : Text} {path : Path}

/-- Names ask too much where one of them is too long, after others that lead to a directory. -/
theorem asksTooMuch_iff : asksTooMuch root place names = true ↔ ∃ before name after onward,
    names = before ++ name :: after ∧ before.foldlM (step? root) place = some onward ∧
      (root.get? onward).any FileEntry.isDirectory = true ∧ Path.isLongName name = true := by
  induction names generalizing place with
  | nil => simp [asksTooMuch]
  | cons name rest ih =>
      simp only [asksTooMuch, Bool.and_eq_true, Bool.or_eq_true, Option.any_eq_true, ih]
      constructor
      · rintro ⟨directory, long | ⟨next, stepped, before, other, after, onward, rfl, walked, ends⟩⟩
        · exact ⟨[], name, rest, place, rfl, rfl, directory, long⟩
        · refine ⟨name :: before, other, after, onward, rfl, ?_, ends⟩
          rw [List.foldlM_cons, stepped]
          exact walked
      · rintro ⟨before, other, after, onward, split, walked, directory, long⟩
        cases before with
        | nil =>
            cases split
            cases walked
            exact ⟨directory, .inl long⟩
        | cons first before =>
            cases split
            obtain ⟨next, stepped, walked⟩ := Option.bind_eq_some_iff.mp walked
            refine ⟨?_, .inr ⟨next, stepped, before, other, after, onward, rfl, walked, directory, long⟩⟩
            unfold step? at stepped
            split at stepped
            · rename_i stands
              exact ⟨_, stands, rfl⟩
            · cases stepped

/-- A path is refused for its own length, or for a name that a directory on its way is asked for. -/
theorem refuses_iff : system.refuses path = true ↔ ∃ size, path.toText.pathSize? = some size ∧
    (Path.greatestSize < size ∨ ∃ before name after place,
      system.namesFromRoot path = before ++ name :: after ∧
        before.foldlM (step? system.root) [] = some place ∧
        (system.root.get? place).any FileEntry.isDirectory = true ∧ Path.isLongName name = true) := by
  rw [refuses, Bool.and_eq_true, Bool.or_eq_true, asksTooMuch_iff, Path.isLong]
  cases path.toText.pathSize? <;> simp

theorem isName_of_step? (sound : root.WellFormed) (named : ∀ name ∈ place, IsName name)
    (stepped : step? root place name = some onward) : ∀ name ∈ onward, IsName name := by
  unfold step? at stepped
  split at stepped
  · rename_i entries stands
    split at stepped
    · cases stepped
      exact fun name inside => named name ((List.dropLast_sublist _).mem inside)
    · split at stepped
      · rename_i known
        cases stepped
        obtain ⟨entry, found⟩ := Option.isSome_iff_exists.mp known
        obtain ⟨spelled, listed, same⟩ := Entries.exists_mem_of_find? found
        obtain rfl : spelled = name := beq_iff_eq.mp same
        have last : IsName spelled := (sound.get? stands).isName listed
        exact List.forall_mem_append.mpr ⟨named, List.forall_mem_singleton.mpr last⟩
      · cases stepped
  · cases stepped

theorem wellFormed_of_enterDirectory? (sound : root.WellFormed)
    (named : ∀ name ∈ place, IsName name) (plain : '/'.toNat ∉ name)
    (entered : enterDirectory? root place name = some (after, onward)) :
    after.WellFormed ∧ ∀ name ∈ onward, IsName name := by
  unfold enterDirectory? at entered
  split at entered
  · rename_i next stepped
    split at entered
    · cases entered
      exact ⟨sound, isName_of_step? sound named stepped⟩
    · cases entered
  · rename_i missing
    split at entered
    · rename_i stands
      cases entered
      have downwards : name ≠ parentName := by
        rintro rfl
        cases there : root.get? place with
        | none =>
            rw [there] at stands
            contradiction
        | some entry =>
            cases entry with
            | directory entries => simp [step?, there] at missing
            | _ =>
                rw [there] at stands
                contradiction
      have longer : ∀ other ∈ place ++ [name], IsName other :=
        List.forall_mem_append.mpr ⟨named, List.forall_mem_singleton.mpr ⟨plain, downwards⟩⟩
      exact ⟨sound.put longer (.directory .nil (by simp) (by simp)), longer⟩
    · cases entered

theorem wellFormed_of_enterDirectories? (sound : root.WellFormed)
    (named : ∀ name ∈ place, IsName name) (plain : ∀ name ∈ names, '/'.toNat ∉ name)
    (entered : names.foldlM (fun (root, place) name => enterDirectory? root place name)
      (root, place) = some (after, onward)) :
    after.WellFormed ∧ ∀ name ∈ onward, IsName name := by
  induction names generalizing root place with
  | nil =>
      cases entered
      exact ⟨sound, named⟩
  | cons name rest ih =>
      obtain ⟨first, others⟩ := List.forall_mem_cons.mp plain
      obtain ⟨⟨middle, between⟩, stepped, later⟩ := Option.bind_eq_some_iff.mp entered
      obtain ⟨kept, ways⟩ := wellFormed_of_enterDirectory? sound named first stepped
      exact ih kept ways others later

theorem wellFormed_of_makeDirectory? (sound : system.WellFormed)
    (plain : ∀ name ∈ path.names, '/'.toNat ∉ name)
    (made : system.makeDirectory? path = some (next, place)) :
    next.WellFormed ∧ ∀ name ∈ place, IsName name := by
  obtain ⟨-, -, made⟩ := Option.bind_eq_some_iff.mp made
  obtain ⟨⟨after, onward⟩, entered, rest⟩ := Option.bind_eq_some_iff.mp made
  cases rest
  have fromRoot : ∀ name ∈ system.namesFromRoot path, '/'.toNat ∉ name := by
    unfold namesFromRoot
    split
    · exact List.forall_mem_append.mpr ⟨sound.current, plain⟩
    · exact plain
  obtain ⟨kept, ways⟩ := wellFormed_of_enterDirectories? sound.root (by simp) fromRoot entered
  exact ⟨⟨kept, sound.current⟩, ways⟩

theorem wellFormed_of_write? {content : Bytes} (sound : system.WellFormed)
    (plain : ∀ name ∈ path.names, '/'.toNat ∉ name)
    (written : system.write? path content = some next) : next.WellFormed := by
  obtain ⟨-, -, written⟩ := Option.bind_eq_some_iff.mp written
  obtain ⟨⟨middle, directory⟩, made, rest⟩ := Option.bind_eq_some_iff.mp written
  have above : ∀ name ∈ path.parent.names, '/'.toNat ∉ name := fun name inside =>
    plain name ((List.dropLast_sublist _).mem inside)
  obtain ⟨kept, ways⟩ := wellFormed_of_makeDirectory? sound above made
  dsimp only at rest
  split at rest
  · cases rest
  · rename_i usable
    have last : IsName path.name :=
      ⟨path.slash_notMem_name plain, fun upwards => usable (by simp [upwards])⟩
    have place : ∀ name ∈ directory ++ [path.name], IsName name :=
      List.forall_mem_append.mpr ⟨ways, List.forall_mem_singleton.mpr last⟩
    split at rest
    · cases rest
    · cases rest
      exact kept
    · cases rest
      exact ⟨kept.root.put place .file, kept.current⟩

theorem wellFormed_of_remove? (sound : system.WellFormed)
    (removed : system.remove? path = some next) : next.WellFormed := by
  obtain ⟨-, -, removed⟩ := Option.bind_eq_some_iff.mp removed
  obtain ⟨place, -, rest⟩ := Option.bind_eq_some_iff.mp removed
  cases rest
  exact ⟨sound.root.remove, sound.current⟩

/-- A change that is not possible changes nothing. -/
theorem wellFormed_getD {changed : Option FileSystem} (sound : system.WellFormed)
    (kept : ∀ next, changed = some next → next.WellFormed) :
    (changed.getD system).WellFormed := by
  cases changed with
  | none => exact sound
  | some next => exact kept next rfl

end FileSystem

namespace ReaderState

theorem wellFormed_step {state : ReaderState} (sound : state.system.WellFormed)
    (step : ReaderStep) : (state.step step).system.WellFormed := by
  cases step with
  | write path content =>
      exact FileSystem.wellFormed_getD sound fun next =>
        FileSystem.wellFormed_of_write? sound (Path.slash_notMem_ofText path)
  | makeDirectory path =>
      refine FileSystem.wellFormed_getD sound fun next changed => ?_
      obtain ⟨outcome, made, rfl⟩ := Option.map_eq_some_iff.mp changed
      exact (FileSystem.wellFormed_of_makeDirectory? sound (Path.slash_notMem_ofText path) made).1
  | remove path =>
      exact FileSystem.wellFormed_getD sound fun next => FileSystem.wellFormed_of_remove? sound
  | clearCache => exact sound
  | load path => exact sound

/-- Whatever a run writes, makes or removes, the file tree stays well-formed. -/
theorem wellFormed_after {start : ReaderState} (sound : start.system.WellFormed)
    (steps : List ReaderStep) : (start.after steps).system.WellFormed := by
  induction steps using List.reverseRecOn with
  | nil => exact sound
  | append_singleton steps step ih =>
      rw [after_concat]
      exact wellFormed_step ih step

end ReaderState

end QueryOptions
