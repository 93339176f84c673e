import QueryOptions.Lint.Files
import QueryOptions.Proofs.FileTrees
import QueryOptions.Proofs.Sorted

namespace QueryOptions

/-! The search for catalog files. What is found is the union of what the given paths stand for, in
the order of paths, so that only the set of the given paths counts. -/

namespace FileSystem

/-- The path leads on from the start, over names of entries, to an entry below it. -/
def LiesBelow (system : FileSystem) (start path : Path) : Prop :=
  ∃ entry names below, system.entry? start = some entry ∧ entry.Holds names below ∧
    path = ⟨start.root, start.names ++ names⟩

variable {system : FileSystem} {start path : Path} {entry below : FileEntry} {names : List Text}

theorem exists_below_iff :
    (∃ entry, (path, entry) ∈ system.below start) ↔ system.LiesBelow start path := by
  unfold FileSystem.below LiesBelow
  cases system.entry? start with
  | none => simp
  | some entry =>
      simp only [FileEntry.mem_descendants_iff, Option.some.injEq]
      grind

theorem step?_of_mem {root : FileEntry} {place : List Text} {entries : List (Text × FileEntry)}
    {name : Text} (sound : (FileEntry.directory entries).WellFormed)
    (stands : root.get? place = some (.directory entries)) (listed : (name, entry) ∈ entries) :
    step? root place name = some (place ++ [name]) ∧ root.get? (place ++ [name]) = some entry := by
  have found := sound.find?_of_mem listed
  cases sound with
  | directory _ named _ =>
      have plain : name ≠ parentName := (named _ listed).2
      exact ⟨by simp [step?, stands, plain, Entries.hasKey, found],
        by simp [FileEntry.get?_append, stands, FileEntry.get?, found]⟩

/-- Following names of entries leads where they stand. -/
theorem foldlM_step?_of_holds {root : FileEntry} {place : List Text} (sound : entry.WellFormed)
    (stands : root.get? place = some entry) (holds : entry.Holds names below) :
    names.foldlM (step? root) place = some (place ++ names) ∧
      root.get? (place ++ names) = some below := by
  induction holds generalizing place with
  | child listed =>
      obtain ⟨stepped, there⟩ := step?_of_mem sound stands listed
      exact ⟨by simp [stepped], there⟩
  | deeper listed lower ih =>
      obtain ⟨stepped, there⟩ := step?_of_mem sound stands listed
      obtain ⟨walked, ends⟩ := ih (sound.child listed) there
      rw [List.append_assoc] at walked ends
      exact ⟨by rw [List.foldlM_cons, stepped]; exact walked, ends⟩

theorem entry?_of_holds (sound : system.root.WellFormed) (stands : system.entry? start = some entry)
    (holds : entry.Holds names below) :
    system.entry? ⟨start.root, start.names ++ names⟩ = some below := by
  obtain ⟨place, led, there⟩ := Option.bind_eq_some_iff.mp stands
  obtain ⟨walked, ends⟩ := foldlM_step?_of_holds (sound.get? there) there holds
  have onward : system.namesFromRoot ⟨start.root, start.names ++ names⟩ =
      system.namesFromRoot start ++ names := by
    unfold namesFromRoot
    dsimp only
    split
    · rw [List.append_assoc]
    · rfl
  have placed : system.place? ⟨start.root, start.names ++ names⟩ = some (place ++ names) := by
    rw [place?, onward, List.foldlM_append, show (system.namesFromRoot start).foldlM
      (step? system.root) [] = some place from led]
    exact walked
  unfold entry?
  rw [placed]
  exact ends

/-- What lies below an entry that lies below the start lies below the start. -/
theorem LiesBelow.trans {middle : Path} (sound : system.root.WellFormed)
    (outer : system.LiesBelow start middle) (inner : system.LiesBelow middle path) :
    system.LiesBelow start path := by
  obtain ⟨entry, names, below, stands, holds, rfl⟩ := outer
  obtain ⟨known, more, lowest, there, lower, rfl⟩ := inner
  rw [entry?_of_holds sound stands holds] at there
  cases there
  exact ⟨entry, names ++ more, lowest, stands, holds.trans lower, by simp⟩

end FileSystem

namespace Path

theorem le_iff {left right : Path} :
    left.le right = true ↔ ¬ Text.ListBefore right.sortKey left.sortKey := Text.listLe_iff

/-- A path as texts and directories give it: slashes stand in the root alone. -/
structure Proper (path : Path) : Prop where
  rooted : path.root = [] ∨ '/'.toNat ∈ path.root
  named : ∀ name ∈ path.names, '/'.toNat ∉ name

theorem Proper.eq_of_sortKey {left right : Path} (first : left.Proper) (second : right.Proper)
    (same : left.sortKey = right.sortKey) : left = right := by
  obtain ⟨leftRoot, leftNames⟩ := left
  obtain ⟨rightRoot, rightNames⟩ := right
  unfold sortKey at same
  cases leftRoot with
  | nil =>
      cases rightRoot with
      | nil => exact congrArg _ same
      | cons point rest =>
          have root : (point :: rest) ∈ leftNames := by
            rw [show leftNames = (point :: rest) :: rightNames from same]
            exact List.mem_cons_self
          exact absurd (second.rooted.resolve_left (List.cons_ne_nil _ _)) (first.named _ root)
  | cons point rest =>
      cases rightRoot with
      | nil =>
          have root : (point :: rest) ∈ rightNames := by
            rw [← show (point :: rest) :: leftNames = rightNames from same]
            exact List.mem_cons_self
          exact absurd (first.rooted.resolve_left (List.cons_ne_nil _ _)) (second.named _ root)
      | cons other others =>
          obtain ⟨roots, names⟩ := List.cons.inj same
          exact congrArg₂ Path.mk roots names

theorem proper_ofText (text : Text) : (ofText text).Proper where
  rooted := root_ofText text
  named := slash_notMem_ofText text

end Path

namespace CatalogFile

variable {system : FileSystem} {path start : Path} {paths : List Path}

theorem hasExtension_iff : hasExtension path = true ↔ fileExtension <:+ path.name := by
  unfold hasExtension baseName? Text.beforeEnding?
  split
  · rename_i ends
    exact iff_of_true rfl (List.isSuffixOf_iff_suffix.mp ends)
  · rename_i other
    exact iff_of_false Bool.false_ne_true (mt List.isSuffixOf_iff_suffix.mpr other)

/-- A path that can be looked at without a warning. -/
inductive Suits (system : FileSystem) (path : Path) : Prop
  | file {content : Bytes} (stands : system.entry? path = some (.file content))
      (named : hasExtension path = true)
  | directory {entries : List (Text × FileEntry)}
      (stands : system.entry? path = some (.directory entries))

theorem suits_iff : Suits system path ↔ (system.entry? path).any (fun entry =>
    entry.isDirectory || entry.isFile && hasExtension path) = true := by
  constructor
  · intro suits
    cases suits with
    | file stands named => simp [stands, named, FileEntry.isFile]
    | directory stands => simp [stands, FileEntry.isDirectory]
  · intro allowed
    obtain ⟨entry, stands, allowed⟩ := (Option.any_eq_true _ _).mp allowed
    cases entry with
    | file content =>
        have named : hasExtension path = true := by
          simpa [FileEntry.isDirectory, FileEntry.isFile] using allowed
        exact .file stands named
    | device => simp [FileEntry.isDirectory, FileEntry.isFile] at allowed
    | directory entries => exact .directory stands

/-- Why a search ends at a path: looking it up fails, or a directory below it has a path that is too
long. -/
inductive Ends (system : FileSystem) (start : Path) : Prop
  | refused (long : system.refuses start = true)
  | deep {entry : FileEntry} {names : List Text} {entries : List (Text × FileEntry)}
      (stands : system.entry? start = some entry) (holds : entry.Holds names (.directory entries))
      (long : Path.isLong ⟨start.root, start.names ++ names⟩ = true)

/-- What looking at a path comes to unless the search ends there. -/
inductive Finds (system : FileSystem) (start : Path) : List Path × List LogRecord → Prop
  | file {content : Bytes} (stands : system.entry? start = some (.file content))
      (named : hasExtension start = true) : Finds system start ([start], [])
  | directory {entries : List (Text × FileEntry)}
      (stands : system.entry? start = some (.directory entries)) :
      Finds system start (((system.below start).map (·.1)).filter hasExtension, [])
  | unsuited {message : Text} (unsuited : ¬ Suits system start) :
      Finds system start ([], [⟨findLoggerName, LogLevel.warning, message⟩])

variable {found : List Path × List LogRecord} {files rest : List Path} {records : List LogRecord}

theorem finds_of_find (looked : find system start = .ok found) : Finds system start found := by
  unfold find at looked
  split at looked
  · cases looked
  · split at looked
    · rename_i absent
      cases looked
      exact .unsuited (by simp [suits_iff, absent])
    · rename_i stands
      split at looked
      · cases looked
        exact .file stands ‹_›
      · rename_i other
        cases looked
        exact .unsuited (by simp [suits_iff, stands, FileEntry.isDirectory, other])
    · rename_i stands
      cases looked
      exact .unsuited (by simp [suits_iff, stands, FileEntry.isDirectory, FileEntry.isFile])
    · rename_i stands
      dsimp only at looked
      split at looked
      · cases looked
      · cases looked
        exact .directory stands

theorem exists_long_iff : (∃ found ∈ system.below start,
    found.2.isDirectory = true ∧ found.1.isLong = true) ↔ ∃ entry names entries,
      system.entry? start = some entry ∧ entry.Holds names (.directory entries) ∧
        Path.isLong ⟨start.root, start.names ++ names⟩ = true := by
  unfold FileSystem.below
  cases system.entry? start with
  | none => simp
  | some entry =>
      constructor
      · rintro ⟨⟨path, inner⟩, inside, isDirectory, long⟩
        obtain ⟨names, holds, rfl⟩ := (FileEntry.mem_descendants_iff entry).mp inside
        cases inner with
        | directory entries => exact ⟨entry, names, entries, rfl, holds, long⟩
        | _ => contradiction
      · rintro ⟨_, names, entries, stands, holds, long⟩
        cases stands
        exact ⟨(_, .directory entries), (FileEntry.mem_descendants_iff _).mpr ⟨names, holds, rfl⟩,
          rfl, long⟩

theorem find_fails_iff : (∃ error, find system start = .error error) ↔ Ends system start := by
  constructor
  · rintro ⟨error, failed⟩
    unfold find at failed
    split at failed
    · exact .refused ‹_›
    · split at failed
      · cases failed
      · split at failed <;> cases failed
      · cases failed
      · dsimp only at failed
        split at failed
        · rename_i inner entry listed
          have long := List.find?_some listed
          obtain ⟨_, _, _, stands, holds, long⟩ := exists_long_iff.mp
            ⟨_, List.mem_of_find?_eq_some listed, Bool.and_eq_true_iff.mp long⟩
          exact .deep stands holds long
        · cases failed
  · intro ends
    unfold find
    cases ends with
    | refused long => exact ⟨_, if_pos long⟩
    | @deep entry names _ stands holds long =>
        obtain ⟨entries, rfl⟩ : ∃ entries, entry = .directory entries := by
          cases holds <;> exact ⟨_, rfl⟩
        obtain ⟨found, listed, both⟩ := exists_long_iff.mpr ⟨_, names, _, stands, holds, long⟩
        split
        · exact ⟨_, rfl⟩
        · simp only [stands]
          split
          · exact ⟨_, rfl⟩
          · rename_i none
            exact absurd (Bool.and_eq_true_iff.mpr both) (List.find?_eq_none.mp none found listed)

/-- What a path stands for: itself, or all that lies below it, by the name alone. -/
theorem Finds.mem_iff (finds : Finds system start found) : path ∈ found.1 ↔
    hasExtension path = true ∧
      (path = start ∧ system.isFile start = true ∨ system.LiesBelow start path) := by
  rw [← FileSystem.exists_below_iff]
  unfold FileSystem.isFile FileSystem.below
  cases finds with
  | file stands named =>
      simp +contextual [stands, named, FileEntry.isFile, FileEntry.descendants]
  | directory stands => simp [FileSystem.below, stands, FileEntry.isFile, and_comm]
  | unsuited unsuited =>
      cases stands : system.entry? start with
      | none => simp
      | some entry =>
          cases entry with
          | file content =>
              have other : hasExtension start ≠ true := fun named => unsuited (.file stands named)
              simp only [FileEntry.descendants]
              simpa [FileEntry.isFile] using fun named (same : path = start) => other (same ▸ named)
          | device => simp [FileEntry.isFile, FileEntry.descendants]
          | directory entries => exact absurd (.directory stands) unsuited

theorem Finds.warning (finds : Finds system start found) {record : LogRecord}
    (logged : record ∈ found.2) :
    record.logger = findLoggerName ∧ record.level = LogLevel.warning := by
  cases finds with
  | unsuited =>
      rw [List.mem_singleton.mp logged]
      exact ⟨rfl, rfl⟩
  | _ => cases logged

theorem Finds.records_eq_nil_iff (finds : Finds system start found) :
    found.2 = [] ↔ Suits system start := by
  cases finds with
  | file stands named => exact iff_of_true rfl (.file stands named)
  | directory stands => exact iff_of_true rfl (.directory stands)
  | unsuited unsuited => exact iff_of_false (List.cons_ne_nil _ _) unsuited

/-! The search over several paths. -/

theorem search_cons_of_ok (looked : find system start = .ok found) (rest : List Path) :
    search system (start :: rest) =
      ((search system rest).1.map (found.1 ++ ·), found.2 ++ (search system rest).2) := by
  rw [search, looked]

theorem search_fails_iff : (∃ error, (search system paths).1 = .error error) ↔
    ∃ start ∈ paths, Ends system start := by
  induction paths with
  | nil => simp [search]
  | cons start rest ih =>
      rw [List.exists_mem_cons_iff, ← find_fails_iff, ← ih]
      cases looked : find system start with
      | error error => simp [search, looked]
      | ok found =>
          rw [search_cons_of_ok looked]
          cases (search system rest).1 <;> simp [Except.map]

theorem search_cons_eq_ok (searched : search system (start :: rest) = (.ok files, records)) :
    ∃ found others later, find system start = .ok found ∧
      search system rest = (.ok others, later) ∧ files = found.1 ++ others ∧
        records = found.2 ++ later := by
  cases looked : find system start with
  | error error => simp [search, looked] at searched
  | ok found =>
      rw [search_cons_of_ok looked] at searched
      obtain ⟨listed, rfl⟩ := Prod.mk.inj searched
      obtain ⟨others, same, rfl⟩ := map_eq_ok_iff.mp listed
      exact ⟨found, others, _, rfl, Prod.ext same rfl, rfl, rfl⟩

theorem mem_search_iff (searched : search system paths = (.ok files, records)) :
    path ∈ files ↔ hasExtension path = true ∧ (path ∈ paths ∧ system.isFile path = true ∨
      ∃ start ∈ paths, system.LiesBelow start path) := by
  induction paths generalizing files records with
  | nil =>
      cases searched
      simp
  | cons start rest ih =>
      obtain ⟨found, others, later, looked, onward, rfl, -⟩ := search_cons_eq_ok searched
      rw [List.mem_append, (finds_of_find looked).mem_iff, ih onward]
      simp only [List.mem_cons]
      grind

theorem warning_of_search {record : LogRecord} (logged : record ∈ (search system paths).2) :
    record.logger = findLoggerName ∧ record.level = LogLevel.warning := by
  induction paths with
  | nil => cases logged
  | cons start rest ih =>
      cases looked : find system start with
      | error error =>
          rw [search, looked] at logged
          cases logged
      | ok found =>
          rw [search_cons_of_ok looked] at logged
          exact (List.mem_append.mp logged).elim (finds_of_find looked).warning ih

theorem records_search_eq_nil_iff (searched : search system paths = (.ok files, records)) :
    records = [] ↔ ∀ path ∈ paths, Suits system path := by
  induction paths generalizing files records with
  | nil =>
      cases searched
      simp
  | cons start rest ih =>
      obtain ⟨found, others, later, looked, onward, -, rfl⟩ := search_cons_eq_ok searched
      rw [List.append_eq_nil_iff, (finds_of_find looked).records_eq_nil_iff, ih onward,
        List.forall_mem_cons]

theorem findAll_eq_ok_iff {result : List Path} :
    findAll system paths = (.ok result, records) ↔ ∃ files,
      search system paths = (.ok files, records) ∧
        Sorting.dropRepeats (Sorting.sort Path.le files) = result := by
  unfold findAll
  cases search system paths with
  | mk outcome logged => cases outcome <;> simp [Except.map, and_comm]

theorem findAll_fails_iff : (∃ error, (findAll system paths).1 = .error error) ↔
    ∃ start ∈ paths, Ends system start := by
  rw [← search_fails_iff]
  unfold findAll
  cases search system paths with
  | mk outcome logged => cases outcome <;> simp [Except.map]

theorem mem_findAll_iff (searched : findAll system paths = (.ok files, records)) :
    path ∈ files ↔ hasExtension path = true ∧
      (path ∈ paths ∧ system.isFile path = true ∨ ∃ start ∈ paths, system.LiesBelow start path) := by
  obtain ⟨listed, looked, rfl⟩ := findAll_eq_ok_iff.mp searched
  rw [Sorting.mem_dropRepeats, (Sorting.sort_perm _ _).mem_iff, mem_search_iff looked]

theorem warning_of_findAll {outcome : Except NameTooLong (List Path)} {record : LogRecord}
    (searched : findAll system paths = (outcome, records)) (logged : record ∈ records) :
    record.logger = findLoggerName ∧ record.level = LogLevel.warning := by
  obtain ⟨-, rfl⟩ := Prod.mk.inj searched
  exact warning_of_search logged

theorem warnings_eq_nil_iff (searched : findAll system paths = (.ok files, records)) :
    records = [] ↔ ∀ path ∈ paths, Suits system path := by
  obtain ⟨listed, looked, -⟩ := findAll_eq_ok_iff.mp searched
  exact records_search_eq_nil_iff looked

theorem proper_of_mem_findAll (sound : system.root.WellFormed)
    (proper : ∀ start ∈ paths, start.Proper)
    (searched : findAll system paths = (.ok files, records)) (inside : path ∈ files) :
    path.Proper := by
  obtain ⟨-, ⟨given, -⟩ | ⟨start, given, entry, names, below, stands, holds, rfl⟩⟩ :=
    (mem_findAll_iff searched).mp inside
  · exact proper path given
  · obtain ⟨place, -, there⟩ := Option.bind_eq_some_iff.mp stands
    have plain : ∀ name ∈ names, '/'.toNat ∉ name := fun name inside =>
      ((sound.get? there).isName_of_holds holds name inside).1
    exact ⟨(proper start given).rooted,
      List.forall_mem_append.mpr ⟨(proper start given).named, plain⟩⟩

theorem pairwise_findAll (sound : system.root.WellFormed)
    (proper : ∀ start ∈ paths, start.Proper)
    (searched : findAll system paths = (.ok files, records)) :
    files.Pairwise fun left right => Text.ListBefore left.sortKey right.sortKey := by
  have agrees : ∀ left right : Path, left.le right = true ↔
      ¬ Text.ListBefore right.sortKey left.sortKey := fun _ _ => Path.le_iff
  have members : ∀ path ∈ files, path.Proper :=
    fun path inside => proper_of_mem_findAll sound proper searched inside
  obtain ⟨listed, -, rfl⟩ := findAll_eq_ok_iff.mp searched
  refine Sorting.pairwise_dropRepeats (Sorting.pairwise_sort Path.sortKey agrees _) ?_
  exact fun left inLeft right inRight =>
    (members left (Sorting.mem_dropRepeats.mpr inLeft)).eq_of_sortKey
      (members right (Sorting.mem_dropRepeats.mpr inRight))

theorem not_ends_of_findAll (searched : (findAll system paths).1 = .ok files) :
    ¬ ∃ start ∈ paths, Ends system start := by
  rw [← findAll_fails_iff, searched]
  rintro ⟨error, failed⟩
  cases failed

/-- A search that does not end early finds what another one has found if the paths stand for the same
files: lists in strict order are equal if they have the same members. -/
theorem findAll_eq_of_same {others : List Path} (sound : system.root.WellFormed)
    (proper : ∀ start ∈ paths, start.Proper) (otherProper : ∀ start ∈ others, start.Proper)
    (searched : (findAll system paths).1 = .ok files)
    (lasts : ¬ ∃ start ∈ others, Ends system start)
    (same : ∀ path, path ∈ others ∧ system.isFile path = true ∨
        (∃ start ∈ others, system.LiesBelow start path) ↔
      path ∈ paths ∧ system.isFile path = true ∨ ∃ start ∈ paths, system.LiesBelow start path) :
    (findAll system others).1 = .ok files := by
  have searched : findAll system paths = (.ok files, (findAll system paths).2) :=
    Prod.ext searched rfl
  have irreflexive : Std.Irrefl fun left right : Path =>
      Text.ListBefore left.sortKey right.sortKey := ⟨fun path => irrefl path.sortKey⟩
  cases listed : (findAll system others).1 with
  | error error => exact absurd (findAll_fails_iff.mp ⟨error, listed⟩) lasts
  | ok more =>
      have again : findAll system others = (.ok more, (findAll system others).2) :=
        Prod.ext listed rfl
      have members : ∀ path, path ∈ more ↔ path ∈ files := fun path => by
        rw [mem_findAll_iff again, mem_findAll_iff searched, same path]
      exact congrArg _ ((pairwise_findAll sound otherProper again).eq_of_mem_iff
        (pairwise_findAll sound proper searched) members)

/-- Where a path below another one ends the search, though it can be looked up, the other one does,
too. -/
theorem Ends.of_below {inner : Path} (sound : system.root.WellFormed)
    (lies : system.LiesBelow start inner) (short : system.refuses inner = false)
    (ends : Ends system inner) : Ends system start := by
  obtain ⟨outer, names, below, stands, holds, rfl⟩ := lies
  cases ends with
  | refused long => simp [short] at long
  | deep there lower long =>
      rw [FileSystem.entry?_of_holds sound stands holds] at there
      cases there
      exact .deep stands (holds.trans lower) (by rwa [List.append_assoc] at long)

/-- In a file tree, a search ends without files just if one of the given paths cannot be looked up, or
if the path of a directory below one is too long. Otherwise the files found stand strictly in the order
of paths; they are the given files with the extension and all that lies below a given directory, at any
depth, with a name that ends in it. So nothing but the set of the given paths counts, and a path below
a given directory adds nothing as long as it can be looked up. -/
theorem findAll_of_texts {system : FileSystem} (sound : system.root.WellFormed)
    (texts : List Text) :
    let paths := texts.map Path.ofText
    ((∃ error, (findAll system paths).1 = .error error) ↔ ∃ start ∈ paths, Ends system start) ∧
    ∀ found, (findAll system paths).1 = .ok found →
      found.Pairwise (fun left right => Text.ListBefore left.sortKey right.sortKey) ∧
      (∀ path, path ∈ found ↔ fileExtension <:+ path.name ∧
        (path ∈ paths ∧ system.isFile path = true ∨
          ∃ start ∈ paths, system.LiesBelow start path)) ∧
      (∀ others : List Text, (∀ path, path ∈ others.map Path.ofText ↔ path ∈ paths) →
        (findAll system (others.map Path.ofText)).1 = .ok found) ∧
      ∀ text, (∃ start ∈ paths, system.LiesBelow start (.ofText text)) →
        system.refuses (.ofText text) = false →
          (findAll system ((text :: texts).map Path.ofText)).1 = .ok found := by
  intro paths
  have proper (texts : List Text) : ∀ start ∈ texts.map Path.ofText, start.Proper :=
    List.forall_mem_map.mpr fun text _ => Path.proper_ofText text
  refine ⟨findAll_fails_iff, fun found searched => ?_⟩
  have lasts := not_ends_of_findAll searched
  have own : ∀ start ∈ paths, start.Proper := proper texts
  have same (others : List Text) := findAll_eq_of_same sound own (proper others) searched
  refine ⟨pairwise_findAll sound own (Prod.ext searched rfl), fun path => ?_,
    fun others given => same others ?_ fun path => ?_,
    fun text ⟨start, given, lies⟩ short => same (text :: texts) ?_ fun path => ?_⟩
  · rw [← hasExtension_iff]
    exact mem_findAll_iff (Prod.ext searched rfl)
  · simpa only [given] using lasts
  · simp only [given]
  · rw [List.map_cons, List.exists_mem_cons_iff, not_or]
    exact ⟨fun ends => lasts ⟨start, given, ends.of_below sound lies short⟩, lasts⟩
  · have below : system.LiesBelow (.ofText text) path → system.LiesBelow start path :=
      fun inner => lies.trans sound inner
    simp only [List.map_cons, List.exists_mem_cons_iff]
    refine ⟨?_, Or.imp (And.imp_left (List.mem_cons_of_mem _)) .inr⟩
    rintro (⟨member, stands⟩ | inner | outer)
    · rcases List.mem_cons.mp member with rfl | inRest
      · exact .inr ⟨start, given, lies⟩
      · exact .inl ⟨inRest, stands⟩
    · exact .inr ⟨start, given, below inner⟩
    · exact .inr outer

/-- Two catalogs in directories one in the other, and a directory that is named like a catalog. -/
def nestedFiles : FileSystem where
  root := .directory [("services", .directory [("search.catalog.yaml", .file []), ("old", old)])]
  current := []
where
  old : FileEntry := .directory [("search.catalog.yaml", .file []),
    ("odd.catalog.yaml", .directory [("notes", .device)])]

theorem wellFormed_nestedFiles : nestedFiles.root.WellFormed := by
  have odd : (FileEntry.directory [("notes", .device)]).WellFormed :=
    .directory (by decide) (by decide) (List.forall_mem_singleton.mpr .device)
  have old : nestedFiles.old.WellFormed := .directory (by decide) (by decide)
    (List.forall_mem_cons.mpr ⟨.file, List.forall_mem_singleton.mpr odd⟩)
  have services : (FileEntry.directory
      [("search.catalog.yaml", .file []), ("old", nestedFiles.old)]).WellFormed :=
    .directory (by decide) (by decide)
      (List.forall_mem_cons.mpr ⟨.file, List.forall_mem_singleton.mpr old⟩)
  exact .directory (by decide) (by decide) (List.forall_mem_singleton.mpr services)

/-- A directory given twice, and one below it given too, changes nothing. -/
theorem nestedFiles_found :
    nestedFiles.root.WellFormed ∧
    nestedFiles.LiesBelow (.ofText "services") (.ofText "services/old") ∧
    nestedFiles.refuses (.ofText "services/old") = false ∧
    ∃ found, (findAll nestedFiles [.ofText "services"]).1 = .ok found ∧
      found.Pairwise (fun left right => Text.ListBefore left.sortKey right.sortKey) ∧
      Path.ofText "services/old/odd.catalog.yaml" ∈ found ∧
      (findAll nestedFiles [.ofText "services", .ofText "services"]).1 = .ok found ∧
      (findAll nestedFiles [.ofText "services/old", .ofText "services"]).1 = .ok found := by
  have below : nestedFiles.LiesBelow (.ofText "services") (.ofText "services/old") :=
    ⟨_, ["old"], nestedFiles.old, rfl, .child (by simp), by decide⟩
  have lower : nestedFiles.old.Holds ["odd.catalog.yaml"] (.directory [("notes", .device)]) :=
    .child (by simp)
  have odd : nestedFiles.LiesBelow (.ofText "services")
      (.ofText "services/old/odd.catalog.yaml") :=
    ⟨_, ["old", "odd.catalog.yaml"], _, rfl, .deeper (by simp) lower, by decide⟩
  have short : nestedFiles.refuses (.ofText "services/old") = false := by decide +kernel
  have returns : (findAll nestedFiles [.ofText "services"]).1.toOption.isSome = true := by
    decide +kernel
  obtain ⟨found, searched⟩ := Option.isSome_iff_exists.mp returns
  have searched := toOption_eq_some_iff.mp searched
  obtain ⟨-, returned⟩ := findAll_of_texts wellFormed_nestedFiles ["services"]
  obtain ⟨increasing, members, given, overlapping⟩ := returned found searched
  refine ⟨wellFormed_nestedFiles, below, short, found, searched, increasing,
    (members _).mpr ⟨by decide, .inr ⟨_, List.mem_singleton_self _, odd⟩⟩,
    given ["services", "services"] (by simp),
    overlapping "services/old" ⟨_, List.mem_singleton_self _, below⟩ short⟩

/-- A search does not always come to an end with files. -/
theorem findAll_fails : ¬ ∀ (system : FileSystem) (texts : List Text), system.root.WellFormed →
    ∃ found, (findAll system (texts.map Path.ofText)).1 = .ok found := by
  intro returns
  have long : nestedFiles.refuses (.ofText ReaderState.endlessName) = true := by decide +kernel
  obtain ⟨found, searched⟩ :=
    returns nestedFiles ["services", ReaderState.endlessName] wellFormed_nestedFiles
  have given : Path.ofText ReaderState.endlessName ∈
      (["services", ReaderState.endlessName] : List Text).map Path.ofText :=
    List.mem_cons_of_mem _ (List.mem_singleton_self _)
  obtain ⟨error, failed⟩ := findAll_fails_iff.mpr ⟨_, given, .refused long⟩
  rw [searched] at failed
  cases failed

end CatalogFile

end QueryOptions
