import Mathlib.Data.List.Induction
import QueryOptions.Proofs.Reading

namespace QueryOptions

/-! Runs in which files change while one reader loads them. What a load gives follows from the files
as they stand and from the first load of the same file since the cache was cleared. -/

namespace DocumentReader

variable {reader next : DocumentReader} {system : FileSystem} {file other : Path}
  {outcome : Except LoadError Reading}

theorem Reads.caching (reads : reader.Reads system file (outcome, next)) :
    next.caching = reader.caching := by
  cases reads <;> rfl

theorem Reads.reader_of_error {error : LoadError}
    (reads : reader.Reads system file (.error error, next)) : next = reader := by
  cases reads <;> rfl

theorem Reads.outcome_of_refuses (reads : reader.Reads system file (outcome, next))
    (long : system.refuses file = true) : outcome = .error (.nameTooLong file) := by
  cases reads with
  | refused => rfl
  | absent _ _ ended =>
      rw [FileSystem.document_of_refuses long] at ended
      exact congrArg Except.error (Except.error.inj ended).symm
  | kept short => simp [long] at short
  | failed short => simp [long] at short
  | read short => simp [long] at short

theorem Reads.expected_of_not_isFile (reads : reader.Reads system file (outcome, next))
    (short : system.refuses file = false) (none : system.isFile file = false) :
    ∃ error, outcome = .error error ∧ error.isExpected = true := by
  cases reads with
  | refused long => simp [short] at long
  | absent _ expected _ => exact ⟨_, rfl, expected⟩
  | _ => simp_all [FileSystem.isFile, FileEntry.isFile]

/-- What has been kept of a file is given back, as long as there is a file. -/
theorem Reads.outcome_of_kept (reads : reader.Reads system file (outcome, next)) {reading : Reading}
    (short : system.refuses file = false) (isFile : system.isFile file = true)
    (known : reader.kept? file = some reading) : outcome = .ok reading := by
  cases reads with
  | refused long => simp [short] at long
  | absent none => simp [isFile] at none
  | kept _ _ found =>
      rw [known] at found
      rw [Option.some.inj found]
  | failed _ _ unknown => simp [known] at unknown
  | read _ _ unknown => simp [known] at unknown

theorem Reads.outcome_of_unknown (reads : reader.Reads system file (outcome, next))
    (unknown : reader.kept? file = none) :
    (outcome.map fun reading => reading.document file) = system.document file :=
  reads.outcome_of_current fun _ _ _ known => absurd (unknown ▸ known) nofun

theorem Reads.holds_of_unknown {reading : Reading}
    (reads : reader.Reads system file (.ok reading, next)) (unknown : reader.kept? file = none) :
    ∃ bytes, system.entry? file = some (.file bytes) ∧
      contentDocument bytes file = .ok reading.content := by
  cases reads with
  | kept _ _ known => exact absurd (unknown ▸ known) nofun
  | read _ stands _ holds => exact ⟨_, stands, holds⟩

/-- After a reading the reader knows what it knew before; of the file itself it also knows the
reading if it keeps any. -/
theorem Reads.kept?_of_ne (reads : reader.Reads system file (outcome, next))
    (different : file ≠ other) : next.kept? other = reader.kept? other := by
  cases reads with
  | read =>
      unfold kept?
      dsimp only
      split
      · exact Entries.find?_put_of_ne _ _ different
      · rfl
  | _ => rfl

theorem Reads.kept?_self (reads : reader.Reads system file (outcome, next))
    (caching : reader.caching = true) :
    next.kept? file = (reader.kept? file).or outcome.toOption := by
  cases reads with
  | refused => simp [Except.toOption]
  | absent => simp [Except.toOption]
  | kept _ _ known => simp [known, Except.toOption]
  | failed _ _ unknown => simp [unknown, Except.toOption]
  | read _ _ unknown =>
      rw [unknown]
      simp [kept?, caching, Entries.find?_put_self, Except.toOption]

end DocumentReader

/-- A step of a run: the files change, the cache is cleared, or a file is loaded. -/
inductive ReaderStep where
  | write (path : Text) (content : Bytes)
  | makeDirectory (path : Text)
  | remove (path : Text)
  | clearCache
  | load (path : Text)
deriving DecidableEq

structure ReaderState where
  system : FileSystem
  reader : DocumentReader

namespace ReaderState

def fresh (caching : Bool) (system : FileSystem) : ReaderState := ⟨system, .fresh caching⟩

/-- What loading the file of a path comes to, however the path is spelled. -/
def load (state : ReaderState) (path : Text) : Except LoadError Reading × ReaderState :=
  let (outcome, reader) := state.reader.read state.system (.ofText path)
  (outcome, { state with reader := reader })

/-- The state after a step. A change of the files that is not possible changes nothing. -/
def step (state : ReaderState) : ReaderStep → ReaderState
  | .write path content =>
      { state with
        system := (state.system.write? (.ofText path) content).getD state.system }
  | .makeDirectory path =>
      { state with
        system := ((state.system.makeDirectory? (.ofText path)).map (·.1)).getD state.system }
  | .remove path =>
      { state with system := (state.system.remove? (.ofText path)).getD state.system }
  | .clearCache => { state with reader := state.reader.clearCache }
  | .load path => (state.load path).2

def after (state : ReaderState) (steps : List ReaderStep) : ReaderState := steps.foldl step state

variable {start state : ReaderState} {steps before : List ReaderStep} {step : ReaderStep}
  {file : Path} {path : Text} {reading : Reading}

theorem after_concat (start : ReaderState) (steps : List ReaderStep) (step : ReaderStep) :
    start.after (steps ++ [step]) = (start.after steps).step step := by
  rw [after, List.foldl_append]
  rfl

theorem reads_load (state : ReaderState) (path : Text) :
    state.reader.Reads state.system (.ofText path) ((state.load path).1, (state.load path).2.reader) :=
  state.reader.reads_read state.system (.ofText path)

theorem load_ne_clearCache (path : Text) : ReaderStep.load path ≠ .clearCache := nofun

/-- After the steps `before` of a run the file is loaded with success, and the cache is not cleared
any more. -/
def LoadedAfter (start : ReaderState) (before steps : List ReaderStep) (file : Path)
    (reading : Reading) : Prop :=
  ∃ path later, steps = before ++ .load path :: later ∧ .clearCache ∉ later ∧
    Path.ofText path = file ∧ ((start.after before).load path).1 = .ok reading

/-- Since the cache was cleared the file has been loaded with success. -/
def Loaded (start : ReaderState) (steps : List ReaderStep) (file : Path) (reading : Reading) : Prop :=
  ∃ before, start.LoadedAfter before steps file reading

/-- No load of the file before this one had success since the cache was cleared. -/
def FirstLoaded (start : ReaderState) (steps : List ReaderStep) (file : Path) (reading : Reading) :
    Prop :=
  ∃ before, start.LoadedAfter before steps file reading ∧ ∀ other, ¬ start.Loaded before file other

theorem loadedAfter_concat :
    start.LoadedAfter before (steps ++ [step]) file reading ↔
      step ≠ .clearCache ∧ start.LoadedAfter before steps file reading ∨
      before = steps ∧ ∃ path, step = .load path ∧ Path.ofText path = file ∧
        ((start.after steps).load path).1 = .ok reading := by
  constructor
  · rintro ⟨path, later, split, uncleared, spelled, loaded⟩
    rcases List.eq_nil_or_concat later with rfl | ⟨rest, last, rfl⟩
    · obtain ⟨rfl, same⟩ := List.append_inj' split rfl
      cases same
      exact .inr ⟨rfl, path, rfl, spelled, loaded⟩
    · rw [List.concat_eq_append, ← List.cons_append, ← List.append_assoc] at split
      obtain ⟨rfl, same⟩ := List.append_inj' split rfl
      cases same
      rw [List.concat_eq_append, List.mem_append, not_or, List.mem_singleton] at uncleared
      exact .inl ⟨Ne.symm uncleared.2, path, rest, rfl, uncleared.1, spelled, loaded⟩
  · rintro (⟨keeps, path, later, rfl, uncleared, spelled, loaded⟩ | ⟨rfl, path, rfl, spelled, loaded⟩)
    · refine ⟨path, later ++ [step], by simp, ?_, spelled, loaded⟩
      rw [List.mem_append, not_or, List.mem_singleton]
      exact ⟨uncleared, Ne.symm keeps⟩
    · exact ⟨path, [], rfl, List.not_mem_nil, spelled, loaded⟩

theorem loaded_concat :
    start.Loaded (steps ++ [step]) file reading ↔
      step ≠ .clearCache ∧ start.Loaded steps file reading ∨
      ∃ path, step = .load path ∧ Path.ofText path = file ∧
        ((start.after steps).load path).1 = .ok reading := by
  simp only [Loaded, loadedAfter_concat, exists_or, exists_and_left, exists_eq_left]

theorem firstLoaded_concat :
    start.FirstLoaded (steps ++ [step]) file reading ↔
      step ≠ .clearCache ∧ start.FirstLoaded steps file reading ∨
      (∀ other, ¬ start.Loaded steps file other) ∧
        ∃ path, step = .load path ∧ Path.ofText path = file ∧
          ((start.after steps).load path).1 = .ok reading := by
  simp only [FirstLoaded, loadedAfter_concat, or_and_right, exists_or, and_assoc, exists_and_left,
    exists_eq_left]
  exact or_congr_right and_comm

theorem exists_firstLoaded (loaded : start.Loaded steps file reading) :
    ∃ first, start.FirstLoaded steps file first := by
  induction steps using List.reverseRecOn generalizing reading with
  | nil =>
      obtain ⟨before, path, later, split, -⟩ := loaded
      simp at split
  | append_singleton steps step ih =>
      rcases loaded_concat.mp loaded with ⟨keeps, earlier⟩ | now
      · obtain ⟨first, isFirst⟩ := ih earlier
        exact ⟨first, firstLoaded_concat.mpr (.inl ⟨keeps, isFirst⟩)⟩
      · by_cases earlier : ∃ other, start.Loaded steps file other
        · obtain ⟨other, earlier⟩ := earlier
          obtain ⟨first, isFirst⟩ := ih earlier
          obtain ⟨path, rfl, -⟩ := now
          exact ⟨first, firstLoaded_concat.mpr (.inl ⟨load_ne_clearCache path, isFirst⟩)⟩
        · exact ⟨reading, firstLoaded_concat.mpr (.inr ⟨not_exists.mp earlier, now⟩)⟩

theorem caching_after (start : ReaderState) (steps : List ReaderStep) :
    (start.after steps).reader.caching = start.reader.caching := by
  induction steps using List.reverseRecOn with
  | nil => rfl
  | append_singleton steps step ih =>
      rw [after_concat, ← ih]
      cases step with
      | load path => exact (reads_load _ path).caching
      | _ => rfl

/-- If the first reading of a file is known, it stays the first; if there is none, a load that has
success makes one. -/
theorem firstLoaded_concat_load {known : Option Reading}
    (first : ∀ reading, known = some reading ↔ start.FirstLoaded steps (.ofText path) reading) :
    start.FirstLoaded (steps ++ [.load path]) (.ofText path) reading ↔
      known.or ((start.after steps).load path).1.toOption = some reading := by
  rw [firstLoaded_concat]
  cases known with
  | some earlier =>
      obtain ⟨before, loaded, -⟩ := (first earlier).mp rfl
      rw [Option.some_or, first]
      constructor
      · rintro (⟨-, isFirst⟩ | ⟨unloaded, -⟩)
        · exact isFirst
        · exact absurd ⟨before, loaded⟩ (unloaded earlier)
      · exact fun isFirst => .inl ⟨load_ne_clearCache path, isFirst⟩
  | none =>
      have unloaded : ∀ other, ¬ start.Loaded steps (.ofText path) other := by
        intro other loaded
        obtain ⟨earlier, isFirst⟩ := exists_firstLoaded loaded
        exact absurd ((first earlier).mpr isFirst) nofun
      rw [Option.none_or, toOption_eq_some_iff]
      constructor
      · rintro (⟨-, before, loaded, -⟩ | ⟨-, other, loads, -, loaded⟩)
        · exact absurd ⟨before, loaded⟩ (unloaded reading)
        · rwa [ReaderStep.load.inj loads]
      · exact fun loaded => .inr ⟨unloaded, path, rfl, rfl, loaded⟩

/-- A reader that keeps readings has kept of each file the first one since the cache was cleared. -/
theorem kept?_eq_some_iff (system : FileSystem) (steps : List ReaderStep) (file : Path)
    (reading : Reading) :
    ((fresh true system).after steps).reader.kept? file = some reading ↔
      (fresh true system).FirstLoaded steps file reading := by
  induction steps using List.reverseRecOn generalizing reading with
  | nil => simp [after, fresh, DocumentReader.fresh, DocumentReader.kept?, Entries.find?,
      FirstLoaded, LoadedAfter]
  | append_singleton steps step ih =>
      rw [after_concat]
      cases step with
      | load path =>
          have reads := reads_load ((fresh true system).after steps) path
          by_cases same : Path.ofText path = file
          · subst same
            rw [ReaderState.step, reads.kept?_self (caching_after _ _)]
            exact (firstLoaded_concat_load ih).symm
          · rw [ReaderState.step, reads.kept?_of_ne same, ih, firstLoaded_concat]
            simp [same]
      | clearCache => simp [ReaderState.step, DocumentReader.clearCache, DocumentReader.kept?,
          Entries.find?, firstLoaded_concat]
      | _ => simp [ReaderState.step, ih, firstLoaded_concat]

/-- Neither the cache is cleared nor the file loaded. -/
def PassesOver (file : Path) (step : ReaderStep) : Prop :=
  step ≠ .clearCache ∧ ∀ path, step = .load path → Path.ofText path ≠ file

theorem passesOver_load (different : Path.ofText path ≠ file) : PassesOver file (.load path) := by
  refine ⟨load_ne_clearCache path, fun other same => ?_⟩
  rwa [← ReaderStep.load.inj same]

/-- From a load of a file to the next one the file does not change, unless the cache is cleared. -/
def Steady (start : ReaderState) (steps : List ReaderStep) : Prop :=
  ∀ before path middle again later,
    steps = before ++ .load path :: (middle ++ .load again :: later) →
    Path.ofText again = Path.ofText path → (∀ step ∈ middle, PassesOver (.ofText path) step) →
    (start.after (before ++ .load path :: middle)).system.entry? (.ofText path) =
      (start.after before).system.entry? (.ofText path)

theorem Steady.of_append {later : List ReaderStep} (steady : start.Steady (steps ++ later)) :
    start.Steady steps := by
  intro before path middle again rest split
  refine steady before path middle again (rest ++ later) ?_
  rw [split]
  simp

/-- The last load of a file in a run found the content that a reading holds. -/
def LastLoaded (start : ReaderState) (steps : List ReaderStep) (file : Path) (reading : Reading) :
    Prop :=
  ∃ before path middle bytes, steps = before ++ .load path :: middle ∧ Path.ofText path = file ∧
    (∀ step ∈ middle, PassesOver file step) ∧
    (start.after before).system.entry? file = some (.file bytes) ∧
    DocumentReader.contentDocument bytes file = .ok reading.content

theorem LastLoaded.concat (last : start.LastLoaded steps file reading)
    (passes : PassesOver file step) : start.LastLoaded (steps ++ [step]) file reading := by
  obtain ⟨before, path, middle, bytes, rfl, spelled, passed, stood, holds⟩ := last
  refine ⟨before, path, middle ++ [step], bytes, by simp, spelled, ?_, stood, holds⟩
  exact List.forall_mem_append.mpr ⟨passed, List.forall_mem_singleton.mpr passes⟩

theorem LastLoaded.stands (last : start.LastLoaded steps (.ofText path) reading)
    (steady : start.Steady (steps ++ [.load path])) :
    ∃ bytes, (start.after steps).system.entry? (.ofText path) = some (.file bytes) ∧
      DocumentReader.contentDocument bytes (.ofText path) = .ok reading.content := by
  obtain ⟨before, earlier, middle, bytes, rfl, spelled, passed, stood, holds⟩ := last
  rw [← spelled] at passed stood holds ⊢
  refine ⟨bytes, ?_, holds⟩
  rw [steady before earlier middle path [] (by simp) spelled.symm passed, stood]

theorem lastLoaded_concat_load (steady : start.Steady (steps ++ [.load path]))
    (earlier : (start.after steps).reader.kept? (.ofText path) = some reading →
      start.LastLoaded steps (.ofText path) reading)
    (known : ((start.after steps).reader.kept? (.ofText path)).or
      ((start.after steps).load path).1.toOption = some reading) :
    start.LastLoaded (steps ++ [.load path]) (.ofText path) reading := by
  have found : ∃ bytes, (start.after steps).system.entry? (.ofText path) = some (.file bytes) ∧
      DocumentReader.contentDocument bytes (.ofText path) = .ok reading.content := by
    have reads := reads_load (start.after steps) path
    cases kept : (start.after steps).reader.kept? (.ofText path) with
    | some first =>
        rw [kept, Option.some_or] at known
        exact (earlier (kept.trans known)).stands steady
    | none =>
        rw [kept, Option.none_or, toOption_eq_some_iff] at known
        rw [known] at reads
        exact reads.holds_of_unknown kept
  obtain ⟨bytes, stands, holds⟩ := found
  exact ⟨steps, path, [], bytes, rfl, rfl, List.forall_mem_nil _, stands, holds⟩

/-- In a steady run what has been kept of a file is what its last load found. -/
theorem lastLoaded_of_kept {system : FileSystem} (steady : (fresh true system).Steady steps)
    (known : ((fresh true system).after steps).reader.kept? file = some reading) :
    (fresh true system).LastLoaded steps file reading := by
  induction steps using List.reverseRecOn with
  | nil => simp [after, fresh, DocumentReader.fresh, DocumentReader.kept?, Entries.find?] at known
  | append_singleton steps step ih =>
      rw [after_concat] at known
      have ih := ih steady.of_append
      cases step with
      | load path =>
          have reads := reads_load ((fresh true system).after steps) path
          by_cases same : Path.ofText path = file
          · subst same
            rw [ReaderState.step, reads.kept?_self (caching_after _ _)] at known
            exact lastLoaded_concat_load steady ih known
          · rw [ReaderState.step, reads.kept?_of_ne same] at known
            exact (ih known).concat (passesOver_load same)
      | clearCache =>
          simp [ReaderState.step, DocumentReader.clearCache, DocumentReader.kept?,
            Entries.find?] at known
      | _ => exact (ih known).concat (by simp [PassesOver])

theorem system_after_congr (left right : ReaderState) (same : left.system = right.system)
    (steps : List ReaderStep) : (left.after steps).system = (right.after steps).system := by
  induction steps generalizing left right with
  | nil => exact same
  | cons step rest ih =>
      refine ih _ _ ?_
      cases step <;> simp [ReaderState.step, load, same]

theorem kept?_uncached (system : FileSystem) (steps : List ReaderStep) (file : Path) :
    ((fresh false system).after steps).reader.kept? file = none := by
  have uncached := caching_after (fresh false system) steps
  rw [DocumentReader.kept?, uncached]
  rfl

theorem load_uncached (system : FileSystem) (steps : List ReaderStep) (path : Text) :
    ((((fresh false system).after steps).load path).1.map fun reading =>
        reading.document (.ofText path)) =
      ((fresh false system).after steps).system.document (.ofText path) :=
  (reads_load _ path).outcome_of_unknown (kept?_uncached system steps _)

theorem load_of_steady {system : FileSystem}
    (steady : (fresh true system).Steady (steps ++ [.load path])) :
    ((((fresh true system).after steps).load path).1.map fun reading =>
        reading.document (.ofText path)) =
      ((fresh true system).after steps).system.document (.ofText path) := by
  refine (reads_load _ path).outcome_of_current fun bytes reading stands known => ?_
  obtain ⟨found, stood, holds⟩ := (lastLoaded_of_kept steady.of_append known).stands steady
  rw [stands] at stood
  cases stood
  exact holds

theorem load_of_failed {error : LoadError} (failed : (state.load path).1 = .error error) :
    (state.load path).2 = state := by
  have reads := reads_load state path
  rw [failed] at reads
  have unchanged : (state.load path).2.reader = state.reader := reads.reader_of_error
  show ReaderState.mk state.system (state.load path).2.reader = state
  rw [unchanged]

theorem kept?_of_unloaded {caching : Bool} {system : FileSystem}
    (unloaded : caching = false ∨ ∀ reading, ¬ (fresh caching system).Loaded steps file reading) :
    ((fresh caching system).after steps).reader.kept? file = none := by
  cases caching with
  | false => exact kept?_uncached system steps file
  | true =>
      have unloaded := unloaded.resolve_left nofun
      by_contra known
      obtain ⟨first, known⟩ := Option.ne_none_iff_exists'.mp known
      obtain ⟨before, loaded, -⟩ := (kept?_eq_some_iff system steps file first).mp known
      exact unloaded first ⟨before, loaded⟩

theorem load_of_loaded {system : FileSystem}
    (short : ((fresh true system).after steps).system.refuses (.ofText path) = false)
    (isFile : ((fresh true system).after steps).system.isFile (.ofText path) = true)
    (loaded : (fresh true system).Loaded steps (.ofText path) reading) :
    ∃ first, (fresh true system).FirstLoaded steps (.ofText path) first ∧
      (((fresh true system).after steps).load path).1 = .ok first := by
  obtain ⟨first, isFirst⟩ := exists_firstLoaded loaded
  have known := (kept?_eq_some_iff system steps (.ofText path) first).mpr isFirst
  exact ⟨first, isFirst, (reads_load _ path).outcome_of_kept short isFile known⟩

theorem load_eq_uncached {caching : Bool} {system : FileSystem}
    (steady : (fresh caching system).Steady (steps ++ [.load path])) :
    ((((fresh caching system).after steps).load path).1.map fun reading =>
        reading.document (.ofText path)) =
      (((fresh false system).after steps).load path).1.map fun reading =>
        reading.document (.ofText path) := by
  cases caching with
  | false => rfl
  | true =>
      have files : ((fresh true system).after steps).system =
          ((fresh false system).after steps).system :=
        system_after_congr (fresh true system) (fresh false system) rfl steps
      exact (load_of_steady steady).trans (files ▸ (load_uncached system steps path).symm)

/-- Loading a file after a run. A path that is refused fails with an error that is not expected; where
it can be looked up and no file stands, loading fails as expected. A reader that keeps nothing, or has
not loaded the file with success since its cache was cleared, gives what the file holds now; else it
gives the first such reading. A load that fails changes nothing. In a steady run each load gives the
document that it gives without a cache. -/
theorem load_of_run (caching : Bool) (system : FileSystem) (steps : List ReaderStep) (path : Text) :
    let start := fresh caching system
    let state := start.after steps
    let file := Path.ofText path
    let outcome := (state.load path).1
    (state.system.refuses file = true → outcome = .error (.nameTooLong file)) ∧
    (state.system.refuses file = false → state.system.isFile file = false →
      ∃ error, outcome = .error error ∧ error.isExpected = true) ∧
    ((caching = false ∨ ∀ reading, ¬ start.Loaded steps file reading) →
      (outcome.map fun reading => reading.document file) = state.system.document file) ∧
    (caching = true → state.system.refuses file = false → state.system.isFile file = true →
      (∃ reading, start.Loaded steps file reading) →
      ∃ first, start.FirstLoaded steps file first ∧ outcome = .ok first) ∧
    (∀ error, outcome = .error error → (state.load path).2 = state) ∧
    ∀ later, start.Steady (steps ++ .load path :: later) →
      (outcome.map fun reading => reading.document file) =
        (((fresh false system).after steps).load path).1.map fun reading =>
          reading.document file := by
  intro start state file outcome
  have reads := reads_load state path
  refine ⟨reads.outcome_of_refuses, reads.expected_of_not_isFile,
    fun unloaded => reads.outcome_of_unknown (kept?_of_unloaded unloaded),
    fun on short isFile loaded => ?_, fun error => load_of_failed, fun later steady => ?_⟩
  · subst on
    obtain ⟨reading, loaded⟩ := loaded
    exact load_of_loaded short isFile loaded
  · have split : steps ++ .load path :: later = (steps ++ [.load path]) ++ later := by simp
    rw [split] at steady
    exact load_eq_uncached steady.of_append

def rewriting : List ReaderStep :=
  [.write "notes/a.yaml" [0x31], .load "notes//a.yaml", .write "notes/a.yaml" [0x32]]

/-- Loaded once more, in another spelling, the file still gives its first content. -/
theorem rewriting_gives_first :
    let start := fresh true ⟨.directory [], []⟩
    let state := start.after rewriting
    state.system.isFile (.ofText "./notes/a.yaml") = true ∧
    ∃ first, start.FirstLoaded rewriting (.ofText "./notes/a.yaml") first ∧
      (state.load "./notes/a.yaml").1 = .ok first := by
  intro start state
  have short : state.system.refuses (.ofText "./notes/a.yaml") = false := by decide +kernel
  have isFile : state.system.isFile (.ofText "./notes/a.yaml") = true := by decide +kernel
  have success : ((start.after [.write "notes/a.yaml" [0x31]]).load
      "notes//a.yaml").1.toOption.isSome = true := by decide +kernel
  obtain ⟨reading, read⟩ := Option.isSome_iff_exists.mp success
  have loaded : start.Loaded rewriting (.ofText "./notes/a.yaml") reading :=
    ⟨[.write "notes/a.yaml" [0x31]], "notes//a.yaml", [.write "notes/a.yaml" [0x32]], rfl, by decide,
      by decide +kernel, toOption_eq_some_iff.mp read⟩
  have loads := load_of_run true ⟨.directory [], []⟩ rewriting "./notes/a.yaml"
  exact ⟨isFile, loads.2.2.2.1 rfl short isFile ⟨reading, loaded⟩⟩

/-- A name longer than a directory can hold. -/
def endlessName : Text := List.replicate 300 'a'.toNat

/-- A file that is not there is not always reported as expected. -/
theorem load_unexpected : ¬ ∀ (caching : Bool) (system : FileSystem) (steps : List ReaderStep)
    (path : Text), ((fresh caching system).after steps).system.isFile (.ofText path) = false →
      ∃ error, (((fresh caching system).after steps).load path).1 = .error error ∧
        error.isExpected = true := by
  intro always
  have absent : FileSystem.isFile ⟨.directory [], []⟩ (.ofText endlessName) = false := by
    decide +kernel
  have long : FileSystem.refuses ⟨.directory [], []⟩ (.ofText endlessName) = true := by
    decide +kernel
  obtain ⟨error, failed, expected⟩ := always true ⟨.directory [], []⟩ [] endlessName absent
  have refused := (reads_load (fresh true ⟨.directory [], []⟩) endlessName).outcome_of_refuses long
  have same : LoadError.nameTooLong (.ofText endlessName) = error :=
    Except.error.inj (refused.symm.trans failed)
  rw [← same] at expected
  exact Bool.false_ne_true expected

end ReaderState

end QueryOptions
