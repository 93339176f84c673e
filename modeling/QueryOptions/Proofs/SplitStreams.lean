import Mathlib.Logic.Function.Iterate
import QueryOptions.Logging

namespace QueryOptions

/-! A logger whose records are split between two streams. Every record that it takes is written once,
by one of its two handlers: the loggers below it have none, and nothing is passed on to those above
it. -/

namespace Logger

variable {below above : List Logger} {logger : Logger} {record : LogRecord}

theorem effectiveLevel_append (unset : ∀ logger ∈ below, logger.level = LogLevel.unset) :
    effectiveLevel (below ++ above) = effectiveLevel above := by
  induction below with
  | nil => rfl
  | cons first rest ih =>
      obtain ⟨here, later⟩ := List.forall_mem_cons.mp unset
      rw [List.cons_append, effectiveLevel, if_pos here, ih later]

/-- Loggers of which nothing has been said leave a record to those above them. -/
theorem reached_append (fresh : ∀ logger ∈ below, logger = untouched) :
    reached (below ++ above) = reached above := by
  induction below with
  | nil => rfl
  | cons first rest ih =>
      obtain ⟨rfl, later⟩ := List.forall_mem_cons.mp fresh
      exact ih later

/-- A logger that sends records below `errorLevel` to the standard stream and all others to the error
stream, and drops those below the least level that handlers write. -/
def splitting (level errorLevel : LogLevel) (propagates : Bool) : Logger :=
  { level := level
    propagates := propagates
    handlers :=
      [⟨some .standard, Loggers.leastLevel, some (max errorLevel Loggers.leastLevel - 1)⟩,
        ⟨some .error, max errorLevel Loggers.leastLevel, none⟩] }

/-- The stream for records of a level. -/
def streamAt (errorLevel level : LogLevel) : OutputStream :=
  if max errorLevel Loggers.leastLevel ≤ level then .error else .standard

/-- Of the two handlers just one writes a record, unless it is below the least level. -/
theorem filterMap_splitting (level errorLevel : LogLevel) (propagates : Bool) (record : LogRecord) :
    (splitting level errorLevel propagates).handlers.filterMap (·.write? record) =
      if record.level < Loggers.leastLevel then []
      else [⟨streamAt errorLevel record.level, record.line⟩] := by
  unfold splitting streamAt
  generalize bound : max errorLevel Loggers.leastLevel = start
  have least : Loggers.leastLevel ≤ start := bound ▸ Int.le_max_right _ _
  by_cases low : record.level < Loggers.leastLevel
  · have early : ¬ Loggers.leastLevel ≤ record.level := Int.not_le.mpr low
    have before : ¬ start ≤ record.level := fun late => early (Int.le_trans least late)
    simp [LogHandler.write?, low, early, before]
  · have enough : Loggers.leastLevel ≤ record.level := Int.not_lt.mp low
    by_cases late : start ≤ record.level
    · have above : ¬ record.level ≤ start - 1 := fun most =>
        Int.not_lt.mpr late (Int.lt_of_le_sub_one most)
      simp [LogHandler.write?, low, late, above]
    · have under : record.level ≤ start - 1 := Int.le_sub_one_of_lt (Int.not_le.mp late)
      simp [LogHandler.write?, low, enough, late, under]

end Logger

namespace Loggers

/-! Names below other names. -/

variable {target name rest : Text} {dot : Nat}

theorem dotsBackwards_append (place : Nat) (first rest : Text) :
    dotsBackwards place (first ++ rest) =
      dotsBackwards (place + first.length) rest ++ dotsBackwards place first := by
  induction first generalizing place with
  | nil => simp [dotsBackwards]
  | cons point first ih =>
      have next : place + 1 + first.length = place + (point :: first).length := by
        rw [List.length_cons]
        omega
      rw [List.cons_append, dotsBackwards, dotsBackwards, ih, next]
      split <;> simp

theorem le_of_mem_dotsBackwards {place : Nat} {text : Text}
    (inside : dot ∈ dotsBackwards place text) : place ≤ dot := by
  induction text generalizing place with
  | nil => simp [dotsBackwards] at inside
  | cons point rest ih =>
      have later (found : dot ∈ dotsBackwards (place + 1) rest) : place ≤ dot :=
        Nat.le_of_succ_le (ih found)
      rw [dotsBackwards] at inside
      split at inside
      · rcases List.mem_append.mp inside with found | here
        · exact later found
        · exact Nat.le_of_eq (List.mem_singleton.mp here).symm
      · exact later inside

theorem mem_endingDots (lower : List Nat) : ∀ higher : List Nat, (∀ later ∈ higher, dot + 1 < later) →
    dot ∈ endingDots (higher ++ dot :: lower)
  | [], _ => by
      cases lower <;> simp [endingDots]
  | [later], apart => by
      have apart : dot + 1 ≠ later := Nat.ne_of_lt (apart later (List.mem_singleton_self _))
      rw [List.singleton_append, endingDots, if_neg apart]
      exact List.mem_cons_of_mem _ (mem_endingDots lower [] nofun)
  | later :: before :: rest, apart => by
      obtain ⟨-, others⟩ := List.forall_mem_cons.mp apart
      rw [List.cons_append, List.cons_append, endingDots]
      refine List.mem_cons_of_mem _ ?_
      split
      · exact mem_endingDots lower rest (List.forall_mem_cons.mp others).2
      · exact mem_endingDots lower (before :: rest) others

/-- The logger of the name is the one of the target, or is below it. All loggers are below the root. -/
def Within (target name : Text) : Prop := isRoot target = true ∨ target ∈ namesUpwards name

/-- A name that goes on after a dot is below the name before the dot. -/
theorem within_append (single : rest.head? ≠ some '.'.toNat) :
    Within target (target ++ '.'.toNat :: rest) := by
  by_cases named : target = []
  · exact .inl (named ▸ rfl)
  · have dots : dotsBackwards 0 (target ++ '.'.toNat :: rest) =
        dotsBackwards (target.length + 1) rest ++ target.length :: dotsBackwards 0 target := by
      simp [dotsBackwards_append, dotsBackwards]
    have apart : ∀ later ∈ dotsBackwards (target.length + 1) rest, target.length + 1 < later := by
      cases rest with
      | nil => simp [dotsBackwards]
      | cons point rest =>
          have other : point ≠ '.'.toNat := fun same => single (congrArg some same)
          rw [dotsBackwards, if_neg other]
          exact fun later => le_of_mem_dotsBackwards
    have ends := mem_endingDots (dotsBackwards 0 target) _ apart
    rw [← dots] at ends
    refine .inr (List.mem_cons_of_mem _ (List.mem_filter.mpr ⟨?_, by simpa using named⟩))
    exact List.mem_map.mpr ⟨target.length, ends, by simp⟩

/-! The loggers after a call of `configure`. -/

variable {level errorLevel : LogLevel}

theorem get_put (loggers : Loggers) (name : Text) (logger : Logger) :
    (loggers.put name logger).get name = logger := by
  unfold put get
  split <;> simp_all [Entries.find?_put_self]

theorem put_put (loggers : Loggers) (name : Text) (logger old : Logger) :
    (loggers.put name old).put name logger = loggers.put name logger := by
  unfold put
  split <;> simp_all [Entries.put_put]

/-- A second call changes nothing. -/
theorem configure_configure (name : Option Text) (loggers : Loggers) :
    (loggers.configure name level errorLevel).configure name level errorLevel =
      loggers.configure name level errorLevel := by
  unfold configure
  simp only [get_put, put_put, Bool.and_self_left]

theorem getD_put_initial {other : Text} (different : target ≠ other) (logger : Logger) :
    (Entries.find? other (Entries.put target logger initial.named)).getD .untouched =
      .untouched := by
  rw [Entries.find?_put_of_ne _ _ different]
  rfl

theorem not_isRoot_of_mem (other : isRoot target = false) (above : target ∈ namesUpwards name) :
    isRoot name = false := by
  by_contra root
  rw [Bool.not_eq_false, isRoot, Bool.or_eq_true, List.isEmpty_iff, decide_eq_true_eq] at root
  have alone : namesUpwards name = [name] := by
    rcases root with rfl | rfl <;> decide
  rw [alone, List.mem_singleton] at above
  rcases root with rfl | rfl <;> (rw [above] at other; contradiction)

/-- After a call for a logger other than the root. -/
theorem upwards_put (other : isRoot target = false) (above : target ∈ namesUpwards name)
    (logger : Logger) : (initial.put target logger).upwards name =
      ((namesUpwards name).map fun name =>
        (Entries.find? name (Entries.put target logger initial.named)).getD .untouched) ++
          [initial.root] := by
  rw [upwards, not_isRoot_of_mem other above, put, other]
  rfl

/-- A record from below the target meets the target's logger after untouched ones. Only the root
passes records on, and nothing is above it. -/
theorem exists_upwards (within : Within target name) (logger : Logger) : ∃ below above,
    (initial.put target logger).upwards name = below ++ logger :: above ∧
      (∀ logger ∈ below, logger = .untouched) ∧ (isRoot target = true → above = []) := by
  by_cases root : isRoot target = true
  · unfold upwards put
    rw [if_pos root]
    split
    · exact ⟨[], [], rfl, nofun, fun _ => rfl⟩
    · refine ⟨_, [], rfl, fun logger inside => ?_, fun _ => rfl⟩
      obtain ⟨name, -, rfl⟩ := List.mem_map.mp inside
      rfl
  · have other : isRoot target = false := Bool.not_eq_true _ ▸ root
    have known := within.resolve_left root
    obtain ⟨before, after, parts, fresh⟩ := List.eq_append_cons_of_mem known
    rw [upwards_put other known, parts, List.map_append, List.map_cons, Entries.find?_put_self,
      Option.getD_some, List.append_assoc, List.cons_append]
    refine ⟨_, _, rfl, fun logger inside => ?_, fun same => absurd same root⟩
    obtain ⟨name, member, rfl⟩ := List.mem_map.mp inside
    have different : target ≠ name := fun same => fresh (same ▸ member)
    exact getD_put_initial different _

theorem effectiveLevel_put (within : Within target name) (logger : Logger) :
    (initial.put target logger).effectiveLevel name =
      if logger.level = LogLevel.unset ∧ isRoot target = false then LogLevel.warning
      else logger.level := by
  rw [effectiveLevel]
  split
  · rename_i both
    obtain ⟨unset, other⟩ := both
    have known := within.resolve_left (Bool.eq_false_iff.mp other)
    rw [upwards_put other known, Logger.effectiveLevel_append]
    · rfl
    · intro found inside
      obtain ⟨name, -, rfl⟩ := List.mem_map.mp inside
      by_cases same : target = name
      · rw [same, Entries.find?_put_self]
        exact unset
      · rw [getD_put_initial same]
        rfl
  · rename_i set
    obtain ⟨below, above, upwards, fresh, root⟩ := exists_upwards within logger
    rw [upwards, Logger.effectiveLevel_append fun logger inside => fresh logger inside ▸ rfl,
      Logger.effectiveLevel]
    split
    · rename_i unset
      have none := root (by simpa [unset] using set)
      rw [none, unset]
      rfl
    · rfl

variable {record : LogRecord}

/-- What the target's handlers make of a record is all that is written of it. -/
theorem emit_put (within : Within target record.logger) {logger : Logger}
    (handled : logger.handlers ≠ []) (kept : logger.propagates = true → isRoot target = true) :
    (initial.put target logger).emit record =
      if record.level ≤ 0 ∨ record.level < (initial.put target logger).effectiveLevel record.logger
      then [] else logger.handlers.filterMap (·.write? record) := by
  obtain ⟨below, above, upwards, fresh, root⟩ := exists_upwards within logger
  have met : Logger.reached ((initial.put target logger).upwards record.logger) =
      logger.handlers := by
    rw [upwards, Logger.reached_append fresh, Logger.reached]
    cases passed : logger.propagates with
    | false => simp
    | true => simp [root (kept passed), Logger.reached]
  obtain ⟨first, rest, handlers⟩ := List.exists_cons_of_ne_nil handled
  -- The last resort for records without handlers is not needed.
  simp only [emit, met, handlers, Bool.or_eq_true, decide_eq_true_eq]

theorem configure_eq_put (name : Option Text) (loggers : Loggers) :
    loggers.configure name level errorLevel = loggers.put (name.getD [])
      (.splitting level errorLevel ((name.getD []).isEmpty && (loggers.get (name.getD [])).propagates)) :=
  rfl

/-- After calls of `configure`, a record from the logger or from below it is written just once, on
the stream for its level, unless it is below the level of loggers or the least level of handlers. -/
theorem emit_configure (name : Option Text) (level errorLevel : LogLevel)
    (within : Within (name.getD []) record.logger) :
    (initial.configure name level errorLevel).emit record =
      if record.level < (initial.configure name level errorLevel).effectiveLevel record.logger ∨
        record.level < leastLevel then []
      else [⟨Logger.streamAt errorLevel record.level, record.line⟩] := by
  rw [configure_eq_put, emit_put within (List.cons_ne_nil _ _), Logger.filterMap_splitting]
  · have least : (0 : Int) < leastLevel := by decide
    grind
  · intro passed
    have unnamed : (name.getD []).isEmpty = true := (Bool.and_eq_true_iff.mp passed).1
    rw [isRoot, unnamed, Bool.true_or]

theorem configure_iterate (name : Option Text) (loggers : Loggers) (calls : Nat) :
    (configure name level errorLevel)^[calls + 1] loggers =
      loggers.configure name level errorLevel := by
  rw [Function.iterate_succ_apply]
  exact Function.iterate_fixed (configure_configure name loggers) calls

/-- However often `configure` is called, a record sent to its logger or to one below it is dropped or
written on just one stream, once. It is dropped if it is below the level that holds for its logger or
below the least level of handlers. The level is the one that the call set, or the one of the root
where the call set none. -/
theorem emit_of_calls (name : Option Text) (level errorLevel : LogLevel) (calls : Nat)
    (record : LogRecord) (within : Within (name.getD []) record.logger) :
    let loggers := (configure name level errorLevel)^[calls + 1] initial
    let effective := loggers.effectiveLevel record.logger
    effective = (if level = LogLevel.unset ∧ isRoot (name.getD []) = false then LogLevel.warning
      else level) ∧
    (record.level < effective ∨ record.level < LogLevel.debug → loggers.emit record = []) ∧
    (effective ≤ record.level → LogLevel.debug ≤ record.level →
      loggers.emit record =
        [⟨if max errorLevel LogLevel.debug ≤ record.level then .error else .standard,
          record.line⟩]) := by
  intro loggers effective
  have once : loggers = initial.configure name level errorLevel :=
    configure_iterate name initial calls
  have emitted : loggers.emit record =
      if record.level < effective ∨ record.level < leastLevel then []
      else [⟨Logger.streamAt errorLevel record.level, record.line⟩] := by
    rw [show effective = loggers.effectiveLevel record.logger from rfl, once]
    exact emit_configure name level errorLevel within
  refine ⟨?_, fun low => ?_, fun reached least => ?_⟩
  · rw [show effective = loggers.effectiveLevel record.logger from rfl, once, configure_eq_put]
    exact effectiveLevel_put within _
  · rw [emitted]
    exact if_pos low
  · rw [emitted]
    exact if_neg (not_or.mpr ⟨Int.not_lt.mpr reached, Int.not_lt.mpr least⟩)

/-- Two calls for the logger of the library, and an error from a logger below it. -/
theorem emit_of_calls_library :
    let record : LogRecord := ⟨libraryName ++ '.'.toNat :: ("linter" : Text), LogLevel.error, "lost"⟩
    ((configure libraryName LogLevel.unset LogLevel.warning)^[2] initial).emit record =
      [⟨.error, record.line⟩] := by
  intro record
  have within : Within libraryName record.logger := within_append (by decide)
  obtain ⟨level, -, written⟩ :=
    emit_of_calls libraryName LogLevel.unset LogLevel.warning 1 record within
  refine (written ?_ (by decide)).trans (by decide +kernel)
  rw [level]
  decide

end Loggers

end QueryOptions
