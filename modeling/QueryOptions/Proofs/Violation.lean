import QueryOptions.Proofs.Visit

namespace QueryOptions

/-! What the check of a request reports. A violation is a visited value together with the local
check that fails there; violations are compared by where the check stands in the depth-first order.
The check of a request fails if and only if there is a violation, and its error is the one of the
first violation of all. -/

/-- The local check that fails at a value. -/
inductive Breach where
  | shape (expectation : Expectation)
  /-- The entry with a number has a key that names no member. -/
  | unknown (entry : Nat) (name : Text)
  /-- The required member with a number is named by no key. -/
  | missing (member : Nat) (name : Text)

inductive Node.Breaks : Node → Value → Breach → Prop
  | scalar {heading leaf value} (refused : leaf.accepts value = false) :
      Breaks (.scalar heading leaf) value (.shape leaf.expectation)
  | list {heading member join value} (refused : value.isEnumerable = false) :
      Breaks (.list heading member join) value (.shape .enumerable)
  | mapping {heading members value} (refused : ∀ entries, value ≠ .map entries) :
      Breaks (.structure heading members) value (.shape .hash)
  | unknown {heading members entries index key value}
      (supplied : entries[index]? = some (key, value))
      (strange : ∀ member ∈ members, member.binding ≠ key.shown) :
      Breaks (.structure heading members) (.map entries) (.unknown index key.shown)
  | missing {heading members entries index} {member : Node}
      (declared : members[index]? = some member) (required : member.required = true)
      (absent : ∀ entry ∈ entries, entry.1.shown ≠ member.binding) :
      Breaks (.structure heading members) (.map entries) (.missing index member.binding)

/-- The shape is checked first, a strange key at its entry, absent members after all entries. -/
def Breach.site : Breach → Site
  | .shape _ => []
  | .unknown entry _ => [.item entry]
  | .missing member _ => [.absent member]

structure Violation where
  way : Way
  breach : Breach

namespace Violation

def site (violation : Violation) : Site := violation.way.site ++ violation.breach.site

def under (step : Step) (violation : Violation) : Violation :=
  { violation with way := step :: violation.way }

end Violation

/-- The violation is at the value or below it. -/
def Node.Violates (node : Node) (value : Value) (violation : Violation) : Prop :=
  ∃ inner found, node.Reaches value violation.way inner found ∧
    inner.Breaks found violation.breach

theorem Node.violates_iff {node : Node} {value : Value} {violation : Violation} :
    node.Violates value violation ↔
      (∃ breach, node.Breaks value breach ∧ violation = ⟨[], breach⟩) ∨
      ∃ child ∈ node.children value, ∃ lower, child.node.Violates child.value lower ∧
        violation = lower.under child.step := by
  obtain ⟨way, breach⟩ := violation
  constructor
  · intro violates
    obtain ⟨inner, found, reached, broken⟩ := violates
    cases reached with
    | here => exact .inl ⟨breach, broken, rfl⟩
    | @down _ _ rest _ _ child first lower =>
        exact .inr ⟨child, first, ⟨rest, breach⟩, ⟨inner, found, lower, broken⟩, rfl⟩
  · intro parts
    rcases parts with
      ⟨_, broken, same⟩ | ⟨child, first, lower, ⟨inner, found, reached, broken⟩, same⟩
    · cases same
      exact ⟨node, value, .here, broken⟩
    · cases same
      exact ⟨inner, found, .down first reached, broken⟩

/-! How violations are told. Contexts name the steps from the inside outwards. -/

namespace Step

def name : Step → Text
  | .element index _ => Text.ofNat (index + 1)
  | .entry _ key _ => key

def phrase : Step → Text
  | .element index join => "member " ++ name (.element index join)
  | .entry index key wire => "key " ++ name (.entry index key wire)

def within (outer : Text) (step : Step) : Text := step.phrase ++ " of " ++ outer

theorem within_ne_nil (outer : Text) (step : Step) : step.within outer ≠ [] := by
  cases step <;> simp [within, phrase, Text.ofString]

end Step

namespace Way

/-- The context of what a way leads to within an outer context. -/
def contextIn (outer : Text) (way : Way) : Text :=
  Text.join " of " ((way.map Step.phrase).reverse ++ [outer])

theorem contextIn_nil (outer : Text) : contextIn outer [] = outer := by
  simp [contextIn, Text.join]

private theorem join_append_pair (separator : Text) (pieces : List Text) (first second : Text) :
    Text.join separator (pieces ++ [first, second]) =
      Text.join separator (pieces ++ [first ++ separator ++ second]) := by
  induction pieces with
  | nil => simp [Text.join]
  | cons piece rest ih =>
      simp only [Text.join, List.cons_append] at ih ⊢
      rw [List.intercalate_cons_of_ne_nil (by simp), List.intercalate_cons_of_ne_nil (by simp), ih]

theorem contextIn_cons (outer : Text) (step : Step) (way : Way) :
    contextIn outer (step :: way) = contextIn (step.within outer) way := by
  simp only [contextIn, Step.within, List.map_cons, List.reverse_cons, List.append_assoc,
    List.cons_append, List.nil_append]
  rw [join_append_pair, List.append_assoc]

/-- The context of a value below the options of a request; the first step picks an option. -/
def context : Way → Text
  | [] => "options"
  | first :: rest => contextIn ("option " ++ first.name) rest

end Way

def Breach.error (context : Text) : Breach → OptionError
  | .shape expectation => .format expectation context
  | .unknown _ name => .unexpectedKey name context
  | .missing _ name => .missingKey name context

/-- Options that are unknown or missing have errors of their own. -/
def Violation.error : Violation → OptionError
  | ⟨[], .unknown _ name⟩ => .unexpectedOption (.text name)
  | ⟨[], .missing _ name⟩ => .missingOption name
  | ⟨way, breach⟩ => breach.error way.context

/-- Of some violations the one that comes before all others. -/
def IsFirst (violations : Violation → Prop) (first : Violation) : Prop :=
  violations first ∧ ∀ other, violations other → other = first ∨ first.site.Before other.site

theorem IsFirst.unique {violations : Violation → Prop} {left right : Violation}
    (leftFirst : IsFirst violations left) (rightFirst : IsFirst violations right) :
    left = right := by
  rcases leftFirst.2 right rightFirst.1 with same | before
  · exact same.symm
  · rcases rightFirst.2 left leftFirst.1 with same | after
    · exact same
    · exact absurd after (Std.Asymm.asymm _ _ before)

/-- A check passes if there are no violations, and otherwise fails with the error of the first. -/
inductive ReportsFirst (error : Violation → OptionError) (violations : Violation → Prop) :
    Except OptionError Unit → Prop
  | quiet (none : ∀ violation, ¬ violations violation) : ReportsFirst error violations (.ok ())
  | first (violation : Violation) (least : IsFirst violations violation) :
      ReportsFirst error violations (.error (error violation))

namespace ReportsFirst

variable {error : Violation → OptionError} {violations others : Violation → Prop}
  {check next : Except OptionError Unit}

theorem ok_iff (reports : ReportsFirst error violations check) :
    check = .ok () ↔ ∀ violation, ¬ violations violation := by
  cases reports with
  | quiet none => simp [none]
  | first violation least => simpa using ⟨violation, least.1⟩

theorem error_iff (reports : ReportsFirst error violations check) (reason : OptionError) :
    check = .error reason ↔ ∃ first, IsFirst violations first ∧ error first = reason := by
  cases reports with
  | quiet none => simpa using fun first least _ => none first least.1
  | first violation least =>
      constructor
      · intro same
        exact ⟨violation, least, Except.error.inj same⟩
      · intro told
        obtain ⟨first, isFirst, rfl⟩ := told
        rw [isFirst.unique least]

theorem congr (reports : ReportsFirst error violations check)
    (same : ∀ violation, others violation ↔ violations violation) :
    ReportsFirst error others check := by
  have equal : others = violations := funext fun violation => propext (same violation)
  exact equal ▸ reports

theorem single (violation : Violation) : ReportsFirst error (· = violation)
    (.error (error violation)) :=
  .first violation ⟨rfl, fun _ same => .inl same⟩

/-- Of two checks in sequence the second one matters only where the first finds nothing. -/
theorem andThen (reports : ReportsFirst error violations check)
    (nextReports : ReportsFirst error others next)
    (ordered : ∀ left right, violations left → others right → left.site.Before right.site) :
    ReportsFirst error (fun violation => violations violation ∨ others violation)
      (check >>= fun _ => next) := by
  cases reports with
  | quiet none => exact nextReports.congr fun violation => by simp [none violation]
  | first violation least =>
      refine .first violation ⟨.inl least.1, ?_⟩
      intro other found
      rcases found with inFirst | inNext
      · exact least.2 other inFirst
      · exact .inr (ordered violation other least.1 inNext)

theorem forM {ι : Type} {items : List ι} {check : ι → Except OptionError Unit}
    {violationsOf : ι → Violation → Prop}
    (each : ∀ item ∈ items, ReportsFirst error (violationsOf item) (check item))
    (ordered : items.Pairwise fun left right => ∀ before after,
      violationsOf left before → violationsOf right after → before.site.Before after.site) :
    ReportsFirst error (fun violation => ∃ item ∈ items, violationsOf item violation)
      (items.forM check) := by
  induction items with
  | nil => exact .quiet (by simp)
  | cons item rest ih =>
      obtain ⟨before, orderedRest⟩ := List.pairwise_cons.mp ordered
      have tail := ih (fun other member => each other (List.mem_cons_of_mem _ member)) orderedRest
      refine ((each item List.mem_cons_self).andThen tail ?_).congr (by simp)
      intro left right inItem inRest
      obtain ⟨other, member, inOther⟩ := inRest
      exact before other member left right inItem inOther

theorem under {inner : Violation → OptionError} (step : Step)
    (reports : ReportsFirst inner violations check)
    (same : ∀ violation, error (violation.under step) = inner violation) :
    ReportsFirst error (fun violation => ∃ lower, violations lower ∧ violation = lower.under step)
      check := by
  cases reports with
  | quiet none => exact .quiet fun _ ⟨lower, inside, _⟩ => none lower inside
  | first violation least =>
      rw [← same]
      refine .first _ ⟨⟨violation, least.1, rfl⟩, ?_⟩
      intro other found
      obtain ⟨lower, inside, rfl⟩ := found
      rcases least.2 lower inside with rfl | before
      · exact .inl rfl
      · exact .inr (.cons before)

end ReportsFirst

end QueryOptions
