import Mathlib.Data.List.Induction
import QueryOptions.Proofs.Places

namespace QueryOptions

/-! Pointers and their tokens. Escaping a token is two replacements, of the tilde and then of the
slash; in the other order they are undone. The pieces between the slashes of a pointer give its
tokens back, whatever the tokens hold, and so no pointer belongs to two paths. -/

namespace Text

/-- `skipped` characters of an occurrence that has been replaced are still to be passed over. -/
def replaceFrom (old new : Text) : Nat → Text → Text
  | _, [] => []
  | 0, point :: rest =>
      if old.isPrefixOf (point :: rest) then new ++ replaceFrom old new (old.length - 1) rest
      else point :: replaceFrom old new 0 rest
  | skipped + 1, _ :: rest => replaceFrom old new skipped rest

/-- Puts `new` for every occurrence of `old`, from the left on; the empty text is not looked for. -/
def replace (text old new : Text) : Text :=
  if old.isEmpty then text else replaceFrom old new 0 text

variable {point next : CodePoint}

theorem replace_one (text new : Text) (point : CodePoint) :
    text.replace [point] new =
      text.flatMap fun other => if other = point then new else [other] := by
  show replaceFrom [point] new 0 text = _
  induction text with
  | nil => rfl
  | cons other rest ih =>
      by_cases same : other = point
      · simp [replaceFrom, same, ih]
      · simp [replaceFrom, same, Ne.symm same, ih]

section Pair

variable (first second : CodePoint) (new rest : Text)

theorem replace_pair : Text.replace (first :: second :: rest) [first, second] new =
    new ++ rest.replace [first, second] new := by
  simp [replace, replaceFrom]

variable {first second}

theorem replace_other (other : ¬ (point = first ∧ rest.head? = some second)) :
    Text.replace (point :: rest) [first, second] new =
      point :: rest.replace [first, second] new := by
  have unlike : [first, second].isPrefixOf (point :: rest) = false := by
    cases rest with
    | nil => simp [List.isPrefixOf]
    | cons next rest =>
        simp only [List.head?_cons, Option.some.injEq, not_and] at other
        simp only [List.isPrefixOf, Bool.and_true, Bool.and_eq_false_iff, beq_eq_false_iff_ne]
        exact not_and_or.mp fun both => other both.1.symm both.2.symm
  simp [replace, replaceFrom, unlike]

/-- A character that is not put in at the beginning stood there before. -/
theorem head?_of_replace {text : Text} (different : point ≠ next)
    (begins : (text.replace [first, second] [next]).head? = some point) :
    text.head? = some point := by
  cases text with
  | nil => cases begins
  | cons other rest =>
      by_cases here : other = first ∧ rest.head? = some second
      · obtain ⟨rfl, found⟩ := here
        obtain ⟨after, rfl⟩ := List.head?_eq_some_iff.mp found
        rw [replace_pair] at begins
        exact absurd (Option.some.inj begins).symm different
      · rwa [replace_other _ _ here] at begins

end Pair

end Text

namespace Pointer

/-- Escaping replaces the tilde first, or it would meet the tildes that it puts for slashes. -/
theorem escape_eq_replace (token : Text) :
    escape token = (token.replace "~" "~0").replace "/" "~1" := by
  have tilde : Text.ofString "~" = ['~'.toNat] := by decide
  have slash : Text.ofString "/" = ['/'.toNat] := by decide
  rw [tilde, slash, Text.replace_one, Text.replace_one, List.flatMap_assoc, escape]
  refine congrArg (token.flatMap ·) (funext fun point => ?_)
  split
  · decide
  · simp

theorem unescape_eq_replace (piece : Text) :
    unescape piece = (piece.replace "~1" "/").replace "~0" "~" := by
  have one : Text.ofString "~1" = ['~'.toNat, '1'.toNat] := by decide
  have zero : Text.ofString "~0" = ['~'.toNat, '0'.toNat] := by decide
  have slash : Text.ofString "/" = ['/'.toNat] := by decide
  have tilde : Text.ofString "~" = ['~'.toNat] := by decide
  rw [one, zero, slash, tilde]
  fun_induction unescape piece with
  | case1 => rfl
  | case2 point =>
      rw [Text.replace_other, Text.replace_other]
      · rfl
      · exact fun both => nomatch both.2
      · exact fun both => nomatch both.2
  | case3 point next rest escaped ih =>
      simp only [Bool.and_eq_true, decide_eq_true_eq] at escaped
      obtain ⟨rfl, rfl⟩ := escaped
      have kept : Text.replace ('~'.toNat :: '0'.toNat :: rest) ['~'.toNat, '1'.toNat] ['/'.toNat] =
          '~'.toNat :: '0'.toNat :: Text.replace rest ['~'.toNat, '1'.toNat] ['/'.toNat] := by
        rw [Text.replace_other, Text.replace_other] <;> simp
      rw [kept, Text.replace_pair, ih]
      rfl
  | case4 point next rest other escaped ih =>
      simp only [Bool.and_eq_true, decide_eq_true_eq] at escaped
      obtain ⟨rfl, rfl⟩ := escaped
      rw [Text.replace_pair, List.singleton_append, Text.replace_other, ih]
      simp
  | case5 point next rest zero one ih =>
      simp only [Bool.and_eq_true, decide_eq_true_eq] at zero one
      -- the slash that a replacement may put next is no zero
      have apart : ¬ (point = '~'.toNat ∧
          (Text.replace (next :: rest) ['~'.toNat, '1'.toNat] ['/'.toNat]).head? =
            some '0'.toNat) := by
        rintro ⟨rfl, begins⟩
        have before := Text.head?_of_replace (by decide) begins
        exact zero ⟨rfl, Option.some.inj before⟩
      rw [Text.replace_other _ _ (by simpa using one), Text.replace_other _ _ apart, ih]

theorem split_ofTokens (tokens : List Text) :
    Text.split '/' (ofTokens tokens) = [] :: tokens.map escape := by
  induction tokens using List.reverseRecOn with
  | nil => rfl
  | append_singleton tokens token ih =>
      rw [ofTokens_concat, append_eq, Text.split_append_separator, ih,
        Text.split_of_notMem (slash_notMem_escape token), List.map_append, List.cons_append]
      rfl

theorem ofTokens_eq_flatMap (tokens : List Text) :
    ofTokens tokens = tokens.flatMap fun token => '/'.toNat :: escape token := by
  induction tokens using List.reverseRecOn with
  | nil => rfl
  | append_singleton tokens token ih =>
      rw [ofTokens_concat, append_eq, ih, List.flatMap_append, List.flatMap_singleton]

/-- A pointer is its tokens, each escaped after a slash; the pieces after its first slash give the
tokens back, and only the same tokens make the same pointer. -/
theorem ofTokens_readsBack (tokens others : List Text) :
    (ofTokens tokens = tokens.flatMap fun token =>
      '/'.toNat :: (token.replace "~" "~0").replace "/" "~1") ∧
    ((Text.split '/' (ofTokens tokens)).tail.map fun piece =>
      (piece.replace "~1" "/").replace "~0" "~") = tokens ∧
    (ofTokens tokens = ofTokens others ↔ tokens = others) := by
  refine ⟨?_, ?_, ofTokens_injective.eq_iff⟩
  · simp only [← escape_eq_replace]
    exact ofTokens_eq_flatMap tokens
  · simp only [← unescape_eq_replace]
    rw [split_ofTokens, List.tail_cons, List.map_map]
    exact (List.map_congr_left fun token _ => unescape_escape token).trans (List.map_id _)

example : ofTokens ["~1", "", "a/~0"] = "/~01//a~1~00" := by decide

end Pointer

end QueryOptions
