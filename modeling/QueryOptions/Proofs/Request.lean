import QueryOptions.Proofs.Emission
import QueryOptions.Proofs.Soundness

namespace QueryOptions

/-! Requests. Whatever passes the check can be encoded, so that a request fails for no other reason
than that its options do not pass the check. -/

theorem LeafType.encode?_of_accepts {leaf : LeafType} {value : Value}
    (accepted : leaf.accepts value = true) (codec : BlobCodec) :
    ∃ text, leaf.encode? codec value = some text := by
  cases leaf with
  | string => exact ⟨_, rfl⟩
  | integer => exact ⟨_, rfl⟩
  | timestamp => exact ⟨_, rfl⟩
  | boolean =>
      cases value <;> first | exact ⟨_, rfl⟩ | simp [accepts] at accepted
  | blob =>
      obtain ⟨bytes, held⟩ := Option.isSome_iff_exists.mp accepted
      exact ⟨codec bytes, by simp [encode?, held]⟩

namespace Node

variable {node : Node} {value : Value}

theorem Sound.encodes (sound : node.Sound value) (codec : BlobCodec) :
    node.Encodes codec value := by
  cases node with
  | scalar heading leaf =>
      refine LeafType.encode?_of_accepts ?_ codec
      by_contra refused
      exact sound ⟨[], _⟩ ⟨_, _, .here, .scalar (eq_false_of_ne_true refused)⟩
  | list heading member join =>
      obtain ⟨elements, shape, -⟩ := sound_list_iff.mp sound
      exact ⟨elements, shape⟩
  | «structure» heading members =>
      obtain ⟨entries, rfl⟩ := sound.mapping
      refine ⟨entries, rfl, fun entry supplied => ?_⟩
      obtain ⟨member, found, -⟩ := (sound_mapping_iff.mp sound).1 entry supplied
      exact ⟨member, found⟩

theorem Sound.encodable (sound : node.Sound value) : node.Encodable value :=
  fun codec _ _ _ reached => (sound.below reached).encodes codec

end Node

namespace Schema

theorem encodable_of_valid {schema : Schema} {options : Value}
    (valid : schema.validate options = .ok ()) : schema.root.Encodable options :=
  (validate_eq_ok_iff.mp valid).encodable

theorem exists_entries_of_encodable {schema : Schema} {options : Value}
    (encodable : schema.root.Encodable options) : ∃ entries, options = .map entries := by
  obtain ⟨entries, shape, -⟩ := encodable Base64.encode _ _ _ .here
  exact ⟨entries, shape⟩

theorem requestParams_of_valid {schema : Schema} {entries : List (Value × Value)}
    {codec : BlobCodec} {params : List Param} (valid : schema.validate (.map entries) = .ok ())
    (encoded : schema.params? codec entries = some params) :
    schema.requestParams codec (.map entries) = .ok params := by
  simp only [requestParams, valid, encoded]

theorem requestParams_of_invalid {schema : Schema} {options : Value} {error : OptionError}
    (invalid : schema.validate options = .error error) (codec : BlobCodec) :
    schema.requestParams codec options = .error (.invalid error) := by
  simp only [requestParams, invalid]

theorem exists_params_of_valid {schema : Schema} {options : Value}
    (valid : schema.validate options = .ok ()) (codec : BlobCodec) :
    ∃ entries params, options = .map entries ∧ schema.params? codec entries = some params := by
  have encodable := encodable_of_valid valid
  obtain ⟨entries, rfl⟩ := exists_entries_of_encodable encodable
  obtain ⟨_, -, written⟩ := schema.exists_emissions entries encodable
  obtain ⟨params, encoded, -⟩ := written codec
  exact ⟨entries, params, rfl, encoded⟩

/-- A request yields parameters if and only if its options pass the check, and fails with the very
error of the check otherwise. Behind a check that has passed the encoder finds every position such
that it can go on. -/
theorem requestParams_iff_validate (codec : BlobCodec) (schema : Schema) (options : Value) :
    ((∃ params, schema.requestParams codec options = .ok params) ↔
      schema.validate options = .ok ()) ∧
    (∀ reason, schema.requestParams codec options = .error reason ↔
      ∃ error, schema.validate options = .error error ∧ reason = .invalid error) ∧
    (schema.validate options = .ok () → schema.root.Encodable options ∧
      ∃ entries params, options = .map entries ∧ schema.params? codec entries = some params) := by
  cases checked : schema.validate options with
  | error error =>
      have failed := requestParams_of_invalid checked codec
      refine ⟨by simp [failed], fun reason => ?_, by simp⟩
      rw [failed]
      constructor
      · intro same
        exact ⟨error, rfl, (Except.error.inj same).symm⟩
      · intro told
        obtain ⟨_, same, rfl⟩ := told
        rw [Except.error.inj same]
  | ok =>
      obtain ⟨entries, params, rfl, encoded⟩ := exists_params_of_valid checked codec
      have sent := requestParams_of_valid checked encoded
      refine ⟨by simp [sent], fun reason => by simp [sent], fun _ => ?_⟩
      exact ⟨encodable_of_valid checked, entries, params, rfl, encoded⟩

end Schema

end QueryOptions
