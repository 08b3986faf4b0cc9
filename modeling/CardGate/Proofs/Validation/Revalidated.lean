import CardGate.Proofs.Hygiene.Remains
import CardGate.Proofs.Validation.HandedOn
import CardGate.Proofs.Validation.Violations

/-!
# Validating what was handed on

A request is checked as it came, and cleaned after that.  So what is handed on need not satisfy the
rules that the request satisfied: cleaning can make a text longer or shorter, empty it, and bring
characters into it that its rule does not allow (`errors_again_longer`).

Nothing else can go wrong, by `errors_again`.  If the handed on fields are validated once more, the
errors are those of the texts that cleaning altered, as it left them; fields that were not there,
passwords, other values than texts and fields whose rule does not ask for cleaning have none.  In
particular there is none if cleaning finds nothing to do.
-/

namespace CardGate.Validation

/-- The text of a value as it is handed on cleaned. -/
def cleanedText (text : String) : String :=
  String.ofList (Hygiene.clean text.toList)

/-- Whether a field has a text that its rule asks to clean, and that is another one when cleaned. -/
structure IsAltered (data : List (String × Json)) (name : String) (rule : Rule) (text : String) :
    Prop where
  present : Json.member? name data = some (.str text)
  asked : rule.sanitize = true
  notPassword : ¬IsPassword name
  altered : cleanedText text ≠ text

namespace Validator

variable {validator : Validator} {endpoint : String} {data : List (String × Json)} {name : String}
  {rule : Rule}

/-! ## One validation -/

/-- The errors of a request are those of its fields with rules. -/
theorem mem_errors_iff {e : FieldError} :
    e ∈ (validator.validate endpoint data).errors ↔
      ∃ rule, (e.field, rule) ∈ validator.rulesAt endpoint ∧
        e ∈ validateField e.field (Json.member? e.field data) rule := by
  rw [validate_eq, List.mem_flatMap]
  constructor
  · intro h
    obtain ⟨⟨name, rule⟩, hrule, he⟩ := h
    have hfield : e.field = name := field_of_mem_validateField he
    subst hfield
    exact ⟨rule, hrule, he⟩
  · intro h
    obtain ⟨rule, hrule, he⟩ := h
    exact ⟨(e.field, rule), hrule, he⟩

/-- A request is valid if its fields satisfy their rules. -/
theorem valid_iff :
    (validator.validate endpoint data).valid = true ↔
      ∀ name rule, (name, rule) ∈ validator.rulesAt endpoint →
        validateField name (Json.member? name data) rule = [] := by
  unfold Outcome.valid
  rw [validate_eq, List.isEmpty_iff, List.flatMap_eq_nil_iff]
  exact Prod.forall

/-- What is handed on for a field with a rule, whether it was there or not. -/
theorem member?_handedOn (built : validator.Built)
    (hrule : (name, rule) ∈ validator.rulesAt endpoint) (data : List (String × Json)) :
    Json.member? name (validator.validate endpoint data).data =
      (Json.member? name data).map (checkedValue name rule) := by
  have nodup := (built.ordered endpoint).nodup
  rw [validate_eq]
  show Json.member? name (checkedFields (validator.rulesAt endpoint) data ++
    otherFields (validator.rulesAt endpoint) data) = _
  cases hvalue : Json.member? name data with
  | some value => exact member?_of_rule nodup hrule hvalue
  | none =>
    have habsent : name ∉ data.map (·.1) := Json.member?_eq_none_iff.1 hvalue
    rw [Option.map_none, Json.member?_eq_none_iff, List.map_append, names_checkedFields,
      names_otherFields]
    simp [habsent]

/-- A field that satisfies its rule is handed on as it is, unless cleaning alters its text. -/
theorem handedOn_cases (hvalid : validateField name (Json.member? name data) rule = []) :
    (∃ text, IsAltered data name rule text ∧
        (Json.member? name data).map (checkedValue name rule) =
          some (.str (cleanedText text))) ∨
      (∀ text, ¬IsAltered data name rule text) ∧
        (Json.member? name data).map (checkedValue name rule) = Json.member? name data := by
  by_cases haltered : ∃ text, IsAltered data name rule text
  · obtain ⟨text, haltered⟩ := haltered
    refine Or.inl ⟨text, haltered, ?_⟩
    rw [haltered.present] at hvalid ⊢
    rw [Option.map_some, checkedValue_eq, if_pos ⟨haltered.asked, hvalid⟩,
      cleaned_str haltered.notPassword, cleanedText]
  · rw [not_exists] at haltered
    refine Or.inr ⟨haltered, ?_⟩
    cases hvalue : Json.member? name data with
    | none => rfl
    | some value =>
      rw [Option.map_some, checkedValue_eq]
      split
      · next hasked =>
        congr 1
        by_cases htext : ∃ text, value = .str text ∧ ¬IsPassword name
        · obtain ⟨text, rfl, hpassword⟩ := htext
          have hsame : cleanedText text = text := by
            by_contra hne
            exact haltered text ⟨hvalue, hasked.1, hpassword, hne⟩
          rw [cleaned_str hpassword, ← cleanedText, hsame]
        · apply cleaned_eq_self
          intro text heq
          by_contra hpassword
          exact htext ⟨text, heq, hpassword⟩
      · rfl

/-! ## The second validation -/

/-- The outcome of validating once more what was handed on. -/
def validateAgain (validator : Validator) (endpoint : String) (data : List (String × Json)) :
    Outcome :=
  validator.validate endpoint (validator.validate endpoint data).data

/-- A field with a valid value has errors in the second validation if cleaning altered its text. -/
theorem validateField_handedOn (built : validator.Built)
    (hrule : (name, rule) ∈ validator.rulesAt endpoint)
    (hvalid : validateField name (Json.member? name data) rule = []) {e : FieldError} :
    e ∈ validateField name (Json.member? name (validator.validate endpoint data).data) rule ↔
      ∃ text, IsAltered data name rule text ∧
        e ∈ validateField name (some (.str (cleanedText text))) rule := by
  rw [member?_handedOn built hrule]
  rcases handedOn_cases hvalid with ⟨text, haltered, hvalue⟩ | ⟨hnone, hvalue⟩
  · rw [hvalue]
    constructor
    · intro he
      exact ⟨text, haltered, he⟩
    · intro h
      obtain ⟨other, hother, he⟩ := h
      have hsame : other = text :=
        Json.str.inj (Option.some.inj (hother.present.symm.trans haltered.present))
      exact hsame ▸ he
  · rw [hvalue, hvalid]
    constructor
    · intro he
      exact absurd he List.not_mem_nil
    · intro h
      obtain ⟨text, haltered, -⟩ := h
      exact absurd haltered (hnone text)

/-- If a request is valid and what was handed on is validated once more, the errors are those of the
texts that cleaning altered, as it left them.  So it is valid again if and only if these satisfy
their rules, and certainly if cleaning finds nothing to do in the texts it is asked to clean. -/
theorem errors_again (built : validator.Built)
    (valid : (validator.validate endpoint data).valid = true) :
    (∀ e, e ∈ (validator.validateAgain endpoint data).errors ↔
      ∃ rule text, (e.field, rule) ∈ validator.rulesAt endpoint ∧
        IsAltered data e.field rule text ∧
        e ∈ validateField e.field (some (.str (cleanedText text))) rule) ∧
    ((validator.validateAgain endpoint data).valid = true ↔
      ∀ name rule text, (name, rule) ∈ validator.rulesAt endpoint →
        IsAltered data name rule text →
        validateField name (some (.str (cleanedText text))) rule = []) ∧
    ((∀ name rule text, (name, rule) ∈ validator.rulesAt endpoint → rule.sanitize = true →
        ¬IsPassword name → Json.member? name data = some (.str text) →
        Hygiene.isInert text.toList = true) →
      (validator.validateAgain endpoint data).valid = true) := by
  have hvalid := valid_iff.1 valid
  have hagain : (validator.validateAgain endpoint data).valid = true ↔
      ∀ name rule text, (name, rule) ∈ validator.rulesAt endpoint →
        IsAltered data name rule text →
        validateField name (some (.str (cleanedText text))) rule = [] := by
    refine valid_iff.trans (forall₂_congr fun name rule => ?_)
    rw [forall_comm]
    refine forall_congr' fun hrule => ?_
    simp only [List.eq_nil_iff_forall_not_mem,
      validateField_handedOn built hrule (hvalid name rule hrule), not_exists, not_and]
    exact forall_comm.trans (forall_congr' fun text => forall_comm)
  refine ⟨fun e => ?_, hagain, fun hinert => hagain.2 ?_⟩
  · refine mem_errors_iff.trans (exists_congr fun rule => ?_)
    constructor
    · intro h
      obtain ⟨hrule, he⟩ := h
      obtain ⟨text, haltered, he⟩ :=
        (validateField_handedOn built hrule (hvalid _ _ hrule)).1 he
      exact ⟨text, hrule, haltered, he⟩
    · intro h
      obtain ⟨text, hrule, haltered, he⟩ := h
      exact ⟨hrule, (validateField_handedOn built hrule (hvalid _ _ hrule)).2 ⟨text, haltered, he⟩⟩
  · intro name rule text hrule haltered
    have hclean := hinert name rule text hrule haltered.asked haltered.notPassword haltered.present
    refine absurd ?_ haltered.altered
    rw [cleanedText, Hygiene.clean_eq_self hclean, String.ofList_toList]

/-- A user whose names hold nothing to clean, and whose password does. -/
def plainUser : List (String × Json) :=
  [("username", .str "alice"), ("email", .str "alice@example.org"),
    ("password", .str "  correct <horse> battery "), ("full_name", .str "Alice Smith")]

/-- A user whose full name is written with ampersands. -/
def writtenUser : List (String × Json) :=
  [("username", .str "alice"), ("email", .str "alice@example.org"),
    ("password", .str "correct horse battery"), ("full_name", .str "&&&&&&&&&&&&&&&&&&&&&")]

theorem errors_again_sample :
    (standard.validate "/api/v1/users" plainUser).valid = true ∧
      (standard.validateAgain "/api/v1/users" plainUser).valid = true := by
  have valid : (standard.validate "/api/v1/users" plainUser).valid = true := by decide +kernel
  refine ⟨valid, (errors_again built_standard valid).2.2 ?_⟩
  intro name rule text _ _ hpassword hpresent
  have hmem := Json.mem_of_member? hpresent
  simp only [plainUser, List.mem_cons, List.not_mem_nil, or_false, Prod.mk.injEq,
    Json.str.injEq] at hmem
  rcases hmem with ⟨-, rfl⟩ | ⟨-, rfl⟩ | ⟨rfl, -⟩ | ⟨-, rfl⟩
  · decide +kernel
  · decide +kernel
  · exact absurd (Text.occursIn_iff.1 (by decide)) hpassword
  · decide +kernel

/-- Cleaning makes a name too long for its rule. -/
theorem errors_again_longer :
    (standard.validate "/api/v1/users" writtenUser).valid = true ∧
      (standard.validateAgain "/api/v1/users" writtenUser).valid = false ∧
      (standard.validateAgain "/api/v1/users" writtenUser).errors.map (·.message) =
        ["maximum length is 100 characters"] := by
  have valid : (standard.validate "/api/v1/users" writtenUser).valid = true := by decide +kernel
  have messages : (standard.validateAgain "/api/v1/users" writtenUser).errors.map (·.message) =
      ["maximum length is 100 characters"] := by decide +kernel
  refine ⟨valid, ?_, messages⟩
  unfold Outcome.valid
  rw [List.isEmpty_eq_false_iff]
  intro hnone
  rw [hnone] at messages
  cases messages

end Validator

end CardGate.Validation
