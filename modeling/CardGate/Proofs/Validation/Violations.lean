import CardGate.Validation.Field
import Mathlib.Data.String.Basic

/-!
# What the errors of a field say and show

A field is told all of its violations at once.  `Fails` lists the criteria of a rule that a text can
fail, with what is said about each and what is shown of the text, and `exists_violations_eq` says
that these are the errors, no more and no fewer.

A dangerous text is a violation of its own, and the only one that does not show the text.  The
others do not know of the danger.  So a dangerous text is kept from view exactly if it meets every
other criterion (`values_of_dangerous`); `values_of_dangerous_echoed` is a text that does not.
-/

namespace CardGate.Validation

/-- The ways in which a text can fail a rule: what is said about it, and what is shown of it. -/
inductive Fails (rule : Rule) (value : Option Json) (text : String) : String → String → Prop
  | short (checked : 0 < rule.minLength) (under : text.utf8ByteSize < rule.minLength) :
      Fails rule value text s!"minimum length is {rule.minLength} characters" text
  | long (checked : 0 < rule.maxLength) (beyond : rule.maxLength < text.utf8ByteSize) :
      Fails rule value text s!"maximum length is {rule.maxLength} characters" (shortened text)
  | foreign {c : Char} (checked : rule.allowedChars ≠ "") (holds : c ∈ text.toList)
      (barred : c ∉ rule.allowedChars.toList) :
      Fails rule value text "field contains invalid characters" text
  | misshapen {shape : FieldPattern} (checked : rule.pattern = some shape)
      (differs : shape.accepts text.toList = false) :
      Fails rule value text "field format is invalid" text
  | rejected {check : Json → Option String} {given : Json} {complaint : String}
      (checked : rule.custom = some check) (present : value = some given)
      (complains : check given = some complaint) : Fails rule value text complaint text

/-- What is said about a text that looks like an injection. -/
def dangerous (field : String) : FieldError :=
  ⟨field, "potentially dangerous content detected", some redacted⟩

variable {field : String} {value : Option Json} {rule : Rule} {text : String} {e : FieldError}

/-! ## One criterion -/

theorem mem_ite_singleton {α : Type} {p : Prop} [Decidable p] {a b : α} :
    a ∈ (if p then [b] else []) ↔ p ∧ a = b := by
  split <;> simp_all

theorem bars_iff :
    (!rule.allowedChars.isEmpty && !text.toList.all (rule.allowedChars.toList.contains ·)) = true ↔
      rule.allowedChars ≠ "" ∧ ∃ c ∈ text.toList, c ∉ rule.allowedChars.toList := by
  simp

theorem differs_iff :
    rule.pattern.any (fun shape => !shape.accepts text.toList) = true ↔
      ∃ shape, rule.pattern = some shape ∧ shape.accepts text.toList = false := by
  cases rule.pattern <;> simp

theorem mem_complaints_iff :
    (e ∈ match rule.custom, value with
      | some check, some value =>
        match check value with
        | some complaint => [(⟨field, complaint, some text⟩ : FieldError)]
        | none => []
      | _, _ => []) ↔
      ∃ check given complaint, rule.custom = some check ∧ value = some given ∧
        check given = some complaint ∧ e = ⟨field, complaint, some text⟩ := by
  cases rule.custom with
  | none => simp
  | some check =>
    cases value with
    | none => simp
    | some given => cases hcheck : check given <;> simp [hcheck]

/-! ## All criteria -/

/-- The errors of a text: first that it is dangerous, if it is, and then the criteria it fails. -/
theorem exists_violations_eq (field : String) (value : Option Json) (rule : Rule) (text : String) :
    ∃ others,
      violations field value rule text =
        (if Hygiene.hasSql text.toList then [dangerous field] else []) ++ others ∧
      ∀ e : FieldError, e ∈ others ↔
        ∃ shown, Fails rule value text e.message shown ∧ e = ⟨field, e.message, some shown⟩ := by
  refine ⟨_, by unfold violations; simp only [List.append_assoc]; rfl, fun e => ?_⟩
  simp only [List.mem_append, mem_ite_singleton, bars_iff, differs_iff]
  constructor
  · intro h
    rcases h with ⟨⟨checked, under⟩, rfl⟩ | ⟨⟨checked, beyond⟩, rfl⟩ |
      ⟨⟨checked, c, holds, barred⟩, rfl⟩ | ⟨⟨shape, checked, differs⟩, rfl⟩ | hcomplaints
    · exact ⟨text, .short checked under, rfl⟩
    · exact ⟨shortened text, .long checked beyond, rfl⟩
    · exact ⟨text, .foreign checked holds barred, rfl⟩
    · exact ⟨text, .misshapen checked differs, rfl⟩
    · obtain ⟨check, given, complaint, checked, present, complains, rfl⟩ :=
        mem_complaints_iff.1 hcomplaints
      exact ⟨text, .rejected checked present complains, rfl⟩
  · intro h
    obtain ⟨shown, fails, he⟩ := h
    rw [he]
    generalize e.message = message at fails
    cases fails with
    | short checked under => exact Or.inl ⟨⟨checked, under⟩, rfl⟩
    | long checked beyond => exact Or.inr (Or.inl ⟨⟨checked, beyond⟩, rfl⟩)
    | foreign checked holds barred =>
      exact Or.inr (Or.inr (Or.inl ⟨⟨checked, _, holds, barred⟩, rfl⟩))
    | misshapen checked differs =>
      exact Or.inr (Or.inr (Or.inr (Or.inl ⟨⟨_, checked, differs⟩, rfl⟩)))
    | rejected checked present complains =>
      exact Or.inr (Or.inr (Or.inr (Or.inr
        (mem_complaints_iff.2 ⟨_, _, _, checked, present, complains, rfl⟩))))

theorem validateField_of_empty (h : textOf? value = "") :
    validateField field value rule =
      if rule.required then [⟨field, "field is required", none⟩] else [] := by
  simp [validateField, h]

theorem validateField_of_ne_empty (h : textOf? value ≠ "") :
    validateField field value rule = violations field value rule (textOf? value) := by
  simp [validateField, h]

/-- A value satisfies its rule if it is there when it has to be, and a text that is there is not
dangerous and fails no criterion. -/
theorem validateField_eq_nil_iff :
    validateField field value rule = [] ↔
      if textOf? value = "" then rule.required = false
      else Hygiene.hasSql (textOf? value).toList = false ∧
        ∀ message shown, ¬Fails rule value (textOf? value) message shown := by
  by_cases htext : textOf? value = ""
  · rw [validateField_of_empty htext, if_pos htext]
    simp
  · rw [validateField_of_ne_empty htext, if_neg htext]
    obtain ⟨others, hviolations, hothers⟩ :=
      exists_violations_eq field value rule (textOf? value)
    rw [hviolations, List.append_eq_nil_iff]
    apply and_congr
    · simp
    · rw [List.eq_nil_iff_forall_not_mem]
      constructor
      · intro hnone message shown fails
        exact hnone ⟨field, message, some shown⟩ ((hothers _).2 ⟨shown, fails, rfl⟩)
      · intro hnone e he
        obtain ⟨shown, fails, -⟩ := (hothers e).1 he
        exact hnone e.message shown fails

/-- Every error names the field that is checked. -/
theorem field_of_mem_validateField (h : e ∈ validateField field value rule) : e.field = field := by
  by_cases htext : textOf? value = ""
  · rw [validateField_of_empty htext, mem_ite_singleton] at h
    rw [h.2]
  · rw [validateField_of_ne_empty htext] at h
    obtain ⟨others, hviolations, hothers⟩ :=
      exists_violations_eq field value rule (textOf? value)
    rw [hviolations, List.mem_append, mem_ite_singleton, hothers] at h
    rcases h with ⟨-, rfl⟩ | ⟨shown, -, he⟩
    · rfl
    · rw [he]

/-! ## Dangerous texts -/

/-- A text is shown as it is, or shortened. -/
theorem Fails.shown_cases {message shown : String} (h : Fails rule value text message shown) :
    shown = text ∨ shown = shortened text := by
  cases h with
  | long checked beyond => exact Or.inr rfl
  | short checked under => exact Or.inl rfl
  | foreign checked holds barred => exact Or.inl rfl
  | misshapen checked differs => exact Or.inl rfl
  | rejected checked present complains => exact Or.inl rfl

theorem shortened_ne_redacted (text : String) : shortened text ≠ redacted := by
  intro heq
  have hlast := congrArg (fun s : String => s.toList.getLast?) heq
  simp [shortened, redacted] at hlast

/-- No dangerous text stands for one that must not be shown. -/
theorem ne_redacted_of_hasSql (h : Hygiene.hasSql text.toList = true) : text ≠ redacted := by
  intro heq
  have hnone : Hygiene.hasSql redacted.toList = false := by decide +kernel
  rw [heq, hnone] at h
  cases h

/-- Of a dangerous text the first error shows nothing, and every other shows the text or its
beginning.  So the text is kept from view if and only if it fails no other criterion. -/
theorem values_of_dangerous (h : Hygiene.hasSql (textOf? value).toList = true) :
    (∃ others, validateField field value rule = dangerous field :: others ∧
      ∀ e ∈ others, e.value = some (textOf? value) ∨ e.value = some (shortened (textOf? value))) ∧
    ((∀ e ∈ validateField field value rule, e.value = some redacted) ↔
      ∀ message shown, ¬Fails rule value (textOf? value) message shown) := by
  have htext : textOf? value ≠ "" := by
    intro hempty
    have hnone : Hygiene.hasSql "".toList = false := by decide +kernel
    rw [hempty, hnone] at h
    cases h
  obtain ⟨others, hviolations, hothers⟩ := exists_violations_eq field value rule (textOf? value)
  rw [if_pos h, List.singleton_append] at hviolations
  rw [validateField_of_ne_empty htext, hviolations]
  refine ⟨⟨others, rfl, fun e he => ?_⟩, ?_⟩
  · obtain ⟨shown, fails, heq⟩ := (hothers e).1 he
    rw [heq]
    exact fails.shown_cases.imp (congrArg some) (congrArg some)
  · constructor
    · intro hall message shown fails
      have hshown := hall _ (List.mem_cons_of_mem _
        ((hothers ⟨field, message, some shown⟩).2 ⟨shown, fails, rfl⟩))
      have heq : shown = redacted := Option.some.inj hshown
      rcases fails.shown_cases with hsame | hsame
      · exact ne_redacted_of_hasSql h (hsame ▸ heq)
      · exact shortened_ne_redacted _ (hsame ▸ heq)
    · intro hnone e he
      rcases List.mem_cons.1 he with rfl | he
      · rfl
      · obtain ⟨shown, fails, -⟩ := (hothers e).1 he
        exact absurd fails (hnone _ _)

/-- A rule for texts of forty bytes and more. -/
def sampleRule : Rule :=
  { Rule.mandatory with minLength := 40 }

def sampleDanger : Json :=
  .str "hunter2 union select from the secret words"

/-- A dangerous text that is long enough is not shown. -/
theorem values_of_dangerous_sample :
    Hygiene.hasSql (textOf? (some sampleDanger)).toList = true ∧
      ∀ e ∈ validateField "password" (some sampleDanger) sampleRule, e.value = some redacted := by
  have h : Hygiene.hasSql (textOf? (some sampleDanger)).toList = true := by decide +kernel
  refine ⟨h, (values_of_dangerous h).2.2 ?_⟩
  intro message shown fails
  cases fails with
  | short checked under => exact absurd under (by decide +kernel)
  | long checked beyond => cases checked
  | foreign checked holds barred => exact checked rfl
  | misshapen checked differs => cases checked
  | rejected checked present complains => cases checked

/-- A dangerous text that is too short is shown. -/
theorem values_of_dangerous_echoed :
    Hygiene.hasSql (textOf? (some (.str "1 OR 1=1"))).toList = true ∧
      validateField "q" (some (.str "1 OR 1=1")) sampleRule =
        [⟨"q", "potentially dangerous content detected", some "[REDACTED]"⟩,
          ⟨"q", "minimum length is 40 characters", some "1 OR 1=1"⟩] := by
  decide +kernel

end CardGate.Validation
