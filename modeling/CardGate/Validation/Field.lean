import CardGate.Hygiene.Clean
import CardGate.Json.Printer
import CardGate.Text.Case
import CardGate.Validation.Rule

/-!
# Checking a field

A required field without a value has that one error.  Otherwise an empty value has none, and any
other value is checked against every criterion, so that all violations are told at once.  A value
that looks like an injection is not echoed in the first error; a value that is too long is
shortened.
-/

namespace CardGate.Validation

/-- A violation of a rule. -/
structure FieldError where
  field : String
  message : String
  value : Option String
  deriving DecidableEq, Repr

/-- The text of a value that the criteria look at. -/
def textOf : Json → String
  | .null => ""
  | .str s => s
  | value => value.print

/-- The text of a value that may be absent. -/
def textOf? (value : Option Json) : String :=
  (value.map textOf).getD ""

/-- The start of a value that is too long. -/
def shortened (text : String) : String :=
  String.ofList (text.toList.take 50) ++ "..."

/-- What stands for a value that must not be echoed. -/
def redacted : String := "[REDACTED]"

/-- The errors of a value with a text that is not empty. -/
def violations (field : String) (value : Option Json) (rule : Rule) (text : String) :
    List FieldError :=
  (if Hygiene.hasSql text.toList then
    [⟨field, "potentially dangerous content detected", some redacted⟩] else []) ++
  (if 0 < rule.minLength ∧ text.utf8ByteSize < rule.minLength then
    [⟨field, s!"minimum length is {rule.minLength} characters", some text⟩] else []) ++
  (if 0 < rule.maxLength ∧ rule.maxLength < text.utf8ByteSize then
    [⟨field, s!"maximum length is {rule.maxLength} characters", some (shortened text)⟩] else []) ++
  (if !rule.allowedChars.isEmpty && !text.toList.all (rule.allowedChars.toList.contains ·) then
    [⟨field, "field contains invalid characters", some text⟩] else []) ++
  (if rule.pattern.any fun p => !p.accepts text.toList then
    [⟨field, "field format is invalid", some text⟩] else []) ++
  match rule.custom, value with
  | some check, some value =>
    match check value with
    | some complaint => [⟨field, complaint, some text⟩]
    | none => []
  | _, _ => []

/-- The errors of a field.  An absent field has no value. -/
def validateField (field : String) (value : Option Json) (rule : Rule) : List FieldError :=
  let text := textOf? value
  if text.isEmpty then
    if rule.required then [⟨field, "field is required", none⟩] else []
  else violations field value rule text

/-- Whether a field holds a password, which is never altered. -/
def isPasswordField (field : String) : Bool :=
  Text.occursIn "password".toList (Text.lower field.toList)

/-- A value made harmless.  Only strings are altered, and no passwords. -/
def cleaned (field : String) : Json → Json
  | .str s => if isPasswordField field then .str s else .str (String.ofList (Hygiene.clean s.toList))
  | value => value

end CardGate.Validation
