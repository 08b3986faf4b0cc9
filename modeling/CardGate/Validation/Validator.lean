import CardGate.Status
import CardGate.Validation.Field

/-!
# Validating requests

A validator knows for each endpoint what a request must look like from outside, its size, method
and headers, and which rules its fields have to satisfy.  Requests to an endpoint that is not
known pass, with their strings made harmless.

The rules of an endpoint are kept in the order of their field names, and that is the order in
which errors are told and checked fields are handed on.
-/

namespace CardGate.Validation

/-- What is checked at an endpoint. -/
structure EndpointConfig where
  /-- The greatest size of a body; zero for any. -/
  maxRequestSize : Nat
  /-- The methods that may be used; empty for any. -/
  allowedMethods : List String
  /-- The headers that must be there. -/
  requiredHeaders : List String
  /-- The rules, in the order of the names of their fields. -/
  rules : List (String × Rule)

/-- Sets the rule of a field among rules in order. -/
def insertRule (field : String) (rule : Rule) : List (String × Rule) → List (String × Rule)
  | [] => [(field, rule)]
  | (name, r) :: rest =>
    if field < name then (field, rule) :: (name, r) :: rest
    else if field = name then (field, rule) :: rest
    else (name, r) :: insertRule field rule rest

/-- Adds a rule. -/
def EndpointConfig.withRule (config : EndpointConfig) (field : String) (rule : Rule) :
    EndpointConfig :=
  { config with rules := insertRule field rule config.rules }

/-- Why a request is rejected before its body is read. -/
inductive EnvelopeError where
  | tooLarge
  | methodNotAllowed
  | missingHeader (name : String)
  deriving DecidableEq, Repr

namespace EnvelopeError

/-- The wording of a rejection. -/
def message : EnvelopeError → String
  | tooLarge => "Request too large"
  | methodNotAllowed => "Method not allowed"
  | missingHeader name => s!"Missing required header: {name}"

/-- How a rejection is classified. -/
def status : EnvelopeError → Status
  | tooLarge => .payloadTooLarge
  | methodNotAllowed => .methodNotAllowed
  | missingHeader _ => .badRequest

end EnvelopeError

/-- The result of validating a request. -/
structure Outcome where
  errors : List FieldError
  /-- The members to hand on. -/
  data : List (String × Json)

/-- Whether there are no errors. -/
def Outcome.valid (outcome : Outcome) : Bool :=
  outcome.errors.isEmpty

/-- The endpoints that are known. -/
structure Validator where
  configs : List (String × EndpointConfig)

namespace Validator

/-- A validator that knows no endpoint. -/
def empty : Validator :=
  ⟨[]⟩

/-- What is checked at an endpoint. -/
def config? (validator : Validator) (endpoint : String) : Option EndpointConfig :=
  (validator.configs.find? (·.1 = endpoint)).map (·.2)

/-- Sets what is checked at an endpoint. -/
def setConfig (validator : Validator) (endpoint : String) (config : EndpointConfig) : Validator :=
  ⟨(endpoint, config) :: validator.configs.filter (·.1 ≠ endpoint)⟩

/-- Checks size, method and headers, in this order. -/
def checkEnvelope (validator : Validator) (endpoint method : String) (contentLength : Option Nat)
    (headerNames : List String) : Except EnvelopeError Unit :=
  match validator.config? endpoint with
  | none => .ok ()
  | some config =>
    if 0 < config.maxRequestSize ∧ contentLength.any (config.maxRequestSize < ·) then
      .error .tooLarge
    else if !config.allowedMethods.isEmpty && !config.allowedMethods.contains method then
      .error .methodNotAllowed
    else
      match config.requiredHeaders.find? fun name => !headerNames.any (Text.sameName · name) with
      | some name => .error (.missingHeader name)
      | none => .ok ()

/-! ## Fields -/

/-- The value of a checked field as it is handed on: made harmless if the rule asks for it and
there is no error. -/
def checkedValue (field : String) (rule : Rule) (value : Json) : Json :=
  if rule.sanitize && (validateField field (some value) rule).isEmpty then cleaned field value
  else value

/-- The fields that have a rule and are there, as they are handed on. -/
def checkedFields (rules : List (String × Rule)) (data : List (String × Json)) :
    List (String × Json) :=
  rules.filterMap fun (field, rule) =>
    (Json.member? field data).map fun value => (field, checkedValue field rule value)

/-- The fields that have no rule, as they are handed on. -/
def otherFields (rules : List (String × Rule)) (data : List (String × Json)) :
    List (String × Json) :=
  (data.filter fun entry => !rules.any (·.1 = entry.1)).map fun (field, value) =>
    (field, cleaned field value)

/-- Validates the members of a request. -/
def validate (validator : Validator) (endpoint : String) (data : List (String × Json)) : Outcome :=
  match validator.config? endpoint with
  | none => ⟨[], data.map fun (field, value) => (field, cleaned field value)⟩
  | some config =>
    { errors := config.rules.flatMap fun (field, rule) =>
        validateField field (Json.member? field data) rule
      data := checkedFields config.rules data ++ otherFields config.rules data }

/-! ## The standard endpoints -/

/-- An endpoint that takes JSON by `POST`. -/
def jsonEndpoint (maxRequestSize : Nat) : EndpointConfig :=
  ⟨maxRequestSize, ["POST"], ["Content-Type"], []⟩

/-- The rule for names of users. -/
def usernameRule : Rule :=
  { Rule.mandatory with
    minLength := 3, maxLength := 50, pattern := some usernamePattern, sanitize := true }

/-- The rule for new passwords. -/
def passwordRule : Rule :=
  { Rule.mandatory with minLength := 12, maxLength := 100 }

/-- The rule for mail addresses. -/
def emailRule : Rule :=
  { Rule.mandatory with maxLength := 100, pattern := some emailPattern, sanitize := true }

/-- The rule for full names, which may be absent. -/
def fullNameRule : Rule :=
  { Rule.optional with maxLength := 100, sanitize := true }

/-- A validator that knows the endpoints of the management interface. -/
def standard : Validator :=
  empty
    |>.setConfig "/api/v1/auth/login"
      ((jsonEndpoint 1024).withRule "username" usernameRule |>.withRule "password" passwordRule)
    |>.setConfig "/api/v1/users"
      ((jsonEndpoint 2048).withRule "username" usernameRule |>.withRule "email" emailRule
        |>.withRule "password" passwordRule |>.withRule "full_name" fullNameRule)
    |>.setConfig "/api/v1/auth/change-password"
      ((jsonEndpoint 1024).withRule "current_password" Rule.mandatory
        |>.withRule "new_password" passwordRule)

end Validator

end CardGate.Validation
