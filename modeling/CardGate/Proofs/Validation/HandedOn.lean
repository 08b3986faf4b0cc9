import CardGate.Proofs.Json.Written
import CardGate.Text.Utf8.Lemmas
import CardGate.Validation.Validator
import Mathlib.Data.String.Basic

/-!
# What a validated request hands on

Validating a request hands on its fields and tells what is wrong with them.  `HandedOn` says how the
fields that are handed on compare with those that came: which names there are and in what order, which
values are cleaned, and that all others are left as they are.  `Validator.validate_handedOn` is for
every validator that can be built, every endpoint and every object.

There are three ways to treat a value: by the rule of its field, at an endpoint with rules for other
fields, and at an endpoint that is not known.  The last two are the same, as an endpoint without rules
is treated like one that is not known (`validate_eq`).
-/

namespace CardGate.Validation

/-! ## Rules in order -/

/-- The names of fields that have rules. -/
def ruledNames (rules : List (String × Rule)) : List String :=
  rules.map (·.1)

/-- The rules of fields are in the order of their names, and there is one for each. -/
def Ordered (rules : List (String × Rule)) : Prop :=
  rules.Pairwise fun one other => one.1 < other.1

theorem Ordered.nodup {rules : List (String × Rule)} (h : Ordered rules) :
    (ruledNames rules).Nodup := by
  rw [ruledNames, List.Nodup, List.pairwise_map]
  exact h.imp fun hlt => ne_of_lt hlt

theorem mem_insertRule {field : String} {rule : Rule} {rules : List (String × Rule)}
    {entry : String × Rule} (h : entry ∈ insertRule field rule rules) :
    entry = (field, rule) ∨ entry ∈ rules := by
  induction rules with
  | nil => exact Or.inl (List.mem_singleton.1 h)
  | cons first rest ih =>
    obtain ⟨name, r⟩ := first
    rw [insertRule] at h
    split at h
    · exact List.mem_cons.1 h
    · split at h
      · exact (List.mem_cons.1 h).imp_right (List.mem_cons_of_mem _)
      · rcases List.mem_cons.1 h with rfl | h
        · exact Or.inr List.mem_cons_self
        · exact (ih h).imp_right (List.mem_cons_of_mem _)

theorem Ordered.insertRule {rules : List (String × Rule)} (h : Ordered rules) (field : String)
    (rule : Rule) : Ordered (insertRule field rule rules) := by
  induction rules with
  | nil => exact List.pairwise_singleton _ _
  | cons first rest ih =>
    obtain ⟨name, r⟩ := first
    obtain ⟨hfirst, hrest⟩ := List.pairwise_cons.1 h
    rw [Validation.insertRule]
    split
    · next hlt =>
      refine List.pairwise_cons.2 ⟨fun entry hentry => ?_, h⟩
      rcases List.mem_cons.1 hentry with rfl | hentry
      · exact hlt
      · exact hlt.trans (hfirst entry hentry)
    · next hle =>
      split
      · next heq =>
        subst heq
        exact List.pairwise_cons.2 ⟨hfirst, hrest⟩
      · next hne =>
        refine List.pairwise_cons.2 ⟨fun entry hentry => ?_, ih hrest⟩
        rcases mem_insertRule hentry with rfl | hentry
        · exact lt_of_le_of_ne (not_lt.1 hle) (Ne.symm hne)
        · exact hfirst entry hentry

/-- The configurations that can be built: one without rules, to which rules are added. -/
inductive EndpointConfig.Built : EndpointConfig → Prop
  | plain (maxRequestSize : Nat) (allowedMethods requiredHeaders : List String) :
      Built ⟨maxRequestSize, allowedMethods, requiredHeaders, []⟩
  | withRule {config : EndpointConfig} (built : Built config) (field : String) (rule : Rule) :
      Built (config.withRule field rule)

theorem EndpointConfig.Built.ordered {config : EndpointConfig} (h : config.Built) :
    Ordered config.rules := by
  induction h with
  | plain => exact List.Pairwise.nil
  | withRule built field rule ih => exact ih.insertRule field rule

namespace Validator

/-- The validators that can be built: one that knows no endpoint, to which endpoints are added. -/
inductive Built : Validator → Prop
  | empty : Built empty
  | setConfig {validator : Validator} {config : EndpointConfig} (built : Built validator)
      (endpoint : String) (builtConfig : config.Built) : Built (validator.setConfig endpoint config)

/-- The rules at an endpoint; there are none at one that is not known. -/
def rulesAt (validator : Validator) (endpoint : String) : List (String × Rule) :=
  (validator.config? endpoint).elim [] (·.rules)

theorem Built.configs {validator : Validator} (h : validator.Built) :
    ∀ entry ∈ validator.configs, entry.2.Built := by
  induction h with
  | empty => exact fun entry hentry => absurd hentry List.not_mem_nil
  | setConfig built endpoint builtConfig ih =>
    intro entry hentry
    rcases List.mem_cons.1 hentry with rfl | hentry
    · exact builtConfig
    · exact ih entry (List.mem_of_mem_filter hentry)

theorem Built.ordered {validator : Validator} (h : validator.Built) (endpoint : String) :
    Ordered (validator.rulesAt endpoint) := by
  rw [rulesAt]
  cases hconfig : validator.config? endpoint with
  | none => exact List.Pairwise.nil
  | some config =>
    obtain ⟨entry, hfind, rfl⟩ := Option.map_eq_some_iff.1 hconfig
    exact (h.configs entry (List.mem_of_find?_eq_some hfind)).ordered

/-- An endpoint that is not known is treated like one without rules. -/
theorem validate_eq (validator : Validator) (endpoint : String) (data : List (String × Json)) :
    validator.validate endpoint data =
      { errors := (validator.rulesAt endpoint).flatMap fun (field, rule) =>
          validateField field (Json.member? field data) rule
        data := checkedFields (validator.rulesAt endpoint) data ++
          otherFields (validator.rulesAt endpoint) data } := by
  rw [validate, rulesAt]
  cases validator.config? endpoint with
  | none =>
    have hall : (data.filter fun entry => !([] : List (String × Rule)).any (·.1 = entry.1)) = data :=
      List.filter_eq_self.2 fun entry _ => rfl
    rw [Option.elim_none, otherFields, hall]
    rfl
  | some config => rfl

end Validator

/-! ## The names of the fields -/

/-- Whether a field is other than those with rules. -/
theorem isOther_iff {name : String} {rules : List (String × Rule)} :
    (!rules.any (·.1 = name)) = true ↔ name ∉ ruledNames rules := by
  rw [Bool.not_eq_true', List.any_eq_false, ruledNames, List.mem_map]
  simp only [decide_eq_true_eq, not_exists, not_and]

namespace Validator

theorem checkedFields_cons_of_none {field : String} {rule : Rule} {rest : List (String × Rule)}
    {data : List (String × Json)} (h : Json.member? field data = none) :
    checkedFields ((field, rule) :: rest) data = checkedFields rest data := by
  refine List.filterMap_cons_none ?_
  dsimp only
  rw [h, Option.map_none]

theorem checkedFields_cons_of_some {field : String} {rule : Rule} {rest : List (String × Rule)}
    {data : List (String × Json)} {value : Json} (h : Json.member? field data = some value) :
    checkedFields ((field, rule) :: rest) data =
      (field, checkedValue field rule value) :: checkedFields rest data := by
  refine List.filterMap_cons_some ?_
  dsimp only
  rw [h, Option.map_some]

theorem names_checkedFields (rules : List (String × Rule)) (data : List (String × Json)) :
    (checkedFields rules data).map (·.1) =
      (ruledNames rules).filter (· ∈ data.map (·.1)) := by
  induction rules with
  | nil => rfl
  | cons entry rest ih =>
    obtain ⟨field, rule⟩ := entry
    rw [ruledNames, List.map_cons, List.filter_cons, ← ruledNames]
    cases hvalue : Json.member? field data with
    | none =>
      have hnone : field ∉ data.map (·.1) := Json.member?_eq_none_iff.1 hvalue
      rw [if_neg (by simpa using hnone), checkedFields_cons_of_none hvalue, ih]
    | some value =>
      have hmem : field ∈ data.map (·.1) :=
        List.mem_map_of_mem (Json.mem_of_member? hvalue)
      rw [if_pos (decide_eq_true hmem), checkedFields_cons_of_some hvalue, List.map_cons, ih]

theorem names_otherFields (rules : List (String × Rule)) (data : List (String × Json)) :
    (otherFields rules data).map (·.1) = (data.map (·.1)).filter (· ∉ ruledNames rules) := by
  have hother : (fun entry : String × Json => !rules.any (·.1 = entry.1)) =
      (fun name => decide (name ∉ ruledNames rules)) ∘ (·.1) := by
    funext entry
    rw [Bool.eq_iff_iff, isOther_iff, Function.comp_apply, decide_eq_true_iff]
  rw [otherFields, List.map_map, List.filter_map, hother]
  rfl

/-! ## The values of the fields -/

/-- A field with a rule is handed on under its rule. -/
theorem member?_checkedFields {rules : List (String × Rule)} {name : String} {rule : Rule}
    (nodup : (ruledNames rules).Nodup) (h : (name, rule) ∈ rules) (data : List (String × Json)) :
    Json.member? name (checkedFields rules data) =
      (Json.member? name data).map (checkedValue name rule) := by
  induction rules with
  | nil => exact absurd h List.not_mem_nil
  | cons entry rest ih =>
    obtain ⟨field, r⟩ := entry
    obtain ⟨hfirst, hrest⟩ := List.nodup_cons.1 nodup
    rcases List.mem_cons.1 h with heq | h
    · cases heq
      cases hvalue : Json.member? name data with
      | none =>
        rw [checkedFields_cons_of_none hvalue, Option.map_none, Json.member?_eq_none_iff,
          names_checkedFields]
        exact fun hmem => hfirst (List.mem_of_mem_filter hmem)
      | some value =>
        rw [checkedFields_cons_of_some hvalue, Json.member?_cons_self, Option.map_some]
    · have hmem : name ∈ ruledNames rest := List.mem_map_of_mem h
      have hne : field ≠ name := fun heq => hfirst (heq ▸ hmem)
      cases hvalue : Json.member? field data with
      | none => rw [checkedFields_cons_of_none hvalue, ih hrest h]
      | some value => rw [checkedFields_cons_of_some hvalue, Json.member?_cons_of_ne hne, ih hrest h]

/-- A field without a rule is handed on by its name only. -/
theorem member?_otherFields {rules : List (String × Rule)} {name : String}
    (h : name ∉ ruledNames rules) (data : List (String × Json)) :
    Json.member? name (otherFields rules data) = (Json.member? name data).map (cleaned name) := by
  induction data with
  | nil => rfl
  | cons entry rest ih =>
    obtain ⟨field, value⟩ := entry
    rw [otherFields, List.filter_cons]
    by_cases hname : field = name
    · subst hname
      rw [if_pos (isOther_iff.2 h), List.map_cons, Json.member?_cons_self, Json.member?_cons_self,
        Option.map_some]
    · rw [Json.member?_cons_of_ne hname, ← ih]
      split
      · rw [List.map_cons, Json.member?_cons_of_ne hname, ← otherFields]
      · rw [← otherFields]

end Validator

/-! ## Values that are cleaned -/

/-- Whether a field is for a password, going by its name without regard to case. -/
def IsPassword (name : String) : Prop :=
  "password".toList <:+: Text.lower name.toList

/-- Whether the text of a field is handed on cleaned: it is for no password, and it has no rule or
one that asks for it and that it satisfies. -/
def IsCleaned (rules : List (String × Rule)) (name text : String) : Prop :=
  ¬IsPassword name ∧ (name ∉ ruledNames rules ∨
    ∃ rule, (name, rule) ∈ rules ∧ rule.sanitize = true ∧
      validateField name (some (.str text)) rule = [])

theorem cleaned_str {name : String} (h : ¬IsPassword name) (text : String) :
    cleaned name (.str text) = .str (String.ofList (Hygiene.clean text.toList)) := by
  rw [cleaned, isPasswordField, if_neg (mt Text.occursIn_iff.1 h)]

/-- Passwords and what is no text are left as they are. -/
theorem cleaned_eq_self {name : String} {value : Json}
    (h : ∀ text, value = .str text → IsPassword name) : cleaned name value = value := by
  cases value with
  | str text => rw [cleaned, isPasswordField, if_pos (Text.occursIn_iff.2 (h text rfl))]
  | null | bool _ | num _ | arr _ | obj _ => rfl

namespace Validator

theorem checkedValue_eq (name : String) (rule : Rule) (value : Json) :
    checkedValue name rule value =
      if rule.sanitize = true ∧ validateField name (some value) rule = [] then cleaned name value
      else value := by
  rw [checkedValue]
  simp only [Bool.and_eq_true, List.isEmpty_iff]

section Values

variable {rules : List (String × Rule)} {data : List (String × Json)} {name : String} {value : Json}

theorem member?_of_rule (nodup : (ruledNames rules).Nodup) {rule : Rule}
    (hrule : (name, rule) ∈ rules) (h : Json.member? name data = some value) :
    Json.member? name (checkedFields rules data ++ otherFields rules data) =
      some (checkedValue name rule value) := by
  rw [Json.member?_append, member?_checkedFields nodup hrule, h, Option.map_some, Option.some_or]

theorem member?_of_no_rule (hrule : name ∉ ruledNames rules)
    (h : Json.member? name data = some value) :
    Json.member? name (checkedFields rules data ++ otherFields rules data) =
      some (cleaned name value) := by
  have hchecked : Json.member? name (checkedFields rules data) = none := by
    rw [Json.member?_eq_none_iff, names_checkedFields]
    exact fun hmem => hrule (List.mem_of_mem_filter hmem)
  rw [Json.member?_append, hchecked, Option.none_or, member?_otherFields hrule, h, Option.map_some]

theorem member?_of_isCleaned (nodup : (ruledNames rules).Nodup) {text : String}
    (hcleaned : IsCleaned rules name text) (h : Json.member? name data = some (.str text)) :
    Json.member? name (checkedFields rules data ++ otherFields rules data) =
      some (.str (String.ofList (Hygiene.clean text.toList))) := by
  obtain ⟨hpassword, hrule | ⟨rule, hrule, hasked⟩⟩ := hcleaned
  · rw [member?_of_no_rule hrule h, cleaned_str hpassword]
  · rw [member?_of_rule nodup hrule h, checkedValue_eq, if_pos hasked, cleaned_str hpassword]

theorem member?_of_not_isCleaned (nodup : (ruledNames rules).Nodup)
    (hkept : ∀ text, value = .str text → ¬IsCleaned rules name text)
    (h : Json.member? name data = some value) :
    Json.member? name (checkedFields rules data ++ otherFields rules data) = some value := by
  by_cases hname : name ∈ ruledNames rules
  · obtain ⟨⟨field, rule⟩, hrule, rfl⟩ := List.mem_map.1 hname
    rw [member?_of_rule nodup hrule h, checkedValue_eq]
    split
    · next hasked =>
      rw [cleaned_eq_self]
      rintro text rfl
      by_contra hpassword
      exact hkept text rfl ⟨hpassword, Or.inr ⟨rule, hrule, hasked⟩⟩
    · rfl
  · rw [member?_of_no_rule hname h, cleaned_eq_self]
    rintro text rfl
    by_contra hpassword
    exact hkept text rfl ⟨hpassword, Or.inl hname⟩

end Values

end Validator

/-! ## Outcomes -/

/-- Names that are brought to the front by another list are the same names. -/
theorem perm_of_front {front names : List String} (hfront : front.Nodup) (hnames : names.Nodup) :
    (front.filter (· ∈ names) ++ names.filter (· ∉ front)).Nodup ∧
      (front.filter (· ∈ names) ++ names.filter (· ∉ front)).Perm names := by
  have hnodup : (front.filter (· ∈ names) ++ names.filter (· ∉ front)).Nodup := by
    refine List.nodup_append.2 ⟨hfront.filter _, hnames.filter _, ?_⟩
    rintro name hin other hout rfl
    rw [List.mem_filter, decide_eq_true_iff] at hin hout
    exact hout.2 hin.1
  refine ⟨hnodup, (List.perm_ext_iff_of_nodup hnodup hnames).2 fun name => ?_⟩
  rw [List.mem_append, List.mem_filter, List.mem_filter, decide_eq_true_iff, decide_eq_true_iff]
  tauto

/-- How the outcome of a validation compares with the object that was validated. -/
structure HandedOn (rules : List (String × Rule)) (data : List (String × Json))
    (outcome : Outcome) : Prop where
  /-- First come the fields that have rules, and then the others as they came. -/
  names : ∃ ruled, outcome.data.map (·.1) =
      ruled ++ (data.map (·.1)).filter (· ∉ ruledNames rules) ∧
    (∀ name, name ∈ ruled ↔ name ∈ data.map (·.1) ∧ name ∈ ruledNames rules) ∧
    ruled.Pairwise fun one other => Utf8.bytes one < Utf8.bytes other
  /-- Without rules the fields stay in order. -/
  unruled : rules = [] → outcome.data.map (·.1) = data.map (·.1)
  /-- The names are those that came, each of them once. -/
  same : (outcome.data.map (·.1)).Nodup ∧ (outcome.data.map (·.1)).Perm (data.map (·.1))
  cleaned : ∀ name text, Json.member? name data = some (.str text) → IsCleaned rules name text →
    Json.member? name outcome.data = some (.str (String.ofList (Hygiene.clean text.toList)))
  kept : ∀ name value, Json.member? name data = some value →
    (∀ text, value = .str text → ¬IsCleaned rules name text) →
      Json.member? name outcome.data = some value
  /-- The rules are in byte order of the names of their fields, and so are their errors. -/
  ordered : (ruledNames rules).Pairwise fun one other => Utf8.bytes one < Utf8.bytes other
  errors : outcome.errors = rules.flatMap fun (field, rule) =>
    validateField field (Json.member? field data) rule
  valid : outcome.valid = true ↔ outcome.errors = []

namespace Validator

/-- Nothing is lost, made up, or altered without being asked for, whatever the rules. -/
theorem validate_handedOn {validator : Validator} (built : validator.Built)
    (endpoint : String) {data : List (String × Json)} (distinct : (data.map (·.1)).Nodup) :
    HandedOn (validator.rulesAt endpoint) data (validator.validate endpoint data) := by
  have hordered := built.ordered endpoint
  rw [validate_eq]
  generalize validator.rulesAt endpoint = rules at hordered
  have nodup := hordered.nodup
  have hbytes : (ruledNames rules).Pairwise fun one other => Utf8.bytes one < Utf8.bytes other := by
    rw [ruledNames, List.pairwise_map]
    exact hordered.imp Utf8.bytes_lt
  have hnames : (checkedFields rules data ++ otherFields rules data).map (·.1) =
      (ruledNames rules).filter (· ∈ data.map (·.1)) ++
        (data.map (·.1)).filter (· ∉ ruledNames rules) := by
    rw [List.map_append, names_checkedFields, names_otherFields]
  refine ⟨⟨_, hnames, fun name => ?_, hbytes.filter _⟩, ?_, ?_, fun name text h hcleaned => ?_,
    fun name value h hkept => ?_, hbytes, rfl, ?_⟩
  · rw [List.mem_filter, decide_eq_true_iff]
    exact and_comm
  · rintro rfl
    rw [hnames]
    exact List.filter_eq_self.2 fun name _ => decide_eq_true List.not_mem_nil
  · rw [hnames]
    exact perm_of_front nodup distinct
  · exact member?_of_isCleaned nodup hcleaned h
  · exact member?_of_not_isCleaned nodup hkept h
  · exact List.isEmpty_iff

theorem built_standard : standard.Built := by
  have hplain (size : Nat) : (jsonEndpoint size).Built := .plain size ["POST"] ["Content-Type"]
  have hlogin := ((hplain 1024).withRule "username" usernameRule).withRule "password" passwordRule
  have huser := (((hplain 2048).withRule "username" usernameRule).withRule "email" emailRule)
  have husers := (huser.withRule "password" passwordRule).withRule "full_name" fullNameRule
  have hchange := ((hplain 1024).withRule "current_password" Rule.mandatory).withRule "new_password"
    passwordRule
  exact ((Built.empty.setConfig _ hlogin).setConfig _ husers).setConfig _ hchange

/-- A request with a field that is cleaned, one that is not for it is a password, and one that has a
rule. -/
def sampleData : List (String × Json) :=
  [("note", .str " <b> "), ("Backup_PASSWORD", .str " <b> "), ("email", .str "nobody")]

theorem validate_handedOn_sample :
    standard.Built ∧ (sampleData.map (·.1)).Nodup ∧
      HandedOn (standard.rulesAt "/api/v1/users") sampleData
        (standard.validate "/api/v1/users" sampleData) ∧
      Json.member? "Backup_PASSWORD" (standard.validate "/api/v1/users" sampleData).data =
        some (.str " <b> ") := by
  have distinct : (sampleData.map (·.1)).Nodup := by decide
  have handedOn := validate_handedOn built_standard "/api/v1/users" distinct
  refine ⟨built_standard, distinct, handedOn, handedOn.kept _ _ rfl ?_⟩
  rintro text - ⟨hpassword, -⟩
  exact hpassword (Text.occursIn_iff.1 (by decide))

end Validator

end CardGate.Validation
