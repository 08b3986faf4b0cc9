import CardGate.Proofs.Text.Numeral
import CardGate.Proofs.Text.Words
import CardGate.Settings.Gateway
import CardGate.Text.Utf8.Lemmas

/-!
# Independent settings

Every setting of a gateway has a variable of its own.  What it can be is its `Value`, and `Says` is
what a text says to it: this is where the settings differ, in what is trimmed, in the words that are
known and in the numbers that fit.  All of them are read in one way (`of_ofEnvironment`): the text
of the variable is looked at alone, and where it says nothing the standard holds.

`settings_independent` draws from this that a variable changes its own setting only, and that a
value which says nothing is as good as none.
-/

namespace CardGate

/-- An environment in which one variable is set to another value, or unset. -/
def Environment.set (env : Environment) (name : String) (value : Option (List UInt8)) :
    Environment :=
  fun other => if other = name then value else env other

namespace GatewaySettings

/-- The settings where nothing is said. -/
def standard : GatewaySettings :=
  ⟨.standard, .standard, none, none⟩

/-- A setting of a gateway. -/
inductive Setting where
  | host
  | port
  | maxBody
  | maxConnections
  | format
  | useHierarchy
  | debug
  | encryptionKey
  | masterKey
  deriving DecidableEq, Repr

namespace Setting

/-- The variable of a setting. -/
def name : Setting → String
  | host => "ICAP_HOST"
  | port => "ICAP_PORT"
  | maxBody => "ICAP_MAX_BODY_BYTES"
  | maxConnections => "ICAP_MAX_CONNECTIONS"
  | format => "TOKEN_FORMAT"
  | useHierarchy => "USE_KEK_DEK"
  | debug => "DEBUG_MODE"
  | encryptionKey => "ENCRYPTION_KEY"
  | masterKey => "KEK_KEY"

theorem name_injective : Function.Injective name := by
  intro one other h
  revert h
  cases one <;> cases other <;> decide

/-- What a setting can be. -/
abbrev Value : Setting → Type
  | host => String
  | port | maxBody | maxConnections => Nat
  | format => TokenFormat
  | useHierarchy | debug => Bool
  | encryptionKey | masterKey => Option String

/-- A setting among all. -/
def of : (setting : Setting) → GatewaySettings → setting.Value
  | host, settings => settings.server.host
  | port, settings => settings.server.port
  | maxBody, settings => settings.server.maxBody
  | maxConnections, settings => settings.server.maxConnections
  | format, settings => settings.tokenizer.format
  | useHierarchy, settings => settings.tokenizer.useHierarchy
  | debug, settings => settings.tokenizer.debug
  | encryptionKey, settings => settings.encryptionKey
  | masterKey, settings => settings.masterKey

/-- There are no other settings. -/
theorem ext_of {settings others : GatewaySettings}
    (h : ∀ setting : Setting, setting.of settings = setting.of others) : settings = others := by
  obtain ⟨⟨_, _, _, _⟩, ⟨_, _, _⟩, _, _⟩ := settings
  obtain ⟨⟨_, _, _, _⟩, ⟨_, _, _⟩, _, _⟩ := others
  cases h host
  cases h port
  cases h maxBody
  cases h maxConnections
  cases h format
  cases h useHierarchy
  cases h debug
  cases h encryptionKey
  cases h masterKey
  rfl

/-! ## What a text says -/

/-- Whether a text is a number below a bound, with blanks around it. -/
def SaysNumber (bound : Nat) (s : String) (n : Nat) : Prop :=
  n < bound ∧ Numeral.IsDecimal (Text.trim s.toList) n

/-- Whether a text says yes or no, in any case and with blanks around it. -/
def SaysFlag (s : String) (yes : Bool) : Prop :=
  Text.lowered (Text.trimmed s) ∈
    if yes then ["1", "true", "yes", "on"] else ["0", "false", "no", "off"]

/-- Whether a text says that a setting is of some value. -/
def Says : (setting : Setting) → String → setting.Value → Prop
  | host, s, name => name = s
  | port, s, n => SaysNumber UInt16.size s n
  | maxBody, s, n => SaysNumber UInt64.size s n
  | maxConnections, s, n => SaysNumber UInt32.size s n
  | format, s, chosen => Text.lowered (Text.trimmed s) = chosen.name
  | useHierarchy, s, yes | debug, s, yes => SaysFlag s yes
  | encryptionKey, s, key | masterKey, s, key => key = some s

/-- Whether the value of a variable says nothing: it is no text, all blanks, or a text that says of
no value that the setting is of it. -/
def IsSilent (setting : Setting) (bytes : List UInt8) : Prop :=
  (∀ s, bytes ≠ Utf8.bytes s) ∨
    ∃ s, bytes = Utf8.bytes s ∧
      ((∀ c ∈ s.toList, Text.isBlank c = true) ∨ ∀ value, ¬setting.Says s value)

/-! ## How settings are read -/

/-- What a setting is read from. -/
def read? : (setting : Setting) → String → Option setting.Value
  | host, s => some s
  | port, s => numberBelow? UInt16.size (Text.trimmed s)
  | maxBody, s => numberBelow? Numeral.sizeBound (Text.trimmed s)
  | maxConnections, s => numberBelow? UInt32.size (Text.trimmed s)
  | format, s => TokenFormat.ofName? (Text.trimmed s)
  | useHierarchy, s | debug, s => Environment.flag? s
  | encryptionKey, s | masterKey, s => some (some s)

theorem numberBelow?_eq_some_iff {bound n : Nat} {s : String} :
    numberBelow? bound (Text.trimmed s) = some n ↔ SaysNumber bound s n := by
  rw [numberBelow?, Text.trimmed, String.toList_ofList, Numeral.decimalBelow?_eq_some_iff,
    SaysNumber]

theorem ofName?_eq_some_iff {s : String} {format : TokenFormat} :
    TokenFormat.ofName? (Text.trimmed s) = some format ↔
      Text.lowered (Text.trimmed s) = format.name := by
  have htrim : Text.trimmed (Text.trimmed s) = Text.trimmed s := by
    rw [Text.trimmed, Text.trimmed, String.toList_ofList, Text.trim_trim]
  rw [TokenFormat.ofName?, htrim]
  generalize Text.lowered (Text.trimmed s) = word
  constructor
  · intro h
    have hname := List.find?_some h
    exact (beq_iff_eq.1 hname).symm
  · rintro rfl
    cases format <;> rfl

theorem flag?_eq_some_iff {s : String} {yes : Bool} :
    Environment.flag? s = some yes ↔ SaysFlag s yes := by
  have apart : ∀ word ∈ Environment.noWords, word ∉ Environment.yesWords := by decide
  rw [Environment.flag?, SaysFlag]
  generalize Text.lowered (Text.trimmed s) = word
  split
  · next hyes =>
    have hword := List.contains_iff_mem.1 hyes
    cases yes with
    | true => exact iff_of_true rfl hword
    | false => exact iff_of_false nofun fun hno => apart word hno hword
  · next hyes =>
    have hother := mt List.contains_iff_mem.2 hyes
    split
    · next hno =>
      have hword := List.contains_iff_mem.1 hno
      cases yes with
      | true => exact iff_of_false nofun hother
      | false => exact iff_of_true rfl hword
    · next hno =>
      have hnone := mt List.contains_iff_mem.2 hno
      cases yes with
      | true => exact iff_of_false nofun hother
      | false => exact iff_of_false nofun hnone

theorem read?_eq_some_iff {setting : Setting} {s : String} {value : setting.Value} :
    setting.read? s = some value ↔ setting.Says s value := by
  cases setting with
  | host => exact Option.some_inj.trans eq_comm
  | port | maxBody | maxConnections => exact numberBelow?_eq_some_iff
  | format => exact ofName?_eq_some_iff
  | useHierarchy | debug => exact @flag?_eq_some_iff s value
  | encryptionKey | masterKey => exact Option.some_inj.trans eq_comm

/-- Every setting is read from its variable alone, and is the standard where that says nothing. -/
theorem of_ofEnvironment (setting : Setting) (env : Environment) :
    setting.of (ofEnvironment env) =
      ((env.value? setting.name).bind setting.read?).getD (setting.of standard) := by
  cases setting with
  | host =>
    exact congrArg (Option.getD · ServerSettings.standard.host) (Option.bind_fun_some _).symm
  | port | maxBody | maxConnections | format | useHierarchy | debug => rfl
  | encryptionKey | masterKey =>
    have hkey : ∀ key : Option String, key = (key.bind fun s => some (some s)).getD none := by
      intro key
      cases key with
      | none => rfl
      | some s => rfl
    exact hkey _

end Setting

end GatewaySettings

/-! ## Variables -/

namespace Environment

variable {env : Environment} {name : String}

theorem value?_set_of_ne {other : String} (h : other ≠ name) (value : Option (List UInt8)) :
    (env.set name value).value? other = env.value? other := by
  rw [value?, set, if_neg h, value?]

theorem set_self (value : Option (List UInt8)) : env.set name value name = value :=
  if_pos rfl

/-- A variable has a value if it is a text that is not all blanks. -/
theorem value?_eq_some_iff {s : String} :
    env.value? name = some s ↔
      env name = some (Utf8.bytes s) ∧ ¬∀ c ∈ s.toList, Text.isBlank c = true := by
  rw [value?, Option.filter_eq_some_iff, Option.bind_eq_some_iff, ← Text.trim_eq_nil_iff,
    Bool.not_eq_true', ← Bool.not_eq_true, List.isEmpty_iff]
  refine and_congr_left fun _ => ⟨?_, fun h => ⟨_, h, Utf8.text?_bytes s⟩⟩
  rintro ⟨bytes, hbytes, htext⟩
  rw [hbytes, Utf8.text?_eq_some_iff.1 htext]

end Environment

namespace GatewaySettings

open Setting

variable (env : Environment) (setting : Setting)

/-- The value of one variable does not bear on the setting of another. -/
theorem of_set_of_ne {other : Setting} {name : String} (h : other.name ≠ name)
    (value : Option (List UInt8)) :
    other.of (ofEnvironment (env.set name value)) = other.of (ofEnvironment env) := by
  rw [of_ofEnvironment, of_ofEnvironment, Environment.value?_set_of_ne h]

theorem of_set_of_silent {bytes : List UInt8} (h : setting.IsSilent bytes) :
    setting.of (ofEnvironment (env.set setting.name (some bytes))) = setting.of standard := by
  have hnone : ((env.set setting.name (some bytes)).value? setting.name).bind setting.read? =
      none := by
    rw [Option.bind_eq_none_iff]
    intro s hs
    obtain ⟨hbytes, hfilled⟩ := Environment.value?_eq_some_iff.1 hs
    rw [Environment.set_self, Option.some_inj] at hbytes
    obtain hbroken | ⟨other, hother, hsilent⟩ := h
    · exact absurd hbytes (hbroken s)
    · have hsame := Utf8.text?_bytes s
      rw [← hbytes, hother, Utf8.text?_bytes, Option.some_inj] at hsame
      rw [hsame] at hsilent
      exact Option.eq_none_iff_forall_ne_some.2 fun said hsaid =>
        hsilent.resolve_left hfilled said (read?_eq_some_iff.1 hsaid)
  rw [of_ofEnvironment, hnone, Option.getD_none]

theorem of_set_none : setting.of (ofEnvironment (env.set setting.name none)) =
    setting.of standard := by
  have hnone : (env.set setting.name none).value? setting.name = none := by
    rw [Environment.value?, Environment.set_self]
    rfl
  rw [of_ofEnvironment, hnone]
  rfl

theorem of_set_of_said {s : String} {said : setting.Value} (h : setting.Says s said)
    (hfilled : ¬∀ c ∈ s.toList, Text.isBlank c = true) :
    setting.of (ofEnvironment (env.set setting.name (some (Utf8.bytes s)))) = said := by
  have hvalue : (env.set setting.name (some (Utf8.bytes s))).value? setting.name = some s :=
    Environment.value?_eq_some_iff.2 ⟨Environment.set_self _, hfilled⟩
  rw [of_ofEnvironment, hvalue, Option.bind_some, read?_eq_some_iff.2 h, Option.getD_some]

/-- A variable changes its own setting only, and the log filter if it is the one for logging.  A
value that says nothing is as good as none; of any other value the setting is what it says.  And no
variable counts but those of the settings. -/
theorem settings_independent (value : Option (List UInt8)) :
    (∀ other, other ≠ setting → other.of (ofEnvironment (env.set setting.name value)) =
        other.of (ofEnvironment env)) ∧
      (setting ≠ debug → (ofEnvironment (env.set setting.name value)).logFilter =
        (ofEnvironment env).logFilter) ∧
      (∀ bytes, setting.IsSilent bytes → ofEnvironment (env.set setting.name (some bytes)) =
        ofEnvironment (env.set setting.name none)) ∧
      (∀ s said, setting.Says s said → (¬∀ c ∈ s.toList, Text.isBlank c = true) →
        setting.of (ofEnvironment (env.set setting.name (some (Utf8.bytes s)))) = said) ∧
      ∀ name, (∀ other : Setting, other.name ≠ name) →
        ofEnvironment (env.set name value) = ofEnvironment env := by
  have hothers {other : Setting} (h : other ≠ setting) (value : Option (List UInt8)) :
      other.of (ofEnvironment (env.set setting.name value)) = other.of (ofEnvironment env) :=
    of_set_of_ne env (name_injective.ne h) value
  refine ⟨fun other h => hothers h value, fun h => ?_, fun bytes h => ext_of fun other => ?_,
    fun s said h hfilled => of_set_of_said env setting h hfilled,
    fun name h => ext_of fun other => of_set_of_ne env (h other) value⟩
  · have hdebug : (ofEnvironment (env.set setting.name value)).tokenizer.debug =
        (ofEnvironment env).tokenizer.debug := hothers h.symm value
    rw [logFilter, logFilter, hdebug]
  · by_cases hother : other = setting
    · rw [hother, of_set_of_silent env setting h, of_set_none]
    · rw [hothers hother, hothers hother]

/-- An environment that says a port and that there is logging. -/
def sampleEnvironment : Environment :=
  (Environment.set (fun _ => none) "ICAP_PORT" (some (Utf8.bytes "8080"))).set "DEBUG_MODE"
    (some (Utf8.bytes "Yes"))

/-- A port that is too large, one that is not, and a variable of no setting. -/
theorem settings_independent_sample :
    Setting.debug ≠ .port ∧ Setting.port ≠ .debug ∧
      Setting.port.IsSilent (Utf8.bytes "70000") ∧
      Setting.port.Says " +9090 " (9090 : Nat) ∧
      (¬∀ c ∈ " +9090 ".toList, Text.isBlank c = true) ∧
      (∀ other : Setting, other.name ≠ "PATH") ∧
      debug.of (ofEnvironment (sampleEnvironment.set "ICAP_PORT" none)) =
        debug.of (ofEnvironment sampleEnvironment) ∧
      (ofEnvironment (sampleEnvironment.set "ICAP_PORT" none)).logFilter =
        (ofEnvironment sampleEnvironment).logFilter ∧
      ofEnvironment (sampleEnvironment.set "ICAP_PORT" (some (Utf8.bytes "70000"))) =
        ofEnvironment (sampleEnvironment.set "ICAP_PORT" none) ∧
      port.of (ofEnvironment (sampleEnvironment.set "ICAP_PORT" (some (Utf8.bytes " +9090 ")))) =
        (9090 : Nat) ∧
      ofEnvironment (sampleEnvironment.set "PATH" none) = ofEnvironment sampleEnvironment := by
  have hother : Setting.debug ≠ .port := by decide
  have hport : Setting.port ≠ .debug := by decide
  have hsilent : Setting.port.IsSilent (Utf8.bytes "70000") := by
    have hnone : Setting.port.read? "70000" = none := by decide
    refine Or.inr ⟨"70000", rfl, Or.inr fun n hn => ?_⟩
    rw [read?_eq_some_iff.2 hn] at hnone
    cases hnone
  have hsaid : Setting.port.Says " +9090 " (9090 : Nat) := read?_eq_some_iff.1 (by decide)
  have hfilled : ¬∀ c ∈ " +9090 ".toList, Text.isBlank c = true := fun hblank =>
    absurd (hblank '+' (by decide)) (by decide)
  have hname : ∀ other : Setting, other.name ≠ "PATH" := by
    intro other
    cases other <;> decide
  obtain ⟨others, filter, silent, said, unread⟩ := settings_independent sampleEnvironment .port none
  exact ⟨hother, hport, hsilent, hsaid, hfilled, hname, others .debug hother, filter hport,
    silent _ hsilent, said _ _ hsaid hfilled, unread _ hname⟩

end GatewaySettings

end CardGate
