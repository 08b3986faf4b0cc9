import CardGate.Text.Blank
import CardGate.Text.Case
import CardGate.Text.Utf8

/-!
# Reading the environment

Settings come from environment variables.  A variable that is unset, is no text or holds only
blanks counts as absent, and so does a value that cannot be read: a malformed setting never keeps
the gateway from starting, it gives way to the default.
-/

namespace CardGate

/-- The values of the environment variables that are set. -/
abbrev Environment := String → Option (List UInt8)

namespace Environment

/-- The value of a variable that is not absent, as it stands. -/
def value? (env : Environment) (name : String) : Option String :=
  ((env name).bind Utf8.text?).filter fun s => !(Text.trim s.toList).isEmpty

/-- The value of a variable, or a default. -/
def valueOr (env : Environment) (name fallback : String) : String :=
  (env.value? name).getD fallback

/-- What a variable says, with blanks around it, or a default. -/
def readOr {α : Type} (read? : String → Option α) (env : Environment) (name : String)
    (fallback : α) : α :=
  ((env.value? name).bind fun s => read? (Text.trimmed s)).getD fallback

/-- Words that say yes. -/
def yesWords : List String := ["1", "true", "yes", "on"]

/-- Words that say no. -/
def noWords : List String := ["0", "false", "no", "off"]

/-- What a flag says, in any case and with blanks around it. -/
def flag? (s : String) : Option Bool :=
  let word := Text.lowered (Text.trimmed s)
  if yesWords.contains word then some true
  else if noWords.contains word then some false
  else none

/-- What a flag variable says, or a default. -/
def flagOr (env : Environment) (name : String) (fallback : Bool) : Bool :=
  ((env.value? name).bind flag?).getD fallback

end Environment

end CardGate
