/-!
# Faults in JSON text

A text that is no JSON is refused with a cause and a place.  The place counts lines from one and,
within the line, the bytes read up to and including the one that is wrong.  While reading, a fault
only knows how many bytes are left after it, which is the same in every context; `Fault.locate`
turns that into a place in the whole text.  A fault within a string that should hold a number has
its place in that string.
-/

namespace CardGate.Json

/-- What stands where a string that holds a number is expected. -/
inductive Misfit where
  | null
  | bool (b : Bool)
  /-- A whole number of 64 bits. -/
  | integer (digits : String)
  /-- Any other number. -/
  | number
  | array
  | object
  deriving DecidableEq, Repr

/-- The wording of a misfit. -/
def Misfit.message : Misfit → String
  | null => "null"
  | bool b => s!"boolean `{b}`"
  | integer digits => s!"integer `{digits}`"
  | number => "number"
  | array => "sequence"
  | object => "map"

/-- What is wrong with a text. -/
inductive Cause where
  | endInValue
  | endInArray
  | endInObject
  | endInString
  | expectedValue
  /-- A wrong letter within `true`, `false` or `null`. -/
  | expectedLiteral
  | expectedColon
  | expectedCommaOrBracket
  | expectedCommaOrBrace
  | expectedName
  | trailingComma
  | trailingText
  | badNumber
  /-- Something else than the digit with which a number or its exponent has to begin. -/
  | missingDigit
  | expectedNumeral (found : Misfit)
  | badEscape
  | controlCharacter
  /-- Half of a surrogate pair without the other half. -/
  | loneSurrogate
  /-- A high surrogate that no escape follows. -/
  | cutSurrogate
  | tooDeep
  deriving DecidableEq, Repr

/-- The wording of a cause. -/
def Cause.message : Cause → String
  | endInValue => "EOF while parsing a value"
  | endInArray => "EOF while parsing a list"
  | endInObject => "EOF while parsing an object"
  | endInString => "EOF while parsing a string"
  | expectedValue => "expected value"
  | expectedLiteral => "expected ident"
  | expectedColon => "expected `:`"
  | expectedCommaOrBracket => "expected `,` or `]`"
  | expectedCommaOrBrace => "expected `,` or `\x7d`"
  | expectedName => "key must be a string"
  | trailingComma => "trailing comma"
  | trailingText => "trailing characters"
  | badNumber => "invalid number"
  | missingDigit => "invalid number"
  | expectedNumeral found => s!"invalid type: {found.message}, expected string containing a number"
  | badEscape => "invalid escape"
  | controlCharacter => "control character (\\u0000-\\u001F) found while parsing a string"
  | loneSurrogate => "lone leading surrogate in hex escape"
  | cutSurrogate => "unexpected end of hex escape"
  | tooDeep => "recursion limit exceeded"

/-- The number of bytes that a text takes. -/
def byteCount (cs : List Char) : Nat :=
  cs.foldr (fun c n => c.utf8Size + n) 0

/-- A cause with its place in a text. -/
structure ReadError where
  cause : Cause
  line : Nat
  column : Nat
  deriving DecidableEq, Repr

/-- The wording of an error. -/
def ReadError.message (e : ReadError) : String :=
  s!"{e.cause.message} at line {e.line} column {e.column}"

/-- A fault found while reading. -/
inductive Fault where
  /-- A cause together with the number of bytes after the fault. -/
  | outer (cause : Cause) (left : Nat)
  /-- An error within a string, which has its place there. -/
  | inner (error : ReadError)
  deriving DecidableEq, Repr

/-- A fault at the first byte of the text that is left, or at its end. -/
def Fault.here (cause : Cause) (cs : List Char) : Fault :=
  .outer cause (byteCount cs - 1)

/-- A fault right before the text that is left. -/
def Fault.before (cause : Cause) (cs : List Char) : Fault :=
  .outer cause (byteCount cs)

/-- The place of a fault in a text: the lines begun, and the bytes of the last one, before the
bytes that are left. -/
def Fault.locate (cs : List Char) : Fault → ReadError
  | outer cause left =>
    let bytes := cs.flatMap String.utf8EncodeChar
    let read := bytes.take (bytes.length - left)
    ⟨cause, 1 + read.count 10, (read.reverse.takeWhile (· ≠ 10)).length⟩
  | inner error => error

end CardGate.Json
