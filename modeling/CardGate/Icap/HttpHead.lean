import CardGate.Icap.Source
import CardGate.Text.Blank
import CardGate.Text.Case
import CardGate.Text.Numeral

/-!
# Heads of HTTP messages

The head of an encapsulated HTTP message is a start line and header lines, kept as they came.  A
few headers matter here: the type of the body and how it is framed.
-/

namespace CardGate

/-- The start line and the header lines of an HTTP message. -/
structure HttpHead where
  startLine : String
  headerLines : List String
  deriving DecidableEq, Repr

namespace HttpHead

/-- The value of a header line, if it has the given name. -/
def valueIn? (name line : String) : Option String :=
  match Text.splitAtFirst? ':' line.toList with
  | some (n, value) =>
    if Text.lower (Text.trim n) = Text.lower name.toList then
      some (String.ofList (Text.trim value))
    else none
  | none => none

/-- The value of the first header line of a given name. -/
def header? (head : HttpHead) (name : String) : Option String :=
  head.headerLines.findSome? (valueIn? name)

/-- The declared type of the body. -/
def contentType? (head : HttpHead) : Option String :=
  head.header? "Content-Type"

/-- Whether the body is sent in chunks. -/
def isChunked (head : HttpHead) : Bool :=
  (head.header? "Transfer-Encoding").any fun value =>
    Text.occursIn "chunked".toList (Text.lower value.toList)

/-- The declared length of the body.  A value that is no number counts as none. -/
def contentLength? (head : HttpHead) : Option Nat :=
  (head.header? "Content-Length").bind fun value =>
    Numeral.decimalBelow? Numeral.sizeBound value.toList

/-- Reads the head of a message. -/
def read (s : Source) : Reading HttpHead :=
  match s.requireLine with
  | .error e => .error e
  | .ok (startLine, rest) =>
    match rest.readBlock with
    | .error e => .error e
    | .ok (headerLines, rest) => .ok (⟨startLine, headerLines⟩, rest)

end HttpHead

end CardGate
