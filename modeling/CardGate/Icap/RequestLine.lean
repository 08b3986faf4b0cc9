import CardGate.Icap.Error
import CardGate.Text.Blank

/-!
# The request line

The first line of a request names the method, the address of the service and the version of the
protocol.  Words after these are ignored.
-/

namespace CardGate

/-- The words of a request line. -/
structure RequestLine where
  method : String
  uri : String
  version : String
  deriving DecidableEq, Repr

/-- Reads a request line, which has at least three words. -/
def RequestLine.ofLine (line : String) : Except IcapError RequestLine :=
  match Text.words line.toList with
  | method :: uri :: version :: _ =>
    .ok ⟨String.ofList method, String.ofList uri, String.ofList version⟩
  | _ => .error (.badRequestLine line)

end CardGate
