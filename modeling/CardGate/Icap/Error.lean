import CardGate.Status
import CardGate.Text.Quoted

/-!
# Errors of the protocol

What can go wrong while a request is read.  Each error maps onto a status code; only a request
line that is no request line is not answered at all.
-/

namespace CardGate

/-- Why a request cannot be read or served. -/
inductive IcapError where
  /-- The client broke the connection off. -/
  | connectionReset
  /-- The first line has fewer than three words. -/
  | badRequestLine (line : String)
  /-- A line is longer than `limit` bytes. -/
  | lineTooLong (limit : Nat)
  /-- The headers do not say which sections follow. -/
  | sectionsMissing
  /-- The line before a chunk holds no size. -/
  | badChunkSize (line : String)
  /-- The stream ends within a block of lines or a body. -/
  | endOfStream
  /-- The body is longer than `limit` bytes. -/
  | bodyTooLarge (limit : Nat)
  /-- The method is none of those served. -/
  | methodNotAllowed (method : String)
  deriving DecidableEq, Repr

namespace IcapError

/-- The wording of an error. -/
def message : IcapError → String
  | connectionReset => "I/O error: connection reset"
  | badRequestLine line => s!"Malformed request line: {Text.quoted line}"
  | lineTooLong limit => s!"Line exceeds {limit} bytes"
  | sectionsMissing => "Missing Encapsulated header"
  | badChunkSize line => s!"Invalid chunk size: {Text.quoted line}"
  | endOfStream => "Unexpected end of stream"
  | bodyTooLarge limit => s!"Body exceeds limit of {limit} bytes"
  | methodNotAllowed method => s!"Method not allowed: {method}"

/-- How an error is classified. -/
def status : IcapError → Status
  | methodNotAllowed _ => .methodNotAllowed
  | _ => .badRequest

/-- Whether the connection is closed without a reply. -/
def isSilent : IcapError → Bool
  | badRequestLine _ => true
  | _ => false

end IcapError

end CardGate
