/-!
# Status codes

Every failure falls into one of five kinds.  A kind has a code and a reason phrase that are valid
both on an ICAP status line and in the HTTP-facing validation layer.
-/

namespace CardGate

/-- How a failure is classified for the client. -/
inductive Status where
  /-- The framing or the input is malformed. -/
  | badRequest
  | methodNotAllowed
  | payloadTooLarge
  | internalServerError
  /-- The service is overloaded or its store is not available. -/
  | serviceUnavailable
  deriving DecidableEq, Repr

namespace Status

/-- The three-digit code. -/
def code : Status → Nat
  | badRequest => 400
  | methodNotAllowed => 405
  | payloadTooLarge => 413
  | internalServerError => 500
  | serviceUnavailable => 503

/-- The phrase after the code. -/
def reason : Status → String
  | badRequest => "Bad Request"
  | methodNotAllowed => "Method Not Allowed"
  | payloadTooLarge => "Payload Too Large"
  | internalServerError => "Internal Server Error"
  | serviceUnavailable => "Service Unavailable"

/-- The tail of a status line: code and phrase. -/
def line (s : Status) : String :=
  s!"{s.code} {s.reason}"

/-- The name under which a status is logged and serialised. -/
def tag : Status → String
  | badRequest => "BAD_REQUEST"
  | methodNotAllowed => "METHOD_NOT_ALLOWED"
  | payloadTooLarge => "PAYLOAD_TOO_LARGE"
  | internalServerError => "INTERNAL_SERVER_ERROR"
  | serviceUnavailable => "SERVICE_UNAVAILABLE"

end Status

end CardGate
