import CardGate.Json.Fault
import CardGate.Keys.Material
import CardGate.Status
import CardGate.Token.Format

/-!
# Errors of the gateway

A transformation of a payload fails because the payload is no JSON, because the card store
refuses a write, because a key is missing or does not fit, or because a token format does not
exist.  Each error keeps its cause; `message` and `status` are all that leaves the gateway.
-/

namespace CardGate

/-- Why a card store refuses a write. -/
inductive StoreError where
  /-- The token stands for a card already. -/
  | tokenTaken (token : String)
  /-- The store cannot write at all. -/
  | unavailable (reason : String)
  deriving DecidableEq, Repr

/-- The wording of a store error. -/
def StoreError.message : StoreError → String
  | tokenTaken token => s!"token already stored: {token}"
  | unavailable reason => reason

/-- Why the gateway cannot do what it is asked. -/
inductive GatewayError where
  | decode (error : Json.ReadError)
  | storage (error : StoreError)
  | crypto (error : CryptoError)
  | unknownFormat (name : String)
  deriving DecidableEq, Repr

namespace GatewayError

/-- The wording of an error. -/
def message : GatewayError → String
  | decode error => s!"Invalid JSON payload: {error.message}"
  | storage error => s!"Card store error: {error.message}"
  | crypto error => s!"Crypto error: {error.message}"
  | unknownFormat name => s!"Unknown token format: {name}"

/-- How an error is classified. -/
def status : GatewayError → Status
  | decode _ => .badRequest
  | unknownFormat _ => .badRequest
  | storage _ => .serviceUnavailable
  | crypto _ => .internalServerError

end GatewayError

/-- The token format of a given name. -/
def TokenFormat.ofName (s : String) : Except GatewayError TokenFormat :=
  match ofName? s with
  | some format => .ok format
  | none => .error (.unknownFormat (Text.lowered (Text.trimmed s)))

end CardGate
