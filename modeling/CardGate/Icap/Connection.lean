import CardGate.Icap.Reply
import CardGate.Icap.Request
import CardGate.Settings.Gateway
import CardGate.Substitution.Payload

/-!
# Connections

A connection carries one request and at most one reply.  A body is replaced only as a whole: when
it is empty, is no text, cannot be read or holds nothing to replace, the client is told to use the
message as it is.

Only tokenizing writes to the store, and only once the whole body has been read as a document, so
a request that fails leaves the store as it was.  So does one that the program gives up on, because
there is no buffer for its body, and then the connection ends without a reply.
-/

namespace CardGate

/-- What is left after a connection: the reply, the tokens issued, and the store. -/
structure Exchange (σ : Type) where
  reply : Option Reply
  issued : List Issue
  store : σ

namespace Exchange

variable {σ : Type}

/-- An exchange that leaves the store alone. -/
def withReply (store : σ) (reply : Option Reply) : Exchange σ :=
  ⟨reply, [], store⟩

/-- The reply that carries a payload.  A failed substitution leaves the message as it is. -/
def replyFor : Except GatewayError Payload → Reply
  | .ok payload => if payload.modified then .modified (Utf8.bytes payload.body) else .noContent
  | .error _ => .noContent

/-- Transforms the text of a body. -/
def transform [CardStore σ] (format : TokenFormat) (tokens : Nat → String)
    (occasions : Nat → Occasion) (store : σ) (text : String) : Transform → Exchange σ
  | .detokenize => withReply store (some (replyFor (Payload.detokenize store format text)))
  | .detokenizeHtml =>
    withReply store (some (replyFor (.ok (Payload.detokenizeHtml store format text))))
  | .tokenize =>
    match Payload.deposit format tokens occasions store text with
    | .error e => withReply store (some (replyFor (.error e)))
    | .ok (payload, ledger) => ⟨some (replyFor (.ok payload)), ledger.handed, ledger.store⟩

/-- The text of a body that is neither empty nor broken. -/
def bodyText? (body : List UInt8) : Option String :=
  if body.isEmpty then none else Utf8.text? body

/-- Responds to what was read from a stream: a request, none, or an error. -/
def respond [CardStore σ] (server : ServerSettings) (format : TokenFormat) (tokens : Nat → String)
    (occasions : Nat → Occasion) (store : σ) : Except IcapError (Option Request) → Exchange σ
  | .error e => withReply store (if e.isSilent then none else some (.failure e.status))
  | .ok none => withReply store none
  | .ok (some .options) => withReply store (some (.options server.maxConnections))
  | .ok (some (.adapt kind body)) =>
    match bodyText? body with
    | none => withReply store (some .noContent)
    | some text => transform format tokens occasions store text kind

/-- Serves the request on a stream. -/
def serve [CardStore σ] (server : ServerSettings) (format : TokenFormat) (tokens : Nat → String)
    (occasions : Nat → Occasion) (store : σ) (source : Source) : Exchange σ :=
  match Request.read? server.maxBody source with
  | none => withReply store none
  | some result => respond server format tokens occasions store result

/-- The bytes that are sent back. -/
def replyBytes (exchange : Exchange σ) : List UInt8 :=
  match exchange.reply with
  | some reply => reply.bytes
  | none => []

end Exchange

end CardGate
