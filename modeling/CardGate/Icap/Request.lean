import CardGate.Icap.RequestLine
import CardGate.Icap.Room

/-!
# Requests

A request is a request line, headers and, for the two methods that adapt a message, the message.
`OPTIONS` asks what the service offers.  `REQMOD` hands over a message that leaves the network, in
which tokens become card numbers.  `RESPMOD` hands over a message that comes in: a page of HTML is
shown to somebody, so its tokens become card numbers too; anything else is taken for JSON whose
card numbers become tokens.

`Request.read?` reads a request from a stream, and has no result where the program gives up.
-/

namespace CardGate

/-- What is done to a body. -/
inductive Transform where
  | tokenize
  | detokenize
  | detokenizeHtml
  deriving DecidableEq, Repr

/-- What is done to the body of a response of the given type. -/
def Transform.ofContentType (contentType : Option String) : Transform :=
  if Text.occursIn "text/html".toList (Text.lower (contentType.getD "").toList) then .detokenizeHtml
  else .tokenize

/-- What a client asks for. -/
inductive Request where
  | options
  | adapt (transform : Transform) (body : List UInt8)
  deriving DecidableEq, Repr

namespace Request

/-- Reads the message that the headers announce. -/
def readMessage (headers : IcapHeaders) (limit : Nat) (s : Source) : Except IcapError HttpMessage :=
  match headers.sections with
  | .error e => .error e
  | .ok sections =>
    match HttpMessage.read sections limit s with
    | .error e => .error e
    | .ok (message, _) => .ok message

/-- Reads what a method needs after the headers. -/
def readFor (method : String) (headers : IcapHeaders) (limit : Nat) (s : Source) :
    Except IcapError Request :=
  if method = "OPTIONS" then .ok .options
  else if method = "REQMOD" then
    match readMessage headers limit s with
    | .error e => .error e
    | .ok message => .ok (.adapt .detokenize message.body)
  else if method = "RESPMOD" then
    match readMessage headers limit s with
    | .error e => .error e
    | .ok message => .ok (.adapt (.ofContentType message.contentType?) message.body)
  else .error (.methodNotAllowed method)

/-- Reads a request with a body of at most `limit` bytes.  An empty stream holds none. -/
def read (limit : Nat) (s : Source) : Except IcapError (Option Request) :=
  match s.readLine with
  | .error e => .error e
  | .ok (none, _) => .ok none
  | .ok (some line, s) =>
    match RequestLine.ofLine line with
    | .error e => .error e
    | .ok requestLine =>
      match IcapHeaders.read s with
      | .error e => .error e
      | .ok (headers, s) => (readFor requestLine.method headers limit s).map some

/-- The room that is made while the message of a request is read. -/
def rooms (limit : Nat) (s : Source) : List Room :=
  match s.readLine with
  | .ok (some line, s) =>
    match RequestLine.ofLine line, IcapHeaders.read s with
    | .ok requestLine, .ok (headers, s) =>
      if requestLine.method = "REQMOD" ∨ requestLine.method = "RESPMOD" then
        match headers.sections with
        | .ok sections => HttpMessage.rooms sections limit s
        | .error _ => []
      else []
    | _, _ => []
  | _ => []

/-- Reads a request, unless there is no buffer for its body. -/
def read? (limit : Nat) (s : Source) : Option (Except IcapError (Option Request)) :=
  if (rooms limit s).all Room.isHeld then some (read limit s) else none

end Request

end CardGate
