import CardGate.Icap.Chunked
import CardGate.Status

/-!
# Replies

There are five replies: what the service offers, that the message stays as it is, that the request
failed, and a message with a new body.  Every reply is put together before anything is sent, so a
client never sees part of one.

A new body travels as an HTTP response of its own, in chunks.  The header before it says at which
byte of the encapsulated part the body begins.
-/

namespace CardGate

/-- What the server answers. -/
inductive Reply where
  /-- The service and the number of connections it takes. -/
  | options (maxConnections : Nat)
  /-- The message is to be used as it is. -/
  | noContent
  /-- The request failed. -/
  | failure (status : Status)
  /-- The message with a new body. -/
  | modified (body : List UInt8)
  deriving DecidableEq, Repr

namespace Reply

/-- The tag of the service, which changes whenever its behaviour does. -/
def serviceTag : String := "\"tokenizer-1.0\""

/-- Lines with their ends, followed by an empty line. -/
def block (lines : List String) : List UInt8 :=
  (lines ++ [""]).flatMap fun line => Utf8.bytes line ++ Chunked.lineEnd

/-- The head of the HTTP response around a new body. -/
def httpHead (bodyLength : Nat) : List UInt8 :=
  block ["HTTP/1.1 200 OK", s!"Content-Length: {bodyLength}", "Content-Type: application/json"]

/-- The bytes of a reply. -/
def bytes : Reply → List UInt8
  | options maxConnections =>
    block ["ICAP/1.0 200 OK",
      "Methods: REQMOD, RESPMOD",
      "Service: Card Tokenization ICAP Service",
      s!"ISTag: {serviceTag}",
      s!"Max-Connections: {maxConnections}",
      "Options-TTL: 3600",
      "Allow: 204",
      "Preview: 0",
      "Transfer-Complete: *",
      "Encapsulated: null-body=0"]
  | noContent =>
    block ["ICAP/1.0 204 No Content", s!"ISTag: {serviceTag}", "Encapsulated: null-body=0"]
  | failure status => block [s!"ICAP/1.0 {status.line}", "Encapsulated: null-body=0"]
  | modified body =>
    let head := httpHead body.length
    block ["ICAP/1.0 200 OK", s!"ISTag: {serviceTag}",
      s!"Encapsulated: res-hdr=0, res-body={head.length}"] ++ head ++ Chunked.write body

end Reply

end CardGate
