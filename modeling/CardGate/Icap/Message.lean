import CardGate.Icap.Chunked
import CardGate.Icap.Headers
import CardGate.Icap.HttpHead

/-!
# Encapsulated messages

A request carries an HTTP message in sections: the head of the HTTP request, the head of the
response, and a body.  The last head that is there says how the body is framed: in chunks, or by a
declared length; without either it is empty.
-/

namespace CardGate

/-- The HTTP message of a request. -/
structure HttpMessage where
  requestHead : Option HttpHead
  responseHead : Option HttpHead
  body : List UInt8
  deriving DecidableEq, Repr

namespace HttpMessage

/-- The type of the body, from the response if it says so and else from the request. -/
def contentType? (message : HttpMessage) : Option String :=
  (message.responseHead.bind HttpHead.contentType?).or
    (message.requestHead.bind HttpHead.contentType?)

/-- Reads a head if it is announced. -/
def readHead (announced : Bool) (s : Source) : Reading (Option HttpHead) :=
  if announced then
    match HttpHead.read s with
    | .error e => .error e
    | .ok (head, rest) => .ok (some head, rest)
  else .ok (none, s)

/-- Reads the body that a head frames. -/
def readBody (head : Option HttpHead) (limit : Nat) (s : Source) : Reading (List UInt8) :=
  match head with
  | none => .ok ([], s)
  | some head =>
    if head.isChunked then Chunked.read limit s
    else
      match head.contentLength? with
      | none => .ok ([], s)
      | some length => Chunked.readFixed length limit s

/-- Reads the sections that are announced. -/
def read (sections : Sections) (limit : Nat) (s : Source) : Reading HttpMessage :=
  match readHead sections.requestHead s with
  | .error e => .error e
  | .ok (requestHead, s) =>
    match readHead sections.responseHead s with
    | .error e => .error e
    | .ok (responseHead, s) =>
      if sections.hasBody then
        match readBody (responseHead.or requestHead) limit s with
        | .error e => .error e
        | .ok (body, s) => .ok (⟨requestHead, responseHead, body⟩, s)
      else .ok (⟨requestHead, responseHead, []⟩, s)

end HttpMessage

end CardGate
