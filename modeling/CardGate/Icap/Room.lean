import CardGate.Icap.Message

/-!
# Room for a body

A body is read into a buffer.  Before the bytes of a chunk, or of a body of a declared length, are
read, room for all of them is made behind the bytes that are there already.  A buffer has less than
2^63 bytes; where more room is needed the program does not report an error but gives up.

`Framing.rooms` says what room is made on the way, and `Framing.read?` and `HttpMessage.read?` are
the readers with giving up as an outcome of their own.  That the memory for a buffer can run out is
left aside.
-/

namespace CardGate

/-- Room for `size` bytes that is made behind the first `start` bytes of a body. -/
structure Room where
  start : Nat
  size : Nat
  deriving DecidableEq, Repr

namespace Room

/-- How long the body is when the room is filled. -/
def stop (room : Room) : Nat :=
  room.start + room.size

/-- The longest buffer, for which half of the words is left. -/
def maxBuffer : Nat := Numeral.sizeBound / 2 - 1

/-- Whether there is a buffer with such room. -/
def isHeld (room : Room) : Bool :=
  room.stop ≤ maxBuffer

end Room

/-- The room that is made for the chunks of a body of which `done` bytes have been read. -/
def Chunked.roomsFrom (limit done : Nat) (s : Source) : List Room :=
  match _size : s.requireLine with
  | .error _ => []
  | .ok (line, afterLine) =>
    match size? line with
    | none => []
    | some 0 => []
    | some size =>
      if limit < Numeral.saturatingAdd done size then []
      else
        match _data : afterLine.readExactly size with
        | .error _ => [⟨done, size⟩]
        | .ok (_, afterData) =>
          match _end : afterData.requireLine with
          | .error _ => [⟨done, size⟩]
          | .ok (_, rest) => ⟨done, size⟩ :: roomsFrom limit (done + size) rest
termination_by s.bytes.length
decreasing_by
  have first := Source.length_lt_of_requireLine _size
  have second := Source.length_le_of_readExactly _data
  have third := Source.length_lt_of_requireLine _end
  omega

/-- How a body is framed: in chunks, or by its length. -/
inductive Framing where
  | chunked
  | declared (length : Nat)
  deriving DecidableEq, Repr

namespace Framing

/-- Reads a body. -/
def read (framing : Framing) (limit : Nat) (s : Source) : Reading (List UInt8) :=
  match framing with
  | chunked => Chunked.read limit s
  | declared length => Chunked.readFixed length limit s

/-- The room that is made while a body is read. -/
def rooms (framing : Framing) (limit : Nat) (s : Source) : List Room :=
  match framing with
  | chunked => Chunked.roomsFrom limit 0 s
  | declared length => if limit < length then [] else [⟨0, length⟩]

/-- Reads a body, unless there is no buffer for it. -/
def read? (framing : Framing) (limit : Nat) (s : Source) : Option (Reading (List UInt8)) :=
  if (framing.rooms limit s).all Room.isHeld then some (framing.read limit s) else none

end Framing

/-- How a head frames the body.  There is nothing to be read of an empty one. -/
def HttpHead.framing? (head : HttpHead) : Option Framing :=
  if head.isChunked then some .chunked
  else
    match head.contentLength? with
    | none => none
    | some 0 => none
    | some length => some (.declared length)

namespace HttpMessage

/-- The room that is made while the sections of a message are read. -/
def rooms (sections : Sections) (limit : Nat) (s : Source) : List Room :=
  match readHead sections.requestHead s with
  | .error _ => []
  | .ok (requestHead, s) =>
    match readHead sections.responseHead s with
    | .error _ => []
    | .ok (responseHead, s) =>
      if sections.hasBody then
        match (responseHead.or requestHead).bind HttpHead.framing? with
        | none => []
        | some framing => framing.rooms limit s
      else []

/-- Reads a message, unless there is no buffer for its body. -/
def read? (sections : Sections) (limit : Nat) (s : Source) : Option (Reading HttpMessage) :=
  if (rooms sections limit s).all Room.isHeld then some (read sections limit s) else none

end HttpMessage

end CardGate
