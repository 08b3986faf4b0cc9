import CardGate.Icap.Source
import CardGate.Text.Blank
import CardGate.Text.Numeral

/-!
# Chunked bodies

A body of unknown length is sent in chunks: a line with the size in hexadecimal, that many bytes,
and a line end.  A chunk of size zero ends the body, followed by trailer lines up to an empty one.

`write` cuts a body into chunks of at most 16384 bytes; `read` puts the chunks together again and
refuses a body beyond a limit.
-/

namespace CardGate.Chunked

/-- The largest chunk that is written. -/
def maxChunk : Nat := 16384

/-- The bytes of a line end. -/
def lineEnd : List UInt8 := [13, 10]

/-! ## Writing -/

/-- One chunk. -/
def chunk (bytes : List UInt8) : List UInt8 :=
  Utf8.bytes (Numeral.hexCapital bytes.length) ++ lineEnd ++ bytes ++ lineEnd

/-- The chunks of a body. -/
def chunks (body : List UInt8) : List (List UInt8) :=
  (List.range ((body.length + (maxChunk - 1)) / maxChunk)).map fun i =>
    (body.drop (maxChunk * i)).take maxChunk

theorem flatten_pieces (size : Nat) (bytes : List UInt8) (n : Nat) :
    ((List.range n).map fun i => (bytes.drop (size * i)).take size).flatten =
      bytes.take (size * n) := by
  induction n with
  | zero => simp
  | succ n ih =>
    rw [List.range_succ, List.map_append, List.flatten_append, ih, Nat.mul_succ, List.take_add]
    simp

/-- The chunks of a body make up the body. -/
theorem flatten_chunks (body : List UInt8) : (chunks body).flatten = body := by
  rw [chunks, flatten_pieces]
  apply List.take_of_length_le
  have := Nat.div_add_mod (body.length + (maxChunk - 1)) maxChunk
  have := Nat.mod_lt (body.length + (maxChunk - 1)) (show 0 < maxChunk by decide)
  simp only [maxChunk] at *
  omega

/-- No chunk is empty, which would end the body, and none is too large. -/
theorem length_of_mem_chunks {body piece : List UInt8} (h : piece ∈ chunks body) :
    0 < piece.length ∧ piece.length ≤ maxChunk := by
  simp only [chunks, List.mem_map, List.mem_range] at h
  obtain ⟨i, hi, rfl⟩ := h
  have := Nat.div_mul_le_self (body.length + (maxChunk - 1)) maxChunk
  have := Nat.mul_le_mul_right maxChunk hi
  simp only [List.length_take, List.length_drop, maxChunk] at *
  omega

/-- A body in chunks, with the end of the body. -/
def write (body : List UInt8) : List UInt8 :=
  (chunks body).flatMap chunk ++ (Utf8.bytes "0" ++ lineEnd ++ lineEnd)

/-! ## Reading -/

/-- The size in the line before a chunk.  An extension after a semicolon is ignored. -/
def size? (line : String) : Option Nat :=
  Numeral.hexBelow? Numeral.sizeBound (Text.trim (line.toList.takeWhile (· ≠ ';')))

/-- Reads the chunks of a body of which `done` bytes have been read. -/
def readFrom (limit done : Nat) (s : Source) : Reading (List UInt8) :=
  match _size : s.requireLine with
  | .error e => .error e
  | .ok (line, afterLine) =>
    match size? line with
    | none => .error (.badChunkSize line)
    | some 0 =>
      match afterLine.skipBlock with
      | .error e => .error e
      | .ok rest => .ok ([], rest)
    | some size =>
      if limit < Numeral.saturatingAdd done size then .error (.bodyTooLarge limit)
      else
        match _data : afterLine.readExactly size with
        | .error e => .error e
        | .ok (data, afterData) =>
          match _end : afterData.requireLine with
          | .error e => .error e
          | .ok (_, rest) =>
            match readFrom limit (done + size) rest with
            | .error e => .error e
            | .ok (more, rest) => .ok (data ++ more, rest)
termination_by s.bytes.length
decreasing_by
  have first := Source.length_lt_of_requireLine _size
  have second := Source.length_le_of_readExactly _data
  have third := Source.length_lt_of_requireLine _end
  omega

/-- Reads a chunked body of at most `limit` bytes. -/
def read (limit : Nat) (s : Source) : Reading (List UInt8) :=
  readFrom limit 0 s

/-- Reads a body of a declared length, of at most `limit` bytes. -/
def readFixed (length limit : Nat) (s : Source) : Reading (List UInt8) :=
  if limit < length then .error (.bodyTooLarge limit) else s.readExactly length

end CardGate.Chunked
