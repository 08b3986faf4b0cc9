import CardGate.Proofs.Icap.Grammar
import Mathlib.Control.Monad.Basic

/-!
# The limit of a body

The limit is passed to the reader of a body and compared with the sizes that it reads, for chunks
with their sum so far.  It decides about nothing else: a message that is read under one limit is
read under another one with the same body and the same rest of the stream, or its body is beyond
the other limit and it is refused as too large, also if much of it has been read by then
(`HttpMessage.read_limit`).

The sum of the chunks is a 64-bit word and saturates, so the statements are about bodies whose
length is such a word.
-/

namespace CardGate

open Source

/-! ## Chunks -/

namespace Chunked

/-- The bytes of a body that is read in chunks are within the limit. -/
theorem length_le_of_chunks {limit done : Nat} {s rest : Source} {body : List UInt8}
    (h : s.Chunks limit done body rest) (sized : done + body.length < Numeral.sizeBound)
    (fits : done ≤ limit) : done + body.length ≤ limit := by
  induction h with
  | last => exact fits
  | @more done s next rest data body first hfirst others ih =>
    rw [List.length_append, ← Nat.add_assoc] at sized ⊢
    rw [Numeral.saturatingAdd_of_lt (by omega)] at hfirst
    exact ih sized hfirst

/-- Chunks that are read under one limit are read under another, or refused at the first chunk that
goes beyond it. -/
theorem readFrom_of_chunks {limit other done : Nat} {s rest : Source} {body : List UInt8}
    (h : s.Chunks limit done body rest) (sized : done + body.length < Numeral.sizeBound)
    (fits : done ≤ other) :
    readFrom other done s =
      if done + body.length ≤ other then .ok (body, rest) else .error (.bodyTooLarge other) := by
  induction h with
  | last stands =>
    rw [readFrom_eq, nextChunk_eq_none_iff.2 stands]
    exact (if_pos fits).symm
  | @more done s next rest data body first _ others ih =>
    rw [List.length_append, ← Nat.add_assoc] at sized ⊢
    have hsum : Numeral.saturatingAdd done data.length = done + data.length :=
      Numeral.saturatingAdd_of_lt (by omega)
    rw [readFrom_of_hasChunk first, hsum]
    by_cases hlarge : other < done + data.length
    · have hbeyond : ¬done + data.length + body.length ≤ other := by omega
      rw [if_pos hlarge, if_neg hbeyond]
    · rw [if_neg hlarge, ih sized (Nat.not_lt.1 hlarge)]
      by_cases hfits : done + data.length + body.length ≤ other
      · rw [if_pos hfits, if_pos hfits]
      · rw [if_neg hfits, if_neg hfits]

/-- A body of a declared length is read under another limit, or refused before any of it is
read. -/
theorem readFixed_of_hasBytes {other : Nat} {s rest : Source} {body : List UInt8}
    (h : s.HasBytes body rest) :
    readFixed body.length other s =
      if body.length ≤ other then .ok (body, rest) else .error (.bodyTooLarge other) := by
  split
  · next hfits => exact readFixed_eq_ok_iff.2 ⟨hfits, rfl, h⟩
  · next hlarge => rw [readFixed, if_pos (Nat.not_le.1 hlarge)]

end Chunked

/-! ## Messages -/

namespace HttpMessage

/-- The body that a head frames is within the limit, whichever way it is framed. -/
theorem length_le_of_body {head : Option HttpHead} {limit : Nat} {s rest : Source}
    {body : List UInt8} (h : s.Body limit head body rest)
    (sized : body.length < Numeral.sizeBound) : body.length ≤ limit := by
  cases h with
  | unframed | undeclared => exact Nat.zero_le limit
  | chunked _ stands =>
    have hlength := Chunked.length_le_of_chunks stands (by omega) (Nat.zero_le limit)
    omega
  | declared _ _ fits _ => exact fits

/-- The body that a head frames is read under another limit, or refused as too large. -/
theorem readBody_of_body {head : Option HttpHead} {limit other : Nat} {s rest : Source}
    {body : List UInt8} (h : s.Body limit head body rest)
    (sized : body.length < Numeral.sizeBound) :
    readBody head other s =
      if body.length ≤ other then .ok (body, rest) else .error (.bodyTooLarge other) := by
  cases h with
  | unframed => rfl
  | undeclared raw length => simp [readBody, raw, length]
  | chunked chunked stands =>
    have hread := Chunked.readFrom_of_chunks stands (by omega) (Nat.zero_le other)
    rw [Nat.zero_add] at hread
    simp only [readBody, chunked, if_true, Chunked.read, hread]
  | declared raw length _ stands =>
    simp only [readBody, raw, length]
    exact Chunked.readFixed_of_hasBytes stands

/-- The limit decides whether a body is too large and nothing else.  A message that is read under
one limit is within it, and under every other limit it is either the same message with the same
rest of the stream, or too large. -/
theorem read_limit {sections : Sections} {limit : Nat} {s rest : Source} {message : HttpMessage}
    (returned : HttpMessage.read sections limit s = .ok (message, rest))
    (sized : message.body.length < Numeral.sizeBound) (other : Nat) :
    message.body.length ≤ limit ∧
      HttpMessage.read sections other s =
        if message.body.length ≤ other then .ok (message, rest)
        else .error (.bodyTooLarge other) := by
  obtain ⟨requestHead, responseHead, body⟩ := message
  obtain ⟨request, response, framed⟩ := read_eq_ok_iff.1 returned
  rw [HttpMessage.read, readHead_eq_ok_iff.2 request]
  dsimp only
  rw [readHead_eq_ok_iff.2 response]
  dsimp only
  generalize sections.hasBody = announced at framed ⊢
  cases framed with
  | present stands =>
    have hread := @readBody_of_body _ _ other _ _ _ stands sized
    refine ⟨length_le_of_body stands sized, ?_⟩
    rw [if_pos rfl, hread]
    by_cases hfits : body.length ≤ other
    · rw [if_pos hfits, if_pos hfits]
    · rw [if_neg hfits, if_neg hfits]
  | absent => exact ⟨Nat.zero_le limit, rfl⟩

/-- A message whose body comes in two chunks, with a byte behind it. -/
def sampleChunked : Source :=
  ⟨Utf8.bytes "HTTP/1.1 200 OK\nTransfer-Encoding: chunked\n\n2\r\nab\r\n1\r\nc\r\n0\r\n\r\n!", .reset⟩

/-- A message whose body has a declared length, with a byte behind it. -/
def sampleFixed : Source :=
  ⟨Utf8.bytes "HTTP/1.1 200 OK\nContent-Length: 3\n\nabc!", .reset⟩

theorem read_limit_sample :
    (HttpMessage.read (Sections.ofValue "res-hdr=0, res-body=44") 1000 sampleChunked = .ok
        (⟨none, some ⟨"HTTP/1.1 200 OK", ["Transfer-Encoding: chunked"]⟩, Utf8.bytes "abc"⟩,
          ⟨[33], .reset⟩) ∧
      HttpMessage.read (Sections.ofValue "res-hdr=0, res-body=44") 3 sampleChunked = .ok
        (⟨none, some ⟨"HTTP/1.1 200 OK", ["Transfer-Encoding: chunked"]⟩, Utf8.bytes "abc"⟩,
          ⟨[33], .reset⟩) ∧
      HttpMessage.read (Sections.ofValue "res-hdr=0, res-body=44") 2 sampleChunked =
        .error (.bodyTooLarge 2)) ∧
    HttpMessage.read (Sections.ofValue "res-hdr=0, res-body=35") 3 sampleFixed = .ok
      (⟨none, some ⟨"HTTP/1.1 200 OK", ["Content-Length: 3"]⟩, Utf8.bytes "abc"⟩,
        ⟨[33], .reset⟩) ∧
    HttpMessage.read (Sections.ofValue "res-hdr=0, res-body=35") 2 sampleFixed =
      .error (.bodyTooLarge 2) := by
  have hchunked : HttpMessage.read (Sections.ofValue "res-hdr=0, res-body=44") 1000 sampleChunked =
      .ok (⟨none, some ⟨"HTTP/1.1 200 OK", ["Transfer-Encoding: chunked"]⟩, Utf8.bytes "abc"⟩,
        ⟨[33], .reset⟩) := by
    decide +kernel
  have hfixed : HttpMessage.read (Sections.ofValue "res-hdr=0, res-body=35") 3 sampleFixed =
      .ok (⟨none, some ⟨"HTTP/1.1 200 OK", ["Content-Length: 3"]⟩, Utf8.bytes "abc"⟩,
        ⟨[33], .reset⟩) := by
    decide +kernel
  have hsized : (Utf8.bytes "abc").length < Numeral.sizeBound := by decide
  exact ⟨⟨hchunked, (read_limit hchunked hsized 3).2, (read_limit hchunked hsized 2).2⟩,
    hfixed, (read_limit hfixed hsized 2).2⟩

end HttpMessage

end CardGate
