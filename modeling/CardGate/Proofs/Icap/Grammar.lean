import CardGate.Icap.Message
import CardGate.Proofs.Icap.Lines

/-!
# The grammar of messages

What the readers of a message accept, again said without them: a head is a line and a block, a
chunked body is a row of chunks, and a message is the sections that are announced, one after the
other.

`HttpMessage.read_eq_ok_iff` says that the message at the front of a stream is read and no other,
and `HttpMessage.isFraming_of_read` that a stream without one is reported as a bad request.
-/

namespace CardGate

/-! ## Heads -/

/-- A head at the front of a stream, and the stream after it. -/
def Source.HasHead (s : Source) (head : HttpHead) (rest : Source) : Prop :=
  ∃ next, s.HasLine head.startLine next ∧ next.Block head.headerLines rest

theorem HttpHead.read_eq_ok_iff {s rest : Source} {head : HttpHead} :
    HttpHead.read s = .ok (head, rest) ↔ s.HasHead head rest := by
  constructor
  · fun_cases HttpHead.read s with
    | case3 startLine next hline headerLines after hblock =>
      rintro ⟨⟩
      exact ⟨next, Source.requireLine_eq_ok_iff.1 hline, Source.readBlock_eq_ok_iff.1 hblock⟩
    | _ => nofun
  · rintro ⟨next, hline, hblock⟩
    rw [HttpHead.read, Source.requireLine_eq_ok_iff.2 hline]
    simp only [Source.readBlock_eq_ok_iff.2 hblock]

theorem HttpHead.isFraming_of_read {s : Source} {e : IcapError}
    (h : HttpHead.read s = .error e) : e.IsFraming := by
  revert h
  fun_cases HttpHead.read s with
  | case1 e' hline =>
    rintro ⟨⟩
    exact Source.isFraming_of_requireLine hline
  | case2 startLine next hline e' hblock =>
    rintro ⟨⟩
    exact Source.isFraming_of_readBlock hblock
  | case3 => nofun

/-- A head, if it is announced, and the stream after it. -/
inductive Source.HeadSection : Bool → Source → Option HttpHead → Source → Prop
  | present {s rest : Source} {head : HttpHead} (stands : s.HasHead head rest) :
      HeadSection true s (some head) rest
  | absent {s : Source} : HeadSection false s none s

theorem HttpMessage.readHead_eq_ok_iff {announced : Bool} {s rest : Source}
    {head : Option HttpHead} :
    readHead announced s = .ok (head, rest) ↔ Source.HeadSection announced s head rest := by
  constructor
  · fun_cases readHead announced s with
    | case1 => nofun
    | case2 hannounced head' next hhead =>
      rintro ⟨⟩
      cases hannounced
      exact .present (HttpHead.read_eq_ok_iff.1 hhead)
    | case3 hannounced =>
      rintro ⟨⟩
      cases Bool.not_eq_true announced ▸ hannounced
      exact .absent
  · intro h
    cases h with
    | present stands =>
      rw [readHead, if_pos rfl, HttpHead.read_eq_ok_iff.2 stands]
    | absent => rfl

theorem HttpMessage.isFraming_of_readHead {announced : Bool} {s : Source} {e : IcapError}
    (h : readHead announced s = .error e) : e.IsFraming := by
  revert h
  fun_cases readHead announced s with
  | case1 hannounced e' hhead =>
    rintro ⟨⟩
    exact HttpHead.isFraming_of_read hhead
  | case2 | case3 => nofun

/-! ## Chunks -/

/-- Given bytes at the front of a stream, and the stream after them. -/
def Source.HasBytes (s : Source) (bytes : List UInt8) (rest : Source) : Prop :=
  s = ⟨bytes ++ rest.bytes, rest.ending⟩

/-- One chunk, with the line that says its size and the line end after it. -/
def Source.HasChunk (s : Source) (data : List UInt8) (rest : Source) : Prop :=
  ∃ line afterLine afterData junk, s.HasLine line afterLine ∧
    Chunked.size? line = some data.length ∧ data ≠ [] ∧
      afterLine.HasBytes data afterData ∧ afterData.HasLine junk rest

/-- The end of a chunked body: a chunk of size zero and the trailer. -/
def Source.HasLastChunk (s rest : Source) : Prop :=
  ∃ line next, s.HasLine line next ∧ Chunked.size? line = some 0 ∧ next.Trailer rest

/-- The chunks of a body of which `done` bytes came before, and the stream after them. -/
inductive Source.Chunks (limit : Nat) : Nat → Source → List UInt8 → Source → Prop
  | last {done : Nat} {s rest : Source} (stands : s.HasLastChunk rest) : Chunks limit done s [] rest
  | more {done : Nat} {s next rest : Source} {data body : List UInt8} (first : s.HasChunk data next)
      (fits : Numeral.saturatingAdd done data.length ≤ limit)
      (others : Chunks limit (done + data.length) next body rest) :
      Chunks limit done s (data ++ body) rest

namespace Chunked

open Source

/-- Reads the next chunk, or nothing at the end of the body. -/
def nextChunk (limit done : Nat) (s : Source) : Reading (Option (List UInt8)) :=
  match s.requireLine with
  | .error e => .error e
  | .ok (line, afterLine) =>
    match size? line with
    | none => .error (.badChunkSize line)
    | some 0 =>
      match afterLine.skipBlock with
      | .error e => .error e
      | .ok rest => .ok (none, rest)
    | some size =>
      if limit < Numeral.saturatingAdd done size then .error (.bodyTooLarge limit)
      else
        match afterLine.readExactly size with
        | .error e => .error e
        | .ok (data, afterData) =>
          match afterData.requireLine with
          | .error e => .error e
          | .ok (_, rest) => .ok (some data, rest)

/-- A chunked body is read chunk by chunk. -/
theorem readFrom_eq (limit done : Nat) (s : Source) :
    readFrom limit done s =
      match nextChunk limit done s with
      | .error e => .error e
      | .ok (none, rest) => .ok ([], rest)
      | .ok (some data, rest) =>
        match readFrom limit (done + data.length) rest with
        | .error e => .error e
        | .ok (body, rest) => .ok (data ++ body, rest) := by
  fun_cases readFrom limit done s with
  | case1 e hline => simp only [nextChunk, hline]
  | case2 line next hline hsize => simp only [nextChunk, hline, hsize]
  | case3 line next hline hsize e htrailer => simp only [nextChunk, hline, hsize, htrailer]
  | case4 line next hline hsize rest htrailer => simp only [nextChunk, hline, hsize, htrailer]
  | case5 line next hline size hzero hsize hlarge =>
    simp only [nextChunk, hline, hsize, if_pos hlarge]
  | case6 line next hline size hzero hsize hfits e hdata =>
    simp only [nextChunk, hline, hsize, if_neg hfits, hdata]
  | case7 line next hline size hzero hsize hfits data after hdata e hend =>
    simp only [nextChunk, hline, hsize, if_neg hfits, hdata, hend]
  | case8 line next hline size hzero hsize hfits data after hdata junk rest hend e hmore =>
    have hlength : data.length = size := (readExactly_eq_ok_iff.1 hdata).1
    simp only [nextChunk, hline, hsize, if_neg hfits, hdata, hend, hlength, hmore]
  | case9 line next hline size hzero hsize hfits data after hdata junk rest hend more last hmore =>
    have hlength : data.length = size := (readExactly_eq_ok_iff.1 hdata).1
    simp only [nextChunk, hline, hsize, if_neg hfits, hdata, hend, hlength, hmore]

/-- A size is compared with the limit, and then as many bytes are read and the line end behind
them. -/
theorem nextChunk_of_size {limit done size : Nat} {s next : Source} {line : String}
    (hline : s.HasLine line next) (hsize : size? line = some size) (positive : 0 < size) :
    nextChunk limit done s =
      if limit < Numeral.saturatingAdd done size then .error (.bodyTooLarge limit)
      else
        match next.readExactly size with
        | .error e => .error e
        | .ok (data, afterData) =>
          match afterData.requireLine with
          | .error e => .error e
          | .ok (_, rest) => .ok (some data, rest) := by
  have hread := requireLine_eq_ok_iff.2 hline
  fun_cases nextChunk limit done s <;> grind

/-- A chunk at the front of a stream is read, or refused for the limit before its data. -/
theorem nextChunk_of_hasChunk {limit done : Nat} {s rest : Source} {data : List UInt8}
    (h : s.HasChunk data rest) :
    nextChunk limit done s =
      if limit < Numeral.saturatingAdd done data.length then .error (.bodyTooLarge limit)
      else .ok (some data, rest) := by
  obtain ⟨line, afterLine, afterData, junk, hline, hsize, hnonempty, hbytes, hend⟩ := h
  have hdata : afterLine.readExactly data.length = .ok (data, afterData) :=
    readExactly_eq_ok_iff.2 ⟨rfl, hbytes⟩
  rw [nextChunk_of_size hline hsize (List.length_pos_iff.2 hnonempty), hdata]
  simp only [requireLine_eq_ok_iff.2 hend]

/-- What a chunk at the front of a stream does to the rest of the body. -/
theorem readFrom_of_hasChunk {limit done : Nat} {s rest : Source} {data : List UInt8}
    (h : s.HasChunk data rest) :
    readFrom limit done s =
      if limit < Numeral.saturatingAdd done data.length then .error (.bodyTooLarge limit)
      else
        match readFrom limit (done + data.length) rest with
        | .error e => .error e
        | .ok (body, rest) => .ok (data ++ body, rest) := by
  rw [readFrom_eq, nextChunk_of_hasChunk h]
  by_cases hlarge : limit < Numeral.saturatingAdd done data.length
  · rw [if_pos hlarge, if_pos hlarge]
  · rw [if_neg hlarge, if_neg hlarge]

theorem nextChunk_eq_some_iff {limit done : Nat} {s rest : Source} {data : List UInt8} :
    nextChunk limit done s = .ok (some data, rest) ↔
      s.HasChunk data rest ∧ Numeral.saturatingAdd done data.length ≤ limit := by
  constructor
  · fun_cases nextChunk limit done s with
    | case8 line afterLine hline size hzero hsize hfits data' afterData hdata junk rest' hend =>
      rintro ⟨⟩
      obtain ⟨rfl, hbytes⟩ := readExactly_eq_ok_iff.1 hdata
      have hnonempty : data ≠ [] := fun hnil => hzero (by rw [hnil, List.length_nil])
      exact ⟨⟨line, afterLine, afterData, junk, requireLine_eq_ok_iff.1 hline, hsize,
        hnonempty, hbytes, requireLine_eq_ok_iff.1 hend⟩, Nat.not_lt.1 hfits⟩
    | _ => nofun
  · rintro ⟨hchunk, hfits⟩
    rw [nextChunk_of_hasChunk hchunk, if_neg (Nat.not_lt.2 hfits)]

theorem nextChunk_eq_none_iff {limit done : Nat} {s rest : Source} :
    nextChunk limit done s = .ok (none, rest) ↔ s.HasLastChunk rest := by
  constructor
  · fun_cases nextChunk limit done s with
    | case4 line afterLine hline hsize rest' htrailer =>
      rintro ⟨⟩
      exact ⟨line, afterLine, requireLine_eq_ok_iff.1 hline, hsize,
        skipBlock_eq_ok_iff.1 htrailer⟩
    | _ => nofun
  · rintro ⟨line, afterLine, hline, hsize, htrailer⟩
    rw [nextChunk, requireLine_eq_ok_iff.2 hline]
    simp only [hsize, skipBlock_eq_ok_iff.2 htrailer]

theorem isFraming_of_nextChunk {limit done : Nat} {s : Source} {e : IcapError} :
    nextChunk limit done s = .error e → e.IsFraming := by
  fun_cases nextChunk limit done s with
  | case1 e' hline =>
    rintro ⟨⟩
    exact isFraming_of_requireLine hline
  | case2 line afterLine hline hsize =>
    rintro ⟨⟩
    exact ⟨rfl, rfl⟩
  | case3 line afterLine hline hsize e' htrailer =>
    rintro ⟨⟩
    exact isFraming_of_skipBlock htrailer
  | case5 line afterLine hline size hzero hsize hlarge =>
    rintro ⟨⟩
    exact ⟨rfl, rfl⟩
  | case6 line afterLine hline size hzero hsize hfits e' hdata =>
    rintro ⟨⟩
    exact isFraming_of_readExactly hdata
  | case7 line afterLine hline size hzero hsize hfits data afterData hdata e' hend =>
    rintro ⟨⟩
    exact isFraming_of_requireLine hend
  | case4 | case8 => nofun

/-- A chunk takes at least one byte, which is why the induction on the stream ends. -/
theorem length_lt_of_nextChunk {limit done : Nat} {s rest : Source} {data : List UInt8}
    (h : nextChunk limit done s = .ok (some data, rest)) : rest.bytes.length < s.bytes.length := by
  obtain ⟨⟨line, afterLine, afterData, junk, hline, -, -, hbytes, hend⟩, -⟩ :=
    nextChunk_eq_some_iff.1 h
  have hfirst := length_lt_of_requireLine (requireLine_eq_ok_iff.2 hline)
  have hsecond := length_le_of_readExactly (readExactly_eq_ok_iff.2 ⟨rfl, hbytes⟩)
  have hthird := length_lt_of_requireLine (requireLine_eq_ok_iff.2 hend)
  omega

theorem readFrom_eq_ok_iff {limit done : Nat} {s rest : Source} {body : List UInt8} :
    readFrom limit done s = .ok (body, rest) ↔ s.Chunks limit done body rest := by
  constructor
  · intro h
    induction hn : s.bytes.length using Nat.strongRecOn generalizing s done body with
    | ind n ih =>
      subst hn
      rw [readFrom_eq] at h
      split at h
      · cases h
      · next hchunk =>
        cases h
        exact .last (nextChunk_eq_none_iff.1 hchunk)
      · next hchunk =>
        split at h
        · cases h
        · next hmore =>
          cases h
          obtain ⟨hfirst, hfits⟩ := nextChunk_eq_some_iff.1 hchunk
          exact .more hfirst hfits (ih _ (length_lt_of_nextChunk hchunk) hmore rfl)
  · intro h
    induction h with
    | last stands => rw [readFrom_eq, nextChunk_eq_none_iff.2 stands]
    | more first fits others ih =>
      rw [readFrom_eq, nextChunk_eq_some_iff.2 ⟨first, fits⟩]
      simp only [ih]

theorem isFraming_of_readFrom {limit done : Nat} {s : Source} {e : IcapError}
    (h : readFrom limit done s = .error e) : e.IsFraming := by
  induction hn : s.bytes.length using Nat.strongRecOn generalizing s done with
  | ind n ih =>
    subst hn
    rw [readFrom_eq] at h
    split at h
    · next hchunk =>
      cases h
      exact isFraming_of_nextChunk hchunk
    · cases h
    · next hchunk =>
      split at h
      · next hmore =>
        cases h
        exact ih _ (length_lt_of_nextChunk hchunk) hmore rfl
      · cases h

theorem readFixed_eq_ok_iff {length limit : Nat} {s rest : Source} {body : List UInt8} :
    readFixed length limit s = .ok (body, rest) ↔
      length ≤ limit ∧ body.length = length ∧ s.HasBytes body rest := by
  rw [readFixed]
  split
  · next hlarge => exact iff_of_false nofun fun h => Nat.not_le.2 hlarge h.1
  · next hfits =>
    rw [readExactly_eq_ok_iff]
    exact (and_iff_right (Nat.not_lt.1 hfits)).symm

theorem isFraming_of_readFixed {length limit : Nat} {s : Source} {e : IcapError}
    (h : readFixed length limit s = .error e) : e.IsFraming := by
  revert h
  fun_cases readFixed length limit s with
  | case1 =>
    rintro ⟨⟩
    exact ⟨rfl, rfl⟩
  | case2 => exact isFraming_of_readExactly

end Chunked

/-! ## Bodies -/

/-- The body that a head frames, and the stream after it. -/
inductive Source.Body (limit : Nat) : Option HttpHead → Source → List UInt8 → Source → Prop
  | unframed {s : Source} : Body limit none s [] s
  | chunked {head : HttpHead} {s rest : Source} {body : List UInt8} (chunked : head.isChunked = true)
      (stands : s.Chunks limit 0 body rest) : Body limit (some head) s body rest
  | undeclared {head : HttpHead} {s : Source} (raw : head.isChunked = false)
      (length : head.contentLength? = none) : Body limit (some head) s [] s
  | declared {head : HttpHead} {s rest : Source} {body : List UInt8} (raw : head.isChunked = false)
      (length : head.contentLength? = some body.length) (fits : body.length ≤ limit)
      (stands : s.HasBytes body rest) : Body limit (some head) s body rest

/-- A body, if it is announced, and the stream after it. -/
inductive Source.BodySection (limit : Nat) (head : Option HttpHead) :
    Bool → Source → List UInt8 → Source → Prop
  | present {s rest : Source} {body : List UInt8} (stands : s.Body limit head body rest) :
      BodySection limit head true s body rest
  | absent {s : Source} : BodySection limit head false s [] s

namespace HttpMessage

open Source

theorem readBody_eq_ok_iff {head : Option HttpHead} {limit : Nat} {s rest : Source}
    {body : List UInt8} :
    readBody head limit s = .ok (body, rest) ↔ s.Body limit head body rest := by
  constructor
  · fun_cases readBody head limit s with
    | case1 =>
      rintro ⟨⟩
      exact .unframed
    | case2 head hchunked =>
      intro h
      exact .chunked hchunked (Chunked.readFrom_eq_ok_iff.1 h)
    | case3 head hraw hlength =>
      rintro ⟨⟩
      exact .undeclared (Bool.not_eq_true _ ▸ hraw) hlength
    | case4 head hraw length hlength =>
      intro h
      obtain ⟨hfits, rfl, hbytes⟩ := Chunked.readFixed_eq_ok_iff.1 h
      exact .declared (Bool.not_eq_true _ ▸ hraw) hlength hfits hbytes
  · intro h
    cases h with
    | unframed => rfl
    | chunked chunked stands =>
      rw [readBody]
      simp only [chunked, if_true]
      exact Chunked.readFrom_eq_ok_iff.2 stands
    | undeclared raw length =>
      simp only [readBody, raw, length]
      rfl
    | declared raw length fits stands =>
      simp only [readBody, raw, length]
      exact Chunked.readFixed_eq_ok_iff.2 ⟨fits, rfl, stands⟩

theorem isFraming_of_readBody {head : Option HttpHead} {limit : Nat} {s : Source} {e : IcapError}
    (h : readBody head limit s = .error e) : e.IsFraming := by
  revert h
  fun_cases readBody head limit s with
  | case1 | case3 => nofun
  | case2 => exact Chunked.isFraming_of_readFrom
  | case4 => exact Chunked.isFraming_of_readFixed

end HttpMessage

/-! ## Messages -/

/-- The announced sections of a message at the front of a stream, and the stream after them. -/
inductive Source.Message (sections : Sections) (limit : Nat) : Source → HttpMessage → Source → Prop
  | intro {s afterRequest afterResponse rest : Source} {requestHead responseHead : Option HttpHead}
      {body : List UInt8}
      (request : HeadSection sections.requestHead s requestHead afterRequest)
      (response : HeadSection sections.responseHead afterRequest responseHead afterResponse)
      (framed : BodySection limit (responseHead.or requestHead) sections.hasBody afterResponse body
        rest) :
      Message sections limit s ⟨requestHead, responseHead, body⟩ rest

namespace HttpMessage

open Source

theorem read_eq_ok_iff {sections : Sections} {limit : Nat} {s rest : Source}
    {message : HttpMessage} :
    HttpMessage.read sections limit s = .ok (message, rest) ↔
      s.Message sections limit message rest := by
  constructor
  · fun_cases HttpMessage.read sections limit s with
    | case1 | case2 | case3 => nofun
    | case4 request afterRequest hrequest response afterResponse hresponse hbody body last hread =>
      rintro ⟨⟩
      exact .intro (readHead_eq_ok_iff.1 hrequest) (readHead_eq_ok_iff.1 hresponse)
        (hbody ▸ .present (readBody_eq_ok_iff.1 hread))
    | case5 request afterRequest hrequest response afterResponse hresponse hbody =>
      rintro ⟨⟩
      exact .intro (readHead_eq_ok_iff.1 hrequest) (readHead_eq_ok_iff.1 hresponse)
        (Bool.eq_false_iff.2 hbody ▸ .absent)
  · rintro ⟨request, response, framed⟩
    rw [HttpMessage.read, readHead_eq_ok_iff.2 request]
    dsimp only
    rw [readHead_eq_ok_iff.2 response]
    dsimp only
    generalize sections.hasBody = announced at framed ⊢
    cases framed with
    | present stands => simp only [if_true, readBody_eq_ok_iff.2 stands]
    | absent => rfl

theorem isFraming_of_read {sections : Sections} {limit : Nat} {s : Source} {e : IcapError}
    (h : HttpMessage.read sections limit s = .error e) : e.IsFraming := by
  revert h
  fun_cases HttpMessage.read sections limit s with
  | case1 e' hrequest =>
    rintro ⟨⟩
    exact isFraming_of_readHead hrequest
  | case2 request afterRequest hrequest e' hresponse =>
    rintro ⟨⟩
    exact isFraming_of_readHead hresponse
  | case3 request afterRequest hrequest response afterResponse hresponse hbody e' hread =>
    rintro ⟨⟩
    exact isFraming_of_readBody hread
  | case4 | case5 => nofun

end HttpMessage

end CardGate
