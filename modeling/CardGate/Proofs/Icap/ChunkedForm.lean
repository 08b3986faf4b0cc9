import CardGate.Proofs.Icap.Grammar
import CardGate.Proofs.Icap.SizeLine

/-!
# Chunked bodies by their bytes

What is read as a chunked body is more than what chunked bodies should be.  `ChunkForm` and
`BodyEnd` say what stands in the bytes that are read: the line before a chunk may begin with blanks
and a plus sign, the line behind it may hold anything, and the end of the stream may stand for the
last lines.

`read_eq_ok_iff_forms` says that this is all.  The body is the data of the chunks, up to the last
byte; what is left out besides the framing are the lines behind the chunks, which should be empty
and are not looked at (`read_junk`).
-/

namespace CardGate

/-! ## Chunks -/

/-- The parts of a chunk: the line before it, its data, and the line behind it. -/
structure ChunkForm where
  line : SizeLine
  data : List UInt8
  tail : List UInt8

namespace ChunkForm

/-- The bytes of a chunk. -/
def bytes (chunk : ChunkForm) : List UInt8 :=
  chunk.line.bytes ++ Source.lineFeed :: (chunk.data ++ (chunk.tail ++ [Source.lineFeed]))

/-- Whether the parts are those of a chunk that is read.  The line behind it may hold anything. -/
structure IsRead (chunk : ChunkForm) : Prop where
  sized : chunk.line.Gives chunk.data.length
  nonempty : chunk.data ≠ []
  lineUnbroken : Source.lineFeed ∉ chunk.line.bytes
  lineShort : chunk.line.bytes.length < Source.maxLine
  tailUnbroken : Source.lineFeed ∉ chunk.tail
  tailShort : chunk.tail.length < Source.maxLine

/-- Whether the parts are those of a chunk as it should be: nothing before the digits of its size,
and nothing behind its data but the end of the line. -/
structure IsStrict (chunk : ChunkForm) : Prop where
  bare : chunk.line.before = [] ∧ chunk.line.plus = []
  ended : ∀ b ∈ chunk.tail, b = Source.carriageReturn

end ChunkForm

namespace Source

/-- Nothing comes after the end of a stream. -/
theorem eq_of_hasBytes_closed {bytes : List UInt8} {rest : Source}
    (h : HasBytes ⟨[], .closed⟩ bytes rest) : rest = ⟨[], .closed⟩ := by
  obtain ⟨others, ending⟩ := rest
  rw [HasBytes, Source.mk.injEq] at h
  obtain ⟨-, rfl⟩ := List.append_eq_nil_iff.1 h.1.symm
  exact congrArg (Source.mk []) h.2.symm

theorem HasBytes.trans {s next rest : Source} {bytes more : List UInt8}
    (h : s.HasBytes bytes next) (hmore : next.HasBytes more rest) :
    s.HasBytes (bytes ++ more) rest := by
  rw [HasBytes] at h hmore ⊢
  rw [h, hmore, List.append_assoc]

theorem HasLine.ne_nil {s rest : Source} {text : String} (h : s.HasLine text rest) :
    s.bytes ≠ [] := by
  obtain ⟨line, hline, -, -⟩ := h
  cases hline with
  | ended => exact List.append_ne_nil_of_right_ne_nil _ (List.cons_ne_nil _ _)
  | last _ nonempty => exact nonempty

/-- A line that is not the end of its stream. -/
theorem hasLine_iff_of_ne_nil {s rest : Source} {text : String} (hrest : rest.bytes ≠ []) :
    s.HasLine text rest ↔ ∃ line, s.HasBytes (line ++ [lineFeed]) rest ∧ lineFeed ∉ line ∧
      line.length < maxLine ∧ lineText line = text := by
  constructor
  · intro h
    obtain ⟨line, hline, hshort, htext⟩ := h
    cases hline with
    | ended unbroken =>
      refine ⟨line, ?_, unbroken, hshort, htext⟩
      rw [HasBytes, List.append_assoc, List.singleton_append]
    | last => exact absurd rfl hrest
  · intro h
    obtain ⟨line, hbytes, hunbroken, hshort, htext⟩ := h
    rw [HasBytes, List.append_assoc, List.singleton_append] at hbytes
    exact ⟨line, hbytes ▸ .ended hunbroken, hshort, htext⟩

/-- A chunk that is not the end of its stream. -/
theorem hasChunk_iff {s rest : Source} {data : List UInt8} (hrest : rest.bytes ≠ []) :
    s.HasChunk data rest ↔
      ∃ chunk : ChunkForm, chunk.IsRead ∧ chunk.data = data ∧ s.HasBytes chunk.bytes rest := by
  constructor
  · intro h
    obtain ⟨text, afterLine, afterData, junk, hline, hsize, hne, hdata, hjunk⟩ := h
    obtain ⟨tail, htail, htailUnbroken, htailShort, -⟩ := (hasLine_iff_of_ne_nil hrest).1 hjunk
    have hafter : afterLine.bytes ≠ [] := by
      rw [hdata]
      exact List.append_ne_nil_of_left_ne_nil hne _
    obtain ⟨bytes, hbytes, hunbroken, hshort, rfl⟩ := (hasLine_iff_of_ne_nil hafter).1 hline
    obtain ⟨line, rfl, hgives⟩ := SizeLine.exists_gives hsize
    refine ⟨⟨line, data, tail⟩,
      ⟨hgives, hne, hunbroken, hshort, htailUnbroken, htailShort⟩, rfl, ?_⟩
    rw [HasBytes] at hbytes hdata htail ⊢
    rw [hbytes, hdata, htail, ChunkForm.bytes]
    simp only [List.append_assoc, List.cons_append, List.nil_append]
  · intro h
    obtain ⟨chunk, hread, rfl, hbytes⟩ := h
    let afterData : Source := ⟨chunk.tail ++ lineFeed :: rest.bytes, rest.ending⟩
    refine ⟨lineText chunk.line.bytes, ⟨chunk.data ++ afterData.bytes, rest.ending⟩, afterData,
      lineText chunk.tail, ?_, SizeLine.size?_of_gives hread.sized, hread.nonempty, rfl, ?_⟩
    · refine ⟨chunk.line.bytes, ?_, hread.lineShort, rfl⟩
      rw [hbytes, ChunkForm.bytes]
      simp only [List.append_assoc, List.cons_append, List.nil_append]
      exact .ended hread.lineUnbroken
    · exact ⟨chunk.tail, .ended hread.tailUnbroken, hread.tailShort, rfl⟩

/-! ## The end of a body -/

/-- The bytes of lines up to an empty one or to the end of the stream, and the stream after them. -/
inductive TrailerBytes : List UInt8 → Source → Prop
  | done {line : List UInt8} {rest : Source} (empty : ∀ b ∈ line, b = carriageReturn)
      (short : line.length < maxLine) : TrailerBytes (line ++ [lineFeed]) rest
  | more {line bytes : List UInt8} {rest : Source} (unbroken : lineFeed ∉ line)
      (short : line.length < maxLine) (nonempty : ∃ b ∈ line, b ≠ carriageReturn)
      (others : TrailerBytes bytes rest) : TrailerBytes (line ++ lineFeed :: bytes) rest
  /-- The last line needs no end if the stream is closed, and need not be empty. -/
  | atEnd {line : List UInt8} (unbroken : lineFeed ∉ line) (short : line.length < maxLine) :
      TrailerBytes line ⟨[], .closed⟩

theorem trailer_iff {s rest : Source} :
    s.Trailer rest ↔ ∃ bytes, s.HasBytes bytes rest ∧ TrailerBytes bytes rest := by
  constructor
  · intro h
    induction h with
    | atEnd => exact ⟨[], rfl, .atEnd List.not_mem_nil (by decide)⟩
    | done blank =>
      obtain ⟨line, hline, hshort, htext⟩ := blank
      cases hline with
      | ended unbroken =>
        refine ⟨line ++ [lineFeed], ?_, .done (lineText_eq_empty_iff.1 htext) hshort⟩
        rw [HasBytes, List.append_assoc, List.singleton_append]
      | last unbroken nonempty =>
        exact ⟨line, by rw [HasBytes, List.append_nil], .atEnd unbroken hshort⟩
    | more first nonempty others ih =>
      obtain ⟨line, hline, hshort, rfl⟩ := first
      obtain ⟨bytes, hbytes, htrailer⟩ := ih
      cases hline with
      | ended unbroken =>
        have hnonempty := lineText_ne_empty_iff.1 nonempty
        refine ⟨line ++ lineFeed :: bytes, ?_, .more unbroken hshort hnonempty htrailer⟩
        rw [HasBytes, Source.mk.injEq] at hbytes
        rw [HasBytes, hbytes.1, hbytes.2, List.append_assoc, List.cons_append]
      | last unbroken _ =>
        rw [eq_of_hasBytes_closed hbytes]
        exact ⟨line, by rw [HasBytes, List.append_nil], .atEnd unbroken hshort⟩
  · intro h
    obtain ⟨bytes, hbytes, htrailer⟩ := h
    induction htrailer generalizing s with
    | @done line rest empty short =>
      have hunbroken : lineFeed ∉ line := fun hmem => absurd (empty lineFeed hmem) (by decide)
      rw [HasBytes, List.append_assoc, List.singleton_append] at hbytes
      exact .done ⟨line, hbytes ▸ .ended hunbroken, short, lineText_eq_empty_iff.2 empty⟩
    | @more line bytes rest unbroken short nonempty others ih =>
      rw [HasBytes, List.append_assoc, List.cons_append] at hbytes
      exact .more ⟨line, hbytes ▸ .ended unbroken, short, rfl⟩
        (lineText_ne_empty_iff.2 nonempty) (ih rfl)
    | @atEnd line unbroken short =>
      rw [HasBytes, List.append_nil] at hbytes
      subst hbytes
      by_cases hline : line = []
      · rw [hline]
        exact .atEnd
      · have hlast : HasLine ⟨line, .closed⟩ (lineText line) ⟨[], .closed⟩ :=
          ⟨line, .last unbroken hline, short, rfl⟩
        by_cases htext : lineText line = ""
        · exact .done (htext ▸ hlast)
        · exact .more hlast htext .atEnd

/-- The bytes of the line that ends a body and of the lines behind it, and the stream after them. -/
inductive BodyEnd : List UInt8 → Source → Prop
  | ended {line : SizeLine} {bytes : List UInt8} {rest : Source} (sized : line.Gives 0)
      (unbroken : lineFeed ∉ line.bytes) (short : line.bytes.length < maxLine)
      (trailer : TrailerBytes bytes rest) : BodyEnd (line.bytes ++ lineFeed :: bytes) rest
  /-- If the stream is closed nothing need come after the line. -/
  | atEnd {line : SizeLine} (sized : line.Gives 0) (unbroken : lineFeed ∉ line.bytes)
      (short : line.bytes.length < maxLine) : BodyEnd line.bytes ⟨[], .closed⟩

theorem hasLastChunk_iff {s rest : Source} :
    s.HasLastChunk rest ↔ ∃ bytes, s.HasBytes bytes rest ∧ BodyEnd bytes rest := by
  constructor
  · intro h
    obtain ⟨text, next, ⟨bytes, hline, hshort, rfl⟩, hsize, htrailer⟩ := h
    obtain ⟨line, rfl, hgives⟩ := SizeLine.exists_gives hsize
    obtain ⟨trailer, hbytes, hlines⟩ := trailer_iff.1 htrailer
    cases hline with
    | ended unbroken =>
      refine ⟨line.bytes ++ lineFeed :: trailer, ?_, .ended hgives unbroken hshort hlines⟩
      rw [HasBytes, Source.mk.injEq] at hbytes
      rw [HasBytes, hbytes.1, hbytes.2, List.append_assoc, List.cons_append]
    | last unbroken _ =>
      rw [eq_of_hasBytes_closed hbytes]
      exact ⟨line.bytes, by rw [HasBytes, List.append_nil], .atEnd hgives unbroken hshort⟩
  · intro h
    obtain ⟨bytes, hbytes, hend⟩ := h
    cases hend with
    | @ended line bytes rest sized unbroken short trailer =>
      rw [HasBytes, List.append_assoc, List.cons_append] at hbytes
      exact ⟨_, _, ⟨line.bytes, hbytes ▸ .ended unbroken, short, rfl⟩,
        SizeLine.size?_of_gives sized, trailer_iff.2 ⟨bytes, rfl, trailer⟩⟩
    | @atEnd line sized unbroken short =>
      rw [HasBytes, List.append_nil] at hbytes
      have hne : line.bytes ≠ [] := by
        intro hnil
        have hsize := SizeLine.size?_of_gives sized
        rw [hnil] at hsize
        cases hsize
      exact ⟨_, _, ⟨line.bytes, hbytes ▸ .last unbroken hne, short, rfl⟩,
        SizeLine.size?_of_gives sized, .atEnd⟩

end Source

/-! ## Bodies -/

namespace Chunked

open Source

theorem ne_nil_of_chunks {limit done : Nat} {s rest : Source} {body : List UInt8}
    (h : s.Chunks limit done body rest) : s.bytes ≠ [] := by
  cases h with
  | last stands =>
    obtain ⟨line, next, hline, -, -⟩ := stands
    exact hline.ne_nil
  | more first fits others =>
    obtain ⟨line, afterLine, afterData, junk, hline, -⟩ := first
    exact hline.ne_nil

/-- The chunks of a body, by their bytes.  A body that is empty is within every limit. -/
theorem chunks_iff_forms {limit done : Nat} {s rest : Source} {body : List UInt8} :
    s.Chunks limit done body rest ↔
      ∃ chunks : List ChunkForm, ∃ ends, s.HasBytes (chunks.flatMap ChunkForm.bytes ++ ends) rest ∧
        (∀ chunk ∈ chunks, chunk.IsRead) ∧ BodyEnd ends rest ∧
        body = chunks.flatMap ChunkForm.data ∧
        (body = [] ∨ Numeral.saturatingAdd done body.length ≤ limit) := by
  constructor
  · intro h
    induction h with
    | last stands =>
      obtain ⟨ends, hbytes, hend⟩ := hasLastChunk_iff.1 stands
      exact ⟨[], ends, hbytes, nofun, hend, rfl, Or.inl rfl⟩
    | @more done s next rest data body first fits others ih =>
      obtain ⟨chunk, hread, rfl, hchunk⟩ := (hasChunk_iff (ne_nil_of_chunks others)).1 first
      obtain ⟨chunks, ends, hbytes, hreads, hend, rfl, hfits⟩ := ih
      refine ⟨chunk :: chunks, ends, ?_, List.forall_mem_cons.2 ⟨hread, hreads⟩, hend, rfl,
        Or.inr ?_⟩
      · rw [List.flatMap_cons, List.append_assoc]
        exact hchunk.trans hbytes
      · rw [List.length_append]
        obtain hnil | hmore := hfits
        · rwa [hnil]
        · rwa [Numeral.saturatingAdd, ← Nat.add_assoc]
  · intro h
    obtain ⟨chunks, ends, hbytes, hreads, hend, rfl, hfits⟩ := h
    induction chunks generalizing s done with
    | nil => exact .last (hasLastChunk_iff.2 ⟨ends, hbytes, hend⟩)
    | cons chunk chunks ih =>
      obtain ⟨hread, hreads⟩ := List.forall_mem_cons.1 hreads
      have hsum := hfits.resolve_left (List.append_ne_nil_of_left_ne_nil hread.nonempty _)
      rw [List.flatMap_cons, List.length_append, Numeral.saturatingAdd] at hsum
      have hmore : Numeral.saturatingAdd (done + chunk.data.length)
          (chunks.flatMap ChunkForm.data).length ≤ limit := by
        rwa [Numeral.saturatingAdd, Nat.add_assoc]
      have hothers : Source.Chunks limit (done + chunk.data.length)
          ⟨(chunks.flatMap ChunkForm.bytes ++ ends) ++ rest.bytes, rest.ending⟩
          (chunks.flatMap ChunkForm.data) rest := ih rfl hreads (Or.inr hmore)
      refine .more ((hasChunk_iff (ne_nil_of_chunks hothers)).2 ⟨chunk, hread, rfl, ?_⟩) ?_ hothers
      · rw [HasBytes] at hbytes ⊢
        rw [hbytes, List.flatMap_cons]
        simp only [List.append_assoc]
      · rw [Numeral.saturatingAdd]
        omega

/-- Exactly the streams with chunks of these forms are read as chunked bodies within the limit. -/
theorem read_eq_ok_iff_forms {limit : Nat} {s rest : Source} {body : List UInt8} :
    read limit s = .ok (body, rest) ↔
      ∃ chunks : List ChunkForm, ∃ ends, s.HasBytes (chunks.flatMap ChunkForm.bytes ++ ends) rest ∧
        (∀ chunk ∈ chunks, chunk.IsRead) ∧ BodyEnd ends rest ∧
        body = chunks.flatMap ChunkForm.data ∧ min body.length (Numeral.sizeBound - 1) ≤ limit := by
  rw [read, readFrom_eq_ok_iff, chunks_iff_forms]
  have hfits : (body = [] ∨ Numeral.saturatingAdd 0 body.length ≤ limit) ↔
      min body.length (Numeral.sizeBound - 1) ≤ limit := by
    rw [Numeral.saturatingAdd, Nat.zero_add]
    constructor
    · intro h
      obtain rfl | h := h
      · exact Nat.le_trans (Nat.min_le_left _ _) (Nat.zero_le limit)
      · exact h
    · exact Or.inr
  simp only [hfits]

/-- A stream with a chunk that has more behind its data than the end of the line. -/
def sampleJunk : Source :=
  ⟨Utf8.bytes "5\r\nhelloJUNK\r\n0\r\n\r\n", .closed⟩

/-- It is read, though it is no stream of chunks as they should be: four bytes are left out. -/
theorem read_junk :
    read 100 sampleJunk = .ok (Utf8.bytes "hello", ⟨[], .closed⟩) ∧
      ¬ ∃ chunks : List ChunkForm, ∃ ends,
        sampleJunk.HasBytes (chunks.flatMap ChunkForm.bytes ++ ends) ⟨[], .closed⟩ ∧
        (∀ chunk ∈ chunks, chunk.IsRead ∧ chunk.IsStrict) ∧ BodyEnd ends ⟨[], .closed⟩ ∧
        Utf8.bytes "hello" = chunks.flatMap ChunkForm.data := by
  refine ⟨by decide +kernel, ?_⟩
  intro h
  obtain ⟨chunks, ends, hbytes, hchunks, -, hbody⟩ := h
  obtain _ | ⟨chunk, chunks⟩ := chunks
  · cases hbody
  · obtain ⟨hread, hstrict⟩ := hchunks chunk List.mem_cons_self
    have hstream : Utf8.bytes "5\r" ++ lineFeed :: (Utf8.bytes "hello" ++
          (Utf8.bytes "JUNK\r" ++ lineFeed :: Utf8.bytes "0\r\n\r\n")) =
        chunk.line.bytes ++ lineFeed :: (chunk.data ++
          (chunk.tail ++ lineFeed :: (chunks.flatMap ChunkForm.bytes ++ ends))) := by
      rw [HasBytes, List.flatMap_cons, ChunkForm.bytes, List.append_nil] at hbytes
      have hsame := congrArg Source.bytes hbytes
      simp only [List.append_assoc, List.cons_append, List.nil_append] at hsame
      exact hsame
    obtain ⟨hline, hdata⟩ := eq_of_unbroken (by decide) hread.lineUnbroken hstream
    have hsize := SizeLine.size?_of_gives hread.sized
    rw [← hline, show size? (lineText (Utf8.bytes "5\r")) = some 5 by decide] at hsize
    obtain ⟨-, htail⟩ := List.append_inj hdata (Option.some.inj hsize)
    obtain ⟨htail, -⟩ := eq_of_unbroken (by decide) hread.tailUnbroken htail
    have hreturn := hstrict.ended 74 (htail ▸ by decide)
    exact absurd hreturn (by decide)

end Chunked

end CardGate
