import CardGate.Proofs.Icap.Grammar
import CardGate.Proofs.Text.Numeral
import CardGate.Proofs.Text.Words
import CardGate.Text.Utf8.Lemmas

/-!
# Writing lines and chunks

A line may be written with either end and is found again at the front of the stream, and so are
lines with an empty one after them and a body that is written in chunks.  Each statement leaves
open what comes after, so that they can be put one behind the other.
-/

namespace CardGate

/-! ## Lines -/

/-- How a line is ended. -/
inductive LineEnd where
  | lf
  | crlf
  deriving DecidableEq, Repr

/-- The bytes of a line end. -/
def LineEnd.bytes : LineEnd → List UInt8
  | lf => [Source.lineFeed]
  | crlf => Chunked.lineEnd

/-- A text that can be written as a line: without a line feed, and with no carriage return at its
end, which would be taken for a part of the line end. -/
def IsLine (text : String) : Prop :=
  '\n' ∉ text.toList ∧ text.toList.getLast? ≠ some '\r'

instance (text : String) : Decidable (IsLine text) :=
  inferInstanceAs (Decidable (_ ∧ _))

theorem IsLine.of_no_blank {text : String} (h : ∀ c ∈ text.toList, Text.isBlank c = false) :
    IsLine text := by
  refine ⟨fun hfeed => ?_, fun hreturn => ?_⟩
  · exact Bool.false_ne_true (h _ hfeed).symm
  · exact Bool.false_ne_true (h _ (List.mem_of_getLast? hreturn)).symm

namespace Source

theorem lineFeed_notMem_bytes {text : String} (h : IsLine text) : lineFeed ∉ Utf8.bytes text :=
  fun hfeed => h.1 (Utf8.mem_of_mem_bytes (by decide) hfeed)

theorem stripLine_bytes {text : String} (h : IsLine text) :
    stripLine (Utf8.bytes text) = Utf8.bytes text := by
  rcases List.eq_nil_or_concat (Utf8.bytes text) with hnil | ⟨before, b, hlast⟩
  · rw [hnil]
    rfl
  · rw [List.concat_eq_append] at hlast
    have hb : (b == carriageReturn) = false := by
      rw [beq_eq_false_iff_ne]
      rintro rfl
      have hreturn : (Utf8.bytes text).getLast? = some carriageReturn := by
        rw [hlast, List.getLast?_concat]
      exact h.2 (Utf8.getLast?_of_getLast?_bytes (by decide) hreturn)
    rw [hlast, stripLine, List.reverse_append, List.reverse_singleton, List.singleton_append,
      List.dropWhile_cons_of_neg (by simp [hb]), List.reverse_cons, List.reverse_reverse]

theorem stripLine_append_return (line : List UInt8) :
    stripLine (line ++ [carriageReturn]) = stripLine line := by
  rw [stripLine, List.reverse_append, List.reverse_singleton, List.singleton_append,
    List.dropWhile_cons_of_pos (by rfl), stripLine]

/-- A line is found again, whichever end it is written with. -/
theorem hasLine_written {text : String} (h : IsLine text) {lineEnd : LineEnd}
    (short : (Utf8.bytes text).length + lineEnd.bytes.length ≤ maxLine) (more : List UInt8)
    (ending : Ending) :
    HasLine ⟨Utf8.bytes text ++ lineEnd.bytes ++ more, ending⟩ text ⟨more, ending⟩ := by
  have htext : lineText (Utf8.bytes text) = text := by
    rw [lineText, stripLine_bytes h, Utf8.lossy_bytes]
  have hfeed := lineFeed_notMem_bytes h
  cases lineEnd with
  | lf =>
    refine ⟨Utf8.bytes text, ?_, short, htext⟩
    rw [LineEnd.bytes, List.append_assoc, List.singleton_append]
    exact .ended hfeed
  | crlf =>
    have hreturn : lineFeed ∉ Utf8.bytes text ++ [carriageReturn] := by
      rw [List.mem_append, List.mem_singleton, not_or]
      exact ⟨hfeed, by decide⟩
    refine ⟨Utf8.bytes text ++ [carriageReturn], ?_, ?_, ?_⟩
    · have hsplit : Utf8.bytes text ++ LineEnd.crlf.bytes ++ more =
          Utf8.bytes text ++ [carriageReturn] ++ lineFeed :: more := by
        rw [List.append_assoc, List.append_assoc]
        rfl
      rw [hsplit]
      exact .ended hreturn
    · rw [List.length_append, List.length_singleton]
      exact short
    · rw [lineText, stripLine_append_return, ← lineText, htext]

/-- Lines as they are written, each with an end of its own and within the limit. -/
inductive WrittenLines : List String → List UInt8 → Prop
  | nil : WrittenLines [] []
  | cons {line : String} {lines : List String} {bytes : List UInt8} (isLine : IsLine line)
      (lineEnd : LineEnd) (short : (Utf8.bytes line).length + lineEnd.bytes.length ≤ maxLine)
      (others : WrittenLines lines bytes) :
      WrittenLines (line :: lines) (Utf8.bytes line ++ lineEnd.bytes ++ bytes)

/-- Lines can be written with any choice of ends, as long as they are within the limit. -/
theorem WrittenLines.of_ends {written : List (String × LineEnd)}
    (h : ∀ line ∈ written, IsLine line.1 ∧
      (Utf8.bytes line.1).length + line.2.bytes.length ≤ maxLine) :
    WrittenLines (written.map (·.1))
      (written.flatMap fun line => Utf8.bytes line.1 ++ line.2.bytes) := by
  induction written with
  | nil => exact .nil
  | cons line written ih =>
    obtain ⟨⟨isLine, short⟩, hothers⟩ := List.forall_mem_cons.1 h
    exact .cons isLine line.2 short (ih hothers)

theorem WrittenLines.hasLine {line : String} {lines : List String} {bytes : List UInt8}
    (h : WrittenLines (line :: lines) bytes) :
    ∃ next, WrittenLines lines next ∧
      ∀ more ending, HasLine ⟨bytes ++ more, ending⟩ line ⟨next ++ more, ending⟩ := by
  cases h with
  | @cons _ _ next isLine lineEnd short others =>
    refine ⟨next, others, fun more ending => ?_⟩
    rw [List.append_assoc]
    exact hasLine_written isLine short (next ++ more) ending

/-- Lines with an empty one behind them are a block. -/
theorem WrittenLines.block {lines others : List String} {bytes : List UInt8}
    (h : WrittenLines (lines ++ "" :: others) bytes) (nonempty : "" ∉ lines) :
    ∃ next, WrittenLines others next ∧
      ∀ more ending, Block ⟨bytes ++ more, ending⟩ lines ⟨next ++ more, ending⟩ := by
  induction lines generalizing bytes with
  | nil =>
    obtain ⟨next, hothers, hblank⟩ := h.hasLine
    exact ⟨next, hothers, fun more ending => .done (hblank more ending)⟩
  | cons line lines ih =>
    obtain ⟨hline, hlines⟩ := not_or.1 (mt List.mem_cons.2 nonempty)
    obtain ⟨afterLine, hafter, hfirst⟩ := h.hasLine
    obtain ⟨next, hothers, hblock⟩ := ih hafter hlines
    refine ⟨next, hothers, fun more ending => ?_⟩
    exact .more (hfirst more ending) (Ne.symm hline) (hblock more ending)

end Source

/-! ## Chunks -/

namespace Chunked

open Source

theorem isBlank_of_mem_hexCapital (n : Nat) :
    ∀ c ∈ (Numeral.hexCapital n).toList, Text.isBlank c = false :=
  Numeral.forall_mem_hexCapital (by decide) n

theorem isLine_hexCapital (n : Nat) : IsLine (Numeral.hexCapital n) :=
  .of_no_blank (isBlank_of_mem_hexCapital n)

/-- The size that is written before a chunk is read back. -/
theorem size?_hexCapital {n : Nat} (h : n < Numeral.sizeBound) :
    size? (Numeral.hexCapital n) = some n := by
  have hsemicolon : ∀ c ∈ (Numeral.hexCapital n).toList, decide (c ≠ ';') = true :=
    Numeral.forall_mem_hexCapital (by decide) n
  have hwhole := @List.takeWhile_append_of_pos _ _ _ [] hsemicolon
  rw [List.append_nil, List.takeWhile_nil, List.append_nil] at hwhole
  rw [size?, hwhole, Text.trim_of_none (isBlank_of_mem_hexCapital n),
    Numeral.hexBelow?_hexCapital h]

/-- The line before a chunk is far below the limit of lines. -/
theorem length_hexCapital_le {n : Nat} (h : n ≤ maxChunk) :
    (Utf8.bytes (Numeral.hexCapital n)).length ≤ 16 := by
  have hdigits : (Nat.toDigits 16 n).length ≤ 4 := by
    rw [Nat.length_toDigits_le_iff (by decide) (by decide)]
    exact Nat.lt_of_le_of_lt h (by decide)
  have hbytes := Utf8.length_bytes_le (Numeral.hexCapital n)
  rw [Numeral.toList_hexCapital, List.length_map] at hbytes
  omega

/-- A line written with the usual end. -/
theorem hasLine_crlf {text : String} (h : IsLine text)
    (short : (Utf8.bytes text).length + 2 ≤ maxLine) (more : List UInt8) (ending : Ending) :
    HasLine ⟨Utf8.bytes text ++ (lineEnd ++ more), ending⟩ text ⟨more, ending⟩ := by
  have hwritten : (Utf8.bytes text).length + LineEnd.crlf.bytes.length ≤ maxLine := short
  rw [← List.append_assoc]
  exact hasLine_written h hwritten more ending

/-- A line end after no text at all. -/
theorem hasLine_lineEnd (more : List UInt8) (ending : Ending) :
    HasLine ⟨lineEnd ++ more, ending⟩ "" ⟨more, ending⟩ := by
  have hempty : HasLine ⟨Utf8.bytes "" ++ (lineEnd ++ more), ending⟩ "" ⟨more, ending⟩ :=
    hasLine_crlf ⟨by decide, by decide⟩ (by decide) more ending
  exact hempty

theorem hasChunk_chunk {data : List UInt8} (hsize : 0 < data.length ∧ data.length ≤ maxChunk)
    (more : List UInt8) (ending : Ending) :
    HasChunk ⟨chunk data ++ more, ending⟩ data ⟨more, ending⟩ := by
  have hshort := length_hexCapital_le hsize.2
  have hbound : data.length < Numeral.sizeBound := Nat.lt_of_le_of_lt hsize.2 (by decide)
  have hline : (Utf8.bytes (Numeral.hexCapital data.length)).length + 2 ≤ maxLine := by
    rw [maxLine]
    omega
  have hfirst := hasLine_crlf (isLine_hexCapital data.length) hline (data ++ (lineEnd ++ more))
    ending
  rw [chunk, List.append_assoc, List.append_assoc, List.append_assoc]
  exact ⟨_, ⟨data ++ (lineEnd ++ more), ending⟩, ⟨lineEnd ++ more, ending⟩, "", hfirst,
    size?_hexCapital hbound, List.ne_nil_of_length_pos hsize.1, rfl, hasLine_lineEnd more ending⟩

/-- The end of a chunked body, as it is written. -/
theorem hasLastChunk_end (more : List UInt8) (ending : Ending) :
    HasLastChunk ⟨Utf8.bytes "0" ++ lineEnd ++ lineEnd ++ more, ending⟩ ⟨more, ending⟩ := by
  rw [List.append_assoc, List.append_assoc]
  exact ⟨"0", ⟨lineEnd ++ more, ending⟩, hasLine_crlf ⟨by decide, by decide⟩ (by decide) _ ending,
    by decide, .done (hasLine_lineEnd more ending)⟩

/-- Pieces that are written as chunks are found again, one after the other, if what comes after
them is the end of a body. -/
theorem chunks_flatMap {pieces : List (List UInt8)} {limit done : Nat}
    (sizes : ∀ piece ∈ pieces, 0 < piece.length ∧ piece.length ≤ maxChunk)
    (fits : done + pieces.flatten.length ≤ limit) {ends : List UInt8} {ending : Ending}
    {rest : Source} (stands : HasLastChunk ⟨ends, ending⟩ rest) :
    Chunks limit done ⟨pieces.flatMap chunk ++ ends, ending⟩ pieces.flatten rest := by
  induction pieces generalizing done with
  | nil => exact .last stands
  | cons piece pieces ih =>
    rw [List.flatten_cons, List.length_append] at fits
    have hchunk := hasChunk_chunk (sizes piece List.mem_cons_self)
      (pieces.flatMap chunk ++ ends) ending
    have hothers := ih (fun other hother => sizes other (List.mem_cons_of_mem _ hother))
      (show done + piece.length + pieces.flatten.length ≤ limit by omega)
    have hfits : Numeral.saturatingAdd done piece.length ≤ limit :=
      Nat.le_trans (Numeral.saturatingAdd_le _ _) (by omega)
    rw [List.flatMap_cons, List.append_assoc, List.flatten_cons]
    exact .more hchunk hfits hothers

/-- The chunks of a body are found again if what comes after them is the end of a body. -/
theorem chunks_chunks {body : List UInt8} {limit : Nat} (fits : body.length ≤ limit)
    {ends : List UInt8} {ending : Ending} {rest : Source}
    (stands : HasLastChunk ⟨ends, ending⟩ rest) :
    Chunks limit 0 ⟨(chunks body).flatMap chunk ++ ends, ending⟩ body rest := by
  have hpieces : 0 + (chunks body).flatten.length ≤ limit := by
    rw [flatten_chunks, Nat.zero_add]
    exact fits
  have hchunks := chunks_flatMap (fun piece => length_of_mem_chunks) hpieces stands
  rwa [flatten_chunks] at hchunks

/-- A body that is written in chunks is found again. -/
theorem chunks_write {body : List UInt8} {limit : Nat} (fits : body.length ≤ limit)
    (more : List UInt8) (ending : Ending) :
    Chunks limit 0 ⟨write body ++ more, ending⟩ body ⟨more, ending⟩ := by
  rw [write, List.append_assoc]
  exact chunks_chunks fits (hasLastChunk_end more ending)

end Chunked

end CardGate
