import CardGate.Proofs.Icap.Writing

/-!
# Chunked bodies that are cut off

A stream may end anywhere within a chunked body.  The last line of a stream needs no end and the
trailer may be missing, so a body that is cut off could be taken for a shorter one: the front of a
size is a size again, and a size of zero ends a body.

It is not, by `read_cut`.  The front of a size is a size that is not zero (`exists_size_of_cut`),
and no data comes after it.  Only the zero at the end of the body is read as such, and from there on
the whole body is returned, wherever the stream ends.
-/

namespace CardGate.Chunked

open Source

/-! ## Lines that are cut off -/

/-- A line at the end of a stream is read without its end, or with a part of it, if there is
anything to be read. -/
theorem hasLine_of_cut {text : String} (h : IsLine text)
    (short : (Utf8.bytes text).length + 2 ≤ maxLine) {back : List UInt8} (cut : back <+: lineEnd)
    (hne : Utf8.bytes text ++ back ≠ []) :
    HasLine ⟨Utf8.bytes text ++ back, .closed⟩ text ⟨[], .closed⟩ := by
  have hfeed := lineFeed_notMem_bytes h
  have htext : lineText (Utf8.bytes text) = text := by
    rw [lineText, stripLine_bytes h, Utf8.lossy_bytes]
  simp only [lineEnd, List.prefix_cons_iff, List.prefix_nil] at cut
  rcases cut with rfl | ⟨_, rfl, rfl | ⟨_, rfl, rfl⟩⟩
  · rw [List.append_nil] at hne ⊢
    exact ⟨_, .last hfeed hne, by omega, htext⟩
  · refine ⟨_, .last ?_ hne, ?_, ?_⟩
    · rw [List.mem_append, List.mem_singleton, not_or]
      exact ⟨hfeed, by decide⟩
    · rw [List.length_append, List.length_singleton]
      omega
    · exact (congrArg Utf8.lossy (stripLine_append_return _)).trans htext
  · exact hasLine_crlf h short [] .closed

/-- What is read of a line end that is cut off is an empty line, if there is anything. -/
theorem hasLine_of_cut_lineEnd {ends : List UInt8} (cut : ends <+: lineEnd) (hne : ends ≠ []) :
    HasLine ⟨ends, .closed⟩ "" ⟨[], .closed⟩ := by
  have hempty : HasLine ⟨Utf8.bytes "" ++ ends, .closed⟩ "" ⟨[], .closed⟩ :=
    hasLine_of_cut ⟨by decide, by decide⟩ (by decide) cut hne
  exact hempty

/-- The front of a size is a size that is no larger, and not zero. -/
theorem exists_size_of_cut {size : Nat} (positive : 0 < size) {front : List UInt8}
    (hne : front ≠ []) (cut : front <+: Utf8.bytes (Numeral.hexCapital size)) :
    ∃ less, 0 < less ∧ less ≤ size ∧ front = Utf8.bytes (Numeral.hexCapital less) := by
  have hascii : ∀ c ∈ (Numeral.hexCapital size).toList, c.toNat < 0x80 :=
    Numeral.forall_mem_hexCapital (by decide) size
  obtain ⟨chars, hchars, rfl⟩ := Utf8.exists_of_prefix_encode hascii cut
  have hcharsNe : chars ≠ [] := fun hnil => hne (by rw [hnil]; rfl)
  obtain ⟨less, hpositive, hless, rfl⟩ :=
    Numeral.exists_hexCapital_of_prefix positive hchars hcharsNe
  exact ⟨less, hpositive, hless, rfl⟩

/-! ## Before the end of the body -/

/-- A body that goes on is not over where the stream is. -/
theorem readFrom_nil (limit done : Nat) :
    readFrom limit done ⟨[], .closed⟩ = .error .endOfStream := by
  rw [readFrom_eq]
  rfl

/-- A size that is not zero is within the limit, but no more than as many bytes come after it. -/
theorem readFrom_of_short {limit done size : Nat} {s : Source} {line : String}
    {rest : List UInt8} (hline : s.HasLine line ⟨rest, .closed⟩)
    (hsize : size? line = some size) (positive : 0 < size) (fits : done + size ≤ limit)
    (short : rest.length ≤ size) : readFrom limit done s = .error .endOfStream := by
  have hfits : Numeral.saturatingAdd done size ≤ limit :=
    Nat.le_trans (Numeral.saturatingAdd_le _ _) fits
  have hnext : nextChunk limit done s = .error .endOfStream := by
    rw [nextChunk_of_size hline hsize positive, if_neg (Nat.not_lt.2 hfits)]
    by_cases hlength : rest.length = size
    · -- the data is there, but not the line end behind it
      have hdata : readExactly size ⟨rest, .closed⟩ = .ok (rest, ⟨[], .closed⟩) :=
        readExactly_eq_ok_iff.2 ⟨hlength, by rw [List.append_nil]⟩
      rw [hdata]
      rfl
    · have htake : (rest.take size).length ≠ size := by
        rw [List.length_take]
        omega
      simp only [readExactly, if_neg htake]
  rw [readFrom_eq, hnext]

/-- A chunk that is within the limit is passed, and what comes after it decides. -/
theorem readFrom_of_passed {limit done : Nat} {s rest : Source} {data : List UInt8}
    (h : s.HasChunk data rest) (fits : done + data.length ≤ limit)
    (short : readFrom limit (done + data.length) rest = .error .endOfStream) :
    readFrom limit done s = .error .endOfStream := by
  have hfits : Numeral.saturatingAdd done data.length ≤ limit :=
    Nat.le_trans (Numeral.saturatingAdd_le _ _) fits
  rw [readFrom_of_hasChunk h, if_neg (Nat.not_lt.2 hfits), short]

theorem length_hexCapital_le_maxLine {size : Nat} (h : size ≤ maxChunk) :
    (Utf8.bytes (Numeral.hexCapital size)).length + 2 ≤ maxLine := by
  have hlength := length_hexCapital_le h
  rw [maxLine]
  omega

theorem size?_hexCapital_of_le {size : Nat} (h : size ≤ maxChunk) :
    size? (Numeral.hexCapital size) = some size :=
  size?_hexCapital (Nat.lt_of_le_of_lt h (by decide))

/-- A stream that ends within the data of a chunk, or within the line end behind it, ends before
the body does. -/
theorem readFrom_of_cut_data {data front : List UInt8} {limit done : Nat}
    (hsize : 0 < data.length ∧ data.length ≤ maxChunk) (fits : done + data.length ≤ limit)
    (cut : front <+: data ++ lineEnd) :
    readFrom limit done
      ⟨Utf8.bytes (Numeral.hexCapital data.length) ++ (lineEnd ++ front), .closed⟩ =
        .error .endOfStream := by
  have hline := hasLine_crlf (isLine_hexCapital data.length) (length_hexCapital_le_maxLine hsize.2)
    front .closed
  have hnumber := size?_hexCapital_of_le hsize.2
  rcases Text.prefix_append_cases cut with hdata | ⟨ends, hne, rfl, hends⟩
  · exact readFrom_of_short hline hnumber hsize.1 fits hdata.length_le
  · have hend := hasLine_of_cut_lineEnd hends hne
    exact readFrom_of_passed ⟨_, _, ⟨ends, .closed⟩, "", hline, hnumber,
      List.ne_nil_of_length_pos hsize.1, rfl, hend⟩ fits (readFrom_nil limit _)

/-- A stream that ends within a chunk, or right behind it, ends before the body does. -/
theorem readFrom_of_cut_chunk {data front : List UInt8} {limit done : Nat}
    (hsize : 0 < data.length ∧ data.length ≤ maxChunk) (fits : done + data.length ≤ limit)
    (cut : front <+: chunk data) :
    readFrom limit done ⟨front, .closed⟩ = .error .endOfStream := by
  rw [chunk, List.append_assoc, List.append_assoc] at cut
  rcases Text.prefix_append_cases cut with hfront | ⟨back, hne, hfront, hback⟩
  · by_cases hne : front = []
    · rw [hne, readFrom_nil]
    · obtain ⟨less, hpositive, hless, rfl⟩ := exists_size_of_cut hsize.1 hne hfront
      have hsmall : less ≤ maxChunk := Nat.le_trans hless hsize.2
      have hline : HasLine ⟨Utf8.bytes (Numeral.hexCapital less) ++ [], .closed⟩
          (Numeral.hexCapital less) ⟨[], .closed⟩ :=
        hasLine_of_cut (isLine_hexCapital less) (length_hexCapital_le_maxLine hsmall)
          List.nil_prefix (by rwa [List.append_nil])
      rw [List.append_nil] at hline
      exact readFrom_of_short hline (size?_hexCapital_of_le hsmall) hpositive (by omega)
        (Nat.zero_le less)
  · rw [hfront]
    rcases Text.prefix_append_cases hback with hend | ⟨inside, -, rfl, hinside⟩
    · have hline := hasLine_of_cut (isLine_hexCapital data.length)
        (length_hexCapital_le_maxLine hsize.2) hend (List.append_ne_nil_of_right_ne_nil _ hne)
      exact readFrom_of_short hline (size?_hexCapital_of_le hsize.2) hsize.1 fits (Nat.zero_le _)
    · exact readFrom_of_cut_data hsize fits hinside

/-- A stream that ends before the end of a body in pieces gives no body. -/
theorem readFrom_of_cut {pieces : List (List UInt8)} {limit done : Nat}
    (sizes : ∀ piece ∈ pieces, 0 < piece.length ∧ piece.length ≤ maxChunk)
    (fits : done + pieces.flatten.length ≤ limit) {front : List UInt8}
    (cut : front <+: pieces.flatMap chunk) :
    readFrom limit done ⟨front, .closed⟩ = .error .endOfStream := by
  induction pieces generalizing done front with
  | nil =>
    rw [List.flatMap_nil, List.prefix_nil] at cut
    rw [cut, readFrom_nil]
  | cons piece pieces ih =>
    obtain ⟨hpiece, hpieces⟩ := List.forall_mem_cons.1 sizes
    rw [List.flatten_cons, List.length_append] at fits
    rw [List.flatMap_cons] at cut
    rcases Text.prefix_append_cases cut with hfront | ⟨back, -, hfront, hback⟩
    · exact readFrom_of_cut_chunk hpiece (by omega) hfront
    · rw [hfront]
      exact readFrom_of_passed (hasChunk_chunk hpiece back .closed) (by omega)
        (ih hpieces (by omega) hback)

/-! ## At the end of the body -/

/-- The zero that ends a body stands for the whole end of it, wherever the stream is over. -/
theorem hasLastChunk_of_cut {back : List UInt8} (cut : back <+: lineEnd ++ lineEnd) :
    HasLastChunk ⟨Utf8.bytes "0" ++ back, .closed⟩ ⟨[], .closed⟩ := by
  have hzero : IsLine "0" := ⟨by decide, by decide⟩
  rcases Text.prefix_append_cases cut with hback | ⟨ends, hne, rfl, hends⟩
  · have hline := hasLine_of_cut hzero (by decide) hback (List.cons_ne_nil _ _)
    exact ⟨"0", _, hline, by decide, .atEnd⟩
  · have hend := hasLine_of_cut_lineEnd hends hne
    exact ⟨"0", ⟨ends, .closed⟩, hasLine_crlf hzero (by decide) ends .closed, by decide,
      .done hend⟩

/-- A body that is written in chunks and cut off somewhere is returned as a whole, if the zero that
ends it is there, and otherwise the end of the stream is reported. -/
theorem read_cut {body front : List UInt8} {limit : Nat} (fits : body.length ≤ limit)
    (cut : front <+: write body) :
    read limit ⟨front, .closed⟩ =
      if (chunks body).flatMap chunk ++ Utf8.bytes "0" <+: front then .ok (body, ⟨[], .closed⟩)
      else .error .endOfStream := by
  have hpieces : 0 + (chunks body).flatten.length ≤ limit := by
    rw [flatten_chunks, Nat.zero_add]
    exact fits
  split
  · next hzero =>
    obtain ⟨back, rfl⟩ := hzero
    rw [List.append_assoc] at cut ⊢
    rw [write, List.append_assoc, List.prefix_append_right_inj, List.prefix_append_right_inj] at cut
    rw [read, readFrom_eq_ok_iff]
    exact chunks_chunks fits (hasLastChunk_of_cut cut)
  · next hzero =>
    have hfront : front <+: (chunks body).flatMap chunk := by
      rw [write, List.append_assoc, ← List.append_assoc] at cut
      rcases Text.prefix_append_cases cut with hfront | ⟨back, -, rfl, -⟩
      · exact (List.prefix_concat_iff.1 hfront).resolve_left
          fun hwhole => hzero (hwhole ▸ List.prefix_rfl)
      · exact absurd (List.prefix_append _ _) hzero
    exact readFrom_of_cut (fun piece => length_of_mem_chunks) hpieces hfront

/-- A size of two digits that is cut off behind the first one, and a body that is cut off in front
of the zero that ends it and behind it. -/
theorem read_cut_sample :
    ((List.replicate 20 (48 : UInt8)).length ≤ 20 ∧
        Utf8.bytes "1" <+: write (List.replicate 20 48)) ∧
      read 20 ⟨Utf8.bytes "1", .closed⟩ = .error .endOfStream ∧
      read 20 ⟨(write (List.replicate 20 48)).take 26, .closed⟩ = .error .endOfStream ∧
      read 20 ⟨(write (List.replicate 20 48)).take 27, .closed⟩ =
        .ok (List.replicate 20 48, ⟨[], .closed⟩) := by
  have hfits : (List.replicate 20 (48 : UInt8)).length ≤ 20 := by decide
  have hcut : Utf8.bytes "1" <+: write (List.replicate 20 48) := by decide
  refine ⟨⟨hfits, hcut⟩, ?_, ?_, ?_⟩
  · rw [read_cut hfits hcut]
    rfl
  · rw [read_cut hfits (List.take_prefix 26 _)]
    rfl
  · rw [read_cut hfits (List.take_prefix 27 _)]
    rfl

end CardGate.Chunked
