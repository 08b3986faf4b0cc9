import CardGate.Icap.Reply
import CardGate.Proofs.Icap.ChunkedRoundTrip
import CardGate.Proofs.Icap.RoundTrip

/-!
# The layout of a reply with a new body

A reply with a new body is an ICAP head up to the first empty line, and an encapsulated part: the
head of an HTTP response, again up to the first empty line, and the body in chunks.  `Layout` says
what the parts have to do with each other, and `Reply.modified_layout` that they do so for every
body: the header of the reply gives the place where the body begins, the head of the response gives
its length, and the readers of requests find the parts where they were put.

The place of the body depends on the number of digits of its length, since the length is a part of
the head before it.  It is read out of the header by `Sections.offset?` and compared with the length
of that head, so that no digits have to be counted.
-/

namespace CardGate

/-! ## Offsets of sections -/

namespace Sections

/-- The offset that an entry such as `res-body=70` gives for a section. -/
def offsetIn? (name : String) (entry : List Char) : Option Nat :=
  if entryName entry = name.toList then
    (Text.splitAtFirst? '=' entry).bind fun (_, offset) =>
      Numeral.decimalBelow? Numeral.sizeBound (Text.trim offset)
  else .none

/-- The offset that a header value gives for a section. -/
def offset? (value name : String) : Option Nat :=
  (Text.fields (· == ',') value.toList).findSome? (offsetIn? name)

theorem entryName_append {label offset : List Char} (plain : '=' ∉ label) :
    entryName (label ++ '=' :: offset) = Text.lower (Text.trim label) := by
  rw [entryName, List.takeWhile_append_of_pos (Text.forall_ne_of_not_mem plain),
    List.takeWhile_cons_of_neg (by simp), List.append_nil]

theorem offsetIn?_append {label : List Char} {name : String} {place : Nat} (plain : '=' ∉ label)
    (named : Text.lower (Text.trim label) = name.toList) (h : place < Numeral.sizeBound) :
    offsetIn? name (label ++ '=' :: (toString place).toList) = some place := by
  have hblank : ∀ c ∈ (toString place).toList, Text.isBlank c = false :=
    Numeral.forall_mem_toString (by decide) place
  rw [offsetIn?, entryName_append plain, if_pos named, Text.splitAtFirst?_append plain,
    Option.bind_some]
  dsimp only
  rw [Text.trim_of_none hblank, Numeral.decimalBelow?_toString h]

/-- The header of a reply gives the place of the head and the place of the body. -/
theorem offset?_written {place : Nat} (h : place < Numeral.sizeBound) :
    offset? ("res-hdr=0, res-body=" ++ toString place) "res-hdr" = some 0 ∧
      offset? ("res-hdr=0, res-body=" ++ toString place) "res-body" = some place := by
  have hwhole {entry : List Char} (h : ',' ∉ entry) : ∀ c ∈ entry, (c == ',') = false :=
    fun c hc => beq_false_of_ne (ne_of_mem_of_not_mem hc h)
  have hdigits : ∀ c ∈ (toString place).toList, c ≠ ',' :=
    Numeral.forall_mem_toString (by decide) place
  have hcomma : ',' ∉ " res-body".toList ++ '=' :: (toString place).toList := by
    rw [List.append_cons, List.mem_append, not_or]
    exact ⟨by decide, fun hc => hdigits ',' hc rfl⟩
  have hhead : offsetIn? "res-hdr" "res-hdr=0".toList = some 0 := by decide
  have hother : offsetIn? "res-body" "res-hdr=0".toList = Option.none := by decide
  have hbody : offsetIn? "res-body" (" res-body".toList ++ '=' :: (toString place).toList) =
      some place := offsetIn?_append (by decide) (by decide) h
  have hfields : Text.fields (· == ',') ("res-hdr=0, res-body=" ++ toString place).toList =
      ["res-hdr=0".toList, " res-body".toList ++ '=' :: (toString place).toList] := by
    have hlist : ("res-hdr=0, res-body=" ++ toString place).toList =
        "res-hdr=0".toList ++ ',' :: (" res-body".toList ++ '=' :: (toString place).toList) := by
      rw [String.toList_append]
      rfl
    rw [hlist, Text.fields_append (hwhole (by decide)) rfl,
      Text.fields_of_none (hwhole hcomma)]
  constructor
  · rw [offset?, hfields, List.findSome?_cons, hhead]
  · rw [offset?, hfields, List.findSome?_cons, hother, List.findSome?_cons, hbody]

end Sections

/-! ## Heads -/

/-- A line end with an empty line behind it. -/
def emptyLine : List UInt8 :=
  Chunked.lineEnd ++ Chunked.lineEnd

/-- A head at the front of bytes ends with the first empty line. -/
structure IsHeadOf (head bytes : List UInt8) : Prop where
  front : head <+: bytes
  closed : emptyLine <:+ head
  first : ∀ before, before ++ emptyLine <+: bytes → head.length ≤ (before ++ emptyLine).length

/-- A line of a head, short enough to be read with the usual end. -/
structure IsHeadLine (line : String) : Prop where
  isLine : IsLine line
  nonempty : line ≠ ""
  short : (Utf8.bytes line).length + Chunked.lineEnd.length ≤ Source.maxLine

instance (line : String) : Decidable (IsHeadLine line) :=
  decidable_of_iff (IsLine line ∧ line ≠ "" ∧
      (Utf8.bytes line).length + Chunked.lineEnd.length ≤ Source.maxLine)
    ⟨fun h => ⟨h.1, h.2.1, h.2.2⟩, fun h => ⟨h.isLine, h.nonempty, h.short⟩⟩

theorem IsHeadLine.bytes_ne_nil {line : String} (h : IsHeadLine line) : Utf8.bytes line ≠ [] := by
  intro hnil
  have hempty := Utf8.lossy_bytes line
  rw [hnil] at hempty
  exact h.nonempty hempty.symm

/-- A line with a number at its end. -/
theorem IsHeadLine.of_number {label : String}
    (plain : '\n' ∉ label.toList ∧ '\r' ∉ label.toList) (hlabel : label.toList.length ≤ 100)
    {n : Nat} (h : n < Numeral.sizeBound) : IsHeadLine (label ++ toString n) := by
  have hdigits : ∀ c ∈ (toString n).toList, c ≠ '\n' ∧ c ≠ '\r' :=
    Numeral.forall_mem_toString (by decide) n
  have hplain : ∀ c ∈ (label ++ toString n).toList, c ≠ '\n' ∧ c ≠ '\r' := by
    intro c hc
    rw [String.toList_append, List.mem_append] at hc
    rcases hc with hc | hc
    · exact ⟨ne_of_mem_of_not_mem hc plain.1, ne_of_mem_of_not_mem hc plain.2⟩
    · exact hdigits c hc
  have hlength := Utf8.length_bytes_le (label ++ toString n)
  have hnumber := Numeral.length_toString_le h
  rw [String.toList_append, List.length_append] at hlength
  refine ⟨⟨fun hfeed => (hplain _ hfeed).1 rfl, fun hreturn => ?_⟩, fun hempty => ?_, ?_⟩
  · exact (hplain _ (List.mem_of_getLast? hreturn)).2 rfl
  · have hlist := congrArg String.toList hempty
    rw [String.toList_append, Numeral.toList_toString] at hlist
    exact List.append_ne_nil_of_right_ne_nil _ Nat.toDigits_ne_nil hlist
  · rw [Source.maxLine, Chunked.lineEnd]
    simp only [List.length_cons, List.length_nil]
    omega

/-- A line end cannot begin in the middle of a line end. -/
theorem lineEnd_eq_append {part rest more : List UInt8}
    (h : Chunked.lineEnd ++ rest = part ++ (Chunked.lineEnd ++ more)) :
    (part = [] ∧ rest = more) ∨ ∃ others, part = Chunked.lineEnd ++ others ∧
      rest = others ++ (Chunked.lineEnd ++ more) := by
  rw [Chunked.lineEnd] at h ⊢
  match part with
  | [] =>
    cases h
    exact Or.inl ⟨rfl, rfl⟩
  | [b] => cases h
  | b :: c :: others =>
    cases h
    exact Or.inr ⟨others, rfl, rfl⟩

theorem lineFeed_mem_lineEnd_append (rest : List UInt8) :
    Source.lineFeed ∈ Chunked.lineEnd ++ rest :=
  List.mem_append_left rest (by decide)

/-- An empty line is not found before the end of a line. -/
theorem emptyLine_cases {before line rest : List UInt8} (unbroken : Source.lineFeed ∉ line)
    (h : before ++ emptyLine <+: line ++ (Chunked.lineEnd ++ rest)) :
    (before = line ∧ Chunked.lineEnd <+: rest) ∨
      ∃ more, before = line ++ (Chunked.lineEnd ++ more) ∧ more ++ emptyLine <+: rest := by
  obtain ⟨others, h⟩ := h
  rw [List.append_assoc, emptyLine, List.append_assoc] at h
  rcases List.append_eq_append_iff.1 h with ⟨part, hline, hrest⟩ | ⟨part, hbefore, hrest⟩
  · rcases lineEnd_eq_append hrest with ⟨rfl, hothers⟩ | ⟨more, rfl, -⟩
    · rw [List.append_nil] at hline
      exact Or.inl ⟨hline.symm, others, hothers⟩
    · refine absurd ?_ unbroken
      rw [hline]
      exact List.mem_append_right before (lineFeed_mem_lineEnd_append more)
  · rcases lineEnd_eq_append hrest with ⟨rfl, hothers⟩ | ⟨more, rfl, hothers⟩
    · rw [List.append_nil] at hbefore
      exact Or.inl ⟨hbefore, others, hothers.symm⟩
    · refine Or.inr ⟨more, hbefore, others, ?_⟩
      rw [hothers, emptyLine, List.append_assoc, List.append_assoc]

/-- A line with an empty one behind it is a head. -/
theorem IsHeadOf.single {line : List UInt8} (unbroken : Source.lineFeed ∉ line)
    (more : List UInt8) :
    IsHeadOf (line ++ emptyLine) (line ++ (emptyLine ++ more)) := by
  refine ⟨⟨more, List.append_assoc _ _ _⟩, List.suffix_append line emptyLine, fun before h => ?_⟩
  rw [emptyLine, List.append_assoc Chunked.lineEnd, ← emptyLine] at h
  rw [List.length_append, List.length_append]
  rcases emptyLine_cases unbroken h with ⟨rfl, -⟩ | ⟨others, rfl, -⟩
  · exact Nat.le_refl _
  · rw [List.length_append]
    omega

/-- A line before a head belongs to the head, unless the head begins with an empty line. -/
theorem IsHeadOf.cons {line head bytes : List UInt8} (unbroken : Source.lineFeed ∉ line)
    (filled : ¬Chunked.lineEnd <+: bytes) (h : IsHeadOf head bytes) :
    IsHeadOf (line ++ (Chunked.lineEnd ++ head)) (line ++ (Chunked.lineEnd ++ bytes)) := by
  obtain ⟨front, closed, first⟩ := h
  refine ⟨?_, ?_, fun before hbefore => ?_⟩
  · rwa [List.prefix_append_right_inj, List.prefix_append_right_inj]
  · rw [← List.append_assoc]
    exact closed.trans (List.suffix_append _ head)
  · rcases emptyLine_cases unbroken hbefore with ⟨-, hempty⟩ | ⟨more, rfl, hmore⟩
    · exact absurd hempty filled
    · have hfirst := first more hmore
      simp only [List.length_append] at hfirst ⊢
      omega

/-- No empty line begins where a line of a head does. -/
theorem IsHeadLine.not_lineEnd {line : String} (h : IsHeadLine line) (rest : List UInt8) :
    ¬Chunked.lineEnd <+: Utf8.bytes line ++ (Chunked.lineEnd ++ rest) := by
  rintro ⟨others, hothers⟩
  rcases lineEnd_eq_append hothers with ⟨hnil, -⟩ | ⟨more, hline, -⟩
  · exact h.bytes_ne_nil hnil
  · refine Source.lineFeed_notMem_bytes h.isLine ?_
    rw [hline]
    exact lineFeed_mem_lineEnd_append more

namespace Reply

theorem block_cons (line : String) (lines : List String) :
    block (line :: lines) = Utf8.bytes line ++ (Chunked.lineEnd ++ block lines) := by
  rw [block, List.cons_append, List.flatMap_cons, List.append_assoc, block]

/-- Lines end with the first empty line behind them. -/
theorem isHeadOf_block {line : String} {lines : List String}
    (h : ∀ other ∈ line :: lines, IsHeadLine other) (more : List UInt8) :
    IsHeadOf (block (line :: lines)) (block (line :: lines) ++ more) := by
  obtain ⟨hline, hlines⟩ := List.forall_mem_cons.1 h
  have unbroken := Source.lineFeed_notMem_bytes hline.isLine
  induction lines generalizing line with
  | nil =>
    have hsingle : block [line] = Utf8.bytes line ++ emptyLine := block_cons line []
    rw [hsingle, List.append_assoc]
    exact .single unbroken more
  | cons next lines ih =>
    obtain ⟨hnext, hothers⟩ := List.forall_mem_cons.1 hlines
    have hhead := ih hlines hnext hothers (Source.lineFeed_notMem_bytes hnext.isLine)
    have filled : ¬Chunked.lineEnd <+: block (next :: lines) ++ more := by
      rw [block_cons, List.append_assoc, List.append_assoc]
      exact hnext.not_lineEnd (block lines ++ more)
    rw [block_cons line, List.append_assoc, List.append_assoc]
    exact hhead.cons unbroken filled

theorem writtenLines_block {lines : List String} (h : ∀ line ∈ lines, IsHeadLine line) :
    Source.WrittenLines (lines ++ [""]) (block lines) := by
  induction lines with
  | nil => exact .cons (by decide) .crlf (by decide) .nil
  | cons line lines ih =>
    obtain ⟨hline, hlines⟩ := List.forall_mem_cons.1 h
    rw [block_cons, ← List.append_assoc]
    exact .cons hline.isLine .crlf hline.short (ih hlines)

/-- Lines are found again as a head. -/
theorem hasHead_block {start : String} {lines : List String}
    (h : ∀ line ∈ start :: lines, IsHeadLine line) (more : List UInt8) (ending : Ending) :
    Source.HasHead ⟨block (start :: lines) ++ more, ending⟩ ⟨start, lines⟩ ⟨more, ending⟩ := by
  have hnonempty : "" ∉ lines := fun hempty =>
    (h "" (List.mem_cons_of_mem start hempty)).nonempty rfl
  obtain ⟨afterStart, hafter, hstart⟩ := (writtenLines_block h).hasLine
  obtain ⟨next, hnone, hblock⟩ := hafter.block hnonempty
  cases hnone
  exact ⟨⟨afterStart ++ more, ending⟩, hstart more ending, hblock more ending⟩

theorem length_block_le {lines : List String} (h : ∀ line ∈ lines, IsHeadLine line) :
    (block lines).length ≤ (lines.length + 1) * Source.maxLine := by
  induction lines with
  | nil => decide
  | cons line lines ih =>
    obtain ⟨hline, hlines⟩ := List.forall_mem_cons.1 h
    have hshort := hline.short
    have hothers := ih hlines
    rw [block_cons, List.length_append, List.length_append, List.length_cons, Nat.succ_mul]
    omega

end Reply

/-! ## Replies -/

/-- How a reply with a new body is laid out: an ICAP head and an encapsulated part, which is the
head of an HTTP message and the body in chunks. -/
structure Layout (body bytes icapHead httpHead : List UInt8) : Prop where
  whole : bytes = icapHead ++ (httpHead ++ Chunked.write body)
  isHead : IsHeadOf icapHead bytes
  isInnerHead : IsHeadOf httpHead (httpHead ++ Chunked.write body)
  /-- The headers are read up to the encapsulated part, and give the places in it at which the HTTP
  head and the body begin. -/
  announced : ∀ ending, ∃ afterLine headers value,
    Source.readLine ⟨bytes, ending⟩ = .ok (some "ICAP/1.0 200 OK", afterLine) ∧
    IcapHeaders.read afterLine = .ok (headers, ⟨httpHead ++ Chunked.write body, ending⟩) ∧
    headers.get? "Encapsulated" = some value ∧
    Sections.offset? value "res-hdr" = some 0 ∧
    Sections.offset? value "res-body" = some httpHead.length
  /-- The HTTP head is read up to the body, and gives its length. -/
  framed : ∀ ending, ∃ head,
    HttpHead.read ⟨httpHead ++ Chunked.write body, ending⟩ = .ok (head, ⟨Chunked.write body, ending⟩) ∧
    head.contentLength? = some body.length
  /-- The body is read to its end. -/
  readBack : ∀ limit ending, body.length ≤ limit →
    Chunked.read limit ⟨Chunked.write body, ending⟩ = .ok (body, ⟨[], ending⟩)

namespace Reply

/-- The headers of a reply whose body begins at the given place. -/
def outerHeaders (place : Nat) : List (String × String) :=
  [("ISTag", serviceTag), ("Encapsulated", "res-hdr=0, res-body=" ++ toString place)]

/-- The headers of the HTTP message around a body. -/
def innerHeaders (bodyLength : Nat) : List (String × String) :=
  [("Content-Length", toString bodyLength), ("Content-Type", "application/json")]

theorem bytes_modified (body : List UInt8) :
    bytes (.modified body) =
      block ("ICAP/1.0 200 OK" ::
        (outerHeaders (httpHead body.length).length).map IcapHeaders.headerLine) ++
          (httpHead body.length ++ Chunked.write body) := by
  have hplace (place : Nat) :
      IcapHeaders.headerLine ("Encapsulated", "res-hdr=0, res-body=" ++ toString place) =
        s!"Encapsulated: res-hdr=0, res-body={place}" := by
    rw [IcapHeaders.headerLine, ← String.append_assoc]
    rfl
  rw [outerHeaders, List.map_cons, List.map_cons, List.map_nil, hplace, ← List.append_assoc]
  rfl

/-- A number at the end of a header value has no blanks around it. -/
theorem trimmed_number {label : String} (h : label.toList.head?.any Text.isBlank = false)
    (n : Nat) : Text.trimmed (label ++ toString n) = label ++ toString n := by
  have hblank : ∀ c ∈ (toString n).toList, Text.isBlank c = false :=
    Numeral.forall_mem_toString (by decide) n
  have hnumber : (toString n).toList ≠ [] := by
    rw [Numeral.toList_toString]
    exact Nat.toDigits_ne_nil
  rw [Text.trimmed, Text.trim_of_ends, String.ofList_toList]
  · intro c hc
    rw [String.toList_append, List.head?_append] at hc
    cases hlabel : label.toList.head? with
    | none =>
      rw [hlabel, Option.none_or] at hc
      exact hblank c (List.mem_of_head? hc)
    | some first =>
      rw [hlabel, Option.some_or] at hc
      rw [hlabel, Option.any_some] at h
      cases hc
      exact h
  · intro c hc
    rw [String.toList_append, List.getLast?_append, List.getLast?_eq_some_getLast hnumber,
      Option.some_or] at hc
    cases hc
    exact hblank _ (List.getLast_mem hnumber)

theorem isHeader_outerHeaders (place : Nat) :
    ∀ header ∈ outerHeaders place, IcapHeaders.IsHeader header := by
  intro header hheader
  simp only [outerHeaders, List.mem_cons, List.not_mem_nil, or_false] at hheader
  rcases hheader with rfl | rfl
  · decide
  · exact .mk (by dsimp only; decide) (by dsimp only; decide) (trimmed_number (by decide) place)

theorem isHeadLine_outerHeaders {place : Nat} (h : place < Numeral.sizeBound) :
    ∀ line ∈ "ICAP/1.0 200 OK" :: (outerHeaders place).map IcapHeaders.headerLine,
      IsHeadLine line := by
  intro line hline
  simp only [outerHeaders, List.map_cons, List.map_nil, List.mem_cons, List.not_mem_nil,
    or_false] at hline
  rcases hline with rfl | rfl | rfl
  · decide
  · decide
  · rw [IcapHeaders.headerLine, ← String.append_assoc]
    dsimp only
    exact .of_number (by decide) (by decide) h

theorem distinct_outerHeaders (place : Nat) : IcapHeaders.Distinct (outerHeaders place) := by
  rw [IcapHeaders.Distinct, outerHeaders, List.pairwise_pair]
  dsimp only
  decide

theorem isHeadLine_innerHeaders {bodyLength : Nat} (h : bodyLength < Numeral.sizeBound) :
    ∀ line ∈ "HTTP/1.1 200 OK" :: (innerHeaders bodyLength).map IcapHeaders.headerLine,
      IsHeadLine line := by
  intro line hline
  simp only [innerHeaders, List.map_cons, List.map_nil, List.mem_cons, List.not_mem_nil,
    or_false] at hline
  rcases hline with rfl | rfl | rfl
  · decide
  · rw [IcapHeaders.headerLine]
    dsimp only
    exact .of_number (by decide) (by decide) h
  · decide

/-- The length of the body is read from the head around it. -/
theorem contentLength?_innerHeaders {bodyLength : Nat} (h : bodyLength < Numeral.sizeBound)
    (start : String) :
    HttpHead.contentLength? ⟨start, (innerHeaders bodyLength).map IcapHeaders.headerLine⟩ =
      some bodyLength := by
  have hvalue : HttpHead.valueIn? "Content-Length"
      (IcapHeaders.headerLine ("Content-Length", toString bodyLength)) =
        some (toString bodyLength) := by
    have htrimmed : Text.trimmed (toString bodyLength) = toString bodyLength := by
      have hnumber := @trimmed_number "" (by decide) bodyLength
      rwa [String.empty_append] at hnumber
    rw [HttpHead.valueIn?, IcapHeaders.toList_headerLine]
    dsimp only
    rw [Text.splitAtFirst?_append (by decide)]
    dsimp only
    rw [if_pos (by decide), Text.trim_cons_blank rfl, ← Text.trimmed, htrimmed]
  rw [HttpHead.contentLength?, HttpHead.header?, innerHeaders, List.map_cons, List.findSome?_cons,
    hvalue]
  exact Numeral.decimalBelow?_toString h

/-- A reply with a new body is an ICAP head and an encapsulated part.  The ICAP head says at which
byte of that part the body begins, the HTTP head before the body says how long it is, and the
readers of requests find the heads and the body, with nothing left over. -/
theorem modified_layout (body : List UInt8) (sized : body.length < Numeral.sizeBound) :
    ∃ icapHead httpHead, Layout body (bytes (.modified body)) icapHead httpHead := by
  have hinner := isHeadLine_innerHeaders sized
  have hplace : (httpHead body.length).length < Numeral.sizeBound :=
    Nat.lt_of_le_of_lt (length_block_le hinner) (show 4 * Source.maxLine < _ by decide)
  let place := (httpHead body.length).length
  let encapsulated := httpHead body.length ++ Chunked.write body
  have houter := isHeadLine_outerHeaders hplace
  have hdistinct := distinct_outerHeaders place
  refine ⟨block ("ICAP/1.0 200 OK" :: (outerHeaders place).map IcapHeaders.headerLine),
    httpHead body.length, ?_⟩
  rw [bytes_modified]
  refine ⟨rfl, isHeadOf_block houter encapsulated, isHeadOf_block hinner (Chunked.write body),
    fun ending => ?_, fun ending => ?_, fun limit ending fits => ?_⟩
  · obtain ⟨afterLine, hstart, hblock⟩ := hasHead_block houter encapsulated ending
    refine ⟨afterLine, ⟨outerHeaders place⟩, "res-hdr=0, res-body=" ++ toString place,
      Source.readLine_eq_some_iff.2 hstart, ?_, ?_, Sections.offset?_written hplace⟩
    · rw [IcapHeaders.read, Source.readBlock_eq_ok_iff.2 hblock]
      dsimp only
      rw [IcapHeaders.ofLines_map_headerLine (isHeader_outerHeaders place) hdistinct]
    · exact IcapHeaders.get?_of_mem hdistinct (List.mem_cons_of_mem _ List.mem_cons_self) (by decide)
  · have hhead := hasHead_block hinner (Chunked.write body) ending
    exact ⟨_, HttpHead.read_eq_ok_iff.2 hhead, contentLength?_innerHeaders sized _⟩
  · have hchunks := Chunked.chunks_write fits [] ending
    rw [List.append_nil] at hchunks
    exact Chunked.readFrom_eq_ok_iff.2 hchunks

theorem modified_layout_sample :
    Chunked.sampleBody.length < Numeral.sizeBound ∧
      ∃ icapHead httpHead,
        Layout Chunked.sampleBody (bytes (.modified Chunked.sampleBody)) icapHead httpHead := by
  have sized : Chunked.sampleBody.length < Numeral.sizeBound := by
    rw [Chunked.length_sampleBody]
    decide
  exact ⟨sized, modified_layout Chunked.sampleBody sized⟩

end Reply

end CardGate
