import CardGate.Icap.RequestLine
import CardGate.Proofs.Icap.Writing

/-!
# Reading back a request

A `RequestForm` holds what a request says, and `RequestForm.lines` and `RequestForm.bodyBytes` are
how it is written: the request line, the headers, the heads of the message, and the body as the last
head frames it.

`RequestForm.read_written` says that every part is read back as it was, for all line ends and
whatever comes after the request, of which nothing is read.
-/

namespace CardGate

/-! ## Headers -/

namespace IcapHeaders

/-- A header as it is written. -/
def headerLine (header : String × String) : String :=
  header.1 ++ ": " ++ header.2

theorem toList_headerLine (header : String × String) :
    (headerLine header).toList = header.1.toList ++ ':' :: ' ' :: header.2.toList := by
  rw [headerLine, String.toList_append, String.toList_append, List.append_assoc]
  rfl

theorem headerLine_ne_empty (header : String × String) : headerLine header ≠ "" := by
  intro h
  have hlist := congrArg String.toList h
  rw [toList_headerLine] at hlist
  exact List.append_ne_nil_of_right_ne_nil _ (List.cons_ne_nil _ _) hlist

/-- A header that can be written: the name has no colon, and neither part has blanks around it. -/
structure IsHeader (header : String × String) : Prop where
  plain : ':' ∉ header.1.toList
  name : Text.trimmed header.1 = header.1
  value : Text.trimmed header.2 = header.2

instance (header : String × String) : Decidable (IsHeader header) :=
  decidable_of_iff (':' ∉ header.1.toList ∧ Text.trimmed header.1 = header.1 ∧
      Text.trimmed header.2 = header.2)
    ⟨fun h => ⟨h.1, h.2.1, h.2.2⟩, fun h => ⟨h.plain, h.name, h.value⟩⟩

theorem addLine_headerLine {header : String × String} (h : IsHeader header)
    (headers : IcapHeaders) :
    headers.addLine (headerLine header) = headers.insert header.1 header.2 := by
  rw [addLine, toList_headerLine, Text.splitAtFirst?_append h.plain]
  dsimp only
  rw [Text.trim_cons_blank rfl, Text.toList_trimmed h.name, Text.toList_trimmed h.value,
    String.ofList_toList, String.ofList_toList]

/-- A new name is entered behind the others. -/
theorem insertInto_of_free {name value : String} {entries : List (String × String)}
    (h : ∀ entry ∈ entries, Text.sameName entry.1 name = false) :
    insertInto name value entries = entries ++ [(name, value)] := by
  induction entries with
  | nil => rfl
  | cons entry entries ih =>
    obtain ⟨n, v⟩ := entry
    obtain ⟨hentry, hentries⟩ := List.forall_mem_cons.1 h
    rw [insertInto, if_neg (Bool.eq_false_iff.1 hentry), ih hentries, List.cons_append]

/-- The names of headers are different, also without regard to case. -/
def Distinct (entries : List (String × String)) : Prop :=
  entries.Pairwise fun one other => Text.sameName one.1 other.1 = false

instance (entries : List (String × String)) : Decidable (Distinct entries) :=
  inferInstanceAs (Decidable (List.Pairwise _ entries))

theorem foldl_addLine {before entries : List (String × String)}
    (hheaders : ∀ header ∈ entries, IsHeader header) (hdistinct : Distinct (before ++ entries)) :
    (entries.map headerLine).foldl addLine ⟨before⟩ = ⟨before ++ entries⟩ := by
  induction entries generalizing before with
  | nil => rw [List.append_nil, List.map_nil, List.foldl_nil]
  | cons header entries ih =>
    obtain ⟨hheader, hentries⟩ := List.forall_mem_cons.1 hheaders
    have hfree : ∀ entry ∈ before, Text.sameName entry.1 header.1 = false := fun entry hentry =>
      (List.pairwise_append.1 hdistinct).2.2 entry hentry header List.mem_cons_self
    rw [List.append_cons] at hdistinct ⊢
    rw [List.map_cons, List.foldl_cons, addLine_headerLine hheader, insert,
      insertInto_of_free hfree]
    exact ih hentries hdistinct

/-- Headers of different names are read back as they were written. -/
theorem ofLines_map_headerLine {entries : List (String × String)}
    (hheaders : ∀ header ∈ entries, IsHeader header) (hdistinct : Distinct entries) :
    ofLines (entries.map headerLine) = ⟨entries⟩ :=
  @foldl_addLine [] entries hheaders hdistinct

/-- The value of a header among others is found under its name in any case. -/
theorem get?_of_mem {entries : List (String × String)} (hdistinct : Distinct entries)
    {name value other : String} (hmem : (name, value) ∈ entries)
    (hsame : Text.sameName name other = true) :
    get? ⟨entries⟩ other = some value := by
  induction entries with
  | nil => exact absurd hmem List.not_mem_nil
  | cons entry entries ih =>
    obtain ⟨hentry, hentries⟩ := List.pairwise_cons.1 hdistinct
    rcases List.mem_cons.1 hmem with rfl | hmem
    · simp only [get?, List.find?_cons, hsame, Option.map_some]
    · have hdifferent : Text.sameName entry.1 other = false := by
        rw [Bool.eq_false_iff]
        intro hentryOther
        have hfalse := hentry (name, value) hmem
        rw [Text.sameName_iff] at hsame hentryOther
        exact Bool.eq_false_iff.1 hfalse (Text.sameName_iff.2 (hentryOther.trans hsame.symm))
      simp only [get?, List.find?_cons, hdifferent]
      exact ih hentries hmem

end IcapHeaders

/-- Whether a header value names a section: one of its entries does, before the offset and without
regard to case and blanks. -/
def Sections.Names (value name : String) : Prop :=
  ∃ entry ∈ Text.fields (· == ',') value.toList,
    Text.lower (Text.trim (entry.takeWhile (· ≠ '='))) = name.toList

instance (value name : String) : Decidable (Sections.Names value name) :=
  inferInstanceAs (Decidable (∃ entry ∈ _, _))

theorem Sections.contains_iff {value name : String} :
    ((Text.fields (· == ',') value.toList).map entryName).contains name.toList = true ↔
      Names value name := by
  rw [List.contains_iff_mem, List.mem_map]
  rfl

/-! ## Requests as they are written -/

/-- What a request says. -/
structure RequestForm where
  method : String
  uri : String
  version : String
  headers : List (String × String)
  requestHead : Option HttpHead
  responseHead : Option HttpHead
  body : Option (List UInt8)

namespace RequestForm

/-- The lines of a head, with the empty one that ends it. -/
def headLines : Option HttpHead → List String
  | none => []
  | some head => head.startLine :: (head.headerLines ++ [""])

/-- The request line. -/
def requestLine (form : RequestForm) : String :=
  form.method ++ " " ++ form.uri ++ " " ++ form.version

/-- The lines of a request, in order. -/
def lines (form : RequestForm) : List String :=
  form.requestLine :: (form.headers.map IcapHeaders.headerLine ++
    "" :: (headLines form.requestHead ++ headLines form.responseHead))

/-- The head that says how the body is framed. -/
def lastHead (form : RequestForm) : Option HttpHead :=
  form.responseHead.or form.requestHead

/-- The bytes of the body: in chunks if the last head says so, and else as they are. -/
def bodyBytes (form : RequestForm) : List UInt8 :=
  match form.body with
  | none => []
  | some body => if form.lastHead.any HttpHead.isChunked then Chunked.write body else body

/-- What a request says is consistent, and can be told apart from its framing. -/
structure WellFormed (limit : Nat) (form : RequestForm) : Prop where
  words : ∀ word ∈ [form.method, form.uri, form.version], Text.IsWord word.toList
  headers : ∀ header ∈ form.headers, IcapHeaders.IsHeader header
  distinct : IcapHeaders.Distinct form.headers
  /-- The sections that are there are announced, and no others. -/
  announced : ∃ name value, (name, value) ∈ form.headers ∧
    Text.sameName name "Encapsulated" = true ∧
      (Sections.Names value "req-hdr" ↔ form.requestHead.isSome) ∧
      (Sections.Names value "res-hdr" ↔ form.responseHead.isSome) ∧
      (Sections.Names value "req-body" ∨ Sections.Names value "res-body" ↔ form.body.isSome)
  filled : ∀ head, form.requestHead = some head ∨ form.responseHead = some head →
    "" ∉ head.headerLines
  /-- A body comes after a head, is within the limit, and has the declared length if it is not sent
  in chunks. -/
  framed : ∀ body, form.body = some body → body.length ≤ limit ∧
    ∃ head, form.lastHead = some head ∧
      (head.isChunked = false → head.contentLength? = some body.length)

/-! ## Reading it back -/

open Source

theorem ofLine_requestLine {form : RequestForm} {limit : Nat} (h : form.WellFormed limit) :
    RequestLine.ofLine form.requestLine = .ok ⟨form.method, form.uri, form.version⟩ := by
  have hmethod := h.words form.method (by simp)
  have huri := h.words form.uri (by simp)
  have hversion := h.words form.version (by simp)
  have hlist : form.requestLine.toList =
      form.method.toList ++ ' ' :: (form.uri.toList ++ ' ' :: form.version.toList) := by
    simp [requestLine]
  rw [RequestLine.ofLine, hlist, Text.words_append hmethod, Text.words_append huri,
    Text.words_of_isWord hversion]
  simp only [String.ofList_toList]

theorem headSection_written {head : Option HttpHead} {others : List String} {bytes : List UInt8}
    (filled : ∀ present, head = some present → "" ∉ present.headerLines)
    (h : WrittenLines (headLines head ++ others) bytes) :
    ∃ next, WrittenLines others next ∧
      ∀ more ending, HeadSection head.isSome ⟨bytes ++ more, ending⟩ head ⟨next ++ more, ending⟩ := by
  cases head with
  | none => exact ⟨bytes, h, fun more ending => .absent⟩
  | some head =>
    rw [headLines, List.cons_append, List.append_assoc] at h
    obtain ⟨afterStart, hafter, hstart⟩ := h.hasLine
    obtain ⟨next, hothers, hblock⟩ := hafter.block (filled head rfl)
    refine ⟨next, hothers, fun more ending => .present ?_⟩
    exact ⟨⟨afterStart ++ more, ending⟩, hstart more ending, hblock more ending⟩

theorem bodySection_written {form : RequestForm} {limit : Nat} (h : form.WellFormed limit)
    (rest : List UInt8) (ending : Ending) :
    BodySection limit form.lastHead form.body.isSome ⟨form.bodyBytes ++ rest, ending⟩
      (form.body.getD []) ⟨rest, ending⟩ := by
  rw [bodyBytes]
  cases hbody : form.body with
  | none => exact .absent
  | some body =>
    obtain ⟨fits, head, hhead, hlength⟩ := h.framed body hbody
    refine .present ?_
    rw [hhead, Option.any_some]
    dsimp only
    by_cases hchunked : head.isChunked = true
    · rw [if_pos hchunked]
      exact .chunked hchunked (Chunked.chunks_write fits rest ending)
    · rw [if_neg hchunked]
      have hraw := Bool.not_eq_true _ ▸ hchunked
      exact .declared hraw (hlength hraw) fits rfl

/-- A well-formed request is read back exactly, with any line ends and whatever comes after it: the
words of the request line, the headers in order, the sections that they announce, the heads, and the
body.  What comes after is left on the stream. -/
theorem read_written {form : RequestForm} {limit : Nat} (wellFormed : form.WellFormed limit)
    {text : List UInt8} (written : WrittenLines form.lines text) (rest : List UInt8)
    (ending : Ending) :
    ∃ line afterLine afterHeaders sections,
      readLine ⟨text ++ form.bodyBytes ++ rest, ending⟩ = .ok (some line, afterLine) ∧
      RequestLine.ofLine line = .ok ⟨form.method, form.uri, form.version⟩ ∧
      IcapHeaders.read afterLine = .ok (⟨form.headers⟩, afterHeaders) ∧
      IcapHeaders.sections ⟨form.headers⟩ = .ok sections ∧
      sections.requestHead = form.requestHead.isSome ∧
      sections.responseHead = form.responseHead.isSome ∧
      sections.hasBody = form.body.isSome ∧
      HttpMessage.read sections limit afterHeaders =
        .ok (⟨form.requestHead, form.responseHead, form.body.getD []⟩, ⟨rest, ending⟩) := by
  obtain ⟨afterLine, hheaders, hline⟩ := written.hasLine
  have hnonempty : "" ∉ form.headers.map IcapHeaders.headerLine := by
    intro hmem
    obtain ⟨header, -, hempty⟩ := List.mem_map.1 hmem
    exact IcapHeaders.headerLine_ne_empty header hempty
  obtain ⟨afterHeaders, hheads, hblock⟩ := hheaders.block hnonempty
  obtain ⟨afterRequest, hresponses, hrequest⟩ := headSection_written
    (fun head hhead => wellFormed.filled head (Or.inl hhead)) hheads
  rw [← List.append_nil (headLines form.responseHead)] at hresponses
  obtain ⟨afterResponse, hnone, hresponse⟩ := headSection_written
    (fun head hhead => wellFormed.filled head (Or.inr hhead)) hresponses
  cases hnone
  obtain ⟨name, value, hmem, hname, hrequestNamed, hresponseNamed, hbodyNamed⟩ :=
    wellFormed.announced
  let more := form.bodyBytes ++ rest
  let sections := Sections.ofValue value
  have hsections : sections.requestHead = form.requestHead.isSome ∧
      sections.responseHead = form.responseHead.isSome ∧
        sections.hasBody = form.body.isSome := by
    refine ⟨Bool.eq_iff_iff.2 ?_, Bool.eq_iff_iff.2 ?_, Bool.eq_iff_iff.2 ?_⟩
    · rw [← hrequestNamed]
      exact Sections.contains_iff
    · rw [← hresponseNamed]
      exact Sections.contains_iff
    · rw [← hbodyNamed, Sections.hasBody, Bool.or_eq_true]
      exact or_congr Sections.contains_iff Sections.contains_iff
  have request := hrequest more ending
  have response := hresponse more ending
  have framed := bodySection_written wellFormed rest ending
  rw [← hsections.1] at request
  rw [← hsections.2.1] at response
  rw [← hsections.2.2] at framed
  refine ⟨form.requestLine, ⟨afterLine ++ more, ending⟩, ⟨afterHeaders ++ more, ending⟩, sections,
    ?_, ofLine_requestLine wellFormed, ?_, ?_, hsections.1, hsections.2.1, hsections.2.2,
    HttpMessage.read_eq_ok_iff.2 (.intro request response framed)⟩
  · rw [List.append_assoc]
    exact readLine_eq_some_iff.2 (hline more ending)
  · rw [IcapHeaders.read, readBlock_eq_ok_iff.2 (hblock more ending)]
    dsimp only
    rw [IcapHeaders.ofLines_map_headerLine wellFormed.headers wellFormed.distinct]
  · rw [IcapHeaders.sections, IcapHeaders.get?_of_mem wellFormed.distinct hmem hname]

/-- A response that is handed over with the request it answers. -/
def sample : RequestForm where
  method := "RESPMOD"
  uri := "icap://gate/cards"
  version := "ICAP/1.0"
  headers := [("Host", "gate"), ("encapsulated", "req-hdr=0, RES-HDR=23, res-body=70")]
  requestHead := some ⟨"GET /order HTTP/1.1", []⟩
  responseHead := some ⟨"HTTP/1.1 200 OK", ["Transfer-Encoding: chunked"]⟩
  body := some (Utf8.bytes "\x7b\x7d")

/-- Its lines, with either end. -/
def sampleLines : List (String × LineEnd) :=
  [("RESPMOD icap://gate/cards ICAP/1.0", .crlf), ("Host: gate", .lf),
    ("encapsulated: req-hdr=0, RES-HDR=23, res-body=70", .crlf), ("", .lf),
    ("GET /order HTTP/1.1", .lf), ("", .crlf),
    ("HTTP/1.1 200 OK", .crlf), ("Transfer-Encoding: chunked", .lf), ("", .crlf)]

def sampleText : List UInt8 :=
  sampleLines.flatMap fun line => Utf8.bytes line.1 ++ line.2.bytes

theorem read_written_sample :
    sample.WellFormed 1024 ∧ WrittenLines sample.lines sampleText ∧
    ∃ line afterLine afterHeaders sections,
      readLine ⟨sampleText ++ sample.bodyBytes ++ [33], .closed⟩ = .ok (some line, afterLine) ∧
      RequestLine.ofLine line = .ok ⟨sample.method, sample.uri, sample.version⟩ ∧
      IcapHeaders.read afterLine = .ok (⟨sample.headers⟩, afterHeaders) ∧
      IcapHeaders.sections ⟨sample.headers⟩ = .ok sections ∧
      sections.requestHead = true ∧ sections.responseHead = true ∧ sections.hasBody = true ∧
      HttpMessage.read sections 1024 afterHeaders =
        .ok (⟨sample.requestHead, sample.responseHead, Utf8.bytes "\x7b\x7d"⟩, ⟨[33], .closed⟩) := by
  have wellFormed : sample.WellFormed 1024 := by
    refine ⟨by decide, by decide, by decide, ?_, ?_, ?_⟩
    · exact ⟨"encapsulated", "req-hdr=0, RES-HDR=23, res-body=70", by decide, by decide, by decide,
        by decide, by decide⟩
    · rintro head (h | h) <;> cases h <;> decide
    · rintro body ⟨⟩
      exact ⟨by decide, ⟨"HTTP/1.1 200 OK", ["Transfer-Encoding: chunked"]⟩, rfl, by decide⟩
  have hends : ∀ line ∈ sampleLines, IsLine line.1 ∧
      (Utf8.bytes line.1).length + line.2.bytes.length ≤ maxLine := by
    decide +kernel
  have written : WrittenLines sample.lines sampleText := WrittenLines.of_ends hends
  exact ⟨wellFormed, written, read_written wellFormed written [33] .closed⟩

end RequestForm

end CardGate
