import CardGate.Proofs.Icap.Rooms
import CardGate.Proofs.Substitution.Passing

/-!
# Which answer a client gets

`Source.Earns` says of a stream, by its grammar, which of six answers is due: none at all, what the
service offers, the message as it is, a new body, or one of two failures.

`Exchange.serve_answers` says that exactly one answer is sent, as a whole, and that it is the one
that is due, unless the request declares more of a body than a buffer can have and is let in with
it.  Then nothing is sent, whatever is due.  Under a limit of half the words or more this happens:
`Exchange.serve_silent` has a body beyond the limit, for which a failure is due.  Under a limit that
a buffer can have it does not.

The store and the tokens are untouched unless a body with a card in it is tokenized, so a request
that fails has no effect.
-/

namespace CardGate

/-! ## What a client asks -/

namespace Source

/-- A request line with a given method opens a stream, complete headers follow it, and the rest of
the stream comes after them. -/
def Asks (s : Source) (method : String) (headers : IcapHeaders) (rest : Source) : Prop :=
  ∃ text next uri version more lines, s.HasLine text next ∧
    Text.words text.toList = method.toList :: uri :: version :: more ∧
      next.Block lines rest ∧ headers = .ofLines lines

/-- A request with a given method carries a message of the sections that its headers announce. -/
def Carries (limit : Nat) (s : Source) (method : String) (message : HttpMessage) : Prop :=
  ∃ headers next value rest, s.Asks method headers next ∧
    headers.get? "Encapsulated" = some value ∧
      next.Message (.ofValue value) limit message rest

/-- A request to adapt a message, how the body of the message is framed, and the stream where the
body begins. -/
inductive Submits (s : Source) (framing : Framing) (rest : Source) : Prop
  | intro {method value : String} {headers : IcapHeaders} {next : Source}
      (asks : s.Asks method headers next) (adapts : method = "REQMOD" ∨ method = "RESPMOD")
      (announced : headers.get? "Encapsulated" = some value)
      (framed : next.Frames (.ofValue value) framing rest)

/-- A body is let in for which there is no buffer. -/
def Overflows (limit : Nat) (s : Source) : Prop :=
  ∃ framing rest room, s.Submits framing rest ∧ room ∈ framing.rooms limit rest ∧
    Room.maxBuffer < room.stop

/-- A body is to be adapted, and how. -/
inductive Adapts (limit : Nat) (s : Source) : Transform → List UInt8 → Prop
  | request {message : HttpMessage} (carries : s.Carries limit "REQMOD" message) :
      Adapts limit s .detokenize message.body
  | response {message : HttpMessage} (carries : s.Carries limit "RESPMOD" message) :
      Adapts limit s (.ofContentType message.contentType?) message.body

/-- The framing of a request is broken. -/
inductive Malformed (limit : Nat) (s : Source) : Prop
  | brokenOff (unbroken : lineFeed ∉ s.bytes) (reset : s.ending = .reset)
  | longLine {line : List UInt8} {rest : Source} (first : s.Line line rest)
      (long : maxLine ≤ line.length)
  | openHeaders {text : String} {next : Source} (first : s.HasLine text next)
      (worded : 3 ≤ (Text.words text.toList).length)
      (endless : ∀ lines rest, ¬next.Block lines rest)
  | unannounced {method : String} {headers : IcapHeaders} {next : Source}
      (asks : s.Asks method headers next) (adapts : method = "REQMOD" ∨ method = "RESPMOD")
      (missing : headers.get? "Encapsulated" = none)
  /-- A head or a body that does not end, a chunk without a size, or a body beyond the limit. -/
  | brokenMessage {method value : String} {headers : IcapHeaders} {next : Source}
      (asks : s.Asks method headers next) (adapts : method = "REQMOD" ∨ method = "RESPMOD")
      (announced : headers.get? "Encapsulated" = some value)
      (broken : ∀ message rest, ¬next.Message (.ofValue value) limit message rest)

end Source

/-! ## What is read -/

theorem RequestLine.ofLine_of_words {text method : String} {uri version : List Char}
    {more : List (List Char)}
    (h : Text.words text.toList = method.toList :: uri :: version :: more) :
    RequestLine.ofLine text = .ok ⟨method, String.ofList uri, String.ofList version⟩ := by
  rw [ofLine, h]
  simp only [String.ofList_toList]

theorem RequestLine.ofLine_of_few {text : String} (h : (Text.words text.toList).length < 3) :
    RequestLine.ofLine text = .error (.badRequestLine text) := by
  rw [ofLine]
  split
  · next heq =>
    rw [heq] at h
    simp only [List.length_cons] at h
    omega
  · rfl

theorem Text.exists_words {text : String} (h : 3 ≤ (Text.words text.toList).length) :
    ∃ (method : String) (uri version : List Char) (more : List (List Char)),
      Text.words text.toList = method.toList :: uri :: version :: more := by
  rcases hwords : Text.words text.toList with _ | ⟨method, _ | ⟨uri, _ | ⟨version, more⟩⟩⟩
  · rw [hwords] at h
    cases h
  · simp [hwords] at h
  · simp [hwords] at h
  · exact ⟨String.ofList method, uri, version, more, by rw [String.toList_ofList]⟩

theorem RequestLine.exists_words_of_ofLine {text : String} {line : RequestLine}
    (h : ofLine text = .ok line) :
    ∃ uri version more, Text.words text.toList = line.method.toList :: uri :: version :: more := by
  rw [ofLine] at h
  split at h
  · next method uri version more hwords =>
    cases h
    exact ⟨uri, version, more, by rw [hwords, String.toList_ofList]⟩
  · cases h

theorem IcapHeaders.exists_block_of_read {s rest : Source} {headers : IcapHeaders}
    (h : read s = .ok (headers, rest)) :
    ∃ lines, s.Block lines rest ∧ headers = .ofLines lines := by
  rw [read] at h
  split at h
  · cases h
  · next lines after hblock =>
    cases h
    exact ⟨lines, Source.readBlock_eq_ok_iff.1 hblock, rfl⟩

/-- The sections of a message are those that a header announces. -/
theorem IcapHeaders.exists_get?_of_sections {headers : IcapHeaders} {sections : Sections}
    (h : headers.sections = .ok sections) :
    ∃ value, headers.get? "Encapsulated" = some value ∧ sections = .ofValue value := by
  rw [IcapHeaders.sections] at h
  split at h
  · next value hvalue =>
    cases h
    exact ⟨value, hvalue, rfl⟩
  · cases h

namespace Request

open Source

variable {limit : Nat} {s : Source}

/-- A request line and headers that are read ask for the method of the line. -/
theorem asks_of_read {text : String} {next rest : Source} {line : RequestLine}
    {headers : IcapHeaders} (hline : s.readLine = .ok (some text, next))
    (hrequest : RequestLine.ofLine text = .ok line)
    (hheaders : IcapHeaders.read next = .ok (headers, rest)) : s.Asks line.method headers rest := by
  obtain ⟨uri, version, more, hwords⟩ := RequestLine.exists_words_of_ofLine hrequest
  obtain ⟨lines, hblock, rfl⟩ := IcapHeaders.exists_block_of_read hheaders
  exact ⟨text, next, uri, version, more, lines, readLine_eq_some_iff.1 hline, hwords, hblock, rfl⟩

theorem readMessage_eq_ok_iff {headers : IcapHeaders} {message : HttpMessage} :
    readMessage headers limit s = .ok message ↔
      ∃ value rest, headers.get? "Encapsulated" = some value ∧
        s.Message (.ofValue value) limit message rest := by
  rw [readMessage, IcapHeaders.sections]
  cases headers.get? "Encapsulated" with
  | none => simp
  | some value =>
    simp only [Option.some.injEq, exists_and_left, exists_eq_left']
    constructor
    · intro h
      split at h
      · cases h
      · next rest hread =>
        cases h
        exact ⟨rest, HttpMessage.read_eq_ok_iff.1 hread⟩
    · rintro ⟨rest, hmessage⟩
      rw [HttpMessage.read_eq_ok_iff.2 hmessage]

theorem isFraming_of_readMessage {headers : IcapHeaders} {e : IcapError}
    (h : readMessage headers limit s = .error e) : e.IsFraming := by
  rw [readMessage, IcapHeaders.sections] at h
  cases hvalue : headers.get? "Encapsulated" with
  | none =>
    rw [hvalue] at h
    cases h
    exact ⟨rfl, rfl⟩
  | some value =>
    rw [hvalue] at h
    dsimp only at h
    split at h
    · next hread =>
      cases h
      exact HttpMessage.isFraming_of_read hread
    · cases h

theorem read_of_few {text : String} {rest : Source} (hline : s.HasLine text rest)
    (hfew : (Text.words text.toList).length < 3) :
    read limit s = .error (.badRequestLine text) := by
  rw [read, readLine_eq_some_iff.2 hline]
  simp only [RequestLine.ofLine_of_few hfew]

/-- After the headers, what is read depends on the method. -/
theorem read_of_asks {method : String} {headers : IcapHeaders} {rest : Source}
    (h : s.Asks method headers rest) :
    read limit s = (readFor method headers limit rest).map some := by
  obtain ⟨text, next, uri, version, more, lines, hline, hwords, hblock, rfl⟩ := h
  rw [read, readLine_eq_some_iff.2 hline]
  simp only [RequestLine.ofLine_of_words hwords, IcapHeaders.read, readBlock_eq_ok_iff.2 hblock]

theorem readFor_of_adapts {method : String} {headers : IcapHeaders} {e : IcapError}
    (hmethod : method = "REQMOD" ∨ method = "RESPMOD")
    (h : readMessage headers limit s = .error e) :
    readFor method headers limit s = .error e := by
  rcases hmethod with rfl | rfl
  · simp [readFor, h]
  · simp [readFor, h]

theorem exists_readMessage_of_carries {method : String} {message : HttpMessage}
    (h : s.Carries limit method message) :
    ∃ headers next, s.Asks method headers next ∧ readMessage headers limit next = .ok message := by
  obtain ⟨headers, next, value, rest, hasks, hvalue, hmessage⟩ := h
  exact ⟨headers, next, hasks, readMessage_eq_ok_iff.2 ⟨value, rest, hvalue, hmessage⟩⟩

theorem read_of_adapts {kind : Transform} {body : List UInt8} (h : s.Adapts limit kind body) :
    read limit s = .ok (some (.adapt kind body)) := by
  cases h with
  | request carries | response carries =>
    obtain ⟨headers, next, hasks, hread⟩ := exists_readMessage_of_carries carries
    rw [read_of_asks hasks]
    simp [readFor, hread, Except.map]

/-- A message that is due and cannot be read is a failure of framing. -/
theorem exists_error_of_asks {method : String} {headers : IcapHeaders} {next : Source}
    (hasks : s.Asks method headers next) (hmethod : method = "REQMOD" ∨ method = "RESPMOD")
    (hnone : ∀ message, readMessage headers limit next ≠ .ok message) :
    ∃ e, read limit s = .error e ∧ e.IsFraming := by
  cases hread : readMessage headers limit next with
  | error e =>
    refine ⟨e, ?_, isFraming_of_readMessage hread⟩
    rw [read_of_asks hasks, readFor_of_adapts hmethod hread]
    rfl
  | ok message => exact absurd hread (hnone message)

/-- Broken framing is reported as such. -/
theorem exists_error_of_malformed (h : s.Malformed limit) :
    ∃ e, read limit s = .error e ∧ e.IsFraming := by
  cases h with
  | brokenOff unbroken reset =>
    obtain ⟨e, he, hframing⟩ := readLine_reset unbroken reset
    exact ⟨e, by rw [read, he], hframing⟩
  | longLine first long =>
    have hline := readLine_of_line first
    rw [if_pos long] at hline
    exact ⟨_, by rw [read, hline], rfl, rfl⟩
  | @openHeaders text next first worded endless =>
    obtain ⟨method, uri, version, more, hwords⟩ := Text.exists_words worded
    cases hblock : next.readBlock with
    | ok block => exact absurd (readBlock_eq_ok_iff.1 hblock) (endless block.1 block.2)
    | error e =>
      refine ⟨e, ?_, isFraming_of_readBlock hblock⟩
      rw [read, readLine_eq_some_iff.2 first]
      simp only [RequestLine.ofLine_of_words hwords, IcapHeaders.read, hblock]
  | unannounced asks adapts missing =>
    refine exists_error_of_asks asks adapts fun message hread => ?_
    obtain ⟨value, rest, hvalue, -⟩ := readMessage_eq_ok_iff.1 hread
    rw [missing] at hvalue
    cases hvalue
  | brokenMessage asks adapts announced broken =>
    refine exists_error_of_asks asks adapts fun message hread => ?_
    obtain ⟨value, rest, hvalue, hmessage⟩ := readMessage_eq_ok_iff.1 hread
    rw [announced] at hvalue
    cases hvalue
    exact broken message rest hmessage

end Request

/-! ## What is given up on -/

namespace Request

open Source

variable {limit : Nat} {s : Source}

/-- The room that is made for a request is the room for the body of its message. -/
theorem mem_rooms_iff_submits {room : Room} :
    room ∈ rooms limit s ↔
      ∃ framing rest, s.Submits framing rest ∧ room ∈ framing.rooms limit rest := by
  constructor
  · fun_cases rooms limit s with
    | case1 text next hline line headers rest hheaders hrequest hmethod sections hsections =>
      intro h
      obtain ⟨framing, body, framed, hroom⟩ := HttpMessage.mem_rooms_iff_frames.1 h
      obtain ⟨value, hvalue, rfl⟩ := headers.exists_get?_of_sections hsections
      exact ⟨framing, body, ⟨asks_of_read hline hrequest hheaders, hmethod, hvalue, framed⟩, hroom⟩
    | _ => nofun
  · rintro ⟨framing, rest, ⟨asks, adapts, announced, framed⟩, h⟩
    obtain ⟨text, next, uri, version, more, lines, hline, hwords, hblock, rfl⟩ := asks
    rw [rooms, readLine_eq_some_iff.2 hline]
    simp only [RequestLine.ofLine_of_words hwords, IcapHeaders.read, readBlock_eq_ok_iff.2 hblock,
      if_pos adapts, IcapHeaders.sections, announced]
    exact HttpMessage.mem_rooms_iff_frames.2 ⟨framing, rest, framed, h⟩

theorem all_isHeld_iff : (rooms limit s).all Room.isHeld = true ↔ ¬s.Overflows limit := by
  rw [List.all_eq_true]
  constructor
  · rintro held ⟨framing, rest, room, submits, hroom, hlong⟩
    have hheld := held room (mem_rooms_iff_submits.2 ⟨framing, rest, submits, hroom⟩)
    exact Nat.not_le.2 hlong (of_decide_eq_true hheld)
  · intro fits room h
    obtain ⟨framing, rest, submits, hroom⟩ := mem_rooms_iff_submits.1 h
    refine decide_eq_true (Nat.not_lt.1 fun hlong => fits ?_)
    exact ⟨framing, rest, room, submits, hroom, hlong⟩

theorem read?_of_overflows (h : s.Overflows limit) : read? limit s = none :=
  if_neg fun held => all_isHeld_iff.1 held h

theorem read?_of_not_overflows (h : ¬s.Overflows limit) : read? limit s = some (read limit s) :=
  if_pos (all_isHeld_iff.2 h)

/-- Under a limit that a buffer can have nothing overflows. -/
theorem not_overflows_of_le (fits : limit ≤ Room.maxBuffer) : ¬s.Overflows limit := by
  rintro ⟨framing, rest, room, -, hroom, hlong⟩
  have hheld := Framing.isHeld_of_mem_rooms fits hroom
  exact Nat.not_le.2 hlong (of_decide_eq_true hheld)

end Request

/-! ## Answers -/

/-- The answers that a client can get. -/
inductive Answer where
  /-- The connection is closed without a reply. -/
  | silence
  /-- What the service offers. -/
  | offer
  /-- The message is to be used as it is. -/
  | unchanged
  /-- The message with a new body. -/
  | rewritten
  | badRequest
  | methodNotAllowed
  deriving DecidableEq, Repr

/-- How the bytes of an answer begin, by which it is told from the others. -/
def Answer.opening : Answer → List UInt8
  | silence => []
  | offer => Utf8.bytes "ICAP/1.0 200 OK\r\nM"
  | unchanged => Utf8.bytes "ICAP/1.0 204 No Co"
  | rewritten => Utf8.bytes "ICAP/1.0 200 OK\r\nI"
  | badRequest => Utf8.bytes "ICAP/1.0 400 Bad R"
  | methodNotAllowed => Utf8.bytes "ICAP/1.0 405 Metho"

theorem Answer.opening_inj {one other : Answer} (h : one.opening = other.opening) :
    one = other := by
  cases one <;> cases other <;> first | rfl | exact absurd h (by decide)

variable {σ : Type}

/-- The bytes that are sent back are the whole of one reply, or there are none. -/
def Exchange.Gives (server : ServerSettings) (exchange : Exchange σ) : Answer → Prop
  | .silence => exchange.replyBytes = []
  | .offer => exchange.replyBytes = (Reply.options server.maxConnections).bytes
  | .unchanged => exchange.replyBytes = Reply.noContent.bytes
  | .rewritten => ∃ body, exchange.replyBytes = (Reply.modified body).bytes
  | .badRequest => exchange.replyBytes = (Reply.failure .badRequest).bytes
  | .methodNotAllowed => exchange.replyBytes = (Reply.failure .methodNotAllowed).bytes

theorem Exchange.Gives.take_replyBytes {server : ServerSettings} {exchange : Exchange σ}
    {answer : Answer} (h : exchange.Gives server answer) :
    exchange.replyBytes.take 18 = answer.opening := by
  cases answer with
  | rewritten =>
    obtain ⟨body, hbytes⟩ := h
    rw [hbytes]
    rfl
  | _ =>
    rw [show exchange.replyBytes = _ from h]
    rfl

/-- The bytes that are sent back are those of one answer only. -/
theorem Exchange.Gives.unique {server : ServerSettings} {exchange : Exchange σ} {one other : Answer}
    (hone : exchange.Gives server one) (hother : exchange.Gives server other) : one = other :=
  Answer.opening_inj (hone.take_replyBytes.symm.trans hother.take_replyBytes)

variable [CardStore σ]

/-- When which answer is due. -/
def Source.Earns (server : ServerSettings) (format : TokenFormat) (store : σ) (s : Source) :
    Answer → Prop
  | .silence => s = ⟨[], .closed⟩ ∨
      ∃ text rest, s.HasLine text rest ∧ (Text.words text.toList).length < 3
  | .offer => ∃ headers rest, s.Asks "OPTIONS" headers rest
  | .unchanged => ∃ kind body, s.Adapts server.maxBody kind body ∧ kind.Passes store format body
  | .rewritten => ∃ kind body, s.Adapts server.maxBody kind body ∧ ¬kind.Passes store format body
  | .badRequest => s.Malformed server.maxBody
  | .methodNotAllowed => ∃ method headers rest, s.Asks method headers rest ∧
      method ∉ ["OPTIONS", "REQMOD", "RESPMOD"]

/-- A body with a card in it is to be tokenized. -/
def Source.Tokenizes (server : ServerSettings) (format : TokenFormat) (s : Source) : Prop :=
  ∃ text document site, s.Adapts server.maxBody .tokenize (Utf8.bytes text) ∧
    Json.parse text = .ok document ∧ Json.IsCardSite format document site

variable {server : ServerSettings} {format : TokenFormat} {store : σ} {s : Source}

/-- What is due when a method, and the headers after it, can be read. -/
theorem Source.Asks.exists_earns {method : String} {headers : IcapHeaders} {next : Source}
    (asks : s.Asks method headers next) : ∃ answer, s.Earns server format store answer := by
  have hadapted {kind : Transform} {body : List UInt8} (h : s.Adapts server.maxBody kind body) :
      ∃ answer, s.Earns server format store answer := by
    by_cases hpasses : kind.Passes store format body
    · exact ⟨.unchanged, kind, body, h, hpasses⟩
    · exact ⟨.rewritten, kind, body, h, hpasses⟩
  by_cases hoptions : method = "OPTIONS"
  · subst hoptions
    exact ⟨.offer, headers, next, asks⟩
  by_cases hadapts : method = "REQMOD" ∨ method = "RESPMOD"
  · cases hvalue : headers.get? "Encapsulated" with
    | none => exact ⟨.badRequest, .unannounced asks hadapts hvalue⟩
    | some value =>
      by_cases hmessage : ∃ message rest, next.Message (.ofValue value) server.maxBody message rest
      · obtain ⟨message, rest, hmessage⟩ := hmessage
        have carries : s.Carries server.maxBody method message :=
          ⟨headers, next, value, rest, asks, hvalue, hmessage⟩
        rcases hadapts with rfl | rfl
        · exact hadapted (.request carries)
        · exact hadapted (.response carries)
      · refine ⟨.badRequest, .brokenMessage asks hadapts hvalue fun message rest h => ?_⟩
        exact hmessage ⟨message, rest, h⟩
  · refine ⟨.methodNotAllowed, method, headers, next, asks, ?_⟩
    simpa [not_or, hoptions] using hadapts

/-- Some answer is due to every stream. -/
theorem Source.exists_earns : ∃ answer, s.Earns server format store answer := by
  rcases line_cases s with ⟨line, next, hline⟩ | rfl | ⟨hfeed, hreset⟩
  · by_cases hlong : maxLine ≤ line.length
    · exact ⟨.badRequest, .longLine hline hlong⟩
    have hfirst : s.HasLine (lineText line) next := ⟨line, hline, Nat.not_le.1 hlong, rfl⟩
    by_cases hfew : (Text.words (lineText line).toList).length < 3
    · exact ⟨.silence, Or.inr ⟨_, next, hfirst, hfew⟩⟩
    by_cases hblock : ∃ lines rest, next.Block lines rest
    · obtain ⟨lines, rest, hblock⟩ := hblock
      obtain ⟨method, uri, version, more, hwords⟩ := Text.exists_words (Nat.not_lt.1 hfew)
      exact Asks.exists_earns ⟨_, next, uri, version, more, lines, hfirst, hwords, hblock, rfl⟩
    · refine ⟨.badRequest, .openHeaders hfirst (Nat.not_lt.1 hfew) fun lines rest h => ?_⟩
      exact hblock ⟨lines, rest, h⟩
  · exact ⟨.silence, Or.inl rfl⟩
  · exact ⟨.badRequest, .brokenOff hfeed hreset⟩

namespace Exchange

variable {tokens : Nat → String} {occasions : Nat → Occasion}

/-- A request to adapt a body is responded to by adapting it. -/
theorem respond_of_adapts {kind : Transform} {body : List UInt8}
    (h : s.Adapts server.maxBody kind body) :
    respond server format tokens occasions store (Request.read server.maxBody s) =
      adapted format tokens occasions store kind body := by
  rw [Request.read_of_adapts h]
  rfl

/-- Every answer but a new body leaves the store alone and takes no token. -/
theorem exists_respond_eq_of_earns {answer : Answer} (h : s.Earns server format store answer)
    (hanswer : answer ≠ .rewritten) :
    ∃ reply, (∀ tokens occasions,
      respond server format tokens occasions store (Request.read server.maxBody s) =
        withReply store reply) ∧ (withReply store reply).Gives server answer := by
  cases answer with
  | silence =>
    refine ⟨none, fun tokens occasions => ?_, rfl⟩
    rcases h with rfl | ⟨text, rest, hline, hfew⟩
    · rfl
    · rw [Request.read_of_few hline hfew]
      rfl
  | offer =>
    obtain ⟨headers, rest, hasks⟩ := h
    refine ⟨some (.options server.maxConnections), fun tokens occasions => ?_, rfl⟩
    rw [Request.read_of_asks hasks, Request.readFor, if_pos rfl]
    rfl
  | unchanged =>
    obtain ⟨kind, body, hadapts, hpasses⟩ := h
    refine ⟨some .noContent, fun tokens occasions => ?_, rfl⟩
    rw [respond_of_adapts hadapts, adapted_of_passes hpasses]
  | rewritten => exact absurd rfl hanswer
  | badRequest =>
    obtain ⟨e, hread, hsilent, hstatus⟩ := Request.exists_error_of_malformed h
    refine ⟨some (.failure .badRequest), fun tokens occasions => ?_, rfl⟩
    rw [hread, respond, hsilent, hstatus]
    rfl
  | methodNotAllowed =>
    obtain ⟨method, headers, rest, hasks, hmethod⟩ := h
    simp only [List.mem_cons, List.not_mem_nil, or_false, not_or] at hmethod
    refine ⟨some (.failure .methodNotAllowed), fun tokens occasions => ?_, rfl⟩
    rw [Request.read_of_asks hasks, Request.readFor, if_neg hmethod.1, if_neg hmethod.2.1,
      if_neg hmethod.2.2]
    rfl

/-- Whatever is read, the answer that is due is given. -/
theorem gives_of_earns {answer : Answer} (h : s.Earns server format store answer) :
    (respond server format tokens occasions store (Request.read server.maxBody s)).Gives server
      answer := by
  by_cases hanswer : answer = .rewritten
  · subst hanswer
    obtain ⟨kind, body, hadapts, hpasses⟩ := h
    obtain ⟨replaced, hreply⟩ := exists_modified_of_not_passes hpasses
    refine ⟨replaced, ?_⟩
    rw [respond_of_adapts hadapts, replyBytes, hreply]
  · obtain ⟨reply, hrespond, hgives⟩ := exists_respond_eq_of_earns h hanswer
    rw [hrespond]
    exact hgives

/-- One answer is due to every stream. -/
theorem existsUnique_earns : ∃! answer, s.Earns server format store answer := by
  obtain ⟨answer, hearns⟩ : ∃ answer, s.Earns server format store answer := s.exists_earns
  -- No token is needed to tell the answers apart.
  have hgives {answer : Answer} (h : s.Earns server format store answer) :
      (respond server format (fun _ => "") (fun i => ⟨Vector.replicate 12 0, i⟩) store
        (Request.read server.maxBody s)).Gives server answer := gives_of_earns h
  exact ⟨answer, hearns, fun other hother => (hgives hother).unique (hgives hearns)⟩

theorem serve_of_overflows (h : s.Overflows server.maxBody) :
    serve server format tokens occasions store s = withReply store none := by
  rw [serve, Request.read?_of_overflows h]

theorem serve_of_not_overflows (h : ¬s.Overflows server.maxBody) :
    serve server format tokens occasions store s =
      respond server format tokens occasions store (Request.read server.maxBody s) := by
  rw [serve, Request.read?_of_not_overflows h]

/-- A request that overflows gets no answer. -/
theorem gives_silence_of_overflows (h : s.Overflows server.maxBody) :
    (serve server format tokens occasions store s).Gives server .silence := by
  rw [serve_of_overflows h]
  rfl

/-- Any other request gets the answer that is due. -/
theorem gives_of_not_overflows {answer : Answer} (fits : ¬s.Overflows server.maxBody)
    (h : s.Earns server format store answer) :
    (serve server format tokens occasions store s).Gives server answer := by
  rw [serve_of_not_overflows fits]
  exact gives_of_earns h

theorem exists_gives :
    ∃ answer, (serve server format tokens occasions store s).Gives server answer := by
  by_cases overflows : s.Overflows server.maxBody
  · exact ⟨.silence, gives_silence_of_overflows overflows⟩
  · obtain ⟨answer, hearns⟩ : ∃ answer, s.Earns server format store answer := s.exists_earns
    exact ⟨answer, gives_of_not_overflows overflows hearns⟩

/-- An exchange that always comes to one and the same reply touches neither the store nor the
tokens. -/
theorem untouched_of_withReply {reply : Option Reply}
    (h : ∀ tokens occasions, serve server format tokens occasions store s = withReply store reply) :
    (serve server format tokens occasions store s).store = store ∧
      (serve server format tokens occasions store s).issued = [] ∧
        ∀ others moments, serve server format others moments store s =
          serve server format tokens occasions store s := by
  rw [h tokens occasions]
  exact ⟨rfl, rfl, h⟩

/-- A body that is tokenized and does not pass holds a card. -/
theorem tokenizes_of_not_passes {body : List UInt8}
    (hadapts : s.Adapts server.maxBody .tokenize body)
    (hpasses : ¬Transform.tokenize.Passes store format body) : s.Tokenizes server format := by
  have hkind : Transform.tokenize ≠ .detokenizeHtml := nofun
  obtain ⟨text, rfl, -⟩ := exists_text_of_not_passes hpasses
  obtain ⟨document, hparse⟩ := exists_document_of_not_passes hkind hpasses
  have hcard : ∃ site, Json.IsCardSite format document site := by
    by_contra hnone
    exact hpasses (.noCard hparse fun site hsite => hnone ⟨site, hsite⟩)
  obtain ⟨site, hsite⟩ := hcard
  exact ⟨text, document, site, hadapts, hparse, hsite⟩

/-- What is due leaves the store alone and takes no token, unless a body with a card in it is
tokenized. -/
theorem exists_respond_eq_or_tokenizes {answer : Answer} (h : s.Earns server format store answer) :
    (∃ reply, ∀ tokens occasions,
        respond server format tokens occasions store (Request.read server.maxBody s) =
          withReply store reply) ∨
      (s.Tokenizes server format ∧ answer = .rewritten) := by
  by_cases hanswer : answer = .rewritten
  · subst hanswer
    obtain ⟨kind, body, hadapts, hpasses⟩ := h
    by_cases hkind : kind = .tokenize
    · subst hkind
      exact Or.inr ⟨tokenizes_of_not_passes hadapts hpasses, rfl⟩
    · obtain ⟨reply, hadapted⟩ : ∃ reply, ∀ tokens occasions,
          adapted format tokens occasions store kind body = withReply store (some reply) :=
        exists_adapted_eq_of_ne_tokenize hkind
      refine Or.inl ⟨some reply, fun tokens occasions => ?_⟩
      rw [respond_of_adapts hadapts, hadapted]
  · obtain ⟨reply, hrespond, -⟩ := exists_respond_eq_of_earns h hanswer
    exact Or.inl ⟨reply, hrespond⟩

/-- What has an effect is the tokenizing of a body with a card in it. -/
theorem exists_serve_eq_or_tokenizes (server : ServerSettings) (format : TokenFormat)
    (tokens : Nat → String) (occasions : Nat → Occasion) (store : σ) (s : Source) :
    (∃ reply, ∀ tokens occasions,
        serve server format tokens occasions store s = withReply store reply) ∨
      (s.Tokenizes server format ∧
        (serve server format tokens occasions store s).Gives server .rewritten) := by
  by_cases overflows : s.Overflows server.maxBody
  · exact Or.inl ⟨none, fun tokens occasions => serve_of_overflows overflows⟩
  · obtain ⟨answer, hearns⟩ : ∃ answer, s.Earns server format store answer := s.exists_earns
    rcases exists_respond_eq_or_tokenizes hearns with ⟨reply, hrespond⟩ | ⟨tokenizes, rfl⟩
    · refine Or.inl ⟨reply, fun tokens occasions => ?_⟩
      rw [serve_of_not_overflows overflows, hrespond]
    · exact Or.inr ⟨tokenizes, gives_of_not_overflows overflows hearns⟩

/-- Whatever is sent on a connection, a client gets one whole answer.  One answer is due, and it is
the answer that is given, unless the request overflows: then there is none.  Under a limit that a
buffer can have no request overflows.  Unless a body with a card in it is tokenized, and so
rewritten, the store stays as it was, no token is issued, and other tokens would make no
difference. -/
theorem serve_answers (server : ServerSettings) (format : TokenFormat) (tokens : Nat → String)
    (occasions : Nat → Occasion) (store : σ) (s : Source) :
    let exchange := serve server format tokens occasions store s
    (∃! answer, exchange.Gives server answer) ∧
    (∃! answer, s.Earns server format store answer) ∧
    (¬s.Overflows server.maxBody →
      ∀ answer, exchange.Gives server answer ↔ s.Earns server format store answer) ∧
    (s.Overflows server.maxBody → exchange.Gives server .silence) ∧
    (server.maxBody ≤ Room.maxBuffer → ¬s.Overflows server.maxBody) ∧
    ((exchange.store = store ∧ exchange.issued = [] ∧
        ∀ others moments, serve server format others moments store s = exchange) ∨
      (s.Tokenizes server format ∧ exchange.Gives server .rewritten)) := by
  intro exchange
  obtain ⟨answer, hgives⟩ : ∃ answer, exchange.Gives server answer := exists_gives
  refine ⟨⟨answer, hgives, fun other hother => hother.unique hgives⟩, existsUnique_earns,
    fun fits given => ⟨fun hgiven => ?_, gives_of_not_overflows fits⟩, gives_silence_of_overflows,
    Request.not_overflows_of_le, ?_⟩
  · obtain ⟨due, hearns⟩ : ∃ due, s.Earns server format store due := s.exists_earns
    rw [hgiven.unique (gives_of_not_overflows fits hearns)]
    exact hearns
  · rcases exists_serve_eq_or_tokenizes server format tokens occasions store s with
      ⟨reply, hserve⟩ | tokenizes
    · exact Or.inl (untouched_of_withReply hserve)
    · exact Or.inr tokenizes

/-- A request for what the service offers. -/
def sampleOptions : Source :=
  ⟨Utf8.bytes "OPTIONS icap://gate/cards ICAP/1.0\r\nHost: gate\r\n\r\n", .closed⟩

/-- Under the usual limit the sample does not overflow, and so the offer that is due is made. -/
theorem serve_answers_sample :
    ServerSettings.standard.maxBody ≤ Room.maxBuffer ∧
      (serve .standard .numeric (fun _ => "9999333333333331") (fun i => ⟨Vector.replicate 12 0, i⟩)
        Payload.sampleVault sampleOptions).Gives .standard .offer := by
  have hfits : ServerSettings.standard.maxBody ≤ Room.maxBuffer := by decide
  have hline : sampleOptions.readLine = .ok (some "OPTIONS icap://gate/cards ICAP/1.0",
      ⟨sampleOptions.bytes.drop 36, .closed⟩) := by
    decide +kernel
  have hrequest : RequestLine.ofLine "OPTIONS icap://gate/cards ICAP/1.0" =
      .ok ⟨"OPTIONS", "icap://gate/cards", "ICAP/1.0"⟩ := by
    decide +kernel
  have hheaders : IcapHeaders.read ⟨sampleOptions.bytes.drop 36, .closed⟩ =
      .ok (.ofLines ["Host: gate"], ⟨[], .closed⟩) := by
    decide +kernel
  obtain ⟨-, -, hanswer, -, hbound, -⟩ := serve_answers .standard .numeric
    (fun _ => "9999333333333331") (fun i => ⟨Vector.replicate 12 0, i⟩) Payload.sampleVault
    sampleOptions
  refine ⟨hfits, (hanswer (hbound hfits) .offer).2 ?_⟩
  exact ⟨_, _, Request.asks_of_read hline hrequest hheaders⟩

/-- The settings of an environment that sets the greatest limit there is. -/
def boundless : ServerSettings :=
  (GatewaySettings.ofEnvironment fun name =>
    if name = "ICAP_MAX_BODY_BYTES" then some (Utf8.bytes "18446744073709551615") else none).server

/-- The message of the next sample: a second chunk that ends beyond every limit. -/
def sampleBeyond : Source where
  bytes :=
    Utf8.bytes "HTTP/1.1 200 OK\r\nTransfer-Encoding: chunked\r\n\r\n" ++
    Utf8.bytes "1\r\nx\r\nFFFFFFFFFFFFFFFF\r\n"
  ending := .closed

/-- A response with a body beyond every limit. -/
def sampleOversized : Source where
  bytes :=
    Utf8.bytes "RESPMOD icap://gate/cards ICAP/1.0\r\n" ++
    Utf8.bytes "Encapsulated: res-hdr=0, res-body=47\r\n\r\n" ++ sampleBeyond.bytes
  ending := .closed

/-- Under the greatest limit there is, a failure is due to a body beyond it, and no other answer,
but the client gets none. -/
theorem serve_silent :
    boundless.maxBody = Numeral.sizeBound - 1 ∧
      sampleOversized.Earns boundless .numeric Payload.sampleVault .badRequest ∧
      ¬sampleOversized.Earns boundless .numeric Payload.sampleVault .silence ∧
      (serve boundless .numeric (fun _ => "9999333333333331") (fun i => ⟨Vector.replicate 12 0, i⟩)
        Payload.sampleVault sampleOversized).Gives boundless .silence := by
  have hline : sampleOversized.readLine = .ok (some "RESPMOD icap://gate/cards ICAP/1.0",
      ⟨sampleOversized.bytes.drop 36, .closed⟩) := by
    decide +kernel
  have hrequest : RequestLine.ofLine "RESPMOD icap://gate/cards ICAP/1.0" =
      .ok ⟨"RESPMOD", "icap://gate/cards", "ICAP/1.0"⟩ := by
    decide +kernel
  have hheaders : IcapHeaders.read ⟨sampleOversized.bytes.drop 36, .closed⟩ =
      .ok (.ofLines ["Encapsulated: res-hdr=0, res-body=47"], sampleBeyond) := by
    decide +kernel
  have hvalue : (IcapHeaders.ofLines ["Encapsulated: res-hdr=0, res-body=47"]).get? "Encapsulated" =
      some "res-hdr=0, res-body=47" := by
    decide +kernel
  have hbroken : HttpMessage.read (.ofValue "res-hdr=0, res-body=47") boundless.maxBody
      sampleBeyond = .error .endOfStream := by
    decide +kernel
  have hearns : sampleOversized.Earns boundless .numeric Payload.sampleVault .badRequest := by
    refine .brokenMessage (Request.asks_of_read hline hrequest hheaders) (Or.inr rfl) hvalue ?_
    intro message rest hmessage
    rw [HttpMessage.read_eq_ok_iff.2 hmessage] at hbroken
    cases hbroken
  have hgivesUp : Request.read? boundless.maxBody sampleOversized = none := by
    decide +kernel
  refine ⟨by decide +kernel, hearns, fun hsilence => ?_, ?_⟩
  · exact absurd (existsUnique_earns.unique hearns hsilence) nofun
  · rw [serve, hgivesUp]
    rfl

end Exchange

end CardGate
