import CardGate.Proofs.Icap.Answer

/-!
# What tokenizing tells about the store

Tokenizing hands cards to the store and asks it nothing.  `map_deposit` says so of a text: what is
sent on and what is handed over is what `tokenize` gives, and that knows no store.

On a connection the store is asked only for a body that is to be detokenized, by
`outcome_serve_eq`.  So two clients that send the same response, one to a full store and one
to an empty or failing one, cannot tell the stores apart (`reply_independent_of_store`).
-/

namespace CardGate

/-! ## Texts -/

/-- What depositing sends on and hands over is what tokenizing sends on and issues.  A store that
refuses a card changes none of it. -/
theorem Payload.map_deposit {σ : Type} [CardStore σ] (format : TokenFormat) (tokens : Nat → String)
    (occasions : Nat → Occasion) (store : σ) (text : String) :
    (deposit format tokens occasions store text).map (fun sent => (sent.1, sent.2.handed)) =
      tokenize format tokens text := by
  unfold deposit tokenize
  cases Json.parse text with
  | error fault => rfl
  | ok document =>
    simp only [Json.deposited_eq, Json.withLedger, List.length_nil]
    generalize document.tokenized format tokens 0 = replaced
    obtain ⟨result, issues⟩ := replaced
    cases issues with
    | nil => rfl
    | cons issue issues => rfl

/-! ## Requests -/

namespace Source

/-- A request line with a given method opens a stream. -/
def Opens (s : Source) (method : String) : Prop :=
  ∃ text next uri version more, s.HasLine text next ∧
    Text.words text.toList = method.toList :: uri :: version :: more

/-- A stream that opens with a method asks for no other. -/
theorem Opens.eq_of_asks {s rest : Source} {method asked : String} {headers : IcapHeaders}
    (opens : s.Opens method) (asks : s.Asks asked headers rest) : asked = method := by
  obtain ⟨text, next, uri, version, more, hline, hwords⟩ := opens
  obtain ⟨text', next', uri', version', more', lines, hline', hwords', -, -⟩ := asks
  obtain ⟨rfl, -⟩ := hline.unique hline'
  rw [hwords] at hwords'
  exact (String.toList_inj.1 (List.cons.inj hwords').1).symm

theorem Carries.exists_asks {limit : Nat} {s : Source} {method : String} {message : HttpMessage}
    (carries : s.Carries limit method message) : ∃ headers rest, s.Asks method headers rest := by
  obtain ⟨headers, next, value, rest, asks, -, -⟩ := carries
  exact ⟨headers, next, asks⟩

end Source

/-- A response is tokenized unless its type is that of a page. -/
theorem Transform.ofContentType_eq_tokenize_iff {contentType : Option String} :
    Transform.ofContentType contentType = .tokenize ↔
      ¬"text/html".toList <:+: Text.lower (contentType.getD "").toList := by
  rw [Transform.ofContentType, ← Text.occursIn_iff]
  split
  · next hpage => exact iff_of_false nofun fun hnot => hnot hpage
  · next hpage => exact iff_of_true rfl hpage

namespace Request

open Source

/-- A method that adapts a body announces a message with that body. -/
theorem exists_message_of_readFor {limit : Nat} {s : Source} {method : String}
    {headers : IcapHeaders} {kind : Transform} {body : List UInt8}
    (h : readFor method headers limit s = .ok (.adapt kind body)) :
    ∃ message, readMessage headers limit s = .ok message ∧ body = message.body ∧
      (method = "REQMOD" ∧ kind = .detokenize ∨
        method = "RESPMOD" ∧ kind = .ofContentType message.contentType?) := by
  revert h
  fun_cases readFor method headers limit s with
  | case3 _ hmethod message hread =>
    intro h
    cases h
    exact ⟨message, hread, rfl, Or.inl ⟨hmethod, rfl⟩⟩
  | case5 _ _ hmethod message hread =>
    intro h
    cases h
    exact ⟨message, hread, rfl, Or.inr ⟨hmethod, rfl⟩⟩
  | case1 | case2 | case4 | case6 => nofun

/-- A body is to be adapted only if a request says so. -/
theorem adapts_of_read {limit : Nat} {s : Source} {kind : Transform} {body : List UInt8}
    (h : read limit s = .ok (some (.adapt kind body))) : s.Adapts limit kind body := by
  revert h
  fun_cases read limit s with
  | case5 text next hline requestLine hrequest headers rest hheaders =>
    intro h
    obtain ⟨request, hread, hadapt⟩ := Json.map_eq_ok.1 h
    cases hadapt
    have asks : s.Asks requestLine.method headers rest := asks_of_read hline hrequest hheaders
    obtain ⟨message, hmessage, rfl, hmethod⟩ := exists_message_of_readFor hread
    obtain ⟨value, last, hvalue, hstands⟩ := readMessage_eq_ok_iff.1 hmessage
    have carries : s.Carries limit requestLine.method message :=
      ⟨_, rest, value, last, asks, hvalue, hstands⟩
    rcases hmethod with ⟨hmethod, rfl⟩ | ⟨hmethod, rfl⟩
    · exact .request (hmethod ▸ carries)
    · exact .response (hmethod ▸ carries)
  | case1 | case2 | case3 | case4 => nofun

end Request

/-! ## Connections -/

namespace Exchange

variable {σ τ : Type} [CardStore σ] [CardStore τ] {server : ServerSettings} {format : TokenFormat}
  {tokens : Nat → String} {occasions moments : Nat → Occasion} {store : σ} {other : τ}

/-- What an exchange lets out: everything but the store after it. -/
def outcome (exchange : Exchange σ) : Option Reply × List Issue :=
  (exchange.reply, exchange.issued)

theorem outcome_transform_tokenize (text : String) :
    (transform format tokens occasions store text .tokenize).outcome =
      match Payload.tokenize format tokens text with
      | .error e => (some (replyFor (.error e)), [])
      | .ok (payload, issues) => (some (replyFor (.ok payload)), issues) := by
  rw [← Payload.map_deposit format tokens occasions store text, transform]
  cases Payload.deposit format tokens occasions store text with
  | error e => rfl
  | ok sent => rfl

theorem outcome_respond_eq {s : Source}
    (h : ∀ kind body, s.Adapts server.maxBody kind body → kind = .tokenize) :
    (respond server format tokens occasions store (Request.read server.maxBody s)).outcome =
      (respond server format tokens moments other (Request.read server.maxBody s)).outcome := by
  cases hread : Request.read server.maxBody s with
  | error e => rfl
  | ok request =>
    match request with
    | none => rfl
    | some .options => rfl
    | some (.adapt kind body) =>
      cases h kind body (Request.adapts_of_read hread)
      simp only [respond]
      cases bodyText? body with
      | none => rfl
      | some text =>
        dsimp only
        rw [outcome_transform_tokenize, outcome_transform_tokenize]

/-- If no body is to be detokenized, nothing that is let out depends on the store. -/
theorem outcome_serve_eq {s : Source}
    (h : ∀ kind body, s.Adapts server.maxBody kind body → kind = .tokenize) :
    (serve server format tokens occasions store s).outcome =
      (serve server format tokens moments other s).outcome := by
  by_cases overflows : s.Overflows server.maxBody
  · rw [serve_of_overflows overflows, serve_of_overflows overflows]
    rfl
  · rw [serve_of_not_overflows overflows, serve_of_not_overflows overflows]
    exact outcome_respond_eq h

/-- Tokenizing with the same tokens comes to the same for any two stores: the same text, the same
mark, the same cards handed over in the same order, or the same error.  So does every request to
adapt a response that is no page: the reply is the same up to its last byte, whatever cards the
stores hold and whichever of them they refuse. -/
theorem reply_independent_of_store (server : ServerSettings) (format : TokenFormat)
    (tokens : Nat → String) (occasions moments : Nat → Occasion) (store : σ) (other : τ) :
    (∀ text,
      (Payload.deposit format tokens occasions store text).map
          (fun sent => (sent.1, sent.2.handed)) =
        (Payload.deposit format tokens moments other text).map
          (fun sent => (sent.1, sent.2.handed))) ∧
    ∀ s : Source, s.Opens "RESPMOD" →
      (∀ message, s.Carries server.maxBody "RESPMOD" message →
        ¬"text/html".toList <:+: Text.lower (message.contentType?.getD "").toList) →
      (serve server format tokens occasions store s).replyBytes =
          (serve server format tokens moments other s).replyBytes ∧
        (serve server format tokens occasions store s).issued =
          (serve server format tokens moments other s).issued := by
  constructor
  · intro text
    rw [Payload.map_deposit, Payload.map_deposit]
  · intro s opens noPage
    have htokenize : ∀ kind body, s.Adapts server.maxBody kind body → kind = .tokenize := by
      intro kind body adapts
      cases adapts with
      | request carries =>
        obtain ⟨headers, rest, asks⟩ := carries.exists_asks
        exact absurd (opens.eq_of_asks asks) (by decide)
      | response carries =>
        exact Transform.ofContentType_eq_tokenize_iff.2 (noPage _ carries)
    have houtcome : (serve server format tokens occasions store s).outcome =
        (serve server format tokens moments other s).outcome := outcome_serve_eq htokenize
    obtain ⟨hreply, hissued⟩ := Prod.mk.inj houtcome
    exact ⟨by rw [replyBytes, hreply, replyBytes], hissued⟩

/-- A response with a card in it. -/
def sampleResponse : Source where
  bytes :=
    Utf8.bytes "RESPMOD icap://gate/cards ICAP/1.0\r\n" ++
    Utf8.bytes "Encapsulated: res-hdr=0, res-body=80\r\n\r\n" ++
    Utf8.bytes "HTTP/1.1 200 OK\r\nContent-Type: application/json\r\nContent-Length: 27\r\n\r\n" ++
    Utf8.bytes "\x7b\"card\":\"4111111111111111\"\x7d"
  ending := .closed

/-- An empty vault and one with a card in it serve the sample alike. -/
theorem reply_independent_of_store_sample :
    ∃ vault,
      Payload.sampleVault.store ⟨Vector.replicate 12 1, 0⟩ "t" "5555555555554444" = .ok vault ∧
      (serve .standard .numeric (fun _ => "9999333333333331")
          (fun i => ⟨Vector.replicate 12 0, i⟩) Payload.sampleVault sampleResponse).replyBytes =
        (serve .standard .numeric (fun _ => "9999333333333331")
          (fun i => ⟨Vector.replicate 12 5, i⟩) vault sampleResponse).replyBytes := by
  obtain ⟨vault, hstore⟩ : ∃ vault, Payload.sampleVault.store ⟨Vector.replicate 12 1, 0⟩ "t"
      "5555555555554444" = .ok vault := ⟨_, rfl⟩
  have hread : Request.read ServerSettings.standard.maxBody sampleResponse =
      .ok (some (.adapt .tokenize (Utf8.bytes "\x7b\"card\":\"4111111111111111\"\x7d"))) := by
    decide +kernel
  have hline : sampleResponse.readLine = .ok (some "RESPMOD icap://gate/cards ICAP/1.0",
      ⟨sampleResponse.bytes.drop 36, .closed⟩) := by
    decide +kernel
  have hwords : Text.words "RESPMOD icap://gate/cards ICAP/1.0".toList =
      ["RESPMOD".toList, "icap://gate/cards".toList, "ICAP/1.0".toList] := by
    decide
  have opens : sampleResponse.Opens "RESPMOD" :=
    ⟨_, _, _, _, _, Source.readLine_eq_some_iff.1 hline, hwords⟩
  refine ⟨vault, hstore, ((reply_independent_of_store .standard .numeric _ _ _ Payload.sampleVault
    vault).2 sampleResponse opens fun message carries => ?_).1⟩
  have hmessage := Request.read_of_adapts (.response carries)
  rw [hread] at hmessage
  have hkind := (Request.adapt.inj (Option.some.inj (Except.ok.inj hmessage))).1
  exact Transform.ofContentType_eq_tokenize_iff.1 hkind.symm

end Exchange

end CardGate
