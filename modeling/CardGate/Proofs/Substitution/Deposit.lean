import CardGate.Proofs.Json.RoundTrip
import CardGate.Proofs.Substitution.Tokenized
import CardGate.Proofs.Token.Shape
import CardGate.Substitution.Payload

/-!
# Depositing is exact

Depositing carries a store through a document.  `deposited_eq` separates the two again: the
document becomes what `tokenized` says, and the store what it is after all the issued tokens are
entered into it in order.

From this, `deposit_exact` says everything that depositing a text does: which values are replaced
and by what, that nothing else changes, what the store is handed and what is sent on.
-/

namespace CardGate

variable {σ : Type} [CardStore σ] {format : TokenFormat} {tokens : Nat → String}
  {occasions : Nat → Occasion}

/-! ## The ledger of a pass -/

theorem Payload.keepAll_append (occasions : Nat → Occasion) (i : Nat) (issues more : List Issue)
    (store : σ) :
    keepAll occasions i (issues ++ more) store =
      keepAll occasions (i + issues.length) more (keepAll occasions i issues store) := by
  induction issues generalizing i store with
  | nil => rfl
  | cons issue issues ih =>
    rw [List.cons_append, keepAll, keepAll, List.length_cons, Nat.add_comm issues.length,
      ← Nat.add_assoc]
    cases CardStore.store store (occasions i) issue.token issue.card <;> exact ih (i + 1) _

/-- A ledger after more tokens are issued. -/
def Ledger.keep (occasions : Nat → Occasion) (ledger : Ledger σ) (issues : List Issue) :
    Ledger σ :=
  ⟨Payload.keepAll occasions ledger.handed.length issues ledger.store, ledger.handed ++ issues⟩

theorem Ledger.keep_nil (ledger : Ledger σ) : ledger.keep occasions [] = ledger := by
  rw [keep, List.append_nil]
  rfl

theorem Ledger.keep_append (ledger : Ledger σ) (issues more : List Issue) :
    ledger.keep occasions (issues ++ more) =
      (ledger.keep occasions issues).keep occasions more := by
  rw [keep, keep, keep, Payload.keepAll_append, List.append_assoc, List.length_append]

theorem Ledger.hand_eq (ledger : Ledger σ) (card : String) :
    ledger.hand tokens occasions card =
      (tokens ledger.handed.length,
        ledger.keep occasions [⟨tokens ledger.handed.length, card⟩]) := by
  rw [hand, keep, Payload.keepAll]
  cases CardStore.store ledger.store (occasions ledger.handed.length)
    (tokens ledger.handed.length) card <;> rfl

namespace Json

/-- A pass with a ledger, by what is replaced and the tokens issued for it. -/
def withLedger {α : Type} (occasions : Nat → Occasion) (ledger : Ledger σ)
    (replaced : α × List Issue) : α × Bool × Ledger σ :=
  (replaced.1, !replaced.2.isEmpty, ledger.keep occasions replaced.2)

/-- A row of parts with a ledger: the passes over the parts, one after the other. -/
theorem withLedger_cons {α : Type} {replaced : Nat → α → α × List Issue} (ledger : Ledger σ)
    (part : α) (more : List α) :
    withLedger occasions ledger (replacedAll replaced ledger.handed.length (part :: more)) =
      let (part, here, ledger) :=
        withLedger occasions ledger (replaced ledger.handed.length part)
      let (more, there, ledger) :=
        withLedger occasions ledger (replacedAll replaced ledger.handed.length more)
      (part :: more, here || there, ledger) := by
  simp only [withLedger, replacedAll, Ledger.keep_append, not_isEmpty_append]
  simp only [Ledger.keep, List.length_append]

/-- Depositing a document replaces what tokenizing it replaces, and enters the tokens issued into
the store. -/
theorem deposited_eq (ledger : Ledger σ) (d : Json) :
    deposited format tokens occasions ledger d =
      withLedger occasions ledger (tokenized format tokens ledger.handed.length d) := by
  induction d using induct generalizing ledger with
  | arr items ih =>
    have hitems (ledger : Ledger σ) : depositedItems format tokens occasions ledger items =
        withLedger occasions ledger
          (replacedAll (tokenized format tokens) ledger.handed.length items) := by
      induction items generalizing ledger with
      | nil => rw [depositedItems, replacedAll, withLedger, Ledger.keep_nil]; rfl
      | cons item more ihmore =>
        have hmore := ihmore fun item hitem => ih item (List.mem_cons_of_mem _ hitem)
        rw [depositedItems, withLedger_cons, ih item List.mem_cons_self]
        simp only [hmore]
    rw [deposited, tokenized_arr, hitems]
    rfl
  | obj members ih =>
    have hmembers (ledger : Ledger σ) : depositedMembers format tokens occasions ledger members =
        withLedger occasions ledger
          (replacedAll (tokenizedMember format tokens) ledger.handed.length members) := by
      induction members generalizing ledger with
      | nil => rw [depositedMembers, replacedAll, withLedger, Ledger.keep_nil]; rfl
      | cons member more ihmore =>
        have hmore := ihmore fun member hmember => ih member (List.mem_cons_of_mem _ hmember)
        obtain ⟨name, value⟩ := member
        have hvalue := ih (name, value) List.mem_cons_self ledger
        rw [depositedMembers, withLedger_cons, tokenizedMember]
        rcases cardIn? format name value with _ | card
        · simp only [hvalue, hmore]
          rfl
        · simp only [Ledger.hand_eq, hmore]
          rfl
    rw [deposited, tokenized_obj, hmembers]
    rfl
  | _ => rw [withLedger, tokenized, Ledger.keep_nil]; rfl

end Json

namespace Payload

/-- Depositing a text that holds a document. -/
theorem deposit_eq {store : σ} {text : String} {document : Json}
    (hparse : Json.parse text = .ok document) :
    deposit format tokens occasions store text =
      .ok (if Json.cardSites format document = [] then unchanged text
          else ⟨(document.tokenized format tokens 0).1.print, true⟩,
        ⟨keepAll occasions 0 (issuesAt tokens 0 (Json.cardSites format document)) store,
          issuesAt tokens 0 (Json.cardSites format document)⟩) := by
  rw [deposit, hparse]
  simp only [Json.deposited_eq, Json.withLedger, List.length_nil, Json.issues_tokenized,
    isEmpty_issuesAt]
  by_cases hsites : Json.cardSites format document = []
  · rw [if_pos hsites, decide_eq_true hsites]
    rfl
  · rw [if_neg hsites, decide_eq_false hsites]
    rfl

/-- What is sent on holds the document as it has become. -/
theorem parse_deposited {text : String} {document : Json}
    (hparse : Json.parse text = .ok document) :
    Json.parse (if Json.cardSites format document = [] then unchanged text
      else ⟨(document.tokenized format tokens 0).1.print, true⟩).body =
        .ok (document.tokenized format tokens 0).1 := by
  by_cases hsites : Json.cardSites format document = []
  · rw [if_pos hsites, Json.tokenized_of_cardSites_eq_nil hsites]
    exact hparse
  · rw [if_neg hsites]
    exact Json.parse_print (Json.written_of_parse hparse).tokenized

/-- What is sent on is marked as modified if the document had a card number to replace. -/
theorem modified_deposited (text : String) (document : Json) :
    (if Json.cardSites format document = [] then unchanged text
      else ⟨(document.tokenized format tokens 0).1.print, true⟩).modified = true ↔
        ∃ site, Json.IsCardSite format document site := by
  simp only [← Json.mem_cardSites]
  by_cases hsites : Json.cardSites format document = []
  · rw [if_pos hsites, hsites]
    exact iff_of_false nofun fun ⟨_, hsite⟩ => List.not_mem_nil hsite
  · rw [if_neg hsites]
    exact iff_of_true rfl (List.exists_mem_of_ne_nil _ hsites)

/-! ## What depositing changes -/

/-- Depositing a text replaces exactly the card numbers in its card fields, each by the next token
and in the order of the document, hands the store each of them under its token and nothing else,
and leaves everything else in the document, or the whole text if there are none, as it was. -/
theorem deposit_exact (format : TokenFormat) (draws : Nat → TokenDraw)
    (occasions : Nat → Occasion) (store : σ) {text : String} {document : Json}
    (hparse : Json.parse text = .ok document) :
    ∃ (sites : List Site) (result : Json) (payload : Payload) (ledger : Ledger σ),
      deposit format (fun i => format.token (draws i)) occasions store text =
        .ok (payload, ledger) ∧
      (∀ site, site ∈ sites ↔ Json.IsCardSite format document site) ∧
      (sites.Pairwise fun one other => one.path < other.path) ∧
      (∀ i site, sites[i]? = some site →
        Json.follow site.path result = some (.str (format.token (draws i)))) ∧
      (∀ path, (∀ site ∈ sites, site.path ≠ path) →
        (Json.follow path result).map Json.shell = (Json.follow path document).map Json.shell) ∧
      ledger.handed = sites.mapIdx (fun i site => ⟨format.token (draws i), site.card⟩) ∧
      ledger.store = keepAll occasions 0 ledger.handed store ∧
      payload = (if sites = [] then ⟨text, false⟩ else ⟨result.print, true⟩) ∧
      Json.parse payload.body = .ok result ∧
      ∀ holder members name s, Json.follow holder result = some (.obj members) →
        (name, Json.str s) ∈ members → Card.isFieldName name = true →
        format.marks s = true ∨ Card.looksLikeNumber s = false := by
  let tokens (i : Nat) : String := format.token (draws i)
  let sites := Json.cardSites format document
  let result := (document.tokenized format tokens 0).1
  have hswapped : Json.Swapped tokens 0 sites document result := Json.swapped_tokenized 0 document
  refine ⟨sites, result, _, _, deposit_eq hparse, fun site => Json.mem_cardSites,
    Json.pairwise_cardSites format document, fun i site hsite => ?_, hswapped.elsewhere, ?_, rfl,
    rfl, parse_deposited hparse, ?_⟩
  · have hthere := hswapped.there i site hsite
    rwa [Nat.zero_add] at hthere
  · show issuesAt tokens 0 sites = _
    simp only [issuesAt, Nat.zero_add, tokens]
  · intro holder members name s hholder hmember hname
    have hnone : Json.cardSites format result = [] :=
      Json.cardSites_tokenized (fun i => format.marks_token (draws i)) 0 document
    by_contra hcard
    rw [not_or, Bool.not_eq_true, Bool.not_eq_false] at hcard
    obtain ⟨i, hi⟩ := List.mem_iff_getElem?.1 hmember
    have hsite : Json.IsCardSite format result ⟨holder ++ [i], s⟩ :=
      ⟨holder, members, i, name, rfl, hholder, hi, hname, hcard.2, hcard.1⟩
    rw [← Json.mem_cardSites, hnone] at hsite
    exact List.not_mem_nil hsite

/-- An order with a card, and with the number of a card in a note. -/
def sampleOrder : Json :=
  .obj [("order", .obj [("card", .str "4111111111111111")]), ("note", .str "4111111111111111")]

/-- The text of the sample. -/
def sampleText : String :=
  "\x7b\"order\":\x7b\"card\":\"4111111111111111\"\x7d,\"note\":\"4111111111111111\"\x7d"

theorem parse_sampleText : Json.parse sampleText = .ok sampleOrder := by
  have hprint : sampleText = sampleOrder.print := by decide
  rw [hprint]
  refine Json.parse_print (.obj (by decide) (by decide) (List.forall_mem_cons.2 ⟨?_, ?_⟩))
  · exact .obj (by decide) (by decide) (List.forall_mem_singleton.2 (.str _))
  · exact List.forall_mem_singleton.2 (.str _)

/-- Random material for a token. -/
def sampleDraw : TokenDraw :=
  ⟨Vector.replicate 32 7, Vector.replicate 11 3⟩

/-- An empty vault under a single key. -/
def sampleVault : CardVault LegacyCipher :=
  ⟨⟨⟨Vector.replicate 32 9⟩⟩, []⟩

/-- In the sample the card is replaced and the note is not. -/
theorem deposit_exact_sample :
    ∃ result payload ledger,
      deposit .tagged (fun _ => TokenFormat.tagged.token sampleDraw)
        (fun i => ⟨Vector.replicate 12 0, i⟩) sampleVault sampleText = .ok (payload, ledger) ∧
      Json.parse payload.body = .ok result ∧ payload.modified = true ∧
      Json.follow [0, 0] result = some (.str (TokenFormat.tagged.token sampleDraw)) ∧
      (Json.follow [1] result).map Json.shell = some (.str "4111111111111111") := by
  obtain ⟨sites, result, payload, ledger, hdeposit, hmem, -, hthere, helsewhere, -, -, hpayload,
    hparse, -⟩ := deposit_exact .tagged (fun _ => sampleDraw)
      (fun i => ⟨Vector.replicate 12 0, i⟩) sampleVault parse_sampleText
  have hcard : ⟨[0, 0], "4111111111111111"⟩ ∈ sites := by
    rw [hmem, ← Json.mem_cardSites]
    decide
  have hnote : ∀ site ∈ sites, site.path ≠ [1] := by
    intro site hsite
    rw [hmem, ← Json.mem_cardSites] at hsite
    revert site
    decide
  obtain ⟨i, hi⟩ := List.mem_iff_getElem?.1 hcard
  refine ⟨result, payload, ledger, hdeposit, hparse, ?_, hthere i _ hi, helsewhere [1] hnote⟩
  rw [hpayload, if_neg (List.ne_nil_of_mem hcard)]

/-! ## Depositing twice -/

/-- A text whose document has no sites passes, and the store is handed nothing. -/
theorem deposit_of_cardSites_eq_nil {store : σ} {text : String} {document : Json}
    (hparse : Json.parse text = .ok document) (hsites : Json.cardSites format document = []) :
    deposit format tokens occasions store text = .ok (unchanged text, ⟨store, []⟩) := by
  rw [deposit_eq hparse, if_pos hsites, hsites]
  rfl

/-- Depositing replaces what there is to replace, and depositing what it has sent on changes
nothing, whatever store is behind it: the text passes byte for byte, no token is drawn and the
store is handed nothing. -/
theorem deposit_deposited (format : TokenFormat) (draws : Nat → TokenDraw)
    (occasions : Nat → Occasion) (store : σ) {text : String} {document : Json}
    (hparse : Json.parse text = .ok document) :
    ∃ (payload : Payload) (ledger : Ledger σ),
      deposit format (fun i => format.token (draws i)) occasions store text =
        .ok (payload, ledger) ∧
      (payload.modified = true ↔ ∃ site, Json.IsCardSite format document site) ∧
      ∀ (τ : Type) [CardStore τ] (tokens : Nat → String) (occasions : Nat → Occasion) (other : τ),
        deposit format tokens occasions other payload.body =
          .ok (⟨payload.body, false⟩, ⟨other, []⟩) := by
  refine ⟨_, _, deposit_eq hparse, modified_deposited text document, ?_⟩
  intro τ _ tokens occasions other
  refine deposit_of_cardSites_eq_nil (parse_deposited hparse) ?_
  exact Json.cardSites_tokenized (fun i => format.marks_token (draws i)) 0 document

theorem deposit_deposited_sample :
    ∃ (payload : Payload) (ledger : Ledger (CardVault LegacyCipher)),
      deposit .numeric (fun _ => TokenFormat.numeric.token sampleDraw)
        (fun i => ⟨Vector.replicate 12 0, i⟩) sampleVault sampleText = .ok (payload, ledger) ∧
      payload.modified = true ∧
      ∀ (τ : Type) [CardStore τ] (tokens : Nat → String) (occasions : Nat → Occasion) (other : τ),
        deposit .numeric tokens occasions other payload.body =
          .ok (⟨payload.body, false⟩, ⟨other, []⟩) := by
  obtain ⟨payload, ledger, hdeposit, hmodified, hagain⟩ := deposit_deposited .numeric
    (fun _ => sampleDraw) (fun i => ⟨Vector.replicate 12 0, i⟩) sampleVault parse_sampleText
  refine ⟨payload, ledger, hdeposit, ?_, hagain⟩
  rw [hmodified]
  exact ⟨⟨[0, 0], "4111111111111111"⟩, Json.mem_cardSites.1 (by decide)⟩

end Payload

end CardGate
