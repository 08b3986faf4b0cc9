import CardGate.Proofs.Substitution.Detokenized

/-!
# Detokenizing once is enough

A vault that is only written by tokenizing has records under tokens only, and no record holds a
token: a value that carries the sentinel is not tokenized, and a new token always carries it.  This
is `CardVault.Guarded`; it holds of an empty vault, is kept by every call, and so holds after any run
of calls.

Hence no card that is put in the place of a token is resolved itself, and detokenizing what
detokenizing has sent on changes nothing (`detokenize_detokenized`).
-/

namespace CardGate

/-! ## Documents -/

namespace Json

/-- In a restored document nothing is known if no card that is put in is known itself. -/
theorem holdsNone_restored {card? : String → Option String}
    (h : ∀ s card, card? s = some card → card? card = none) (d : Json) :
    HoldsNone card? (restored card? d).1 := by
  intro path s hs
  rw [follow_restored] at hs
  obtain ⟨v, -, hv⟩ := Option.map_eq_some_iff.1 hs
  cases v with
  | str t =>
    rw [restored] at hv
    cases hcard : card? t with
    | none =>
      simp only [hcard] at hv
      cases hv
      exact hcard
    | some card =>
      simp only [hcard] at hv
      cases hv
      exact h t s hcard
  | arr items =>
    rw [restored_arr] at hv
    cases hv
  | obj members =>
    rw [restored_obj] at hv
    cases hv
  | null | bool _ | num _ => cases hv

end Json

/-! ## Runs of calls -/

/-- A call that tokenizes a text: the text, and what is drawn for it from outside. -/
structure DepositCall where
  text : String
  draws : Nat → TokenDraw
  occasions : Nat → Occasion

variable {κ : Type} [CardCipher κ]

namespace CardVault

/-- The vault after a call.  A text that holds no document leaves it as it is. -/
def afterCall (format : TokenFormat) (vault : CardVault κ) (call : DepositCall) : CardVault κ :=
  match Payload.deposit format (fun i => format.token (call.draws i)) call.occasions vault
      call.text with
  | .ok (_, ledger) => ledger.store
  | .error _ => vault

/-- The vault after calls one after the other. -/
def afterCalls (format : TokenFormat) (vault : CardVault κ) (calls : List DepositCall) :
    CardVault κ :=
  calls.foldl (afterCall format) vault

/-- Records are kept under values that carry the sentinel, and hold cards that do not. -/
def Guarded (format : TokenFormat) (vault : CardVault κ) : Prop :=
  ∀ token record, vault.record? token = some record → format.marks token = true ∧
    ∃ card, reveal vault.cipher record = some card ∧ format.marks card = false

variable {format : TokenFormat} {vault : CardVault κ}

theorem guarded_empty (format : TokenFormat) (cipher : κ) :
    Guarded format (⟨cipher, []⟩ : CardVault κ) :=
  nofun

theorem Guarded.keepAll [FaithfulCipher κ] (h : Guarded format vault) {issues : List Issue}
    (hissues : ∀ issue ∈ issues, format.marks issue.token = true ∧ format.marks issue.card = false)
    (occasions : Nat → Occasion) (i : Nat) :
    Guarded format (Payload.keepAll occasions i issues vault) := by
  intro token record hrecord
  rw [cipher_keepAll]
  cases hbefore : vault.record? token with
  | some old =>
    rw [record?_keepAll_of_some hbefore] at hrecord
    cases hrecord
    exact h token record hbefore
  | none =>
    rcases record?_keepAll_of_none hbefore occasions i issues with hnone | ⟨entered, card, hentered,
      hreveal, hmem⟩
    · rw [hnone] at hrecord
      cases hrecord
    · rw [hentered] at hrecord
      cases hrecord
      exact ⟨(hissues _ hmem).1, card, hreveal, (hissues _ hmem).2⟩

/-- A call keeps the guard: what it writes are new tokens, for cards without the sentinel. -/
theorem Guarded.afterCall [FaithfulCipher κ] (h : Guarded format vault) (call : DepositCall) :
    Guarded format (vault.afterCall format call) := by
  cases hparse : Json.parse call.text with
  | error fault =>
    rw [CardVault.afterCall, Payload.deposit, hparse]
    exact h
  | ok document =>
    rw [CardVault.afterCall, Payload.deposit_eq hparse]
    refine h.keepAll (fun issue hissue => ?_) call.occasions 0
    obtain ⟨k, site, hsite, rfl⟩ := mem_issuesAt.1 hissue
    have hcard := Json.mem_cardSites.1 (List.mem_of_getElem? hsite)
    exact ⟨format.marks_token _, hcard.marks_eq_false⟩

theorem Guarded.afterCalls [FaithfulCipher κ] (h : Guarded format vault)
    (calls : List DepositCall) : Guarded format (vault.afterCalls format calls) := by
  induction calls generalizing vault with
  | nil => exact h
  | cons call calls ih => exact ih (h.afterCall call)

/-- No card that a guarded vault puts in the place of a token is resolved itself. -/
theorem Guarded.cardFor?_eq_none (h : Guarded format vault) {s card : String}
    (hcard : Payload.cardFor? vault format s = some card) :
    Payload.cardFor? vault format card = none := by
  have hretrieve : vault.retrieve s = some card := (Payload.cardFor?_eq_some.1 hcard).2
  rw [retrieve_eq] at hretrieve
  obtain ⟨record, hrecord, hreveal⟩ := Option.bind_eq_some_iff.1 hretrieve
  obtain ⟨-, held, hheld, hmarks⟩ := h s record hrecord
  rw [hreveal] at hheld
  cases hheld
  refine Payload.cardFor?_of_record?_eq_none ?_
  cases hother : vault.record? card with
  | none => rfl
  | some other =>
    rw [(h card other hother).1] at hmarks
    cases hmarks

end CardVault

namespace Payload

/-- After any run of calls that tokenize into an empty vault, what detokenizing sends on is sent on
byte for byte if it is detokenized again. -/
theorem detokenize_detokenized [FaithfulCipher κ] (format : TokenFormat) (cipher : κ)
    (calls : List DepositCall) {text : String} {document : Json}
    (hparse : Json.parse text = .ok document) :
    ∃ payload,
      detokenize ((⟨cipher, []⟩ : CardVault κ).afterCalls format calls) format text =
        .ok payload ∧
      detokenize ((⟨cipher, []⟩ : CardVault κ).afterCalls format calls) format payload.body =
        .ok ⟨payload.body, false⟩ := by
  have guarded := (CardVault.guarded_empty format cipher).afterCalls calls
  generalize (⟨cipher, []⟩ : CardVault κ).afterCalls format calls = vault at guarded ⊢
  let result := (document.restored (cardFor? vault format)).1
  have hnone : Json.HoldsNone (cardFor? vault format) result :=
    Json.holdsNone_restored (fun s card => guarded.cardFor?_eq_none) document
  have hagain : result.restored (cardFor? vault format) = (result, false) :=
    Prod.ext (Json.restored_of_holdsNone hnone) (Json.restored_eq_false_iff.2 hnone)
  refine ⟨_, detokenize_eq hparse rfl, ?_⟩
  exact detokenize_eq (parse_detokenized vault format hparse) hagain

/-- A letter with a token that a call has issued. -/
theorem detokenize_detokenized_sample :
    ∃ (vault : CardVault LegacyCipher) (token : String) (payload : Payload),
      vault = sampleVault.afterCalls .numeric
        [⟨sampleText, fun _ => sampleDraw, fun i => ⟨Vector.replicate 12 0, i⟩⟩] ∧
      token = TokenFormat.numeric.token sampleDraw ∧
      Json.parse (sampleLetter token).print = .ok (sampleLetter token) ∧
      detokenize vault .numeric (sampleLetter token).print = .ok payload ∧
      detokenize vault .numeric payload.body = .ok ⟨payload.body, false⟩ := by
  obtain ⟨payload, honce, htwice⟩ := detokenize_detokenized .numeric sampleVault.cipher
    [⟨sampleText, fun _ => sampleDraw, fun i => ⟨Vector.replicate 12 0, i⟩⟩]
    (parse_sampleLetter (TokenFormat.numeric.token sampleDraw))
  exact ⟨_, _, payload, rfl, rfl, parse_sampleLetter _, honce, htwice⟩

end Payload

end CardGate
