import CardGate.Proofs.Substitution.Deposit
import CardGate.Proofs.Vault.Durability
import CardGate.Proofs.Vault.Shared

/-!
# What an issued token stands for

A token goes out also if the vault refuses to store the card under it.  The vault refuses if it has
a record of the token already, and keeps that record.  So a token that is drawn once more, in the
same document or in another one, stands for the card that was first stored under it, and not for
the card that it replaces (`deposit_taken`).

`retrieve_deposited` says when this cannot happen: the token was free, and is handed over with no
other card.  It then stands for its own card, or for nothing if storing has failed for another
reason.  Nothing is assumed of the vault but that its cipher decrypts what it has encrypted.
-/

namespace CardGate

/-! ## Ciphers that can be read -/

/-- A cipher that decrypts what it encrypts, whatever keys it has. -/
class FaithfulCipher (κ : Type) [CardCipher κ] : Prop where
  decrypt_encrypt (cipher : κ) (nonce : Gcm.Nonce) (plaintext : List UInt8) (sealed : Ciphertext)
    (encrypted : CardCipher.encrypt cipher nonce plaintext = .ok sealed) :
    CardCipher.decrypt cipher sealed.bytes sealed.keyId = .ok plaintext

/-- A message opens under the bytes that sealed it. -/
theorem openSealed_wrap {key plaintext message : List UInt8} {nonce : Gcm.Nonce}
    (h : Sealing.wrap key nonce plaintext = .ok message) :
    openSealed key message = .ok plaintext := by
  rw [Sealing.wrap, Sealing.key?] at h
  split at h
  · cases h
  · next found hkey =>
    split at hkey
    · cases hkey
      cases h
      exact openSealed_wrapUnder ⟨⟨key.toArray, _⟩⟩ nonce plaintext
    · cases hkey

instance : FaithfulCipher LegacyCipher where
  decrypt_encrypt cipher nonce plaintext sealed encrypted := by
    cases encrypted
    exact openSealed_wrapUnder cipher.key nonce plaintext

instance : FaithfulCipher KeyHierarchy where
  decrypt_encrypt keys nonce plaintext sealed encrypted := by
    change keys.encrypt nonce plaintext = .ok sealed at encrypted
    change keys.decrypt sealed.bytes sealed.keyId = .ok plaintext
    rw [KeyHierarchy.encrypt] at encrypted
    split at encrypted
    · cases encrypted
    · next key hkey =>
      split at encrypted
      · cases encrypted
      · next message hwrap =>
        cases encrypted
        simp only [KeyHierarchy.decrypt, ite_self, hkey]
        exact openSealed_wrap hwrap

instance : FaithfulCipher DualModeCipher where
  decrypt_encrypt cipher nonce plaintext sealed encrypted := by
    change cipher.encrypt nonce plaintext = .ok sealed at encrypted
    change cipher.decrypt sealed.bytes sealed.keyId = .ok plaintext
    rw [DualModeCipher.encrypt] at encrypted
    rw [DualModeCipher.decrypt]
    cases hierarchy : cipher.hierarchy with
    | none =>
      rw [hierarchy] at encrypted
      exact FaithfulCipher.decrypt_encrypt cipher.legacy nonce plaintext sealed encrypted
    | some keys =>
      rw [hierarchy] at encrypted
      have hdecrypt : keys.decrypt sealed.bytes sealed.keyId = .ok plaintext :=
        FaithfulCipher.decrypt_encrypt keys nonce plaintext sealed encrypted
      simp only [hdecrypt]

/-! ## Writes to a vault -/

namespace CardVault

variable {κ : Type} [CardCipher κ] {vault : CardVault κ} {token : String}

/-- A write that succeeds enters a record of its card under a token that was free, and touches no
other record. -/
theorem record?_of_store [FaithfulCipher κ] {next : CardVault κ} {occasion : Occasion}
    {card : String} (h : vault.store occasion token card = .ok next) :
    next.cipher = vault.cipher ∧ vault.record? token = none ∧
      (∃ record, next.record? token = some record ∧ reveal vault.cipher record = some card) ∧
      ∀ other, other ≠ token → next.record? other = vault.record? other := by
  obtain ⟨record, hprepare, henter, hcipher⟩ := eq_of_store h
  rw [prepare] at hprepare
  split at hprepare
  · next sealed hsealed =>
    cases hprepare
    have hrecord := record?_enter henter
    refine ⟨hcipher, ?_, ⟨_, (hrecord token).trans (if_pos rfl), ?_⟩, fun other hother => ?_⟩
    · rw [enter] at henter
      split at henter
      · cases henter
      · next hfree => exact hfree
    · have hdecrypt := FaithfulCipher.decrypt_encrypt vault.cipher occasion.nonce _ sealed hsealed
      simp only [reveal, decryptText, CardRecord.create, hdecrypt, Utf8.text?_bytes]
    · exact (hrecord other).trans (if_neg (Ne.symm hother))
  · cases hprepare

/-- What one write does to a record. -/
theorem record?_keepAll_cons [FaithfulCipher κ] (vault : CardVault κ) (occasions : Nat → Occasion)
    (i : Nat) (issue : Issue) (more : List Issue) :
    ∃ next : CardVault κ,
      Payload.keepAll occasions i (issue :: more) vault =
        Payload.keepAll occasions (i + 1) more next ∧
      next.cipher = vault.cipher ∧
      ∀ token, next.record? token = vault.record? token ∨
        vault.record? token = none ∧ issue.token = token ∧
          ∃ record, next.record? token = some record ∧
            reveal vault.cipher record = some issue.card := by
  rw [Payload.keepAll]
  cases hstore : CardStore.store vault (occasions i) issue.token issue.card with
  | error e => exact ⟨vault, rfl, rfl, fun token => Or.inl rfl⟩
  | ok next =>
    obtain ⟨hcipher, hfree, hentered, hothers⟩ := record?_of_store hstore
    refine ⟨next, rfl, hcipher, fun token => ?_⟩
    by_cases htoken : token = issue.token
    · subst htoken
      exact Or.inr ⟨hfree, rfl, hentered⟩
    · exact Or.inl (hothers token htoken)

/-- Writes leave the keys alone. -/
theorem cipher_keepAll [FaithfulCipher κ] (vault : CardVault κ) (occasions : Nat → Occasion)
    (i : Nat) (issues : List Issue) :
    (Payload.keepAll occasions i issues vault).cipher = vault.cipher := by
  induction issues generalizing vault i with
  | nil => rfl
  | cons issue more ih =>
    obtain ⟨next, hkeep, hcipher, -⟩ := record?_keepAll_cons vault occasions i issue more
    rw [hkeep, ih, hcipher]

/-- A record stays, whatever is written. -/
theorem record?_keepAll_of_some [FaithfulCipher κ] {record : CardRecord}
    (taken : vault.record? token = some record) (occasions : Nat → Occasion) (i : Nat)
    (issues : List Issue) :
    (Payload.keepAll occasions i issues vault).record? token = some record := by
  induction issues generalizing vault i with
  | nil => exact taken
  | cons issue more ih =>
    obtain ⟨next, hkeep, -, hrecord⟩ := record?_keepAll_cons vault occasions i issue more
    rw [hkeep]
    rcases hrecord token with hsame | ⟨hfree, -⟩
    · exact ih (hsame.trans taken) (i + 1)
    · rw [taken] at hfree
      cases hfree

/-- A record that writes have entered holds a card that was written under its token. -/
theorem record?_keepAll_of_none [FaithfulCipher κ] (free : vault.record? token = none)
    (occasions : Nat → Occasion) (i : Nat) (issues : List Issue) :
    (Payload.keepAll occasions i issues vault).record? token = none ∨
      ∃ record card,
        (Payload.keepAll occasions i issues vault).record? token = some record ∧
          reveal vault.cipher record = some card ∧ ⟨token, card⟩ ∈ issues := by
  induction issues generalizing vault i with
  | nil => exact Or.inl free
  | cons issue more ih =>
    obtain ⟨next, hkeep, hcipher, hrecord⟩ := record?_keepAll_cons vault occasions i issue more
    rw [hkeep]
    rcases hrecord token with hsame | ⟨-, htoken, record, hentered, hcard⟩
    · rcases ih (hsame.trans free) (i + 1) with hnone | ⟨record, card, hlater, hcard, hmem⟩
      · exact Or.inl hnone
      · rw [hcipher] at hcard
        exact Or.inr ⟨record, card, hlater, hcard, List.mem_cons_of_mem _ hmem⟩
    · refine Or.inr ⟨record, issue.card, ?_, hcard, ?_⟩
      · exact record?_keepAll_of_some hentered occasions (i + 1) more
      · subst htoken
        exact List.mem_cons_self

/-- A token that is taken stands for what it stood for, whatever is written. -/
theorem retrieve_keepAll_of_some [FaithfulCipher κ] {record : CardRecord}
    (taken : vault.record? token = some record) (occasions : Nat → Occasion) (i : Nat)
    (issues : List Issue) :
    (Payload.keepAll occasions i issues vault).retrieve token = vault.retrieve token := by
  rw [retrieve_eq, retrieve_eq, record?_keepAll_of_some taken, taken, cipher_keepAll]

/-- A token that was free stands for a card that was written under it, if for any. -/
theorem mem_of_retrieve_keepAll [FaithfulCipher κ] (free : vault.record? token = none)
    {occasions : Nat → Occasion} {i : Nat} {issues : List Issue} {card : String}
    (found : (Payload.keepAll occasions i issues vault).retrieve token = some card) :
    ⟨token, card⟩ ∈ issues := by
  rw [retrieve_eq, cipher_keepAll] at found
  rcases record?_keepAll_of_none free occasions i issues with hnone | ⟨record, other, hrecord,
    hreveal, hmem⟩
  · rw [hnone] at found
    cases found
  · rw [hrecord, Option.bind_some, hreveal] at found
    cases found
    exact hmem

end CardVault

/-! ## Tokens of a document -/

namespace Payload

/-- What the token at the place of a card number stands for after depositing, also when more has
been stored since.  If the token had a record it stands for what it stood for.  If it was free, and
neither the document nor what was stored since has it for another card, it stands for the card
number that it replaces, or for nothing. -/
theorem retrieve_deposited {κ : Type} [CardCipher κ] [FaithfulCipher κ] (format : TokenFormat)
    (draws : Nat → TokenDraw) (occasions : Nat → Occasion) (vault : CardVault κ) {text : String}
    {document : Json} (hparse : Json.parse text = .ok document) (later : List Issue) :
    ∃ (payload : Payload) (ledger : Ledger (CardVault κ)) (result : Json),
      deposit format (fun i => format.token (draws i)) occasions vault text =
        .ok (payload, ledger) ∧
      Json.parse payload.body = .ok result ∧
      ∀ site, Json.IsCardSite format document site → ∃ i token,
        token = format.token (draws i) ∧
        Json.follow site.path result = some (.str token) ∧
        (∀ record, vault.record? token = some record →
          (ledger.keep occasions later).store.retrieve token = vault.retrieve token) ∧
        (vault.record? token = none →
          (∀ other, Json.IsCardSite format document other →
            Json.follow other.path result = some (.str token) → other.card = site.card) →
          (∀ issue ∈ later, issue.token = token → issue.card = site.card) →
          (ledger.keep occasions later).store.retrieve token = some site.card ∨
            (ledger.keep occasions later).store.retrieve token = none) := by
  let tokens (i : Nat) : String := format.token (draws i)
  let sites := Json.cardSites format document
  let issues := issuesAt tokens 0 sites
  let result := (document.tokenized format tokens 0).1
  have hswapped : Json.Swapped tokens 0 sites document result := Json.swapped_tokenized 0 document
  have hlater : (Ledger.keep occasions ⟨keepAll occasions 0 issues vault, issues⟩ later).store =
      keepAll occasions 0 (issues ++ later) vault := by
    rw [Ledger.keep, keepAll_append, Nat.zero_add]
  refine ⟨_, _, result, deposit_eq hparse, parse_deposited hparse, fun site hsite => ?_⟩
  obtain ⟨i, hi⟩ := List.mem_iff_getElem?.1 (Json.mem_cardSites.2 hsite)
  refine ⟨0 + i, tokens (0 + i), rfl, hswapped.there i site hi, ?_, ?_⟩
  · intro record htaken
    rw [hlater]
    exact CardVault.retrieve_keepAll_of_some htaken occasions 0 _
  · intro hfree hdocument hsince
    rw [hlater]
    cases hfound : (keepAll occasions 0 (issues ++ later) vault).retrieve (tokens (0 + i)) with
    | none => exact Or.inr rfl
    | some card =>
      -- What was written under the token was written for the document or later.
      have hcard : card = site.card := by
        rcases List.mem_append.1 (CardVault.mem_of_retrieve_keepAll hfree hfound) with hmem | hmem
        · obtain ⟨k, other, hk, hissue⟩ := mem_issuesAt.1 hmem
          obtain ⟨htoken, hcard⟩ := Issue.mk.inj hissue
          rw [hcard]
          refine hdocument other (Json.mem_cardSites.1 (List.mem_of_getElem? hk)) ?_
          rw [htoken]
          exact hswapped.there k other hk
        · exact hsince _ hmem rfl
      rw [hcard]
      exact Or.inl rfl

/-- In the sample the token is free, and another card is stored later under another token. -/
theorem retrieve_deposited_sample :
    ∃ (payload : Payload) (ledger : Ledger (CardVault LegacyCipher)) (result : Json),
      deposit .numeric (fun _ => TokenFormat.numeric.token sampleDraw)
        (fun i => ⟨Vector.replicate 12 0, i⟩) sampleVault sampleText = .ok (payload, ledger) ∧
      Json.parse payload.body = .ok result ∧
      Json.follow [0, 0] result = some (.str (TokenFormat.numeric.token sampleDraw)) ∧
      ((ledger.keep (fun i => ⟨Vector.replicate 12 0, i⟩)
          [⟨"tok_a", "5555555555554444"⟩]).store.retrieve (TokenFormat.numeric.token sampleDraw) =
            some "4111111111111111" ∨
        (ledger.keep (fun i => ⟨Vector.replicate 12 0, i⟩)
          [⟨"tok_a", "5555555555554444"⟩]).store.retrieve (TokenFormat.numeric.token sampleDraw) =
            none) := by
  obtain ⟨payload, ledger, result, hdeposit, hparse, hsites⟩ := retrieve_deposited .numeric
    (fun _ => sampleDraw) (fun i => ⟨Vector.replicate 12 0, i⟩) sampleVault parse_sampleText
    [⟨"tok_a", "5555555555554444"⟩]
  have hcards : ∀ site ∈ Json.cardSites .numeric sampleOrder, site.card = "4111111111111111" := by
    decide
  obtain ⟨i, token, rfl, htoken, -, hcard⟩ :=
    hsites ⟨[0, 0], "4111111111111111"⟩ (Json.mem_cardSites.1 (by decide))
  refine ⟨payload, ledger, result, hdeposit, hparse, htoken, hcard rfl ?_ ?_⟩
  · intro other hother _
    exact hcards other (Json.mem_cardSites.2 hother)
  · intro issue hissue hsame
    rw [List.mem_singleton.1 hissue] at hsame
    exact absurd hsame (by decide)

/-- A token that is drawn while it stands for a card goes out for another one, and stands for the
first one still. -/
theorem deposit_taken :
    ∃ (vault : CardVault LegacyCipher) (payload : Payload)
        (ledger : Ledger (CardVault LegacyCipher)) (result : Json),
      sampleVault.store ⟨Vector.replicate 12 1, 0⟩ (TokenFormat.numeric.token sampleDraw)
        "5555555555554444" = .ok vault ∧
      deposit .numeric (fun _ => TokenFormat.numeric.token sampleDraw)
        (fun i => ⟨Vector.replicate 12 0, i⟩) vault sampleText = .ok (payload, ledger) ∧
      Json.parse payload.body = .ok result ∧
      Json.follow [0, 0] sampleOrder = some (.str "4111111111111111") ∧
      Json.follow [0, 0] result = some (.str (TokenFormat.numeric.token sampleDraw)) ∧
      ledger.store.retrieve (TokenFormat.numeric.token sampleDraw) = some "5555555555554444" := by
  let token := TokenFormat.numeric.token sampleDraw
  let tokens (_ : Nat) : String := token
  obtain ⟨vault, hstore⟩ : ∃ vault, sampleVault.store ⟨Vector.replicate 12 1, 0⟩ token
      "5555555555554444" = .ok vault := ⟨_, rfl⟩
  obtain ⟨hcipher, -, ⟨record, hrecord, hreveal⟩, -⟩ := CardVault.record?_of_store hstore
  have hswapped : Json.Swapped tokens 0 (Json.cardSites .numeric sampleOrder) sampleOrder
      (sampleOrder.tokenized .numeric tokens 0).1 := Json.swapped_tokenized 0 sampleOrder
  refine ⟨vault, _, _, _, hstore, deposit_eq parse_sampleText, parse_deposited parse_sampleText,
    rfl, hswapped.there 0 ⟨[0, 0], "4111111111111111"⟩ (by decide), ?_⟩
  rw [CardVault.retrieve_keepAll_of_some hrecord, CardVault.retrieve_eq, hrecord, hcipher]
  exact hreveal

end Payload

end CardGate
