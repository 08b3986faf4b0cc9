import CardGate.Proofs.Keys.Durability
import CardGate.Substitution.Payload
import CardGate.Text.Utf8.Lemmas

/-!
# What the vault keeps

A vault `Keeps` a card under a token if the record there decrypts to it, now and after every run of
rotations with fresh names.  Storing under a free token makes the vault keep the card and touches
no other record (`exists_store`); so a pass over a document makes it keep every card that it hands
over (`keeps_keepAll`).
-/

namespace CardGate.CardVault

variable {κ : Type} [CardCipher κ]

/-- A vault after a write, by the record that was entered. -/
theorem eq_of_store {vault next : CardVault κ} {occasion : Occasion} {token card : String}
    (h : vault.store occasion token card = .ok next) :
    ∃ record, prepare vault.cipher occasion token card = .ok record ∧
      vault.enter record = .ok next ∧ next.cipher = vault.cipher := by
  rw [store] at h
  split at h
  · next record hprepare =>
    refine ⟨record, hprepare, h, ?_⟩
    rw [enter] at h
    split at h
    · cases h
    · cases h
      rfl
  · cases h

variable [RotatingCipher κ]

/-- The vaults that calls make of an empty one.  A call that fails leaves the vault as it is. -/
inductive Reachable : CardVault κ → Prop where
  | empty (cipher : κ) (reachable : RotatingCipher.Reachable cipher) : Reachable ⟨cipher, []⟩
  | store {vault next : CardVault κ} (reachable : Reachable vault) (occasion : Occasion)
      (token card : String) (stored : vault.store occasion token card = .ok next) : Reachable next
  | rotate {vault : CardVault κ} {cipher : κ} (reachable : Reachable vault) (rotation : Rotation)
      (rotated : RotatingCipher.rotate vault.cipher rotation = .ok cipher) :
      Reachable { vault with cipher := cipher }

/-- Whether a vault has a card under a token and does not lose it by rotations. -/
def Keeps (vault : CardVault κ) (token card : String) : Prop :=
  ∃ record, vault.record? token = some record ∧
    Durable vault.cipher ⟨record.encrypted, record.keyId⟩ (Utf8.bytes card)

/-- What a vault keeps, it gives back after any run of rotations with fresh names. -/
theorem Keeps.retrieve {vault : CardVault κ} {token card : String} (h : vault.Keeps token card)
    {rotations : List Rotation} {cipher : κ} (hfresh : FreshNames vault.cipher rotations)
    (hrotate : rotateAll vault.cipher rotations = .ok cipher) :
    CardVault.retrieve { vault with cipher := cipher } token = some card := by
  obtain ⟨record, hrecord, hdurable⟩ := h
  have hrecord' : CardVault.record? { vault with cipher := cipher } token = some record := hrecord
  have hdecrypt := hdurable rotations cipher hfresh hrotate
  rw [CardVault.retrieve, hrecord']
  simp only [decryptText, hdecrypt, Utf8.text?_bytes]

variable [DurableCipher κ]

theorem Reachable.cipher {vault : CardVault κ} (h : Reachable vault) :
    RotatingCipher.Reachable vault.cipher := by
  induction h with
  | empty cipher reachable => exact reachable
  | store reachable occasion token card stored ih =>
    obtain ⟨-, -, -, hcipher⟩ := eq_of_store stored
    rw [hcipher]
    exact ih
  | rotate reachable rotation rotated ih =>
    obtain ⟨next, hnext, hreachable⟩ := DurableCipher.exists_rotate _ rotation ih
    rw [rotated] at hnext
    cases hnext
    exact hreachable

/-- Storing under a free token keeps the card and touches no other record. -/
theorem exists_store {vault : CardVault κ} (hreachable : RotatingCipher.Reachable vault.cipher)
    (occasion : Occasion) {token : String} (hfree : vault.record? token = none) (card : String) :
    ∃ next, vault.store occasion token card = .ok next ∧ next.cipher = vault.cipher ∧
      next.Keeps token card ∧
      ∀ other, other ≠ token → next.record? other = vault.record? other := by
  obtain ⟨sealed, hsealed, hdurable⟩ :=
    DurableCipher.exists_encrypt vault.cipher occasion.nonce (Utf8.bytes card) hreachable
  let record := CardRecord.create token card sealed occasion.now
  have hprepare : prepare vault.cipher occasion token card = .ok record := by
    rw [prepare, hsealed]
  let next : CardVault κ := { vault with records := vault.records ++ [record] }
  have henter : vault.enter record = .ok next := by
    rw [enter, show record.token = token from rfl, hfree]
  have hrecord (other : String) :
      next.record? other = if token = other then some record else vault.record? other :=
    record?_enter henter other
  refine ⟨next, ?_, rfl, ⟨record, ?_, hdurable⟩, fun other hother => ?_⟩
  · rw [store, hprepare]
    exact henter
  · rw [hrecord, if_pos rfl]
  · rw [hrecord, if_neg (Ne.symm hother)]

/-- A pass that hands over cards under different free tokens makes the vault keep them all, and
touches no other record. -/
theorem keeps_keepAll {vault : CardVault κ} (hreachable : RotatingCipher.Reachable vault.cipher)
    (occasions : Nat → Occasion) (i : Nat) {issues : List Issue}
    (hdistinct : (issues.map Issue.token).Nodup)
    (hfree : ∀ issue ∈ issues, vault.record? issue.token = none) :
    (Payload.keepAll occasions i issues vault).cipher = vault.cipher ∧
      (∀ issue ∈ issues, (Payload.keepAll occasions i issues vault).Keeps issue.token issue.card) ∧
      ∀ token, token ∉ issues.map Issue.token →
        (Payload.keepAll occasions i issues vault).record? token = vault.record? token := by
  induction issues generalizing i vault with
  | nil => exact ⟨rfl, fun _ h => absurd h List.not_mem_nil, fun _ _ => rfl⟩
  | cons issue more ih =>
    rw [List.map_cons, List.nodup_cons] at hdistinct
    obtain ⟨hnew, hdistinct⟩ := hdistinct
    obtain ⟨next, hstore, hcipher, hkeeps, hothers⟩ :=
      exists_store hreachable (occasions i) (hfree issue List.mem_cons_self) issue.card
    have hmore : ∀ other ∈ more, next.record? other.token = none := by
      intro other hother
      have hne : other.token ≠ issue.token := by
        intro heq
        exact hnew (heq ▸ List.mem_map_of_mem hother)
      rw [hothers _ hne]
      exact hfree other (List.mem_cons_of_mem _ hother)
    obtain ⟨hcipher', hkeeps', hothers'⟩ := ih (hcipher ▸ hreachable) (i + 1) hdistinct hmore
    have hkeep : Payload.keepAll occasions i (issue :: more) vault =
        Payload.keepAll occasions (i + 1) more next := by
      rw [Payload.keepAll, show CardStore.store vault (occasions i) issue.token issue.card =
        .ok next from hstore]
    rw [hkeep]
    refine ⟨hcipher'.trans hcipher, ?_, ?_⟩
    · intro other hother
      rcases List.mem_cons.1 hother with rfl | hother
      · obtain ⟨record, hrecord, hdurable⟩ := hkeeps
        refine ⟨record, ?_, hcipher' ▸ hdurable⟩
        rw [hothers' _ hnew, hrecord]
      · exact hkeeps' other hother
    · intro token htoken
      rw [List.map_cons, List.mem_cons, not_or] at htoken
      rw [hothers' token htoken.2, hothers token htoken.1]

/-- After a pass and any run of rotations with fresh names the vault gives back what was handed
over, and knows no other string that it did not know before. -/
theorem retrieve_keepAll {vault : CardVault κ}
    (hreachable : RotatingCipher.Reachable vault.cipher) (occasions : Nat → Occasion)
    {issues : List Issue} (hdistinct : (issues.map Issue.token).Nodup)
    (hfree : ∀ issue ∈ issues, vault.record? issue.token = none) {rotations : List Rotation}
    (hfresh : FreshNames vault.cipher rotations) :
    ∃ cipher, rotateAll (Payload.keepAll occasions 0 issues vault).cipher rotations = .ok cipher ∧
      (∀ issue ∈ issues,
        CardVault.retrieve { Payload.keepAll occasions 0 issues vault with cipher := cipher }
          issue.token = some issue.card) ∧
      ∀ s, s ∉ issues.map Issue.token → vault.record? s = none →
        CardVault.record? { Payload.keepAll occasions 0 issues vault with cipher := cipher } s =
          none := by
  obtain ⟨hcipher, hkeeps, hothers⟩ := keeps_keepAll hreachable occasions 0 hdistinct hfree
  obtain ⟨cipher, hrotate, -⟩ := exists_rotateAll hreachable rotations
  rw [← hcipher] at hrotate hfresh
  refine ⟨cipher, hrotate, ?_, ?_⟩
  · intro issue hissue
    exact (hkeeps issue hissue).retrieve hfresh hrotate
  · intro s hnew hnone
    exact (hothers s hnew).trans hnone

end CardGate.CardVault
