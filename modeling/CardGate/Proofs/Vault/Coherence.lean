import CardGate.Proofs.Vault.Durability
import CardGate.Proofs.Vault.Shared
import Mathlib.Data.List.Nodup

/-!
# What every step on a shared vault keeps

`Coherent` holds after every schedule whose rotations give fresh names (`Coherent.run`).  It says
that the records are those of the stores that succeeded, in their order; that every record in the
vault or under way stays readable; and that everything returned is what whole calls would have
returned one after the other (`Explained`), a store at its second step and a retrieval at its first.
-/

namespace CardGate

variable {κ : Type} [CardCipher κ]

/-! ## What was returned explains the vault -/

/-- The cards that the stores among finished calls have kept, the oldest first. -/
def keptIn (returned : List VaultEvent) : List Issue :=
  returned.filterMap VaultEvent.kept?

/-- The card kept under a token. -/
def cardIn (issues : List Issue) (token : String) : Option String :=
  (issues.find? (·.token = token)).map (·.card)

theorem keptIn_append (returned more : List VaultEvent) :
    keptIn (returned ++ more) = keptIn returned ++ keptIn more :=
  List.filterMap_append

theorem mem_keptIn {returned : List VaultEvent} {issue : Issue} :
    issue ∈ keptIn returned ↔ .stored issue.token issue.card (.ok ()) ∈ returned := by
  rw [keptIn, List.mem_filterMap]
  constructor
  · rintro ⟨event, hevent, hkept⟩
    cases event with
    | stored token card result =>
      cases result with
      | ok _ =>
        cases hkept
        exact hevent
      | error e => cases hkept
    | retrieved token answer since => cases hkept
  · intro hmem
    exact ⟨_, hmem, rfl⟩

theorem mem_tokens_keptIn {returned : List VaultEvent} {token : String} :
    token ∈ (keptIn returned).map Issue.token ↔ ∃ card, .stored token card (.ok ()) ∈ returned := by
  rw [List.mem_map]
  constructor
  · rintro ⟨issue, hissue, rfl⟩
    exact ⟨issue.card, mem_keptIn.1 hissue⟩
  · rintro ⟨card, hcard⟩
    exact ⟨⟨token, card⟩, mem_keptIn.2 hcard, rfl⟩

theorem cardIn_of_mem {issues : List Issue} (hdistinct : (issues.map Issue.token).Nodup)
    {issue : Issue} (hmem : issue ∈ issues) : cardIn issues issue.token = some issue.card := by
  induction issues with
  | nil => cases hmem
  | cons first more ih =>
    rw [List.map_cons, List.nodup_cons] at hdistinct
    rcases List.mem_cons.1 hmem with rfl | hmem
    · simp [cardIn]
    · have hne : first.token ≠ issue.token := by
        intro hsame
        exact hdistinct.1 (hsame ▸ List.mem_map_of_mem hmem)
      have hmore := ih hdistinct.2 hmem
      rw [cardIn] at hmore ⊢
      rwa [List.find?_cons_of_neg (by simpa using hne)]

theorem cardIn_eq_none {issues : List Issue} {token : String}
    (hnew : token ∉ issues.map Issue.token) : cardIn issues token = none := by
  have hfind : issues.find? (·.token = token) = none := by
    rw [List.find?_eq_none]
    intro issue hissue hsame
    exact hnew (of_decide_eq_true hsame ▸ List.mem_map_of_mem hissue)
  rw [cardIn, hfind]
  rfl

/-- Whether a call has returned what the calls before it make it return: a store succeeds if its
token is free, and a retrieval gives what was kept when it began. -/
def Explained (before : List VaultEvent) : VaultEvent → Prop
  | .stored token _ result =>
    result = if token ∈ (keptIn before).map Issue.token then
      .error (.storage (.tokenTaken token)) else .ok ()
  | .retrieved token answer since =>
    since ≤ before.length ∧ answer = cardIn (keptIn (before.take since)) token

/-- Whether every call has. -/
def AllExplained (returned : List VaultEvent) : Prop :=
  ∀ before event after, returned = before ++ event :: after → Explained before event

theorem AllExplained.snoc {returned : List VaultEvent} (h : AllExplained returned)
    {event : VaultEvent} (hevent : Explained returned event) :
    AllExplained (returned ++ [event]) := by
  intro before other after heq
  rcases List.eq_nil_or_concat after with rfl | ⟨rest, last, rfl⟩
  · obtain ⟨rfl, hother⟩ := List.append_inj' heq rfl
    cases hother
    exact hevent
  · rw [List.concat_eq_append, ← List.cons_append, ← List.append_assoc] at heq
    exact h before other rest (List.append_inj' heq rfl).1

section Records

variable [RotatingCipher κ]

/-- Whether a record holds a card under its token and does not lose it by rotations. -/
structure Holds (cipher : κ) (issue : Issue) (record : CardRecord) : Prop where
  token_eq : record.token = issue.token
  durable : Durable cipher ⟨record.encrypted, record.keyId⟩ (Utf8.bytes issue.card)

theorem Holds.reveal {cipher : κ} {issue : Issue} {record : CardRecord}
    (h : Holds cipher issue record) : CardVault.reveal cipher record = some issue.card := by
  have hdecrypt := h.durable.decrypt
  simp only [CardVault.reveal, decryptText, hdecrypt, Utf8.text?_bytes]

theorem Holds.rotate {cipher next : κ} {issue : Issue} {record : CardRecord} {rotation : Rotation}
    (h : Holds cipher issue record) (hfresh : RotatingCipher.IsFresh cipher rotation)
    (hrotate : RotatingCipher.rotate cipher rotation = .ok next) : Holds next issue record :=
  ⟨h.token_eq, h.durable.rotate hfresh hrotate⟩

/-- Records that hold issues are found under their tokens. -/
theorem find?_of_holds {cipher : κ} {issues : List Issue} {records : List CardRecord}
    (h : List.Forall₂ (Holds cipher) issues records) (token : String) :
    Option.Rel (Holds cipher) (issues.find? (·.token = token))
      (records.find? (·.token = token)) := by
  induction h with
  | nil => exact Option.Rel.none
  | @cons issue record more rest hhead _ ih =>
    by_cases htoken : issue.token = token
    · have hrecord : record.token = token := by rw [hhead.token_eq, htoken]
      simpa [htoken, hrecord] using Option.Rel.some hhead
    · have hrecord : record.token ≠ token := by rwa [hhead.token_eq]
      simpa [htoken, hrecord] using ih

/-- A vault whose records hold issues has a record for the tokens of these and no others. -/
theorem record?_eq_none_of_holds {vault : CardVault κ} {issues : List Issue}
    (h : List.Forall₂ (Holds vault.cipher) issues vault.records) {token : String} :
    vault.record? token = none ↔ token ∉ issues.map Issue.token := by
  have hfind := find?_of_holds h token
  have hrecord : vault.record? token = vault.records.find? (·.token = token) := rfl
  rw [← hrecord] at hfind
  constructor
  · intro hnone hmem
    rw [hnone] at hfind
    cases hissue : issues.find? (·.token = token) with
    | none =>
      obtain ⟨issue, hin, hsame⟩ := List.mem_map.1 hmem
      exact List.find?_eq_none.1 hissue issue hin (decide_eq_true hsame)
    | some issue =>
      rw [hissue] at hfind
      cases hfind
  · intro hnew
    have hissue : issues.find? (·.token = token) = none := by
      rw [List.find?_eq_none]
      intro issue hin hsame
      exact hnew (of_decide_eq_true hsame ▸ List.mem_map_of_mem hin)
    rw [hissue] at hfind
    cases hvault : vault.record? token with
    | none => rfl
    | some record =>
      rw [hvault] at hfind
      cases hfind

end Records

namespace SharedVault

variable [RotatingCipher κ]

/-- What holds of a shared vault after any schedule. -/
structure Coherent (s : SharedVault κ) : Prop where
  reachable : RotatingCipher.Reachable s.vault.cipher
  storing : ∀ pending ∈ s.storing, Holds s.vault.cipher pending.issue pending.record
  retrieving : ∀ pending ∈ s.retrieving, pending.since ≤ s.returned.length ∧
    ∃ card, ⟨pending.token, card⟩ ∈ keptIn (s.returned.take pending.since) ∧
      Holds s.vault.cipher ⟨pending.token, card⟩ pending.record
  records : List.Forall₂ (Holds s.vault.cipher) (keptIn s.returned) s.vault.records
  distinct : ((keptIn s.returned).map Issue.token).Nodup
  explained : AllExplained s.returned

theorem coherent_start {cipher : κ} (hreachable : RotatingCipher.Reachable cipher) :
    (start cipher).Coherent where
  reachable := hreachable
  storing := by simp [start]
  retrieving := by simp [start]
  records := List.Forall₂.nil
  distinct := List.nodup_nil
  explained := by simp [AllExplained, start]

variable {s : SharedVault κ}

/-- Every step but a rotation leaves the keys alone. -/
theorem cipher_step (s : SharedVault κ) {step : VaultStep} (h : step.rotation? = none) :
    (s.step step).vault.cipher = s.vault.cipher := by
  cases step with
  | prepare occasion token card =>
    simp only [SharedVault.step]
    split <;> rfl
  | enter i =>
    simp only [SharedVault.step]
    split
    · simp only [finishStore, CardVault.enter]
      split
      · next heq =>
        split at heq
        · cases heq
        · cases heq
          rfl
      · rfl
    · rfl
  | lookUp token =>
    simp only [SharedVault.step]
    split <;> rfl
  | reveal i =>
    simp only [SharedVault.step]
    split <;> rfl
  | rotate rotation => cases h

/-- What a finished call adds to what was returned does not touch the retrievals under way. -/
theorem Coherent.retrieving_snoc (h : s.Coherent) (event : VaultEvent) :
    ∀ pending ∈ s.retrieving, pending.since ≤ (s.returned ++ [event]).length ∧
      ∃ card, ⟨pending.token, card⟩ ∈ keptIn ((s.returned ++ [event]).take pending.since) ∧
        Holds s.vault.cipher ⟨pending.token, card⟩ pending.record := by
  intro pending hpending
  obtain ⟨hsince, card, hcard, hholds⟩ := h.retrieving pending hpending
  refine ⟨?_, card, ?_, hholds⟩
  · rw [List.length_append]
    omega
  · rwa [List.take_append_of_le_length hsince]

theorem Coherent.prepare [DurableCipher κ] (h : s.Coherent) (occasion : Occasion) (token card : String) :
    (s.step (.prepare occasion token card)).Coherent := by
  obtain ⟨sealed, hsealed, hdurable⟩ := DurableCipher.exists_encrypt s.vault.cipher occasion.nonce
    (Utf8.bytes card) h.reachable
  have hprepare : CardVault.prepare s.vault.cipher occasion token card =
      .ok (CardRecord.create token card sealed occasion.now) := by
    rw [CardVault.prepare, hsealed]
  simp only [step, hprepare]
  refine { h with storing := ?_ }
  intro pending hpending
  rcases List.mem_append.1 hpending with hpending | hpending
  · exact h.storing pending hpending
  · rw [List.mem_singleton.1 hpending]
    exact ⟨rfl, hdurable⟩

theorem Coherent.enter (h : s.Coherent) (i : Nat) : (s.step (.enter i)).Coherent := by
  cases hpending : s.storing[i]? with
  | none => simpa only [step, hpending] using h
  | some pending =>
    have hholds := h.storing pending (List.mem_of_getElem? hpending)
    have hstoring : ∀ other ∈ s.storing.eraseIdx i, Holds s.vault.cipher other.issue other.record :=
      fun other hother => h.storing other (List.mem_of_mem_eraseIdx hother)
    simp only [step, hpending, finishStore, CardVault.enter, hholds.token_eq]
    cases hrecord : s.vault.record? pending.issue.token with
    | some record =>
      -- The token is taken, so nothing is entered and nothing is kept.
      have htaken : pending.issue.token ∈ (keptIn s.returned).map Issue.token := by
        by_contra hnew
        rw [(record?_eq_none_of_holds h.records).2 hnew] at hrecord
        cases hrecord
      have hkept (e : GatewayError) : keptIn (s.returned ++
          [.stored pending.issue.token pending.issue.card (.error e)]) = keptIn s.returned := by
        rw [keptIn_append]
        exact List.append_nil _
      exact {
        reachable := h.reachable
        storing := hstoring
        retrieving := h.retrieving_snoc _
        records := by rw [hkept]; exact h.records
        distinct := by rw [hkept]; exact h.distinct
        explained := h.explained.snoc (by rw [Explained, if_pos htaken]) }
    | none =>
      have hnew := (record?_eq_none_of_holds h.records).1 hrecord
      have hkept : keptIn (s.returned ++
          [.stored pending.issue.token pending.issue.card (.ok ())]) =
          keptIn s.returned ++ [pending.issue] := by
        rw [keptIn_append]
        rfl
      exact {
        reachable := h.reachable
        storing := hstoring
        retrieving := h.retrieving_snoc _
        records := by
          rw [hkept]
          exact List.rel_append h.records (List.Forall₂.cons hholds List.Forall₂.nil)
        distinct := by
          rw [hkept, List.map_append]
          exact List.nodup_append.2 ⟨h.distinct, List.nodup_singleton _, by
            intro token htoken other hother
            rw [List.map_singleton, List.mem_singleton] at hother
            rintro rfl
            exact hnew (hother ▸ htoken)⟩
        explained := h.explained.snoc (by rw [Explained, if_neg hnew]) }

theorem Coherent.lookUp (h : s.Coherent) (token : String) : (s.step (.lookUp token)).Coherent := by
  have htake : s.returned.take s.returned.length = s.returned := List.take_length
  cases hrecord : s.vault.record? token with
  | none =>
    have hnew := (record?_eq_none_of_holds h.records).1 hrecord
    have hkept : keptIn (s.returned ++ [.retrieved token none s.returned.length]) =
        keptIn s.returned := by
      rw [keptIn_append]
      exact List.append_nil _
    simp only [step, hrecord]
    exact {
      reachable := h.reachable
      storing := h.storing
      retrieving := h.retrieving_snoc _
      records := by rw [hkept]; exact h.records
      distinct := by rw [hkept]; exact h.distinct
      explained := h.explained.snoc ⟨Nat.le_refl _, by rw [htake, cardIn_eq_none hnew]⟩ }
  | some record =>
    have hfind := find?_of_holds h.records token
    rw [show s.vault.records.find? (·.token = token) = some record from hrecord] at hfind
    simp only [step, hrecord]
    refine { h with retrieving := ?_ }
    intro pending hpending
    rcases List.mem_append.1 hpending with hpending | hpending
    · exact h.retrieving pending hpending
    · rw [List.mem_singleton.1 hpending]
      refine ⟨Nat.le_refl _, ?_⟩
      cases hissue : (keptIn s.returned).find? (·.token = token) with
      | none =>
        rw [hissue] at hfind
        cases hfind
      | some issue =>
        rw [hissue] at hfind
        cases hfind with
        | some hholds =>
          have htoken : issue.token = token := by simpa using List.find?_some hissue
          subst htoken
          refine ⟨issue.card, ?_, hholds⟩
          rw [htake]
          exact List.mem_of_find?_eq_some hissue

theorem Coherent.reveal (h : s.Coherent) (i : Nat) : (s.step (.reveal i)).Coherent := by
  cases hpending : s.retrieving[i]? with
  | none => simpa only [step, hpending] using h
  | some pending =>
    obtain ⟨hsince, card, hcard, hholds⟩ :=
      h.retrieving pending (List.mem_of_getElem? hpending)
    have hdistinct : ((keptIn (s.returned.take pending.since)).map Issue.token).Nodup :=
      h.distinct.sublist (((List.take_sublist _ _).filterMap _).map _)
    have hanswer := cardIn_of_mem hdistinct hcard
    have hkept (answer : Option String) : keptIn (s.returned ++
        [.retrieved pending.token answer pending.since]) = keptIn s.returned := by
      rw [keptIn_append]
      exact List.append_nil _
    simp only [step, hpending, hholds.reveal]
    exact {
      reachable := h.reachable
      storing := h.storing
      retrieving := fun other hother =>
        h.retrieving_snoc _ other (List.mem_of_mem_eraseIdx hother)
      records := by rw [hkept]; exact h.records
      distinct := by rw [hkept]; exact h.distinct
      explained := h.explained.snoc ⟨hsince, hanswer.symm⟩ }

theorem Coherent.rotate [DurableCipher κ] (h : s.Coherent) {rotation : Rotation}
    (hfresh : RotatingCipher.IsFresh s.vault.cipher rotation) :
    (s.step (.rotate rotation)).Coherent := by
  obtain ⟨next, hrotate, hreachable⟩ :=
    DurableCipher.exists_rotate s.vault.cipher rotation h.reachable
  simp only [step, hrotate]
  exact {
    reachable := hreachable
    storing := fun pending hpending => (h.storing pending hpending).rotate hfresh hrotate
    retrieving := by
      intro pending hpending
      obtain ⟨hsince, card, hcard, hholds⟩ := h.retrieving pending hpending
      exact ⟨hsince, card, hcard, hholds.rotate hfresh hrotate⟩
    records := h.records.imp fun _ _ hholds => hholds.rotate hfresh hrotate
    distinct := h.distinct
    explained := h.explained }

/-- A schedule whose rotations give fresh names keeps a shared vault coherent. -/
theorem Coherent.run [DurableCipher κ] (h : s.Coherent) {steps : List VaultStep}
    (hfresh : FreshNames s.vault.cipher (steps.filterMap VaultStep.rotation?)) :
    (s.run steps).Coherent := by
  induction steps generalizing s with
  | nil => exact h
  | cons step more ih =>
    have hother (hnone : step.rotation? = none) (hstep : (s.step step).Coherent) :
        (s.run (step :: more)).Coherent := by
      rw [List.filterMap_cons_none hnone] at hfresh
      apply ih hstep
      rwa [cipher_step s hnone]
    cases step with
    | prepare occasion token card => exact hother rfl (h.prepare occasion token card)
    | enter i => exact hother rfl (h.enter i)
    | lookUp token => exact hother rfl (h.lookUp token)
    | reveal i => exact hother rfl (h.reveal i)
    | rotate rotation =>
      rw [List.filterMap_cons_some (by rfl)] at hfresh
      apply ih (h.rotate hfresh.1)
      obtain ⟨next, hrotate, -⟩ :=
        DurableCipher.exists_rotate s.vault.cipher rotation h.reachable
      have hcipher : (s.step (.rotate rotation)).vault.cipher = next := by
        simp only [SharedVault.step, hrotate]
      rw [hcipher]
      exact hfresh.2 next hrotate

end SharedVault

end CardGate
