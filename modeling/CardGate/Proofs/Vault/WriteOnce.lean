import CardGate.Proofs.Vault.Coherence

/-!
# A shared vault is written once and loses nothing

`WriteOnce` is what the callers of a shared vault see: a card that was stored is what every later
retrieval gives, no other store of its token succeeds, and no store is lost.  It follows from
coherence alone, so it holds whatever the schedule (`write_once`).
-/

namespace CardGate

namespace SharedVault

variable {κ : Type} [CardCipher κ] [RotatingCipher κ] {s : SharedVault κ}

/-! ## What callers see -/

/-- A vault that is written once and loses nothing, as its callers see it. -/
structure WriteOnce (s : SharedVault κ) : Prop where
  /-- Once a store has succeeded, every retrieval that begins later gives its card. -/
  found : ∀ before token card after,
    s.returned = before ++ .stored token card (.ok ()) :: after →
      ∀ answer since, .retrieved token answer since ∈ after → before.length < since →
        answer = some card
  /-- No other store of its token succeeds, be it earlier or later. -/
  refused : ∀ before token card after,
    s.returned = before ++ .stored token card (.ok ()) :: after →
      ∀ other result, .stored token other result ∈ before ++ after →
        result = .error (.storage (.tokenTaken token))
  /-- A store succeeds unless another one of its token has. -/
  accepted : ∀ before token card result after,
    s.returned = before ++ .stored token card result :: after →
      (∀ other, .stored token other (.ok ()) ∉ before) → result = .ok ()
  /-- A token for which no store has succeeded stands for nothing. -/
  missing : ∀ before token answer since after,
    s.returned = before ++ .retrieved token answer since :: after →
      (∀ card, .stored token card (.ok ()) ∉ before) → answer = none
  /-- There is one record for each store that has succeeded. -/
  size_eq : s.vault.size = s.returned.countP fun event => event.kept?.isSome
  /-- Every card that was stored is there. -/
  present : ∀ token card, .stored token card (.ok ()) ∈ s.returned →
    s.vault.retrieve token = some card
  /-- And nothing else is. -/
  absent : ∀ token, (∀ card, .stored token card (.ok ()) ∉ s.returned) →
    s.vault.retrieve token = none

theorem Coherent.result_of_stored (h : s.Coherent) {before after : List VaultEvent}
    {token card : String} {result : Except GatewayError Unit}
    (hreturned : s.returned = before ++ .stored token card result :: after) :
    result = if token ∈ (keptIn before).map Issue.token then
      .error (.storage (.tokenTaken token)) else .ok () :=
  h.explained before _ after hreturned

theorem Coherent.found (h : s.Coherent) {before after : List VaultEvent} {token card : String}
    (hreturned : s.returned = before ++ .stored token card (.ok ()) :: after)
    {answer : Option String} {since : Nat} (hanswer : .retrieved token answer since ∈ after)
    (hsince : before.length < since) : answer = some card := by
  obtain ⟨mid, rest, rfl⟩ := List.append_of_mem hanswer
  have hsplit : s.returned =
      (before ++ .stored token card (.ok ()) :: mid) ++ .retrieved token answer since :: rest := by
    rw [hreturned, List.append_assoc, List.cons_append]
  obtain ⟨-, hcard⟩ := h.explained _ _ _ hsplit
  have hmem : ⟨token, card⟩ ∈
      keptIn ((before ++ .stored token card (.ok ()) :: mid).take since) := by
    rw [mem_keptIn, List.take_append]
    apply List.mem_append_right
    obtain ⟨k, hk⟩ := Nat.exists_eq_add_of_lt hsince
    rw [show since - before.length = k + 1 by omega, List.take_succ_cons]
    exact List.mem_cons_self
  have hdistinct : ((keptIn ((before ++ .stored token card (.ok ()) :: mid).take since)).map
      Issue.token).Nodup := by
    refine h.distinct.sublist (List.Sublist.map _ (List.Sublist.filterMap _ ?_))
    rw [hsplit]
    exact (List.take_sublist _ _).trans (List.sublist_append_left _ _)
  rw [hcard]
  exact cardIn_of_mem hdistinct hmem

theorem Coherent.refused (h : s.Coherent) {before after : List VaultEvent} {token card : String}
    (hreturned : s.returned = before ++ .stored token card (.ok ()) :: after) {other : String}
    {result : Except GatewayError Unit} (hother : .stored token other result ∈ before ++ after) :
    result = .error (.storage (.tokenTaken token)) := by
  have hfirst := h.result_of_stored hreturned
  rcases List.mem_append.1 hother with hother | hother
  · -- Had the earlier one succeeded, this one would have failed.
    obtain ⟨start, mid, rfl⟩ := List.append_of_mem hother
    have hsplit : s.returned = start ++ .stored token other result ::
        (mid ++ .stored token card (.ok ()) :: after) := by
      rw [hreturned, List.append_assoc, List.cons_append]
    have hresult := h.result_of_stored hsplit
    by_cases htaken : token ∈ (keptIn start).map Issue.token
    · rwa [if_pos htaken] at hresult
    · rw [if_neg htaken] at hresult
      subst hresult
      have hkept : token ∈ (keptIn (start ++ .stored token other (.ok ()) :: mid)).map
          Issue.token := by
        rw [mem_tokens_keptIn]
        exact ⟨other, List.mem_append_right _ List.mem_cons_self⟩
      rw [if_pos hkept] at hfirst
      cases hfirst
  · obtain ⟨mid, rest, rfl⟩ := List.append_of_mem hother
    have hsplit : s.returned = (before ++ .stored token card (.ok ()) :: mid) ++
        .stored token other result :: rest := by
      rw [hreturned, List.append_assoc, List.cons_append]
    have hkept : token ∈ (keptIn (before ++ .stored token card (.ok ()) :: mid)).map
        Issue.token := by
      rw [mem_tokens_keptIn]
      exact ⟨card, List.mem_append_right _ List.mem_cons_self⟩
    have hresult := h.result_of_stored hsplit
    rwa [if_pos hkept] at hresult

theorem Coherent.missing (h : s.Coherent) {before after : List VaultEvent} {token : String}
    {answer : Option String} {since : Nat}
    (hreturned : s.returned = before ++ .retrieved token answer since :: after)
    (hnone : ∀ card, .stored token card (.ok ()) ∉ before) : answer = none := by
  obtain ⟨-, hanswer⟩ := h.explained _ _ _ hreturned
  rw [hanswer]
  apply cardIn_eq_none
  rw [mem_tokens_keptIn]
  rintro ⟨card, hcard⟩
  exact hnone card (List.mem_of_mem_take hcard)

/-- What the vault gives now. -/
theorem Coherent.retrieve (h : s.Coherent) (token : String) :
    s.vault.retrieve token = cardIn (keptIn s.returned) token := by
  have hfind := find?_of_holds h.records token
  rw [CardVault.retrieve_eq, cardIn, CardVault.record?]
  cases hissue : (keptIn s.returned).find? (·.token = token) with
  | none =>
    rw [hissue] at hfind
    cases hrecord : s.vault.records.find? (·.token = token) with
    | none => rfl
    | some record =>
      rw [hrecord] at hfind
      cases hfind
  | some issue =>
    rw [hissue] at hfind
    cases hrecord : s.vault.records.find? (·.token = token) with
    | none =>
      rw [hrecord] at hfind
      cases hfind
    | some record =>
      rw [hrecord] at hfind
      cases hfind with
      | some hholds => exact hholds.reveal

theorem Coherent.writeOnce (h : s.Coherent) : s.WriteOnce where
  found _ _ _ _ hreturned _ _ := h.found hreturned
  refused _ _ _ _ hreturned _ _ := h.refused hreturned
  accepted before token card result after hreturned hnone := by
    have hresult := h.result_of_stored hreturned
    rwa [if_neg (by rw [mem_tokens_keptIn]; rintro ⟨other, hother⟩; exact hnone other hother)]
      at hresult
  missing _ _ _ _ _ hreturned := h.missing hreturned
  size_eq := by
    have hlength := h.records.length_eq
    rw [CardVault.size, ← hlength, keptIn, List.length_filterMap_eq_countP]
  present token card hstored := by
    rw [h.retrieve]
    have hmem : ⟨token, card⟩ ∈ keptIn s.returned := mem_keptIn.2 hstored
    exact cardIn_of_mem h.distinct hmem
  absent token hnone := by
    rw [h.retrieve]
    apply cardIn_eq_none
    rw [mem_tokens_keptIn]
    rintro ⟨card, hcard⟩
    exact hnone card hcard

/-- A step on which a store fails leaves the records as they were. -/
theorem records_step_of_error (s : SharedVault κ) (step : VaultStep) {token card : String}
    {e : GatewayError} (h : (s.step step).returned = s.returned ++ [.stored token card (.error e)]) :
    (s.step step).vault.records = s.vault.records := by
  cases step with
  | prepare occasion token card =>
    simp only [SharedVault.step]
    split <;> rfl
  | enter i =>
    simp only [SharedVault.step] at h ⊢
    split at h
    · next pending hpending =>
      simp only [finishStore] at h ⊢
      split at h
      · -- The store has succeeded, and returned something else.
        have hevent := List.append_cancel_left h
        cases hevent
      · simp only
    · rfl
  | lookUp token =>
    simp only [SharedVault.step]
    split <;> rfl
  | reveal i =>
    simp only [SharedVault.step]
    split <;> rfl
  | rotate rotation =>
    simp only [SharedVault.step]
    split <;> rfl

/-- Under every schedule of stores, retrievals and rotations with fresh names, an empty vault is
written once and loses nothing: whatever was stored is found by everybody who asks later, a second
store of a token fails and leaves the records as they were, and the stores of different tokens are
all there at the end. -/
theorem write_once [DurableCipher κ] (cipher : κ) (reachable : RotatingCipher.Reachable cipher)
    (steps : List VaultStep) (fresh : FreshNames cipher (steps.filterMap VaultStep.rotation?)) :
    ((start cipher).run steps).WriteOnce ∧
      ∀ earlier step later, steps = earlier ++ step :: later → ∀ token card e,
        ((start cipher).run (earlier ++ [step])).returned =
            ((start cipher).run earlier).returned ++ [.stored token card (.error e)] →
          ((start cipher).run (earlier ++ [step])).vault.records =
            ((start cipher).run earlier).vault.records := by
  refine ⟨((coherent_start reachable).run fresh).writeOnce, ?_⟩
  intro earlier step later _ token card e herror
  have hlast : (start cipher).run (earlier ++ [step]) = ((start cipher).run earlier).step step :=
    List.foldl_append
  rw [hlast] at herror ⊢
  exact records_step_of_error _ step herror

/-- Two stores of one token and a store of another, all begun before the keys are rotated.  The
second of them ends between the two rotations, the others after both. -/
def sampleSteps : List VaultStep :=
  [.prepare ⟨Vector.replicate 12 1, 1⟩ "tok_a" "4111111111111111",
    .prepare ⟨Vector.replicate 12 2, 2⟩ "tok_a" "5555555555554444",
    .prepare ⟨Vector.replicate 12 3, 3⟩ "tok_b" "340000000000009"] ++
  (DualModeCipher.sampleRotations.map .rotate).intersperse (.enter 1) ++
  [.lookUp "tok_a", .enter 0, .enter 0, .reveal 0]

theorem write_once_sample :
    ((start DualModeCipher.sample).run sampleSteps).WriteOnce ∧
      .stored "tok_a" "5555555555554444" (.ok ()) ∈
        ((start (LegacyCipher.mk ⟨Vector.replicate 32 7⟩)).run sampleSteps).returned ∧
      ((start (LegacyCipher.mk ⟨Vector.replicate 32 7⟩)).run sampleSteps).vault.retrieve "tok_a" =
        some "5555555555554444" := by
  have hdual := write_once DualModeCipher.sample DualModeCipher.reachable_sample sampleSteps
    DualModeCipher.freshNames_sampleRotations
  have hlegacy := write_once (LegacyCipher.mk ⟨Vector.replicate 32 7⟩) trivial sampleSteps
    ⟨trivial, fun _ _ => ⟨trivial, fun _ _ => trivial⟩⟩
  have hstored : .stored "tok_a" "5555555555554444" (.ok ()) ∈
      ((start (LegacyCipher.mk ⟨Vector.replicate 32 7⟩)).run sampleSteps).returned :=
    List.Mem.head _
  exact ⟨hdual.1, hstored, hlegacy.1.present _ _ hstored⟩

end SharedVault

end CardGate
