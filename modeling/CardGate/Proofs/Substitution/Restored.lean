import CardGate.Proofs.Substitution.Deposit
import CardGate.Proofs.Vault.Durability

/-!
# The way back

A document comes back from tokenizing if every token that was issued is known, and stands for the
card it was issued for, and no string that was there before is known: this is
`restored_tokenized`, whatever it is that knows the tokens.

For a vault both hold if the tokens are free and different, and none of them stands in the document
already.  So `detokenize_deposit` gives back what was deposited, also after the keys were rotated.
-/

namespace CardGate

namespace Json

/-! ## Restoring a row of parts -/

/-- The parts of a row after each of them is restored, and whether something was. -/
def restoredAll {α : Type} (restored : α → α × Bool) : List α → List α × Bool
  | [] => ([], false)
  | part :: more =>
    let (part, here) := restored part
    let (more, there) := restoredAll restored more
    (part :: more, here || there)

/-- A member after its value is restored. -/
def restoredMember (card? : String → Option String) (member : String × Json) :
    (String × Json) × Bool :=
  let (value, found) := restored card? member.2
  ((member.1, value), found)

variable {card? : String → Option String} {format : TokenFormat} {tokens : Nat → String}

theorem restored_arr (items : List Json) :
    restored card? (arr items) =
      (arr (restoredAll (restored card?) items).1, (restoredAll (restored card?) items).2) := by
  have hitems : restoredItems card? items = restoredAll (restored card?) items := by
    induction items with
    | nil => rfl
    | cons item more ih => simp only [restoredItems, restoredAll, ih]
  rw [restored, hitems]

theorem restored_obj (members : List (String × Json)) :
    restored card? (obj members) =
      (obj (restoredAll (restoredMember card?) members).1,
        (restoredAll (restoredMember card?) members).2) := by
  have hmembers : restoredMembers card? members = restoredAll (restoredMember card?) members := by
    induction members with
    | nil => rfl
    | cons member more ih =>
      obtain ⟨name, value⟩ := member
      simp only [restoredMembers, restoredAll, restoredMember, ih]
  rw [restored, hmembers]

/-- A row of parts comes back if each of its parts does. -/
theorem restoredAll_replacedAll {α : Type} {replaced : Nat → α → α × List Issue}
    {back : α → α × Bool} {known : Issue → Prop} {parts : List α}
    (h : ∀ part ∈ parts, ∀ n, (∀ issue ∈ (replaced n part).2, known issue) →
      back (replaced n part).1 = (part, !(replaced n part).2.isEmpty)) (next : Nat)
    (hknown : ∀ issue ∈ (replacedAll replaced next parts).2, known issue) :
    restoredAll back (replacedAll replaced next parts).1 =
      (parts, !(replacedAll replaced next parts).2.isEmpty) := by
  induction parts generalizing next with
  | nil => rfl
  | cons part more ih =>
    have hpart := h part List.mem_cons_self next fun issue hissue =>
      hknown issue (List.mem_append_left _ hissue)
    have hmore := ih (fun part hpart => h part (List.mem_cons_of_mem _ hpart)) _
      fun issue hissue => hknown issue (List.mem_append_right _ hissue)
    simp only [replacedAll, restoredAll, hpart, hmore, not_isEmpty_append]

/-! ## Restoring what was tokenized -/

/-- No string of a document is known. -/
def HoldsNone (card? : String → Option String) (d : Json) : Prop :=
  ∀ path s, follow path d = some (str s) → card? s = none

theorem HoldsNone.inside {d v : Json} (h : HoldsNone card? d) (hv : v ∈ d.inside) :
    HoldsNone card? v := by
  intro path s hs
  obtain ⟨i, hi⟩ := List.mem_iff_getElem?.1 hv
  refine h (i :: path) s ?_
  rw [follow, hi]
  exact hs

theorem restored_tokenizedMember {member : String × Json} {next : Nat}
    (hknown : ∀ issue ∈ (tokenizedMember format tokens next member).2,
      card? issue.token = some issue.card)
    (hvalue : (∀ issue ∈ (tokenized format tokens next member.2).2,
        card? issue.token = some issue.card) →
      restored card? (tokenized format tokens next member.2).1 =
        (member.2, !(tokenized format tokens next member.2).2.isEmpty)) :
    restoredMember card? (tokenizedMember format tokens next member).1 =
      (member, !(tokenizedMember format tokens next member).2.isEmpty) := by
  obtain ⟨name, value⟩ := member
  rw [tokenizedMember] at hknown ⊢
  rcases hcard : cardIn? format name value with _ | card
  · simp only [hcard] at hknown ⊢
    simp only [restoredMember, hvalue hknown]
  · simp only [hcard] at hknown ⊢
    have htoken : card? (tokens next) = some card := hknown ⟨tokens next, card⟩ List.mem_cons_self
    simp only [restoredMember, restored, htoken, (cardIn?_eq_some.1 hcard).1]
    rfl

/-- A document comes back from tokenizing if the tokens issued are known and none of its own
strings is. -/
theorem restored_tokenized {d : Json} (hnone : HoldsNone card? d) (next : Nat)
    (hknown : ∀ issue ∈ (tokenized format tokens next d).2, card? issue.token = some issue.card) :
    restored card? (tokenized format tokens next d).1 =
      (d, !(tokenized format tokens next d).2.isEmpty) := by
  induction d using induct generalizing next with
  | arr items ih =>
    rw [tokenized_arr] at hknown ⊢
    rw [restored_arr, restoredAll_replacedAll (fun item hitem n hitems => ?_) next hknown]
    exact ih item hitem (hnone.inside hitem) n hitems
  | obj members ih =>
    rw [tokenized_obj] at hknown ⊢
    rw [restored_obj, restoredAll_replacedAll (fun member hmember n hissues => ?_) next hknown]
    exact restored_tokenizedMember hissues
      (ih member hmember (hnone.inside (List.mem_map_of_mem hmember)) n)
  | str s =>
    rw [tokenized, restored, hnone [] s rfl]
    rfl
  | _ => rfl

end Json

/-! ## A vault that knows the tokens -/

namespace Payload

/-- A text whose document is restored to another. -/
theorem detokenize_eq {σ : Type} [CardStore σ] {store : σ} {format : TokenFormat} {text : String}
    {d restored : Json} {found : Bool} (hparse : Json.parse text = .ok d)
    (hrestored : d.restored (cardFor? store format) = (restored, found)) :
    detokenize store format text =
      .ok (if found = true then ⟨restored.print, true⟩ else unchanged text) := by
  rw [detokenize, hparse]
  simp only [hrestored]
  cases found <;> rfl

/-- Nothing is known of a string that has no record. -/
theorem cardFor?_of_record?_eq_none {κ : Type} [CardCipher κ] {vault : CardVault κ}
    {format : TokenFormat} {s : String} (h : vault.record? s = none) :
    cardFor? vault format s = none := by
  rw [cardFor?]
  split
  · show vault.retrieve s = none
    rw [CardVault.retrieve, h]
  · rfl

/-- A string that looks like a token is known if the store can retrieve it. -/
theorem cardFor?_token {σ : Type} [CardStore σ] {store : σ} {format : TokenFormat}
    {draw : TokenDraw} {card : String}
    (h : CardStore.retrieve store (format.token draw) = some card) :
    cardFor? store format (format.token draw) = some card := by
  rw [cardFor?, if_pos (format.matchesIn_token draw)]
  exact h

theorem nodup_tokens_issuesAt {tokens : Nat → String} {sites : List Site}
    (h : ∀ i j, i < j → j < sites.length → tokens i ≠ tokens j) :
    ((issuesAt tokens 0 sites).map Issue.token).Nodup := by
  rw [List.nodup_iff_getElem?_ne_getElem?]
  intro i j hij hj
  rw [List.length_map, length_issuesAt] at hj
  have hi : i < sites.length := Nat.lt_trans hij hj
  simpa [issuesAt, hi, hj] using h i j hij hj

/-- What is deposited in a vault comes back, also after its keys were rotated: the same document,
and the same text if there was no card number to replace.  The tokens drawn for the sites of the document must be
free and different, and no string of the document may be one of them or have a record already. -/
theorem detokenize_deposit {κ : Type} [CardCipher κ] [RotatingCipher κ] [DurableCipher κ]
    (format : TokenFormat) (draws : Nat → TokenDraw) (occasions : Nat → Occasion)
    (vault : CardVault κ) (reachable : vault.Reachable) {text : String} {document : Json}
    (hparse : Json.parse text = .ok document)
    (distinct : ∀ i j, i < j → j < (Json.cardSites format document).length →
      format.token (draws i) ≠ format.token (draws j))
    (free : ∀ i < (Json.cardSites format document).length,
      vault.record? (format.token (draws i)) = none)
    (unseen : ∀ i < (Json.cardSites format document).length, ∀ path,
      Json.follow path document ≠ some (.str (format.token (draws i))))
    (unknown : ∀ path s, Json.follow path document = some (.str s) → vault.record? s = none)
    (rotations : List Rotation) (fresh : FreshNames vault.cipher rotations) :
    ∃ (payload : Payload) (ledger : Ledger (CardVault κ)) (cipher : κ) (back : Payload),
      deposit format (fun i => format.token (draws i)) occasions vault text =
        .ok (payload, ledger) ∧
      rotateAll ledger.store.cipher rotations = .ok cipher ∧
      detokenize { ledger.store with cipher := cipher } format payload.body = .ok back ∧
      Json.parse back.body = .ok document ∧
      (payload.modified = true ↔ ∃ site, Json.IsCardSite format document site) ∧
      (payload.modified = false → back.body = text) := by
  let issues := issuesAt (fun i => format.token (draws i)) 0 (Json.cardSites format document)
  have hissue : ∀ issue ∈ issues, ∃ i < (Json.cardSites format document).length,
      issue.token = format.token (draws i) := by
    intro issue hissue
    obtain ⟨i, site, hsite, rfl⟩ := mem_issuesAt.1 hissue
    exact ⟨i, (List.getElem?_eq_some_iff.1 hsite).1, by rw [Nat.zero_add]⟩
  have hfree : ∀ issue ∈ issues, vault.record? issue.token = none := by
    intro issue hmem
    obtain ⟨i, hi, htoken⟩ := hissue issue hmem
    rw [htoken]
    exact free i hi
  obtain ⟨cipher, hrotate, hretrieve, hothers⟩ := CardVault.retrieve_keepAll reachable.cipher
    occasions (nodup_tokens_issuesAt distinct) hfree fresh
  let store : CardVault κ := { keepAll occasions 0 issues vault with cipher := cipher }
  have hknown : ∀ issue ∈ issues, cardFor? store format issue.token = some issue.card := by
    intro issue hmem
    obtain ⟨i, -, htoken⟩ := hissue issue hmem
    have hcard := hretrieve issue hmem
    rw [htoken] at hcard ⊢
    exact cardFor?_token hcard
  have hnone : Json.HoldsNone (cardFor? store format) document := by
    intro path s hs
    have hnew : s ∉ issues.map Issue.token := by
      intro htaken
      obtain ⟨issue, hmem, rfl⟩ := List.mem_map.1 htaken
      obtain ⟨i, hi, htoken⟩ := hissue issue hmem
      rw [htoken] at hs
      exact unseen i hi path hs
    exact cardFor?_of_record?_eq_none (hothers s hnew (unknown path s hs))
  have hback := Json.restored_tokenized hnone 0 (by rwa [Json.issues_tokenized])
  rw [Json.issues_tokenized, isEmpty_issuesAt] at hback
  refine ⟨_, _, cipher, _, deposit_eq hparse, hrotate,
    detokenize_eq (parse_deposited hparse) hback, ?_, modified_deposited text document, ?_⟩
  · by_cases hsites : Json.cardSites format document = []
    · rw [if_pos hsites, decide_eq_true hsites]
      exact hparse
    · rw [decide_eq_false hsites]
      exact Json.parse_print (Json.written_of_parse hparse)
  · intro hmodified
    have hsites : Json.cardSites format document = [] := by
      by_contra hsites
      rw [if_neg hsites] at hmodified
      cases hmodified
    rw [if_pos hsites, decide_eq_true hsites]
    rfl

/-- All strings of the sample are the number of the card. -/
theorem follow_sampleOrder {path : List Nat} {s : String}
    (h : Json.follow path sampleOrder = some (.str s)) : s = "4111111111111111" := by
  have hcard {rest : List Nat} (h : Json.follow rest (.str "4111111111111111") = some (.str s)) :
      s = "4111111111111111" := by
    rcases Json.follow_cases h with h | ⟨inner, hinner, -⟩
    · cases h
      rfl
    · exact absurd hinner List.not_mem_nil
  rcases Json.follow_cases h with h | ⟨inner, hinner, rest, h⟩
  · cases h
  rcases List.mem_pair.1 hinner with rfl | rfl
  · rcases Json.follow_cases h with h | ⟨inner, hinner, rest, h⟩
    · cases h
    · rw [List.mem_singleton.1 hinner] at h
      exact hcard h
  · exact hcard h

theorem detokenize_deposit_sample :
    (∃ (payload : Payload) (ledger : Ledger (CardVault DualModeCipher)) (cipher : DualModeCipher)
        (back : Payload),
      deposit .tagged (fun _ => TokenFormat.tagged.token sampleDraw)
        (fun i => ⟨Vector.replicate 12 0, i⟩) ⟨DualModeCipher.sample, []⟩ sampleText =
        .ok (payload, ledger) ∧
      rotateAll ledger.store.cipher DualModeCipher.sampleRotations = .ok cipher ∧
      detokenize { ledger.store with cipher := cipher } .tagged payload.body = .ok back ∧
      Json.parse back.body = .ok sampleOrder) ∧
    ∃ (payload : Payload) (ledger : Ledger (CardVault LegacyCipher)) (cipher : LegacyCipher)
        (back : Payload),
      deposit .numeric (fun _ => TokenFormat.numeric.token sampleDraw)
        (fun i => ⟨Vector.replicate 12 0, i⟩) sampleVault sampleText = .ok (payload, ledger) ∧
      rotateAll ledger.store.cipher DualModeCipher.sampleRotations = .ok cipher ∧
      detokenize { ledger.store with cipher := cipher } .numeric payload.body = .ok back ∧
      Json.parse back.body = .ok sampleOrder := by
  have hone (format : TokenFormat) : (Json.cardSites format sampleOrder).length = 1 := by
    cases format <;> decide
  have hunseen (format : TokenFormat) (path : List Nat) :
      Json.follow path sampleOrder ≠ some (.str (format.token sampleDraw)) := by
    intro h
    have hmarks := format.marks_token sampleDraw
    rw [follow_sampleOrder h] at hmarks
    revert hmarks
    cases format <;> decide
  constructor
  · obtain ⟨payload, ledger, cipher, back, hdeposit, hrotate, hback, hparse, -⟩ :=
      detokenize_deposit .tagged (fun _ => sampleDraw) (fun i => ⟨Vector.replicate 12 0, i⟩)
        ⟨DualModeCipher.sample, []⟩ (.empty _ DualModeCipher.reachable_sample) parse_sampleText
        (fun i j hij hj => absurd (hone .tagged ▸ hj) (by omega)) (fun _ _ => rfl)
        (fun _ _ => hunseen .tagged) (fun _ _ _ => rfl) DualModeCipher.sampleRotations
        DualModeCipher.freshNames_sampleRotations
    exact ⟨payload, ledger, cipher, back, hdeposit, hrotate, hback, hparse⟩
  · obtain ⟨payload, ledger, cipher, back, hdeposit, hrotate, hback, hparse, -⟩ :=
      detokenize_deposit .numeric (fun _ => sampleDraw) (fun i => ⟨Vector.replicate 12 0, i⟩)
        sampleVault (.empty _ trivial) parse_sampleText
        (fun i j hij hj => absurd (hone .numeric ▸ hj) (by omega)) (fun _ _ => rfl)
        (fun _ _ => hunseen .numeric) (fun _ _ _ => rfl) DualModeCipher.sampleRotations
        ⟨trivial, fun _ _ => ⟨trivial, fun _ _ => trivial⟩⟩
    exact ⟨payload, ledger, cipher, back, hdeposit, hrotate, hback, hparse⟩

end Payload

end CardGate
