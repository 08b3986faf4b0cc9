import CardGate.Proofs.Json.Collected
import CardGate.Proofs.Substitution.Deposit

/-!
# Card numbers under repeated names

A member that is written more than once counts with its last value, and only this one is looked at
for a card number.  If it has one, the text does not pass, however the members are written
(`modified_of_last_member`).

The values before it are not in the document.  If a text passes, these are in it all the same
(`deposit_repeated`).
-/

namespace CardGate.Payload

variable {σ : Type} [CardStore σ]

/-- The name of no card field is reserved. -/
theorem isFieldName_numeralName : Card.isFieldName Json.numeralName = false := by
  decide

/-- A text in which the last member of some name is a card number in a card field does not pass: it
is modified, and what is sent on is another text. -/
theorem modified_of_last_member (format : TokenFormat) (draws : Nat → TokenDraw)
    (occasions : Nat → Occasion) (store : σ) {text : String} {members : List (String × Json)}
    (written : Json.IsTextOf (.obj members) text) {document : Json}
    (hparse : Json.parse text = .ok document) {name card : String}
    (last : Json.member? name members.reverse = some (.str card))
    (field : Card.isFieldName name = true) (number : Card.looksLikeNumber card = true)
    (unmarked : format.marks card = false) :
    ∃ (payload : Payload) (ledger : Ledger σ),
      deposit format (fun i => format.token (draws i)) occasions store text =
        .ok (payload, ledger) ∧
      payload.modified = true ∧ payload.body ≠ text := by
  have hsite : ∃ site, Json.IsCardSite format document site := by
    rcases (Json.collected_of_parse written hparse).member_of_last last with
      ⟨kept, value, rfl, hmem, hvalue⟩ | rfl
    · rw [hvalue.eq_str] at hmem
      obtain ⟨i, hi⟩ := List.mem_iff_getElem?.1 hmem
      exact ⟨⟨[i], card⟩, [], kept, i, name, rfl, rfl, hi, field, number, unmarked⟩
    · rw [isFieldName_numeralName] at field
      cases field
  refine ⟨_, _, deposit_eq hparse, (modified_deposited text document).2 hsite, fun hsame => ?_⟩
  let tokens (i : Nat) : String := format.token (draws i)
  have hresult : Json.parse text = .ok (document.tokenized format tokens 0).1 := by
    rw [← hsame]
    exact parse_deposited hparse
  rw [hparse] at hresult
  have hnone : Json.cardSites format document = [] := by
    rw [Except.ok.inj hresult]
    exact Json.cardSites_tokenized (fun i => format.marks_token (draws i)) 0 document
  obtain ⟨site, hsite⟩ := hsite
  rw [← Json.mem_cardSites, hnone] at hsite
  exact List.not_mem_nil hsite

/-- Two members of one name with strings for values. -/
def samplePair (first second : String) : List (String × Json) :=
  [("card", .str first), ("card", .str second)]

theorem isTextOf_samplePair (first second : String) :
    Json.IsTextOf (.obj (samplePair first second)) (Json.obj (samplePair first second)).print :=
  Json.isTextOf_print (.obj (List.forall_mem_cons.2
    ⟨.str first, List.forall_mem_singleton.2 (.str second)⟩))

theorem parse_samplePair (first second : String) :
    Json.parse (Json.obj (samplePair first second)).print =
      .ok (.obj (Json.collect (samplePair first second))) :=
  Json.parse_print_obj (by simp [samplePair, Json.numeralName]) (List.forall_mem_cons.2
    ⟨.str first, List.forall_mem_singleton.2 (.str second)⟩)

theorem modified_of_last_member_sample :
    ∃ (payload : Payload) (ledger : Ledger (CardVault LegacyCipher)),
      deposit .tagged (fun _ => TokenFormat.tagged.token sampleDraw)
        (fun i => ⟨Vector.replicate 12 0, i⟩) sampleVault
        (Json.obj (samplePair "x" "4111111111111111")).print = .ok (payload, ledger) ∧
      payload.modified = true ∧
      payload.body ≠ (Json.obj (samplePair "x" "4111111111111111")).print := by
  have hlast : Json.member? "card" (samplePair "x" "4111111111111111").reverse =
      some (.str "4111111111111111") := rfl
  exact modified_of_last_member .tagged (fun _ => sampleDraw) _ sampleVault
    (isTextOf_samplePair _ _) (parse_samplePair _ _) hlast (by decide) (by decide) (by decide)

/-- Arrays inside each other. -/
def nested : Nat → Json
  | 0 => .arr []
  | n + 1 => .arr [nested n]

theorem writable_nested (n : Nat) : Json.Writable (nested n) := by
  induction n with
  | zero => exact .arr (fun _ h => absurd h List.not_mem_nil)
  | succ n ih => exact .arr (List.forall_mem_singleton.2 ih)

theorem eq_nested {n : Nat} {read : Json} (h : Json.Collected (nested n) read) :
    read = nested n := by
  induction n generalizing read with
  | zero =>
    cases h with
    | arr items =>
      cases items
      rfl
  | succ n ih =>
    cases h with
    | arr items =>
      rcases items with _ | ⟨hitem, hmore⟩
      cases hmore
      rw [nested, ih hitem]

theorem lt_of_written_nested {n depth : Nat} (h : Json.Written depth (nested n)) : n < depth := by
  induction n generalizing depth with
  | zero =>
    cases h
    exact Nat.succ_pos _
  | succ n ih =>
    cases h with
    | arr all => exact Nat.succ_lt_succ (ih (all _ List.mem_cons_self))

/-- A card number, and arrays too deep to be read. -/
def sampleDeep : List (String × Json) :=
  [("card", .str "4111111111111111"), ("more", nested 126)]

theorem isTextOf_sampleDeep : Json.IsTextOf (.obj sampleDeep) (Json.obj sampleDeep).print :=
  Json.isTextOf_print (.obj (List.forall_mem_cons.2
    ⟨.str _, List.forall_mem_singleton.2 (writable_nested 126)⟩))

theorem parse_sampleDeep : ∃ fault, Json.parse (Json.obj sampleDeep).print = .error fault := by
  cases hparse : Json.parse (Json.obj sampleDeep).print with
  | error fault => exact ⟨fault, rfl⟩
  | ok document =>
    have hlast : Json.member? "more" sampleDeep.reverse = some (nested 126) := rfl
    rcases (Json.collected_of_parse isTextOf_sampleDeep hparse).member_of_last hlast with
      ⟨kept, value, rfl, hmem, hvalue⟩ | hname
    · rw [eq_nested hvalue] at hmem
      cases Json.written_of_parse hparse with
      | obj distinct plain all => exact absurd (lt_of_written_nested (all _ hmem)) (by decide)
    · exact absurd hname (by decide)

/-- The text of two members of one name. -/
def shadowedText : String :=
  "\x7b\"card\":\"4111111111111111\",\"card\":\"x\"\x7d"

/-- A card number in a card field passes if the name is repeated after it, and is in a text that is
refused if something else in the text is nested too deep. -/
theorem deposit_shadowed :
    Card.isFieldName "card" = true ∧ Card.looksLikeNumber "4111111111111111" = true ∧
      TokenFormat.tagged.marks "4111111111111111" = false ∧
      Json.IsTextOf (.obj [("card", .str "4111111111111111"), ("card", .str "x")]) shadowedText ∧
      deposit .tagged (fun _ => TokenFormat.tagged.token sampleDraw)
        (fun i => ⟨Vector.replicate 12 0, i⟩) sampleVault shadowedText =
        .ok (⟨shadowedText, false⟩, ⟨sampleVault, []⟩) ∧
      Json.IsTextOf (.obj [("card", .str "4111111111111111"), ("more", nested 126)])
        (Json.obj sampleDeep).print ∧
      ∃ fault, deposit .tagged (fun _ => TokenFormat.tagged.token sampleDraw)
        (fun i => ⟨Vector.replicate 12 0, i⟩) sampleVault (Json.obj sampleDeep).print =
        .error (.decode fault) := by
  have hprint : shadowedText = (Json.obj (samplePair "4111111111111111" "x")).print := by decide
  have hnone : Json.cardSites .tagged
      (.obj (Json.collect (samplePair "4111111111111111" "x"))) = [] := by decide
  obtain ⟨fault, hdeep⟩ := parse_sampleDeep
  refine ⟨by decide, by decide, by decide, ?_, ?_, isTextOf_sampleDeep, fault, ?_⟩
  · rw [hprint]
    exact isTextOf_samplePair _ _
  · rw [hprint]
    exact deposit_of_cardSites_eq_nil (parse_samplePair _ _) hnone
  · rw [deposit, hdeep]

end CardGate.Payload
