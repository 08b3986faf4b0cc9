import CardGate.Proofs.Substitution.Passing
import CardGate.Proofs.Substitution.Resolved

/-!
# What detokenizing changes

Detokenizing a document changes each of its strings by itself and nothing else: what stands at a path
afterwards is what stood there, restored (`follow_restored`).  A string is changed if it has a token
in it, going by its looks, and the store resolves it as a whole.

`detokenize_exact` says from this what becomes of a text: where a card is put in, that all else is as
it was, when the text is sent on byte for byte, and that the store is only read.
-/

namespace CardGate

namespace Json

variable {card? : String → Option String}

/-! ## Along a path -/

theorem fst_restoredAll {α : Type} (back : α → α × Bool) (parts : List α) :
    (restoredAll back parts).1 = parts.map fun part => (back part).1 := by
  induction parts with
  | nil => rfl
  | cons part more ih =>
    rw [List.map_cons, ← ih]
    rfl

/-- The members of an object keep their names and their order. -/
theorem names_restoredAll (members : List (String × Json)) :
    (restoredAll (restoredMember card?) members).1.map (·.1) = members.map (·.1) := by
  rw [fst_restoredAll, List.map_map]
  rfl

theorem inside_restored (d : Json) :
    (restored card? d).1.inside = d.inside.map fun v => (restored card? v).1 := by
  cases d with
  | arr items =>
    rw [restored_arr]
    exact fst_restoredAll (restored card?) items
  | obj members =>
    rw [restored_obj, inside, inside, fst_restoredAll, List.map_map, List.map_map]
    rfl
  | str s =>
    rw [restored]
    cases card? s <;> rfl
  | _ => rfl

/-- What stands in a restored document is what stood there, restored. -/
theorem follow_restored (path : List Nat) (d : Json) :
    follow path (restored card? d).1 = (follow path d).map fun v => (restored card? v).1 := by
  induction path generalizing d with
  | nil => rfl
  | cons i path ih =>
    rw [follow, follow, inside_restored, List.getElem?_map]
    cases d.inside[i]? with
    | none => rfl
    | some v => exact ih v

/-- A value other than a known string shows the same after it is restored. -/
theorem shell_restored {d : Json} (h : ∀ s, d = str s → card? s = none) :
    (restored card? d).1.shell = d.shell := by
  cases d with
  | arr items => rw [restored_arr, shell, shell, fst_restoredAll, List.map_map]; rfl
  | obj members => rw [restored_obj, shell, shell, fst_restoredAll, List.map_map]; rfl
  | str s => rw [restored, h s rfl]
  | _ => rfl

/-- A document none of whose strings is known is left as it is. -/
theorem restored_of_holdsNone {d : Json} (h : HoldsNone card? d) : (restored card? d).1 = d := by
  refine eq_of_shell_follow fun path => ?_
  rw [follow_restored]
  cases hv : follow path d with
  | none => rfl
  | some v =>
    refine congrArg some (shell_restored ?_)
    rintro s rfl
    exact h path s hv

/-- A document that can be read from a text still can after it is restored. -/
theorem Written.restored {depth : Nat} {d : Json} (h : Written depth d) :
    Written depth (restored card? d).1 := by
  induction h with
  | arr all ih =>
    rw [restored_arr, fst_restoredAll]
    exact .arr (List.forall_mem_map.2 ih)
  | obj distinct plain all ih =>
    rw [restored_obj]
    refine .obj ?_ ?_ ?_
    · rwa [names_restoredAll]
    · rwa [names_restoredAll]
    · rw [fst_restoredAll]
      exact List.forall_mem_map.2 ih
  | str s =>
    rw [Json.restored]
    cases card? s with
    | none => exact .str s
    | some card => exact .str card
  | null => exact .null
  | bool b => exact .bool b
  | num number => exact .num number

end Json

variable {σ : Type} [CardStore σ]

/-! ## Tokens in a document -/

namespace Payload

theorem cardFor?_eq_some {store : σ} {format : TokenFormat} {s card : String} :
    cardFor? store format s = some card ↔
      format.HoldsToken s.toList ∧ CardStore.retrieve store s = some card := by
  rw [cardFor?, ← format.matchesIn_iff_holdsToken]
  split
  · next hlooks => exact (and_iff_right hlooks).symm
  · next hlooks => exact iff_of_false (Option.some_ne_none card).symm fun h => hlooks h.1

/-- Whether a token stands at a place in a document, for the card of the site: a string that has
something in it that looks like a token, and that the store resolves as a whole. -/
def IsTokenSite (store : σ) (format : TokenFormat) (d : Json) (site : Site) : Prop :=
  ∃ s, Json.follow site.path d = some (.str s) ∧ format.HoldsToken s.toList ∧
    CardStore.retrieve store s = some site.card

theorem isTokenSite_iff {store : σ} {format : TokenFormat} {d : Json} {site : Site} :
    IsTokenSite store format d site ↔
      ∃ s, Json.follow site.path d = some (.str s) ∧
        cardFor? store format s = some site.card := by
  simp only [IsTokenSite, cardFor?_eq_some]

/-- A document holds no known string if there are no sites of tokens, and only then. -/
theorem holdsNone_iff_not_isTokenSite {store : σ} {format : TokenFormat} {d : Json} :
    Json.HoldsNone (cardFor? store format) d ↔ ¬∃ site, IsTokenSite store format d site := by
  constructor
  · rintro hnone ⟨site, hsite⟩
    obtain ⟨s, hs, hcard⟩ := isTokenSite_iff.1 hsite
    rw [hnone site.path s hs] at hcard
    cases hcard
  · intro hsites path s hs
    cases hcard : cardFor? store format s with
    | none => rfl
    | some card => exact absurd ⟨⟨path, card⟩, isTokenSite_iff.2 ⟨s, hs, hcard⟩⟩ hsites

/-! ## What becomes of a text -/

/-- A document with the cards in the places of the tokens, and nothing else changed. -/
structure PutBack (store : σ) (format : TokenFormat) (d result : Json) : Prop where
  there : ∀ site, IsTokenSite store format d site →
    Json.follow site.path result = some (.str site.card)
  elsewhere : ∀ path, (∀ card, ¬IsTokenSite store format d ⟨path, card⟩) →
    (Json.follow path result).map Json.shell = (Json.follow path d).map Json.shell

theorem putBack_restored (store : σ) (format : TokenFormat) (d : Json) :
    PutBack store format d (d.restored (cardFor? store format)).1 := by
  refine ⟨fun site hsite => ?_, fun path hpath => ?_⟩
  · obtain ⟨s, hs, hcard⟩ := isTokenSite_iff.1 hsite
    rw [Json.follow_restored, hs, Option.map_some, Json.restored, hcard]
  · rw [Json.follow_restored]
    cases hv : Json.follow path d with
    | none => rfl
    | some v =>
      refine congrArg some (Json.shell_restored ?_)
      rintro s rfl
      cases hcard : cardFor? store format s with
      | none => rfl
      | some card => exact absurd (isTokenSite_iff.2 ⟨s, hv, hcard⟩) (hpath card)

/-- What is sent on holds the document as it has become. -/
theorem parse_detokenized (store : σ) (format : TokenFormat) {text : String} {document : Json}
    (hparse : Json.parse text = .ok document) :
    Json.parse (if (document.restored (cardFor? store format)).2 = true then
        ⟨(document.restored (cardFor? store format)).1.print, true⟩ else unchanged text).body =
      .ok (document.restored (cardFor? store format)).1 := by
  cases hfound : (document.restored (cardFor? store format)).2 with
  | true => exact Json.parse_print (Json.written_of_parse hparse).restored
  | false =>
    rw [Json.restored_of_holdsNone (Json.restored_eq_false_iff.1 hfound)]
    exact hparse

/-- Detokenizing a text puts the cards in the places of the tokens that the store resolves, and
leaves everything else in the document, or the whole text if there are no such tokens, as it was.
The store stays as it is, and no token is issued.  A text that holds no document is an error in both
directions, whatever the store. -/
theorem detokenize_exact (store : σ) (format : TokenFormat) (tokens : Nat → String)
    (occasions : Nat → Occasion) (text : String) :
    (∀ document, Json.parse text = .ok document → ∃ (result : Json) (payload : Payload),
      detokenize store format text = .ok payload ∧
      PutBack store format document result ∧
      (payload.modified = true ↔ ∃ site, IsTokenSite store format document site) ∧
      payload = (if payload.modified = true then ⟨result.print, true⟩ else ⟨text, false⟩) ∧
      Json.parse payload.body = .ok result ∧
      Exchange.transform format tokens occasions store text .detokenize =
        ⟨some (Exchange.replyFor (.ok payload)), [], store⟩) ∧
    ∀ fault, Json.parse text = .error fault →
      detokenize store format text = .error (.decode fault) ∧
      deposit format tokens occasions store text = .error (.decode fault) ∧
      ∀ kind : Transform, kind ≠ .detokenizeHtml →
        Exchange.transform format tokens occasions store text kind =
          ⟨some .noContent, [], store⟩ := by
  refine ⟨fun document hparse => ?_, fun fault hparse => ⟨?_, ?_, fun kind hkind => ?_⟩⟩
  · let restored := document.restored (cardFor? store format)
    have hsites : restored.2 = true ↔ ∃ site, IsTokenSite store format document site := by
      rw [← Bool.not_eq_false, Json.restored_eq_false_iff, holdsNone_iff_not_isTokenSite, not_not]
    have hpayload : detokenize store format text =
        .ok (if restored.2 = true then ⟨restored.1.print, true⟩ else unchanged text) :=
      detokenize_eq hparse rfl
    refine ⟨restored.1, _, hpayload, putBack_restored store format document, ?_, ?_,
      parse_detokenized store format hparse, ?_⟩
    · rw [← hsites]
      cases restored.2 <;> rfl
    · cases restored.2 <;> rfl
    · rw [Exchange.transform, hpayload]
      rfl
  · rw [detokenize, hparse]
  · rw [deposit, hparse]
  · exact Exchange.transform_of_no_document hkind hparse

/-- A letter with a token, and with the same token behind something else. -/
def sampleLetter (token : String) : Json :=
  .obj [("note", .str token), ("remark", .str ("see " ++ token))]

theorem parse_sampleLetter (token : String) :
    Json.parse (sampleLetter token).print = .ok (sampleLetter token) := by
  refine Json.parse_print (.obj ?_ ?_ (List.forall_mem_cons.2 ⟨.str _, ?_⟩))
  · exact (by decide : ["note", "remark"].Nodup)
  · exact (by decide : ["note", "remark"].head? ≠ some Json.numeralName)
  · exact List.forall_mem_singleton.2 (.str _)

/-- In the sample the token is resolved where it stands alone, and nowhere else. -/
theorem detokenize_exact_sample :
    ∃ (vault : CardVault LegacyCipher) (token : String) (result : Json) (payload : Payload),
      sampleVault.store ⟨Vector.replicate 12 1, 0⟩ token "4111111111111111" = .ok vault ∧
      token = TokenFormat.numeric.token sampleDraw ∧
      detokenize vault .numeric (sampleLetter token).print = .ok payload ∧
      Json.parse payload.body = .ok result ∧ payload.modified = true ∧
      Json.follow [0] result = some (.str "4111111111111111") ∧
      (Json.follow [1] result).map Json.shell = some (.str ("see " ++ token)) := by
  obtain ⟨vault, hstore⟩ : ∃ vault, sampleVault.store ⟨Vector.replicate 12 1, 0⟩
      (TokenFormat.numeric.token sampleDraw) "4111111111111111" = .ok vault := ⟨_, rfl⟩
  have hlooks := TokenFormat.numeric.holdsToken_token sampleDraw
  refine ⟨vault, TokenFormat.numeric.token sampleDraw, ?_⟩
  generalize TokenFormat.numeric.token sampleDraw = token at hstore hlooks ⊢
  obtain ⟨hcipher, -, ⟨record, hrecord, hreveal⟩, hothers⟩ := CardVault.record?_of_store hstore
  obtain ⟨result, payload, hpayload, hback, hmodified, -, hparse, -⟩ :=
    (detokenize_exact vault .numeric (fun _ => token) (fun i => ⟨Vector.replicate 12 0, i⟩)
      (sampleLetter token).print).1 _ (parse_sampleLetter token)
  have hsite : IsTokenSite vault .numeric (sampleLetter token) ⟨[0], "4111111111111111"⟩ := by
    refine ⟨token, rfl, hlooks, ?_⟩
    show vault.retrieve token = _
    rw [CardVault.retrieve_eq, hrecord, hcipher]
    exact hreveal
  have hnone : vault.retrieve ("see " ++ token) = none := by
    have hlonger : "see " ++ token ≠ token := by
      intro heq
      have hlength := congrArg (fun s => s.toList.length) heq
      have hfour : "see ".toList.length = 4 := rfl
      simp only [String.toList_append, List.length_append] at hlength
      omega
    rw [CardVault.retrieve_eq, hothers _ hlonger]
    rfl
  have hother (card : String) : ¬IsTokenSite vault .numeric (sampleLetter token) ⟨[1], card⟩ := by
    rintro ⟨s, hs, -, hcard⟩
    have hs : Json.str ("see " ++ token) = .str s := Option.some.inj hs
    rw [← Json.str.inj hs] at hcard
    rw [show CardStore.retrieve vault ("see " ++ token) = none from hnone] at hcard
    cases hcard
  exact ⟨result, payload, hstore, rfl, hpayload, hparse, hmodified.2 ⟨_, hsite⟩,
    hback.there _ hsite, hback.elsewhere [1] hother⟩

end Payload

end CardGate
