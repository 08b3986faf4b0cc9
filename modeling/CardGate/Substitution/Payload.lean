import CardGate.Json.Printer
import CardGate.Json.Reader
import CardGate.Substitution.Ledger
import CardGate.Text.Replace

/-!
# Substitution in a payload

A payload is the text of a body.  If nothing in it has to be replaced it passes byte for byte;
otherwise a JSON payload is written anew in compact form.  Pages of HTML are not read as a
document: every token found in their text is replaced wherever it occurs.

`deposit` tokenizes into a store.  What it replaces does not depend on that store, so the same can
be had in two steps: `tokenize` says which tokens it issued, and `keepAll` enters these into a
store.  A card that cannot be stored is replaced all the same.
-/

namespace CardGate

/-- A payload after substitution, and whether anything was replaced. -/
structure Payload where
  body : String
  modified : Bool
  deriving DecidableEq, Repr

namespace Payload

/-- A payload in which nothing was replaced. -/
def unchanged (body : String) : Payload :=
  ⟨body, false⟩

/-- A text with its card numbers replaced by tokens from a sequence, and the tokens issued. -/
def tokenize (format : TokenFormat) (tokens : Nat → String) (text : String) :
    Except GatewayError (Payload × List Issue) :=
  match Json.parse text with
  | .error e => .error (.decode e)
  | .ok document =>
    match document.tokenized format tokens 0 with
    | (_, []) => .ok (unchanged text, [])
    | (document, issues) => .ok (⟨document.print, true⟩, issues)

/-- Enters issued tokens into a store, the `i`-th on the `i`-th occasion.  A write that fails
changes nothing. -/
def keepAll {σ : Type} [CardStore σ] (occasions : Nat → Occasion) :
    Nat → List Issue → σ → σ
  | _, [], store => store
  | i, issue :: more, store =>
    match CardStore.store store (occasions i) issue.token issue.card with
    | .ok store => keepAll occasions (i + 1) more store
    | .error _ => keepAll occasions (i + 1) more store

/-- A text with its card numbers replaced by tokens from a sequence, every card handed to the
store as it is met, and the ledger of that. -/
def deposit {σ : Type} [CardStore σ] (format : TokenFormat) (tokens : Nat → String)
    (occasions : Nat → Occasion) (store : σ) (text : String) :
    Except GatewayError (Payload × Ledger σ) :=
  match Json.parse text with
  | .error e => .error (.decode e)
  | .ok document =>
    match document.deposited format tokens occasions ⟨store, []⟩ with
    | (_, false, ledger) => .ok (unchanged text, ledger)
    | (document, true, ledger) => .ok (⟨document.print, true⟩, ledger)

/-- The card that a string of a document stands for: one must hold a token somewhere, and the
store must know the string as a whole. -/
def cardFor? {σ : Type} [CardStore σ] (store : σ) (format : TokenFormat) (s : String) :
    Option String :=
  if format.pattern.matchesIn s.toList then CardStore.retrieve store s else none

/-- A text with its tokens replaced by the cards they stand for. -/
def detokenize {σ : Type} [CardStore σ] (store : σ) (format : TokenFormat) (text : String) :
    Except GatewayError Payload :=
  match Json.parse text with
  | .error e => .error (.decode e)
  | .ok document =>
    match document.restored (cardFor? store format) with
    | (_, false) => .ok (unchanged text)
    | (document, true) => .ok ⟨document.print, true⟩

/-- Replaces one token wherever it occurs in a page, if it stands for a card. -/
def replaceToken {σ : Type} [CardStore σ] (store : σ) (page : Payload) (token : String) : Payload :=
  match CardStore.retrieve store token with
  | none => page
  | some card =>
    ⟨String.ofList (Text.replaceWord token.toList card.toList page.body.toList), true⟩

/-- A page with its tokens replaced, one after the other in the order in which they first
occur. -/
def detokenizeHtml {σ : Type} [CardStore σ] (store : σ) (format : TokenFormat) (text : String) :
    Payload :=
  (format.tokensIn text).eraseDups.foldl (replaceToken store) (unchanged text)

end Payload

end CardGate
