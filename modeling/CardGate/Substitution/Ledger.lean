import CardGate.Substitution.Document
import CardGate.Vault

/-!
# Depositing the cards of a document

Tokenizing goes through a document and hands every card number it meets to a store, under the next
token, before it looks any further.  A store that refuses a card keeps what it had, and the card
is replaced all the same.

The `Ledger` is what a pass carries along: the store as it has become, and all that it has been
handed, in order.
-/

namespace CardGate

/-- A store in the middle of a pass, and what it has been handed so far. -/
structure Ledger (σ : Type) where
  store : σ
  handed : List Issue

variable {σ : Type} [CardStore σ]

/-- Hands a card to the store under the next token.  A write that fails changes nothing. -/
def Ledger.hand (tokens : Nat → String) (occasions : Nat → Occasion) (ledger : Ledger σ)
    (card : String) : String × Ledger σ :=
  let i := ledger.handed.length
  let store :=
    match CardStore.store ledger.store (occasions i) (tokens i) card with
    | .ok store => store
    | .error _ => ledger.store
  (tokens i, ⟨store, ledger.handed ++ [⟨tokens i, card⟩]⟩)

namespace Json

mutual

/-- A document with its card numbers replaced, whether there was one, and the ledger after it. -/
def deposited (format : TokenFormat) (tokens : Nat → String) (occasions : Nat → Occasion)
    (ledger : Ledger σ) : Json → Json × Bool × Ledger σ
  | arr items =>
    let (items, changed, ledger) := depositedItems format tokens occasions ledger items
    (arr items, changed, ledger)
  | obj members =>
    let (members, changed, ledger) := depositedMembers format tokens occasions ledger members
    (obj members, changed, ledger)
  | null => (null, false, ledger)
  | bool b => (bool b, false, ledger)
  | num digits => (num digits, false, ledger)
  | str s => (str s, false, ledger)

/-- The same for the items of an array. -/
def depositedItems (format : TokenFormat) (tokens : Nat → String) (occasions : Nat → Occasion)
    (ledger : Ledger σ) : List Json → List Json × Bool × Ledger σ
  | [] => ([], false, ledger)
  | item :: more =>
    let (item, here, ledger) := deposited format tokens occasions ledger item
    let (more, there, ledger) := depositedItems format tokens occasions ledger more
    (item :: more, here || there, ledger)

/-- The same for the members of an object. -/
def depositedMembers (format : TokenFormat) (tokens : Nat → String) (occasions : Nat → Occasion)
    (ledger : Ledger σ) : List (String × Json) → List (String × Json) × Bool × Ledger σ
  | [] => ([], false, ledger)
  | (name, value) :: more =>
    let (value, here, ledger) :=
      match cardIn? format name value with
      | some card =>
        let (token, ledger) := ledger.hand tokens occasions card
        (str token, true, ledger)
      | none => deposited format tokens occasions ledger value
    let (more, there, ledger) := depositedMembers format tokens occasions ledger more
    ((name, value) :: more, here || there, ledger)

end

end Json

end CardGate
