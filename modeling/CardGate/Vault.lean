import CardGate.Card.Record
import CardGate.Error

/-!
# Card stores and the vault

A card store keeps which token stands for which card.  The vault is a store in memory that
encrypts every card before it keeps it and never overwrites a token.  Storing takes two steps:
the card is encrypted with no record in sight, and then the record is entered unless its token is
taken.  Other calls may come between the two.
-/

namespace CardGate

/-- What a write draws from outside: a fresh nonce and the time. -/
structure Occasion where
  nonce : Gcm.Nonce
  now : Nat

/-- A store of cards under tokens. -/
class CardStore (σ : Type) where
  /-- Keeps a card under a token. -/
  store : σ → Occasion → (token card : String) → Except GatewayError σ
  /-- The card under a token. -/
  retrieve : σ → (token : String) → Option String

/-- A store in memory with encrypted records, the oldest first. -/
structure CardVault (κ : Type) where
  cipher : κ
  records : List CardRecord

namespace CardVault

variable {κ : Type}

/-- The first step of storing: the record of a card, encrypted under the current key. -/
def prepare [CardCipher κ] (cipher : κ) (occasion : Occasion) (token card : String) :
    Except GatewayError CardRecord :=
  match CardCipher.encrypt cipher occasion.nonce (Utf8.bytes card) with
  | .ok encrypted => .ok (CardRecord.create token card encrypted occasion.now)
  | .error e => .error (.crypto e)

/-- The record under a token. -/
def record? (vault : CardVault κ) (token : String) : Option CardRecord :=
  vault.records.find? (·.token = token)

/-- The second step of storing: enters a record whose token is not taken. -/
def enter (vault : CardVault κ) (record : CardRecord) : Except GatewayError (CardVault κ) :=
  match vault.record? record.token with
  | some _ => .error (.storage (.tokenTaken record.token))
  | none => .ok { vault with records := vault.records ++ [record] }

/-- A record that is entered is found under its token, and the other tokens keep theirs. -/
theorem record?_enter {vault next : CardVault κ} {record : CardRecord}
    (h : vault.enter record = .ok next) (token : String) :
    next.record? token = if record.token = token then some record else vault.record? token := by
  unfold enter at h
  split at h
  · cases h
  · next free =>
    cases h
    simp only [record?, List.find?_append] at *
    by_cases ht : record.token = token
    · subst ht
      simp [free]
    · simp [ht]

/-- Keeps a card under a token. -/
def store [CardCipher κ] (vault : CardVault κ) (occasion : Occasion) (token card : String) :
    Except GatewayError (CardVault κ) :=
  match prepare vault.cipher occasion token card with
  | .ok record => vault.enter record
  | .error e => .error e

/-- The card under a token, if there is a record and it can be decrypted. -/
def retrieve [CardCipher κ] (vault : CardVault κ) (token : String) : Option String :=
  match vault.record? token with
  | none => none
  | some record =>
    match decryptText vault.cipher record.encrypted record.keyId with
    | .ok card => some card
    | .error _ => none

/-- The number of records. -/
def size (vault : CardVault κ) : Nat :=
  vault.records.length

instance [CardCipher κ] : CardStore (CardVault κ) where
  store := CardVault.store
  retrieve := CardVault.retrieve

end CardVault

end CardGate
