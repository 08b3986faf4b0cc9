import CardGate.Card.Brand
import CardGate.Json.Basic
import CardGate.Keys.Cipher

/-!
# Card records

The vault keeps a card number only encrypted.  Beside the ciphertext a record holds what may be
shown and searched: the brand, the first six digits and the last four.
-/

namespace CardGate

/-- What the vault keeps for a token. -/
structure CardRecord where
  token : String
  encrypted : List UInt8
  keyId : String
  brand : Card.Brand
  lastFour : String
  firstSix : String
  /-- The time of storing, in milliseconds. -/
  createdAt : Nat
  deriving DecidableEq, Repr

namespace CardRecord

/-- The record of a card number that has been encrypted. -/
def create (token card : String) (encrypted : Ciphertext) (now : Nat) : CardRecord :=
  let digits := Card.stripSeparators card.toList
  { token
    encrypted := encrypted.bytes
    keyId := encrypted.keyId
    brand := Card.brand digits
    lastFour := String.ofList (digits.drop (digits.length - 4))
    firstSix := String.ofList (digits.take 6)
    createdAt := now }

/-- What may be told about a record: all but the ciphertext and the time. -/
def metadata (record : CardRecord) : Json :=
  .obj [("token", .str record.token), ("key_id", .str record.keyId),
    ("card_type", .str record.brand.name), ("last_four", .str record.lastFour),
    ("first_six", .str record.firstSix)]

end CardRecord

end CardGate
