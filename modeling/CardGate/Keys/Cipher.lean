import CardGate.Keys.Material

/-!
# Encryption under named keys

The vault and the engine do not know which keys are in use.  A `CardCipher` encrypts bytes under
the key of its choice and says the name of that key; to decrypt, it is given the name back.  The
nonce of every encryption is drawn outside.

The simplest cipher has one key for ever, under the name `legacy`.
-/

namespace CardGate

/-- Bytes encrypted under a named key. -/
structure Ciphertext where
  bytes : List UInt8
  keyId : String
  deriving DecidableEq, Repr

/-- Encryption of card material. -/
class CardCipher (κ : Type) where
  /-- Encrypts under the current key. -/
  encrypt : κ → Gcm.Nonce → List UInt8 → Except CryptoError Ciphertext
  /-- Decrypts under the key of the given name. -/
  decrypt : κ → List UInt8 → String → Except CryptoError (List UInt8)

/-- Opens a sealed message, as a step of a cipher. -/
def openSealed (key message : List UInt8) : Except CryptoError (List UInt8) :=
  match Sealing.unwrap key message with
  | .ok plaintext => .ok plaintext
  | .error e => .error (.sealing e)

/-- A message opens under the key that sealed it. -/
theorem openSealed_wrapUnder (key : KeyMaterial) (nonce : Gcm.Nonce) (plaintext : List UInt8) :
    openSealed key.toList (Sealing.wrapUnder key.bytes nonce plaintext) = .ok plaintext := by
  simp only [openSealed, KeyMaterial.toList, Sealing.unwrap_wrapUnder]

/-- Decrypts a text. -/
def decryptText {κ : Type} [CardCipher κ] (cipher : κ) (bytes : List UInt8) (keyId : String) :
    Except CryptoError String :=
  match CardCipher.decrypt cipher bytes keyId with
  | .error e => .error e
  | .ok plaintext =>
    match Utf8.text? plaintext with
    | some s => .ok s
    | none => .error .notText

/-! ## One key -/

/-- A cipher with a single key. -/
structure LegacyCipher where
  key : KeyMaterial

/-- The name of the single key. -/
def LegacyCipher.keyId : String := "legacy"

instance : CardCipher LegacyCipher where
  encrypt cipher nonce plaintext :=
    .ok ⟨Sealing.wrapUnder cipher.key.bytes nonce plaintext, LegacyCipher.keyId⟩
  decrypt cipher bytes _ := openSealed cipher.key.toList bytes

end CardGate
