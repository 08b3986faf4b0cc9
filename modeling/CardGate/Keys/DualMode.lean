import CardGate.Keys.Hierarchy

/-!
# Two key schemes side by side

A gateway that has moved to the key hierarchy must still read what the single key encrypted.  A
dual cipher encrypts under the hierarchy if there is one, and on decrypting falls back to the
single key whenever the hierarchy fails.
-/

namespace CardGate

/-- A single key and, once the gateway has moved to it, a hierarchy. -/
structure DualModeCipher where
  legacy : LegacyCipher
  hierarchy : Option KeyHierarchy

namespace DualModeCipher

/-- Encrypts under the hierarchy, or under the single key if there is none. -/
def encrypt (cipher : DualModeCipher) (nonce : Gcm.Nonce) (plaintext : List UInt8) :
    Except CryptoError Ciphertext :=
  match cipher.hierarchy with
  | some keys => keys.encrypt nonce plaintext
  | none => CardCipher.encrypt cipher.legacy nonce plaintext

/-- Decrypts under the hierarchy, or else under the single key. -/
def decrypt (cipher : DualModeCipher) (bytes : List UInt8) (keyId : String) :
    Except CryptoError (List UInt8) :=
  match cipher.hierarchy with
  | some keys =>
    match keys.decrypt bytes keyId with
    | .ok plaintext => .ok plaintext
    | .error _ => CardCipher.decrypt cipher.legacy bytes keyId
  | none => CardCipher.decrypt cipher.legacy bytes keyId

instance : CardCipher DualModeCipher where
  encrypt := DualModeCipher.encrypt
  decrypt := DualModeCipher.decrypt

/-- Whether the cipher encrypts under a hierarchy. -/
def usesHierarchy (cipher : DualModeCipher) : Bool :=
  cipher.hierarchy.isSome

end DualModeCipher

end CardGate
