import CardGate.Cipher.Sealing
import CardGate.Text.Base64
import CardGate.Text.Blank
import CardGate.Text.Utf8

/-!
# Key material and its errors

Keys have 32 bytes and are configured as base64.  A key is never shown: its printed form says only
that it is one.  Every failure around keys is a `CryptoError`, which keeps its cause.
-/

namespace CardGate

/-- Why bytes or a text are no key. -/
inductive KeyFault where
  /-- The text is no base64. -/
  | encoding (fault : Base64.Fault)
  /-- There are too few bytes or too many. -/
  | size (bytes : Nat)
  deriving DecidableEq, Repr

/-- The wording of a key fault. -/
def KeyFault.message : KeyFault → String
  | encoding fault => fault.message
  | size bytes => s!"expected 32 bytes, got {bytes}"

/-- Why material cannot be encrypted or decrypted. -/
inductive CryptoError where
  | invalidKey (fault : KeyFault)
  /-- No key goes by this name. -/
  | unknownKey (keyId : String)
  | sealing (error : SealingError)
  /-- What was decrypted is no text. -/
  | notText
  deriving DecidableEq, Repr

/-- The wording of a crypto error. -/
def CryptoError.message : CryptoError → String
  | invalidKey fault => s!"Invalid key: {fault.message}"
  | unknownKey keyId => s!"Unknown key id: {keyId}"
  | sealing error => error.message
  | notText => "Decrypted data is not valid UTF-8"

/-- A key of 32 bytes. -/
structure KeyMaterial where
  bytes : Aes.Key
  deriving DecidableEq

namespace KeyMaterial

/-- The key of given bytes. -/
def ofBytes (bytes : List UInt8) : Except CryptoError KeyMaterial :=
  match Sealing.key? bytes with
  | some key => .ok ⟨key⟩
  | none => .error (.invalidKey (.size bytes.length))

/-- The key that a base64 text writes, with blanks around it. -/
def ofBase64 (s : String) : Except CryptoError KeyMaterial :=
  match Base64.decode (Utf8.encode (Text.trim s.toList)) with
  | .ok bytes => ofBytes bytes
  | .error fault => .error (.invalidKey (.encoding fault))

/-- The bytes of a key, for sealing and unsealing. -/
def toList (key : KeyMaterial) : List UInt8 :=
  key.bytes.toList

/-- The printed form of every key. -/
def shown (_ : KeyMaterial) : String :=
  "KeyMaterial([REDACTED])"

end KeyMaterial

end CardGate
