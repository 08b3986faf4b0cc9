import CardGate.Cipher.Aes
import CardGate.Cipher.Gcm

/-!
# Sealed messages

A sealed message is a nonce of twelve bytes, the ciphertext, and a tag of sixteen bytes, made with
AES-256 in Galois counter mode.  Keys arrive as plain bytes and are checked before anything else is
looked at.

The nonce is drawn by the caller, so sealing is a function of its arguments, and the source of
randomness is taken to work.  Plaintexts are taken to be no longer than the standard allows, which
is 2^36 - 32 bytes, so `wrap` seals under every key of the right length.  A cipher that fails all
the same, or refuses a longer plaintext, answers with `SealingError.sealRefused`.
-/

namespace CardGate

/-- Why a message cannot be sealed or opened. -/
inductive SealingError where
  /-- The key has some other number of bytes than 32. -/
  | keyLength (size : Nat)
  /-- The cipher refused to seal. -/
  | sealRefused
  /-- The message is too short to hold a nonce and a tag. -/
  | tooShort (size : Nat)
  /-- The tag does not fit: another key, or altered data. -/
  | openRefused
  deriving DecidableEq, Repr

/-- The wording of a sealing error. -/
def SealingError.message : SealingError → String
  | .keyLength size => s!"invalid key length: expected 32 bytes, got {size}"
  | .sealRefused => "AES-256-GCM seal failed"
  | .tooShort size => s!"ciphertext too short: {size} bytes"
  | .openRefused => "AES-256-GCM open failed (wrong key or tampered data)"

namespace Sealing

/-- The number of bytes that sealing adds. -/
def overhead : Nat := 28

/-- A key from its bytes, if there are 32. -/
def key? (bytes : List UInt8) : Option Aes.Key :=
  if h : bytes.length = 32 then some ⟨bytes.toArray, by simpa using h⟩ else none

/-- The first twelve bytes of a message that has at least 28. -/
def nonceOf (message : List UInt8) (h : overhead ≤ message.length) : Gcm.Nonce :=
  ⟨(message.take 12).toArray, by simp only [overhead] at h; simp; omega⟩

/-- Seals a plaintext under a key and a nonce. -/
def wrapUnder (key : Aes.Key) (nonce : Gcm.Nonce) (plaintext : List UInt8) : List UInt8 :=
  nonce.toList ++ Gcm.sealWith (Aes.encrypt key) nonce plaintext

/-- Seals a plaintext under the bytes of a key. -/
def wrap (key : List UInt8) (nonce : Gcm.Nonce) (plaintext : List UInt8) :
    Except SealingError (List UInt8) :=
  match key? key with
  | none => .error (.keyLength key.length)
  | some key => .ok (wrapUnder key nonce plaintext)

/-- Opens a sealed message. -/
def unwrap (key message : List UInt8) : Except SealingError (List UInt8) :=
  match key? key with
  | none => .error (.keyLength key.length)
  | some key =>
    if h : overhead ≤ message.length then
      match Gcm.openWith (Aes.encrypt key) (nonceOf message h) (message.drop 12) with
      | some plaintext => .ok plaintext
      | none => .error .openRefused
    else .error (.tooShort message.length)

/-! ## Opening what was sealed -/

theorem key?_toList (key : Aes.Key) : key? key.toList = some key := by
  simp [key?, Vector.toList]

theorem length_wrapUnder (key : Aes.Key) (nonce : Gcm.Nonce) (plaintext : List UInt8) :
    (wrapUnder key nonce plaintext).length = plaintext.length + overhead := by
  simp only [wrapUnder, List.length_append, Vector.length_toList, Gcm.length_sealWith, overhead]
  omega

/-- A message opens under the key that sealed it. -/
theorem unwrap_wrapUnder (key : Aes.Key) (nonce : Gcm.Nonce) (plaintext : List UInt8) :
    unwrap key.toList (wrapUnder key nonce plaintext) = .ok plaintext := by
  have long : overhead ≤ (wrapUnder key nonce plaintext).length := by
    rw [length_wrapUnder]
    omega
  have hnonce : nonceOf (wrapUnder key nonce plaintext) long = nonce := by
    simp [nonceOf, wrapUnder, Vector.toList]
  have hrest : (wrapUnder key nonce plaintext).drop 12 =
      Gcm.sealWith (Aes.encrypt key) nonce plaintext := by
    simp [wrapUnder]
  simp [unwrap, key?_toList, long, hnonce, hrest, Gcm.openWith_sealWith]

end Sealing

end CardGate
