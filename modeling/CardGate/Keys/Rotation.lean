import CardGate.Keys.DualMode

/-!
# Rotating keys

Keys are rotated while the gateway runs.  A rotation carries everything that is drawn for it, so
it is a step on the cipher and nothing else.  A cipher without a hierarchy has nothing to rotate.
A rotation that gives up, because the versions of its kind have run out, leaves the cipher as it is
(`KeyHierarchy.GivesUp`).

`Reachable` tells the ciphers that a gateway can have: those it sets up at its start, and those
that rotations make of them.  `FreshNames` says of a run of rotations that no data key takes a
name that is in use.  A master key replaces the one before it, so its name is free to choose.
-/

namespace CardGate

/-- One rotation, with what is drawn for it. -/
inductive Rotation where
  /-- Adds a new active data key. -/
  | dataKey (draw : KeyDraw) (nonce : Gcm.Nonce) (now : Nat)
  /-- Replaces the master key; the `i`-th data key is wrapped anew with the `i`-th nonce. -/
  | masterKey (draw : KeyDraw) (nonces : Nat → Gcm.Nonce)

/-! ## Hierarchies -/

namespace KeyHierarchy

/-- What a rotation makes of a hierarchy, unless it gives up. -/
def rotate? (keys : KeyHierarchy) : Rotation → Option (Except CryptoError KeyHierarchy)
  | .dataKey draw nonce now => (keys.rotateDataKey? draw nonce now).map .ok
  | .masterKey draw nonces => keys.rotateMasterKey? draw nonces

/-- A hierarchy after a rotation.  One that gives up leaves it as it is. -/
def rotate (keys : KeyHierarchy) (rotation : Rotation) : Except CryptoError KeyHierarchy :=
  (keys.rotate? rotation).getD (.ok keys)

/-- Whether a rotation gives up. -/
def GivesUp (keys : KeyHierarchy) (rotation : Rotation) : Prop :=
  keys.rotate? rotation = none

/-- Whether a rotation gives no data key a name that is in use. -/
def IsFresh (keys : KeyHierarchy) : Rotation → Prop
  | .dataKey draw _ _ => keys.find? (keyName "dek" draw.name) = none
  | .masterKey _ _ => True

/-- The hierarchies that rotations make of a new one. -/
inductive Reachable : KeyHierarchy → Prop where
  | create (master : KeyMaterial) (masterName : Vector UInt8 8) (draw : KeyDraw)
      (nonce : Gcm.Nonce) (now : Nat) : Reachable (create master masterName draw nonce now)
  | rotate {keys next : KeyHierarchy} (reachable : Reachable keys) (rotation : Rotation)
      (rotated : keys.rotate rotation = .ok next) : Reachable next

end KeyHierarchy

/-! ## Ciphers -/

/-- A cipher whose keys are rotated while it is in use. -/
class RotatingCipher (κ : Type) [CardCipher κ] where
  /-- The cipher after a rotation. -/
  rotate : κ → Rotation → Except CryptoError κ
  /-- Whether a rotation gives no data key a name that is in use. -/
  IsFresh : κ → Rotation → Prop
  /-- Whether a gateway can come to have this cipher. -/
  Reachable : κ → Prop

instance : RotatingCipher LegacyCipher where
  rotate cipher _ := .ok cipher
  IsFresh _ _ := True
  Reachable _ := True

instance : RotatingCipher KeyHierarchy where
  rotate := KeyHierarchy.rotate
  IsFresh := KeyHierarchy.IsFresh
  Reachable := KeyHierarchy.Reachable

namespace DualModeCipher

/-- A dual cipher after a rotation of its hierarchy. -/
def rotate (cipher : DualModeCipher) (rotation : Rotation) : Except CryptoError DualModeCipher :=
  match cipher.hierarchy with
  | none => .ok cipher
  | some keys =>
    match keys.rotate rotation with
    | .error e => .error e
    | .ok next => .ok { cipher with hierarchy := some next }

instance : RotatingCipher DualModeCipher where
  rotate := DualModeCipher.rotate
  IsFresh cipher rotation := ∀ keys, cipher.hierarchy = some keys → keys.IsFresh rotation
  Reachable cipher := ∀ keys, cipher.hierarchy = some keys → keys.Reachable

end DualModeCipher

/-! ## Runs of rotations -/

section Runs

variable {κ : Type} [CardCipher κ] [RotatingCipher κ]

/-- A cipher after rotations, one after the other. -/
def rotateAll (cipher : κ) : List Rotation → Except CryptoError κ
  | [] => .ok cipher
  | rotation :: more =>
    match RotatingCipher.rotate cipher rotation with
    | .error e => .error e
    | .ok next => rotateAll next more

/-- Whether no rotation of a run gives a data key a name that is in use by then. -/
def FreshNames (cipher : κ) : List Rotation → Prop
  | [] => True
  | rotation :: more =>
    RotatingCipher.IsFresh cipher rotation ∧
      ∀ next, RotatingCipher.rotate cipher rotation = .ok next → FreshNames next more

end Runs

end CardGate
