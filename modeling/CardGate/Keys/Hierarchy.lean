import CardGate.Counter
import CardGate.Keys.Cipher
import CardGate.Text.Numeral

/-!
# The key hierarchy

Cards are encrypted under data keys, and data keys are kept only wrapped under a master key.  One
data key is active and encrypts; the older ones stay, so that what they encrypted remains
readable.  Rotating the data key adds a new active one.  Rotating the master key wraps every data
key anew and leaves the data keys themselves as they are.

Keys are numbered in 32 bits.  A rotation that finds no next number gives up before it has changed
anything.

Everything random is drawn outside: the bytes of names and keys, and the nonces.  The source of
randomness is taken to work, so there is no draw that fails.
-/

namespace CardGate

/-- What is drawn for a new key: the bytes behind its name, and the key itself. -/
structure KeyDraw where
  name : Vector UInt8 8
  key : KeyMaterial

/-- The name of a key: its kind and sixteen hexadecimal digits. -/
def keyName (kind : String) (bytes : Vector UInt8 8) : String :=
  kind ++ "_" ++ Numeral.hexOfBytes bytes.toList

/-- The key that wraps the data keys. -/
structure MasterKey where
  id : String
  version : UInt32
  key : KeyMaterial

/-- A data key, wrapped under the master key of the given name. -/
structure DataKey where
  id : String
  version : UInt32
  masterId : String
  wrapped : List UInt8
  createdAt : Nat
  deriving DecidableEq, Repr

/-- A master key and the data keys under it, the oldest first. -/
structure KeyHierarchy where
  master : MasterKey
  dataKeys : List DataKey
  /-- The name of the active data key. -/
  active : String
  /-- The version of the newest data key. -/
  lastVersion : UInt32

namespace KeyHierarchy

/-- The data key of a given name. -/
def find? (keys : KeyHierarchy) (id : String) : Option DataKey :=
  keys.dataKeys.find? (·.id = id)

/-- The bytes of the data key of a given name. -/
def unwrapKey (keys : KeyHierarchy) (id : String) : Except CryptoError (List UInt8) :=
  match keys.find? id with
  | some dataKey => openSealed keys.master.key.toList dataKey.wrapped
  | none => .error (.unknownKey id)

/-- Adds a new active data key with a version. -/
def addDataKey (keys : KeyHierarchy) (draw : KeyDraw) (nonce : Gcm.Nonce) (now : Nat)
    (version : UInt32) : KeyHierarchy :=
  let id := keyName "dek" draw.name
  let wrapped := Sealing.wrapUnder keys.master.key.bytes nonce draw.key.toList
  let dataKey : DataKey := ⟨id, version, keys.master.id, wrapped, now⟩
  { keys with
    dataKeys := keys.dataKeys.filter (·.id ≠ id) ++ [dataKey]
    active := id
    lastVersion := version }

/-- Adds a new active data key with the next version, if there is one. -/
def rotateDataKey? (keys : KeyHierarchy) (draw : KeyDraw) (nonce : Gcm.Nonce) (now : Nat) :
    Option KeyHierarchy :=
  (Counter.add? keys.lastVersion 1).map (keys.addDataKey draw nonce now)

/-- A hierarchy under a master key, with one data key. -/
def create (master : KeyMaterial) (masterName : Vector UInt8 8) (draw : KeyDraw)
    (nonce : Gcm.Nonce) (now : Nat) : KeyHierarchy :=
  addDataKey ⟨⟨keyName "kek" masterName, 1, master⟩, [], "", 0⟩ draw nonce now 1

/-- Wraps data keys under a new master key, the `i`-th with the `i`-th nonce. -/
def rewrap (keys : KeyHierarchy) (master : MasterKey) (nonces : Nat → Gcm.Nonce) :
    Nat → List DataKey → Except CryptoError (List DataKey)
  | _, [] => .ok []
  | i, dataKey :: more =>
    match openSealed keys.master.key.toList dataKey.wrapped with
    | .error e => .error e
    | .ok bytes =>
      match rewrap keys master nonces (i + 1) more with
      | .error e => .error e
      | .ok rest =>
        .ok ({ dataKey with
          masterId := master.id
          wrapped := Sealing.wrapUnder master.key.bytes (nonces i) bytes } :: rest)

/-- Replaces the master key and wraps every data key under the new one. -/
def replaceMasterKey (keys : KeyHierarchy) (master : MasterKey) (nonces : Nat → Gcm.Nonce) :
    Except CryptoError KeyHierarchy :=
  match keys.rewrap master nonces 0 keys.dataKeys with
  | .error e => .error e
  | .ok dataKeys => .ok { keys with master, dataKeys }

/-- Replaces the master key by one with the next version, if there is one. -/
def rotateMasterKey? (keys : KeyHierarchy) (draw : KeyDraw) (nonces : Nat → Gcm.Nonce) :
    Option (Except CryptoError KeyHierarchy) :=
  (Counter.add? keys.master.version 1).map fun version =>
    keys.replaceMasterKey ⟨keyName "kek" draw.name, version, draw.key⟩ nonces

/-- Encrypts under the active data key. -/
def encrypt (keys : KeyHierarchy) (nonce : Gcm.Nonce) (plaintext : List UInt8) :
    Except CryptoError Ciphertext :=
  match keys.unwrapKey keys.active with
  | .error e => .error e
  | .ok key =>
    match Sealing.wrap key nonce plaintext with
    | .error e => .error (.sealing e)
    | .ok bytes => .ok ⟨bytes, keys.active⟩

/-- Decrypts under the data key of a given name.  The empty name means the active one. -/
def decrypt (keys : KeyHierarchy) (bytes : List UInt8) (keyId : String) :
    Except CryptoError (List UInt8) :=
  match keys.unwrapKey (if keyId.isEmpty then keys.active else keyId) with
  | .error e => .error e
  | .ok key => openSealed key bytes

instance : CardCipher KeyHierarchy where
  encrypt := KeyHierarchy.encrypt
  decrypt := KeyHierarchy.decrypt

/-! ## The inventory -/

/-- What is told about a data key. -/
structure Entry where
  id : String
  version : UInt32
  masterId : String
  createdAt : Nat
  active : Bool
  deriving DecidableEq, Repr

/-- The data keys in order of their versions, without key bytes. -/
def inventory (keys : KeyHierarchy) : List Entry :=
  keys.dataKeys.map fun dataKey =>
    ⟨dataKey.id, dataKey.version, dataKey.masterId, dataKey.createdAt,
      decide (dataKey.id = keys.active)⟩

end KeyHierarchy

end CardGate
