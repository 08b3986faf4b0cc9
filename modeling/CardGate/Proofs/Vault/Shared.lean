import CardGate.Keys.Rotation
import CardGate.Substitution.Document
import CardGate.Vault

/-!
# A vault with many callers

Callers share a vault, and nothing but the vault orders them.  A store is two steps: the card is
encrypted, and later the record is entered.  A retrieval is two steps as well: the record is looked
up, and later it is decrypted.  Between the two steps of a call any steps of other calls may come,
and rotations of the keys too.

`SharedVault` is a vault with the calls under way and with all that has been returned so far, in
order.  A schedule is a list of steps, and every list is one: which call moves next is free.  A
schedule in which the two steps of a call follow each other is a sequence of whole calls
(`step_prepare_enter`, `step_lookUp_reveal`).
-/

namespace CardGate

/-! ## Steps -/

/-- A step of a call on a shared vault, or a rotation of its keys. -/
inductive VaultStep where
  /-- A store begins: the card is encrypted. -/
  | prepare (occasion : Occasion) (token card : String)
  /-- A store ends: its record is entered.  Stores under way are counted from the oldest. -/
  | enter (i : Nat)
  /-- A retrieval begins: the record is looked up. -/
  | lookUp (token : String)
  /-- A retrieval ends: its record is decrypted.  Retrievals under way are counted alike. -/
  | reveal (i : Nat)
  | rotate (rotation : Rotation)

/-- The rotation of a step. -/
def VaultStep.rotation? : VaultStep → Option Rotation
  | rotate rotation => some rotation
  | _ => none

/-- What a call has returned. -/
inductive VaultEvent where
  | stored (token card : String) (result : Except GatewayError Unit)
  /-- The answer of a retrieval that began when `since` calls had returned. -/
  | retrieved (token : String) (answer : Option String) (since : Nat)

/-- The card that a store has kept, if it has succeeded. -/
def VaultEvent.kept? : VaultEvent → Option Issue
  | stored token card (.ok ()) => some ⟨token, card⟩
  | _ => none

/-- A store between its two steps. -/
structure PendingStore where
  issue : Issue
  record : CardRecord

/-- A retrieval between its two steps. -/
structure PendingRetrieval where
  token : String
  record : CardRecord
  /-- How many calls had returned when the retrieval began. -/
  since : Nat

/-- A vault, the calls under way, and what the finished calls have returned, the oldest first. -/
structure SharedVault (κ : Type) where
  vault : CardVault κ
  storing : List PendingStore
  retrieving : List PendingRetrieval
  returned : List VaultEvent

variable {κ : Type} [CardCipher κ]

/-- The card in a record, if it can be decrypted. -/
def CardVault.reveal (cipher : κ) (record : CardRecord) : Option String :=
  match decryptText cipher record.encrypted record.keyId with
  | .ok card => some card
  | .error _ => none

/-- A retrieval is a lookup, and the card in the record that is found. -/
theorem CardVault.retrieve_eq (vault : CardVault κ) (token : String) :
    vault.retrieve token = (vault.record? token).bind (reveal vault.cipher) := by
  unfold CardVault.retrieve
  cases vault.record? token <;> rfl

namespace SharedVault

/-- An empty vault that nobody has called. -/
def start (cipher : κ) : SharedVault κ :=
  ⟨⟨cipher, []⟩, [], [], []⟩

/-- The vault after a store has returned. -/
def finishStore (s : SharedVault κ) (i : Nat) (pending : PendingStore) : SharedVault κ :=
  let storing := s.storing.eraseIdx i
  match s.vault.enter pending.record with
  | .ok next =>
    { s with
      vault := next
      storing
      returned := s.returned ++ [.stored pending.issue.token pending.issue.card (.ok ())] }
  | .error e =>
    { s with
      storing
      returned := s.returned ++ [.stored pending.issue.token pending.issue.card (.error e)] }

variable [RotatingCipher κ]

/-- A step.  A step of a call that is not under way does nothing. -/
def step (s : SharedVault κ) : VaultStep → SharedVault κ
  | .prepare occasion token card =>
    match CardVault.prepare s.vault.cipher occasion token card with
    | .ok record => { s with storing := s.storing ++ [⟨⟨token, card⟩, record⟩] }
    | .error e => { s with returned := s.returned ++ [.stored token card (.error e)] }
  | .enter i =>
    match s.storing[i]? with
    | some pending => s.finishStore i pending
    | none => s
  | .lookUp token =>
    match s.vault.record? token with
    | some record =>
      { s with retrieving := s.retrieving ++ [⟨token, record, s.returned.length⟩] }
    | none => { s with returned := s.returned ++ [.retrieved token none s.returned.length] }
  | .reveal i =>
    match s.retrieving[i]? with
    | some pending =>
      let answer := CardVault.reveal s.vault.cipher pending.record
      { s with
        retrieving := s.retrieving.eraseIdx i
        returned := s.returned ++ [.retrieved pending.token answer pending.since] }
    | none => s
  | .rotate rotation =>
    match RotatingCipher.rotate s.vault.cipher rotation with
    | .ok cipher => { s with vault := { s.vault with cipher := cipher } }
    | .error _ => s

/-- A schedule of steps. -/
def run (s : SharedVault κ) (steps : List VaultStep) : SharedVault κ :=
  steps.foldl step s

/-- The two steps of a store, one right after the other, are a store. -/
theorem step_prepare_enter (s : SharedVault κ) (occasion : Occasion) (token card : String) :
    ((s.step (.prepare occasion token card)).step (.enter s.storing.length)).vault =
      match s.vault.store occasion token card with
      | .ok next => next
      | .error _ => s.vault := by
  unfold CardVault.store
  cases hprepare : CardVault.prepare s.vault.cipher occasion token card with
  | error e =>
    have hnothing : s.storing[s.storing.length]? = none := List.getElem?_eq_none (Nat.le_refl _)
    simp only [step, hprepare, hnothing]
  | ok record =>
    have hlast : (s.storing ++ [⟨⟨token, card⟩, record⟩])[s.storing.length]? =
        some ⟨⟨token, card⟩, record⟩ := by
      simp
    simp only [step, hprepare, hlast, finishStore]
    cases s.vault.enter record <;> rfl

/-- The two steps of a retrieval, one right after the other, are a retrieval. -/
theorem step_lookUp_reveal (s : SharedVault κ) (token : String) :
    ((s.step (.lookUp token)).step (.reveal s.retrieving.length)).returned =
      s.returned ++ [.retrieved token (s.vault.retrieve token) s.returned.length] := by
  rw [CardVault.retrieve_eq]
  cases hrecord : s.vault.record? token with
  | none =>
    have hnothing : s.retrieving[s.retrieving.length]? = none :=
      List.getElem?_eq_none (Nat.le_refl _)
    simp only [step, hrecord, hnothing]
    rfl
  | some record =>
    have hlast : (s.retrieving ++ [⟨token, record, s.returned.length⟩])[s.retrieving.length]? =
        some ⟨token, record, s.returned.length⟩ := by
      simp
    simp only [step, hrecord, hlast]
    rfl

end SharedVault

end CardGate
