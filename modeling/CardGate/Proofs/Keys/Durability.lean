import CardGate.Proofs.Keys.Hierarchy

/-!
# Ciphertexts outlive rotations

What a cipher encrypted is `Durable` if it decrypts to the same plaintext after every run of
rotations with fresh names.  `DurableCipher` says of a cipher that rotations never fail and that
all it encrypts is durable; the single key, the hierarchy and the dual cipher are such.

A dual cipher meets two kinds of ciphertexts.  Those of its hierarchy go by the name of a data
key, whose bytes rotations keep.  Those of the single key go by a name that no data key can have,
so the hierarchy refuses them and the single key is asked.  `Reads` tells the two apart, and
`reads_rotate` is the step that carries both through a rotation.

The main statement, `decrypt_issued`, follows a dual cipher through any run of calls.
-/

namespace CardGate

section Runs

variable {κ : Type} [CardCipher κ] [RotatingCipher κ]

/-- Whether a ciphertext decrypts to a plaintext now and after every run of rotations with fresh
names. -/
def Durable (cipher : κ) (sealed : Ciphertext) (plaintext : List UInt8) : Prop :=
  ∀ rotations next, FreshNames cipher rotations → rotateAll cipher rotations = .ok next →
    CardCipher.decrypt next sealed.bytes sealed.keyId = .ok plaintext

/-- A cipher that can always be rotated and whose ciphertexts outlive rotations. -/
class DurableCipher (κ : Type) [CardCipher κ] [RotatingCipher κ] : Prop where
  exists_rotate (cipher : κ) (rotation : Rotation) (reachable : RotatingCipher.Reachable cipher) :
    ∃ next, RotatingCipher.rotate cipher rotation = .ok next ∧ RotatingCipher.Reachable next
  exists_encrypt (cipher : κ) (nonce : Gcm.Nonce) (plaintext : List UInt8)
    (reachable : RotatingCipher.Reachable cipher) :
    ∃ sealed, CardCipher.encrypt cipher nonce plaintext = .ok sealed ∧
      Durable cipher sealed plaintext

theorem Durable.decrypt {cipher : κ} {sealed : Ciphertext} {plaintext : List UInt8}
    (h : Durable cipher sealed plaintext) :
    CardCipher.decrypt cipher sealed.bytes sealed.keyId = .ok plaintext :=
  h [] cipher trivial rfl

theorem Durable.rotate {cipher next : κ} {sealed : Ciphertext} {plaintext : List UInt8}
    {rotation : Rotation} (h : Durable cipher sealed plaintext)
    (hfresh : RotatingCipher.IsFresh cipher rotation)
    (hrotate : RotatingCipher.rotate cipher rotation = .ok next) :
    Durable next sealed plaintext := by
  intro rotations last hrest hlast
  refine h (rotation :: rotations) last ⟨hfresh, ?_⟩ ?_
  · intro other hother
    rw [hrotate] at hother
    cases hother
    exact hrest
  · rw [rotateAll, hrotate]
    exact hlast

/-- A property that fresh rotations keep, and under which a ciphertext decrypts, makes the
ciphertext durable. -/
theorem durable_of_invariant {sealed : Ciphertext} {plaintext : List UInt8} (holds : κ → Prop)
    (hstep : ∀ cipher rotation next, holds cipher → RotatingCipher.IsFresh cipher rotation →
      RotatingCipher.rotate cipher rotation = .ok next → holds next)
    (hdecrypt : ∀ cipher, holds cipher →
      CardCipher.decrypt cipher sealed.bytes sealed.keyId = .ok plaintext)
    {cipher : κ} (h : holds cipher) : Durable cipher sealed plaintext := by
  intro rotations next hfresh hnext
  induction rotations generalizing cipher with
  | nil =>
    cases hnext
    exact hdecrypt _ h
  | cons rotation more ih =>
    rw [rotateAll] at hnext
    split at hnext
    · cases hnext
    · next rotated hrotate =>
      exact ih (hstep cipher rotation rotated h hfresh.1 hrotate) (hfresh.2 rotated hrotate) hnext

/-- A cipher can be rotated any number of times. -/
theorem exists_rotateAll [DurableCipher κ] {cipher : κ}
    (hreachable : RotatingCipher.Reachable cipher) (rotations : List Rotation) :
    ∃ next, rotateAll cipher rotations = .ok next ∧ RotatingCipher.Reachable next := by
  induction rotations generalizing cipher with
  | nil => exact ⟨cipher, rfl, hreachable⟩
  | cons rotation more ih =>
    obtain ⟨next, hnext, hreachable'⟩ :=
      DurableCipher.exists_rotate cipher rotation hreachable
    rw [rotateAll, hnext]
    exact ih hreachable'

theorem FreshNames.of_append {cipher : κ} {earlier later : List Rotation}
    (h : FreshNames cipher (earlier ++ later)) : FreshNames cipher earlier := by
  induction earlier generalizing cipher with
  | nil => trivial
  | cons rotation more ih => exact ⟨h.1, fun next hnext => ih (h.2 next hnext)⟩

end Runs

/-! ## The single key -/

instance : DurableCipher LegacyCipher where
  exists_rotate cipher _ _ := ⟨cipher, rfl, trivial⟩
  exists_encrypt cipher nonce plaintext _ := by
    refine ⟨_, rfl, durable_of_invariant (· = cipher) ?_ ?_ rfl⟩
    · rintro _ _ _ rfl _ hrotate
      cases hrotate
      rfl
    · rintro _ rfl
      exact openSealed_wrapUnder _ _ _

/-! ## The hierarchy -/

/-- The name of a data key is neither empty nor that of the single key. -/
theorem keyName_dek_ne (bytes : Vector UInt8 8) :
    keyName "dek" bytes ≠ "" ∧ keyName "dek" bytes ≠ LegacyCipher.keyId := by
  constructor <;>
  · intro h
    have hchars := congrArg String.toList h
    simp [keyName, LegacyCipher.keyId] at hchars

/-- A hierarchy decrypts under the data key that goes by the name of a ciphertext. -/
theorem KeyHierarchy.Sound.decrypt {keys : KeyHierarchy} (hsound : keys.Sound)
    {sealed : Ciphertext} {key plaintext : List UInt8}
    (held : keys.unwrapKey sealed.keyId = .ok key)
    (opens : openSealed key sealed.bytes = .ok plaintext) :
    keys.decrypt sealed.bytes sealed.keyId = .ok plaintext := by
  obtain ⟨bytes, hname⟩ := hsound.named_of_unwrapKey held
  have hnonempty : sealed.keyId.isEmpty = false := by
    simpa [hname] using (keyName_dek_ne bytes).1
  simp [KeyHierarchy.decrypt, hnonempty, held, opens]

instance : DurableCipher KeyHierarchy where
  exists_rotate keys rotation hreachable := by
    obtain ⟨next, hnext⟩ := hreachable.sound.exists_rotate rotation
    exact ⟨next, hnext, KeyHierarchy.Reachable.rotate hreachable rotation hnext⟩
  exists_encrypt keys nonce plaintext hreachable := by
    obtain ⟨key, hkey, hencrypt⟩ := hreachable.sound.exists_encrypt nonce plaintext
    refine ⟨_, hencrypt, durable_of_invariant
      (fun other => other.Sound ∧ other.unwrapKey keys.active = .ok key.toList) ?_ ?_
      ⟨hreachable.sound, hkey⟩⟩
    · intro other rotation next hholds hfresh hrotate
      exact ⟨hholds.1.rotate hrotate, KeyHierarchy.unwrapKey_rotate hfresh hrotate hholds.2⟩
    · intro other hholds
      exact hholds.1.decrypt hholds.2 (openSealed_wrapUnder _ _ _)

/-! ## The dual cipher -/

namespace DualModeCipher

/-- How a dual cipher reads a ciphertext: under a data key, or under the single key. -/
inductive Reads (cipher : DualModeCipher) (sealed : Ciphertext) (plaintext : List UInt8) : Prop
  | dataKey {keys : KeyHierarchy} {key : List UInt8} (hierarchy : cipher.hierarchy = some keys)
      (held : keys.unwrapKey sealed.keyId = .ok key)
      (opens : openSealed key sealed.bytes = .ok plaintext)
  | single (name : sealed.keyId = LegacyCipher.keyId)
      (opens : openSealed cipher.legacy.key.toList sealed.bytes = .ok plaintext)

/-- What a dual cipher reads, it decrypts. -/
theorem decrypt_of_reads {cipher : DualModeCipher}
    (hreachable : RotatingCipher.Reachable cipher) {sealed : Ciphertext} {plaintext : List UInt8}
    (h : cipher.Reads sealed plaintext) :
    cipher.decrypt sealed.bytes sealed.keyId = .ok plaintext := by
  cases h with
  | @dataKey keys key hierarchy held opens =>
    have hdecrypt := (hreachable keys hierarchy).sound.decrypt held opens
    simp only [decrypt, hierarchy, hdecrypt]
  | single name opens =>
    cases hierarchy : cipher.hierarchy with
    | none =>
      rw [decrypt, hierarchy]
      exact opens
    | some keys =>
      -- The hierarchy has no key of this name, whatever was drawn for it.
      have hrefused : ∃ e, keys.decrypt sealed.bytes sealed.keyId = .error e := by
        rw [KeyHierarchy.decrypt, name, if_neg (by decide)]
        cases hkey : keys.unwrapKey LegacyCipher.keyId with
        | error e => exact ⟨e, rfl⟩
        | ok key =>
          obtain ⟨bytes, hname⟩ := (hreachable keys hierarchy).sound.named_of_unwrapKey hkey
          exact absurd hname.symm (keyName_dek_ne bytes).2
      obtain ⟨e, he⟩ := hrefused
      simp only [decrypt, hierarchy, he]
      exact opens

/-- A rotation of a dual cipher is one of its hierarchy, if it has one. -/
theorem rotate_cases {cipher next : DualModeCipher} {rotation : Rotation}
    (h : cipher.rotate rotation = .ok next) :
    (cipher.hierarchy = none ∧ next = cipher) ∨
      ∃ keys rotated, cipher.hierarchy = some keys ∧ keys.rotate rotation = .ok rotated ∧
        next = { cipher with hierarchy := some rotated } := by
  rw [rotate] at h
  split at h
  · next hierarchy =>
    cases h
    exact Or.inl ⟨hierarchy, rfl⟩
  · next keys hierarchy =>
    split at h
    · cases h
    · next rotated hrotated =>
      cases h
      exact Or.inr ⟨keys, rotated, hierarchy, hrotated, rfl⟩

/-- The cipher after a rotation can still be had. -/
theorem reachable_rotate {cipher next : DualModeCipher} {rotation : Rotation}
    (hreachable : RotatingCipher.Reachable cipher) (h : cipher.rotate rotation = .ok next) :
    RotatingCipher.Reachable next := by
  rcases rotate_cases h with ⟨_, rfl⟩ | ⟨keys, rotated, hierarchy, hrotated, rfl⟩
  · exact hreachable
  · rintro _ ⟨⟩
    exact KeyHierarchy.Reachable.rotate (hreachable keys hierarchy) rotation hrotated

/-- A rotation with a fresh name keeps what a dual cipher reads. -/
theorem reads_rotate {cipher next : DualModeCipher} {rotation : Rotation} {sealed : Ciphertext}
    {plaintext : List UInt8} (hreads : cipher.Reads sealed plaintext)
    (hfresh : RotatingCipher.IsFresh cipher rotation) (h : cipher.rotate rotation = .ok next) :
    next.Reads sealed plaintext := by
  rcases rotate_cases h with ⟨_, rfl⟩ | ⟨keys, rotated, hierarchy, hrotated, rfl⟩
  · exact hreads
  · cases hreads with
    | @dataKey keys' key hierarchy' held opens =>
      rw [hierarchy] at hierarchy'
      cases hierarchy'
      exact .dataKey rfl (KeyHierarchy.unwrapKey_rotate (hfresh keys hierarchy) hrotated held) opens
    | single name opens => exact .single name opens

/-- What a dual cipher reads is durable. -/
theorem Reads.durable {cipher : DualModeCipher} (hreachable : RotatingCipher.Reachable cipher)
    {sealed : Ciphertext} {plaintext : List UInt8} (h : cipher.Reads sealed plaintext) :
    Durable cipher sealed plaintext := by
  refine durable_of_invariant
    (fun cipher => RotatingCipher.Reachable cipher ∧ cipher.Reads sealed plaintext) ?_ ?_
    ⟨hreachable, h⟩
  · intro cipher rotation next hholds hfresh hrotate
    exact ⟨reachable_rotate hholds.1 hrotate, reads_rotate hholds.2 hfresh hrotate⟩
  · intro cipher hholds
    exact decrypt_of_reads hholds.1 hholds.2

/-- What a dual cipher encrypts, it reads. -/
theorem exists_encrypt {cipher : DualModeCipher} (hreachable : RotatingCipher.Reachable cipher)
    (nonce : Gcm.Nonce) (plaintext : List UInt8) :
    ∃ sealed, cipher.encrypt nonce plaintext = .ok sealed ∧ cipher.Reads sealed plaintext := by
  cases hierarchy : cipher.hierarchy with
  | none =>
    rw [encrypt, hierarchy]
    exact ⟨_, rfl, .single rfl (openSealed_wrapUnder _ _ _)⟩
  | some keys =>
    obtain ⟨key, hkey, hencrypt⟩ :=
      (hreachable keys hierarchy).sound.exists_encrypt nonce plaintext
    refine ⟨⟨Sealing.wrapUnder key.bytes nonce plaintext, keys.active⟩, ?_,
      .dataKey hierarchy hkey (openSealed_wrapUnder _ _ _)⟩
    rw [encrypt, hierarchy, ← hencrypt]

instance : DurableCipher DualModeCipher where
  exists_rotate cipher rotation hreachable := by
    have hrotate : ∃ next, cipher.rotate rotation = .ok next := by
      cases hierarchy : cipher.hierarchy with
      | none => exact ⟨cipher, by rw [rotate, hierarchy]⟩
      | some keys =>
        obtain ⟨rotated, hrotated⟩ :=
          (hreachable keys hierarchy).sound.exists_rotate rotation
        exact ⟨{ cipher with hierarchy := some rotated },
          by simp only [rotate, hierarchy, hrotated]⟩
    obtain ⟨next, hnext⟩ := hrotate
    exact ⟨next, hnext, reachable_rotate hreachable hnext⟩
  exists_encrypt cipher nonce plaintext hreachable := by
    obtain ⟨sealed, hsealed, hreads⟩ := exists_encrypt hreachable nonce plaintext
    exact ⟨sealed, hsealed, hreads.durable hreachable⟩

end DualModeCipher

/-! ## A cipher in use -/

/-- A call on a cipher. -/
inductive KeyCall where
  | encrypt (nonce : Gcm.Nonce) (plaintext : List UInt8)
  | rotate (rotation : Rotation)

namespace KeyCall

/-- The rotation of a call. -/
def rotation? : KeyCall → Option Rotation
  | encrypt _ _ => none
  | rotate rotation => some rotation

/-- The plaintext of a call. -/
def plaintext? : KeyCall → Option (List UInt8)
  | encrypt _ plaintext => some plaintext
  | rotate _ => none

end KeyCall

/-- A cipher, and what it has encrypted so far: every plaintext with its ciphertext. -/
structure KeyUse (κ : Type) where
  cipher : κ
  issued : List (List UInt8 × Ciphertext)

namespace KeyUse

variable {κ : Type} [CardCipher κ] [RotatingCipher κ]

/-- A cipher in use after a call. -/
def call (use : KeyUse κ) : KeyCall → Except CryptoError (KeyUse κ)
  | .encrypt nonce plaintext =>
    match CardCipher.encrypt use.cipher nonce plaintext with
    | .error e => .error e
    | .ok sealed => .ok { use with issued := use.issued ++ [(plaintext, sealed)] }
  | .rotate rotation =>
    match RotatingCipher.rotate use.cipher rotation with
    | .error e => .error e
    | .ok next => .ok { use with cipher := next }

/-- A cipher in use after calls, one after the other. -/
def run (use : KeyUse κ) : List KeyCall → Except CryptoError (KeyUse κ)
  | [] => .ok use
  | call :: more =>
    match use.call call with
    | .error e => .error e
    | .ok next => next.run more

/-- No call of a run fails, and what the cipher has encrypted is durable all along. -/
theorem exists_run [DurableCipher κ] (use : KeyUse κ)
    (hreachable : RotatingCipher.Reachable use.cipher)
    (hissued : ∀ entry ∈ use.issued, Durable use.cipher entry.2 entry.1) (calls : List KeyCall)
    (hfresh : FreshNames use.cipher (calls.filterMap KeyCall.rotation?)) :
    ∃ last, use.run calls = .ok last ∧
      rotateAll use.cipher (calls.filterMap KeyCall.rotation?) = .ok last.cipher ∧
      last.issued.map (·.1) = use.issued.map (·.1) ++ calls.filterMap KeyCall.plaintext? ∧
      ∀ entry ∈ last.issued, Durable last.cipher entry.2 entry.1 := by
  induction calls generalizing use with
  | nil => exact ⟨use, rfl, rfl, by simp, hissued⟩
  | cons call more ih =>
    cases call with
    | encrypt nonce plaintext =>
      obtain ⟨sealed, hsealed, hdurable⟩ :=
        DurableCipher.exists_encrypt use.cipher nonce plaintext hreachable
      have hissued' : ∀ entry ∈ use.issued ++ [(plaintext, sealed)],
          Durable use.cipher entry.2 entry.1 := by
        intro entry hentry
        rcases List.mem_append.1 hentry with hentry | hentry
        · exact hissued entry hentry
        · rw [List.mem_singleton.1 hentry]
          exact hdurable
      obtain ⟨last, hrun, hrotate, hplain, hall⟩ :=
        ih { use with issued := use.issued ++ [(plaintext, sealed)] } hreachable hissued'
          hfresh
      refine ⟨last, ?_, hrotate, ?_, hall⟩
      · rw [run, KeyUse.call, hsealed]
        exact hrun
      · simpa [KeyCall.plaintext?] using hplain
    | rotate rotation =>
      obtain ⟨next, hnext, hreachable'⟩ :=
        DurableCipher.exists_rotate use.cipher rotation hreachable
      obtain ⟨last, hrun, hrotate, hplain, hall⟩ :=
        ih { use with cipher := next } hreachable'
          (fun entry hentry => (hissued entry hentry).rotate hfresh.1 hnext) (hfresh.2 next hnext)
      refine ⟨last, ?_, ?_, ?_, hall⟩
      · rw [run, KeyUse.call, hnext]
        exact hrun
      · simpa [KeyCall.rotation?, rotateAll, hnext] using hrotate
      · rw [hplain, List.filterMap_cons_none (by rfl)]

end KeyUse

namespace DualModeCipher

/-- At every point of a run of encryptions and rotations, a dual cipher decrypts all it has
encrypted so far and all that its single key ever encrypts.  No call of the run fails. -/
theorem decrypt_issued (cipher : DualModeCipher)
    (reachable : ∀ keys, cipher.hierarchy = some keys → keys.Reachable) (calls : List KeyCall)
    (fresh : FreshNames cipher (calls.filterMap KeyCall.rotation?)) (point : List KeyCall)
    (earlier : point <+: calls) :
    ∃ use, KeyUse.run ⟨cipher, []⟩ point = .ok use ∧
      use.issued.map (·.1) = point.filterMap KeyCall.plaintext? ∧
      (∀ entry ∈ use.issued, use.cipher.decrypt entry.2.bytes entry.2.keyId = .ok entry.1) ∧
      ∀ nonce plaintext, ∃ sealed,
        CardCipher.encrypt cipher.legacy nonce plaintext = .ok sealed ∧
        sealed.keyId = "legacy" ∧
        use.cipher.decrypt sealed.bytes sealed.keyId = .ok plaintext := by
  obtain ⟨rest, rfl⟩ := earlier
  rw [List.filterMap_append] at fresh
  have hfresh := fresh.of_append
  obtain ⟨use, hrun, hrotate, hplain, hall⟩ :=
    KeyUse.exists_run ⟨cipher, []⟩ reachable (by simp) point hfresh
  refine ⟨use, hrun, by simpa using hplain, fun entry hentry => (hall entry hentry).decrypt, ?_⟩
  intro nonce plaintext
  refine ⟨_, rfl, rfl, ?_⟩
  exact Reads.durable reachable (.single rfl (openSealed_wrapUnder _ _ _)) _ _ hfresh hrotate

/-- A dual cipher with a new hierarchy. -/
def sample : DualModeCipher :=
  ⟨⟨⟨Vector.replicate 32 7⟩⟩,
    some (.create ⟨Vector.replicate 32 9⟩ (Vector.replicate 8 0)
      ⟨Vector.replicate 8 1, ⟨Vector.replicate 32 1⟩⟩ (Vector.replicate 12 0) 0)⟩

/-- A rotation of the data key and one of the master key. -/
def sampleRotations : List Rotation :=
  [.dataKey ⟨Vector.replicate 8 2, ⟨Vector.replicate 32 2⟩⟩ (Vector.replicate 12 2) 1,
    .masterKey ⟨Vector.replicate 8 3, ⟨Vector.replicate 32 3⟩⟩ fun _ => Vector.replicate 12 4]

theorem reachable_sample : RotatingCipher.Reachable sample := by
  rintro keys ⟨⟩
  exact KeyHierarchy.Reachable.create _ _ _ _ _

theorem freshNames_sampleRotations : FreshNames sample sampleRotations := by
  refine ⟨?_, fun next _ => ⟨fun _ _ => trivial, fun _ _ => trivial⟩⟩
  rintro keys ⟨⟩
  exact rfl

/-- Calls that encrypt before and between the two rotations. -/
def sampleCalls : List KeyCall :=
  .encrypt (Vector.replicate 12 1) [52, 49] ::
    (sampleRotations.map .rotate).intersperse (.encrypt (Vector.replicate 12 3) [52, 50])

theorem decrypt_issued_sample :
    ∃ use, KeyUse.run ⟨sample, []⟩ sampleCalls = .ok use ∧
      use.issued.map (·.1) = [[52, 49], [52, 50]] ∧
      (∀ entry ∈ use.issued, use.cipher.decrypt entry.2.bytes entry.2.keyId = .ok entry.1) ∧
      ∀ nonce plaintext, ∃ sealed,
        CardCipher.encrypt sample.legacy nonce plaintext = .ok sealed ∧
        sealed.keyId = "legacy" ∧
        use.cipher.decrypt sealed.bytes sealed.keyId = .ok plaintext := by
  exact decrypt_issued sample reachable_sample sampleCalls freshNames_sampleRotations sampleCalls
    (List.prefix_refl _)

end DualModeCipher

end CardGate
