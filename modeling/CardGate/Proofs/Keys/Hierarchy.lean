import CardGate.Keys.Rotation
import Mathlib.Data.List.Forall2

/-!
# What rotations keep of a key hierarchy

A data key is its bytes: they encrypted whatever goes by its name.  The main statements follow
these bytes through the rotations of a hierarchy.

* `unwrapKey_addDataKey`: a new data key takes its own name and leaves all other names alone.
* `unwrapKey_replaceMasterKey`: a new master key leaves every name alone.
* `Reachable.sound`: every data key of a hierarchy opens under its master key, so that no rotation
  fails (`exists_rotate`), and the active one is among them, so that encrypting always succeeds
  (`exists_encrypt`).

`rotated_of_rotate` says once what a rotation comes to: it gives up, it adds a data key, or it
replaces the master key.

The bytes behind a name are what `unwrapKey` gives, so nothing here looks into the wrapped keys
but the lemmas on `rewrap`.
-/

namespace CardGate.KeyHierarchy

/-! ## Wrapping anew -/

/-- A data key before and after it is wrapped anew: it opens to the same bytes under the new
master key, and apart from the wrapping nothing changes. -/
structure Rewrapped (old new : MasterKey) (before after : DataKey) : Prop where
  id_eq : after.id = before.id
  version_eq : after.version = before.version
  createdAt_eq : after.createdAt = before.createdAt
  masterId_eq : after.masterId = new.id
  opens : openSealed new.key.toList after.wrapped = openSealed old.key.toList before.wrapped

/-- Whatever `rewrap` gives, it has wrapped every data key anew. -/
theorem forall₂_of_rewrap {keys : KeyHierarchy} {master : MasterKey} {nonces : Nat → Gcm.Nonce}
    {i : Nat} {before after : List DataKey}
    (h : keys.rewrap master nonces i before = .ok after) :
    List.Forall₂ (Rewrapped keys.master master) before after := by
  induction before generalizing i after with
  | nil =>
    cases h
    exact List.Forall₂.nil
  | cons dataKey more ih =>
    rw [rewrap] at h
    split at h
    · cases h
    · next bytes hbytes =>
      split at h
      · cases h
      · next rest hrest =>
        cases h
        refine List.Forall₂.cons ⟨rfl, rfl, rfl, rfl, ?_⟩ (ih hrest)
        rw [openSealed_wrapUnder, hbytes]

/-- Data keys that open can be wrapped anew. -/
theorem exists_rewrap {keys : KeyHierarchy} (master : MasterKey) (nonces : Nat → Gcm.Nonce)
    (i : Nat) {before : List DataKey}
    (h : ∀ dataKey ∈ before, ∃ bytes,
      openSealed keys.master.key.toList dataKey.wrapped = .ok bytes) :
    ∃ after, keys.rewrap master nonces i before = .ok after := by
  induction before generalizing i with
  | nil => exact ⟨[], rfl⟩
  | cons dataKey more ih =>
    obtain ⟨bytes, hbytes⟩ := h dataKey (by simp)
    obtain ⟨rest, hrest⟩ := ih (i + 1) fun other hother => h other (by simp [hother])
    rw [rewrap, hbytes, hrest]
    exact ⟨_, rfl⟩

/-- Every data key that is wrapped anew was there before. -/
theorem exists_before {old new : MasterKey} {before after : List DataKey}
    (h : List.Forall₂ (Rewrapped old new) before after) {dataKey : DataKey}
    (hmem : dataKey ∈ after) : ∃ earlier ∈ before, Rewrapped old new earlier dataKey := by
  induction h with
  | nil => simp at hmem
  | @cons earlier rewrapped more rest hhead _ ih =>
    rcases List.mem_cons.1 hmem with rfl | hmem
    · exact ⟨earlier, by simp, hhead⟩
    · obtain ⟨other, hother, hrewrapped⟩ := ih hmem
      exact ⟨other, by simp [hother], hrewrapped⟩

/-- Data keys that are wrapped anew are found under their names as before. -/
theorem find?_of_forall₂ {old new : MasterKey} {before after : List DataKey}
    (h : List.Forall₂ (Rewrapped old new) before after) (id : String) :
    Option.Rel (Rewrapped old new) (before.find? (·.id = id)) (after.find? (·.id = id)) := by
  induction h with
  | nil => exact Option.Rel.none
  | @cons dataKey rewrapped more rest hhead _ ih =>
    by_cases hid : dataKey.id = id
    · have hid' : rewrapped.id = id := by rw [hhead.id_eq, hid]
      simpa [hid, hid'] using Option.Rel.some hhead
    · have hid' : rewrapped.id ≠ id := by rwa [hhead.id_eq]
      simpa [hid, hid'] using ih

/-! ## The bytes behind a name -/

/-- A data key that is added takes the place of any other of its name. -/
theorem find?_filter_append (dataKeys : List DataKey) (added : DataKey) (id : String) :
    (dataKeys.filter (·.id ≠ added.id) ++ [added]).find? (·.id = id) =
      if id = added.id then some added else dataKeys.find? (·.id = id) := by
  induction dataKeys with
  | nil => by_cases hid : id = added.id <;> simp [hid, eq_comm]
  | cons dataKey more ih =>
    by_cases hadded : dataKey.id = added.id
    · rw [List.filter_cons_of_neg (by simpa using hadded), ih]
      by_cases hid : id = added.id
      · rw [if_pos hid, if_pos hid]
      · have hne : dataKey.id ≠ id := fun h => hid (h ▸ hadded)
        simp [hid, hne]
    · rw [List.filter_cons_of_pos (by simpa using hadded), List.cons_append, List.find?_cons,
        List.find?_cons, ih]
      by_cases hid : id = added.id
      · simp [hid, hadded]
      · rw [if_neg hid, if_neg hid]

/-- The new data key goes by its own name, and every other name keeps its key. -/
theorem unwrapKey_addDataKey (keys : KeyHierarchy) (draw : KeyDraw) (nonce : Gcm.Nonce)
    (now : Nat) (version : UInt32) (id : String) :
    (keys.addDataKey draw nonce now version).unwrapKey id =
      if id = keyName "dek" draw.name then .ok draw.key.toList else keys.unwrapKey id := by
  let added : DataKey := ⟨keyName "dek" draw.name, version, keys.master.id,
    Sealing.wrapUnder keys.master.key.bytes nonce draw.key.toList, now⟩
  have hfind : (keys.addDataKey draw nonce now version).find? id =
      if id = added.id then some added else keys.find? id :=
    find?_filter_append keys.dataKeys added id
  rw [unwrapKey, hfind]
  by_cases hid : id = added.id
  · rw [if_pos hid, if_pos hid]
    exact openSealed_wrapUnder _ _ _
  · rw [if_neg hid, if_neg hid]
    rfl

/-- Under a new master key every name keeps its key. -/
theorem unwrapKey_replaceMasterKey {keys next : KeyHierarchy} {master : MasterKey}
    {nonces : Nat → Gcm.Nonce} (h : keys.replaceMasterKey master nonces = .ok next) (id : String) :
    next.unwrapKey id = keys.unwrapKey id := by
  rw [replaceMasterKey] at h
  split at h
  · cases h
  · next dataKeys hrewrap =>
    cases h
    have hfind := find?_of_forall₂ (forall₂_of_rewrap hrewrap) id
    simp only [unwrapKey, find?]
    generalize keys.dataKeys.find? (fun dataKey => decide (dataKey.id = id)) = before at hfind ⊢
    generalize dataKeys.find? (fun dataKey => decide (dataKey.id = id)) = after at hfind ⊢
    cases hfind with
    | none => rfl
    | some hkey => exact hkey.opens

/-! ## The invariant -/

/-- What holds of a hierarchy all the time. -/
structure Sound (keys : KeyHierarchy) : Prop where
  /-- Every data key has a name of its kind. -/
  named : ∀ dataKey ∈ keys.dataKeys, ∃ bytes, dataKey.id = keyName "dek" bytes
  /-- Every data key opens to a key under the master key. -/
  opens : ∀ dataKey ∈ keys.dataKeys, ∃ key : KeyMaterial,
    openSealed keys.master.key.toList dataKey.wrapped = .ok key.toList
  /-- The active name stands for a key. -/
  active : ∃ key : KeyMaterial, keys.unwrapKey keys.active = .ok key.toList

/-- A new data key makes a hierarchy sound whose other data keys are, even if it has none. -/
theorem sound_addDataKey {keys : KeyHierarchy} (draw : KeyDraw) (nonce : Gcm.Nonce) (now : Nat)
    (version : UInt32)
    (hnamed : ∀ dataKey ∈ keys.dataKeys, ∃ bytes, dataKey.id = keyName "dek" bytes)
    (hopens : ∀ dataKey ∈ keys.dataKeys, ∃ key : KeyMaterial,
      openSealed keys.master.key.toList dataKey.wrapped = .ok key.toList) :
    (keys.addDataKey draw nonce now version).Sound where
  named := by
    intro dataKey hmem
    simp only [addDataKey, List.mem_append, List.mem_filter, List.mem_singleton] at hmem
    rcases hmem with ⟨hmem, _⟩ | rfl
    · exact hnamed dataKey hmem
    · exact ⟨draw.name, rfl⟩
  opens := by
    intro dataKey hmem
    simp only [addDataKey, List.mem_append, List.mem_filter, List.mem_singleton] at hmem
    rcases hmem with ⟨hmem, _⟩ | rfl
    · exact hopens dataKey hmem
    · exact ⟨draw.key, openSealed_wrapUnder _ _ _⟩
  active := by
    refine ⟨draw.key, ?_⟩
    rw [unwrapKey_addDataKey, if_pos]
    rfl

theorem Sound.replaceMasterKey {keys next : KeyHierarchy} (hsound : keys.Sound)
    {master : MasterKey} {nonces : Nat → Gcm.Nonce}
    (h : keys.replaceMasterKey master nonces = .ok next) : next.Sound := by
  have hactive := unwrapKey_replaceMasterKey h keys.active
  rw [KeyHierarchy.replaceMasterKey] at h
  split at h
  · cases h
  · next dataKeys hrewrap =>
    cases h
    have hall := forall₂_of_rewrap hrewrap
    refine ⟨fun dataKey hmem => ?_, fun dataKey hmem => ?_, ?_⟩
    · obtain ⟨earlier, hearlier, hkey⟩ := exists_before hall hmem
      rw [hkey.id_eq]
      exact hsound.named earlier hearlier
    · obtain ⟨earlier, hearlier, hkey⟩ := exists_before hall hmem
      simp only [hkey.opens]
      exact hsound.opens earlier hearlier
    · rw [hactive]
      exact hsound.active

/-- What a rotation of a hierarchy comes to, when it does not fail. -/
inductive Rotated (keys next : KeyHierarchy) : Rotation → Prop
  | gaveUp {rotation : Rotation} (gaveUp : keys.GivesUp rotation) (same : next = keys) :
      Rotated keys next rotation
  | added {draw : KeyDraw} {nonce : Gcm.Nonce} {now : Nat} {version : UInt32}
      (following : version.toNat = keys.lastVersion.toNat + 1)
      (rotated : next = keys.addDataKey draw nonce now version) :
      Rotated keys next (.dataKey draw nonce now)
  | replaced {draw : KeyDraw} {nonces : Nat → Gcm.Nonce} {version : UInt32}
      (following : version.toNat = keys.master.version.toNat + 1)
      (rotated :
        keys.replaceMasterKey ⟨keyName "kek" draw.name, version, draw.key⟩ nonces = .ok next) :
      Rotated keys next (.masterKey draw nonces)

theorem rotated_of_rotate {keys next : KeyHierarchy} {rotation : Rotation}
    (h : keys.rotate rotation = .ok next) : Rotated keys next rotation := by
  by_cases hgivesUp : keys.GivesUp rotation
  · rw [rotate, hgivesUp] at h
    cases h
    exact .gaveUp hgivesUp rfl
  · obtain ⟨result, hresult⟩ := Option.ne_none_iff_exists'.1 hgivesUp
    rw [rotate, hresult] at h
    cases rotation with
    | dataKey draw nonce now =>
      obtain ⟨added, hadded, rfl⟩ := Option.map_eq_some_iff.1 hresult
      obtain ⟨version, hversion, rfl⟩ := Option.map_eq_some_iff.1 hadded
      cases h
      exact .added (Counter.add?_eq_some_iff.1 hversion) rfl
    | masterKey draw nonces =>
      obtain ⟨version, hversion, rfl⟩ := Option.map_eq_some_iff.1 hresult
      exact .replaced (Counter.add?_eq_some_iff.1 hversion) h

theorem Sound.rotate {keys next : KeyHierarchy} (hsound : keys.Sound) {rotation : Rotation}
    (h : keys.rotate rotation = .ok next) : next.Sound := by
  cases rotated_of_rotate h with
  | gaveUp _ same => exact same ▸ hsound
  | added following rotated =>
    rw [rotated]
    exact sound_addDataKey _ _ _ _ hsound.named hsound.opens
  | replaced following rotated => exact hsound.replaceMasterKey rotated

/-- Every hierarchy that rotations can make is sound, whatever names they draw. -/
theorem Reachable.sound {keys : KeyHierarchy} (h : keys.Reachable) : keys.Sound := by
  induction h with
  | create master masterName draw nonce now =>
    exact sound_addDataKey draw nonce now 1 (by simp) (by simp)
  | rotate _ rotation rotated ih => exact ih.rotate rotated

/-- A rotation with a fresh name keeps the key behind every name. -/
theorem unwrapKey_rotate {keys next : KeyHierarchy} {rotation : Rotation}
    (hfresh : keys.IsFresh rotation) (h : keys.rotate rotation = .ok next) {id : String}
    {key : List UInt8} (hkey : keys.unwrapKey id = .ok key) : next.unwrapKey id = .ok key := by
  cases rotated_of_rotate h with
  | gaveUp _ same => rw [same, hkey]
  | @added draw nonce now version following rotated =>
    have hother : id ≠ keyName "dek" draw.name := by
      rintro rfl
      rw [unwrapKey, show keys.find? (keyName "dek" draw.name) = none from hfresh] at hkey
      cases hkey
    rw [rotated, unwrapKey_addDataKey, if_neg hother, hkey]
  | replaced following rotated => rw [unwrapKey_replaceMasterKey rotated, hkey]

/-! ## What always succeeds -/

/-- A sound hierarchy can have its master key replaced. -/
theorem Sound.exists_replaceMasterKey {keys : KeyHierarchy} (hsound : keys.Sound)
    (master : MasterKey) (nonces : Nat → Gcm.Nonce) :
    ∃ next, keys.replaceMasterKey master nonces = .ok next := by
  have hopens : ∀ dataKey ∈ keys.dataKeys, ∃ bytes,
      openSealed keys.master.key.toList dataKey.wrapped = .ok bytes := by
    intro dataKey hmem
    obtain ⟨key, hkey⟩ := hsound.opens dataKey hmem
    exact ⟨key.toList, hkey⟩
  obtain ⟨after, hafter⟩ := exists_rewrap master nonces 0 hopens
  rw [KeyHierarchy.replaceMasterKey, hafter]
  exact ⟨_, rfl⟩

/-- No rotation of a sound hierarchy fails. -/
theorem Sound.exists_rotate {keys : KeyHierarchy} (hsound : keys.Sound) (rotation : Rotation) :
    ∃ next, keys.rotate rotation = .ok next := by
  cases hresult : keys.rotate? rotation with
  | none => exact ⟨keys, by rw [KeyHierarchy.rotate, hresult, Option.getD_none]⟩
  | some result =>
    rw [KeyHierarchy.rotate, hresult, Option.getD_some]
    cases rotation with
    | dataKey draw nonce now =>
      obtain ⟨added, -, rfl⟩ := Option.map_eq_some_iff.1 hresult
      exact ⟨added, rfl⟩
    | masterKey draw nonces =>
      obtain ⟨version, -, rfl⟩ := Option.map_eq_some_iff.1 hresult
      exact hsound.exists_replaceMasterKey _ nonces

/-- A name that stands for a key is the name of a data key. -/
theorem Sound.named_of_unwrapKey {keys : KeyHierarchy} (hsound : keys.Sound) {id : String}
    {key : List UInt8} (h : keys.unwrapKey id = .ok key) : ∃ bytes, id = keyName "dek" bytes := by
  rw [unwrapKey] at h
  split at h
  · next dataKey hfind =>
    obtain ⟨bytes, hbytes⟩ := hsound.named dataKey (List.mem_of_find?_eq_some hfind)
    have hid : dataKey.id = id := by simpa using List.find?_some hfind
    exact ⟨bytes, by rw [← hid, hbytes]⟩
  · cases h

/-- A sound hierarchy encrypts, under the key that goes by the name it tells. -/
theorem Sound.exists_encrypt {keys : KeyHierarchy} (hsound : keys.Sound) (nonce : Gcm.Nonce)
    (plaintext : List UInt8) :
    ∃ key : KeyMaterial, keys.unwrapKey keys.active = .ok key.toList ∧
      keys.encrypt nonce plaintext =
        .ok ⟨Sealing.wrapUnder key.bytes nonce plaintext, keys.active⟩ := by
  obtain ⟨key, hkey⟩ := hsound.active
  refine ⟨key, hkey, ?_⟩
  simp only [encrypt, hkey, Sealing.wrap, KeyMaterial.toList, Sealing.key?_toList]

end CardGate.KeyHierarchy
