import GmKms.Keystore.SoftwareSteps
/-!
# What the software keystore keeps

Rotation moves material into a history, and decryption finds it there by its version.
While the version of no key runs over its 32 bits, a version keeps denoting the same
material, and what was encrypted under it keeps decrypting, until the key is destroyed.
-/

namespace GmKms.Keystore.Software

open Lib

/-! ## Version numbers of an entry -/

/-- The history holds versions below the current one. -/
def KeyEntry.WellNumbered (entry : KeyEntry) : Prop :=
  0 < entry.keyMeta.version.toNat ∧
    ∀ v ∈ entry.versions, 0 < v.1.toNat ∧ v.1.toNat < entry.keyMeta.version.toNat

/-- A later entry of the same key still finds what an earlier one found. -/
structure KeyEntry.Retains (entry entry' : KeyEntry) : Prop where
  tenantId : entry'.keyMeta.tenantId = entry.keyMeta.tenantId
  spec : entry'.keyMeta.spec = entry.keyMeta.spec
  canDecrypt : entry.keyMeta.status.canDecrypt = true → entry'.keyMeta.status.canDecrypt = true
  materialAt : ∀ version material, entry.materialAt version = some material →
    entry'.materialAt version = some material

/-- The next number is not taken by wrapping around. -/
theorem toNat_version_rotatedMeta {keyMeta : KeyMeta} (h : keyMeta.version.toNat + 1 < 2 ^ 32) (now : DateTime) :
    (rotatedMeta keyMeta now).version.toNat = keyMeta.version.toNat + 1 := by
  have hversion : (rotatedMeta keyMeta now).version = keyMeta.version + 1 := rfl
  rw [hversion, UInt32.toNat_add, UInt32.toNat_one, Nat.mod_eq_of_lt h]

namespace KeyEntry

theorem retains_refl (entry : KeyEntry) : entry.Retains entry := ⟨rfl, rfl, id, fun _ _ h => h⟩

theorem Retains.trans {e₁ e₂ e₃ : KeyEntry} (h : e₁.Retains e₂) (h' : e₂.Retains e₃) : e₁.Retains e₃ where
  tenantId := h'.tenantId.trans h.tenantId
  spec := h'.spec.trans h.spec
  canDecrypt := fun hd => h'.canDecrypt (h.canDecrypt hd)
  materialAt := fun v m hm => h'.materialAt v m (h.materialAt v m hm)

theorem wellNumbered_of_made {entry : KeyEntry} (h : entry.keyMeta.version = 1 ∧ entry.versions = []) :
    entry.WellNumbered := by
  refine ⟨by rw [h.1]; exact Nat.one_pos, ?_⟩
  rw [h.2]
  simp

theorem wellNumbered_rotatedEntry {entry : KeyEntry} (h : entry.WellNumbered)
    (hlt : entry.keyMeta.version.toNat + 1 < 2 ^ 32) (now : DateTime) (material : Bytes) :
    (rotatedEntry entry now material).WellNumbered := by
  have hnext : (rotatedEntry entry now material).keyMeta.version.toNat = entry.keyMeta.version.toNat + 1 :=
    toNat_version_rotatedMeta hlt now
  refine ⟨by omega, fun v hv => ?_⟩
  rcases List.mem_append.1 hv with hv | hv
  · have := h.2 v hv
    omega
  · rw [List.mem_singleton.1 hv]
    exact ⟨h.1, by rw [hnext]; exact Nat.lt_succ_self _⟩

theorem retains_rotatedEntry {entry : KeyEntry} (h : entry.WellNumbered)
    (hlt : entry.keyMeta.version.toNat + 1 < 2 ^ 32) (now : DateTime) (material : Bytes) :
    entry.Retains (rotatedEntry entry now material) where
  tenantId := rfl
  spec := rfl
  canDecrypt _ := rfl
  materialAt v m hm := by
    have hnext := toNat_version_rotatedMeta hlt now
    have hversions : (rotatedEntry entry now material).versions =
        entry.versions ++ [(entry.keyMeta.version, entry.material)] := rfl
    by_cases hv : v = entry.keyMeta.version
    · -- the version that was current is the last one of the history, and no earlier one has its number
      subst hv
      rw [materialAt_current, Option.some.injEq] at hm
      have hnone : (entry.versions.find? fun w => w.1 = entry.keyMeta.version) = none := by
        rw [List.find?_eq_none]
        intro w hw heq
        rw [decide_eq_true_eq] at heq
        have := (h.2 w hw).2
        rw [heq] at this
        omega
      have hne : entry.keyMeta.version ≠ (rotatedMeta entry.keyMeta now).version := by
        intro heq
        rw [← heq] at hnext
        omega
      rw [materialAt_of_ne hne, hversions, List.find?_append, hnone]
      simp [hm]
    · rw [materialAt_of_ne hv] at hm
      obtain ⟨w, hw, rfl⟩ := Option.map_eq_some_iff.1 hm
      have hmem := List.mem_of_find?_eq_some hw
      have hvw : w.1 = v := by simpa using List.find?_some hw
      have hne : v ≠ (rotatedMeta entry.keyMeta now).version := by
        rintro rfl
        have := (h.2 w hmem).2
        rw [hvw] at this
        omega
      rw [materialAt_of_ne hne, hversions, List.find?_append, hw]
      rfl

theorem retains_deletedEntry (entry : KeyEntry) : entry.Retains (deletedEntry entry) :=
  ⟨rfl, rfl, fun _ => rfl, fun _ _ h => h⟩

end KeyEntry

/-! ## Steps -/

/-- `Uuid::new_v4` returns no id that is in use. -/
def FreshId (ks : SoftwareKeystore) (c : UseCall) : Prop :=
  c.op.creates = true → ks.keys[c.env.uuid]? = none

/-- A rotation is of a key of a generatable specification, and its material can be generated. -/
def RandomGeneration (ks : SoftwareKeystore) (c : UseCall) : Prop :=
  ∀ keyId tenantId entry, c.op = .rotateKey keyId tenantId → ks.keys[keyId]? = some entry →
    SoftwareKeystore.CanGenerate entry.keyMeta.spec c.env.toEnv

/-- A rotation is of a key whose version is not the last one that 32 bits hold. -/
def VersionFits (ks : SoftwareKeystore) (c : UseCall) : Prop :=
  ∀ keyId tenantId entry, c.op = .rotateKey keyId tenantId → ks.keys[keyId]? = some entry →
    entry.keyMeta.version.toNat + 1 < 2 ^ 32

namespace SoftwareKeystore

def WellNumbered (ks : SoftwareKeystore) : Prop :=
  ∀ (id : Uuid) (entry : KeyEntry), ks.keys[id]? = some entry → entry.WellNumbered

theorem wellNumbered_new : new.WellNumbered := by
  intro id entry h
  simp [new] at h

/-- One call, seen from a key that it does not destroy and of which every rotation past the checks of
the owner and the status finds new material. -/
theorem perform_outcome (crypto : Crypto) {ks : SoftwareKeystore} {c : UseCall} (hfresh : FreshId ks c) {id : Uuid}
    {entry : KeyEntry} (hentry : ks.keys[id]? = some entry) (hkept : c.op.destroys? ≠ some id)
    (hgenerates : c.op = .rotateKey id entry.keyMeta.tenantId → entry.keyMeta.status.canRotate = true →
      CanGenerate entry.keyMeta.spec c.env.toEnv) :
    ∃ entry', (perform crypto c.env c.op ks).2.keys[id]? = some entry' ∧
      (entry' = entry ∨ entry' = deletedEntry entry ∨ ∃ material, c.op = .rotateKey id entry.keyMeta.tenantId ∧
        entry.keyMeta.status.canRotate = true ∧ rotationMaterial entry.keyMeta.spec c.env.toEnv = .ok material ∧
        entry' = rotatedEntry entry c.env.now material) := by
  have hstep := perform_entry crypto c.env c.op ks id
  generalize hop : c.op = op at hstep hgenerates
  generalize (perform crypto c.env op ks).2.keys[id]? = after at hstep ⊢
  rw [hentry] at hstep
  cases hstep with
  | kept => exact ⟨entry, rfl, .inl rfl⟩
  | generated _ hid => exact absurd (hfresh (by rw [hop]; rfl)) (by rw [hid, hentry]; simp)
  | imported _ hid => exact absurd (hfresh (by rw [hop]; rfl)) (by rw [hid, hentry]; simp)
  | rotated hrotatable hmade => exact ⟨_, rfl, .inr (.inr ⟨_, rfl, hrotatable, hmade, rfl⟩)⟩
  | emptied hrotatable hfailed =>
    obtain ⟨material, hmade⟩ := (rotationMaterial_isOk_iff _ _).2 (hgenerates rfl hrotatable)
    rw [hfailed] at hmade
    cases hmade
  | deleted => exact ⟨_, rfl, .inr (.inl rfl)⟩
  | destroyed _ hdestroys => exact absurd (hop ▸ hdestroys) hkept

/-- Where its rotation also finds a next version, the key keeps what it had. -/
theorem perform_keepsEntry (crypto : Crypto) {ks : SoftwareKeystore} {c : UseCall} (hfresh : FreshId ks c) {id : Uuid}
    {entry : KeyEntry} (hentry : ks.keys[id]? = some entry) (hnumbered : entry.WellNumbered)
    (hkept : c.op.destroys? ≠ some id)
    (hrotation : c.op = .rotateKey id entry.keyMeta.tenantId → entry.keyMeta.status.canRotate = true →
      CanGenerate entry.keyMeta.spec c.env.toEnv ∧ entry.keyMeta.version.toNat + 1 < 2 ^ 32) :
    ∃ entry', (perform crypto c.env c.op ks).2.keys[id]? = some entry' ∧ entry.Retains entry' ∧
    entry'.WellNumbered := by
  obtain ⟨entry', hentry', hcase⟩ :=
    perform_outcome crypto hfresh hentry hkept fun hop hrotatable => (hrotation hop hrotatable).1
  refine ⟨entry', hentry', ?_⟩
  rcases hcase with rfl | rfl | ⟨material, hop, hrotatable, -, rfl⟩
  · exact ⟨KeyEntry.retains_refl _, hnumbered⟩
  · exact ⟨KeyEntry.retains_deletedEntry _, hnumbered⟩
  · have hfits := (hrotation hop hrotatable).2
    exact ⟨KeyEntry.retains_rotatedEntry hnumbered hfits _ _, KeyEntry.wellNumbered_rotatedEntry hnumbered hfits _ _⟩

/-- One call that neither destroys the key nor gets past the checks of a rotation of it. -/
theorem perform_untouched (crypto : Crypto) {ks : SoftwareKeystore} {c : UseCall} (hfresh : FreshId ks c) {id : Uuid}
    {entry : KeyEntry} (hentry : ks.keys[id]? = some entry) (hkept : c.op.destroys? ≠ some id)
    (hrotation : c.op = .rotateKey id entry.keyMeta.tenantId → entry.keyMeta.status.canRotate = false) :
    ∃ entry', (perform crypto c.env c.op ks).2.keys[id]? = some entry' ∧
    (entry' = entry ∨ entry' = deletedEntry entry) := by
  have hnot : c.op = .rotateKey id entry.keyMeta.tenantId → entry.keyMeta.status.canRotate ≠ true := by
    intro hop
    rw [hrotation hop]
    exact Bool.false_ne_true
  obtain ⟨entry', hentry', hcase⟩ :=
    perform_outcome crypto hfresh hentry hkept fun hop hrotatable => absurd hrotatable (hnot hop)
  refine ⟨entry', hentry', ?_⟩
  rcases hcase with h | h | ⟨material, hop, hrotatable, -⟩
  · exact .inl h
  · exact .inr h
  · exact absurd hrotatable (hnot hop)

/-- A key stays of its specification. -/
theorem perform_spec (crypto : Crypto) {ks : SoftwareKeystore} {c : UseCall} (hfresh : FreshId ks c) {id : Uuid}
    {entry entry' : KeyEntry} (hentry : ks.keys[id]? = some entry)
    (hentry' : (perform crypto c.env c.op ks).2.keys[id]? = some entry') :
    entry'.keyMeta.spec = entry.keyMeta.spec := by
  have hstep := perform_entry crypto c.env c.op ks id
  generalize hop : c.op = op at hstep hentry'
  rw [hentry, hentry'] at hstep
  cases hstep with
  | generated _ hid => exact absurd (hfresh (by rw [hop]; rfl)) (by rw [hid, hentry]; simp)
  | imported _ hid => exact absurd (hfresh (by rw [hop]; rfl)) (by rw [hid, hentry]; simp)
  | _ => rfl

/-- A key that was not there before the call has its first version. -/
theorem perform_made (crypto : Crypto) (env : UseEnv) (op : BackendOp) {ks : SoftwareKeystore} {id : Uuid}
    {entry : KeyEntry} (hbefore : ks.keys[id]? = none) (hafter : (perform crypto env op ks).2.keys[id]? = some entry) :
    entry.keyMeta.version = 1 ∧ entry.versions = [] := by
  have hstep := perform_entry crypto env op ks id
  rw [hbefore, hafter] at hstep
  cases hstep with
  | generated => exact ⟨rfl, rfl⟩
  | imported => exact ⟨rfl, rfl⟩

theorem perform_wellNumbered (crypto : Crypto) {ks : SoftwareKeystore} {c : UseCall} (hnumbered : ks.WellNumbered)
    (hgen : RandomGeneration ks c) (hfits : VersionFits ks c) : (perform crypto c.env c.op ks).2.WellNumbered := by
  intro id entry' hentry'
  have hstep := perform_entry crypto c.env c.op ks id
  rw [hentry'] at hstep
  generalize hop : c.op = op at hstep
  generalize hbefore : ks.keys[id]? = before at hstep
  cases hstep with
  | kept => exact hnumbered id entry' hbefore
  | generated => exact KeyEntry.wellNumbered_of_made ⟨rfl, rfl⟩
  | imported => exact KeyEntry.wellNumbered_of_made ⟨rfl, rfl⟩
  | rotated => exact KeyEntry.wellNumbered_rotatedEntry (hnumbered id _ hbefore) (hfits _ _ _ hop hbefore) _ _
  | emptied hrotatable hfailed =>
    obtain ⟨material, hmade⟩ := (rotationMaterial_isOk_iff _ _).2 (hgen _ _ _ hop hbefore)
    rw [hfailed] at hmade
    cases hmade
  | deleted => exact (hnumbered id _ hbefore :)

/-! ## Ciphertexts -/

/-- What `encrypt` made of an entry, `decrypt` takes back with the same material. -/
theorem decryptWith_of_encryptWith {crypto : Crypto} (hcrypto : crypto.Decrypts) {env : UseEnv} {keyId : Uuid}
    {entry : KeyEntry} {plaintext : Bytes} {c : Ciphertext}
    (h : encryptWith crypto env keyId entry plaintext = .ok c) :
    c.version = entry.keyMeta.version ∧ decryptWith crypto keyId entry.keyMeta entry.material c = .ok plaintext := by
  unfold encryptWith at h
  unfold decryptWith
  cases hspec : entry.keyMeta.spec <;> simp only [hspec, reduceCtorEq] at h ⊢
  case aes256Gcm | hmacSha256 =>
    cases hkey : crypto.aesUnboundKey entry.material with
    | error e => simp [hkey] at h
    | ok _ =>
      simp only [hkey] at h ⊢
      split at h
      · cases h
      · rename_i ciphertext tag hseal
        cases h
        have hlength : (env.fillBytes 16).length = 16 := by simp [Env.fillBytes]
        refine ⟨rfl, ?_⟩
        simp [decryptAad, decryptNonce, hlength, hcrypto.aes hseal]
  case sm4 =>
    cases hkey : crypto.sm4Cipher entry.material with
    | error e => simp [hkey] at h
    | ok _ =>
      simp only [hkey] at h ⊢
      split at h
      · cases h
      · rename_i ciphertext tag hseal
        cases h
        refine ⟨rfl, ?_⟩
        simp [decryptAad, hcrypto.sm4 hseal]
  case sm2 =>
    cases hkey : crypto.sm2KeyPair entry.material with
    | error e => simp [hkey] at h
    | ok _ =>
      simp only [hkey] at h ⊢
      split at h
      · cases h
      · rename_i data hdata
        split at h
        · cases h
        · rename_i hlong
          cases h
          -- C1, C3 and C2 are put back together
          have hjoin : data.take 65 ++ (data.drop 65).take 32 ++ data.drop 97 = data := by
            rw [← List.take_add, List.take_append_drop]
          have hlengths : ¬ ((data.take 65).length ≠ 65 ∨ ((data.drop 65).take 32).length ≠ 32) := by
            simp only [List.length_take, List.length_drop]
            omega
          refine ⟨rfl, ?_⟩
          rw [if_neg hlengths, hjoin, hcrypto.sm2 hdata]

/-- Decryption looks at the tenant, the specification and the material of the version only. -/
theorem decryptWith_congr (crypto : Crypto) (keyId : Uuid) {m m' : KeyMeta} (htenant : m'.tenantId = m.tenantId)
    (hspec : m'.spec = m.spec) (material : Bytes) (c : Ciphertext) :
    decryptWith crypto keyId m' material c = decryptWith crypto keyId m material c := by
  unfold decryptWith
  rw [htenant, hspec]

theorem decrypt_of_owned (crypto : Crypto) {ks : SoftwareKeystore} {keyId : Uuid} {tenantId : String} {entry : KeyEntry}
    (hentry : ks.keys[keyId]? = some entry) (howned : entry.keyMeta.tenantId = tenantId)
    (hstatus : entry.keyMeta.status.canDecrypt = true) {c : Ciphertext} {material : Bytes}
    (hmaterial : entry.materialAt c.version = some material) :
    ks.decrypt crypto keyId c tenantId = decryptWith crypto keyId entry.keyMeta material c := by
  unfold decrypt
  simp [entryFor_of_owned hentry howned, bind, Except.bind, hstatus, hmaterial]

/-- A rotation that returns metadata has put new material in place. -/
theorem rotateKey_eq_ok {ks : SoftwareKeystore} {env : UseEnv} {keyId : Uuid} {tenantId : String} {entry : KeyEntry}
    {keyMeta : KeyMeta} (hentry : ks.keys[keyId]? = some entry)
    (h : (ks.rotateKey env.toEnv keyId tenantId).1 = .ok keyMeta) :
    ∃ material, entry.keyMeta.tenantId = tenantId ∧
      (ks.rotateKey env.toEnv keyId tenantId).2 = ks.put keyId (rotatedEntry entry env.now material) ∧
      rotatedMeta entry.keyMeta env.now = keyMeta := by
  by_cases hkey : entry.keyMeta.tenantId = tenantId ∧ entry.keyMeta.status.canRotate = true
  · rw [rotateKey_of_owned hentry hkey.1 hkey.2] at h ⊢
    cases hmade : rotationMaterial entry.keyMeta.spec env.toEnv with
    | error e => simp [hmade] at h
    | ok material =>
      simp only [hmade, Except.ok.injEq] at h
      exact ⟨material, hkey.1, rfl, h⟩
  · obtain ⟨-, e, he⟩ := @rotateKey_refused ks env keyId tenantId fun entry' hentry' howned => by
      rw [hentry] at hentry'
      cases hentry'
      simpa [howned] using hkey
    rw [he] at h
    cases h

/-! ## Runs -/

section

variable (crypto : Crypto)

/-- The keystore after a run. -/
def after (calls : List UseCall) : SoftwareKeystore := Machine.final (use crypto) new calls

/-- Nothing in the run loses data. -/
structure NoDataLoss (calls : List UseCall) : Prop where
  versions : ∀ before later, calls = before ++ later → ∀ id version tenantId material, version ≠ 0 →
    (∀ c ∈ later, c.op.destroys? ≠ some id) →
    (after crypto before).getKeyMaterialVersion id version tenantId = .ok material →
    (after crypto calls).getKeyMaterialVersion id version tenantId = .ok material
  rotations : ∀ before env id tenantId later, calls = before ++ ⟨env, .rotateKey id tenantId⟩ :: later →
    ∀ old rotated, (after crypto before).getKeyMetadata id = .ok old →
    ((after crypto before).rotateKey env.toEnv id tenantId).1 = .ok rotated →
    rotated.version.toNat = old.version.toNat + 1 ∧
      (after crypto (before ++ [⟨env, .rotateKey id tenantId⟩])).getKeyMetadata id = .ok rotated
  ciphertexts : ∀ before env id plaintext tenantId later,
    calls = before ++ ⟨env, .encrypt id plaintext tenantId⟩ :: later → (∀ c ∈ later, c.op.destroys? ≠ some id) →
    ∀ c, (after crypto before).encrypt crypto env id plaintext tenantId = .ok c →
    (after crypto calls).decrypt crypto id c tenantId = .ok plaintext

/-- The ids are fresh, and rotations are of generatable keys and find new material. -/
def InScope (ks : SoftwareKeystore) (c : UseCall) : Prop := FreshId ks c ∧ RandomGeneration ks c

variable {crypto}

theorem along_wellNumbered {ks : SoftwareKeystore} {h : History UseCall (Σ op : BackendOp, op.Reply)}
    {calls : List UseCall} (ha : Machine.Along (use crypto) (fun _ ks c => InScope ks c ∧ VersionFits ks c) h ks calls)
    (hnumbered : ks.WellNumbered) : (Machine.final (use crypto) ks calls).WellNumbered := by
  apply Machine.Along.inv (I := fun _ ks => WellNumbered ks) ?_ ha hnumbered
  intro _ ks c hks hc
  exact perform_wellNumbered crypto hks hc.1.2 hc.2

/-- A whole run, seen from a key that it does not destroy. -/
theorem run_retains {ks : SoftwareKeystore} {h : History UseCall (Σ op : BackendOp, op.Reply)} {calls : List UseCall}
    (ha : Machine.Along (use crypto) (fun _ ks c => InScope ks c ∧ VersionFits ks c) h ks calls)
    (hnumbered : ks.WellNumbered) {id : Uuid} {entry : KeyEntry} (hentry : ks.keys[id]? = some entry)
    (hkept : ∀ c ∈ calls, c.op.destroys? ≠ some id) :
    ∃ entry', (Machine.final (use crypto) ks calls).keys[id]? = some entry' ∧ entry.Retains entry' := by
  have hkeeps : Machine.Along (use crypto) (fun _ _ c => c.op.destroys? ≠ some id) h ks calls :=
    Machine.along_iff_forall.2 fun is₁ c is₂ heq => hkept c (by rw [heq]; simp)
  have hall : Machine.Along (use crypto)
      (fun _ ks c => (InScope ks c ∧ VersionFits ks c) ∧ c.op.destroys? ≠ some id ∧ ks.WellNumbered) h ks calls := by
    refine (ha.and hkeeps).mono_of_inv (I := fun _ ks => WellNumbered ks) ?_ ?_ hnumbered
    · intro _ ks c hks hc
      exact perform_wellNumbered crypto hks hc.1.1.2 hc.1.2
    · intro _ ks c hks hc
      exact ⟨hc.1, hc.2, hks⟩
  refine hall.exists_rel (f := fun ks => ks.keys[id]?) (R := KeyEntry.Retains) KeyEntry.retains_refl (fun _ _ _ =>
    .trans) ?_ hentry
  rintro _ ks c entry ⟨⟨⟨hfresh, hgen⟩, hfits⟩, hdestroys, hnumbered⟩ hentry
  obtain ⟨e, he, hstep, -⟩ := perform_keepsEntry crypto hfresh hentry (hnumbered id entry hentry) hdestroys
    fun hop _ => ⟨hgen id _ entry hop hentry, hfits id _ entry hop hentry⟩
  exact ⟨e, he, hstep⟩

/-- Nothing is lost in a run that rotates no key past the last version. -/
theorem noDataLoss_of_versionFits (hcrypto : crypto.Decrypts) {calls : List UseCall}
    (hscope : Machine.Along (use crypto) (fun _ ks c => InScope ks c) [] new calls)
    (hfits : Machine.Along (use crypto) (fun _ ks c => VersionFits ks c) [] new calls) : NoDataLoss crypto calls := by
  have ha := hscope.and hfits
  have hat : ∀ before later, calls = before ++ later → (after crypto before).WellNumbered ∧
      ∃ h, Machine.Along (use crypto) (fun _ ks c => InScope ks c ∧ VersionFits ks c) h (after crypto before)
      later := by
    rintro before later rfl
    rw [Machine.along_append] at ha
    exact ⟨along_wellNumbered ha.1 wellNumbered_new, _, ha.2⟩
  have hfinal : ∀ before later, calls = before ++ later →
      after crypto calls = Machine.final (use crypto) (after crypto before) later := by
    rintro before later rfl
    exact Machine.final_append (use crypto) new before later
  refine ⟨?_, ?_, ?_⟩
  · intro before later hcalls id version tenantId material hversion hkept h
    obtain ⟨hnumbered, _, hlater⟩ := hat before later hcalls
    obtain ⟨entry, hentry, howned, hmaterial⟩ := getKeyMaterialVersion_eq_ok_iff.1 h
    rw [KeyEntry.requested_of_ne_zero hversion] at hmaterial
    obtain ⟨entry', hentry', hretains⟩ := run_retains hlater hnumbered hentry hkept
    rw [hfinal before later hcalls, getKeyMaterialVersion_eq_ok_iff]
    refine ⟨entry', hentry', hretains.tenantId.trans howned, ?_⟩
    rw [KeyEntry.requested_of_ne_zero hversion]
    exact hretains.materialAt _ _ hmaterial
  · intro before env id tenantId later hcalls old rotated hold hrotated
    obtain ⟨-, _, hlater⟩ := hat before _ hcalls
    obtain ⟨entry, hentry, rfl⟩ := getKeyMetadata_eq_ok_iff.1 hold
    obtain ⟨material, howned, hmade, rfl⟩ := rotateKey_eq_ok hentry hrotated
    refine ⟨toNat_version_rotatedMeta (hlater.1.2 _ _ _ rfl hentry) env.now, ?_⟩
    rw [after, Machine.final_append, getKeyMetadata_eq_ok_iff]
    refine ⟨rotatedEntry entry env.now material, ?_, rfl⟩
    change ((after crypto before).rotateKey env.toEnv id tenantId).2.keys[id]? = _
    rw [hmade, keys_put, if_pos rfl]
  · intro before env id plaintext tenantId later hcalls hkept c hc
    obtain ⟨hnumbered, _, hlater⟩ := hat before _ hcalls
    obtain ⟨entry, hentry, rfl, hstatus, hsealed⟩ := encrypt_eq_ok_iff.1 hc
    obtain ⟨hversion, hdecrypt⟩ := decryptWith_of_encryptWith hcrypto hsealed
    obtain ⟨entry', hentry', hretains⟩ :=
      run_retains hlater hnumbered hentry (by simpa [BackendOp.destroys?] using hkept)
    have hmaterial := hretains.materialAt _ _ entry.materialAt_current
    rw [hfinal before _ hcalls, decrypt_of_owned crypto hentry' hretains.tenantId
      (hretains.canDecrypt (by rw [hstatus]; rfl)) (hversion ▸ hmaterial),
      decryptWith_congr crypto id hretains.tenantId hretains.spec, hdecrypt]

end

/-! ## A run that is too long -/

def sampleUseEnv (byte : UInt8) : UseEnv :=
  { uuid := 1, now := 0, random := fun _ => byte, sm2KeyPair := .error "no entropy", seed := 0, rank := fun _ => 0 }

/-- An AES key made of zeros. -/
def generateCall : UseCall := ⟨sampleUseEnv 0, .generateKey .aes256Gcm "kek" "tenant-1"⟩

/-- Its rotation to sevens. -/
def rotateCall : UseCall := ⟨sampleUseEnv 7, .rotateKey 1 "tenant-1"⟩

def rotatedRun (n : ℕ) : List UseCall := generateCall :: List.replicate n rotateCall

/-- The key after `n` rotations. -/
def RotatedTimes (n : ℕ) (ks : SoftwareKeystore) : Prop :=
  ∃ entry, ks.keys[(1 : Uuid)]? = some entry ∧ entry.keyMeta.tenantId = "tenant-1" ∧
    entry.keyMeta.spec = .aes256Gcm ∧ entry.keyMeta.status = .active ∧ entry.keyMeta.version = .ofNat (n + 1) ∧
    entry.material = List.replicate 32 (if n = 0 then 0 else 7)

section

variable (crypto : Crypto)

theorem rotatedTimes_zero : RotatedTimes 0 (after crypto (rotatedRun 0)) :=
  ⟨_, rfl, rfl, rfl, rfl, rfl, rfl⟩

theorem rotatedTimes_succ {n : ℕ} {ks : SoftwareKeystore} (h : RotatedTimes n ks) :
    RotatedTimes (n + 1) (use crypto ks rotateCall).2 := by
  obtain ⟨entry, hentry, howned, hspec, hstatus, hversion, -⟩ := h
  have hmade : rotationMaterial entry.keyMeta.spec (sampleUseEnv 7).toEnv = .ok (List.replicate 32 7) := by
    rw [hspec]
    rfl
  have hrotated := @rotateKey_of_owned ks (sampleUseEnv 7) 1 _ _ hentry howned (by rw [hstatus]; rfl)
  rw [hmade] at hrotated
  have hkeys : (use crypto ks rotateCall).2.keys[(1 : Uuid)]? =
      some (rotatedEntry entry (sampleUseEnv 7).now (List.replicate 32 7)) := by
    change (ks.rotateKey (sampleUseEnv 7).toEnv 1 "tenant-1").2.keys[(1 : Uuid)]? = _
    rw [hrotated, keys_put, if_pos rfl]
  refine ⟨_, hkeys, howned, hspec, rfl, ?_, rfl⟩
  change entry.keyMeta.version + 1 = _
  rw [hversion, UInt32.ofNat_add (n + 1) 1]
  rfl

theorem rotatedTimes_rotatedRun (n : ℕ) : RotatedTimes n (after crypto (rotatedRun n)) := by
  induction n with
  | zero => exact rotatedTimes_zero crypto
  | succ n ih =>
    have hsplit : rotatedRun (n + 1) = rotatedRun n ++ [rotateCall] := by
      rw [rotatedRun, List.replicate_succ', rotatedRun, List.cons_append]
    rw [after, hsplit, Machine.final_append]
    exact rotatedTimes_succ crypto ih

theorem inScope_rotateCall {n : ℕ} {ks : SoftwareKeystore} (h : RotatedTimes n ks) : ks.InScope rotateCall := by
  refine ⟨nofun, ?_⟩
  rintro keyId tenantId entry ⟨⟩ hentry
  obtain ⟨entry', hentry', -, hspec, -⟩ := h
  rw [hentry] at hentry'
  cases hentry'
  rw [hspec]
  exact ⟨rfl, nofun⟩

theorem versionFits_rotateCall {n : ℕ} {ks : SoftwareKeystore} (h : RotatedTimes n ks) (hn : n + 2 < 2 ^ 32) :
    VersionFits ks rotateCall := by
  rintro keyId tenantId entry ⟨⟩ hentry
  obtain ⟨entry', hentry', -, -, -, hversion, -⟩ := h
  rw [hentry] at hentry'
  cases hentry'
  have hsize : n + 1 < UInt32.size := Nat.lt_trans (Nat.lt_succ_self _) hn
  rw [hversion, UInt32.toNat_ofNat_of_lt' hsize]
  exact hn

theorem along_replicate_rotateCall (m : ℕ) {n : ℕ} {h : History UseCall (Σ op : BackendOp, op.Reply)}
    {ks : SoftwareKeystore} (hks : RotatedTimes n ks) :
    Machine.Along (use crypto) (fun _ ks c => InScope ks c) h ks (List.replicate m rotateCall) := by
  induction m generalizing n h ks with
  | zero => trivial
  | succ m ih => exact ⟨inScope_rotateCall hks, ih (rotatedTimes_succ crypto hks)⟩

theorem along_rotatedRun (n : ℕ) :
    Machine.Along (use crypto) (fun _ ks c => InScope ks c) [] new (rotatedRun n) := by
  have hfirst : new.InScope generateCall := ⟨fun _ => by simp [new], by rintro _ _ _ ⟨⟩⟩
  exact ⟨hfirst, along_replicate_rotateCall crypto n (rotatedTimes_zero crypto)⟩

end

theorem rotatedRun_eq (n : ℕ) : rotatedRun n = rotatedRun 0 ++ List.replicate n rotateCall := rfl

/-- Something encrypted under the zeros. -/
def encryptCall : UseCall := ⟨sampleUseEnv 3, .encrypt 1 [1, 2, 3] "tenant-1"⟩

/-- A short run loses nothing, what was encrypted before its rotations included. -/
theorem noDataLoss_encryptedRun : NoDataLoss .plain [generateCall, encryptCall, rotateCall, rotateCall] := by
  have hgenerated : RotatedTimes 0 (after .plain (rotatedRun 0)) := rotatedTimes_zero .plain
  have hrotated : RotatedTimes 1 (after .plain (rotatedRun 1)) := rotatedTimes_rotatedRun .plain 1
  have hfirst : new.InScope generateCall := ⟨fun _ => by simp [new], by rintro _ _ _ ⟨⟩⟩
  have hencrypted : (after .plain (rotatedRun 0)).InScope encryptCall := ⟨by rintro ⟨⟩, by rintro _ _ _ ⟨⟩⟩
  refine noDataLoss_of_versionFits Crypto.plain_decrypts ?_ ⟨by rintro _ _ _ ⟨⟩, by rintro _ _ _ ⟨⟩, ?_, ?_, trivial⟩
  · exact ⟨hfirst, hencrypted, along_replicate_rotateCall _ 2 hgenerated⟩
  · exact versionFits_rotateCall hgenerated (by decide)
  · exact versionFits_rotateCall hrotated (by decide)

/-- After 2^32 rotations the version is 1 again, and stands for other material than at first. -/
theorem not_noDataLoss_rotatedRun :
    Machine.Along (use .plain) (fun _ ks c => InScope ks c) [] new (rotatedRun (2 ^ 32)) ∧
      ¬ NoDataLoss .plain (rotatedRun (2 ^ 32)) := by
  refine ⟨along_rotatedRun _ _, fun h => ?_⟩
  obtain ⟨first, hfirst, hfirstOwned, -, -, hfirstVersion, hzeros⟩ := rotatedTimes_zero .plain
  obtain ⟨last, hlast, -, -, -, hlastVersion, hsevens⟩ := rotatedTimes_rotatedRun .plain (2 ^ 32)
  have hpositive : first.keyMeta.version ≠ 0 := by
    rw [hfirstVersion]
    decide
  have hwrapped : first.keyMeta.version = last.keyMeta.version := by
    rw [hfirstVersion, hlastVersion]
    decide
  have hbefore : (after .plain (rotatedRun 0)).getKeyMaterialVersion 1 first.keyMeta.version "tenant-1" =
      .ok (List.replicate 32 0) := by
    rw [getKeyMaterialVersion_eq_ok_iff]
    refine ⟨first, hfirst, hfirstOwned, ?_⟩
    rw [KeyEntry.requested_of_ne_zero hpositive, KeyEntry.materialAt_current, hzeros, if_pos rfl]
  have hkept : ∀ c ∈ List.replicate (2 ^ 32) rotateCall, c.op.destroys? ≠ some 1 := by
    intro c hc
    rw [List.eq_of_mem_replicate hc]
    exact nofun
  have hlater := h.versions (rotatedRun 0) _ (rotatedRun_eq _) _ _ _ _ hpositive hkept hbefore
  obtain ⟨entry, hentry, -, hmaterial⟩ := getKeyMaterialVersion_eq_ok_iff.1 hlater
  rw [hlast, Option.some.injEq] at hentry
  rw [KeyEntry.requested_of_ne_zero hpositive, ← hentry, hwrapped, KeyEntry.materialAt_current, hsevens,
    if_neg (by decide)] at hmaterial
  simp at hmaterial

end SoftwareKeystore

end GmKms.Keystore.Software
