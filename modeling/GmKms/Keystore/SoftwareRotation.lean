import GmKms.Keystore.Software
/-!
# Rotation in the software keystore

`rotate_key` archives the current material before it knows whether it can
produce new material. This module says when a failed rotation nevertheless
leaves the keystore as it was.
-/

namespace GmKms.Keystore.Software

open Lib

namespace SoftwareKeystore

/-- A rotation that returns an error leaves the keystore as it was. -/
def AllOrNothing (ks : SoftwareKeystore) : Call → Prop
  | .rotateKey env keyId tenantId =>
    ∀ e, (ks.rotateKey env keyId tenantId).1 = .error (.error e) → (ks.rotateKey env keyId tenantId).2 = ks
  | _ => True

/-- New material can be generated for a specification, `Sm2KeyPair::generate`
delivering a scalar in range when it is asked. -/
def CanGenerate (spec : KeySpec) (env : Env) : Prop :=
  spec.isGeneratable = true ∧
    (spec = .sm2 → ∃ bytes, env.sm2KeyPair = .ok bytes ∧ sm2ScalarInRange bytes = .ok ())

/-- A rotation of a key that the tenant owns and that may be rotated finds new material for it. -/
def RotationCanGenerate (ks : SoftwareKeystore) : Call → Prop
  | .rotateKey env keyId tenantId =>
    ∀ entry, ks.keys[keyId]? = some entry → entry.keyMeta.tenantId = tenantId →
      entry.keyMeta.status.canRotate = true → CanGenerate entry.keyMeta.spec env
  | _ => True

theorem generateSm2Key_isOk_iff (env : Env) :
    (∃ bytes, generateSm2Key env = .ok bytes) ↔
      ∃ bytes, env.sm2KeyPair = .ok bytes ∧ sm2ScalarInRange bytes = .ok () := by
  unfold generateSm2Key
  cases env.sm2KeyPair with
  | error e => simp
  | ok bytes => cases hrange : sm2ScalarInRange bytes <;> simp [hrange]

theorem rotationMaterial_isOk_iff (spec : KeySpec) (env : Env) :
    (∃ bytes, rotationMaterial spec env = .ok bytes) ↔ CanGenerate spec env := by
  cases spec <;> simp [rotationMaterial, CanGenerate, KeySpec.isGeneratable, generateSm2Key_isOk_iff]

/-- Generation fails with an error, never with a panic. -/
theorem rotationMaterial_error {spec : KeySpec} {env : Env} {a : Abort} (h : rotationMaterial spec env = .error a) :
    ∃ e, a = .error e := by
  cases spec <;> simp only [rotationMaterial, reduceCtorEq, Except.error.injEq] at h
  case sm2 =>
    unfold generateSm2Key at h
    cases hpair : env.sm2KeyPair with
    | error e => simp only [hpair, Except.error.injEq] at h; exact ⟨_, h.symm⟩
    | ok bytes =>
      cases hrange : sm2ScalarInRange bytes with
      | error e => simp only [hpair, hrange, Except.error.injEq] at h; exact ⟨_, h.symm⟩
      | ok _ => simp [hpair, hrange] at h
  all_goals exact ⟨_, h.symm⟩

theorem put_archive_ne {ks : SoftwareKeystore} {keyId : Uuid} {entry : KeyEntry} (h : ks.keys[keyId]? = some entry) :
    ks.put keyId (archive entry) ≠ ks := by
  intro heq
  have hlen : (archive entry).versions.length = entry.versions.length := by
    have := keys_put ks keyId keyId (archive entry)
    rw [heq, h, if_pos rfl] at this
    rw [← Option.some.inj this]
  simp [archive] at hlen

theorem verifyTenant_eq_ok_iff {ks : SoftwareKeystore} {keyId : Uuid} {tenantId : String} {entry : KeyEntry}
    (h : ks.keys[keyId]? = some entry) : ks.verifyTenant keyId tenantId = .ok () ↔
      entry.keyMeta.tenantId = tenantId := by
  simp [verifyTenant, h]

/-- Every way `rotate_key` ends. -/
inductive RotateStep (ks : SoftwareKeystore) (env : Env) (keyId : Uuid) (tenantId : String) :
    Except Abort KeyMeta × SoftwareKeystore → Prop where
  | refused (a : Abort) (why : ∀ entry, ks.keys[keyId]? = some entry → entry.keyMeta.tenantId = tenantId →
      entry.keyMeta.status.canRotate = false) : RotateStep ks env keyId tenantId (.error a, ks)
  | emptied (entry : KeyEntry) (e : Error) (present : ks.keys[keyId]? = some entry)
      (owned : entry.keyMeta.tenantId = tenantId) (rotatable : entry.keyMeta.status.canRotate = true)
      (failed : rotationMaterial entry.keyMeta.spec env = .error (.error e)) :
      RotateStep ks env keyId tenantId (.error (.error e), ks.put keyId (archive entry))
  | rotated (entry : KeyEntry) (material : Bytes) (keyMeta : KeyMeta) (ks' : SoftwareKeystore)
      (present : ks.keys[keyId]? = some entry) (generated : rotationMaterial entry.keyMeta.spec env = .ok material) :
      RotateStep ks env keyId tenantId (.ok keyMeta, ks')

theorem rotate_step (ks : SoftwareKeystore) (env : Env) (keyId : Uuid) (tenantId : String) :
    RotateStep ks env keyId tenantId (ks.rotateKey env keyId tenantId) := by
  unfold rotateKey
  cases hentry : ks.keys[keyId]? with
  | none =>
    simp only [verifyTenant, hentry]
    exact .refused _ (by simp [hentry])
  | some entry =>
    by_cases howned : entry.keyMeta.tenantId = tenantId
    · rw [(verifyTenant_eq_ok_iff hentry).2 howned]
      dsimp only
      split
      · rename_i hstatus
        refine .refused _ fun entry' hentry' _ => ?_
        rw [hentry] at hentry'
        cases hentry'
        simpa using hstatus
      · rename_i hstatus
        cases hmaterial : rotationMaterial (archive entry).keyMeta.spec env with
        | error a =>
          obtain ⟨e, rfl⟩ := rotationMaterial_error hmaterial
          exact .emptied entry e hentry howned (by simpa using hstatus) hmaterial
        | ok material => exact .rotated entry material _ _ hentry hmaterial
    · simp only [verifyTenant, hentry, howned, ne_eq, not_false_eq_true, if_true]
      refine .refused _ fun entry' hentry' howned' => ?_
      rw [hentry] at hentry'
      cases hentry'
      exact absurd howned' howned

theorem allOrNothing_iff (ks : SoftwareKeystore) (c : Call) : AllOrNothing ks c ↔ RotationCanGenerate ks c := by
  cases c with
  | rotateKey env keyId tenantId =>
    simp only [AllOrNothing, RotationCanGenerate]
    have hstep := rotate_step ks env keyId tenantId
    generalize ks.rotateKey env keyId tenantId = out at hstep
    cases hstep with
    | refused a why =>
      refine ⟨fun _ entry hentry howned hstatus => ?_, fun _ _ _ => rfl⟩
      rw [why entry hentry howned] at hstatus
      cases hstatus
    | emptied entry e present owned rotatable failed =>
      refine ⟨fun h => absurd (h e rfl) (put_archive_ne present), fun h => ?_⟩
      obtain ⟨bytes, hok⟩ := (rotationMaterial_isOk_iff _ _).2 (h entry present owned rotatable)
      rw [failed] at hok
      cases hok
    | rotated entry material keyMeta ks' present generated =>
      refine ⟨fun _ entry' hentry' _ _ => ?_, fun _ e he => by cases he⟩
      rw [present] at hentry'
      cases hentry'
      exact (rotationMaterial_isOk_iff _ _).1 ⟨material, generated⟩
  | _ => exact Iff.rfl

/-- In every run, failed rotations leave the keystore alone exactly when every
rotation of a key that passes the status check can generate its material. -/
theorem rotations_all_or_nothing_iff (calls : List Call) :
    Machine.Along call (fun _ ks c => AllOrNothing ks c) [] new calls ↔
      Machine.Along call (fun _ ks c => RotationCanGenerate ks c) [] new calls :=
  Machine.along_congr fun _ ks c => allOrNothing_iff ks c

def sampleEnv : Env := { uuid := 1, now := 0, random := fun _ => 0, sm2KeyPair := .error "no entropy" }

/-- The keystore after a P-256 key has been imported as key 1. -/
def importedP256 : SoftwareKeystore :=
  Machine.final call new [.importKeyMaterial sampleEnv .ecdsaP256 "signer" "tenant-1" (List.replicate 32 7)]

/-- The rotation is refused, and the key has lost its material. -/
theorem not_all_or_nothing_importedP256 :
    ¬ AllOrNothing importedP256 (.rotateKey sampleEnv 1 "tenant-1") ∧
      ((importedP256.rotateKey sampleEnv 1 "tenant-1").2.keys[(1 : Uuid)]?).map (·.material) = some [] := by
  refine ⟨fun h => ?_, by decide +kernel⟩
  have hsame := h _ (by rfl)
  have hkept : (importedP256.keys[(1 : Uuid)]?).map (·.material) = some (List.replicate 32 7) := by decide +kernel
  have hlost : ((importedP256.rotateKey sampleEnv 1 "tenant-1").2.keys[(1 : Uuid)]?).map (·.material) = some [] := by
    decide +kernel
  rw [hsame, hkept] at hlost
  simp at hlost

end SoftwareKeystore

end GmKms.Keystore.Software
