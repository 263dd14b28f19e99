import GmKms.Api.Calls
import GmKms.Keystore.Retention
/-!
# Signatures and MACs over a run

`verify` and `hmac_verify` use the current material of a key, whatever version was
recorded. So what was signed is accepted until the key is rotated or destroyed, also
after it has been marked for deletion, and no longer.
-/

namespace GmKms.Api

open Lib Keystore Service

/-- What was signed under a key is accepted under it. -/
structure ServiceCrypto.Verifies (crypto : ServiceCrypto) : Prop where
  ed25519 : ∀ key data, crypto.ed25519Verify key data (crypto.ed25519Sign key data) = true
  sm2 : ∀ {seed : ℕ} {key data signature : Bytes}, crypto.sm2Sign seed key data = .ok signature →
    crypto.sm2Verifier key = .ok () ∧ crypto.sm2Verify key data signature = true
  sm3Hmac : ∀ {key data mac : Bytes}, crypto.sm3Hmac key data = .ok mac → crypto.sm3HmacVerify key data mac = .ok true

/-- A new key gets an id that is not in use. -/
def FreshId (ks : Software.SoftwareKeystore) (c : ServiceCall) : Prop :=
  ∀ u, c.change? = some u → Software.FreshId ks u

/-- The call does not destroy the key. -/
def KeepsKey (id : Uuid) (c : ServiceCall) : Prop := ∀ u, c.change? = some u → u.op.destroys? ≠ some id

/-- The call does not rotate the key: no rotation of it passes the checks of the owner and the status. -/
def RotatesNot (id : Uuid) (ks : Software.SoftwareKeystore) (c : ServiceCall) : Prop :=
  ∀ u tenantId entry, c.change? = some u → u.op = .rotateKey id tenantId → ks.keys[id]? = some entry →
    entry.keyMeta.tenantId = tenantId → entry.keyMeta.status.canRotate = false

section

variable (crypto : ServiceCrypto)

/-- From here on the key is neither rotated nor destroyed. -/
def Untouched (id : Uuid) (ks : Software.SoftwareKeystore) (calls : List ServiceCall) : Prop :=
  Machine.Along (serve crypto) (fun _ ks c => KeepsKey id c ∧ RotatesNot id ks c) [] ks calls

/-- Whatever a call of the run signed is accepted at every later point until the key is rotated or
destroyed, when the quota admits the request. -/
structure AcceptedUntilRotation (calls : List ServiceCall) : Prop where
  signatures : ∀ before env id tenantId data mid rest sig,
    calls = before ++ ⟨env, .key id tenantId (.sign data)⟩ :: mid ++ rest →
    ((KeyOperation.sign data).perform crypto env id tenantId (served crypto before)).1 = .ok sig →
    Untouched crypto id (served crypto before) mid → ∀ env' : ServiceEnv, env'.recordRequest = none →
    ((KeyOperation.verify data sig).perform crypto env' id tenantId
      (served crypto (before ++ ⟨env, .key id tenantId (.sign data)⟩ :: mid))).1 = .ok true
  macs : ∀ before env id tenantId data aad mid rest mac version,
    calls = before ++ ⟨env, .key id tenantId (.hmac data aad)⟩ :: mid ++ rest →
    ((KeyOperation.hmac data aad).perform crypto env id tenantId (served crypto before)).1 = .ok (mac, version) →
    Untouched crypto id (served crypto before) mid → ∀ env' : ServiceEnv, env'.recordRequest = none →
    ((KeyOperation.hmacVerify data aad mac).perform crypto env' id tenantId
      (served crypto (before ++ ⟨env, .key id tenantId (.hmac data aad)⟩ :: mid))).1 = .ok true

end

/-! ## Material that stays -/

/-- The tenant, the specification and the current material are the same. -/
def SameMaterial (entry entry' : Software.KeyEntry) : Prop :=
  entry'.keyMeta.tenantId = entry.keyMeta.tenantId ∧ entry'.keyMeta.spec = entry.keyMeta.spec ∧
    entry'.material = entry.material

section

variable {crypto : ServiceCrypto} {ks : Software.SoftwareKeystore} {id : Uuid}

theorem serve_sameMaterial {c : ServiceCall} (hfresh : FreshId ks c) (hkept : KeepsKey id c)
    (hrotates : RotatesNot id ks c)
    {entry : Software.KeyEntry} (hentry : ks.keys[id]? = some entry) :
    ∃ entry', (serve crypto ks c).2.keys[id]? = some entry' ∧ SameMaterial entry entry' := by
  rcases serve_state crypto c with hsame | ⟨u, hu, hchanged⟩
  · exact ⟨entry, by rw [hsame, hentry], rfl, rfl, rfl⟩
  · rw [hchanged]
    obtain ⟨entry', hentry', hcase⟩ := Software.SoftwareKeystore.perform_untouched crypto.toCrypto (hfresh u hu) hentry
      (hkept u hu) fun hop => hrotates u _ entry hu hop hentry rfl
    refine ⟨entry', hentry', ?_⟩
    rcases hcase with rfl | rfl
    · exact ⟨rfl, rfl, rfl⟩
    · exact ⟨rfl, rfl, rfl⟩

theorem along_sameMaterial {h h' : History ServiceCall (Σ op : ServiceOp, Except ApiAbort op.Value)}
    {calls : List ServiceCall} (hfresh : Machine.Along (serve crypto) (fun _ ks c => FreshId ks c) h ks calls)
    (huntouched : Machine.Along (serve crypto) (fun _ ks c => KeepsKey id c ∧ RotatesNot id ks c) h' ks calls)
    {entry : Software.KeyEntry} (hentry : ks.keys[id]? = some entry) :
    ∃ entry', (Machine.final (serve crypto) ks calls).keys[id]? = some entry' ∧ SameMaterial entry entry' := by
  have huntouched' : Machine.Along (serve crypto) (fun _ ks c => KeepsKey id c ∧ RotatesNot id ks c) h ks calls :=
    Machine.along_iff_forall.2 (Machine.along_iff_forall.1 huntouched)
  refine (hfresh.and huntouched').exists_rel (f := fun ks => ks.keys[id]?) (R := SameMaterial) (fun _ =>
    ⟨rfl, rfl, rfl⟩) (fun _ _ _ h₁ h₂ => ?_) ?_ hentry
  · exact ⟨h₂.1.trans h₁.1, h₂.2.1.trans h₁.2.1, h₂.2.2.trans h₁.2.2⟩
  · rintro _ ks c entry ⟨hnew, hkeeps, hrotates⟩ hfound
    exact serve_sameMaterial hnew hkeeps hrotates hfound

/-- What `sign` made of an entry, `verify` accepts with the same material. -/
theorem verifyWith_of_signWith (hcrypto : crypto.Verifies) {env : Software.UseEnv} {entry entry' : Software.KeyEntry}
    (hsame : SameMaterial entry entry') {data : Bytes} {sig : Signature}
    (h : Software.SoftwareKeystore.signWith crypto.toCrypto env id entry data = .ok sig) :
    Software.SoftwareKeystore.verifyWith crypto.toCrypto entry' data sig = .ok true := by
  obtain ⟨-, hspec, hmaterial⟩ := hsame
  unfold Software.SoftwareKeystore.signWith at h
  unfold Software.SoftwareKeystore.verifyWith
  rw [hspec, hmaterial]
  cases hcase : entry.keyMeta.spec <;> simp only [hcase, reduceCtorEq] at h ⊢
  case ed25519 =>
    cases hpair : crypto.ed25519KeyPair entry.material with
    | error e => simp [hpair] at h
    | ok _ =>
      simp only [hpair, Except.ok.injEq] at h ⊢
      subst h
      exact hcrypto.ed25519 _ _
  case sm2 =>
    cases hpair : crypto.sm2KeyPair entry.material with
    | error e => simp [hpair] at h
    | ok _ =>
      cases hsigned : crypto.sm2Sign env.seed entry.material data with
      | error e => simp [hpair, hsigned] at h
      | ok signature =>
        simp only [hpair, hsigned, Except.ok.injEq] at h
        subst h
        obtain ⟨hverifier, hverified⟩ := hcrypto.sm2 hsigned
        simp only [hverifier, hverified]

/-- What was issued is accepted until the key is rotated or destroyed. -/
theorem acceptedUntilRotation_of_verifies (hcrypto : crypto.Verifies) {calls : List ServiceCall}
    (hfresh : Machine.Along (serve crypto) (fun _ ks c => FreshId ks c) [] .new calls) :
    AcceptedUntilRotation crypto calls := by
  -- after a call that only reads, the rest of the run starts where the call did
  have hlater : ∀ before env id tenantId op mid rest,
      calls = before ++ ⟨env, .key id tenantId op⟩ :: mid ++ rest →
      (ServiceOp.key id tenantId op).change? = none → Untouched crypto id (served crypto before) mid →
      ∀ entry, (served crypto before).keys[id]? = some entry → ∃ entry',
        (served crypto (before ++ ⟨env, .key id tenantId op⟩ :: mid)).keys[id]? = some entry' ∧
          SameMaterial entry entry' := by
    rintro before env id tenantId op mid rest rfl hop huntouched entry hentry
    have hread : (serve crypto (served crypto before) ⟨env, .key id tenantId op⟩).2 = served crypto before :=
      perform_of_no_change crypto op hop
    rw [List.append_assoc, Machine.along_append] at hfresh
    have hmid := (Machine.along_append.1 hfresh.2.2).1
    have hfinal : served crypto (before ++ ⟨env, .key id tenantId op⟩ :: mid) =
        Machine.final (serve crypto) (serve crypto (served crypto before) ⟨env, .key id tenantId op⟩).2 mid :=
      Machine.final_append (serve crypto) .new before _
    rw [hfinal, hread]
    change Machine.Along _ _ _ (serve crypto (served crypto before) ⟨env, .key id tenantId op⟩).2 mid at hmid
    rw [hread] at hmid
    exact along_sameMaterial hmid huntouched hentry
  refine ⟨?_, ?_⟩
  · intro before env id tenantId data mid rest sig hcalls hsign huntouched env' hadmitted
    obtain ⟨entry, hentry, howned, -, hsigned⟩ := CryptoService.sign_eq_ok hsign
    obtain ⟨entry', hentry', hsame⟩ := hlater before env id tenantId _ mid rest hcalls rfl huntouched entry hentry
    have hverified := verifyWith_of_signWith hcrypto hsame hsigned
    refine (CryptoService.verify_of_owned hadmitted hentry' (hsame.1.trans howned) data sig).trans ?_
    rw [hverified]
    rfl
  · intro before env id tenantId data aad mid rest mac version hcalls hmac huntouched env' hadmitted
    obtain ⟨entry, hentry, howned, hspec, hcomputed, -⟩ := CryptoService.hmac_eq_ok hmac
    obtain ⟨entry', hentry', hsame⟩ := hlater before env id tenantId _ mid rest hcalls rfl huntouched entry hentry
    refine CryptoService.hmacVerify_of_owned hadmitted hentry' (hsame.1.trans howned) (hsame.2.1.trans hspec) ?_
    rw [hsame.2.2]
    exact hcrypto.sm3Hmac hcomputed

end

/-! ## After a rotation -/

/-- Primitives whose signatures are the key and the data. -/
def ServiceCrypto.transparent : ServiceCrypto :=
  { ServiceCrypto.plain with
    ed25519Sign := fun key data => key ++ data
    ed25519Verify := fun key data signature => signature = key ++ data }

theorem ServiceCrypto.transparent_verifies : ServiceCrypto.transparent.Verifies where
  ed25519 key data := by simp [transparent]
  sm2 _ := ⟨rfl, rfl⟩
  sm3Hmac h := by
    cases h
    simp [transparent, plain]

/-- A signing key is made and used, and then called with `op`. -/
def signedRun (op : KeyOperation) : List ServiceCall :=
  [⟨sampleServiceEnv 7, .createKey .ed25519 "signer" "tenant-1"⟩, ⟨sampleServiceEnv 7, .key 1 "tenant-1" (.sign [5])⟩,
    ⟨sampleServiceEnv 9, .key 1 "tenant-1" op⟩]

/-- Its signature: the key's sevens and the data. -/
def signedSignature : Signature := { keyId := 1, version := 1, signature := List.replicate 32 7 ++ [5] }

theorem along_freshId_signedRun (op : KeyOperation) :
    Machine.Along (serve .transparent) (fun _ ks c => FreshId ks c) [] .new (signedRun op) := by
  have hcreated : FreshId .new ⟨sampleServiceEnv 7, .createKey .ed25519 "signer" "tenant-1"⟩ := by
    rintro u ⟨⟩ -
    rfl
  have hkey : ∀ ks env op, FreshId ks ⟨env, .key 1 "tenant-1" op⟩ := by
    intro ks env op u hu hcreates
    have hnone := creates_key env 1 "tenant-1" op
    rw [ServiceCall.creates, hu, Option.any_some, hcreates] at hnone
    cases hnone
  exact ⟨hcreated, hkey _ _ _, hkey _ _ _, trivial⟩

theorem acceptedUntilRotation_signedRun : AcceptedUntilRotation .transparent (signedRun .deleteKey) :=
  acceptedUntilRotation_of_verifies ServiceCrypto.transparent_verifies (along_freshId_signedRun .deleteKey)

/-- After the rotation the signature is refused, though its version is in the history. -/
theorem not_accepted_signedRun : ServiceCrypto.transparent.Verifies ∧
    Machine.Along (serve .transparent) (fun _ ks c => FreshId ks c) [] .new (signedRun .rotateKey) ∧
    ((KeyOperation.sign [5]).perform .transparent (sampleServiceEnv 7) 1 "tenant-1"
      (served .transparent ((signedRun .rotateKey).take 1))).1 = .ok signedSignature ∧
    ((KeyOperation.verify [5] signedSignature).perform .transparent (sampleServiceEnv 7) 1 "tenant-1"
      (served .transparent (signedRun .rotateKey))).1 = .ok false ∧
    (served .transparent (signedRun .rotateKey)).getKeyMaterialVersion 1 1 "tenant-1" = .ok (List.replicate 32 7) :=
  ⟨ServiceCrypto.transparent_verifies, along_freshId_signedRun _, rfl, by decide +kernel, by decide +kernel⟩

end GmKms.Api
