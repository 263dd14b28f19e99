import GmKms.Api.Calls
import GmKms.Api.Channels
import GmKms.Keystore.Retention
/-!
# Agreement of the channels

For every operation the exact condition under which the two handlers agree on
corresponding requests. Reading a key, signing, verifying and both HMAC operations always
agree; the others come apart where only one channel checks or counts.
-/

namespace GmKms.Api

open Lib Keystore Service

namespace RequestPair

variable {F : Type} (srv : Server F) (caller : Caller)

/-- The role or the policy refuses the request, on both channels. -/
def Refused (required : Permission) (action resourceId tenantId : String) : Prop :=
  caller.role.satisfies required = false ∨
    srv.evaluatePbac caller.keyId (Rest.resolveTenant caller.tenantId tenantId) action resourceId = .denied

/-- A specification that `encrypt` takes no key of. -/
def encrypts : KeySpec → Bool
  | .aes256Gcm | .hmacSha256 | .sm4 | .sm2 => true
  | _ => false

/-- The approval is granted for the operation on the key. -/
def Granted (approvalId : String) (operation : Approval.OperationType) (id : Uuid) : Prop :=
  ∃ approval, srv.parseUuid approvalId = some approval ∧
    srv.approvalManager.isApproved srv.now approval operation id.text = true

/-- The tenant's key of this id. -/
def Owned (id : Uuid) (tenantId : String) (entry : Software.KeyEntry) : Prop :=
  srv.keystore.keys[id]? = some entry ∧ entry.keyMeta.tenantId = Rest.resolveTenant caller.tenantId tenantId

/-- Valid material that does not open the ciphertext, or a specification that `decrypt` takes no key of. -/
def Unreadable (id : Uuid) (keyMeta : KeyMeta) (material : Bytes) (c : Ciphertext) : Prop :=
  match keyMeta.spec with
  | .aes256Gcm | .hmacSha256 => srv.crypto.aesUnboundKey material = .ok () ∧
      ∀ aad, Software.SoftwareKeystore.decryptAad srv.crypto.toCrypto id keyMeta.tenantId c = .ok aad →
        srv.crypto.aesOpen material (Software.SoftwareKeystore.decryptNonce c) aad (c.ciphertext ++ c.tag) = none
  | .sm4 => srv.crypto.sm4Cipher material = .ok () ∧
      ∀ aad, Software.SoftwareKeystore.decryptAad srv.crypto.toCrypto id keyMeta.tenantId c = .ok aad →
        srv.crypto.sm4Decrypt material c.nonce aad c.ciphertext c.tag = none
  | .sm2 => srv.crypto.sm2KeyPair material = .ok () ∧ (c.nonce.length = 65 → c.tag.length = 32 →
      srv.crypto.sm2Decrypt material (c.nonce ++ c.tag ++ c.ciphertext) = none)
  | _ => True

/-- REST takes the material of the import as it is, or the import panics on both channels. -/
def ImportsAlike (r : Rest.ImportKeyRequest) (g : Grpc.ImportKeyRequest) (spec : KeySpec) : Prop :=
  ∃ transportKey, Base64.decode r.encryptedTransportKey = some transportKey ∧
    match KeyService.importChecks srv.fromStr spec r.format g.keyMaterial transportKey r.sourceFingerprint with
    | .error (.error _) => False
    | .error (.panic _) => ∃ message, checkImport spec g.keyMaterial = .error (.panic message)
    | .ok material => srv.env.canCreateKey = true ∧
        ((material = g.keyMaterial ∧ checkImport spec material = .ok () ∧ srv.quotaTracker = false) ∨
          (∃ message, checkImport spec material = .error (.panic message)) ∧
            ∃ message, checkImport spec g.keyMaterial = .error (.panic message))

/-- When the channels agree. -/
def AgreesWhen : RequestPair → Prop
  | getKey .. | sign .. | verify .. | hmac .. | hmacVerify .. => True
  -- only REST validates; the invalid request has to be invalid for the service too
  | createKey r _ => caller.role.satisfies .createKey = false ∨
      Validation.validateCreateKeyRequest r.name r.spec (Rest.resolveTenant caller.tenantId r.tenantId) = .ok () ∨
      srv.evaluatePbac caller.keyId (Rest.resolveTenant caller.tenantId r.tenantId) "create_key" r.name = .allowed ∧
        ∀ spec, KeyService.parseSpec r.spec = .ok spec → spec.isGeneratable = false
  | encrypt id query r _ => Refused srv caller .encrypt "encrypt" id.text query.tenantId ∨
      Validation.validateEncryptRequest srv.decodeError r.plaintext none = .ok () ∨
      srv.quotaTracker = false ∧ ∃ entry, Owned srv caller id query.tenantId entry ∧ entry.keyMeta.status = .active ∧
        encrypts entry.keyMeta.spec = false
  -- the format version is a byte on REST and is cut to one by gRPC
  | decrypt id query r g => caller.role.satisfies .encrypt = false ∨
      (r.formatVersion.getD 2 < 2 ^ 8 ∧
        (srv.evaluatePbac caller.keyId (Rest.resolveTenant caller.tenantId query.tenantId) "decrypt" id.text = .denied ∨
          Validation.validateDecryptRequest srv.decodeError r.ciphertext r.nonce r.tag none = .ok () ∨
          srv.quotaTracker = false ∧ ∃ entry, Owned srv caller id query.tenantId entry ∧
            entry.keyMeta.status.canDecrypt = true ∧ ∃ c, Grpc.decodeCiphertext id g = .ok c ∧
              ∃ material, entry.materialAt c.version = some material ∧ Unreadable srv id entry.keyMeta material c))
  -- a missing approval has two classes, and a rotation may fail with the key emptied
  | rotateKey id query g => Refused srv caller .createKey "rotate_key" id.text query.tenantId ∨
      g.approvalId ≠ "" ∧ (Granted srv g.approvalId .keyRotate id → ∀ entry, Owned srv caller id query.tenantId entry →
        entry.keyMeta.status.canRotate = true →
          ∃ material, Software.SoftwareKeystore.rotationMaterial entry.keyMeta.spec srv.env.toEnv = .ok material)
  | deleteKey id query g => Refused srv caller .createKey "delete_key" id.text query.tenantId ∨ g.approvalId ≠ ""
  | exportKey id query _ g => Refused srv caller .createKey "export_key" id.text query.tenantId ∨ g.approvalId ≠ ""
  -- gRPC goes past the service, with its checks, its quota and its classes of errors
  | importKey r g => Refused srv caller .createKey "import_key" r.name r.tenantId ∨
      ∀ spec, KeyService.parseSpec r.spec = .ok spec → ImportsAlike srv r g spec

end RequestPair

open RequestPair

section

variable {F α β γ δ : Type} {srv : Server F} {caller : Caller} {same : α → β → Prop} {p q : Permission}
  {action id tenant tenant' : String} {keyId : Uuid}

/-- What the handlers of one key start with on both channels. -/
theorem agreement_checks_bind (hpq : caller.role.satisfies q = caller.role.satisfies p)
    (hid : srv.parseUuid id = some keyId) (ht : SameTenant tenant tenant') {k : String → Except Rest.Refusal γ}
    {l : Uuid × String → Except Grpc.Refusal δ} {f : γ → Handled Rest.Refusal α} {f' : δ → Handled Grpc.Refusal β} :
    srv.Agreement same
        (srv.through (Rest.requirePermission caller p >>= fun _ =>
          Rest.checkRestPbac srv caller action keyId.text tenant >>= k) f)
        (srv.through (Grpc.admitted srv caller q action id tenant' >>= l) f') ↔
      Refused srv caller p action keyId.text tenant ∨
        srv.Agreement same (srv.through (k (Rest.resolveTenant caller.tenantId tenant)) f)
          (srv.through (l (keyId, Rest.resolveTenant caller.tenantId tenant)) f') := by
  rw [admitted_bind hid, agreement_permission hpq, agreement_pbac ht, Refused, or_assoc]

/-- Where gRPC checks nothing else. -/
theorem agreement_checks_pure (hpq : caller.role.satisfies q = caller.role.satisfies p)
    (hid : srv.parseUuid id = some keyId) (ht : SameTenant tenant tenant') {k : String → Except Rest.Refusal γ}
    {f : γ → Handled Rest.Refusal α} {f' : Uuid × String → Handled Grpc.Refusal β} :
    srv.Agreement same
        (srv.through (Rest.requirePermission caller p >>= fun _ =>
          Rest.checkRestPbac srv caller action keyId.text tenant >>= k) f)
        (srv.through (Grpc.admitted srv caller q action id tenant') f') ↔
      Refused srv caller p action keyId.text tenant ∨
        srv.Agreement same (srv.through (k (Rest.resolveTenant caller.tenantId tenant)) f)
          (f' (keyId, Rest.resolveTenant caller.tenantId tenant)) := by
  rw [← bind_pure (Grpc.admitted srv caller q action id tenant')]
  exact agreement_checks_bind hpq hid ht

theorem rest_decodeField {text message : String} {bytes : Bytes} (h : Base64.decode text = some bytes) :
    Rest.decodeField text message = .ok bytes := by
  unfold Rest.decodeField
  rw [h]

theorem grpc_decodeField {text message : String} {bytes : Bytes} (h : Base64.decode text = some bytes) :
    Grpc.decodeField text message = .ok bytes := by
  unfold Grpc.decodeField
  rw [h]

/-- One method of `CryptoService` that only reads, called on both channels. -/
theorem agreement_serveCrypto {same : α → α → Prop} (hsame : ∀ a, same a a) {t : String} {s : Service α}
    (hs : (runOn srv.crypto.toCrypto srv.env.toUseEnv s srv.keystore).2 = srv.keystore) :
    srv.Agreement same (srv.serveCrypto .ofAbort t s) (srv.serveCrypto .ofAbort t s) := by
  refine (agreement_serve_iff hsame (fun e tenant h => ?_) s).2 fun _ _ => hs
  rw [List.mem_singleton] at h
  cases h

/-- A method of `KeyService` that counts no key, called on both channels. -/
theorem agreement_serveKey_iff {same : α → α → Prop} (hsame : ∀ a, same a a) {s : Service α} :
    srv.Agreement same (srv.serveKey .ofAbort s) (srv.serveKey .ofAbort s) ↔
      ∀ e, (runOn srv.crypto.toCrypto srv.env.toUseEnv s srv.keystore).1 = .error e →
        (runOn srv.crypto.toCrypto srv.env.toUseEnv s srv.keystore).2 = srv.keystore :=
  agreement_serve_iff hsame (fun _ _ => List.not_mem_nil) s

theorem sameKey_ofMeta (m : KeyMeta) : SameKey (.ofMeta m) (.ofMeta m) := ⟨rfl, rfl, rfl, rfl, rfl, rfl, rfl⟩

end

/-! ## Operations that always agree -/

section

variable {F : Type} {srv : Server F} {caller : Caller} {id : Uuid} {query : Rest.TenantQuery}

theorem agree_getKey {g : Grpc.GetKeyRequest} (h : (getKey id query g).Corresponds srv) :
    (getKey id query g).Agree srv caller := by
  obtain ⟨hid, ht⟩ := h
  change srv.Agreement _ (Rest.getKey srv caller id query) (Grpc.getKey srv caller g)
  unfold Rest.getKey Grpc.getKey
  rw [← bind_pure (Rest.checkRestPbac srv caller "get_key" id.text query.tenantId)]
  refine (agreement_checks_pure (ApiKeyPermission.satisfies_getKey _) hid ht).2 (.inr ?_)
  refine agreement_map.2 ((agreement_serveKey_iff sameKey_ofMeta).2 fun _ _ => ?_)
  exact perform_of_no_change srv.crypto .getKey rfl

theorem agree_sign {r : Rest.SignRequest} {g : Grpc.SignRequest} (h : (sign id query r g).Corresponds srv) :
    (sign id query r g).Agree srv caller := by
  obtain ⟨hid, ht, data, hr, hg⟩ := h
  refine (agreement_checks_bind (ApiKeyPermission.satisfies_crypto _ (by simp)) hid ht).2 (.inr ?_)
  rw [rest_decodeField hr, through_ok_bind, grpc_decodeField hg, through_ok_bind]
  refine agreement_map.2 (agreement_serveCrypto (fun _ => ⟨rfl, rfl⟩) ?_)
  exact perform_of_no_change srv.crypto (.sign data) rfl

theorem agree_verify {r : Rest.VerifyRequest} {g : Grpc.VerifyRequest} (h : (verify id query r g).Corresponds srv) :
    (verify id query r g).Agree srv caller := by
  obtain ⟨hid, ht, ⟨data, hr, hg⟩, signature, hrs, hgs⟩ := h
  refine (agreement_checks_bind (ApiKeyPermission.satisfies_crypto _ (by simp)) hid ht).2 (.inr ?_)
  rw [rest_decodeField hr, through_ok_bind, rest_decodeField hrs, through_ok_bind, grpc_decodeField hg, through_ok_bind,
    grpc_decodeField hgs, through_ok_bind]
  refine agreement_map.2 (agreement_serveCrypto (fun _ => rfl) ?_)
  exact perform_of_no_change srv.crypto (.verify data ⟨id, 1, signature⟩) rfl

theorem agree_hmac {r : Rest.HmacRequest} {g : Grpc.HmacRequest} (h : (hmac id query r g).Corresponds srv) :
    (hmac id query r g).Agree srv caller := by
  obtain ⟨hid, ht, hr, hraad, hgaad⟩ := h
  refine (agreement_checks_pure rfl hid ht).2 (.inr ?_)
  rw [rest_decodeField hr, through_ok_bind, hraad]
  dsimp only
  rw [hgaad]
  refine agreement_map.2 (agreement_serveCrypto (fun _ => ⟨Base64.decode_encode _, rfl⟩) ?_)
  exact perform_of_no_change srv.crypto (.hmac g.data none) rfl

theorem agree_hmacVerify {r : Rest.HmacVerifyRequest} {g : Grpc.HmacVerifyRequest}
    (h : (hmacVerify id query r g).Corresponds srv) : (hmacVerify id query r g).Agree srv caller := by
  obtain ⟨hid, ht, hr, hmac, hraad, hgaad⟩ := h
  refine (agreement_checks_pure rfl hid ht).2 (.inr ?_)
  rw [rest_decodeField hr, through_ok_bind, rest_decodeField hmac, through_ok_bind, hraad]
  dsimp only
  rw [hgaad]
  refine agreement_map.2 (agreement_serveCrypto (fun _ => rfl) ?_)
  exact perform_of_no_change srv.crypto (.hmacVerify g.data none g.mac) rfl

end

/-! ## Operations behind an approval -/

section

variable {F α β γ δ : Type} {srv : Server F} {caller : Caller} {same : α → β → Prop} {id : Uuid}
  {query : Rest.TenantQuery}

/-- A missing approval ends in two classes; any other is judged alike. -/
theorem agreement_approved {approval? : Option String} {approvalId action : String} (h : approval?.getD "" = approvalId)
    {operation : Approval.OperationType} {k : Except Rest.Refusal γ} {l : Except Grpc.Refusal δ}
    {f : γ → Handled Rest.Refusal α} {f' : δ → Handled Grpc.Refusal β} :
    srv.Agreement same (srv.through (Rest.requireApproved srv approval? operation id.text action >>= fun _ => k) f)
        (srv.through (Grpc.requireApproved srv approvalId operation id.text action >>= fun _ => l) f') ↔
      approvalId ≠ "" ∧ (Granted srv approvalId operation id →
        srv.Agreement same (srv.through k f) (srv.through l f')) := by
  unfold Rest.requireApproved Grpc.requireApproved
  by_cases hempty : approvalId = ""
  · have hnone : approval?.filter (· ≠ "") = none := by
      cases approval? with
      | none => rfl
      | some a =>
        change a = approvalId at h
        rw [h, hempty]
        rfl
    rw [hnone, if_pos hempty]
    simp only [through_error_bind, hempty, ne_eq, not_true_eq_false, false_and, iff_false]
    rintro ⟨hclass, -⟩
    cases hclass
  · have hsome : approval?.filter (· ≠ "") = some approvalId := by
      cases approval? with
      | none => exact absurd h.symm hempty
      | some a =>
        change a = approvalId at h
        rw [h, Option.filter_some, if_pos (by simpa using hempty)]
    rw [hsome, if_neg hempty]
    dsimp only
    cases hparsed : srv.parseUuid approvalId with
    | none =>
      have hnot : ¬ Granted srv approvalId operation id := by
        rintro ⟨approval, hread, -⟩
        rw [hparsed] at hread
        cases hread
      exact ⟨fun _ => ⟨hempty, fun h => absurd h hnot⟩, fun _ => agreement_refuse rfl⟩
    | some approval =>
      have hgranted : Granted srv approvalId operation id ↔
          srv.approvalManager.isApproved srv.now approval operation id.text = true := by
        constructor
        · rintro ⟨approval', hread, happroved⟩
          rw [hparsed, Option.some.injEq] at hread
          rwa [hread]
        · intro happroved
          exact ⟨approval, hparsed, happroved⟩
      rw [hgranted]
      dsimp only
      by_cases happroved : srv.approvalManager.isApproved srv.now approval operation id.text = true
      · rw [if_pos happroved, if_pos happroved, through_ok_bind, through_ok_bind]
        simp only [hempty, happroved, ne_eq, not_false_eq_true, true_and, true_imp_iff]
      · rw [if_neg happroved, if_neg happroved, through_error_bind, through_error_bind]
        exact ⟨fun _ => ⟨hempty, fun h => absurd h happroved⟩, fun _ => agreement_refuse rfl⟩

/-- A deletion that fails leaves the key. -/
theorem deleteKey_error {tenantId : String} {e : ApiAbort}
    (h : (runOn srv.crypto.toCrypto srv.env.toUseEnv (KeyService.deleteKey id tenantId) srv.keystore).1 = .error e) :
    (runOn srv.crypto.toCrypto srv.env.toUseEnv (KeyService.deleteKey id tenantId) srv.keystore).2 = srv.keystore := by
  unfold KeyService.deleteKey KeyService.ownedKeyMeta at h ⊢
  by_cases howned : ∃ entry, srv.keystore.keys[id]? = some entry ∧ entry.keyMeta.tenantId = tenantId
  · obtain ⟨entry, hentry, howned⟩ := howned
    have hdeleted := Software.SoftwareKeystore.deleteKey_of_owned hentry howned
    rw [runOn_bind_ok (CryptoService.runOn_fetchOwnedKeyMeta_of_owned hentry howned), runOn_ask] at h
    change answer apiError (srv.keystore.deleteKey id tenantId).1 = .error e at h
    rw [hdeleted] at h
    cases h
  · rw [runOn_bind_error (CryptoService.runOn_fetchOwnedKeyMeta_of_not_owned fun entry hentry ho =>
      howned ⟨entry, hentry, ho⟩)]

theorem agree_deleteKey_iff {g : Grpc.DeleteKeyRequest} (h : (deleteKey id query g).Corresponds srv) :
    (deleteKey id query g).Agree srv caller ↔ (deleteKey id query g).AgreesWhen srv caller := by
  obtain ⟨hid, ht, happroval⟩ := h
  refine (agreement_checks_bind (ApiKeyPermission.satisfies_lifecycle _ (by simp)) hid ht).trans (or_congr_right ?_)
  refine (agreement_approved happroval).trans (and_iff_left fun _ => ?_)
  exact (agreement_serveKey_iff fun _ => rfl).2 fun e he => deleteKey_error he

theorem grpc_parseId {text message : String} (hid : srv.parseUuid text = some id) :
    Grpc.parseId srv text message = .ok id := by
  unfold Grpc.parseId
  rw [hid]

/-- No protection scheme is the empty one. -/
theorem parse_getD (scheme : Option String) :
    ExportProtection.parse scheme = ExportProtection.parse (some (scheme.getD "")) := by
  cases scheme with
  | some s => rfl
  | none =>
    have hempty : toLowercase (String.ofList (KeyFormatParser.trim "".toList)) = "" := by decide +kernel
    unfold ExportProtection.parse
    rw [Option.getD_none, Option.map_some, hempty]
    rfl

/-- No version is version 0. -/
theorem exportKey_getD (targetPublicKey : Bytes) (tenantId : String) (protection : ExportProtection)
    (version : Option UInt32) :
    KeyService.exportKey srv.crypto srv.env id targetPublicKey tenantId ⟨protection, version⟩ =
      KeyService.exportKey srv.crypto srv.env id targetPublicKey tenantId
        ⟨protection, if version.getD 0 ≠ 0 then some (version.getD 0) else none⟩ := by
  have hfilter : (if version.getD 0 ≠ 0 then some (version.getD 0) else none).filter (· ≠ 0) =
      version.filter (· ≠ 0) := by
    cases version with
    | none => rfl
    | some v =>
      rw [Option.getD_some]
      by_cases hv : v = 0
      · rw [if_neg (not_not.2 hv), hv]
        rfl
      · rw [if_pos hv]
  unfold KeyService.exportKey KeyService.exportOwned KeyService.selectMaterial
  simp only [hfilter]

theorem agree_exportKey_iff {r : Rest.ExportKeyRequest} {g : Grpc.ExportKeyRequest}
    (h : (exportKey id query r g).Corresponds srv) :
    (exportKey id query r g).Agree srv caller ↔ (exportKey id query r g).AgreesWhen srv caller := by
  obtain ⟨hid, ht, happroval, htarget, hscheme, hversion⟩ := h
  refine (agreement_permission (ApiKeyPermission.satisfies_lifecycle _ (by simp))).trans ?_
  rw [grpc_parseId hid, through_ok_bind, agreement_pbac ht, agreement_approved happroval, rest_decodeField htarget,
    through_ok_bind, ← hscheme, ← parse_getD, ← hversion]
  refine Iff.trans ?_ or_assoc.symm
  refine or_congr_right (or_congr_right (and_iff_left fun _ => ?_))
  refine agreement_through (R := fun c d => c.1 = d.2.1 ∧ c.2.1 = g.targetPublicKey ∧ c.2.2 = d.2.2 ∧ d.1 = id)
    ((ExceptRel.mapError sameFailure_ofAbort _).bind fun c d hcd => .ok ⟨rfl, rfl, hcd, rfl⟩) ?_
  rintro ⟨tenant, target, protection⟩ ⟨keyId, tenant', protection'⟩ ⟨rfl, rfl, rfl, rfl⟩
  dsimp only
  rw [exportKey_getD]
  refine (agreement_serveKey_iff fun _ => rfl).2 fun _ _ => ?_
  exact perform_of_no_change srv.crypto (.exportKey g.targetPublicKey ⟨_, _⟩) rfl

/-- A rotation that fails has emptied the key where its material could not be drawn, and else leaves it. -/
theorem rotateKey_error_iff {tenantId : String} :
    (∀ e, (runOn srv.crypto.toCrypto srv.env.toUseEnv (KeyService.rotateKey id tenantId) srv.keystore).1 = .error e →
      (runOn srv.crypto.toCrypto srv.env.toUseEnv (KeyService.rotateKey id tenantId) srv.keystore).2 = srv.keystore) ↔
      ∀ entry, srv.keystore.keys[id]? = some entry ∧ entry.keyMeta.tenantId = tenantId →
        entry.keyMeta.status.canRotate = true →
          ∃ material, Software.SoftwareKeystore.rotationMaterial entry.keyMeta.spec srv.env.toEnv = .ok material := by
  unfold KeyService.rotateKey KeyService.ownedKeyMeta
  by_cases howned : ∃ entry, srv.keystore.keys[id]? = some entry ∧ entry.keyMeta.tenantId = tenantId
  · obtain ⟨entry, hentry, howned⟩ := howned
    rw [runOn_bind_ok (CryptoService.runOn_fetchOwnedKeyMeta_of_owned hentry howned), runOn_ask]
    change (∀ e, answer apiError (srv.keystore.rotateKey srv.env.toEnv id tenantId).1 = .error e →
      (srv.keystore.rotateKey srv.env.toEnv id tenantId).2 = srv.keystore) ↔ _
    by_cases hstatus : entry.keyMeta.status.canRotate = true
    · rw [Software.SoftwareKeystore.rotateKey_of_owned hentry howned hstatus]
      cases hmade : Software.SoftwareKeystore.rotationMaterial entry.keyMeta.spec srv.env.toEnv with
      | ok material =>
        constructor
        · rintro - entry' ⟨hentry', -⟩ -
          rw [hentry, Option.some.injEq] at hentry'
          exact ⟨material, hentry' ▸ hmade⟩
        · intro _ e he
          cases he
      | error e =>
        constructor
        · intro h
          -- the archived entry has one version more
          have hkept : srv.keystore.put id (Software.SoftwareKeystore.archive entry) = srv.keystore := by
            cases e with
            | error e => exact h _ rfl
            | panic message => exact h _ rfl
          have hlookup := congrArg (fun ks : Software.SoftwareKeystore => ks.keys[id]?) hkept
          simp only [Software.SoftwareKeystore.keys_put, if_true, hentry, Option.some.injEq] at hlookup
          have hlength := congrArg (fun en : Software.KeyEntry => en.versions.length) hlookup
          simp [Software.SoftwareKeystore.archive] at hlength
        · intro h
          obtain ⟨material, hmaterial⟩ := h entry ⟨hentry, howned⟩ hstatus
          rw [hmade] at hmaterial
          cases hmaterial
    · have hcannot : ∀ entry', srv.keystore.keys[id]? = some entry' → entry'.keyMeta.tenantId = tenantId →
          entry'.keyMeta.status.canRotate = false := by
        intro entry' hentry' _
        rw [hentry, Option.some.injEq] at hentry'
        rw [← hentry']
        simpa using hstatus
      have hrefused : (srv.keystore.rotateKey srv.env.toUseEnv.toEnv id tenantId).2 = srv.keystore :=
        (Software.SoftwareKeystore.rotateKey_refused hcannot).1
      constructor
      · rintro - entry' ⟨hentry', -⟩ hrotates
        rw [hentry, Option.some.injEq] at hentry'
        exact absurd (hentry' ▸ hrotates) hstatus
      · intro _ e _
        exact hrefused
  · rw [runOn_bind_error (CryptoService.runOn_fetchOwnedKeyMeta_of_not_owned fun entry hentry ho =>
      howned ⟨entry, hentry, ho⟩)]
    constructor
    · intro _ entry hentry
      exact absurd ⟨entry, hentry⟩ howned
    · intro _ e _
      rfl

theorem agree_rotateKey_iff {g : Grpc.RotateKeyRequest} (h : (rotateKey id query g).Corresponds srv) :
    (rotateKey id query g).Agree srv caller ↔ (rotateKey id query g).AgreesWhen srv caller := by
  obtain ⟨hid, ht, happroval⟩ := h
  refine (agreement_checks_bind (ApiKeyPermission.satisfies_lifecycle _ (by simp)) hid ht).trans (or_congr_right ?_)
  refine (agreement_approved happroval).trans (and_congr_right fun _ => imp_congr_right fun _ => ?_)
  exact agreement_map.trans ((agreement_serveKey_iff sameKey_ofMeta).trans rotateKey_error_iff)

end

/-! ## Operations that only REST validates -/

section

variable {F α β γ δ : Type} {srv : Server F} {caller : Caller} {same : α → β → Prop} {id : Uuid}
  {query : Rest.TenantQuery}

/-- One creation on both channels. -/
theorem agreement_serveNewKey {same : α → α → Prop} (hsame : ∀ a, same a a) {t : String} {s : Service α}
    (hs : ∀ e, (runOn srv.crypto.toCrypto srv.env.toUseEnv s srv.keystore).1 = .error e →
      (runOn srv.crypto.toCrypto srv.env.toUseEnv s srv.keystore).2 = srv.keystore) :
    srv.Agreement same (srv.serveNewKey .ofAbort t s) (srv.serveNewKey .ofAbort t s) :=
  (agreement_serve_iff hsame (fun _ _ => List.not_mem_nil) s).2 hs

/-- A service call that gRPC makes and REST refused as invalid. -/
theorem agreement_invalid_iff {reason : String} {writes : Except ApiAbort α → List QuotaWrite} {s : Service α}
    {f : α → β} :
    (∃ e', ((srv.serve Grpc.Refusal.ofAbort writes s).map f).answer = .error e' ∧
        SameFailure (.api (.invalidRequest reason)) e' ∧
        ((srv.serve Grpc.Refusal.ofAbort writes s).map f).keystore = srv.keystore ∧
        ((srv.serve Grpc.Refusal.ofAbort writes s).map f).quota = []) ↔
      ∃ e, (runOn srv.crypto.toCrypto srv.env.toUseEnv s srv.keystore).1 = .error e ∧
        (Grpc.Refusal.ofAbort e).failureClass = .invalid ∧
        (runOn srv.crypto.toCrypto srv.env.toUseEnv s srv.keystore).2 = srv.keystore ∧
        (if srv.quotaTracker then
          writes (runOn srv.crypto.toCrypto srv.env.toUseEnv s srv.keystore).1 else []) = [] := by
  unfold Server.serve Handled.map
  cases runOn srv.crypto.toCrypto srv.env.toUseEnv s srv.keystore with
  | mk r keystore =>
    cases r with
    | ok a =>
      constructor
      · rintro ⟨_, h, -⟩
        cases h
      · rintro ⟨_, h, -⟩
        cases h
    | error e =>
      constructor
      · rintro ⟨_, h, hclass, hrest⟩
        cases h
        exact ⟨e, rfl, hclass.symm, hrest⟩
      · rintro ⟨_, h, hclass, hrest⟩
        cases h
        exact ⟨_, rfl, hclass.symm, hrest⟩

theorem parseSpec_error {specStr : String} {e : ApiAbort} (h : KeyService.parseSpec specStr = .error e) :
    ∃ reason, e = .error (.invalidRequest reason) := by
  unfold KeyService.parseSpec at h
  split at h
  · cases h
  · cases h
    exact ⟨_, rfl⟩

/-- A key that the keystore generates is never refused as an invalid request, and a failure leaves the keystore. -/
theorem generateKey_error {ks : Software.SoftwareKeystore} {env : Software.Env} {spec : KeySpec}
    {name tenantId : String}
    {e : Abort} (h : (ks.generateKey env spec name tenantId).1 = .error e) :
    (ks.generateKey env spec name tenantId).2 = ks ∧
      (spec.isGeneratable = true → ∃ reason, e = .error (.signatureFailed reason)) := by
  unfold Software.SoftwareKeystore.generateKey at h ⊢
  cases hmade : Software.SoftwareKeystore.generatedMaterial spec env with
  | ok material =>
    rw [hmade] at h
    cases h
  | error e' =>
    rw [hmade] at h
    cases h
    refine ⟨rfl, fun hspec => ?_⟩
    cases spec with
    | sm2 =>
      change Software.SoftwareKeystore.generateSm2Key env = .error e at hmade
      unfold Software.SoftwareKeystore.generateSm2Key at hmade
      split at hmade
      · cases hmade
        exact ⟨_, rfl⟩
      · split at hmade
        · cases hmade
          exact ⟨_, rfl⟩
        · cases hmade
    | aes256Gcm | hmacSha256 | sm3Hmac | sm4 | ed25519 => cases hmade
    | _ => cases hspec

theorem createKey_error {spec : KeySpec} {name tenantId : String} {e : ApiAbort}
    (h : (runOn srv.crypto.toCrypto srv.env.toUseEnv (KeyService.createKey srv.env spec name tenantId) srv.keystore).1 =
      .error e) :
    (runOn srv.crypto.toCrypto srv.env.toUseEnv (KeyService.createKey srv.env spec name tenantId) srv.keystore).2 =
        srv.keystore ∧ ((Grpc.Refusal.ofAbort e).failureClass = .invalid ↔ spec.isGeneratable = false) := by
  unfold KeyService.createKey at h ⊢
  cases hspec : spec.isGeneratable with
  | false =>
    simp only [hspec, Bool.not_false, if_true, runOn_fail] at h ⊢
    cases h
    exact ⟨trivial, iff_of_true rfl trivial⟩
  | true =>
    simp only [hspec, Bool.not_true, Bool.false_eq_true, if_false] at h ⊢
    cases hquota : srv.env.canCreateKey with
    | false =>
      simp only [hquota, Bool.not_false, if_true, runOn_fail] at h ⊢
      cases h
      refine ⟨trivial, iff_of_false ?_ ?_⟩ <;> intro hc <;> cases hc
    | true =>
      simp only [hquota, Bool.not_true, Bool.false_eq_true, if_false] at h ⊢
      change answer apiError (srv.keystore.generateKey srv.env.toEnv spec name tenantId).1 = .error e at h
      change (srv.keystore.generateKey srv.env.toEnv spec name tenantId).2 = srv.keystore ∧ _
      cases hr : (srv.keystore.generateKey srv.env.toEnv spec name tenantId).1 with
      | ok m =>
        rw [hr] at h
        cases h
      | error e' =>
        obtain ⟨hkept, hclass⟩ := generateKey_error hr
        obtain ⟨reason, rfl⟩ := hclass hspec
        rw [hr] at h
        cases h
        refine ⟨hkept, iff_of_false ?_ ?_⟩ <;> intro hc <;> cases hc

theorem agree_createKey_iff {r : Rest.CreateKeyRequest} {g : Grpc.CreateKeyRequest}
    (h : (createKey r g).Corresponds srv) : (createKey r g).Agree srv caller ↔
      (createKey r g).AgreesWhen srv caller := by
  obtain ⟨hname, hspec, ht⟩ := h
  refine (agreement_permission rfl).trans (or_congr_right ?_)
  rw [← hname, ← hspec]
  cases hvalid : Validation.validateCreateKeyRequest r.name r.spec (Rest.resolveTenant caller.tenantId r.tenantId) with
  | ok u =>
    refine iff_of_true ((agreement_pbac ht).2 (.inr ?_)) (.inl rfl)
    refine agreement_through (R := Eq) ((ExceptRel.mapError sameFailure_ofAbort _).bind ?_) ?_
    · rintro spec _ rfl
      exact .ok rfl
    · rintro ⟨tenant, spec⟩ _ rfl
      exact agreement_map.2 (agreement_serveNewKey sameKey_ofMeta fun e he => (createKey_error he).1)
  | error e =>
    refine agreement_refuse_left.trans ?_
    rw [grpc_checkPbac ht]
    simp only [reduceCtorEq, false_or]
    cases srv.evaluatePbac caller.keyId (Rest.resolveTenant caller.tenantId r.tenantId) "create_key" r.name with
    | denied =>
      refine iff_of_false ?_ (fun h => by cases h.1)
      rintro ⟨e', he', hclass, -⟩
      cases he'
      cases hclass
    | allowed =>
      rw [through_ok_bind]
      cases hparsed : KeyService.parseSpec r.spec with
      | error abort =>
        obtain ⟨reason, rfl⟩ := parseSpec_error hparsed
        refine iff_of_true ⟨_, rfl, rfl, rfl, rfl⟩ ⟨rfl, ?_⟩
        intro spec h
        cases h
      | ok spec =>
        refine agreement_invalid_iff.trans ?_
        constructor
        · rintro ⟨abort, hfailed, hclass, -⟩
          refine ⟨rfl, fun spec' hspec' => ?_⟩
          cases hspec'
          exact (createKey_error hfailed).2.1 hclass
        · rintro ⟨-, hspec⟩
          have hspec := hspec spec rfl
          have hfailed : ∃ abort, (runOn srv.crypto.toCrypto srv.env.toUseEnv (KeyService.createKey srv.env spec r.name
              (Rest.resolveTenant caller.tenantId r.tenantId)) srv.keystore).1 = .error abort := by
            unfold KeyService.createKey
            rw [hspec]
            exact ⟨_, rfl⟩
          obtain ⟨abort, hfailed⟩ := hfailed
          obtain ⟨hkept, hclass⟩ := createKey_error hfailed
          refine ⟨abort, hfailed, hclass.2 hspec, hkept, ?_⟩
          rw [hfailed]
          exact ite_self _

/-- The errors of the keystore that both channels call an invalid request. -/
theorem failureClass_apiError {e : Error} : (Grpc.Refusal.ofAbort (.error (apiError e))).failureClass = .invalid ↔
    e = .invalidCiphertext ∨ ∃ reason, e = .invalidAlgorithm reason := by
  cases e with
  | invalidCiphertext => exact iff_of_true rfl (.inl rfl)
  | invalidAlgorithm reason => exact iff_of_true rfl (.inr ⟨reason, rfl⟩)
  | _ =>
    refine iff_of_false (fun h => by cases h) ?_
    rintro (h | ⟨_, h⟩) <;> cases h

/-- A call on data that gRPC makes and REST refused as invalid: no tracker records it, the tenant owns the key,
and the keystore refuses what it is called for as invalid. -/
theorem checked_invalid_iff (op : BackendOp) (hop : ReadOnly op) {t tenant : String} :
    (∃ e, (runOn srv.crypto.toCrypto srv.env.toUseEnv (CryptoService.checkQuota srv.env >>= fun _ =>
          CryptoService.fetchOwnedKeyMeta id tenant >>= fun _ => ask op apiError) srv.keystore).1 = .error e ∧
        (Grpc.Refusal.ofAbort e).failureClass = .invalid ∧
        (runOn srv.crypto.toCrypto srv.env.toUseEnv (CryptoService.checkQuota srv.env >>= fun _ =>
          CryptoService.fetchOwnedKeyMeta id tenant >>= fun _ => ask op apiError) srv.keystore).2 = srv.keystore ∧
        (if srv.quotaTracker then [QuotaWrite.recordRequest t] else []) = []) ↔
      srv.quotaTracker = false ∧
        ∃ entry, (srv.keystore.keys[id]? = some entry ∧ entry.keyMeta.tenantId = tenant) ∧
          ∃ e, (Software.SoftwareKeystore.perform srv.crypto.toCrypto srv.env.toUseEnv op srv.keystore).1 =
            .error (.error e) ∧ (e = .invalidCiphertext ∨ ∃ reason, e = .invalidAlgorithm reason) := by
  cases htracker : srv.quotaTracker with
  | true =>
    refine iff_of_false ?_ ?_
    · rintro ⟨_, -, -, -, hquota⟩
      cases hquota
    · rintro ⟨hnone, -⟩
      cases hnone
  | false =>
    have hadmitted : srv.env.recordRequest = none := by
      unfold Server.env
      rw [htracker]
      rfl
    by_cases howned : ∃ entry, srv.keystore.keys[id]? = some entry ∧ entry.keyMeta.tenantId = tenant
    · obtain ⟨entry, hentry, howned⟩ := howned
      rw [CryptoService.runOn_checked hadmitted hentry howned, runOn_ask]
      constructor
      · rintro ⟨abort, hfailed, hclass, -, -⟩
        refine ⟨rfl, entry, ⟨hentry, howned⟩, ?_⟩
        cases hr : (Software.SoftwareKeystore.perform srv.crypto.toCrypto srv.env.toUseEnv op srv.keystore).1 with
        | ok v =>
          rw [hr] at hfailed
          cases hfailed
        | error abort' =>
          rw [hr] at hfailed
          cases abort' with
          | panic message =>
            cases hfailed
            cases hclass
          | error e =>
            cases hfailed
            exact ⟨e, rfl, failureClass_apiError.1 hclass⟩
      · rintro ⟨-, _, -, e, hfailed, hinvalid⟩
        refine ⟨.error (apiError e), ?_, failureClass_apiError.2 hinvalid, hop _ _ _, rfl⟩
        rw [hfailed]
        rfl
    · have hquota : runOn srv.crypto.toCrypto srv.env.toUseEnv (CryptoService.checkQuota srv.env) srv.keystore =
          (.ok (), srv.keystore) := by
        unfold CryptoService.checkQuota
        rw [hadmitted]
        rfl
      rw [runOn_bind_ok hquota, runOn_bind_error (CryptoService.runOn_fetchOwnedKeyMeta_of_not_owned
        fun entry hentry ho => howned ⟨entry, hentry, ho⟩)]
      refine iff_of_false ?_ ?_
      · rintro ⟨_, h, hclass, -⟩
        cases h
        cases hclass
      · rintro ⟨-, entry, hentry, -⟩
        exact howned ⟨entry, hentry⟩

/-- What the keystore refuses to encrypt as invalid: data for an active key that cannot encrypt. -/
theorem encrypt_invalid_iff {ks : Software.SoftwareKeystore} {crypto : Crypto} {env : Software.UseEnv}
    {tenantId : String}
    {entry : Software.KeyEntry} (hentry : ks.keys[id]? = some entry) (howned : entry.keyMeta.tenantId = tenantId)
    (plaintext : Bytes) :
    (∃ e, ks.encrypt crypto env id plaintext tenantId = .error (.error e) ∧
        (e = .invalidCiphertext ∨ ∃ reason, e = .invalidAlgorithm reason)) ↔
      entry.keyMeta.status = .active ∧ RequestPair.encrypts entry.keyMeta.spec = false := by
  unfold Software.SoftwareKeystore.encrypt
  rw [Software.SoftwareKeystore.entryFor_of_owned hentry howned]
  change (∃ e, (if entry.keyMeta.status ≠ .active then _ else _) = _ ∧ _) ↔ _
  by_cases hactive : entry.keyMeta.status = .active
  · rw [if_neg (not_not.2 hactive)]
    unfold Software.SoftwareKeystore.encryptWith
    cases hspec : entry.keyMeta.spec with
    | aes256Gcm | hmacSha256 | sm4 | sm2 =>
      refine iff_of_false ?_ fun h => by cases h.2
      rintro ⟨e, h, hinvalid⟩
      dsimp only at h
      repeat' split at h
      -- every other end is a value, a panic or `EncryptionFailed`
      all_goals cases h
      all_goals rcases hinvalid with hi | ⟨_, hi⟩ <;> cases hi
    | _ => exact iff_of_true ⟨_, rfl, .inr ⟨_, rfl⟩⟩ ⟨hactive, rfl⟩
  · rw [if_pos hactive]
    refine iff_of_false ?_ fun h => hactive h.1
    rintro ⟨e, h, hinvalid⟩
    cases h
    rcases hinvalid with hi | ⟨_, hi⟩ <;> cases hi

theorem agree_encrypt_iff {r : Rest.EncryptRequest} {g : Grpc.EncryptRequest}
    (h : (encrypt id query r g).Corresponds srv) :
    (encrypt id query r g).Agree srv caller ↔ (encrypt id query r g).AgreesWhen srv caller := by
  obtain ⟨plaintext, aad⟩ := r
  obtain ⟨hid, ht, hplaintext, haad⟩ := h
  change aad = none at haad
  subst haad
  change Base64.decode plaintext = some g.plaintext at hplaintext
  refine (agreement_checks_pure rfl hid ht).trans (or_congr_right ?_)
  change srv.Agreement _ (srv.through
    (Rest.validated (Validation.validateEncryptRequest srv.decodeError plaintext none) >>= _) _) _ ↔
      Validation.validateEncryptRequest srv.decodeError plaintext none = .ok () ∨ _
  cases hvalid : Validation.validateEncryptRequest srv.decodeError plaintext none with
  | ok u =>
    refine iff_of_true ?_ (.inl rfl)
    rw [Rest.validated, through_ok_bind, rest_decodeField hplaintext]
    refine agreement_map.2 (agreement_serveCrypto (fun _ => ⟨rfl, rfl, rfl, rfl, rfl⟩) ?_)
    exact perform_of_no_change srv.crypto (.encrypt g.plaintext) rfl
  | error e =>
    simp only [reduceCtorEq, false_or]
    refine agreement_refuse_left.trans (agreement_invalid_iff.trans ?_)
    refine (checked_invalid_iff (.encrypt id g.plaintext _) fun _ _ _ => rfl).trans (and_congr_right fun _ => ?_)
    refine exists_congr fun entry => and_congr_right fun ho => ?_
    exact encrypt_invalid_iff ho.1 ho.2 g.plaintext

/-- No gRPC status answers to a body that cannot be read. -/
theorem failureClass_ne_unprocessable (e : Grpc.Refusal) : e.failureClass ≠ .unprocessable := by
  rcases e with ⟨code, message⟩ | message
  · cases code <;> exact nofun
  · exact nofun

theorem lt_of_normalizeVersion {v : ℕ} {w : UInt32} (h : normalizeVersion v = normalizeVersion w.toNat) :
    v < 2 ^ 32 := by
  have hw := w.toNat_lt
  unfold normalizeVersion at h
  split at h <;> split at h <;> omega

/-- Both channels read a version as the same one. -/
theorem version_of_normalizeVersion {v : ℕ} {w : UInt32} (h : normalizeVersion v = normalizeVersion w.toNat) :
    (if UInt32.ofNat v = 0 then 1 else UInt32.ofNat v) = if w = 0 then 1 else w := by
  have hw := w.toNat_lt
  have hv := lt_of_normalizeVersion h
  have hzero : UInt32.ofNat v = 0 ↔ v = 0 := by
    rw [← UInt32.toNat_inj, UInt32.toNat_ofNat_of_lt' hv]
    rfl
  have hwzero : w = 0 ↔ w.toNat = 0 := by
    rw [← UInt32.toNat_inj]
    rfl
  unfold normalizeVersion at h
  by_cases hv0 : v = 0 <;> by_cases hw0 : w.toNat = 0
  · rw [if_pos (hzero.2 hv0), if_pos (hwzero.2 hw0)]
  · rw [if_pos hv0, if_neg hw0] at h
    rw [if_pos (hzero.2 hv0), if_neg fun hw => hw0 (hwzero.1 hw), ← UInt32.toNat_inj, ← h]
    rfl
  · rw [if_neg hv0, if_pos hw0] at h
    rw [if_neg fun hv => hv0 (hzero.1 hv), if_pos (hwzero.2 hw0), h]
    rfl
  · rw [if_neg hv0, if_neg hw0] at h
    rw [if_neg fun hv => hv0 (hzero.1 hv), if_neg fun hw => hw0 (hwzero.1 hw), h, UInt32.ofNat_toNat]

/-- A body whose numbers fit is read, and both channels read the same ciphertext. -/
theorem decodeCiphertext_of_corresponds {r : Rest.DecryptBody} {g : Grpc.DecryptRequest}
    (h : (decrypt id query r g).Corresponds srv) (hformat : r.formatVersion.getD 2 < 2 ^ 8) :
    ∃ req c, r.deserialize = .ok req ∧ req.ciphertext = r.ciphertext ∧ req.nonce = r.nonce ∧ req.tag = r.tag ∧
      req.aad = r.aad ∧ Rest.decodeCiphertext id req = .ok c ∧ Grpc.decodeCiphertext id g = .ok c := by
  obtain ⟨-, -, ⟨ciphertext, hc, hc'⟩, ⟨nonce, hn, hn'⟩, ⟨tag, ht, ht'⟩, -, hversion, hfv⟩ := h
  have hread : r.deserialize = .ok { r with
      formatVersion := .ofNat (r.formatVersion.getD 2), version := .ofNat (r.version.getD 1) } := by
    unfold Rest.DecryptBody.deserialize
    exact if_pos ⟨hformat, lt_of_normalizeVersion hversion⟩
  refine ⟨_, ⟨id, if g.version = 0 then 1 else g.version, (g.formatVersion.getD 2).toUInt8, nonce, ciphertext, tag⟩,
    hread, rfl, rfl, rfl, rfl, ?_, ?_⟩
  · unfold Rest.decodeCiphertext
    rw [rest_decodeField hn, rest_decodeField hc, rest_decodeField ht]
    change Except.ok (Ciphertext.mk id (if UInt32.ofNat (r.version.getD 1) = 0 then 1 else .ofNat (r.version.getD 1))
      (.ofNat (r.formatVersion.getD 2)) nonce ciphertext tag) = _
    rw [version_of_normalizeVersion hversion, hfv]
    rfl
  · unfold Grpc.decodeCiphertext
    rw [grpc_decodeField hn', grpc_decodeField hc', grpc_decodeField ht']
    rfl

theorem not_invalid_of_decryptionFailed (reason : String) :
    ¬ ∃ e : Error, (.error (.error (.decryptionFailed reason)) : Except Abort Bytes) = .error (.error e) ∧
      (e = .invalidCiphertext ∨ ∃ reason, e = .invalidAlgorithm reason) := by
  rintro ⟨e, h, hinvalid⟩
  cases h
  rcases hinvalid with hi | ⟨_, hi⟩ <;> cases hi

/-- The reading of a ciphertext with additional data ends in an invalid ciphertext or the plaintext. -/
theorem opened_invalid_iff {key : Except String Unit} {aad : Except Abort Bytes} {sealed : Bytes → Option Bytes} :
    (∀ abort, aad = .error abort → abort = .error .invalidCiphertext) →
    ((∃ e : Error, (match key with
        | .error reason => (.error (.error (.decryptionFailed reason)) : Except Abort Bytes)
        | .ok _ =>
          match aad with
          | .error abort => .error abort
          | .ok bytes =>
            match sealed bytes with
            | none => .error (.error .invalidCiphertext)
            | some plaintext => .ok plaintext) = .error (.error e) ∧
        (e = .invalidCiphertext ∨ ∃ reason, e = .invalidAlgorithm reason)) ↔
      key = .ok () ∧ ∀ bytes, aad = .ok bytes → sealed bytes = none) := by
  intro haad
  cases key with
  | error reason =>
    exact iff_of_false (not_invalid_of_decryptionFailed reason) fun h => by cases h.1
  | ok u =>
    rw [and_iff_right rfl]
    cases aad with
    | error abort =>
      cases haad abort rfl
      exact iff_of_true ⟨_, rfl, .inl rfl⟩ fun _ h => by cases h
    | ok bytes =>
      cases hopened : sealed bytes with
      | none =>
        refine iff_of_true ⟨.invalidCiphertext, by simp only [hopened], .inl rfl⟩ fun bytes' h => ?_
        cases h
        exact hopened
      | some plaintext =>
        refine iff_of_false ?_ fun h => ?_
        · rintro ⟨e, h, -⟩
          simp only [hopened] at h
          cases h
        · rw [h bytes rfl] at hopened
          cases hopened

theorem decryptAad_error (crypto : Crypto) (tenantId : String) (c : Ciphertext) (e : Abort)
    (h : Software.SoftwareKeystore.decryptAad crypto id tenantId c = .error e) : e = .error .invalidCiphertext := by
  unfold Software.SoftwareKeystore.decryptAad at h
  split at h
  · cases h
  · split at h <;> cases h
    rfl

/-- What the keystore refuses to decrypt as invalid: a ciphertext that the material of its version does not read. -/
theorem decrypt_invalid_iff {tenantId : String} {entry : Software.KeyEntry}
    (hentry : srv.keystore.keys[id]? = some entry)
    (howned : entry.keyMeta.tenantId = tenantId) (c : Ciphertext) :
    (∃ e, srv.keystore.decrypt srv.crypto.toCrypto id c tenantId = .error (.error e) ∧
        (e = .invalidCiphertext ∨ ∃ reason, e = .invalidAlgorithm reason)) ↔
      entry.keyMeta.status.canDecrypt = true ∧
        ∃ material, entry.materialAt c.version = some material ∧ Unreadable srv id entry.keyMeta material c := by
  by_cases hstatus : entry.keyMeta.status.canDecrypt = true
  · rw [and_iff_right hstatus]
    cases hmaterial : entry.materialAt c.version with
    | none =>
      refine iff_of_false ?_ (by rintro ⟨_, h, -⟩; cases h)
      rintro ⟨e, h, hinvalid⟩
      unfold Software.SoftwareKeystore.decrypt at h
      simp only [Software.SoftwareKeystore.entryFor_of_owned hentry howned, bind, Except.bind, hstatus, hmaterial] at h
      cases h
      rcases hinvalid with hi | ⟨_, hi⟩ <;> cases hi
    | some material =>
      rw [Software.SoftwareKeystore.decrypt_of_owned _ hentry howned hstatus hmaterial]
      simp only [Option.some.injEq, exists_eq_left']
      unfold Unreadable Software.SoftwareKeystore.decryptWith
      cases hspec : entry.keyMeta.spec with
      | aes256Gcm | hmacSha256 | sm4 => exact opened_invalid_iff (decryptAad_error _ _ _)
      | sm2 =>
        dsimp only
        cases hkey : srv.crypto.sm2KeyPair material with
        | error reason =>
          exact iff_of_false (not_invalid_of_decryptionFailed reason) fun h => by cases h.1
        | ok u =>
          rw [and_iff_right rfl]
          by_cases hlengths : c.nonce.length ≠ 65 ∨ c.tag.length ≠ 32
          · rw [if_pos hlengths]
            refine iff_of_true ⟨_, rfl, .inl rfl⟩ fun hn ht => ?_
            rcases hlengths with h | h
            · exact absurd hn h
            · exact absurd ht h
          · rw [if_neg hlengths]
            rw [not_or, not_not, not_not] at hlengths
            cases hopened : srv.crypto.sm2Decrypt material (c.nonce ++ c.tag ++ c.ciphertext) with
            | none => exact iff_of_true ⟨_, rfl, .inl rfl⟩ fun _ _ => rfl
            | some plaintext =>
              refine iff_of_false ?_ fun h => by cases h hlengths.1 hlengths.2
              rintro ⟨e, h, -⟩
              cases h
      | _ => exact iff_of_true ⟨_, rfl, .inr ⟨_, rfl⟩⟩ trivial
  · refine iff_of_false ?_ fun h => hstatus h.1
    rintro ⟨e, h, hinvalid⟩
    unfold Software.SoftwareKeystore.decrypt at h
    simp only [Software.SoftwareKeystore.entryFor_of_owned hentry howned, bind, Except.bind, hstatus] at h
    cases h
    rcases hinvalid with hi | ⟨_, hi⟩ <;> cases hi

theorem agree_decrypt_iff {r : Rest.DecryptBody} {g : Grpc.DecryptRequest}
    (h : (decrypt id query r g).Corresponds srv) :
    (decrypt id query r g).Agree srv caller ↔ (decrypt id query r g).AgreesWhen srv caller := by
  have hcorresponds := h
  obtain ⟨hid, htenant, -, -, -, haad, -⟩ := h
  change srv.Agreement _ (Rest.decrypt srv caller id query r) (srv.through (Grpc.admitted srv caller .decrypt "decrypt"
    g.keyId g.tenantId >>= fun x => do
      let ciphertext ← Grpc.decodeCiphertext x.1 g
      return (x.1, x.2, ciphertext)) _) ↔ _
  rw [admitted_bind hid]
  refine (agreement_permission (ApiKeyPermission.satisfies_crypto _ (by simp))).trans (or_congr_right ?_)
  by_cases hformat : r.formatVersion.getD 2 < 2 ^ 8
  · obtain ⟨req, c, hread, hciphertext, hnonce, htag, hreqAad, hrest, hgrpcCiphertext⟩ :=
      decodeCiphertext_of_corresponds hcorresponds hformat
    rw [hread, through_ok_bind, agreement_pbac htenant, hciphertext, hnonce, htag, hreqAad, haad, hrest,
      hgrpcCiphertext]
    rw [and_iff_right hformat]
    refine or_congr_right ?_
    cases hvalid : Validation.validateDecryptRequest srv.decodeError r.ciphertext r.nonce r.tag none with
    | ok u =>
      refine iff_of_true ?_ (.inl rfl)
      refine agreement_map.2 (agreement_serveCrypto (fun _ => Base64.decode_encode _) ?_)
      exact perform_of_no_change srv.crypto (.decrypt c) rfl
    | error e =>
      simp only [reduceCtorEq, false_or]
      refine agreement_refuse_left.trans (agreement_invalid_iff.trans ?_)
      refine (checked_invalid_iff (.decrypt id c _) fun _ _ _ => rfl).trans (and_congr_right fun _ => ?_)
      refine exists_congr fun entry => and_congr_right fun ho => ?_
      refine (decrypt_invalid_iff ho.1 ho.2 c).trans (and_congr_right fun _ => ?_)
      constructor
      · intro hunreadable
        exact ⟨c, rfl, hunreadable⟩
      · rintro ⟨c', hc', hunreadable⟩
        cases hc'
        exact hunreadable
  · have hunread : r.deserialize = .error (.status .unprocessableEntity) := by
      unfold Rest.DecryptBody.deserialize
      exact if_neg fun hfits => hformat hfits.1
    rw [hunread, through_error_bind]
    refine iff_of_false ?_ fun hagrees => hformat hagrees.1
    intro hagree
    obtain ⟨e', -, hclass, -⟩ := agreement_refuse_left.1 hagree
    exact failureClass_ne_unprocessable e' hclass.symm

end

/-! ## Import -/

/-- Whatever the parser of formats refuses is an invalid request. -/
def OnlyInvalid (x : Except ApiAbort Bytes) : Prop :=
  ∀ e, x = .error (.error e) → ∃ reason, e = .invalidRequest reason

section

variable {F : Type} {srv : Server F} {caller : Caller}

theorem onlyInvalid_invalid (reason : String) : OnlyInvalid (KeyFormatParser.invalid reason) := by
  intro e h
  cases h
  exact ⟨_, rfl⟩

theorem onlyInvalid_decodeMember (jwk : Json F) (missing name : String) :
    OnlyInvalid (KeyFormatParser.decodeMember jwk missing name) := by
  unfold KeyFormatParser.decodeMember
  split
  · exact onlyInvalid_invalid _
  · split
    · exact onlyInvalid_invalid _
    · intro e h
      cases h

theorem onlyInvalid_parsePkcs8 (keyData : Bytes) : OnlyInvalid (KeyFormatParser.parsePkcs8 keyData) := by
  unfold KeyFormatParser.parsePkcs8
  repeat' split
  -- a value and the panic are no errors
  all_goals first
    | exact onlyInvalid_invalid _
    | (intro e h; cases h)

theorem onlyInvalid_parseJwk (fromStr : String → Option (Json F)) (keyData : Bytes) :
    OnlyInvalid (KeyFormatParser.parseJwk fromStr keyData) := by
  unfold KeyFormatParser.parseJwk KeyFormatParser.parseJwkRsa
  repeat' split
  all_goals first
    | exact onlyInvalid_invalid _
    | exact onlyInvalid_decodeMember _ _ _

theorem onlyInvalid_parse (fromStr : String → Option (Json F)) (format : String) (keyData : Bytes) :
    OnlyInvalid (KeyFormatParser.parse fromStr format keyData) := by
  unfold KeyFormatParser.parse
  dsimp only
  split_ifs
  · intro e h
    cases h
  · exact onlyInvalid_parsePkcs8 keyData
  · exact onlyInvalid_parseJwk fromStr keyData
  · intro e h
    cases h
    exact ⟨_, rfl⟩

theorem onlyInvalid_importChecks (fromStr : String → Option (Json F)) (spec : KeySpec) (format : String)
    (wrappedKey encryptedTransportKey : Bytes) (sourceFingerprint : String) :
    OnlyInvalid (KeyService.importChecks fromStr spec format wrappedKey encryptedTransportKey sourceFingerprint) := by
  unfold KeyService.importChecks
  repeat' split
  · intro e h
    cases h
    exact ⟨_, rfl⟩
  · intro e h
    cases h
    exact ⟨_, rfl⟩
  · intro e h
    cases h
    exact ⟨_, rfl⟩
  · exact onlyInvalid_parse fromStr format wrappedKey

/-- The keystore refuses material as an invalid algorithm, or it panics. -/
theorem checkImport_error {spec : KeySpec} {material : Bytes} {e : Error}
    (h : checkImport spec material = .error (.error e)) : ∃ reason, e = .invalidAlgorithm reason := by
  unfold checkImport at h
  split at h
  · cases h
    exact ⟨_, rfl⟩
  · cases h
  · split at h
    · cases h
      exact ⟨_, rfl⟩
    · cases h

/-- What REST makes of the material that its checks let through. -/
theorem runOn_importKey {spec : KeySpec} {name format sourceFingerprint tenant : String}
    {wrappedKey transportKey : Bytes} :
    runOn srv.crypto.toCrypto srv.env.toUseEnv
        (KeyService.importKey srv.fromStr srv.env spec name format wrappedKey transportKey sourceFingerprint tenant)
        srv.keystore =
      match KeyService.importChecks srv.fromStr spec format wrappedKey transportKey sourceFingerprint with
      | .error e => (.error e, srv.keystore)
      | .ok material =>
        if srv.env.canCreateKey then
          (answer apiError (srv.keystore.importKeyMaterial srv.env.toEnv spec name tenant material).1,
            (srv.keystore.importKeyMaterial srv.env.toEnv spec name tenant material).2)
        else (.error (.error (.quotaExceeded "keys" 0 0)), srv.keystore) := by
  unfold KeyService.importKey
  cases KeyService.importChecks srv.fromStr spec format wrappedKey transportKey sourceFingerprint with
  | error e => rfl
  | ok material =>
    refine (runOn_bind_ok (runOn_lift _ _ _ _)).trans ?_
    cases srv.env.canCreateKey <;> rfl

/-- Where REST refuses an import, gRPC agrees only by a panic: what it refuses itself is an internal error. -/
theorem agreement_importRefused {α : Type} {same : α → Grpc.Key → Prop} {spec : KeySpec} {name tenant : String}
    {material : Bytes}
    {e : Rest.Refusal} {quota : List QuotaWrite} (he : e.failureClass ≠ .internal) (hquota : quota = []) :
    srv.Agreement same ⟨.error e, srv.keystore, quota⟩ (Handled.map Grpc.Key.ofMeta
        ⟨(srv.keystore.importKeyMaterial srv.env.toEnv spec name tenant material).1.mapError Grpc.importError,
          (srv.keystore.importKeyMaterial srv.env.toEnv spec name tenant material).2, []⟩) ↔
      e.failureClass = .panic ∧ ∃ message, checkImport spec material = .error (.panic message) := by
  unfold Software.SoftwareKeystore.importKeyMaterial
  cases hown : checkImport spec material with
  | ok u => exact iff_of_false id (by rintro ⟨-, _, h⟩; cases h)
  | error abort =>
    cases abort with
    | error e' =>
      obtain ⟨reason, rfl⟩ := checkImport_error hown
      exact iff_of_false (fun h => he h.1) (by rintro ⟨-, _, h⟩; cases h)
    | panic message =>
      constructor
      · exact fun h => ⟨h.1, message, rfl⟩
      · exact fun h => agreement_errors h.1 hquota

/-- What the two handlers of an import leave once the specification is read. -/
theorem agreement_import_iff {r : Rest.ImportKeyRequest} {g : Grpc.ImportKeyRequest} {spec : KeySpec} {tenant : String}
    {transportKey : Bytes} (htransport : Base64.decode r.encryptedTransportKey = some transportKey) :
    srv.Agreement (fun (a : Rest.ImportKeyResponse) (b : Grpc.Key) => a.id = b.id ∧ a.spec = b.spec)
        ((srv.serveNewKey Rest.Refusal.ofAbort tenant
          (KeyService.importKey srv.fromStr srv.env spec r.name r.format g.keyMaterial transportKey r.sourceFingerprint
            tenant)).map fun m => ⟨m.id.text, m.spec.debug, true, r.sourceFingerprint⟩)
        (Handled.map Grpc.Key.ofMeta
          ⟨(srv.keystore.importKeyMaterial srv.env.toEnv spec r.name tenant g.keyMaterial).1.mapError Grpc.importError,
            (srv.keystore.importKeyMaterial srv.env.toEnv spec r.name tenant g.keyMaterial).2, []⟩) ↔
      ImportsAlike srv r g spec := by
  have halike : ImportsAlike srv r g spec ↔
      match KeyService.importChecks srv.fromStr spec r.format g.keyMaterial transportKey r.sourceFingerprint with
      | .error (.error _) => False
      | .error (.panic _) => ∃ message, checkImport spec g.keyMaterial = .error (.panic message)
      | .ok material => srv.env.canCreateKey = true ∧
          ((material = g.keyMaterial ∧ checkImport spec material = .ok () ∧ srv.quotaTracker = false) ∨
            (∃ message, checkImport spec material = .error (.panic message)) ∧
              ∃ message, checkImport spec g.keyMaterial = .error (.panic message)) := by
    constructor
    · rintro ⟨transportKey', htransport', h⟩
      rw [htransport, Option.some.injEq] at htransport'
      exact htransport' ▸ h
    · intro h
      exact ⟨transportKey, htransport, h⟩
  rw [halike, Server.serveNewKey, Server.serve, runOn_importKey]
  cases hchecks : KeyService.importChecks srv.fromStr spec r.format g.keyMaterial transportKey r.sourceFingerprint with
  | error abort =>
    cases abort with
    | error e =>
      obtain ⟨reason, rfl⟩ := onlyInvalid_importChecks _ _ _ _ _ _ e hchecks
      refine (agreement_importRefused ?_ (ite_self _)).trans (iff_of_false ?_ id)
      · nofun
      · rintro ⟨h, -⟩
        cases h
    | panic message =>
      refine (agreement_importRefused ?_ (ite_self _)).trans (and_iff_right rfl)
      nofun
  | ok material =>
    dsimp only
    cases hquota : srv.env.canCreateKey with
    | false =>
      refine (agreement_importRefused ?_ (ite_self _)).trans (iff_of_false ?_ fun h => ?_)
      · decide
      · rintro ⟨h, -⟩
        cases h
      · cases h.1
    | true =>
      rw [if_pos rfl, and_iff_right rfl]
      cases hmaterial : checkImport spec material with
      | ok u =>
        unfold Software.SoftwareKeystore.importKeyMaterial
        rw [hmaterial]
        cases hown : checkImport spec g.keyMaterial with
        | ok _ =>
          constructor
          · rintro ⟨-, hkeystore, hcounted⟩
            refine .inl ⟨?_, rfl, ?_⟩
            · -- the new entries hold the two materials
              have hlookup := congrArg (fun ks : Software.SoftwareKeystore => ks.keys[srv.env.uuid]?) hkeystore
              simp only [Handled.map, Software.SoftwareKeystore.keys_put, if_true, Option.some.injEq,
                Software.KeyEntry.mk.injEq] at hlookup
              exact hlookup.2.1
            · cases htracker : srv.quotaTracker with
              | false => rfl
              | true =>
                simp only [Handled.map, htracker, if_true] at hcounted
                cases hcounted
          · rintro (⟨rfl, -, htracker⟩ | ⟨⟨_, h⟩, -⟩)
            · refine ⟨⟨rfl, rfl⟩, rfl, ?_⟩
              simp only [Handled.map, htracker, Bool.false_eq_true, if_false]
            · cases h
        | error abort =>
          refine iff_of_false id ?_
          rintro (⟨rfl, -⟩ | ⟨⟨_, h⟩, -⟩)
          · rw [hmaterial] at hown
            cases hown
          · cases h
      | error abort =>
        have hrefused : srv.keystore.importKeyMaterial srv.env.toEnv spec r.name tenant material =
            (.error abort, srv.keystore) := by
          rw [Software.SoftwareKeystore.importKeyMaterial, hmaterial]
        refine Iff.trans ?_ (or_iff_right (by rintro ⟨-, h, -⟩; cases h)).symm
        rw [hrefused]
        cases abort with
        | error e =>
          obtain ⟨reason, rfl⟩ := checkImport_error hmaterial
          refine (agreement_importRefused ?_ (ite_self _)).trans (iff_of_false ?_ ?_)
          · nofun
          · rintro ⟨h, -⟩
            cases h
          · rintro ⟨⟨_, h⟩, -⟩
            cases h
        | panic message =>
          refine (agreement_importRefused ?_ (ite_self _)).trans (and_congr_left' ?_)
          · nofun
          · exact iff_of_true rfl ⟨message, rfl⟩

theorem agree_importKey_iff {r : Rest.ImportKeyRequest} {g : Grpc.ImportKeyRequest}
    (h : (importKey r g).Corresponds srv) : (importKey r g).Agree srv caller ↔
      (importKey r g).AgreesWhen srv caller := by
  obtain ⟨hname, hspec, ht, hmaterial, htransport⟩ := h
  obtain ⟨transportKey, htransport⟩ := Option.isSome_iff_exists.1 htransport
  refine (agreement_permission (ApiKeyPermission.satisfies_lifecycle _ (by simp))).trans ?_
  rw [← hname, ← hspec, agreement_pbac ht]
  refine Iff.trans (or_congr_right (or_congr_right ?_)) or_assoc.symm
  cases hparsed : KeyService.parseSpec r.spec with
  | error abort =>
    refine iff_of_true (agreement_refuse (sameFailure_ofAbort abort)) ?_
    intro spec h
    cases h
  | ok spec =>
    have hrest : ∀ message : String, Rest.decodeField r.wrappedKey message = .ok g.keyMaterial := fun _ =>
      rest_decodeField hmaterial
    have hkey : ∀ message : String, Rest.decodeField r.encryptedTransportKey message = .ok transportKey := fun _ =>
      rest_decodeField htransport
    rw [hrest, hkey]
    refine (agreement_import_iff htransport).trans ?_
    constructor
    · intro h spec' hspec'
      cases hspec'
      exact h
    · intro h
      exact h spec rfl

/-- The channels agree on corresponding requests in exactly these cases. -/
theorem agree_iff_agreesWhen {p : RequestPair} (h : p.Corresponds srv) : p.Agree srv caller ↔
    p.AgreesWhen srv caller := by
  cases p with
  | createKey => exact agree_createKey_iff h
  | importKey => exact agree_importKey_iff h
  | getKey => exact iff_of_true (agree_getKey h) trivial
  | rotateKey => exact agree_rotateKey_iff h
  | deleteKey => exact agree_deleteKey_iff h
  | exportKey => exact agree_exportKey_iff h
  | encrypt => exact agree_encrypt_iff h
  | decrypt => exact agree_decrypt_iff h
  | sign => exact iff_of_true (agree_sign h) trivial
  | verify => exact iff_of_true (agree_verify h) trivial
  | hmac => exact iff_of_true (agree_hmac h) trivial
  | hmacVerify => exact iff_of_true (agree_hmacVerify h) trivial

end

/-! ## A server with one key -/

/-- The tenant `acme` has one key, no tracker is configured and no policy denies. -/
def channelServer : Server ℕ where
  crypto := .plain
  outside := sampleServiceEnv 7
  keystore := Software.SoftwareKeystore.new.put 1
    { keyMeta := Software.SoftwareKeystore.newMeta (sampleServiceEnv 7).toEnv .aes256Gcm "orders" "acme" none
      material := List.replicate 32 9
      versions := [] }
  quotaTracker := false
  evaluatePbac _ _ _ _ := .allowed
  approvalManager := .new
  now := 0
  parseUuid s := if s = Uuid.text 1 then some 1 else none
  decodeError _ := "Invalid padding"
  fromStr _ := none

def keyAdmin : Caller := ⟨.keyAdmin, "admin", some "acme"⟩

/-- One ciphertext of the key, sent to both channels with a format version. -/
def decryptPair (formatVersion : UInt32) : RequestPair :=
  .decrypt 1 ⟨"acme", none⟩
    ⟨Base64.encode [1, 2, 3], Base64.encode (List.replicate 16 7), Base64.encode (List.replicate 16 0), none,
      some formatVersion.toNat, some 1⟩
    ⟨Uuid.text 1, Base64.encode [1, 2, 3], Base64.encode (List.replicate 16 7), Base64.encode (List.replicate 16 0), 1,
      "acme", some formatVersion⟩

theorem decryptPair_corresponds (formatVersion : UInt32) : (decryptPair formatVersion).Corresponds channelServer := by
  have hid : channelServer.parseUuid (Uuid.text 1) = some 1 := by
    simp only [channelServer, if_true]
  refine ⟨hid, ⟨rfl, by decide⟩, ⟨_, Base64.decode_encode _, Base64.decode_encode _⟩,
    ⟨_, Base64.decode_encode _, Base64.decode_encode _⟩, ⟨_, Base64.decode_encode _, Base64.decode_encode _⟩, rfl, rfl,
    rfl⟩

theorem agree_decryptPair : (decryptPair 2).Corresponds channelServer ∧
    ((decryptPair 2).Agree channelServer keyAdmin ↔ (decryptPair 2).AgreesWhen channelServer keyAdmin) :=
  ⟨decryptPair_corresponds 2, agree_iff_agreesWhen (decryptPair_corresponds 2)⟩

/-- Format version 258 is refused by REST; gRPC takes it for 2 and decrypts. -/
theorem not_agree_decryptPair : (decryptPair 258).Corresponds channelServer ∧
    ¬ (decryptPair 258).Agree channelServer keyAdmin := by
  refine ⟨decryptPair_corresponds 258, fun h => ?_⟩
  rcases (agree_decrypt_iff (decryptPair_corresponds 258)).1 h with hrole | ⟨hformat, -⟩
  · cases hrole
  · exact absurd hformat (by decide)

end GmKms.Api
