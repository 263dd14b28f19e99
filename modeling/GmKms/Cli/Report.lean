import GmKms.Api.Rest
import GmKms.Audit.PlainFormats
/-!
# The compliance report

The command line reads the key inventory that the server lists and judges it by fixed lists of algorithms.
-/

namespace GmKms.Cli

open Lib

/-- A key as the report reads it. -/
structure KeyEntry where
  keyId : String
  name : String
  spec : String
  status : String
  tenantId : String
  createdAt : String
  expiresAt : Option String
  version : UInt32

/-! ## Rules -/

inductive RuleStatus where
  | pass | fail | warn
  deriving DecidableEq, Repr

structure ComplianceRuleResult where
  id : String
  category : String
  requirement : String
  status : RuleStatus
  evidence : String
  details : List String

structure ComplianceSection where
  overall : RuleStatus
  rules : List ComplianceRuleResult

def ComplianceSection.new (rules : List ComplianceRuleResult) : ComplianceSection :=
  let overall :=
    if rules.any (·.status = .fail) then .fail
    else if rules.any (·.status = .warn) then .warn
    else .pass
  ⟨overall, rules⟩

def approvedAlgorithms : List String :=
  ["aes-256-gcm", "ed25519", "ecdsa-p256", "ecdsa-p384", "sm4", "sm2", "sm9-signing", "sm9-encryption", "hmac-sha256",
    "ed448", "rsa4096"]

def deprecatedAlgorithms : List String :=
  ["des", "3des", "rc4", "rc5", "md5", "sha1", "aes-128-ecb", "aes-128-cbc", "rsa1024", "rsa2048"]

/-- A rule that takes the status `bad` when it has anything to report. -/
def ruleResult (id category requirement evidence : String) (bad : RuleStatus) (details : List String) :
    ComplianceRuleResult :=
  { id, category, requirement, status := if details.isEmpty then .pass else bad, evidence, details }

def checkCrypto001 (keys : List KeyEntry) : ComplianceRuleResult :=
  let unapproved := (keys.filter fun k => k.spec ∉ approvedAlgorithms).map fun k => s!"{k.spec} (key: {k.name})"
  let evidence :=
    if unapproved.isEmpty then s!"All {keys.length} keys use approved algorithms"
    else s!"{unapproved.length} keys use unapproved algorithms"
  ruleResult "CRYPTO-001" "crypto" "All algorithms are approved for DJCP Level 3" evidence .fail unapproved

def checkCrypto002 (keys : List KeyEntry) : ComplianceRuleResult :=
  let weakKeys := (keys.filter fun k => k.spec ∈ ["rsa2048", "rsa1024"]).map fun k =>
    s!"{k.name} uses weak key length (spec: {k.spec})"
  ruleResult "CRYPTO-002" "crypto" "All symmetric keys meet minimum strength (SM4: 128-bit, AES: 256-bit)"
    "Key strengths verified against DJCP requirements" .fail weakKeys

def checkCrypto004 (keys : List KeyEntry) : ComplianceRuleResult :=
  let deprecated := (keys.filter fun k => k.spec ∈ deprecatedAlgorithms).map fun k =>
    s!"{k.name} uses deprecated algorithm {k.spec}"
  let evidence :=
    if deprecated.isEmpty then "No deprecated algorithms found"
    else s!"{deprecated.length} keys use deprecated algorithms"
  ruleResult "CRYPTO-004" "crypto" "No deprecated algorithms (DES, RC4, MD5, SHA1)" evidence .fail deprecated

def knownStatuses : List String :=
  ["active", "Active", "pending_deletion", "PendingDeletion", "obsolete", "Obsolete", "destroyed", "Destroyed"]

def checkKeymgmt001 (keys : List KeyEntry) : ComplianceRuleResult :=
  let unknownStatus := (keys.filter fun k => k.status ∉ knownStatuses).map fun k =>
    s!"{k.name} has unknown status: {k.status}"
  ruleResult "KEYMGMT-001" "key-mgmt" "All keys have a defined lifecycle status"
    s!"{keys.length - unknownStatus.length} of {keys.length} keys have recognized lifecycle statuses" .warn
    unknownStatus

/-- Three obsolete keys are tolerated. -/
def checkKeymgmt003 (keys : List KeyEntry) : ComplianceRuleResult :=
  let obsolete := (keys.filter fun k => k.status ∈ ["obsolete", "Obsolete"]).map fun k =>
    s!"Obsolete key: {k.name} ({k.keyId})"
  { id := "KEYMGMT-003"
    category := "key-mgmt"
    requirement := "Obsolete keys should be rotated or destroyed in a timely manner"
    status := if obsolete.length ≤ 3 then .pass else .warn
    evidence := s!"{obsolete.length} obsolete keys found"
    details := obsolete }

def evaluateCompliance (keys : List KeyEntry) : ComplianceSection :=
  .new [checkCrypto001 keys, checkCrypto002 keys, checkCrypto004 keys, checkKeymgmt001 keys, checkKeymgmt003 keys]

theorem status_ruleResult_iff {id category requirement evidence : String} {bad : RuleStatus} {details : List String}
    (hbad : bad ≠ .pass) : (ruleResult id category requirement evidence bad details).status = bad ↔ details ≠ [] := by
  unfold ruleResult
  cases details <;> simp [hbad.symm]

/-- A rule about single keys reports exactly when one of them is flagged. -/
theorem map_filter_ne_nil_iff {keys : List KeyEntry} {flags : KeyEntry → Bool} {detail : KeyEntry → String} :
    (keys.filter flags).map detail ≠ [] ↔ ∃ k ∈ keys, flags k = true := by
  simp [List.filter_eq_nil_iff]

theorem checkCrypto001_fails_iff {keys : List KeyEntry} :
    (checkCrypto001 keys).status = .fail ↔ ∃ k ∈ keys, k.spec ∉ approvedAlgorithms := by
  rw [checkCrypto001, status_ruleResult_iff (by decide), map_filter_ne_nil_iff]
  simp only [decide_eq_true_eq]

theorem checkCrypto004_fails_iff {keys : List KeyEntry} :
    (checkCrypto004 keys).status = .fail ↔ ∃ k ∈ keys, k.spec ∈ deprecatedAlgorithms := by
  rw [checkCrypto004, status_ruleResult_iff (by decide), map_filter_ne_nil_iff]
  simp only [decide_eq_true_eq]

theorem overall_new_fails_iff {rules : List ComplianceRuleResult} :
    (ComplianceSection.new rules).overall = .fail ↔ ∃ rule ∈ rules, rule.status = .fail := by
  simp only [ComplianceSection.new]
  split_ifs with hfail hwarn <;> simpa using hfail

/-- What the other rules fail a key for is not approved either. -/
theorem evaluateCompliance_fails_iff {keys : List KeyEntry} :
    (evaluateCompliance keys).overall = .fail ↔ ∃ k ∈ keys, k.spec ∉ approvedAlgorithms := by
  have hweak : (checkCrypto002 keys).status = .fail → (checkCrypto001 keys).status = .fail := by
    rw [checkCrypto002, status_ruleResult_iff (by decide), map_filter_ne_nil_iff, checkCrypto001_fails_iff]
    rintro ⟨k, hk, hspec⟩
    have hnone : ∀ spec ∈ ["rsa2048", "rsa1024"], spec ∉ approvedAlgorithms := by decide
    exact ⟨k, hk, hnone _ (of_decide_eq_true hspec)⟩
  have hdeprecated : (checkCrypto004 keys).status = .fail → (checkCrypto001 keys).status = .fail := by
    rw [checkCrypto001_fails_iff, checkCrypto004_fails_iff]
    rintro ⟨k, hk, hspec⟩
    have hnone : ∀ spec ∈ deprecatedAlgorithms, spec ∉ approvedAlgorithms := by decide
    exact ⟨k, hk, hnone _ hspec⟩
  -- the rules on statuses only warn
  have hunknown : (checkKeymgmt001 keys).status ≠ .fail := by
    simp only [checkKeymgmt001, ruleResult]
    split_ifs <;> decide
  have hobsolete : (checkKeymgmt003 keys).status ≠ .fail := by
    simp only [checkKeymgmt003]
    split_ifs <;> decide
  rw [← checkCrypto001_fails_iff, evaluateCompliance, overall_new_fails_iff]
  constructor
  · rintro ⟨rule, hrule, hfail⟩
    simp only [List.mem_cons, List.not_mem_nil, or_false] at hrule
    rcases hrule with rfl | rfl | rfl | rfl | rfl
    · exact hfail
    · exact hweak hfail
    · exact hdeprecated hfail
    · exact absurd hfail hunknown
    · exact absurd hfail hobsolete
  · exact fun hfail => ⟨_, List.mem_cons_self, hfail⟩

/-! ## What the server writes -/

section

variable {F : Type}

/-- The derived `Serialize`, with `chrono`'s RFC 3339 form of a time. -/
def keyResponseJson (toRfc3339 : DateTime → String) (r : Api.Rest.KeyResponse) : Json F :=
  .obj
    [("id", .str r.id.text), ("tenant_id", .str r.tenantId), ("name", .str r.name), ("spec", .str r.spec),
      ("status", .str r.status), ("version", .int r.version.toNat), ("created_at", .str (toRfc3339 r.createdAt))]

/-- The body of the answer of `list_keys`. -/
def listBody (ft : JsonText.FloatText F) (toRfc3339 : DateTime → String) (keys : List KeyMeta) : Text :=
  JsonText.write ft (.arr ((keys.map Api.Rest.KeyResponse.ofMeta).map (keyResponseJson toRfc3339)))

/-! ## What the report reads -/

/-- The derived `Deserialize` for an object: `expires_at` and `version` have defaults. -/
def KeyEntry.ofJson? : Json F → Option KeyEntry
  | .obj fields => do
    let keyId ← (← Json.required? fields "key_id").asString?
    let name ← (← Json.required? fields "name").asString?
    let spec ← (← Json.required? fields "spec").asString?
    let status ← (← Json.required? fields "status").asString?
    let tenantId ← (← Json.required? fields "tenant_id").asString?
    let createdAt ← (← Json.required? fields "created_at").asString?
    let expiresAt ← (← Json.once? fields "expires_at").elim (some none) fun
      | .null => some none
      | j => j.asString?.map some
    let version ← (← Json.once? fields "version").elim (some 0) (·.asUnsigned? 32)
    return { keyId, name, spec, status, tenantId, createdAt, expiresAt, version := .ofNat version }
  | _ => none

/-- `resp.json()` at the type `Vec<KeyEntry>`. -/
def readKeys (ft : JsonText.FloatText F) (body : Text) : Option (List KeyEntry) :=
  match JsonText.read ft Audit.recursionLimit body with
  | some (.arr items) => items.mapM KeyEntry.ofJson?
  | _ => none

/-! ## The verdict -/

/-- An algorithm that the server knows under an approved name. -/
def Approved (spec : KeySpec) : Prop := ∃ name ∈ approvedAlgorithms, Api.KeyService.parseSpec name = .ok spec

def Deprecated (spec : KeySpec) : Prop := ∃ name ∈ deprecatedAlgorithms, Api.KeyService.parseSpec name = .ok spec

/-- The report has the ids, algorithms and statuses that the server lists, and judges the algorithms rightly. -/
structure ReadsInventory (ft : JsonText.FloatText F) (toRfc3339 : DateTime → String) (keys : List KeyMeta)
    (entries : List KeyEntry) : Prop where
  read : readKeys ft (listBody ft toRfc3339 keys) = some entries
  ids : entries.map (·.keyId) = keys.map (·.id.text)
  specs : entries.map (·.spec) = keys.map (·.spec.debug)
  statuses : entries.map (·.status) = keys.map (·.status.debug)
  crypto001 : (checkCrypto001 entries).status = .fail ↔ ∃ key ∈ keys, ¬ Approved key.spec
  crypto004 : (checkCrypto004 entries).status = .fail ↔ ∃ key ∈ keys, Deprecated key.spec

variable {ft : JsonText.FloatText F} {reparse : F → F}

/-- The server writes no `key_id`. -/
theorem ofJson?_keyResponseJson (toRfc3339 : DateTime → String) (r : Api.Rest.KeyResponse) :
    KeyEntry.ofJson? ((keyResponseJson toRfc3339 r : Json F).mapFloat reparse) = none := by
  rw [keyResponseJson, Json.mapFloat_obj, KeyEntry.ofJson?, Json.required?_of_not_mem]
  · rfl
  · simp only [List.map_cons, List.map_nil, List.mem_cons, String.reduceEq, List.not_mem_nil, or_self,
      not_false_eq_true]

theorem intsFit_keyResponseJson (toRfc3339 : DateTime → String) (r : Api.Rest.KeyResponse) :
    (keyResponseJson toRfc3339 r : Json F).IntsFit := by
  have hversion : Json.Int64Fits r.version.toNat := ⟨by omega, by have := r.version.toNat_lt; omega⟩
  refine Json.intsFitFields_iff.2 ?_
  simp [Json.IntsFit, hversion]

theorem depth_keyResponseJson_le (toRfc3339 : DateTime → String) (r : Api.Rest.KeyResponse) :
    (keyResponseJson toRfc3339 r : Json F).depth ≤ 1 := by
  simp [keyResponseJson, Json.depth, Json.depthFields]

/-- Any key in the list makes the whole list unreadable. -/
theorem readKeys_listBody (hft : ft.Lawful reparse) (toRfc3339 : DateTime → String) (keys : List KeyMeta) :
    readKeys ft (listBody ft toRfc3339 keys) = if keys = [] then some [] else none := by
  have hints : (Json.arr ((keys.map Api.Rest.KeyResponse.ofMeta).map (keyResponseJson toRfc3339)) :
      Json F).IntsFit := by
    refine Json.intsFitItems_iff.2 fun j hj => ?_
    obtain ⟨r, -, rfl⟩ := List.mem_map.1 hj
    exact intsFit_keyResponseJson toRfc3339 r
  have hdepth : (Json.arr ((keys.map Api.Rest.KeyResponse.ofMeta).map (keyResponseJson toRfc3339)) : Json F).depth ≤
      Audit.recursionLimit := by
    refine (Nat.succ_le_succ (Json.depthItems_le_iff.2 fun j hj => ?_)).trans (by decide : 2 ≤ Audit.recursionLimit)
    obtain ⟨r, -, rfl⟩ := List.mem_map.1 hj
    exact depth_keyResponseJson_le toRfc3339 r
  rw [readKeys, listBody, JsonText.read_write hft hints, if_pos hdepth, Json.mapFloat_arr]
  cases keys with
  | nil => rfl
  | cons key keys =>
    rw [if_neg (List.cons_ne_nil _ _)]
    simp only [List.map_cons, List.mapM_cons, ofJson?_keyResponseJson]
    rfl

/-- The report reads the server's inventory and judges it rightly exactly when there is nothing in it. -/
theorem readsInventory_iff (hft : ft.Lawful reparse) (toRfc3339 : DateTime → String) (keys : List KeyMeta) :
    (∃ entries, ReadsInventory ft toRfc3339 keys entries) ↔ keys = [] := by
  constructor
  · rintro ⟨entries, h⟩
    by_contra hne
    have hread := h.read
    rw [readKeys_listBody hft, if_neg hne] at hread
    cases hread
  · rintro rfl
    refine ⟨[], ?_, rfl, rfl, rfl, ?_, ?_⟩
    · rw [readKeys_listBody hft, if_pos rfl]
    · simp [checkCrypto001_fails_iff]
    · simp [checkCrypto004_fails_iff]

theorem readsInventory_iff_noFloats :
    (∃ entries, ReadsInventory Audit.noFloats (fun _ => "1970-01-01T00:00:00+00:00") [] entries) ↔
      ([] : List KeyMeta) = [] :=
  readsInventory_iff Audit.noFloats_lawful _ []

/-- A key with an approved algorithm. -/
def listedKey : KeyMeta :=
  Keystore.Software.SoftwareKeystore.newMeta ⟨1, 0, fun _ => 0, .error "not drawn"⟩ .aes256Gcm "app-key" "tenant-1" none

theorem not_readsInventory_listedKey :
    ¬ ∃ entries, ReadsInventory Audit.noFloats (fun _ => "1970-01-01T00:00:00+00:00") [listedKey] entries := by
  rintro ⟨entries, h⟩
  have hread := h.read
  rw [readKeys_listBody Audit.noFloats_lawful, if_neg (List.cons_ne_nil _ _)] at hread
  cases hread

/-- The server's names of the algorithms are not those of the report: if it could read a key it would disapprove. -/
theorem debug_not_approved (spec : KeySpec) : spec.debug ∉ approvedAlgorithms := by
  cases spec <;> decide

end

end GmKms.Cli
