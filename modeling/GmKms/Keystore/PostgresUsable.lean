import GmKms.Keystore.PostgresValid
import GmKms.Keystore.SoftwareUsable
/-!
# Keys that work

A key that a keystore has handed out signs and encrypts for its owner while it is
active: in both keystores, over runs whose imports bring valid material and whose SM2
keys are generated in range.
-/

namespace GmKms.Keystore

namespace Postgres

open Lib Lib.Effect

/-- The key signs and encrypts for its owner, as far as keys of its specification do, over a database that answers. -/
structure Usable (crypto : Crypto) (s : Store) (m : KeyMeta) : Prop where
  signs : signs m.spec = true → ∀ env env' data, (∀ c, env.fault c = none) → (∀ c, env'.fault c = none) →
    ∃ sig s', outcome (sign crypto env m.id data m.tenantId) s = (.ok sig, s') ∧
      (outcome (verify crypto env' m.id data sig m.tenantId) s').1 = .ok true
  encrypts : encrypts m.spec = true → ∀ env env' plaintext, (∀ c, env.fault c = none) → (∀ c, env'.fault c = none) →
    env.random 0 ≠ none → ∃ ciphertext s', outcome (encrypt crypto env m.id plaintext m.tenantId) s =
    (.ok ciphertext, s') ∧
      (outcome (decrypt crypto env' m.id ciphertext m.tenantId) s').1 = .ok plaintext

/-- After the run every key that it has handed out works while it is active, and every SM2 key that is stored, as
current material or as that of a version, is in range. -/
structure KeysUsable (crypto : Crypto) (s : Store) (is : List Call) : Prop where
  usable : ∀ is₁ c is₂ m env current, is = is₁ ++ c :: is₂ →
    handedOut? c.op (call crypto ((call crypto).final s is₁) c).1 = some m → (∀ c, env.fault c = none) →
    (outcome (getKeyMetadata env m.id) ((call crypto).final s is)).1 = .ok current → current.status = .active →
    Usable crypto ((call crypto).final s is) m
  cached : ∀ (id : Uuid) (e : KeyEntry), ((call crypto).final s is).keys.map[id]? = some e → e.keyMeta.spec = .sm2 →
    Sm2Scalar e.material
  stored : ∀ (id : Uuid) (row : KeyRow) encrypted, ((call crypto).final s is).db.keys[id]? = some row →
    row.spec = "Sm2" →
    (row.encryptedMaterial = some encrypted ∨
      ∃ v ∈ ((call crypto).final s is).db.keyVersions, v.keyId = id ∧ v.encryptedDek = some encrypted) →
    ∃ material, decryptMaterial crypto s.kek id encrypted = .ok material ∧ Sm2Scalar material

section

variable {crypto : Crypto} {kek : Bytes} {ids : List Uuid} {ms : List KeyMeta} {s : Store}

/-! ## A valid key -/

theorem cryptoSign_of_valid (hcrypto : crypto.Correct) (env : Env) {spec : KeySpec} {material : Bytes}
    (hvalid : ValidMaterial spec material) (hsigns : signs spec = true) (keyId : Uuid) (version : UInt32)
    (data : Bytes) :
    ∃ sig, cryptoSign crypto env material spec keyId version data = .ok sig ∧
      cryptoVerify crypto material spec data sig = .ok true := by
  unfold cryptoSign cryptoVerify
  cases spec with
  | ed25519 =>
    simp only [hcrypto.ed25519_key.2 hvalid]
    exact ⟨_, rfl, congrArg Except.ok (hcrypto.ed25519_sign hvalid data)⟩
  | sm2 =>
    obtain ⟨signature, hsign, hverifier, hverify⟩ := hcrypto.sm2_sign hvalid env.seed data
    simp only [hcrypto.sm2_key.2 hvalid, hsign, hverifier]
    exact ⟨_, rfl, congrArg Except.ok hverify⟩
  | ed448 | ecdsaP256 | ecdsaP384 | rsa4096 | aes256Gcm | sm4 | hmacSha256 | sm3Hmac | sm9Signing | sm9Encryption =>
    cases hsigns

theorem cryptoEncrypt_of_valid (hcrypto : crypto.Correct) (env : Env) (hrandom : env.random 0 ≠ none) {spec : KeySpec}
    {material : Bytes} (hvalid : ValidMaterial spec material) (hencrypts : encrypts spec = true) (keyId : Uuid)
    (tenantId : String) (version : UInt32) (plaintext : Bytes) :
    ∃ c, cryptoEncrypt crypto env material spec keyId tenantId version plaintext = .ok c ∧ c.version = version ∧
      cryptoDecrypt crypto material spec c tenantId = .ok plaintext := by
  obtain ⟨f, hf⟩ := Option.ne_none_iff_exists'.1 hrandom
  have hfill : fill env 0 12 = some ((List.range 12).map f) := by simp [fill, hf]
  unfold cryptoEncrypt cryptoDecrypt
  cases spec with
  | aes256Gcm | hmacSha256 =>
    have hkey := hcrypto.aes_key.2 hvalid
    obtain ⟨⟨ciphertext, tag⟩, hseal⟩ := hcrypto.seal_total hkey ((List.range 12).map f)
      (userDataAad crypto keyId tenantId version) plaintext
    simp only [hkey, hfill, hseal]
    refine ⟨_, rfl, rfl, ?_⟩
    simp [ciphertextAad, hcrypto.open_seal hseal]
  | sm4 =>
    have hkey := hcrypto.sm4_key.2 hvalid
    obtain ⟨⟨ciphertext, tag⟩, hseal⟩ := hcrypto.sm4_total hvalid ((List.range 12).map f)
      (userDataAad crypto keyId tenantId version) plaintext
    simp only [hkey, hfill, hseal]
    refine ⟨_, rfl, rfl, ?_⟩
    simp [ciphertextAad, hcrypto.sm4 hseal]
  | sm2 =>
    obtain ⟨data, hencrypt, hlen⟩ := hcrypto.sm2_total hvalid env.seed plaintext
    simp only [hcrypto.sm2_key.2 hvalid, hencrypt, if_neg (not_lt.2 hlen)]
    refine ⟨_, rfl, rfl, ?_⟩
    obtain ⟨hnonce, htag, hparts⟩ := sm2_parts hlen
    simp only [hnonce, htag, hparts, hcrypto.sm2 hencrypt]
    simp
  | ed25519 | ed448 | ecdsaP256 | ecdsaP384 | rsa4096 | sm3Hmac | sm9Signing | sm9Encryption => cases hencrypts

/-- The key resolves to the entry, and to the same again in the store that the first resolution leaves. -/
def ResolvesTwice (crypto : Crypto) (s : Store) (m : KeyMeta) (e : KeyEntry) : Prop :=
  ∀ env env', (∀ c, env.fault c = none) → (∀ c, env'.fault c = none) → ∃ s₁ s₂,
    outcome (entryFor crypto env m.id m.tenantId) s = (.ok e, s₁) ∧
      outcome (entryFor crypto env' m.id m.tenantId) s₁ = (.ok e, s₂)

theorem resolves_of_active (h : Sound crypto kek ids ms s) {m : KeyMeta} (hm : m ∈ ms)
    (hspec : specOfText m.spec.debug = some m.spec) {env : Env} {current : KeyMeta} (hfault : ∀ c, env.fault c = none)
    (hcurrent : (outcome (getKeyMetadata env m.id) s).1 = .ok current) (hactive : current.status = .active) :
    ∃ e, ResolvesTwice crypto s m e ∧ e.keyMeta.tenantId = m.tenantId ∧ e.keyMeta.spec = m.spec ∧
      e.keyMeta.status = .active ∧ ValidMaterial m.spec e.material := by
  obtain ⟨row, encrypted, hrow, htenant, hrowSpec, hencrypted⟩ := h.db.persisted m hm
  rw [outcome_getKeyMetadata m.id hfault s] at hcurrent
  cases hcached : s.keys.map[m.id]? with
  | some e =>
    rw [hcached] at hcurrent
    obtain rfl := Except.ok.inj hcurrent
    obtain ⟨hown, hnamed, hfits⟩ := (h.cache m.id e hcached).row row hrow
    rw [hrowSpec] at hnamed hfits
    have howner : e.keyMeta.tenantId = m.tenantId := hown.trans htenant
    have hhit : ∀ env, outcome (entryFor crypto env m.id m.tenantId) s = (.ok e, s) := fun env => by
      rw [outcome_entryFor_hit crypto env m.id m.tenantId hcached, if_neg (not_not.2 howner)]
    exact ⟨e, fun env env' _ _ => ⟨s, s, hhit env, hhit env'⟩, howner, hnamed _ hspec, hactive, hfits _ hspec⟩
  | none =>
    rw [hcached] at hcurrent
    cases hlive : s.db.live m.id with
    | none =>
      rw [hlive] at hcurrent
      cases hcurrent
    | some row' =>
      rw [hlive] at hcurrent
      obtain rfl := Except.ok.inj hcurrent
      obtain rfl := Option.some.inj (hrow.symm.trans (Db.live_eq_some_iff.1 hlive).1)
      obtain ⟨material, hopened, hfits⟩ := h.db.row m.id row encrypted hrow hencrypted
      rw [hrowSpec] at hfits
      have hload : ∀ env (s' : Store), s'.db = s.db → s'.kek = s.kek → (∀ c, env.fault c = none) →
          outcome (loadEntryFromDb crypto env m.id) s' = (.ok { keyMeta := row.toMeta m.id, material }, s') := by
        intro env s' hdb hkek hf
        refine loadEntryFromDb_of_live hf (hdb ▸ hlive) hencrypted ?_
        rw [hkek, h.kek_eq]
        exact hopened
      have howner : ¬ (row.toMeta m.id).tenantId ≠ m.tenantId := not_not.2 htenant
      have hmiss : ∀ env, (∀ c, env.fault c = none) → outcome (entryFor crypto env m.id m.tenantId) s =
          (.ok { keyMeta := row.toMeta m.id, material },
            { s with keys := s.keys.insertWithEviction m.id { keyMeta := row.toMeta m.id, material } }) := by
        intro env hf
        rw [outcome_entryFor_miss crypto env m.id m.tenantId hcached, hload env s rfl rfl hf]
        simp only [if_neg howner]
      refine ⟨{ keyMeta := row.toMeta m.id, material }, fun env env' hf hf' => ?_, htenant, ?_, hactive,
        hfits _ hspec⟩
      · -- the entry is cached now, or a small cache has let it go and it is loaded again
        have hfirst := hmiss env hf
        have hreload := hload env' { s with
          keys := s.keys.insertWithEviction m.id { keyMeta := row.toMeta m.id, material } } rfl rfl hf'
        cases hagain : (s.keys.insertWithEviction m.id { keyMeta := row.toMeta m.id, material }).map[m.id]? with
        | some e =>
          have hfound := BoundedKeyCache.of_getElem?_insertWithEviction hagain
          rw [if_pos rfl] at hfound
          obtain rfl := Option.some.inj hfound
          have hsecond := outcome_entryFor_hit crypto env' m.id m.tenantId (s := { s with
            keys := s.keys.insertWithEviction m.id { keyMeta := row.toMeta m.id, material } }) hagain
          rw [if_neg howner] at hsecond
          exact ⟨_, _, hfirst, hsecond⟩
        | none =>
          have hsecond := outcome_entryFor_miss crypto env' m.id m.tenantId (s := { s with
            keys := s.keys.insertWithEviction m.id { keyMeta := row.toMeta m.id, material } }) hagain
          rw [hreload] at hsecond
          simp only [if_neg howner] at hsecond
          exact ⟨_, _, hfirst, hsecond⟩
      · have hnamed : specOfText row.spec = some m.spec := hrowSpec ▸ hspec
        simp [KeyRow.toMeta, hnamed]

/-- A use of the key with what it resolves to. -/
theorem outcome_of_resolved {α : Type} {m : KeyMeta} {e : KeyEntry} {s₁ : Store} {env : Env} {f : KeyEntry → M α}
    {a : α}
    (hentry : outcome (entryFor crypto env m.id m.tenantId) s = (.ok e, s₁)) (hf : f e = lift (.ok a)) :
    outcome (do f (← entryFor crypto env m.id m.tenantId) : M α) s = (.ok a, s₁) := by
  rw [outcome_bind_ok hentry, hf]
  rfl

theorem specOfText_of_used {spec : KeySpec} (h : signs spec = true ∨ encrypts spec = true) :
    specOfText spec.debug = some spec := by
  cases spec with
  | aes256Gcm | hmacSha256 | sm4 | sm2 | ed25519 => rfl
  | ed448 | ecdsaP256 | ecdsaP384 | sm3Hmac | sm9Signing | sm9Encryption | rsa4096 => rcases h with h | h <;> cases h

theorem usable_of_active (hcrypto : crypto.Correct) (h : Sound crypto kek ids ms s) {m : KeyMeta} (hm : m ∈ ms)
    {env : Env} {current : KeyMeta} (hfault : ∀ c, env.fault c = none)
    (hcurrent : (outcome (getKeyMetadata env m.id) s).1 = .ok current) (hactive : current.status = .active) :
    Usable crypto s m := by
  constructor
  · intro hsigns env₁ env₂ data hf₁ hf₂
    obtain ⟨e, hresolves, -, hnamed, hstatus, hvalid⟩ :=
      resolves_of_active h hm (specOfText_of_used (.inl hsigns)) hfault hcurrent hactive
    obtain ⟨sig, hsign, hverify⟩ := cryptoSign_of_valid hcrypto env₁ hvalid hsigns m.id e.keyMeta.version data
    obtain ⟨s₁, s₂, hfirst, hsecond⟩ := hresolves env₁ env₂ hf₁ hf₂
    refine ⟨sig, s₁, outcome_of_resolved hfirst ?_, ?_⟩
    · rw [if_neg (not_not.2 hstatus), hnamed, hsign]
    · have hverified : outcome (verify crypto env₂ m.id data sig m.tenantId) s₁ = (.ok true, s₂) :=
        outcome_of_resolved hsecond (by rw [hnamed, hverify])
      rw [hverified]
  · intro hencrypts env₁ env₂ plaintext hf₁ hf₂ hrandom
    obtain ⟨e, hresolves, howner, hnamed, hstatus, hvalid⟩ :=
      resolves_of_active h hm (specOfText_of_used (.inr hencrypts)) hfault hcurrent hactive
    obtain ⟨c, hencrypt, hversion, hdecrypt⟩ :=
      cryptoEncrypt_of_valid hcrypto env₁ hrandom hvalid hencrypts m.id m.tenantId
      e.keyMeta.version plaintext
    obtain ⟨s₁, s₂, hfirst, hsecond⟩ := hresolves env₁ env₂ hf₁ hf₂
    refine ⟨c, s₁, outcome_of_resolved hfirst ?_, ?_⟩
    · rw [if_neg (not_not.2 hstatus), hnamed, hencrypt]
    · have hdecrypted : outcome (decrypt crypto env₂ m.id c m.tenantId) s₁ = (.ok plaintext, s₂) := by
        refine outcome_of_resolved hsecond ?_
        have hcan : (!e.keyMeta.status.canDecrypt) = false := by rw [hstatus]; rfl
        rw [hcan, hversion, if_pos rfl, hnamed, howner, ← hdecrypt]
        rfl
      rw [hdecrypted]

/-! ## Runs -/

theorem sound_start (capacity : Option ℕ) (kek : Bytes) : Sound crypto kek [] [] (.start capacity kek) := by
  refine ⟨rfl, ⟨fun id row h => ?_, fun id row encrypted h => ?_, fun v hv => ?_, by simp⟩, fun id e h => ?_⟩
  · simp [Store.start, Db.empty] at h
  · simp [Store.start, Db.empty] at h
  · simp [Store.start, Db.empty] at hv
  · simp [Store.start] at h

/-- A run keeps the invariant, with the keys that its calls have handed out. -/
theorem sound_run (hcrypto : crypto.Lawful) {is : List Call} {H : History Call (Except Abort Value)}
    (h : Sound crypto kek ids ms s) (hids : (is.filterMap Call.newId?).Nodup)
    (hfresh : ∀ u ∈ is.filterMap Call.newId?, u ∉ ids) (hkek : ∀ c ∈ is, ∀ k, c.op = .restart k → k = kek)
    (hbrings : (call crypto).Along (fun _ s c => BringsValid crypto s c) H s is) :
    ∃ ids' ms', Sound crypto kek ids' ms' ((call crypto).final s is) ∧ ms ⊆ ms' ∧ ∀ is₁ c is₂ m, is = is₁ ++ c :: is₂ →
      handedOut? c.op (call crypto ((call crypto).final s is₁) c).1 = some m → m ∈ ms' := by
  induction is generalizing s ids ms H with
  | nil => exact ⟨ids, ms, h, List.Subset.refl _, fun is₁ c is₂ m heq => by simp at heq⟩
  | cons c is ih =>
    obtain ⟨hc, his⟩ := List.forall_mem_cons.1 hkek
    have hnew : ∀ u, c.newId? = some u → u ∉ ids := fun u hu => hfresh u (List.mem_filterMap.2 ⟨c, by simp, hu⟩)
    have hlater : ∀ u ∈ is.filterMap Call.newId?, u ∉ c.newId?.toList ++ ids := by
      intro u hu hmem
      rcases List.mem_append.1 hmem with hmem | hmem
      · rw [List.filterMap_cons, Option.mem_toList.1 hmem] at hids
        exact (List.nodup_cons.1 hids).1 hu
      · obtain ⟨c', hc', hu⟩ := List.mem_filterMap.1 hu
        exact hfresh u (List.mem_filterMap.2 ⟨c', List.mem_cons_of_mem _ hc', hu⟩) hmem
    have htail : (is.filterMap Call.newId?).Nodup := hids.sublist ((List.sublist_cons_self _ _).filterMap _)
    obtain ⟨ids', ms', hsound, hsub, hall⟩ := ih (sound_step hcrypto h hnew hbrings.1 hc) htail hlater his hbrings.2
    refine ⟨ids', ms', hsound, fun m hm => hsub (List.mem_append_right _ hm), ?_⟩
    rintro (_ | ⟨c₁, is₁⟩) c' is₂ m heq hout
    · obtain ⟨rfl, rfl⟩ := List.cons.inj heq
      exact hsub (List.mem_append_left _ (Option.mem_toList.2 hout))
    · obtain ⟨rfl, rfl⟩ := List.cons.inj heq
      exact hall is₁ c' is₂ m rfl hout

/-- Keys work in runs whose imports, generations and rotations bring valid material. -/
theorem keysUsable_of_along (hcrypto : crypto.Correct) (capacity : Option ℕ) {kek : Bytes} {is : List Call}
    (hids : (is.filterMap Call.newId?).Nodup) (hkek : ∀ c ∈ is, ∀ k, c.op = .restart k → k = kek)
    (hbrings : (call crypto).Along (fun _ s c => BringsValid crypto s c) [] (.start capacity kek) is) :
    KeysUsable crypto (.start capacity kek) is := by
  obtain ⟨ids, ms, hsound, -, hall⟩ :=
    sound_run hcrypto.toLawful (sound_start capacity kek) hids (by simp) hkek hbrings
  have hscalar : ∀ {id encrypted}, Opens crypto kek id "Sm2" encrypted →
      ∃ material, decryptMaterial crypto kek id encrypted = .ok material ∧ Sm2Scalar material := by
    rintro id encrypted ⟨material, hopened, hfits⟩
    exact ⟨material, hopened, hfits .sm2 rfl⟩
  refine ⟨fun is₁ c is₂ m env current heq hout hfault hcurrent hactive => ?_, fun id e he => (hsound.cache id e he).sm2,
    ?_⟩
  · exact usable_of_active hcrypto hsound (hall is₁ c is₂ m heq hout) hfault hcurrent hactive
  · intro id row encrypted hrow hspec hstored
    rcases hstored with hencrypted | ⟨v, hv, rfl, hdek⟩
    · have hopens := hsound.db.row id row encrypted hrow hencrypted
      rw [hspec] at hopens
      exact hscalar hopens
    · obtain ⟨row', hrow', hopens⟩ := hsound.db.version v hv
      obtain rfl := Option.some.inj (hrow.symm.trans hrow')
      rw [hspec] at hopens
      exact hscalar (hopens encrypted hdek)

end

end Postgres

/-! ## Both keystores -/

/-- In both keystores every key that is handed out works while it is active, in runs that draw distinct ids, import
valid material only and have SM2 keys generated in range. -/
theorem handedOut_usable {crypto : Crypto} (hcrypto : crypto.Correct) :
    (∀ is, (is.filterMap Software.UseCall.newId?).Nodup →
      (Software.SoftwareKeystore.use crypto).Along (fun _ ks c => ks.BringsValid c) [] .new is →
        Software.SoftwareKeystore.KeysUsable crypto .new is) ∧
    ∀ capacity kek is, (is.filterMap Postgres.Call.newId?).Nodup → (∀ c ∈ is, ∀ k, c.op = .restart k → k = kek) →
      (Postgres.call crypto).Along (fun _ s c => Postgres.BringsValid crypto s c) [] (.start capacity kek) is →
        Postgres.KeysUsable crypto (.start capacity kek) is :=
  ⟨fun _ hids hbrings => Software.SoftwareKeystore.keysUsable_of_along hcrypto hids hbrings,
    fun capacity _ _ hids hkek hbrings => Postgres.keysUsable_of_along hcrypto capacity hids hkek hbrings⟩

/-- A call on the software keystore that draws the id `uuid`. -/
def softwareEnv (uuid : Uuid) : Software.UseEnv where
  uuid := uuid
  now := 0
  random _ := 7
  sm2KeyPair := .ok (List.replicate 32 7)
  seed := 0
  rank _ := 0

/-- A key encryption key. -/
def sampleKek : Bytes := List.replicate 32 1

/-- Two keys of the software keystore, one of them imported, and a rotation. -/
def softwareRun : List Software.UseCall :=
  [⟨softwareEnv 1, .generateKey .sm2 "signing-key" "tenant-a"⟩,
    ⟨softwareEnv 2, .importKeyMaterial .ed25519 "imported-key" "tenant-a" (List.replicate 32 9)⟩,
    ⟨softwareEnv 3, .rotateKey 1 "tenant-a"⟩]

/-- An SM2 key of the PostgreSQL keystore and its rotation. -/
def postgresRun : List Postgres.Call :=
  [⟨Postgres.sampleEnv 1, .generateKey .sm2 "signing-key" "tenant-a"⟩, ⟨Postgres.sampleEnv 2, .rotateKey 1 "tenant-a"⟩]

theorem drawsValid_sampleEnv (uuid : Uuid) (spec : KeySpec) : Postgres.DrawsValid (Postgres.sampleEnv uuid) spec := by
  intro _ material hfill
  obtain rfl := Option.some.inj hfill
  decide

theorem handedOut_usable_sampleRuns : Software.SoftwareKeystore.KeysUsable Crypto.strict .new softwareRun ∧
    Postgres.KeysUsable Crypto.strict (.start none sampleKek) postgresRun := by
  constructor
  · refine (handedOut_usable Crypto.strict_correct).1 softwareRun (by decide) ⟨trivial, ?_, ?_, trivial⟩
    · exact fun _ => ⟨fun _ => rfl, fun h => by cases h⟩
    · exact fun _ _ _ _ _ => ⟨_, rfl⟩
  · refine (handedOut_usable Crypto.strict_correct).2 none sampleKek postgresRun (by decide) ?_ ⟨?_, ?_, trivial⟩
    · simp [postgresRun]
    · exact drawsValid_sampleEnv 1 .sm2
    · exact fun e _ _ => drawsValid_sampleEnv 2 e.keyMeta.spec

/-- An import of 48 bytes that start like PKCS#8, and a generation that draws a number above the order. -/
theorem not_handedOut_usable :
    ¬ Software.SoftwareKeystore.KeysUsable Crypto.strict .new
      [⟨softwareEnv 1, .importKeyMaterial .ed25519 "imported-key" "tenant-a" (0x30 :: List.replicate 47 7)⟩] ∧
    ¬ Postgres.KeysUsable Crypto.strict (.start none sampleKek)
      [⟨{ Postgres.sampleEnv 1 with random := fun _ => some fun _ => 0xFF },
        .generateKey .sm2 "signing-key" "tenant-a"⟩] := by
  constructor
  · intro h
    have husable := h.usable [] _ [] _ _ rfl rfl rfl rfl
    obtain ⟨sig, hsign, -⟩ := husable.signs rfl (softwareEnv 2) []
    cases hsign
  · intro h
    have husable := h.usable [] _ [] _ (Postgres.sampleEnv 2) _ rfl rfl (fun _ => rfl) rfl rfl
    obtain ⟨sig, s', hsign, -⟩ := husable.signs rfl (Postgres.sampleEnv 2) (Postgres.sampleEnv 3) [] (fun _ => rfl)
      fun _ => rfl
    cases hsign

end GmKms.Keystore
