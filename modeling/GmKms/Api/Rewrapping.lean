import GmKms.Api.Labels
import GmKms.Api.Verification
/-!
# Rewrapping over a run

A data key that is wrapped under a version of a KEK is moved to later versions by
`rewrap_dek`, any number of times and mixed with any other calls. What the run has issued
keeps decrypting under its label while the label that the caller gives is the right one;
the current version is accepted as a label without a look at the bytes.
-/

namespace GmKms.Api

open Lib Keystore Service

/-- A data key as its owner keeps it. -/
structure WrappedDek where
  wrapped : Bytes
  nonce : Bytes
  version : UInt32

/-- The data sealed under it. -/
structure SealedData where
  ciphertext : Bytes
  nonce : Bytes
  tag : Bytes

def envelopeResponse (data : SealedData) (w : WrappedDek) : EnvelopeEncryptResponse where
  wrappedDek := Base64.encode w.wrapped
  dekNonce := Base64.encode w.nonce
  ciphertext := Base64.encode data.ciphertext
  dataNonce := Base64.encode data.nonce
  tag := Base64.encode data.tag
  kekVersion := w.version

def rewrapResponse (w : WrappedDek) (oldKekVersion : UInt32) : RewrapDekResponse where
  wrappedDek := Base64.encode w.wrapped
  dekNonce := Base64.encode w.nonce
  kekVersion := w.version
  oldKekVersion

theorem envelopeResponse_inj {data data' : SealedData} {w w' : WrappedDek}
    (h : envelopeResponse data w = envelopeResponse data' w') : data = data' ∧ w = w' := by
  obtain ⟨_, _, _⟩ := data
  obtain ⟨_, _, _⟩ := w
  simp only [envelopeResponse, EnvelopeEncryptResponse.mk.injEq] at h
  obtain ⟨hwrapped, hnonce, hciphertext, hdataNonce, htag, rfl⟩ := h
  cases Base64.encode_inj hwrapped
  cases Base64.encode_inj hnonce
  cases Base64.encode_inj hciphertext
  cases Base64.encode_inj hdataNonce
  cases Base64.encode_inj htag
  exact ⟨rfl, rfl⟩

theorem rewrapResponse_inj {w w' : WrappedDek} {version version' : UInt32}
    (h : rewrapResponse w version = rewrapResponse w' version') : w = w' := by
  obtain ⟨_, _, _⟩ := w
  simp only [rewrapResponse, RewrapDekResponse.mk.injEq] at h
  obtain ⟨hwrapped, hnonce, rfl, -⟩ := h
  cases Base64.encode_inj hwrapped
  cases Base64.encode_inj hnonce
  rfl

section

variable (crypto : ServiceCrypto) (kekId : Uuid) (tenantId : String)

/-- `rewrap_dek` on a data key of the run. -/
def rewrap (env : ServiceEnv) (w : WrappedDek) (version : UInt32) (ks : Software.SoftwareKeystore) :
    Except ApiAbort RewrapDekResponse :=
  (KeyOperation.perform crypto env kekId tenantId (.rewrapDek w.wrapped w.nonce version) ks).1

/-- `decrypt_with_kek_version` under the label of the data key. -/
def openLabelled (env : ServiceEnv) (data : SealedData) (w : WrappedDek) (ks : Software.SoftwareKeystore) :
    Except ApiAbort Bytes :=
  (KeyOperation.perform crypto env kekId tenantId (.envelopeDecryptWithKekVersion data.ciphertext w.wrapped w.nonce
    data.nonce data.tag w.version) ks).1

/-- The run has issued the data key: an encryption of the plaintext returned it, or a rewrap of an issued
one under its own label, or under 0. The last argument is the current material at that point. -/
inductive Issued (plaintext : Bytes) : List ServiceCall → SealedData → WrappedDek → Bytes → Prop where
  | encrypted {before : List ServiceCall} {env : ServiceEnv} {data : SealedData} {w : WrappedDek}
      {entry : Software.KeyEntry} (hentry : (served crypto before).keys[kekId]? = some entry)
      (h : (KeyOperation.perform crypto env kekId tenantId (.envelopeEncrypt plaintext) (served crypto before)).1 =
        .ok (envelopeResponse data w)) :
      Issued plaintext (before ++ [⟨env, .key kekId tenantId (.envelopeEncrypt plaintext)⟩]) data w entry.material
  | rewrapped {before : List ServiceCall} {env : ServiceEnv} {data : SealedData} {w w' : WrappedDek} {kek : Bytes}
      {version : UInt32} {entry : Software.KeyEntry} (hissued : Issued plaintext before data w kek)
      (hnamed : version = w.version ∨ version = 0) (hentry : (served crypto before).keys[kekId]? = some entry)
      (h : rewrap crypto kekId tenantId env w version (served crypto before) = .ok (rewrapResponse w' version)) :
      Issued plaintext (before ++ [⟨env, .key kekId tenantId (.rewrapDek w.wrapped w.nonce version)⟩]) data w'
        entry.material
  | later {before : List ServiceCall} {data : SealedData} {w : WrappedDek} {kek : Bytes} (c : ServiceCall)
      (hissued : Issued plaintext before data w kek) : Issued plaintext (before ++ [c]) data w kek

/-- What was issued opens under the material it was sealed under and under no other. -/
def OpensUnderOne (plaintext : Bytes) (calls : List ServiceCall) : Prop :=
  ∀ data w kek key dek, Issued crypto kekId tenantId plaintext calls data w kek →
    crypto.aesOpen key w.nonce [] w.wrapped = some dek → key = kek

/-- What the run has issued decrypts under its label. A wrong label is refused, unless it is the
current version. -/
structure NothingLost (plaintext : Bytes) (calls : List ServiceCall) : Prop where
  decrypts : ∀ data w kek env, Issued crypto kekId tenantId plaintext calls data w kek →
    openLabelled crypto kekId tenantId env data w (served crypto calls) = .ok plaintext
  refuses : ∀ data w kek env version entry, Issued crypto kekId tenantId plaintext calls data w kek →
    (served crypto calls).keys[kekId]? = some entry → version ≠ w.version →
    ¬ (version = 0 ∧ w.version = entry.keyMeta.version) →
    ((∃ e, rewrap crypto kekId tenantId env w version (served crypto calls) = .error (.error e)) ↔
      version ≠ entry.keyMeta.version)

end

/-! ## The versions of the KEK -/

/-- The versions are numbered upwards and have one material each. -/
structure WellKept (entry : Software.KeyEntry) : Prop where
  numbered : entry.WellNumbered
  distinct : ∀ version version' material, entry.materialAt version = some material →
    entry.materialAt version' = some material → version = version'

/-- A new key gets a fresh id, the KEK is not destroyed, and its rotations draw material that no
version of it has. -/
structure KekCall (kekId : Uuid) (ks : Software.SoftwareKeystore) (c : ServiceCall) : Prop where
  fresh : FreshId ks c
  kept : KeepsKey kekId c
  new : ∀ u entry material version, c.change? = some u → Rotates kekId ks u entry →
    Software.SoftwareKeystore.rotationMaterial entry.keyMeta.spec u.env.toEnv = .ok material →
      entry.materialAt version ≠ some material

/-- A rotation of the KEK is not past the last version that 32 bits hold. -/
def RotationFits (kekId : Uuid) (ks : Software.SoftwareKeystore) (c : ServiceCall) : Prop :=
  ∀ u entry, c.change? = some u → Rotates kekId ks u entry → entry.keyMeta.version.toNat + 1 < 2 ^ 32

theorem wellKept_of_made {entry : Software.KeyEntry} (h : entry.keyMeta.version = 1 ∧ entry.versions = []) :
    WellKept entry where
  numbered := Software.KeyEntry.wellNumbered_of_made h
  distinct := by
    have hone : ∀ version material, entry.materialAt version = some material → version = entry.keyMeta.version := by
      intro version material hm
      by_contra hne
      rw [Software.KeyEntry.materialAt_of_ne hne, h.2] at hm
      cases hm
    intro version version' material hm hm'
    rw [hone version material hm, hone version' material hm']

/-- Versions other than the new one have the material they had. -/
theorem materialAt_rotatedEntry {entry : Software.KeyEntry} {now : DateTime} {material m : Bytes} {version : UInt32}
    (hne : version ≠ (Software.rotatedMeta entry.keyMeta now).version)
    (hm : (Software.rotatedEntry entry now material).materialAt version = some m)
    (hnumbered : entry.WellNumbered) : entry.materialAt version = some m := by
  have hversions : (Software.rotatedEntry entry now material).versions =
      entry.versions ++ [(entry.keyMeta.version, entry.material)] := rfl
  rw [Software.KeyEntry.materialAt_of_ne hne, hversions, List.find?_append] at hm
  cases hfind : entry.versions.find? fun v => v.1 = version with
  | some v =>
    have hold : version ≠ entry.keyMeta.version := by
      rintro rfl
      have := (hnumbered.2 v (List.mem_of_find?_eq_some hfind)).2
      rw [show v.1 = entry.keyMeta.version by simpa using List.find?_some hfind] at this
      exact lt_irrefl _ this
    rw [hfind] at hm
    rw [Software.KeyEntry.materialAt_of_ne hold, hfind]
    exact hm
  | none =>
    rw [hfind, Option.none_or] at hm
    by_cases hcurrent : entry.keyMeta.version = version
    · rw [← hcurrent, entry.materialAt_current]
      simpa [hcurrent] using hm
    · simp [hcurrent] at hm

theorem wellKept_rotatedEntry {entry : Software.KeyEntry} (h : WellKept entry)
    (hfits : entry.keyMeta.version.toNat + 1 < 2 ^ 32) {material : Bytes}
    (hnew : ∀ version, entry.materialAt version ≠ some material) (now : DateTime) :
    WellKept (Software.rotatedEntry entry now material) where
  numbered := Software.KeyEntry.wellNumbered_rotatedEntry h.numbered hfits now material
  distinct := by
    have hcurrent : ∀ version m, (Software.rotatedEntry entry now material).materialAt version = some m →
        version = (Software.rotatedMeta entry.keyMeta now).version ∧ m = material ∨
          version ≠ (Software.rotatedMeta entry.keyMeta now).version ∧ entry.materialAt version = some m := by
      intro version m hm
      by_cases hv : version = (Software.rotatedMeta entry.keyMeta now).version
      · refine .inl ⟨hv, ?_⟩
        rw [hv] at hm
        exact (Option.some.inj ((Software.rotatedEntry entry now material).materialAt_current.symm.trans hm)).symm
      · exact .inr ⟨hv, materialAt_rotatedEntry hv hm h.numbered⟩
    intro version version' m hm hm'
    rcases hcurrent version m hm with ⟨rfl, rfl⟩ | ⟨-, hold⟩
      <;> rcases hcurrent version' _ hm' with ⟨hv', hmaterial⟩ | ⟨-, hold'⟩
    · exact hv'.symm
    · exact absurd hold' (hnew version')
    · exact absurd (hmaterial ▸ hold) (hnew version)
    · exact h.distinct version version' m hold hold'

/-! ## The KEK over a run -/

section

variable {crypto : ServiceCrypto} {kekId : Uuid} {tenantId : String} {ks : Software.SoftwareKeystore}
  {plaintext : Bytes}
  {calls : List ServiceCall} {data : SealedData} {w : WrappedDek} {kek : Bytes}

/-- Where the id denotes an AES key, its versions are kept well. -/
def KekKept (kekId : Uuid) (ks : Software.SoftwareKeystore) : Prop :=
  ∀ entry, ks.keys[kekId]? = some entry → entry.keyMeta.spec = .aes256Gcm → WellKept entry

/-- One call, seen from the KEK. -/
theorem serve_kek {c : ServiceCall} (hc : KekCall kekId ks c) (hfits : RotationFits kekId ks c)
    {entry : Software.KeyEntry} (hentry : ks.keys[kekId]? = some entry) (hspec : entry.keyMeta.spec = .aes256Gcm)
    (hkept : WellKept entry) :
    ∃ entry', (serve crypto ks c).2.keys[kekId]? = some entry' ∧ entry.Retains entry' ∧ WellKept entry' := by
  rcases serve_state crypto c with hsame | ⟨u, hu, hchanged⟩
  · exact ⟨entry, by rw [hsame, hentry], entry.retains_refl, hkept⟩
  · have hgenerates : Software.SoftwareKeystore.CanGenerate entry.keyMeta.spec u.env.toEnv := by
      rw [hspec]
      exact ⟨rfl, nofun⟩
    obtain ⟨entry', hentry', hcase⟩ := Software.SoftwareKeystore.perform_outcome crypto.toCrypto (hc.fresh u hu) hentry
      (hc.kept u hu) fun _ _ => hgenerates
    rw [hchanged]
    refine ⟨entry', hentry', ?_⟩
    rcases hcase with rfl | rfl | ⟨material, hop, hrotatable, hmade, rfl⟩
    · exact ⟨Software.KeyEntry.retains_refl _, hkept⟩
    · exact ⟨Software.KeyEntry.retains_deletedEntry _, hkept.numbered, hkept.distinct⟩
    · have hrotates : Rotates kekId ks u entry := ⟨hop, hentry, hrotatable⟩
      have hlt := hfits u entry hu hrotates
      exact ⟨Software.KeyEntry.retains_rotatedEntry hkept.numbered hlt _ _,
        wellKept_rotatedEntry hkept hlt (fun version => hc.new u entry material version hu hrotates hmade) _⟩

theorem serve_kekKept {c : ServiceCall} (hc : KekCall kekId ks c) (hfits : RotationFits kekId ks c)
    (hks : KekKept kekId ks) : KekKept kekId (serve crypto ks c).2 := by
  intro entry' hentry' hspec'
  rcases serve_state crypto c with hsame | ⟨u, hu, hchanged⟩
  · rw [hsame] at hentry'
    exact hks entry' hentry' hspec'
  · cases hentry : ks.keys[kekId]? with
    | none =>
      rw [hchanged] at hentry'
      exact wellKept_of_made (Software.SoftwareKeystore.perform_made crypto.toCrypto _ _ hentry hentry')
    | some entry =>
      have hspec : entry.keyMeta.spec = .aes256Gcm := by
        rw [hchanged] at hentry'
        rw [← Software.SoftwareKeystore.perform_spec crypto.toCrypto (hc.fresh u hu) hentry hentry', hspec']
      obtain ⟨e, he, -, hkept⟩ := serve_kek hc hfits hentry hspec (hks entry hentry hspec)
      cases Option.some.inj (he.symm.trans hentry')
      exact hkept

theorem served_snoc (calls : List ServiceCall) (c : ServiceCall) :
    served crypto (calls ++ [c]) = (serve crypto (served crypto calls) c).2 :=
  Machine.final_append (serve crypto) .new calls [c]

/-- Every call of the run keeps the KEK, and its rotations stay below the last version. -/
def KekRun (crypto : ServiceCrypto) (kekId : Uuid) (calls : List ServiceCall) : Prop :=
  Machine.Along (serve crypto) (fun _ ks c => KekCall kekId ks c ∧ RotationFits kekId ks c) [] .new calls

theorem KekRun.of_snoc {c : ServiceCall} (h : KekRun crypto kekId (calls ++ [c])) : KekRun crypto kekId calls ∧
    KekCall kekId (served crypto calls) c ∧ RotationFits kekId (served crypto calls) c := by
  obtain ⟨hcalls, hc, -⟩ := Machine.along_append.1 h
  exact ⟨hcalls, hc⟩

theorem KekRun.kept (h : KekRun crypto kekId calls) : KekKept kekId (served crypto calls) := by
  refine h.inv (I := fun _ ks => KekKept kekId ks) ?_ ?_
  · intro _ ks c hks hc
    exact serve_kekKept hc.1 hc.2 hks
  · intro entry hentry
    simp [Software.SoftwareKeystore.new] at hentry

/-! ## Labels -/

/-- The data key is sealed under the material of the version that it is labelled with. -/
structure Labelled (crypto : ServiceCrypto) (tenantId : String) (entry : Software.KeyEntry) (w : WrappedDek)
    (kek : Bytes) : Prop where
  owned : entry.keyMeta.tenantId = tenantId
  spec : entry.keyMeta.spec = .aes256Gcm
  material : entry.materialAt w.version = some kek
  nonce : w.nonce.length = 12
  key : crypto.aesUnboundKey kek = .ok ()
  sealing : ∃ dek ciphertext tag, crypto.aesSeal kek w.nonce [] dek = .ok (ciphertext, tag) ∧
    w.wrapped = ciphertext ++ tag

theorem Labelled.retains {entry entry' : Software.KeyEntry} (h : Labelled crypto tenantId entry w kek)
    (hretains : entry.Retains entry') : Labelled crypto tenantId entry' w kek where
  owned := hretains.tenantId.trans h.owned
  spec := hretains.spec.trans h.spec
  material := hretains.materialAt _ _ h.material
  nonce := h.nonce
  key := h.key
  sealing := h.sealing

/-- What was just wrapped under the current material is labelled so. -/
theorem labelled_of_wrapDek {entry : Software.KeyEntry} (howned : entry.keyMeta.tenantId = tenantId)
    (hspec : entry.keyMeta.spec = .aes256Gcm) {key failure : String} {nonce dek wrapped : Bytes}
    (hnonce : nonce.length = 12)
    (h : EnvelopeService.wrapDek crypto.toCrypto key failure entry.material nonce dek = .ok wrapped) :
    Labelled crypto tenantId entry ⟨wrapped, nonce, entry.keyMeta.version⟩ entry.material := by
  obtain ⟨hkey, ciphertext, tag, hseal, rfl⟩ := EnvelopeService.wrapDek_eq_ok h
  exact ⟨howned, hspec, entry.materialAt_current, hnonce, hkey, dek, ciphertext, tag, hseal, rfl⟩

/-- A version of an entry that is kept well is not 0. -/
theorem version_ne_zero {entry : Software.KeyEntry} (h : WellKept entry) : entry.keyMeta.version ≠ 0 := by
  intro hzero
  have := h.numbered.1
  rw [hzero] at this
  exact absurd this (by decide)

/-- What the run has issued is labelled rightly. -/
theorem issued_labelled (hcrypto : InPlaceAead crypto.toCrypto)
    (h : Issued crypto kekId tenantId plaintext calls data w kek) (hrun : KekRun crypto kekId calls) :
    ∃ entry, (served crypto calls).keys[kekId]? = some entry ∧ Labelled crypto tenantId entry w kek := by
  -- a call after which the label was right leaves it right
  have hstep : ∀ {before c w kek entry}, KekRun crypto kekId (before ++ [c]) →
      (served crypto before).keys[kekId]? = some entry → Labelled crypto tenantId entry w kek →
      ∃ entry', (served crypto (before ++ [c])).keys[kekId]? = some entry' ∧ Labelled crypto tenantId entry' w kek := by
    intro before c w kek entry hrun hentry hlabelled
    obtain ⟨hbefore, hc, hfits⟩ := hrun.of_snoc
    obtain ⟨entry', hentry', hretains, -⟩ :=
      serve_kek hc hfits hentry hlabelled.spec (hbefore.kept entry hentry hlabelled.spec)
    exact ⟨entry', by rw [served_snoc, hentry'], hlabelled.retains hretains⟩
  induction h with
  | encrypted hentry h =>
    obtain ⟨entry, hget, howned, hspec, hsealed⟩ := EnvelopeService.encrypt_eq_ok h
    cases Option.some.inj (hentry.symm.trans hget)
    obtain ⟨dek, wrapped, dekNonce, ciphertext, dataNonce, tag, -, hnonce, hwrapped, -, hresponse⟩ :=
      EnvelopeService.sealEnvelope_eq_ok hcrypto hsealed
    obtain ⟨rfl, rfl⟩ := envelopeResponse_inj (hresponse.trans
      (rfl : _ = envelopeResponse ⟨ciphertext, dataNonce, tag⟩ ⟨wrapped, dekNonce, _⟩))
    exact hstep hrun hentry (labelled_of_wrapDek howned hspec hnonce hwrapped)
  | @rewrapped before _ _ w₀ _ _ version entry₀ hissued hnamed hentry h ih =>
    obtain ⟨entry, hget, hlabelled⟩ := ih hrun.of_snoc.1
    cases Option.some.inj (hentry.symm.trans hget)
    obtain ⟨entry, hfound, hspec, hcase⟩ := EnvelopeService.rewrapDek_eq_ok h
    cases Option.some.inj (hentry.symm.trans hfound)
    have hpositive := version_ne_zero (hrun.of_snoc.1.kept _ hentry hspec)
    rcases hcase with ⟨rfl, hresponse⟩ | ⟨-, howned, oldKek, -, hrewrapped⟩
    · -- the label is the current version, so the material under it is the current one
      cases rewrapResponse_inj (hresponse.trans
        (rfl : _ = rewrapResponse ⟨w₀.wrapped, w₀.nonce, entry₀.keyMeta.version⟩ entry₀.keyMeta.version))
      have hversion : w₀.version = entry₀.keyMeta.version := (hnamed.resolve_right hpositive).symm
      have hmaterial := hlabelled.material
      rw [hversion, Software.KeyEntry.materialAt_current, Option.some.injEq] at hmaterial
      subst hmaterial
      exact hstep hrun hentry { hlabelled with material := entry₀.materialAt_current }
    · obtain ⟨dek, rewrapped, newNonce, -, hnonce, hwrapped, hresponse⟩ := EnvelopeService.rewrapUnder_eq_ok hrewrapped
      cases rewrapResponse_inj (hresponse.trans
        (rfl : _ = rewrapResponse ⟨rewrapped, newNonce, entry₀.keyMeta.version⟩ version))
      exact hstep hrun hentry (labelled_of_wrapDek howned hspec hnonce hwrapped)
  | later c hissued ih =>
    obtain ⟨entry, hentry, hlabelled⟩ := ih hrun.of_snoc.1
    exact hstep hrun hentry hlabelled

/-- What the run has issued carries the data key of the plaintext. -/
theorem issued_carries (hcrypto : InPlaceAead crypto.toCrypto)
    (h : Issued crypto kekId tenantId plaintext calls data w kek)
    (hideal : OpensUnderOne crypto kekId tenantId plaintext calls) (hrun : KekRun crypto kekId calls) :
    ∃ dek, dek.length = 32 ∧ EnvelopeService.Unwraps crypto.toCrypto kek w.wrapped w.nonce dek ∧
      EnvelopeService.openData crypto.toCrypto dek data.ciphertext data.nonce data.tag = .ok plaintext := by
  induction h with
  | encrypted hentry h =>
    obtain ⟨entry, hget, -, -, hsealed⟩ := EnvelopeService.encrypt_eq_ok h
    cases Option.some.inj (hentry.symm.trans hget)
    obtain ⟨dek, wrapped, dekNonce, ciphertext, dataNonce, tag, hdek, hnonce, hwrapped, hopened, hresponse⟩ :=
      EnvelopeService.sealEnvelope_eq_ok hcrypto hsealed
    obtain ⟨rfl, rfl⟩ := envelopeResponse_inj (hresponse.trans
      (rfl : _ = envelopeResponse ⟨ciphertext, dataNonce, tag⟩ ⟨wrapped, dekNonce, _⟩))
    exact ⟨dek, hdek, EnvelopeService.unwraps_of_wrapDek hcrypto hwrapped hdek hnonce, hopened⟩
  | @rewrapped before _ _ w₀ _ kek₀ version entry₀ hissued hnamed hentry h ih =>
    have hbefore := hrun.of_snoc.1
    obtain ⟨dek, hdek, hunwraps, hopened⟩ := ih (fun _ _ _ _ _ hi => hideal _ _ _ _ _ (hi.later _)) hbefore
    obtain ⟨entry, hget, hlabelled⟩ := issued_labelled hcrypto hissued hbefore
    cases Option.some.inj (hentry.symm.trans hget)
    obtain ⟨entry, hfound, hspec, hcase⟩ := EnvelopeService.rewrapDek_eq_ok h
    cases Option.some.inj (hentry.symm.trans hfound)
    rcases hcase with ⟨rfl, hresponse⟩ | ⟨-, -, oldKek, -, hrewrapped⟩
    · cases rewrapResponse_inj (hresponse.trans
        (rfl : _ = rewrapResponse ⟨w₀.wrapped, w₀.nonce, entry₀.keyMeta.version⟩ entry₀.keyMeta.version))
      have hversion : w₀.version = entry₀.keyMeta.version :=
        (hnamed.resolve_right (version_ne_zero (hbefore.kept _ hentry hspec))).symm
      have hmaterial := hlabelled.material
      rw [hversion, Software.KeyEntry.materialAt_current, Option.some.injEq] at hmaterial
      subst hmaterial
      exact ⟨dek, hdek, hunwraps, hopened⟩
    · obtain ⟨dek', rewrapped, newNonce, hunwraps', hnonce, hwrapped, hresponse⟩ :=
        EnvelopeService.rewrapUnder_eq_ok hrewrapped
      cases rewrapResponse_inj (hresponse.trans
        (rfl : _ = rewrapResponse ⟨rewrapped, newNonce, entry₀.keyMeta.version⟩ version))
      -- the key it opened under is the one it was sealed under, so the same data key came out
      have hopen := hunwraps'.2.2.2
      rw [List.take_of_length_le hlabelled.nonce.le] at hopen
      cases hideal _ _ _ _ _ (hissued.later _) hopen
      cases Option.some.inj (hunwraps'.2.2.2.symm.trans hunwraps.2.2.2)
      exact ⟨dek, hdek, EnvelopeService.unwraps_of_wrapDek hcrypto hwrapped hdek hnonce, hopened⟩
  | later c hissued ih => exact ih (fun _ _ _ _ _ hi => hideal _ _ _ _ _ (hi.later c)) hrun.of_snoc.1

/-- Only versions that are numbered from 1 have material. -/
theorem ne_zero_of_materialAt {entry : Software.KeyEntry} (h : WellKept entry) {version : UInt32} {material : Bytes}
    (hm : entry.materialAt version = some material) : version ≠ 0 := by
  rintro rfl
  rw [Software.KeyEntry.materialAt_of_ne (version_ne_zero h).symm] at hm
  obtain ⟨v, hv, -⟩ := Option.map_eq_some_iff.1 hm
  have hpositive := (h.numbered.2 v (List.mem_of_find?_eq_some hv)).1
  rw [show v.1 = 0 by simpa using List.find?_some hv] at hpositive
  exact absurd hpositive (by decide)

/-- Nothing is lost while the rotations of the KEK stay below the last version. -/
theorem nothingLost_of_kekRun (hcrypto : InPlaceAead crypto.toCrypto)
    (hideal : OpensUnderOne crypto kekId tenantId plaintext calls) (hrun : KekRun crypto kekId calls) :
    NothingLost crypto kekId tenantId plaintext calls where
  decrypts data w kek env h := by
    obtain ⟨entry, hentry, hlabelled⟩ := issued_labelled hcrypto h hrun
    obtain ⟨dek, -, hunwraps, hopened⟩ := issued_carries hcrypto h hideal hrun
    have hpositive := ne_zero_of_materialAt (hrun.kept entry hentry hlabelled.spec) hlabelled.material
    refine EnvelopeService.decryptWithKekVersion_eq_ok_iff.2 ⟨entry, kek, hentry, hlabelled.owned, ?_, ?_⟩
    · rw [Software.KeyEntry.requested_of_ne_zero hpositive, hlabelled.material]
    · exact EnvelopeService.openEnvelope_eq_ok_iff.2 ⟨dek, hunwraps, hopened⟩
  refuses data w kek env version entry h hentry hwrong hzero := by
    obtain ⟨e, he, hlabelled⟩ := issued_labelled hcrypto h hrun
    cases Option.some.inj (hentry.symm.trans he)
    have hkept := hrun.kept entry hentry hlabelled.spec
    constructor
    · rintro ⟨e, hrefused⟩ rfl
      have haccepted : rewrap crypto kekId tenantId env w entry.keyMeta.version (served crypto calls) = .ok _ :=
        EnvelopeService.rewrapDek_of_current hentry hlabelled.spec w.wrapped w.nonce
      rw [haccepted] at hrefused
      cases hrefused
    · intro hother
      have hequation : rewrap crypto kekId tenantId env w version (served crypto calls) = _ :=
        EnvelopeService.rewrapDek_of_other hentry hlabelled.owned hlabelled.spec hother w.wrapped w.nonce
      rw [hequation]
      cases hrequested : entry.requested version with
      | none =>
        obtain ⟨e, hmissing⟩ :=
          Software.SoftwareKeystore.getKeyMaterialVersion_of_none hentry hlabelled.owned hrequested
        rw [hmissing]
        exact ⟨_, rfl⟩
      | some oldKek =>
        rw [Software.SoftwareKeystore.getKeyMaterialVersion_eq_ok_iff.2 ⟨entry, hentry, hlabelled.owned, hrequested⟩]
        obtain ⟨dek, -, hunwraps, -⟩ := issued_carries hcrypto h hideal hrun
        refine EnvelopeService.rewrapUnder_of_not_open hunwraps.1 hlabelled.nonce ?_
        by_contra hopened
        obtain ⟨dek', hopened⟩ := Option.ne_none_iff_exists'.1 hopened
        -- it opened under a material of the KEK, which is then that of its label
        cases hideal _ _ _ _ _ h hopened
        by_cases hz : version = 0
        · subst hz
          refine hzero ⟨rfl, hkept.distinct _ _ _ hlabelled.material ?_⟩
          rw [entry.materialAt_current]
          exact hrequested
        · rw [Software.KeyEntry.requested_of_ne_zero hz] at hrequested
          exact hwrong (hkept.distinct _ _ _ hrequested hlabelled.material)

end

/-! ## A wrong label -/

/-- Under `keyedCrypto` whatever was sealed opens under one key. -/
theorem opensUnderOne_keyed {kekId : Uuid} {tenantId : String} {calls : List ServiceCall}
    (hrun : KekRun .keyed kekId calls) (plaintext : Bytes) : OpensUnderOne .keyed kekId tenantId plaintext calls := by
  intro data w kek key dek h hopened
  obtain ⟨entry, -, hlabelled⟩ := issued_labelled keyedCrypto_inPlaceAead h hrun
  obtain ⟨dek', ciphertext, tag, hseal, hwrapped⟩ := hlabelled.sealing
  obtain ⟨rfl, htag, rfl⟩ := keyedCrypto_aesSeal hseal
  rw [hwrapped] at hopened
  have hif := (keyedCrypto_aesOpen key w.nonce [] ciphertext htag).symm.trans hopened
  by_contra hne
  rw [if_neg hne] at hif
  cases hif

/-- A KEK of sevens is made, a byte encrypted under it, and the KEK rotated to nines. -/
def rotatedKekRun : List ServiceCall :=
  [⟨sampleServiceEnv 7, .createKey .aes256Gcm "kek" "tenant-1"⟩,
    ⟨sampleServiceEnv 5, .key 1 "tenant-1" (.envelopeEncrypt [1])⟩,
    ⟨sampleServiceEnv 9, .key 1 "tenant-1" .rotateKey⟩]

def rotatedKekData : SealedData := ⟨[1], List.replicate 12 5, List.replicate 16 5⟩

/-- Its data key, wrapped under the sevens. -/
def rotatedKekDek : WrappedDek := ⟨List.replicate 32 5 ++ List.replicate 16 7, List.replicate 12 5, 1⟩

theorem kekRun_rotatedKekRun : KekRun .keyed 1 rotatedKekRun := by
  refine ⟨⟨⟨?_, ?_, ?_⟩, ?_⟩, ⟨⟨?_, ?_, ?_⟩, ?_⟩, ⟨⟨?_, ?_, ?_⟩, ?_⟩, trivial⟩
  · rintro u ⟨⟩ -
    rfl
  · rintro u ⟨⟩
    decide
  · rintro u entry material version ⟨⟩ ⟨⟨⟩, -, -⟩
  · rintro u entry ⟨⟩ ⟨⟨⟩, -, -⟩
  -- the encryption changes nothing
  · rintro u ⟨⟩
  · rintro u ⟨⟩
  · rintro u entry material version ⟨⟩
  · rintro u entry ⟨⟩
  · rintro u ⟨⟩ hcreates
    cases hcreates
  · rintro u ⟨⟩
    decide
  · rintro u entry material version ⟨⟩ ⟨-, ⟨⟩, -⟩ ⟨⟩ hmaterial
    by_cases hversion : version = 1
    · subst hversion
      exact absurd hmaterial (by decide)
    · rw [Software.KeyEntry.materialAt_of_ne hversion] at hmaterial
      cases hmaterial
  · rintro u entry ⟨⟩ ⟨-, ⟨⟩, -⟩
    decide

theorem nothingLost_rotatedKekRun : NothingLost .keyed 1 "tenant-1" [1] rotatedKekRun :=
  nothingLost_of_kekRun keyedCrypto_inPlaceAead (opensUnderOne_keyed kekRun_rotatedKekRun [1]) kekRun_rotatedKekRun

theorem issued_rotatedKekRun :
    Issued .keyed 1 "tenant-1" [1] rotatedKekRun rotatedKekData rotatedKekDek (List.replicate 32 7) :=
  have hentry : (served .keyed (rotatedKekRun.take 1)).keys[(1 : Uuid)]? = some ⟨_, List.replicate 32 7, []⟩ := rfl
  have hencrypted : Issued .keyed 1 "tenant-1" [1]
      (rotatedKekRun.take 1 ++ [⟨sampleServiceEnv 5, .key 1 "tenant-1" (.envelopeEncrypt [1])⟩]) rotatedKekData
      rotatedKekDek (List.replicate 32 7) := .encrypted hentry (by decide +kernel)
  hencrypted.later _

/-- Labelled 2, the data key of version 1 comes back as one of version 2, and does not open. -/
theorem accepted_rotatedKekRun :
    (InPlaceAead keyedCrypto ∧ OpensUnderOne .keyed 1 "tenant-1" [1] rotatedKekRun ∧ KekRun .keyed 1 rotatedKekRun) ∧
      Issued .keyed 1 "tenant-1" [1] rotatedKekRun rotatedKekData rotatedKekDek (List.replicate 32 7) ∧
      rotatedKekDek.version ≠ 2 ∧
      rewrap .keyed 1 "tenant-1" (sampleServiceEnv 5) rotatedKekDek 2 (served .keyed rotatedKekRun) =
        .ok (rewrapResponse { rotatedKekDek with version := 2 } 2) ∧
      openLabelled .keyed 1 "tenant-1" (sampleServiceEnv 5) rotatedKekData { rotatedKekDek with version := 2 }
        (served .keyed rotatedKekRun) ≠ .ok [1] :=
  ⟨⟨keyedCrypto_inPlaceAead, opensUnderOne_keyed kekRun_rotatedKekRun [1], kekRun_rotatedKekRun⟩, issued_rotatedKekRun,
    by decide, by decide +kernel, by decide +kernel⟩

end GmKms.Api
