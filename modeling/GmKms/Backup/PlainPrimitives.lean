import GmKms.Audit.PlainFormats
import GmKms.Backup.Service
import GmKms.Lib.Base64
/-!
# Primitives without secrets

An instance of the primitives: ciphers that hide nothing, and texts that are JSON arrays
of strings.
-/

namespace GmKms.Backup

open Lib

/-- A way to write a type as text and to read it back. -/
structure Codec (α : Type) where
  write : α → String
  read : String → Option α
  read_write : ∀ a, read (write a) = some a

namespace Codec

variable {α β : Type}

def string : Codec String := ⟨id, some, fun _ => rfl⟩

def int : Codec ℤ where
  write n := String.ofList (JsonText.writeInt n)
  read s := JsonText.readInt s.toList
  read_write n := by rw [String.toList_ofList, JsonText.readInt_writeInt]

/-- A type whose values are values of another. -/
def via (c : Codec β) (f : α → β) (g : β → Option α) (h : ∀ a, g (f a) = some a) : Codec α where
  write a := c.write (f a)
  read s := c.read s >>= g
  read_write a := by
    rw [c.read_write]
    exact h a

/-- The tree of a list: an array of texts. -/
def tree (c : Codec α) (l : List α) : Json Empty := .arr (l.map fun a => .str (c.write a))

theorem intsFit_tree (c : Codec α) (l : List α) : (c.tree l).IntsFit := by
  unfold tree
  induction l with
  | nil => simp [Json.IntsFit, Json.IntsFitItems]
  | cons a l ih => simpa [Json.IntsFit, Json.IntsFitItems] using ih

theorem depth_tree (c : Codec α) (l : List α) : (c.tree l).depth ≤ Audit.recursionLimit := by
  unfold tree
  have hitems : Json.depthItems (l.map fun a => (.str (c.write a) : Json Empty)) ≤ 0 := by
    rw [Json.depthItems_le_iff]
    intro j hj
    obtain ⟨a, -, rfl⟩ := List.mem_map.1 hj
    exact le_refl 0
  rw [Json.depth, Nat.le_zero.1 hitems]
  decide

theorem mapM_read (c : Codec α) (l : List α) :
    (l.map fun a => (.str (c.write a) : Json Empty)).mapM (fun j => j.asString? >>= c.read) = some l :=
  Json.mapM_map_eq_some (fun a => by simp [Json.asString?, c.read_write]) l

def list (c : Codec α) : Codec (List α) where
  write l := String.ofList (JsonText.write Audit.noFloats (c.tree l))
  read s := match JsonText.read Audit.noFloats Audit.recursionLimit s.toList with
    | some (.arr items) => items.mapM fun j => j.asString? >>= c.read
    | _ => none
  read_write l := by
    rw [String.toList_ofList, JsonText.read_write Audit.noFloats_lawful (c.intsFit_tree l), if_pos (c.depth_tree l),
      Json.mapFloat_id]
    exact c.mapM_read l

def pair (c : Codec α) (d : Codec β) : Codec (α × β) :=
  string.list.via (fun p => [c.write p.1, d.write p.2])
    (fun | [a, b] => do return (← c.read a, ← d.read b)
         | _ => none)
    (fun p => by simp [c.read_write, d.read_write])

def option (c : Codec α) : Codec (Option α) :=
  c.list.via Option.toList (fun | [] => some none | [a] => some (some a) | _ => none) (fun a => by cases a <;> rfl)

/-- A value of a finite list by its text. -/
def ofNames (values : List α) (name : α → String) (h : ∀ a, values.find? (fun b => name b = name a) = some a) :
    Codec α :=
  string.via name (fun s => values.find? fun b => name b = s) h

def bytes : Codec Bytes := string.via Base64.encode Base64.decode Base64.decode_encode

def nat : Codec ℕ := int.via (fun n => (n : ℤ)) (fun n => some n.toNat) (fun n => by simp)

def uint32 : Codec UInt32 := nat.via UInt32.toNat (fun n => some (.ofNat n)) (fun n => by simp)

def uuid : Codec Uuid := string.via Uuid.text Uuid.parse Uuid.parse_text

def keySpec : Codec KeySpec :=
  ofNames [.aes256Gcm, .rsa4096, .ecdsaP256, .ecdsaP384, .ed25519, .ed448, .hmacSha256, .sm3Hmac, .sm2, .sm4,
    .sm9Signing,
    .sm9Encryption] KeySpec.debug (fun a => by cases a <;> decide)

def keyStatus : Codec KeyStatus :=
  ofNames [.active, .pendingDeletion, .obsolete, .destroyed] KeyStatus.debug (fun a => by cases a <;> decide)

def keyMetadata : Codec KeyMetadata :=
  (string.list.pair ((string.pair string).list.pair (nat.option.pair (nat.pair string.list)))).via
    (fun m => (m.tags, m.labels, m.maxUsageCount, m.currentUsageCount, m.allowedOperations))
    (fun (tags, labels, maxUsageCount, currentUsageCount, allowedOperations) =>
      some { tags, labels, maxUsageCount, currentUsageCount, allowedOperations })
    (fun _ => rfl)

def keyMeta : Codec KeyMeta :=
  (uuid.pair (string.pair (string.pair (keySpec.pair (keyStatus.pair (int.pair (int.option.pair (uint32.pair
    (string.option.pair keyMetadata))))))))).via
    (fun m => (m.id, m.tenantId, m.name, m.spec, m.status, m.createdAt, m.rotatedAt, m.version, m.description,
      m.metadata))
    (fun (id, tenantId, name, spec, status, createdAt, rotatedAt, version, description, metadata) =>
      some { id, tenantId, name, spec, status, createdAt, rotatedAt, version, description, metadata })
    (fun _ => rfl)

def keyBackup : Codec KeyBackup :=
  (uint32.pair (keyMeta.pair (bytes.pair (bytes.pair (string.pair (int.pair string.option)))))).via
    (fun b => (b.version, b.keyMeta, b.encryptedMaterial, b.nonce, b.materialHash, b.backedUpAt, b.description))
    (fun (version, keyMeta, encryptedMaterial, nonce, materialHash, backedUpAt, description) =>
      some { version, keyMeta, encryptedMaterial, nonce, materialHash, backedUpAt, description })
    (fun _ => rfl)

def signedBackup : Codec SignedBackup :=
  (string.pair string).via (fun s => (s.data, s.signature)) (fun (data, signature) => some { data, signature })
    (fun _ => rfl)

def encryptedMasterKey : Codec EncryptedMasterKey :=
  (uuid.pair (bytes.pair (bytes.pair (bytes.pair uint32)))).via
    (fun k => (k.id, k.encryptedMaterial, k.nonce, k.salt, k.kdfIterations))
    (fun (id, encryptedMaterial, nonce, salt, kdfIterations) =>
      some { id, encryptedMaterial, nonce, salt, kdfIterations })
    (fun _ => rfl)

end Codec

/-- The hash and the signature are the data, and the tag is zero. -/
def plainPrimitives : Primitives where
  sm3 data := .ok data
  sm3Hex data := .ok (Base64.encode data)
  sm3HmacHex key data := .ok (Base64.encode (key ++ data))
  sm4Cipher _ := .ok ()
  encryptGcm _ _ plaintext := .ok (plaintext, List.replicate 16 0)
  decryptGcm _ _ ciphertext _ := .ok ciphertext
  backupText backup := some (Codec.keyBackup.write backup)
  parseBackup := Codec.keyBackup.read
  signedText signed := some (Codec.signedBackup.write signed)
  parseSigned := Codec.signedBackup.read
  masterText encrypted := some (Codec.encryptedMasterKey.write encrypted)
  parseMaster := Codec.encryptedMasterKey.read

theorem plainPrimitives_lawful : plainPrimitives.Lawful where
  gcm := by
    intro key nonce plaintext ciphertext tag h
    cases h
    exact ⟨by simp, rfl⟩
  backup := by
    intro backup text h
    have htext : Codec.keyBackup.write backup = text := Option.some.inj h
    rw [← htext]
    exact Codec.keyBackup.read_write backup
  signed := by
    intro signed text h
    have htext : Codec.signedBackup.write signed = text := Option.some.inj h
    rw [← htext]
    exact Codec.signedBackup.read_write signed
  master := by
    intro encrypted text h
    have htext : Codec.encryptedMasterKey.write encrypted = text := Option.some.inj h
    rw [← htext]
    exact Codec.encryptedMasterKey.read_write encrypted

theorem plainPrimitives_total : plainPrimitives.Total where
  hmac _ _ := ⟨_, rfl⟩
  backup _ := ⟨_, rfl⟩
  signed _ := ⟨_, rfl⟩

end GmKms.Backup
