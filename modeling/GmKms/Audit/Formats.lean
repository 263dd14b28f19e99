import GmKms.Core.Event
import GmKms.Lib.Json
import GmKms.Lib.Text
/-!
# Formats of the audit log

What `serde_json`, `chrono` and `uuid` write and read is a parameter, and so is
the order in which a `HashMap` is iterated.
-/

namespace GmKms.Audit

open Lib

/-- The third-party formats, over a type `F` of floating-point numbers. -/
structure Formats (F : Type) where
  /-- `serde_json::to_string` of the tree a value serializes to. -/
  text (j : Json F) : Text
  /-- `serde_json::from_str` up to the tree, whose fields are in the order of the text. -/
  fromStr (t : Text) : Except String (Json F)
  /-- What `from_str` reads where `to_string` has written a number. -/
  reparse (x : F) : F
  /-- The error of `from_str` for a tree that is not one of the type it is to read. -/
  invalid (j : Json F) : String
  /-- A `DateTime<Utc>` as `chrono` serializes it. -/
  timeText (t : DateTime) : String
  parseTime (s : String) : Option DateTime
  parseUuid (s : String) : Option Uuid
  /-- A path with its quotes and escapes. -/
  pathDebug (path : String) : String

/-- How many arrays and objects `serde_json` enters: its budget of 128 must not run out. -/
def recursionLimit : ℕ := 127

structure Formats.Lawful {F : Type} (S : Formats F) : Prop where
  fromStr_text : ∀ {j : Json F}, j.IntsFit → j.depth ≤ recursionLimit →
    S.fromStr (S.text j) = .ok (j.mapFloat S.reparse)
  fromStr_deep : ∀ {j : Json F}, j.IntsFit → recursionLimit < j.depth → ∃ e, S.fromStr (S.text j) = .error e
  text_injective : ∀ {j j' : Json F}, j.IntsFit → j'.IntsFit → S.text j = S.text j' → j = j'
  oneLine : ∀ j : Json F, (S.text j).OneLine
  notBlank : ∀ j : Json F, (S.text j).isBlank = false
  parseTime_timeText : ∀ t, S.parseTime (S.timeText t) = some t
  parseUuid_text : ∀ u : Uuid, S.parseUuid u.text = some u

/-- The order in which a new `HashMap` iterates over its entries. -/
structure IterOrder (α : Type) where
  arrange : List α → List α
  perm : ∀ l, (arrange l).Perm l

namespace IterOrder

variable {α : Type}

/-- The order of insertion. -/
def inserted : IterOrder α := ⟨id, fun _ => .rfl⟩

def reversed : IterOrder α := ⟨List.reverse, fun l => List.reverse_perm l⟩

end IterOrder

/-! ## Serialized parts -/

/-- A `serde_json::Value`. -/
abbrev Value (F : Type) := { j : Json F // j.isValue }

namespace Value

variable {F : Type}

def mapFloat (f : F → F) (v : Value F) : Value F := ⟨v.1.mapFloat f, Json.isValue_mapFloat v.2⟩

/-- `Value::deserialize`: a number beyond 64 bits has been read as a floating-point one. -/
def ofJson? (j : Json F) : Option (Value F) :=
  if h : j.normalize.isValue then some ⟨j.normalize, h⟩ else none

theorem ofJson?_val (v : Value F) : ofJson? v.1 = some v := by
  have hnormal := Json.normalize_of_isValue v.2
  rw [ofJson?, dif_pos (by rw [hnormal]; exact v.2)]
  exact congrArg some (Subtype.ext hnormal)

end Value

variable {F : Type}

/-- A `Vec<u8>` is an array of integers. -/
def bytesToJson (b : Bytes) : Json F := .arr (b.map fun x => .int x.toNat)

def bytesOfJson? : Json F → Option Bytes
  | .arr items => items.mapM fun j => (j.asUnsigned? 8).map UInt8.ofNat
  | _ => none

theorem bytesOfJson?_bytesToJson (b : Bytes) : bytesOfJson? (bytesToJson b : Json F) = some b := by
  rw [bytesToJson, bytesOfJson?]
  refine Json.mapM_map_eq_some (fun x => ?_) b
  rw [Json.asUnsigned?_int (UInt8.toNat_lt x)]
  simp

@[simp] theorem mapFloat_bytesToJson (f : F → F) (b : Bytes) : (bytesToJson b).mapFloat f = bytesToJson b := by
  rw [bytesToJson, Json.mapFloat_arr, List.map_map]
  rfl

/-- An `Option` is `null` or the value. -/
def optionToJson {α : Type} (f : α → Json F) : Option α → Json F
  | none => .null
  | some a => f a

/-- An absent field is `None`, too. -/
def optionOfJson? {α : Type} (f : Json F → Option α) : Option (Json F) → Option (Option α)
  | none | some .null => some none
  | some j => (f j).map some

@[simp] theorem optionOfJson?_none {α : Type} (f : Json F → Option α) : optionOfJson? f none = some none := rfl

theorem optionOfJson?_some {α : Type} {f : Json F → Option α} {j : Json F} (h : j ≠ .null) :
    optionOfJson? f (some j) = (f j).map some := by
  cases j with
  | null => exact absurd rfl h
  | _ => rfl

/-! ## Text as bytes -/

/-- `str::as_bytes`. -/
def utf8 (t : Text) : Bytes := t.flatMap String.utf8EncodeChar

theorem utf8_injective {s t : Text} (h : utf8 s = utf8 t) : s = t := by
  have hdecode : (List.utf8Encode s).utf8Decode? = (List.utf8Encode t).utf8Decode? :=
    congrArg (fun b : Bytes => b.toByteArray.utf8Decode?) h
  rw [List.utf8Decode?_utf8Encode, List.utf8Decode?_utf8Encode, Option.some.injEq] at hdecode
  exact congrArg Array.toList hdecode

end GmKms.Audit
