import Mathlib
/-!
# Types shared by every crate

`Uuid::new_v4`, `Utc::now` and the random generator are read from outside: an
operation takes what they return as arguments.
-/

namespace GmKms

/-- A `uuid::Uuid`: 128 bits. -/
abbrev Uuid := BitVec 128

instance : Std.TransOrd Uuid := BitVec.instTransOrd

/-- A `chrono::DateTime<Utc>`: nanoseconds since the Unix epoch. -/
abbrev DateTime := Int

/-- Bytes (`Vec<u8>`, `&[u8]`). -/
abbrev Bytes := List UInt8

/-- A `std::collections::HashMap` whose iteration order nothing observes. Where
the order shows (a map that is serialized), the map is a list of entries. -/
abbrev HashMap (κ ν : Type) [Ord κ] := Std.ExtTreeMap κ ν

section

variable {κ ν : Type} [Ord κ] [Std.TransOrd κ] [Std.LawfulEqOrd κ] [DecidableEq κ] (m : HashMap κ ν) (k k' : κ)

theorem HashMap.getElem?_insert (v : ν) : (m.insert k v)[k']? = if k' = k then some v else m[k']? := by
  rw [Std.ExtTreeMap.getElem?_insert]
  exact if_congr (Std.compare_eq_iff_eq.trans eq_comm) rfl rfl

theorem HashMap.getElem?_erase : (m.erase k)[k']? = if k' = k then none else m[k']? := by
  rw [Std.ExtTreeMap.getElem?_erase]
  exact if_congr (Std.compare_eq_iff_eq.trans eq_comm) rfl rfl

end

namespace DateTime

/-- `chrono::Duration::minutes`. -/
def minutes (n : ℕ) : Int := n * 60 * 1000000000

/-- `chrono::Duration::hours`. -/
def hours (n : ℕ) : Int := n * 3600 * 1000000000

end DateTime

/-- Successive readings of the clock within one call: `now 0` is the first
`Utc::now()` the call makes, `now 1` the next, and so on. -/
abbrev Clock := ℕ → DateTime

namespace Uuid

/-- Lower-case hexadecimal digits of the `n` low nibbles of `x`, high first. -/
def hexDigits (x : ℕ) : ℕ → List Char
  | 0 => []
  | n + 1 => hexDigits (x / 16) n ++ [Nat.digitChar (x % 16)]

/-- The hyphenated form `Uuid::to_string` writes. -/
def text (u : Uuid) : String :=
  let d := hexDigits u.toNat 32
  String.ofList (d.take 8 ++ '-' :: (d.drop 8).take 4 ++ '-' :: (d.drop 12).take 4 ++
    '-' :: (d.drop 16).take 4 ++ '-' :: d.drop 20)

example : text 0x67e5504410b1426f9247bb680e5fe0c8 = "67e55044-10b1-426f-9247-bb680e5fe0c8" := by decide +kernel

end Uuid

/-- `hex::encode`. -/
def hexEncode (bytes : Bytes) : String :=
  String.ofList (bytes.flatMap fun b => Uuid.hexDigits b.toNat 2)

end GmKms
