import GmKms.Audit.Formats
import GmKms.Core.UuidText
import GmKms.Lib.JsonRoundTrip
/-!
# Formats without floating-point numbers

An instance of the formats: JSON over integers, the hyphenated form of a
`uuid::Uuid`, and times of which only the epoch is written as `chrono` writes it.
-/

namespace GmKms

open Lib

namespace Audit

/-- There are no floating-point numbers to write. -/
def noFloats : JsonText.FloatText Empty := ⟨nofun, fun _ => none⟩

theorem noFloats_lawful : noFloats.Lawful id where
  number := nofun
  nonempty := nofun
  not_int := nofun
  read_write := nofun

def plainFromStr (t : Text) : Except String (Json Empty) :=
  match JsonText.read noFloats recursionLimit t with
  | some j => .ok j
  | none => .error "invalid JSON"

theorem plainFromStr_write {j : Json Empty} (hj : j.IntsFit) :
    plainFromStr (JsonText.write noFloats j) =
      if j.depth ≤ recursionLimit then .ok (j.mapFloat id) else .error "invalid JSON" := by
  rw [plainFromStr, JsonText.read_write noFloats_lawful hj]
  split <;> simp_all

def epochText : String := "1970-01-01T00:00:00Z"

def plainTimeText (t : DateTime) : String := if t = 0 then epochText else String.ofList (JsonText.writeInt t)

def plainParseTime (s : String) : Option DateTime := if s = epochText then some 0 else JsonText.readInt s.toList

theorem plainParseTime_plainTimeText (t : DateTime) : plainParseTime (plainTimeText t) = some t := by
  unfold plainParseTime plainTimeText
  by_cases ht : t = 0
  · rw [if_pos ht, if_pos rfl, ht]
  · have hne : String.ofList (JsonText.writeInt t) ≠ epochText := by
      intro heq
      have hnumber := JsonText.writeInt_number t 'T'
      rw [← String.toList_ofList (l := JsonText.writeInt t), heq] at hnumber
      exact absurd (hnumber (by decide)) (by decide)
    rw [if_neg ht, if_neg hne, String.toList_ofList, JsonText.readInt_writeInt]

def plainFormats : Formats Empty where
  text := JsonText.write noFloats
  fromStr := plainFromStr
  reparse := id
  invalid _ := "invalid entry"
  timeText := plainTimeText
  parseTime := plainParseTime
  parseUuid := Uuid.parse
  pathDebug path := "\x22" ++ path ++ "\x22"

theorem plainFormats_lawful : plainFormats.Lawful where
  fromStr_text hj hdepth := (plainFromStr_write hj).trans (if_pos hdepth)
  fromStr_deep hj hdepth := ⟨_, (plainFromStr_write hj).trans (if_neg (Nat.not_le.2 hdepth))⟩
  text_injective := JsonText.write_injective noFloats_lawful
  oneLine := JsonText.oneLine_write noFloats_lawful
  notBlank := JsonText.isBlank_write noFloats_lawful
  parseTime_timeText := plainParseTime_plainTimeText
  parseUuid_text u := by
    simp only [plainFormats]
    exact u.parse_text

end Audit

end GmKms
