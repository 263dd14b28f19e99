import GmKms.Api.PemImport
import GmKms.Lib.Base64
/-!
# Import of JSON Web Keys

RFC 7515 writes the values of a key in the alphabet for URLs and without padding;
`parse_jwk` reads the standard alphabet with padding.
-/

namespace GmKms.Api.KeyFormatParser

open Lib

/-- The key types that `parse_jwk` takes. -/
inductive JwkType where
  | oct | rsa | ec | sm2
  deriving DecidableEq, Repr

namespace JwkType

def name : JwkType → String
  | oct => "oct"
  | rsa => "RSA"
  | ec => "EC"
  | sm2 => "SM2"

/-- The member with the key. -/
def secret : JwkType → String
  | oct => "k"
  | rsa | ec | sm2 => "d"

/-- The members that have to be there besides. -/
def others : JwkType → List String
  | rsa => ["n", "e"]
  | oct | ec | sm2 => []

end JwkType

section

variable {F : Type} {fromStr : String → Option (Json F)} {keyData k : Bytes} {text : String} {jwk : Json F}
  {kty : JwkType}

/-- A key of the type with this value, in whatever order its members are and whatever else it has. -/
structure IsJwk (jwk : Json F) (kty : JwkType) (value : String) : Prop where
  has_type : member jwk "kty" = some kty.name
  has_secret : member jwk kty.secret = some value
  has_others : ∀ name ∈ kty.others, (member jwk name).isSome

theorem decodeMember_eq_ok_iff {missing name value : String} (h : member jwk name = some value) :
    decodeMember jwk missing name = .ok k ↔ Base64.decode value = some k := by
  unfold decodeMember
  rw [h]
  cases hdecoded : Base64.decode value <;> simp [hdecoded, invalid]

/-- Whatever the type is, the value is decoded by the standard alphabet. -/
theorem parseJwk_eq_ok_iff (htext : fromUtf8 keyData = some text) (hjson : fromStr text = some jwk) {value : String}
    (hjwk : IsJwk jwk kty value) : parseJwk fromStr keyData = .ok k ↔ Base64.decode value = some k := by
  obtain ⟨hkty, hsecret, hothers⟩ := hjwk
  unfold parseJwk
  rw [htext]
  dsimp only
  rw [hjson]
  dsimp only
  rw [hkty]
  cases kty with
  | oct => exact decodeMember_eq_ok_iff hsecret
  | ec => exact decodeMember_eq_ok_iff hsecret
  | sm2 => exact decodeMember_eq_ok_iff hsecret
  | rsa =>
    obtain ⟨n, hn⟩ := Option.isSome_iff_exists.1 (hothers "n" (by simp [JwkType.others]))
    obtain ⟨e, he⟩ := Option.isSome_iff_exists.1 (hothers "e" (by simp [JwkType.others]))
    have hd : member jwk "d" = some value := hsecret
    simp only [JwkType.name, parseJwkRsa, hd, hn, he]
    exact decodeMember_eq_ok_iff hd

/-- A key of RFC 7517 is read back just if its length is a multiple of three and no six of its
bits are written with a character that the two alphabets do not share. -/
theorem parseJwk_encodeUrl_iff (htext : fromUtf8 keyData = some text) (hjson : fromStr text = some jwk)
    (hjwk : IsJwk jwk kty (Base64.encodeUrl k)) : parseJwk fromStr keyData = .ok k ↔
      k.length % 3 = 0 ∧ '+' ∉ Base64.encodeChars k ∧ '/' ∉ Base64.encodeChars k := by
  rw [parseJwk_eq_ok_iff htext hjson hjwk, Base64.decode_encodeUrl_iff]

end

/-- A key of type `oct`, as text and as value. -/
def octText (value : String) : Text :=
  "\x7b\x22kty\x22:\x22oct\x22,\x22k\x22:\x22".toList ++ value.toList ++ "\x22\x7d".toList

def octJwk (value : String) : Json Unit := .obj [("kty", .str "oct"), ("k", .str value)]

/-- Three bytes. -/
theorem parseJwk_encodeUrl_iff_short :
    parseJwk (fun _ => some (octJwk "AAEC")) (textBytes (octText "AAEC")) = .ok [0, 1, 2] := by
  have hjwk : IsJwk (octJwk "AAEC") .oct (Base64.encodeUrl [0, 1, 2]) :=
    ⟨by decide, by decide, by simp [JwkType.others]⟩
  exact (parseJwk_encodeUrl_iff (fromUtf8_textBytes _) rfl hjwk).2 ⟨by decide, by decide, by decide⟩

/-- An AES key of zeros. -/
theorem not_parseJwk_encodeUrl :
    parseJwk (fun _ => some (octJwk (Base64.encodeUrl (List.replicate 32 0))))
      (textBytes (octText (Base64.encodeUrl (List.replicate 32 0)))) ≠ .ok (List.replicate 32 0) := by
  have hjwk : IsJwk (octJwk (Base64.encodeUrl (List.replicate 32 0))) .oct (Base64.encodeUrl (List.replicate 32 0)) :=
    ⟨rfl, rfl, by simp [JwkType.others]⟩
  rw [Ne, parseJwk_eq_ok_iff (fromUtf8_textBytes _) rfl hjwk, Base64.decode_encodeUrl_iff]
  rintro ⟨hlength, -⟩
  cases hlength

end GmKms.Api.KeyFormatParser
