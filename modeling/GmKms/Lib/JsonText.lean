import GmKms.Lib.Json
import GmKms.Lib.Text
/-!
# Compact JSON text

A writer of JSON trees as compact text and a reader of such text with a limit on
the depth of nesting. What is written is read back, unless it is too deep.
-/

namespace Lib.JsonText

open Json

/-- How floating-point numbers are written and read. -/
structure FloatText (F : Type) where
  write : F → Text
  read : Text → Option F

/-! ## Strings -/

/-- The characters with an escape of one letter. -/
def shortEscapes : List (Char × Char) :=
  [('\x22', '\x22'), ('\x5c', '\x5c'), ('\x08', 'b'), ('\x0c', 'f'), ('\n', 'n'), ('\r', 'r'), ('\t', 't')]

def escape (c : Char) : Text :=
  match shortEscapes.lookup c with
  | some e => ['\x5c', e]
  | none =>
    if c.toNat < 32 then ['\x5c', 'u', '0', '0', Nat.digitChar (c.toNat / 16), Nat.digitChar (c.toNat % 16)]
    else [c]

def writeString (s : String) : Text := '\x22' :: s.toList.flatMap escape ++ ['\x22']

def hexValue (c : Char) : Option ℕ :=
  if '0' ≤ c ∧ c ≤ '9' then some (c.toNat - 48)
  else if 'a' ≤ c ∧ c ≤ 'f' then some (c.toNat - 87)
  else if 'A' ≤ c ∧ c ≤ 'F' then some (c.toNat - 55)
  else none

/-- The character of a `\u` escape; surrogates are not put together. -/
def unicodeEscape (a b c d : Char) : Option Char := do
  let n := ((← hexValue a) * 16 + (← hexValue b)) * 256 + ((← hexValue c) * 16 + (← hexValue d))
  if n.isValidChar then some (Char.ofNat n) else none

def shortEscape (e : Char) : Option Char := (shortEscapes.find? (·.2 = e)).map (·.1)

/-- The characters up to the closing quote, and the text after it. -/
def readChars : Text → Option (Text × Text)
  | [] => none
  | '\x5c' :: 'u' :: a :: b :: c :: d :: t =>
    match unicodeEscape a b c d, readChars t with
    | some c, some (s, t) => some (c :: s, t)
    | _, _ => none
  | '\x5c' :: e :: t =>
    match shortEscape e, readChars t with
    | some c, some (s, t) => some (c :: s, t)
    | _, _ => none
  | c :: t =>
    if c = '\x22' then some ([], t)
    else if c = '\x5c' ∨ c.toNat < 32 then none
    else
      match readChars t with
      | some (s, t) => some (c :: s, t)
      | none => none

theorem hexValue_digitChar {n : ℕ} (h : n < 16) : hexValue (Nat.digitChar n) = some n := by
  have : ∀ n < 16, hexValue (Nat.digitChar n) = some n := by decide
  exact this n h

theorem mem_of_lookup {α β : Type} [BEq α] [LawfulBEq α] {l : List (α × β)} {a : α} {b : β} (h : l.lookup a = some b) :
    (a, b) ∈ l := by
  obtain ⟨l₁, l₂, rfl, -⟩ := List.lookup_eq_some_iff.1 h
  simp

theorem unicodeEscape_control {c : Char} (h : c.toNat < 32) :
    unicodeEscape '0' '0' (Nat.digitChar (c.toNat / 16)) (Nat.digitChar (c.toNat % 16)) = some c := by
  have hzero : hexValue '0' = some 0 := by decide
  have hvalue : (0 * 16 + 0) * 256 + (c.toNat / 16 * 16 + c.toNat % 16) = c.toNat := by omega
  unfold unicodeEscape
  rw [hzero, hexValue_digitChar (by omega), hexValue_digitChar (by omega)]
  simp only [Option.bind_eq_bind, Option.bind_some, hvalue]
  rw [if_pos (Or.inl (by omega)), Char.ofNat_toNat]

theorem readChars_escape (c : Char) (t : Text) :
    readChars (escape c ++ t) = (readChars t).map fun r => (c :: r.1, r.2) := by
  unfold escape
  cases h : shortEscapes.lookup c with
  | some e =>
    have hmem := mem_of_lookup h
    simp only [shortEscapes, List.mem_cons, Prod.mk.injEq, List.not_mem_nil, or_false] at hmem
    rcases hmem with ⟨rfl, rfl⟩ | ⟨rfl, rfl⟩ | ⟨rfl, rfl⟩ | ⟨rfl, rfl⟩ | ⟨rfl, rfl⟩ | ⟨rfl, rfl⟩ | ⟨rfl, rfl⟩
    all_goals
      simp [readChars, shortEscape, shortEscapes]
      cases readChars t <;> rfl
  | none =>
    have hquote : c ≠ '\x22' := by
      rintro rfl
      cases h
    have hslash : c ≠ '\x5c' := by
      rintro rfl
      cases h
    dsimp only
    split
    · rename_i hcontrol
      simp only [List.cons_append, List.nil_append, readChars, unicodeEscape_control hcontrol]
      cases readChars t <;> rfl
    · rename_i hplain
      rw [List.singleton_append, readChars, if_neg hquote, if_neg (by simp [hslash, hplain])]
      · cases readChars t <;> rfl
      · exact fun _ _ _ _ _ heq _ => hslash heq
      · exact fun _ _ heq _ => hslash heq

theorem readChars_flatMap_escape (s : List Char) (t : Text) :
    readChars (s.flatMap escape ++ '\x22' :: t) = some (s, t) := by
  induction s with
  | nil => simp [readChars]
  | cons c s ih => rw [List.flatMap_cons, List.append_assoc, readChars_escape, ih, Option.map_some]

/-! ## Numbers -/

def isNumberChar (c : Char) : Bool := c.isDigit || c = '-' || c = '+' || c = '.' || c = 'e' || c = 'E'

def writeInt : ℤ → Text
  | .ofNat n => Nat.toDigits 10 n
  | .negSucc n => '-' :: Nat.toDigits 10 (n + 1)

/-- An integer in its own writing only: no leading zeros and no negative zero. -/
def readInt (t : Text) : Option ℤ :=
  let n : ℤ := match t with
    | '-' :: digits => -Nat.ofDigitChars 10 digits 0
    | digits => Nat.ofDigitChars 10 digits 0
  if writeInt n = t then some n else none

variable {F : Type} (ft : FloatText F)

/-- A number that is not an integer of 64 bits is a floating-point number. -/
def readNumber (t : Text) : Option (Json F) :=
  match readInt t with
  | some n => if Int64Fits n then some (.int n) else (ft.read t).map .float
  | none => (ft.read t).map .float

/-- What is asked of the writing of floating-point numbers: `reparse` is what is read
back of them. -/
structure FloatText.Lawful (reparse : F → F) : Prop where
  number : ∀ x, ∀ c ∈ ft.write x, isNumberChar c
  nonempty : ∀ x, ft.write x ≠ []
  not_int : ∀ x, readInt (ft.write x) = none
  read_write : ∀ x, ft.read (ft.write x) = some (reparse x)

theorem readInt_writeInt (n : ℤ) : readInt (writeInt n) = some n := by
  unfold readInt
  cases n with
  | ofNat n =>
    have hminus : ∀ digits, writeInt (.ofNat n) ≠ '-' :: digits := by
      intro digits heq
      have hmem : '-' ∈ Nat.toDigits 10 n := by
        rw [writeInt] at heq
        rw [heq]
        exact List.mem_cons_self
      cases Nat.isDigit_of_mem_toDigits (by decide) (by decide) hmem
    split
    · rename_i digits heq
      exact absurd heq (hminus digits)
    · rw [writeInt, Nat.ofDigitChars_ten_toDigits]
      exact if_pos rfl
  | negSucc n =>
    simp only [writeInt, Nat.ofDigitChars_ten_toDigits]
    exact if_pos rfl

theorem writeInt_number (n : ℤ) : ∀ c ∈ writeInt n, isNumberChar c := by
  intro c hc
  cases n with
  | ofNat n =>
    have hdigit := Nat.isDigit_of_mem_toDigits (by decide) (by decide) hc
    simp [isNumberChar, hdigit]
  | negSucc n =>
    rcases List.mem_cons.1 hc with rfl | hc
    · rfl
    · have hdigit := Nat.isDigit_of_mem_toDigits (by decide) (by decide) hc
      simp [isNumberChar, hdigit]

theorem writeInt_ne_nil (n : ℤ) : writeInt n ≠ [] := by
  cases n with
  | ofNat n => exact Nat.toDigits_ne_nil
  | negSucc n => exact List.cons_ne_nil _ _

/-! ## Trees -/

mutual

/-- The compact text of a tree. -/
def write : Json F → Text
  | .null => "null".toList
  | .bool true => "true".toList
  | .bool false => "false".toList
  | .int n => writeInt n
  | .float x => ft.write x
  | .str s => writeString s
  | .arr items => '[' :: writeItems items ++ [']']
  | .obj fields => '\x7b' :: writeFields fields ++ ['\x7d']

def writeItems : List (Json F) → Text
  | [] => []
  | j :: items => write j ++ writeMoreItems items

def writeMoreItems : List (Json F) → Text
  | [] => []
  | j :: items => ',' :: write j ++ writeMoreItems items

def writeFields : List (String × Json F) → Text
  | [] => []
  | (k, j) :: fields => writeString k ++ ':' :: write j ++ writeMoreFields fields

def writeMoreFields : List (String × Json F) → Text
  | [] => []
  | (k, j) :: fields => ',' :: writeString k ++ ':' :: write j ++ writeMoreFields fields

end

/-- The text after a word, if it begins with the word. -/
def readWord (w t : Text) : Option Text := if t.take w.length = w then some (t.drop w.length) else none

mutual

/-- A value at the start of the text, and the text after it; at most `depth` arrays
and objects may be entered. Every call takes one step of `fuel`. -/
def readValue : (fuel depth : ℕ) → Text → Option (Json F × Text)
  | 0, _, _ => none
  | _ + 1, _, [] => none
  | fuel + 1, depth, c :: t =>
    if c = '\x22' then (readChars t).map fun r => (.str (String.ofList r.1), r.2)
    else if c = 'n' then (readWord "ull".toList t).map (.null, ·)
    else if c = 't' then (readWord "rue".toList t).map (.bool true, ·)
    else if c = 'f' then (readWord "alse".toList t).map (.bool false, ·)
    else if c = '[' then
      if depth = 0 then none else (readItems fuel (depth - 1) t).map fun r => (.arr r.1, r.2)
    else if c = '\x7b' then
      if depth = 0 then none else (readFields fuel (depth - 1) t).map fun r => (.obj r.1, r.2)
    else (readNumber ft ((c :: t).takeWhile isNumberChar)).map (·, (c :: t).dropWhile isNumberChar)

/-- The items of an array up to its end. -/
def readItems : (fuel depth : ℕ) → Text → Option (List (Json F) × Text)
  | 0, _, _ => none
  | fuel + 1, depth, t =>
    if t.head? = some ']' then some ([], t.tail)
    else
      match readValue fuel depth t with
      | none => none
      | some (j, t) => (readMoreItems fuel depth t).map fun r => (j :: r.1, r.2)

def readMoreItems : (fuel depth : ℕ) → Text → Option (List (Json F) × Text)
  | 0, _, _ => none
  | fuel + 1, depth, t =>
    match t with
    | ']' :: t => some ([], t)
    | ',' :: t =>
      match readValue fuel depth t with
      | none => none
      | some (j, t) => (readMoreItems fuel depth t).map fun r => (j :: r.1, r.2)
    | _ => none

/-- A field of an object, and the text after it. -/
def readField : (fuel depth : ℕ) → Text → Option ((String × Json F) × Text)
  | 0, _, _ => none
  | fuel + 1, depth, t =>
    match t with
    | '\x22' :: t =>
      match readChars t with
      | some (k, ':' :: t) => (readValue fuel depth t).map fun r => ((String.ofList k, r.1), r.2)
      | _ => none
    | _ => none

/-- The fields of an object up to its end. -/
def readFields : (fuel depth : ℕ) → Text → Option (List (String × Json F) × Text)
  | 0, _, _ => none
  | fuel + 1, depth, t =>
    if t.head? = some '\x7d' then some ([], t.tail)
    else
      match readField fuel depth t with
      | none => none
      | some (f, t) => (readMoreFields fuel depth t).map fun r => (f :: r.1, r.2)

def readMoreFields : (fuel depth : ℕ) → Text → Option (List (String × Json F) × Text)
  | 0, _, _ => none
  | fuel + 1, depth, t =>
    match t with
    | '\x7d' :: t => some ([], t)
    | ',' :: t =>
      match readField fuel depth t with
      | none => none
      | some (f, t) => (readMoreFields fuel depth t).map fun r => (f :: r.1, r.2)
    | _ => none

end

/-! ## Whole texts -/

/-- A text that is one value, nested no deeper than the limit. -/
def read (limit : ℕ) (t : Text) : Option (Json F) :=
  match readValue ft t.length limit t with
  | some (j, []) => some j
  | _ => none

end Lib.JsonText
