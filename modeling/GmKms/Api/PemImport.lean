import GmKms.Api.KeyImport
/-!
# Import of PEM texts

`parse_pkcs8` looks for the two markers one by one, and decodes what is between the
first of each in one piece. Which texts it panics on, and which PEM texts it reads.
-/

namespace GmKms.Api.KeyFormatParser

open Lib

/-! ## Finding -/

section

variable {pattern t : Text} {n : ℕ}

theorem take_length_eq_iff : t.take pattern.length = pattern ↔ pattern <+: t := by
  rw [List.prefix_iff_eq_take, eq_comm]

/-- The first place where the pattern stands. -/
theorem find_eq_some_iff (hpattern : pattern ≠ []) :
    find pattern t = some n ↔ pattern <+: t.drop n ∧ ∀ m < n, ¬ pattern <+: t.drop m := by
  induction t generalizing n with
  | nil => simp [find, hpattern]
  | cons c t ih =>
    rw [find]
    simp only [take_length_eq_iff]
    split
    · rename_i hhere
      cases n with
      | zero => simp [hhere]
      | succ n =>
        simp only [Option.some.injEq, reduceCtorEq, false_iff, not_and, not_forall]
        intro _
        exact ⟨0, Nat.succ_pos n, not_not.2 hhere⟩
    · rename_i hhere
      cases n with
      | zero =>
        simp [hhere]
      | succ n =>
        rw [Option.map_eq_some_iff]
        simp only [Nat.succ_inj, exists_eq_right, ih, List.drop_succ_cons]
        refine and_congr_right fun _ => ⟨?_, ?_⟩
        · intro h m hm
          cases m with
          | zero => exact hhere
          | succ m => exact h m (Nat.lt_of_succ_lt_succ hm)
        · intro h m hm
          exact h (m + 1) (Nat.succ_lt_succ hm)

theorem find_eq_none_iff (hpattern : pattern ≠ []) : find pattern t = none ↔ ∀ m, ¬ pattern <+: t.drop m := by
  constructor
  · intro h m hm
    -- the least such place would have been found
    have hex : ∃ m, pattern <+: t.drop m := ⟨m, hm⟩
    classical
    rw [(find_eq_some_iff hpattern).2 ⟨Nat.find_spec hex, fun k hk => Nat.find_min hex hk⟩] at h
    cases h
  · intro h
    cases hfound : find pattern t with
    | none => rfl
    | some n => exact absurd ((find_eq_some_iff hpattern).1 hfound).1 (h n)

end

/-! ## Trimming -/

section

variable {t u v w : Text} {c c' : Char}

/-- A character that is no white space stops the trimming at the start. -/
theorem dropWhile_append_cons (hc : Text.isWhiteSpace c = false) (u v : Text) :
    ∃ u', (u ++ c :: v).dropWhile Text.isWhiteSpace = u' ++ c :: v := by
  induction u with
  | nil => exact ⟨[], List.dropWhile_cons_of_neg (by simp [hc])⟩
  | cons x u ih =>
    rw [List.cons_append, List.dropWhile_cons]
    split
    · exact ih
    · exact ⟨x :: u, rfl⟩

/-- And at the end. -/
theorem rdropWhile_append_cons (hc : Text.isWhiteSpace c = false) (u v : Text) :
    ∃ v', (u ++ c :: v).rdropWhile Text.isWhiteSpace = u ++ c :: v' := by
  obtain ⟨v', hv'⟩ := dropWhile_append_cons hc v.reverse u.reverse
  refine ⟨v'.reverse, ?_⟩
  rw [List.rdropWhile, List.reverse_append, List.reverse_cons, List.append_assoc, List.singleton_append, hv']
  simp

theorem mem_trim (hc : Text.isWhiteSpace c = false) (h : c ∈ t) : c ∈ trim t := by
  obtain ⟨u, v, rfl⟩ := List.append_of_mem h
  obtain ⟨u', hu'⟩ := dropWhile_append_cons hc u v
  obtain ⟨v', hv'⟩ := rdropWhile_append_cons hc u' v
  rw [trim, hu', hv']
  simp

/-- What stands between two such characters stays, white space or not. -/
theorem mem_trim_of_between (hc : Text.isWhiteSpace c = false) (hc' : Text.isWhiteSpace c' = false) {x : Char}
    (hx : x ∈ w) : x ∈ trim (u ++ c :: (w ++ c' :: v)) := by
  obtain ⟨u', hu'⟩ := dropWhile_append_cons hc u (w ++ c' :: v)
  obtain ⟨v', hv'⟩ := rdropWhile_append_cons hc' (u' ++ c :: w) v
  rw [trim, hu', show u' ++ c :: (w ++ c' :: v) = u' ++ c :: w ++ c' :: v by simp, hv']
  simp [hx]

/-- White space on both sides goes. -/
theorem trim_append (hu : ∀ c ∈ u, Text.isWhiteSpace c) (hw : ∀ c ∈ w, Text.isWhiteSpace c = false)
    (hv : ∀ c ∈ v, Text.isWhiteSpace c) : trim (u ++ (w ++ v)) = w := by
  have hstart : (u ++ (w ++ v)).dropWhile Text.isWhiteSpace = (w ++ v).dropWhile Text.isWhiteSpace := by
    rw [List.dropWhile_append, List.dropWhile_eq_nil_iff.2 hu]
    rfl
  rw [trim, hstart]
  rcases w.eq_nil_or_concat' with rfl | ⟨w', c, rfl⟩
  · rw [List.nil_append, List.dropWhile_eq_nil_iff.2 hv]
    rfl
  · have hkeep : ((w' ++ [c]) ++ v).dropWhile Text.isWhiteSpace = (w' ++ [c]) ++ v := by
      cases w' with
      | nil => rw [List.nil_append, List.singleton_append, List.dropWhile_cons_of_neg (by simp [hw c (by simp)])]
      | cons x w' => rw [List.cons_append, List.cons_append, List.dropWhile_cons_of_neg (by simp [hw x (by simp)])]
    rw [hkeep, List.rdropWhile, List.reverse_append, List.dropWhile_append,
      List.dropWhile_eq_nil_iff.2 (fun c hc => hv c (List.mem_reverse.1 hc))]
    simp [hw c (by simp)]

end

/-! ## PEM texts -/

/-- Lines of at most 64 characters. -/
def wrap (t : Text) : List Text :=
  match t with
  | [] => []
  | c :: t => (c :: t).take 64 :: wrap ((c :: t).drop 64)
termination_by t.length
decreasing_by
  rw [List.length_drop, List.length_cons]
  omega

inductive LineEnd where
  | lf | crlf | cr
  deriving DecidableEq, Repr

def LineEnd.text : LineEnd → Text
  | lf => ['\n']
  | crlf => ['\r', '\n']
  | cr => ['\r']

/-- What stands between the markers. -/
def pemBody (eol : LineEnd) (der : Bytes) : Text := eol.text ++ (wrap (Base64.encodeChars der)).flatMap (· ++ eol.text)

/-- The PEM text of a key, with text before it and after it. -/
def pemText (eol : LineEnd) (before : Text) (der : Bytes) (after : Text) : Text :=
  before ++ (startMarker ++ (pemBody eol der ++ (endMarker ++ after)))

/-- `as_bytes`. -/
def textBytes (t : Text) : Bytes := t.flatMap String.utf8EncodeChar

theorem fromUtf8_textBytes (t : Text) : fromUtf8 (textBytes t) = some (String.ofList t) := by
  have hbytes : (⟨(textBytes t).toArray⟩ : ByteArray) = (String.ofList t).toByteArray := by
    apply ByteArray.ext
    apply Array.toList_inj.1
    exact List.toList_data_toByteArray.symm
  rw [fromUtf8, hbytes, String.fromUTF8?, dif_pos (String.ofList t).isValidUTF8]
  rfl

theorem eq_newline_of_mem_eol {eol : LineEnd} {c : Char} (h : c ∈ eol.text) : c = '\n' ∨ c = '\r' := by
  cases eol
  · exact .inl (List.mem_singleton.1 h)
  · rcases List.mem_pair.1 h with rfl | rfl
    · exact .inr rfl
    · exact .inl rfl
  · exact .inr (List.mem_singleton.1 h)

theorem isWhiteSpace_of_mem_eol {eol : LineEnd} {c : Char} (h : c ∈ eol.text) : Text.isWhiteSpace c := by
  rcases eq_newline_of_mem_eol h with rfl | rfl <;> rfl

/-- A base64 text has neither white space nor a dash. -/
theorem base64_char {der : Bytes} {c : Char} (h : c ∈ Base64.encodeChars der) :
    Text.isWhiteSpace c = false ∧ c ≠ '-' := by
  have hall : ∀ n < 64, Text.isWhiteSpace (Base64.digit n) = false ∧ Base64.digit n ≠ '-' := by decide +kernel
  rcases List.mem_cons.1 (Base64.mem_encodeChars h) with rfl | h
  · exact ⟨rfl, by decide⟩
  · obtain ⟨n, hn, rfl⟩ := Base64.exists_digit h
    exact hall n hn

theorem mem_of_mem_wrap {t l : Text} {c : Char} (hl : l ∈ wrap t) (hc : c ∈ l) : c ∈ t := by
  induction t using wrap.induct with
  | case1 => simp [wrap] at hl
  | case2 x t ih =>
    rw [wrap, List.mem_cons] at hl
    rcases hl with rfl | hl
    · exact List.mem_of_mem_take hc
    · exact List.mem_of_mem_drop (ih hl)

theorem wrap_of_length_le {t : Text} (hne : t ≠ []) (h : t.length ≤ 64) : wrap t = [t] := by
  cases t with
  | nil => exact absurd rfl hne
  | cons c t => rw [wrap, List.take_of_length_le h, List.drop_of_length_le h, wrap]

theorem ne_dash_of_mem_pemBody {eol : LineEnd} {der : Bytes} {c : Char} (h : c ∈ pemBody eol der) : c ≠ '-' := by
  have heol : ∀ c ∈ eol.text, c ≠ '-' := by
    intro c hc
    rcases eq_newline_of_mem_eol hc with rfl | rfl <;> decide
  rcases List.mem_append.1 h with h | h
  · exact heol c h
  · obtain ⟨l, hl, hc⟩ := List.mem_flatMap.1 h
    rcases List.mem_append.1 hc with hc | hc
    · exact (base64_char (mem_of_mem_wrap hl hc)).2
    · exact heol c hc

theorem pemBody_eq_cons (eol : LineEnd) (der : Bytes) :
    ∃ c rest, pemBody eol der = c :: rest ∧ (c = '\n' ∨ c = '\r') := by
  cases eol
  · exact ⟨'\n', _, rfl, .inl rfl⟩
  · exact ⟨'\r', _, rfl, .inr rfl⟩
  · exact ⟨'\r', _, rfl, .inr rfl⟩

/-- A key of at most 48 bytes stands on one line, and what is left after trimming is its encoding. -/
theorem trim_pemBody {eol : LineEnd} {der : Bytes} (h : der.length ≤ 48) :
    trim (pemBody eol der) = Base64.encodeChars der := by
  by_cases hne : Base64.encodeChars der = []
  · have hnil := trim_append (u := eol.text) (w := []) (v := []) (fun c => isWhiteSpace_of_mem_eol)
      (by simp) (by simp)
    simpa [pemBody, hne, wrap] using hnil
  · have hlength : (Base64.encodeChars der).length ≤ 64 := by
      rw [Base64.length_encodeChars]
      omega
    rw [pemBody, wrap_of_length_le hne hlength, List.flatMap_singleton]
    exact trim_append (fun c => isWhiteSpace_of_mem_eol) (fun c hc => (base64_char hc).1)
      (fun c => isWhiteSpace_of_mem_eol)

theorem wrap_append {l r : Text} (hl : l.length = 64) : wrap (l ++ r) = l :: wrap r := by
  cases l with
  | nil => cases hl
  | cons c l => rw [List.cons_append, wrap, ← List.cons_append, ← hl, List.take_left, List.drop_left]

theorem exists_wrap_cons (c : Char) (t : Text) : ∃ l ls, wrap (c :: t) = (c :: l) :: ls := by
  rw [wrap]
  exact ⟨t.take 63, _, rfl⟩

/-- A longer one stands on several, and the line ends between them stay. -/
theorem exists_newline_of_long {eol : LineEnd} {der : Bytes} (h : 48 < der.length) :
    ∃ c ∈ trim (pemBody eol der), Text.isWhiteSpace c := by
  have hlength : 64 < (Base64.encodeChars der).length := by
    rw [Base64.length_encodeChars]
    omega
  -- the first line ends with `c`, and the second one starts with `c'`
  obtain ⟨l, c, hline⟩ : ∃ l c, (Base64.encodeChars der).take 64 = l ++ [c] := by
    rcases ((Base64.encodeChars der).take 64).eq_nil_or_concat' with hnil | hconcat
    · have := congrArg List.length hnil
      rw [List.length_take_of_le hlength.le] at this
      cases this
    · exact hconcat
  obtain ⟨c', r, hrest⟩ := List.exists_cons_of_length_pos (l := (Base64.encodeChars der).drop 64) (by
    rw [List.length_drop]
    omega)
  obtain ⟨l', ls, hwrap⟩ := exists_wrap_cons c' r
  have hsplit : Base64.encodeChars der = (l ++ [c]) ++ c' :: r := by
    rw [← hline, ← hrest, List.take_append_drop]
  have hbody : pemBody eol der =
      (eol.text ++ l) ++ c :: (eol.text ++ c' :: (l' ++ (eol.text ++ ls.flatMap (· ++ eol.text)))) := by
    rw [pemBody, hsplit, wrap_append (by rw [← hline, List.length_take_of_le hlength.le]), hwrap]
    simp
  obtain ⟨x, hx⟩ : ∃ x, x ∈ eol.text := by cases eol <;> exact ⟨_, List.mem_cons_self ..⟩
  have hmem : c ∈ Base64.encodeChars der ∧ c' ∈ Base64.encodeChars der := by simp [hsplit]
  have hc := (base64_char hmem.1).1
  have hc' := (base64_char hmem.2).1
  refine ⟨x, ?_, isWhiteSpace_of_mem_eol hx⟩
  rw [hbody]
  exact mem_trim_of_between hc hc' hx

/-- So it decodes to the key just if the key is short. -/
theorem decodeChars_pemBody_iff {eol : LineEnd} {der : Bytes} :
    Base64.decodeChars (trim (pemBody eol der)) = some der ↔ der.length ≤ 48 := by
  rw [Base64.decodeChars_eq_some_iff]
  constructor
  · intro h
    by_contra hlong
    obtain ⟨c, hc, hspace⟩ : ∃ c ∈ trim (pemBody eol der), Text.isWhiteSpace c :=
      exists_newline_of_long (Nat.not_le.1 hlong)
    rw [h] at hc
    rw [(base64_char hc).1] at hspace
    cases hspace
  · exact trim_pemBody

/-! ## The first markers of a PEM text -/

/-- What every marker starts and ends with. -/
def dashes : Text := "-----".toList

theorem length_startMarker : startMarker.length = 27 := by decide

theorem length_endMarker : endMarker.length = 25 := by decide

/-- The dashes of a marker stand at its start and at its end only. -/
theorem dashes_startMarker : ∀ o, 1 ≤ o → o + 5 < startMarker.length → ¬ dashes <+: startMarker.drop o := by
  have h : ∀ o < 22, 1 ≤ o → ¬ dashes <+: startMarker.drop o := by decide
  intro o ho hlt
  rw [length_startMarker] at hlt
  exact h o (by omega) ho

theorem dashes_endMarker : ∀ o, 1 ≤ o → o + 5 < endMarker.length → ¬ dashes <+: endMarker.drop o := by
  have h : ∀ o < 20, 1 ≤ o → ¬ dashes <+: endMarker.drop o := by decide
  intro o ho hlt
  rw [length_endMarker] at hlt
  exact h o (by omega) ho

section

variable {marker before rest : Text}

/-- A marker that starts in the text before can end with the dashes that follow, but no later. -/
theorem prefix_drop_iff {m : ℕ} (hm : m < before.length) (hrest : dashes <+: rest)
    (hmarker : ∀ o, 1 ≤ o → o + 5 < marker.length → ¬ dashes <+: marker.drop o) :
    marker <+: (before ++ rest).drop m ↔ marker <+: (before ++ dashes).drop m := by
  obtain ⟨x, rfl⟩ := hrest
  rw [List.drop_append_of_le_length hm.le, List.drop_append_of_le_length hm.le]
  have hpart : before.drop m ++ dashes <+: before.drop m ++ (dashes ++ x) := by
    rw [← List.append_assoc]
    exact List.prefix_append _ _
  constructor
  · intro h
    by_cases hlength : marker.length ≤ (before.drop m ++ dashes).length
    · exact List.prefix_of_prefix_length_le h hpart hlength
    · obtain ⟨y, hy⟩ := List.prefix_of_prefix_length_le hpart h (Nat.le_of_not_le hlength)
      rw [List.length_append, List.length_drop] at hlength
      have hdrop : marker.drop (before.length - m) = dashes ++ y := by
        rw [← hy, List.append_assoc, ← List.length_drop, List.drop_left]
      exact absurd ⟨y, hdrop.symm⟩ (hmarker _ (by omega) (by
        have : dashes.length = 5 := rfl
        omega))
  · intro h
    exact h.trans hpart

/-- A marker is first found in the text before, the dashes included, or at its first place after it. -/
theorem find_append {k : ℕ} (hlong : 5 < marker.length) (hrest : dashes <+: rest)
    (hmarker : ∀ o, 1 ≤ o → o + 5 < marker.length → ¬ dashes <+: marker.drop o)
    (hk : marker <+: rest.drop k) (hfirst : ∀ j < k, ¬ marker <+: rest.drop j) :
    find marker (before ++ rest) = some ((find marker (before ++ dashes)).getD (before.length + k)) := by
  have hne : marker ≠ [] := by
    rintro rfl
    cases hlong
  rw [find_eq_some_iff hne]
  cases hfound : find marker (before ++ dashes) with
  | none =>
    have hnone := (find_eq_none_iff hne).1 hfound
    rw [Option.getD_none, ← List.drop_drop, List.drop_left]
    refine ⟨hk, ?_⟩
    intro m hm
    rcases Nat.lt_or_ge m before.length with hm' | hm'
    · rw [prefix_drop_iff hm' hrest hmarker]
      exact hnone m
    · obtain ⟨j, rfl⟩ := Nat.exists_eq_add_of_le hm'
      rw [← List.drop_drop, List.drop_left]
      exact hfirst j (by omega)
  | some s =>
    obtain ⟨hs, hleast⟩ := (find_eq_some_iff hne).1 hfound
    have hlt : s < before.length := by
      have hlength := hs.length_le
      have : dashes.length = 5 := rfl
      rw [List.length_drop, List.length_append] at hlength
      omega
    rw [Option.getD_some]
    refine ⟨(prefix_drop_iff hlt hrest hmarker).2 hs, ?_⟩
    intro m hm
    rw [prefix_drop_iff (hm.trans hlt) hrest hmarker]
    exact hleast m hm

end

section

variable {eol : LineEnd} {before after : Text} {der : Bytes}

theorem dashes_prefix_pem (rest : Text) : dashes <+: startMarker ++ rest :=
  (show dashes <+: startMarker by decide).trans (List.prefix_append _ _)

theorem find_startMarker_pemText :
    find startMarker (pemText eol before der after) =
      some ((find startMarker (before ++ dashes)).getD before.length) := by
  rw [pemText, find_append (k := 0) (by decide) (dashes_prefix_pem _) dashes_startMarker (List.prefix_append _ _)
    (by simp), Nat.add_zero]

/-- Between the start marker and the end marker there is no place for another one. -/
theorem not_endMarker_prefix {j : ℕ} (hj : j < startMarker.length + (pemBody eol der).length) :
    ¬ endMarker <+: (startMarker ++ (pemBody eol der ++ (endMarker ++ after))).drop j := by
  intro h
  rcases Nat.lt_or_ge j startMarker.length with hin | hout
  · obtain ⟨c, rest, hbody, hc⟩ := pemBody_eq_cons eol der
    rw [List.drop_append_of_le_length hin.le, hbody, List.cons_append] at h
    -- the line end after the start marker is no part of a marker
    have hpart : startMarker.drop j ++ [c] <+: startMarker.drop j ++ (c :: (rest ++ (endMarker ++ after))) := by
      simp
    have hline : c ∉ endMarker := by rcases hc with rfl | rfl <;> decide
    rcases List.prefix_or_prefix_of_prefix h hpart with h | h
    · rcases List.prefix_concat_iff.1 h with h | h
      · exact hline (h ▸ List.mem_concat_self ..)
      · exact (show ¬ endMarker <:+: startMarker by decide) (h.isInfix.trans (List.drop_suffix j _).isInfix)
    · exact hline (h.subset (List.mem_concat_self ..))
  · obtain ⟨i, rfl⟩ := Nat.exists_eq_add_of_le hout
    rw [← List.drop_drop, List.drop_left, List.drop_append_of_le_length (by omega)] at h
    obtain ⟨c, rest, hcons⟩ := List.exists_cons_of_length_pos (l := (pemBody eol der).drop i) (by
      rw [List.length_drop]
      omega)
    rw [hcons] at h
    have hhead : '-' = c := (List.cons_prefix_cons.1 h).1
    exact ne_dash_of_mem_pemBody (List.mem_of_mem_drop (hcons ▸ List.mem_cons_self ..)) hhead.symm

theorem find_endMarker_pemText :
    find endMarker (pemText eol before der after) = some ((find endMarker (before ++ dashes)).getD
      (before.length + (startMarker.length + (pemBody eol der).length))) := by
  apply find_append (by decide) (dashes_prefix_pem _) dashes_endMarker
  · rw [← List.drop_drop, List.drop_left, List.drop_left]
    exact List.prefix_append _ _
  · intro j hj
    exact not_endMarker_prefix hj

end

/-! ## What the parser reads -/

/-- Between the first start marker and the first end marker stands the encoding of the key, in one piece. -/
def Encloses (t : Text) (der : Bytes) : Prop :=
  ∃ startIdx endIdx, find startMarker t = some startIdx ∧ find endMarker t = some endIdx ∧
    startIdx + startMarker.length ≤ endIdx ∧
    trim ((t.take endIdx).drop (startIdx + startMarker.length)) = Base64.encodeChars der

/-- The first end marker starts before the first start marker ends. -/
def Reversed (t : Text) : Prop :=
  ∃ startIdx endIdx, find startMarker t = some startIdx ∧ find endMarker t = some endIdx ∧
    endIdx < startIdx + startMarker.length

section

variable {keyData der : Bytes} {pem : String}

theorem parsePkcs8_eq_ok_iff (h : fromUtf8 keyData = some pem) :
    parsePkcs8 keyData = .ok der ↔ Encloses pem.toList der := by
  unfold parsePkcs8 Encloses
  rw [h]
  cases hstart : find startMarker pem.toList with
  | none => simp [hstart, invalid]
  | some startIdx =>
    cases hend : find endMarker pem.toList with
    | none => simp [hstart, hend, invalid]
    | some endIdx =>
      simp only [Option.some.injEq, exists_and_left, exists_eq_left', hstart, hend]
      split
      · rename_i hlt
        simp [Nat.not_le.2 hlt]
      · rename_i hle
        rw [← Base64.decodeChars_eq_some_iff, and_iff_right (Nat.not_lt.1 hle)]
        split
        · rename_i hdecoded
          simp [hdecoded, invalid]
        · rename_i material hdecoded
          simp [hdecoded]

/-- The only panic is the slice between the markers. -/
theorem returns_parsePkcs8_iff :
    Returns (parsePkcs8 keyData) ↔ ¬ ∃ pem, fromUtf8 keyData = some pem ∧ Reversed pem.toList := by
  unfold parsePkcs8 Reversed
  cases h : fromUtf8 keyData with
  | none => simp [invalid]
  | some pem =>
    cases hstart : find startMarker pem.toList with
    | none => simp [hstart, invalid]
    | some startIdx =>
      cases hend : find endMarker pem.toList with
      | none => simp [hstart, hend, invalid]
      | some endIdx =>
        simp only [Option.some.injEq, exists_and_left, exists_eq_left', hstart, hend]
        split
        · rename_i hlt
          simp [hlt]
        · rename_i hle
          rw [iff_true_right hle]
          split <;> simp [invalid]

end

/-- A PEM text is read if the text before it has no marker and the key is short, or if the text
before it encloses the key, too. -/
theorem encloses_pemText_iff {eol : LineEnd} {before after : Text} {der : Bytes} :
    Encloses (pemText eol before der after) der ↔
      find startMarker (before ++ dashes) = none ∧ find endMarker (before ++ dashes) = none ∧ der.length ≤ 48 ∨
      Encloses (before ++ dashes) der := by
  unfold Encloses
  simp only [find_startMarker_pemText, find_endMarker_pemText, Option.some.injEq, exists_and_left, exists_eq_left']
  have hdashes : dashes.length = 5 := rfl
  have hS := length_startMarker
  have hE := length_endMarker
  have hSne : startMarker ≠ [] := by decide
  have hEne : endMarker ≠ [] := by decide
  have hinner : (pemText eol before der after).take (before.length + (startMarker.length + (pemBody eol der).length)) =
      before ++ (startMarker ++ pemBody eol der) := by
    rw [pemText, ← List.append_assoc startMarker, ← List.append_assoc before, ← List.length_append,
      ← List.length_append, List.take_left]
  cases hstart : find startMarker (before ++ dashes) with
  | none =>
    cases hend : find endMarker (before ++ dashes) with
    | none =>
      -- the markers are those of the PEM text itself
      have hbody : (before ++ (startMarker ++ pemBody eol der)).drop (before.length + startMarker.length) =
          pemBody eol der := by
        rw [← List.drop_drop, List.drop_left, List.drop_left]
      simp only [Option.getD_none, hinner, hbody, reduceCtorEq, false_and, exists_false, or_false, true_and]
      rw [← decodeChars_pemBody_iff, Base64.decodeChars_eq_some_iff, and_iff_right (by omega)]
    | some endIdx =>
      -- the end marker comes first
      have hlength := ((find_eq_some_iff hEne).1 hend).1.length_le
      rw [List.length_drop, List.length_append] at hlength
      simp only [Option.getD_none, Option.getD_some, reduceCtorEq, false_and, and_false, exists_false, or_false,
        iff_false, not_and]
      omega
  | some startIdx =>
    have hlength := ((find_eq_some_iff hSne).1 hstart).1.length_le
    rw [List.length_drop, List.length_append] at hlength
    cases hend : find endMarker (before ++ dashes) with
    | none =>
      -- the start marker of the PEM text is taken for a part of the key
      have hdash : '-' ∈ (before ++ (startMarker ++ pemBody eol der)).drop (startIdx + startMarker.length) := by
        have hsplit : startMarker = startMarker.dropLast ++ ['-'] := by decide
        have hlast : startMarker.dropLast.length = 26 := by decide
        rw [hsplit, List.append_assoc, ← List.append_assoc before, ← hsplit,
          List.drop_append_of_le_length (by rw [List.length_append]; omega)]
        simp
      simp only [Option.getD_none, Option.getD_some, hinner, reduceCtorEq, false_and, and_false, exists_false, or_false,
        iff_false, not_and]
      intro _ htrim
      exact (base64_char (htrim ▸ mem_trim (by decide) hdash)).2 rfl
    | some endIdx =>
      -- both are found in the text before, and nothing behind it is looked at
      have hlength' := ((find_eq_some_iff hEne).1 hend).1.length_le
      rw [List.length_drop, List.length_append] at hlength'
      obtain ⟨x, hx⟩ : ∃ x, pemText eol before der after = before ++ dashes ++ x := by
        obtain ⟨x, hx⟩ := dashes_prefix_pem (pemBody eol der ++ (endMarker ++ after))
        exact ⟨x, by rw [pemText, ← hx, List.append_assoc]⟩
      have htake : (pemText eol before der after).take endIdx = (before ++ dashes).take endIdx := by
        rw [hx, List.take_append_of_le_length (by rw [List.length_append]; omega)]
      simp only [Option.getD_some, htake, reduceCtorEq, false_and, false_or, Option.some.injEq, exists_eq_left']

section

variable {F : Type} (fromStr : String → Option (Json F))

theorem parse_of_pem {format : String} (hformat : toLowercase format ∈ ["pkcs8", "pkcs#8", "pem"]) (keyData : Bytes) :
    parse fromStr format keyData = parsePkcs8 keyData := by
  have hraw : toLowercase format ≠ "raw" := by
    intro h
    rw [h] at hformat
    exact absurd hformat (by decide)
  rw [parse, if_neg hraw, if_pos hformat]

/-- When an import in a PEM format comes back, and when it reads the PEM text of a key. -/
theorem parse_pem_iff {format : String} (hformat : toLowercase format ∈ ["pkcs8", "pkcs#8", "pem"]) (keyData : Bytes)
    (eol : LineEnd) (before after : Text) (der : Bytes) :
    (Returns (parse fromStr format keyData) ↔ ¬ ∃ pem, fromUtf8 keyData = some pem ∧ Reversed pem.toList) ∧
      (parse fromStr format (textBytes (pemText eol before der after)) = .ok der ↔
        find startMarker (before ++ dashes) = none ∧ find endMarker (before ++ dashes) = none ∧ der.length ≤ 48 ∨
          Encloses (before ++ dashes) der) := by
  rw [parse_of_pem fromStr hformat, parse_of_pem fromStr hformat, returns_parsePkcs8_iff,
    parsePkcs8_eq_ok_iff (fromUtf8_textBytes _), String.toList_ofList, encloses_pemText_iff]
  exact ⟨Iff.rfl, Iff.rfl⟩

/-- At the format `pem`. -/
theorem parse_pem_iff_short : Returns (parse (F := Unit) (fun _ => none) "pem" (textBytes [])) ∧
    parse (F := Unit) (fun _ => none) "pem" (textBytes (pemText .crlf [] [0x30, 0x00] [])) = .ok [0x30, 0x00] := by
  have hformat : toLowercase "pem" ∈ ["pkcs8", "pkcs#8", "pem"] := by decide +kernel
  obtain ⟨hreturns, hread⟩ := parse_pem_iff (F := Unit) (fun _ => none) hformat (textBytes []) .crlf [] [] [0x30, 0x00]
  refine ⟨hreturns.2 ?_, hread.2 (.inl ⟨by decide, by decide, by decide⟩)⟩
  rintro ⟨pem, hpem, startIdx, endIdx, hstart, -⟩
  rw [fromUtf8_textBytes, Option.some.injEq] at hpem
  subst hpem
  cases hstart

/-- The markers in the wrong order, and a key that takes two lines. -/
theorem not_parse_pem : ¬ Returns (parse (F := Unit) (fun _ => none) "pem" (textBytes (endMarker ++ startMarker))) ∧
    parse (F := Unit) (fun _ => none) "pem" (textBytes (pemText .lf [] (List.replicate 49 0) [])) ≠
      .ok (List.replicate 49 0) := by
  have hformat : toLowercase "pem" ∈ ["pkcs8", "pkcs#8", "pem"] := by decide +kernel
  rw [parse_of_pem _ hformat, parse_of_pem _ hformat]
  constructor
  · rw [returns_parsePkcs8_iff, not_not]
    refine ⟨_, fromUtf8_textBytes _, 25, 0, ?_⟩
    rw [String.toList_ofList]
    decide
  · rw [Ne, parsePkcs8_eq_ok_iff (fromUtf8_textBytes _), String.toList_ofList, encloses_pemText_iff]
    rintro (⟨-, -, hshort⟩ | ⟨startIdx, endIdx, hstart, -⟩)
    · exact absurd hshort (by decide)
    · cases hstart

end

end GmKms.Api.KeyFormatParser
