import Mathlib
/-!
# JSON values

The value tree a JSON library works on. An object is its list of fields in the
order in which the library iterates over them; numbers are integers or values of
a floating-point type `F`.
-/

namespace Lib

inductive Json (F : Type) where
  | null
  | bool (b : Bool)
  | int (n : ℤ)
  | float (x : F)
  | str (s : String)
  | arr (items : List (Json F))
  | obj (fields : List (String × Json F))

namespace Json

variable {F : Type}

/-- Induction with the hypothesis for every item of an array and every field of an object. -/
theorem induct {P : Json F → Prop} (null : P null) (bool : ∀ b, P (bool b)) (int : ∀ n, P (int n))
    (float : ∀ x, P (float x)) (str : ∀ s, P (str s)) (arr : ∀ items, (∀ j ∈ items, P j) → P (arr items))
    (obj : ∀ fields, (∀ f ∈ fields, P f.2) → P (obj fields)) : ∀ j, P j :=
  @Json.rec F P (fun items => ∀ j ∈ items, P j) (fun fields => ∀ f ∈ fields, P f.2) (fun f => P f.2) null bool int
    float str arr obj (by simp) (fun _ _ hj hjs => List.forall_mem_cons.2 ⟨hj, hjs⟩) (by simp)
    (fun _ _ hf hfs => List.forall_mem_cons.2 ⟨hf, hfs⟩) fun _ _ h => h

/-! ## Reading fields -/

/-- The field of an object. -/
def field? (fields : List (String × Json F)) (name : String) : Option (Json F) :=
  (fields.find? (·.1 = name)).map (·.2)

def asString? : Json F → Option String
  | str s => some s
  | _ => none

/-- An integer that fits an unsigned field of `w` bits. -/
def asUnsigned? (w : ℕ) : Json F → Option ℕ
  | int n => if 0 ≤ n ∧ n < 2 ^ w then some n.toNat else none
  | _ => none

/-- An integer that fits an unsigned 64-bit field. -/
def asU64? (j : Json F) : Option ℕ := j.asUnsigned? 64

theorem asUnsigned?_int {w n : ℕ} (h : n < 2 ^ w) : (int n : Json F).asUnsigned? w = some n := by
  have hn : (0 : ℤ) ≤ n ∧ (n : ℤ) < 2 ^ w := ⟨Int.natCast_nonneg n, by exact_mod_cast h⟩
  rw [asUnsigned?, if_pos hn, Int.toNat_natCast]

/-- A list is read item by item when each item is read. -/
theorem mapM_map_eq {α β γ : Type} {write : α → β} {read : β → Option γ} {g : α → γ}
    (h : ∀ a, read (write a) = some (g a))
    (l : List α) : (l.map write).mapM read = some (l.map g) := by
  have hread : read ∘ write = fun a => pure (g a) := funext h
  rw [List.mapM_map, hread, List.mapM_pure]
  rfl

/-- A list whose items are read back is read back. -/
theorem mapM_map_eq_some {α β : Type} {write : α → β} {read : β → Option α} (h : ∀ a, read (write a) = some a)
    (l : List α) : (l.map write).mapM read = some l := by
  rw [mapM_map_eq (g := id) h, List.map_id]

/-- The field of this name, if there is one; an object that has it twice is refused. -/
def once? (fields : List (String × Json F)) (name : String) : Option (Option (Json F)) :=
  match fields.filter (·.1 = name) with
  | [] => some none
  | [e] => some (some e.2)
  | _ => none

/-- A field that has to be there. -/
def required? (fields : List (String × Json F)) (name : String) : Option (Json F) := (once? fields name).join

theorem once?_nil (name : String) : once? ([] : List (String × Json F)) name = some none := rfl

theorem once?_cons_of_ne {k name : String} {j : Json F} {fields : List (String × Json F)} (h : k ≠ name) :
    once? ((k, j) :: fields) name = once? fields name := by
  rw [once?, List.filter_cons_of_neg (by simpa using h), once?]

theorem filter_name_eq_nil {name : String} {fields : List (String × Json F)} (h : name ∉ fields.map (·.1)) :
    fields.filter (·.1 = name) = [] :=
  List.filter_eq_nil_iff.2 fun e he heq => h (List.mem_map.2 ⟨e, he, of_decide_eq_true heq⟩)

theorem once?_cons_self {name : String} {j : Json F} {fields : List (String × Json F)}
    (h : name ∉ fields.map (·.1)) : once? ((name, j) :: fields) name = some (some j) := by
  rw [once?, List.filter_cons_of_pos (by simp), filter_name_eq_nil h]

theorem required?_of_not_mem {name : String} {fields : List (String × Json F)} (h : name ∉ fields.map (·.1)) :
    required? fields name = none := by
  rw [required?, once?, filter_name_eq_nil h, Option.join_some]

/-! ## Trees -/

mutual

/-- How many arrays and objects enclose the innermost ones, themselves included. -/
def depth : Json F → ℕ
  | arr items => depthItems items + 1
  | obj fields => depthFields fields + 1
  | _ => 0

def depthItems : List (Json F) → ℕ
  | [] => 0
  | j :: items => max (depth j) (depthItems items)

def depthFields : List (String × Json F) → ℕ
  | [] => 0
  | (_, j) :: fields => max (depth j) (depthFields fields)

end

mutual

/-- The tree with its floating-point numbers replaced. -/
def mapFloat (f : F → F) : Json F → Json F
  | float x => float (f x)
  | arr items => arr (mapItems f items)
  | obj fields => obj (mapFields f fields)
  | j => j

def mapItems (f : F → F) : List (Json F) → List (Json F)
  | [] => []
  | j :: items => mapFloat f j :: mapItems f items

def mapFields (f : F → F) : List (String × Json F) → List (String × Json F)
  | [] => []
  | (k, j) :: fields => (k, mapFloat f j) :: mapFields f fields

end

/-- An integer that fits 64 bits, signed or unsigned. -/
def Int64Fits (n : ℤ) : Prop := -2 ^ 63 ≤ n ∧ n < 2 ^ 64

mutual

/-- Every integer fits 64 bits. -/
def IntsFit : Json F → Prop
  | int n => Int64Fits n
  | arr items => IntsFitItems items
  | obj fields => IntsFitFields fields
  | _ => True

def IntsFitItems : List (Json F) → Prop
  | [] => True
  | j :: items => IntsFit j ∧ IntsFitItems items

def IntsFitFields : List (String × Json F) → Prop
  | [] => True
  | (_, j) :: fields => IntsFit j ∧ IntsFitFields fields

end

theorem mapItems_eq (f : F → F) (items : List (Json F)) : mapItems f items = items.map (mapFloat f) := by
  induction items with
  | nil => rfl
  | cons j items ih => rw [mapItems, ih, List.map_cons]

theorem mapFields_eq (f : F → F) (fields : List (String × Json F)) :
    mapFields f fields = fields.map fun e => (e.1, mapFloat f e.2) := by
  induction fields with
  | nil => rfl
  | cons e fields ih => rw [mapFields, ih, List.map_cons]

theorem mapFloat_arr (f : F → F) (items : List (Json F)) : (arr items).mapFloat f = arr (items.map (mapFloat f)) := by
  rw [mapFloat, mapItems_eq]

theorem mapFloat_obj (f : F → F) (fields : List (String × Json F)) :
    (obj fields).mapFloat f = obj (fields.map fun e => (e.1, mapFloat f e.2)) := by
  rw [mapFloat, mapFields_eq]

@[simp] theorem mapFloat_str (f : F → F) (s : String) : (str s).mapFloat f = str s := rfl

@[simp] theorem mapFloat_int (f : F → F) (n : ℤ) : (int n : Json F).mapFloat f = int n := rfl

theorem mapFloat_id (j : Json F) : j.mapFloat id = j := by
  induction j using induct with
  | null => rfl
  | bool => rfl
  | int => rfl
  | float => rfl
  | str => rfl
  | arr items ih =>
    rw [mapFloat_arr, List.map_congr_left ih, List.map_id'']
    exact fun _ => rfl
  | obj fields ih =>
    have hfields : ∀ e ∈ fields, (e.1, mapFloat id e.2) = e := fun e he => Prod.ext rfl (ih e he)
    rw [mapFloat_obj, List.map_congr_left hfields, List.map_id'']
    exact fun _ => rfl

theorem intsFitItems_iff {items : List (Json F)} : IntsFitItems items ↔ ∀ j ∈ items, IntsFit j := by
  induction items with
  | nil => simp [IntsFitItems]
  | cons j items ih => simp [IntsFitItems, ih]

theorem intsFitFields_iff {fields : List (String × Json F)} : IntsFitFields fields ↔ ∀ e ∈ fields, IntsFit e.2 := by
  induction fields with
  | nil => simp [IntsFitFields]
  | cons e fields ih => simp [IntsFitFields, ih]

theorem depthItems_le_iff {items : List (Json F)} {d : ℕ} : depthItems items ≤ d ↔ ∀ j ∈ items, depth j ≤ d := by
  induction items with
  | nil => simp [depthItems]
  | cons j items ih => rw [depthItems, Nat.max_le, ih, List.forall_mem_cons]

theorem depthFields_le_iff {fields : List (String × Json F)} {d : ℕ} :
    depthFields fields ≤ d ↔ ∀ e ∈ fields, depth e.2 ≤ d := by
  induction fields with
  | nil => simp [depthFields]
  | cons e fields ih => rw [depthFields, Nat.max_le, ih, List.forall_mem_cons]

theorem depth_obj_le_iff {fields : List (String × Json F)} {d : ℕ} :
    (obj fields).depth ≤ d + 1 ↔ ∀ e ∈ fields, e.2.depth ≤ d := by
  rw [depth, Nat.add_le_add_iff_right, depthFields_le_iff]

/-! ## Values as a library keeps them -/

/-- An insertion into a map that is kept sorted by key. -/
def insertField (k : String) (v : Json F) : List (String × Json F) → List (String × Json F)
  | [] => [(k, v)]
  | e :: fields =>
    if k < e.1 then (k, v) :: e :: fields
    else if k = e.1 then (k, v) :: fields
    else e :: insertField k v fields

mutual

/-- The tree with the fields of every object in a map sorted by key. -/
def normalize : Json F → Json F
  | arr items => arr (normalizeItems items)
  | obj fields => obj (normalizeFields [] fields)
  | j => j

def normalizeItems : List (Json F) → List (Json F)
  | [] => []
  | j :: items => normalize j :: normalizeItems items

def normalizeFields (acc : List (String × Json F)) : List (String × Json F) → List (String × Json F)
  | [] => acc
  | (k, j) :: fields => normalizeFields (insertField k (normalize j) acc) fields

end

instance (n : ℤ) : Decidable (Int64Fits n) := inferInstanceAs (Decidable (_ ∧ _))

mutual

/-- A tree whose integers fit 64 bits and whose objects are sorted by key. -/
def isValue : Json F → Bool
  | int n => decide (Int64Fits n)
  | arr items => isValueItems items
  | obj fields => decide ((fields.map (·.1)).Pairwise (· < ·)) && isValueFields fields
  | _ => true

def isValueItems : List (Json F) → Bool
  | [] => true
  | j :: items => isValue j && isValueItems items

def isValueFields : List (String × Json F) → Bool
  | [] => true
  | (_, j) :: fields => isValue j && isValueFields fields

end

theorem isValueItems_iff {items : List (Json F)} : isValueItems items ↔ ∀ j ∈ items, isValue j := by
  induction items with
  | nil => simp [isValueItems]
  | cons j items ih => simp [isValueItems, ih]

theorem isValueFields_iff {fields : List (String × Json F)} : isValueFields fields ↔ ∀ e ∈ fields, isValue e.2 := by
  induction fields with
  | nil => simp [isValueFields]
  | cons e fields ih => simp [isValueFields, ih]

theorem intsFit_of_isValue {j : Json F} (h : j.isValue) : j.IntsFit := by
  induction j using induct with
  | null => trivial
  | bool => trivial
  | int n => exact (of_decide_eq_true h : Int64Fits n)
  | float => trivial
  | str => trivial
  | arr items ih => exact intsFitItems_iff.2 fun j hj => ih j hj (isValueItems_iff.1 h j hj)
  | obj fields ih =>
    obtain ⟨-, hfields⟩ := Bool.and_eq_true_iff.1 h
    exact intsFitFields_iff.2 fun e he => ih e he (isValueFields_iff.1 hfields e he)

theorem isValue_mapFloat {f : F → F} {j : Json F} (h : j.isValue) : (j.mapFloat f).isValue := by
  induction j using induct with
  | null => trivial
  | bool => trivial
  | int n => exact h
  | float => trivial
  | str => trivial
  | arr items ih =>
    rw [mapFloat_arr]
    refine isValueItems_iff.2 fun j hj => ?_
    obtain ⟨j, hmem, rfl⟩ := List.mem_map.1 hj
    exact ih j hmem (isValueItems_iff.1 h j hmem)
  | obj fields ih =>
    obtain ⟨hsorted, hfields⟩ := Bool.and_eq_true_iff.1 h
    rw [mapFloat_obj]
    refine Bool.and_eq_true_iff.2 ⟨?_, isValueFields_iff.2 fun e he => ?_⟩
    · rw [List.map_map]
      exact hsorted
    · obtain ⟨e, hmem, rfl⟩ := List.mem_map.1 he
      exact ih e hmem (isValueFields_iff.1 hfields e hmem)

/-- A key above all others is inserted at the end. -/
theorem insertField_of_lt {k : String} {v : Json F} {fields : List (String × Json F)} (h : ∀ e ∈ fields, e.1 < k) :
    insertField k v fields = fields ++ [(k, v)] := by
  induction fields with
  | nil => rfl
  | cons e fields ih =>
    obtain ⟨he, hfields⟩ := List.forall_mem_cons.1 h
    have hne : k ≠ e.1 := by
      rintro rfl
      exact String.lt_irrefl _ he
    rw [insertField, if_neg (String.lt_asymm he), if_neg hne, ih hfields, List.cons_append]

/-- A value is as its library keeps it. -/
theorem normalize_of_isValue {j : Json F} (h : j.isValue) : j.normalize = j := by
  induction j using induct with
  | null => rfl
  | bool => rfl
  | int => rfl
  | float => rfl
  | str => rfl
  | arr items ih =>
    rw [normalize, arr.injEq]
    replace ih := fun j hj => ih j hj (isValueItems_iff.1 h j hj)
    clear h
    induction items with
    | nil => rfl
    | cons j items ihs =>
      obtain ⟨hj, hitems⟩ := List.forall_mem_cons.1 ih
      rw [normalizeItems, hj, ihs hitems]
  | obj fields ih =>
    obtain ⟨hsorted, hfields⟩ := Bool.and_eq_true_iff.1 h
    replace ih := fun e he => ih e he (isValueFields_iff.1 hfields e he)
    have hgo : ∀ acc : List (String × Json F), ((acc ++ fields).map (·.1)).Pairwise (· < ·) →
        normalizeFields acc fields = acc ++ fields := by
      clear h hsorted hfields
      induction fields with
      | nil => exact fun acc _ => (List.append_nil acc).symm
      | cons e fields ihs =>
        intro acc hacc
        obtain ⟨he, hrest⟩ := List.forall_mem_cons.1 ih
        have hlt : ∀ e' ∈ acc, e'.1 < e.1 := by
          rw [List.map_append, List.map_cons, List.pairwise_append] at hacc
          exact fun e' he' => hacc.2.2 _ (List.mem_map_of_mem he') _ List.mem_cons_self
        rw [normalizeFields, he, insertField_of_lt hlt, ihs hrest _ (by simpa using hacc), List.append_assoc]
        rfl
    rw [normalize, obj.injEq]
    exact hgo [] (of_decide_eq_true hsorted)

end Json

end Lib
