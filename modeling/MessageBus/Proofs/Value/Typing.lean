/-
Values of a type, and values that may be written as one.

`Exact` holds of a value whose parts are all of the kind that the type names. `Writable` is wider: an integer of any kind
may stand for an integer or a boolean, a string for a path or a signature, and an array of pairs for a dict. `normalize`
replaces whatever stands for something else by what it stands for, down to the values inside of variants, each by the
type that its variant carries. What may be written is exact once normalized (`Writable.exact_normalize`), and what is
exact is writable and normal already (`Exact.writable`, `Exact.normalize_eq`).

Both count how many levels of values there may be, a scalar being one.
-/
import Mathlib.Tactic
import MessageBus.Proofs.Name
import MessageBus.Proofs.Ty.Scan
import MessageBus.Value

namespace MessageBus

/-! ## Scalars -/

theorem IntKind.ofInt?_toInt (kind : IntKind) (bits : BitVec kind.width) : kind.ofInt? (kind.toInt bits) = some bits := by
  have h : BitVec.ofInt kind.width (kind.toInt bits) = bits := by
    cases hs : kind.isSigned
    · simp only [toInt, hs, Bool.false_eq_true, if_false, BitVec.ofInt_natCast, BitVec.ofNat_toNat, BitVec.setWidth_eq]
    · simp only [toInt, hs, if_true, BitVec.ofInt_toInt]
  simp [ofInt?, h]

/-- a text obeys the rules of its kind -/
def TextKind.Admits : TextKind → String → Prop
  | string, text => text.contains '\x00' = false
  | objectPath, text => NameKind.objectPath.accepts text = true
  | signature, text => ∃ types, Ty.parse text = .ok types

theorem TextKind.Admits.contains_nul {kind : TextKind} {text : String} (h : kind.Admits text) :
    text.contains '\x00' = false := by
  cases kind with
  | string => exact h
  | objectPath =>
    rw [String.contains_char_eq, decide_eq_false_iff_not]
    exact Name.nul_not_mem_of_accepts h
  | signature =>
    obtain ⟨types, ht⟩ := h
    rw [String.contains_char_eq, decide_eq_false_iff_not, ← Ty.textAll_eq_iff.1 (Ty.parse_sound ht).2.1]
    exact Ty.nul_not_mem_lettersAll types

namespace Scalar

def Valid : Scalar → Prop
  | text kind value => kind.Admits value
  | _ => True

end Scalar

namespace Basic

/-- the scalar of a type that some scalar stands for -/
def coerce? : Basic → Scalar → Option Scalar
  | int kind, value => (value.number?.bind kind.ofInt?).map (.int kind)
  | boolean, .boolean b => some (.boolean b)
  | boolean, value =>
    if value.number? = some 0 then some (.boolean false)
    else if value.number? = some 1 then some (.boolean true)
    else none
  | double, .double bits => some (.double bits)
  | text kind, .text given value => if given = kind ∨ given = .string then some (.text kind value) else none
  | _, _ => none

theorem coerce?_type (value : Scalar) : value.type.coerce? value = some value := by
  cases value with
  | int kind bits => simp [Scalar.type, coerce?, Scalar.number?, IntKind.ofInt?_toInt]
  | boolean b => rfl
  | double bits => rfl
  | text kind value => simp [Scalar.type, coerce?]

theorem type_of_coerce? {type : Basic} {value result : Scalar} (h : type.coerce? value = some result) :
    result.type = type := by
  unfold coerce? at h
  split at h
  · obtain ⟨_, _, rfl⟩ := Option.map_eq_some_iff.1 h
    rfl
  · cases h
    rfl
  · split_ifs at h <;> cases h <;> rfl
  · cases h
    rfl
  · split_ifs at h
    cases h
    rfl
  · cases h

end Basic

namespace Value

/-! ## Normal values -/

def pair? : Value → Option (Value × Value)
  | struct [first, second] => some (first, second)
  | _ => none

/-- an array of these elements, which is a dict when they are dict entries -/
def ofItems : Ty → List Value → Value
  | .dictEntry _ _, items => dict (items.filterMap pair?)
  | _, items => array items

mutual
/-- the value that is meant by a value written as some type -/
def normalize : Ty → Value → Value
  | .basic type, scalar value => scalar ((type.coerce? value).getD value)
  | .variant, variant type value => variant type (normalize type value)
  | .array (.dictEntry key value), dict entries => dict (normalizeEntries key value entries)
  | .array element, array items => ofItems element (normalizeEach element items)
  | .struct types, struct fields => struct (normalizeAll types fields)
  | .dictEntry key value, struct fields => struct (normalizeAll [key, value] fields)
  | _, value => value
/-- values of one type -/
def normalizeEach (type : Ty) : List Value → List Value
  | [] => []
  | value :: values => normalize type value :: normalizeEach type values
/-- a value for each type -/
def normalizeAll : List Ty → List Value → List Value
  | type :: types, value :: values => normalize type value :: normalizeAll types values
  | _, values => values
def normalizeEntries (key value : Ty) : List (Value × Value) → List (Value × Value)
  | [] => []
  | (k, v) :: entries => (normalize key k, normalize value v) :: normalizeEntries key value entries
end

theorem normalizeEach_eq_map (type : Ty) (values : List Value) :
    normalizeEach type values = values.map (normalize type) := by
  induction values with
  | nil => rfl
  | cons v vs ih => rw [normalizeEach, ih, List.map_cons]

theorem normalizeEntries_eq_map (key value : Ty) (entries : List (Value × Value)) :
    normalizeEntries key value entries = entries.map fun entry => (normalize key entry.1, normalize value entry.2) := by
  induction entries with
  | nil => rfl
  | cons e es ih => rw [normalizeEntries, ih, List.map_cons]

theorem length_normalizeAll (types : List Ty) (values : List Value) :
    (normalizeAll types values).length = values.length := by
  induction values generalizing types with
  | nil => cases types <;> rfl
  | cons v vs ih =>
    cases types with
    | nil => rfl
    | cons t ts => rw [normalizeAll, List.length_cons, ih, List.length_cons]

/-! ## Writable and exact values -/

/-- a value may be written as a type -/
def Writable : (levels : Nat) → Ty → Value → Prop
  | 0, _, _ => False
  | levels + 1, type, value =>
    match type, value with
    | .basic type, scalar value => ∃ result, type.coerce? value = some result ∧ result.Valid
    | .variant, variant type value => Ty.parse type.text = .ok [type] ∧ Writable levels type value
    | .array (.dictEntry key value), dict entries =>
      ∀ entry ∈ entries, Writable levels key entry.1 ∧ Writable levels value entry.2
    | .array element, array items => ∀ item ∈ items, Writable levels element item
    | .struct types, struct fields => List.Forall₂ (Writable levels) types fields
    | .dictEntry key value, struct fields => List.Forall₂ (Writable levels) [key, value] fields
    | _, _ => False

/-- a value is of a type, with nothing in it that only stands for something else -/
def Exact : (levels : Nat) → Ty → Value → Prop
  | 0, _, _ => False
  | levels + 1, type, value =>
    match type, value with
    | .basic type, scalar value => value.type = type ∧ value.Valid
    | .variant, variant type value => Ty.parse type.text = .ok [type] ∧ Exact levels type value
    | .array (.dictEntry key value), dict entries =>
      ∀ entry ∈ entries, Exact levels key entry.1 ∧ Exact levels value entry.2
    | .array (.dictEntry _ _), array _ => False
    | .array element, array items => ∀ item ∈ items, Exact levels element item
    | .struct types, struct fields => List.Forall₂ (Exact levels) types fields
    | _, _ => False

section Inversion

variable {levels : Nat} {v : Value}

attribute [local simp] Writable Exact

theorem writable_array {element : Ty} {items : List Value} :
    Writable (levels + 1) (.array element) (array items) ↔ ∀ item ∈ items, Writable levels element item := by
  cases element <;> simp

theorem exact_basic {type : Basic} :
    Exact (levels + 1) (.basic type) v ↔ ∃ s, v = scalar s ∧ s.type = type ∧ s.Valid := by
  cases v <;> simp

theorem exact_variant :
    Exact (levels + 1) .variant v ↔
      ∃ type u, v = variant type u ∧ Ty.parse type.text = .ok [type] ∧ Exact levels type u := by
  cases v <;> simp

theorem exact_array {element : Ty} (h : element.Shaped) :
    Exact (levels + 1) (.array element) v ↔ ∃ items, v = array items ∧ ∀ item ∈ items, Exact levels element item := by
  cases h <;> cases v <;> simp

theorem exact_dict {key value : Ty} :
    Exact (levels + 1) (.array (.dictEntry key value)) v ↔
      ∃ entries, v = dict entries ∧ ∀ entry ∈ entries, Exact levels key entry.1 ∧ Exact levels value entry.2 := by
  cases v <;> simp

theorem exact_struct {types : List Ty} :
    Exact (levels + 1) (.struct types) v ↔ ∃ fields, v = struct fields ∧ List.Forall₂ (Exact levels) types fields := by
  cases v <;> simp

end Inversion

theorem Writable.succ {levels : Nat} {type : Ty} {value : Value} (h : Writable levels type value) :
    Writable (levels + 1) type value := by
  induction levels generalizing type value with
  | zero => cases h
  | succ levels ih =>
    rw [Writable.eq_def] at h ⊢
    simp only at h ⊢
    split at h
    · exact h
    · exact ⟨h.1, ih h.2⟩
    · exact fun e he => ⟨ih (h e he).1, ih (h e he).2⟩
    · exact fun i hi => ih (h i hi)
    · exact h.imp fun _ _ => ih
    · exact h.imp fun _ _ => ih
    · cases h

theorem shaped_of_parse {type : Ty} (h : Ty.parse type.text = .ok [type]) : type.Shaped :=
  ((Ty.parse_sound h).2.2 type (List.mem_singleton_self _)).shaped

theorem normalize_array {element : Ty} (h : element.Shaped) (items : List Value) :
    normalize (.array element) (array items) = array (items.map (normalize element)) := by
  cases h <;> simp [normalize, ofItems, normalizeEach_eq_map]

/-- a value for each type, wherever normalizing one value makes it exact -/
theorem exact_normalizeAll {levels : Nat} {types : List Ty} {values : List Value} (hs : ∀ type ∈ types, type.Shaped)
    (hone : ∀ {type value}, type.Shaped → Writable levels type value → Exact levels type (normalize type value))
    (h : List.Forall₂ (Writable levels) types values) :
    List.Forall₂ (Exact levels) types (normalizeAll types values) := by
  induction h with
  | nil => exact .nil
  | cons hv _ ih =>
    exact .cons (hone (hs _ List.mem_cons_self) hv) (ih fun type ht => hs type (List.mem_cons_of_mem _ ht))

theorem normalizeAll_eq {levels : Nat} {types : List Ty} {values : List Value} (hs : ∀ type ∈ types, type.Shaped)
    (hone : ∀ {type value}, type.Shaped → Exact levels type value → normalize type value = value)
    (h : List.Forall₂ (Exact levels) types values) : normalizeAll types values = values := by
  induction h with
  | nil => rfl
  | cons hv _ ih =>
    rw [normalizeAll, hone (hs _ List.mem_cons_self) hv, ih fun type ht => hs type (List.mem_cons_of_mem _ ht)]

/-- an entry written as a pair has one level more than in a dict -/
theorem Writable.of_pair {levels : Nat} {key value : Ty} {item : Value}
    (h : Writable levels (.dictEntry key value) item) :
    ∃ k v, item = struct [k, v] ∧ Writable levels key k ∧ Writable levels value v := by
  cases levels with
  | zero => cases h
  | succ levels =>
    cases item with
    | struct fields =>
      obtain _ | ⟨hk, _ | ⟨hv, hnil⟩⟩ := h
      cases hnil
      exact ⟨_, _, rfl, hk.succ, hv.succ⟩
    | _ => cases h

theorem normalize_pairs {levels : Nat} {key value : Ty} {items : List Value}
    (h : ∀ item ∈ items, Writable levels (.dictEntry key value) item) :
    ∃ entries : List (Value × Value), items = entries.map (fun entry => struct [entry.1, entry.2]) ∧
      normalize (.array (.dictEntry key value)) (array items) = dict (normalizeEntries key value entries) := by
  induction items with
  | nil => exact ⟨[], rfl, rfl⟩
  | cons item items ih =>
    obtain ⟨k, v, rfl, -, -⟩ := (h item List.mem_cons_self).of_pair
    obtain ⟨entries, rfl, hn⟩ := ih fun i hi => h i (List.mem_cons_of_mem _ hi)
    refine ⟨(k, v) :: entries, rfl, ?_⟩
    simp only [normalize, ofItems, normalizeEach, normalizeEntries, dict.injEq] at hn ⊢
    simp [normalizeAll, pair?, hn]

/-- what may be written as a type is of that type once it is normalized -/
theorem Writable.exact_normalize {levels : Nat} {type : Ty} {value : Value} (hs : type.Shaped)
    (h : Writable levels type value) : Exact levels type (normalize type value) := by
  induction levels generalizing type value with
  | zero => cases h
  | succ levels ih =>
    cases hs with
    | basic type =>
      cases value with
      | scalar s =>
        obtain ⟨result, hr, hv⟩ := h
        rw [normalize, hr]
        exact ⟨Basic.type_of_coerce? hr, hv⟩
      | _ => cases h
    | variant =>
      cases value with
      | variant type v => exact ⟨h.1, ih (shaped_of_parse h.1) h.2⟩
      | _ => cases h
    | @array element hs =>
      cases value with
      | array items =>
        rw [normalize_array hs, exact_array hs]
        refine ⟨_, rfl, fun item hi => ?_⟩
        obtain ⟨i, him, rfl⟩ := List.mem_map.1 hi
        exact ih hs (writable_array.1 h i him)
      | _ => cases hs <;> cases h
    | @dict key value hs =>
      rename_i v
      have hentries (entries : List (Value × Value))
          (he : ∀ e ∈ entries, Writable levels (.basic key) e.1 ∧ Writable levels value e.2) :
          Exact (levels + 1) (.array (.dictEntry (.basic key) value))
            (dict (normalizeEntries (.basic key) value entries)) := by
        rw [exact_dict, normalizeEntries_eq_map]
        refine ⟨_, rfl, fun e hm => ?_⟩
        obtain ⟨e, hmem, rfl⟩ := List.mem_map.1 hm
        exact ⟨ih (.basic key) (he e hmem).1, ih hs (he e hmem).2⟩
      cases v with
      | dict entries => exact hentries entries h
      | array items =>
        obtain ⟨entries, rfl, hn⟩ := normalize_pairs h
        rw [hn]
        refine hentries entries fun e he => ?_
        obtain ⟨k, v, heq, hk, hv⟩ := (h _ (List.mem_map_of_mem he)).of_pair
        cases heq
        exact ⟨hk, hv⟩
      | _ => cases h
    | @struct types hne hs =>
      cases value with
      | struct fields => exact exact_normalizeAll hs ih h
      | _ => cases h

theorem Exact.writable {levels : Nat} {type : Ty} {value : Value} (h : Exact levels type value) :
    Writable levels type value := by
  induction levels generalizing type value with
  | zero => cases h
  | succ levels ih =>
    rw [Exact.eq_def] at h
    simp only at h
    split at h
    · exact ⟨_, h.1 ▸ Basic.coerce?_type _, h.2⟩
    · exact ⟨h.1, ih h.2⟩
    · exact fun e he => ⟨ih (h e he).1, ih (h e he).2⟩
    · cases h
    · exact writable_array.2 fun i hi => ih (h i hi)
    · exact h.imp fun _ _ => ih
    · cases h

theorem Exact.normalize_eq {levels : Nat} {type : Ty} {value : Value} (hs : type.Shaped)
    (h : Exact levels type value) : normalize type value = value := by
  induction levels generalizing type value with
  | zero => cases h
  | succ levels ih =>
    cases hs with
    | basic type =>
      obtain ⟨s, rfl, rfl, -⟩ := exact_basic.1 h
      rw [normalize, Basic.coerce?_type, Option.getD_some]
    | variant =>
      obtain ⟨type, v, rfl, hp, hv⟩ := exact_variant.1 h
      rw [normalize, ih (shaped_of_parse hp) hv]
    | array hs =>
      obtain ⟨items, rfl, hi⟩ := (exact_array hs).1 h
      rw [normalize_array hs, List.map_congr_left fun i hm => ih hs (hi i hm), List.map_id']
    | dict key hs =>
      obtain ⟨entries, rfl, he⟩ := exact_dict.1 h
      have hentry : ∀ e ∈ entries, (normalize (.basic key) e.1, normalize _ e.2) = e := fun e hm => by
        rw [ih (.basic key) (he e hm).1, ih hs (he e hm).2]
      rw [normalize, normalizeEntries_eq_map, List.map_congr_left hentry, List.map_id']
    | struct hne hs =>
      obtain ⟨fields, rfl, hf⟩ := exact_struct.1 h
      rw [normalize, normalizeAll_eq hs ih hf]

end Value

/-- a body whose values are what its types say they are -/
def Body.normalize (body : Body) : Body :=
  ⟨body.types, Value.normalizeAll body.types body.values, by rw [Value.length_normalizeAll, body.arity]⟩

end MessageBus
