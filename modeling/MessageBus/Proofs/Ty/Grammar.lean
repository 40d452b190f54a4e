/-
The grammar of signatures.

`WellFormed` says which trees are types of the protocol: every struct has a field, a dict entry is the element of an
array and has a basic key, and on no way from the root to a leaf are there more than 32 arrays, nor more than 32 structs
and dict entries together. `Fits` is the same for a type that stands inside of open containers, which is what a scan
from left to right can know.

The text of a type is a prefix code, for ill-formed trees as well: `letters_append_inj` reads a tree back from any text
that starts with its letters, so that `textAll_injective` tells any two lists of trees apart by their texts.
-/
import Mathlib.Tactic
import MessageBus.Ty.Parser

namespace MessageBus.Ty

/-! ## Well-formed types -/

/-- every struct has a field, and a dict entry is the element of an array and has a basic key -/
inductive Shaped : Ty → Prop where
  | basic (type : Basic) : Shaped (basic type)
  | variant : Shaped variant
  | array {element : Ty} (h : Shaped element) : Shaped (array element)
  | dict (key : Basic) {value : Ty} (h : Shaped value) : Shaped (array (dictEntry (basic key) value))
  | struct {fields : List Ty} (hne : fields ≠ []) (h : ∀ field ∈ fields, Shaped field) : Shaped (struct fields)

/-- the nodes on a way from the root of a type to one of its leaves -/
inductive Path : Ty → List Ty → Prop where
  | leaf {type : Ty} (h : type.children = []) : Path type [type]
  | step {type child : Ty} {path : List Ty} (h : child ∈ type.children) (hp : Path child path) :
    Path type (type :: path)

def isArray : Ty → Bool
  | array _ => true
  | _ => false

/-- structs and dict entries, which are counted together -/
def isStruct : Ty → Bool
  | struct _ | dictEntry _ _ => true
  | _ => false

/-- the types that a signature can name -/
structure WellFormed (type : Ty) : Prop where
  shaped : type.Shaped
  arrays : ∀ path, type.Path path → path.countP isArray ≤ maxArrayDepth
  structs : ∀ path, type.Path path → path.countP isStruct ≤ maxStructDepth

/-- below `depth` open containers of some sort, a type opens at most as many more as are left of `limit` -/
def Nests (sort : Ty → Bool) (limit depth : Nat) (type : Ty) : Prop :=
  ∀ path, type.Path path → depth + path.countP sort ≤ limit

/-- a type that may stand inside of so many arrays and so many structs and dict entries -/
structure Fits (arrays structs : Nat) (type : Ty) : Prop where
  shaped : type.Shaped
  arrays : type.Nests isArray maxArrayDepth arrays
  structs : type.Nests isStruct maxStructDepth structs

theorem wellFormed_iff_fits (type : Ty) : type.WellFormed ↔ type.Fits 0 0 := by
  constructor
  · intro h
    exact ⟨h.shaped, fun p hp => by simpa using h.arrays p hp, fun p hp => by simpa using h.structs p hp⟩
  · intro h
    exact ⟨h.shaped, fun p hp => by simpa using h.arrays p hp, fun p hp => by simpa using h.structs p hp⟩

theorem nests_leaf {sort : Ty → Bool} {limit depth : Nat} {type : Ty} (h : type.children = []) :
    type.Nests sort limit depth ↔ depth + (sort type).toNat ≤ limit := by
  have hcount : [type].countP sort = (sort type).toNat := by cases hs : sort type <;> simp [hs]
  constructor
  · intro hn
    exact hcount ▸ hn [type] (.leaf h)
  · intro hd p hp
    cases hp with
    | leaf => rwa [hcount]
    | step hc => simp [h] at hc

theorem nests_node {sort : Ty → Bool} {limit depth : Nat} {type child : Ty} (h : child ∈ type.children) :
    type.Nests sort limit depth ↔ ∀ c ∈ type.children, c.Nests sort limit (depth + (sort type).toNat) := by
  have hcount (q : List Ty) : depth + (type :: q).countP sort = depth + (sort type).toNat + q.countP sort := by
    cases hs : sort type
    · simp [hs]
    · simp only [List.countP_cons, hs, if_true, Bool.toNat_true]
      omega
  constructor
  · intro hn c hc q hq
    exact hcount q ▸ hn _ (.step hc hq)
  · intro hn p hp
    cases hp with
    | leaf hl => simp [hl] at h
    | step hc hq => exact hcount _ ▸ hn _ hc _ hq

theorem nests_array {sort : Ty → Bool} {limit depth : Nat} {element : Ty} :
    (array element).Nests sort limit depth ↔ element.Nests sort limit (depth + (sort (array element)).toNat) := by
  have h : element ∈ (array element).children := List.mem_singleton_self _
  simp [nests_node h, children]

theorem nests_dictEntry {sort : Ty → Bool} {limit depth : Nat} {key value : Ty} :
    (dictEntry key value).Nests sort limit depth ↔
      key.Nests sort limit (depth + (sort (dictEntry key value)).toNat) ∧
        value.Nests sort limit (depth + (sort (dictEntry key value)).toNat) := by
  have h : key ∈ (dictEntry key value).children := List.mem_cons_self
  simp [nests_node h, children]

theorem nests_struct {sort : Ty → Bool} {limit depth : Nat} {fields : List Ty} (hne : fields ≠ []) :
    (struct fields).Nests sort limit depth ↔
      ∀ field ∈ fields, field.Nests sort limit (depth + (sort (struct fields)).toNat) := by
  obtain ⟨f, fs, rfl⟩ := List.exists_cons_of_ne_nil hne
  have h : f ∈ (struct (f :: fs)).children := List.mem_cons_self
  exact nests_node h

theorem exists_path {type : Ty} (h : type.Shaped) : ∃ path, type.Path path := by
  induction h with
  | basic => exact ⟨_, .leaf rfl⟩
  | variant => exact ⟨_, .leaf rfl⟩
  | array _ ih =>
    obtain ⟨p, hp⟩ := ih
    exact ⟨_, .step (List.mem_singleton_self _) hp⟩
  | @dict key value _ ih =>
    obtain ⟨p, hp⟩ := ih
    have hv : value ∈ (dictEntry (basic key) value).children := List.mem_cons_of_mem _ List.mem_cons_self
    exact ⟨_, .step (List.mem_singleton_self _) (.step hv hp)⟩
  | struct hne _ ih =>
    obtain ⟨f, fs, rfl⟩ := List.exists_cons_of_ne_nil hne
    obtain ⟨p, hp⟩ := ih f List.mem_cons_self
    have hf : f ∈ (struct (f :: fs)).children := List.mem_cons_self
    exact ⟨_, .step hf hp⟩

theorem Nests.depth_le {sort : Ty → Bool} {limit depth : Nat} {type : Ty} (h : type.Nests sort limit depth)
    (hs : type.Shaped) : depth ≤ limit := by
  obtain ⟨p, hp⟩ := exists_path hs
  exact le_trans (Nat.le_add_right _ _) (h p hp)

/-! ## What fits inside of what -/

theorem fits_basic {arrays structs : Nat} {type : Basic} :
    (basic type).Fits arrays structs ↔ arrays ≤ maxArrayDepth ∧ structs ≤ maxStructDepth := by
  constructor
  · intro h
    exact ⟨h.arrays.depth_le h.shaped, h.structs.depth_le h.shaped⟩
  · intro h
    rcases h with ⟨ha, hn⟩
    exact ⟨.basic type, (nests_leaf rfl).2 ha, (nests_leaf rfl).2 hn⟩

theorem fits_variant {arrays structs : Nat} :
    variant.Fits arrays structs ↔ arrays ≤ maxArrayDepth ∧ structs ≤ maxStructDepth := by
  constructor
  · intro h
    exact ⟨h.arrays.depth_le h.shaped, h.structs.depth_le h.shaped⟩
  · intro h
    rcases h with ⟨ha, hn⟩
    exact ⟨.variant, (nests_leaf rfl).2 ha, (nests_leaf rfl).2 hn⟩

theorem fits_array {arrays structs : Nat} {element : Ty} (hs : element.Shaped) :
    (array element).Fits arrays structs ↔ element.Fits (arrays + 1) structs := by
  constructor
  · intro h
    exact ⟨hs, nests_array.1 h.arrays, nests_array.1 h.structs⟩
  · intro h
    exact ⟨.array hs, nests_array.2 h.arrays, nests_array.2 h.structs⟩

theorem fits_dict {arrays structs : Nat} {key : Basic} {value : Ty} :
    (array (dictEntry (basic key) value)).Fits arrays structs ↔ value.Fits (arrays + 1) (structs + 1) := by
  constructor
  · intro h
    have hv : value.Shaped := by
      cases h.shaped with
      | array hs => cases hs
      | dict _ hv => exact hv
    exact ⟨hv, (nests_dictEntry.1 (nests_array.1 h.arrays)).2, (nests_dictEntry.1 (nests_array.1 h.structs)).2⟩
  · intro h
    have ha := h.arrays.depth_le h.shaped
    have hn := h.structs.depth_le h.shaped
    exact ⟨.dict key h.shaped, nests_array.2 (nests_dictEntry.2 ⟨(nests_leaf rfl).2 ha, h.arrays⟩),
      nests_array.2 (nests_dictEntry.2 ⟨(nests_leaf rfl).2 hn, h.structs⟩)⟩

theorem fits_struct {arrays structs : Nat} {fields : List Ty} :
    (struct fields).Fits arrays structs ↔ fields ≠ [] ∧ ∀ field ∈ fields, field.Fits arrays (structs + 1) := by
  constructor
  · intro h
    cases h.shaped with
    | struct hne hs =>
      exact ⟨hne, fun f hf => ⟨hs f hf, (nests_struct hne).1 h.arrays f hf, (nests_struct hne).1 h.structs f hf⟩⟩
  · intro h
    rcases h with ⟨hne, h⟩
    exact ⟨.struct hne fun f hf => (h f hf).shaped, (nests_struct hne).2 fun f hf => (h f hf).arrays,
      (nests_struct hne).2 fun f hf => (h f hf).structs⟩

/-! ## Types by their letters -/

theorem code_basic_inj {a b : Basic} (h : a.code = b.code) : a = b := by
  have := congrArg Basic.ofCode? h
  simpa [Basic.ofCode?_code] using this

theorem code_basic_ne (type : Basic) {c : Char} (h : Basic.ofCode? c = none) : type.code ≠ c := by
  rintro rfl
  simp [Basic.ofCode?_code] at h

theorem code_ne_close (type : Ty) : type.code ≠ ')' ∧ type.code ≠ '\x7d' := by
  cases type with
  | basic type => exact ⟨code_basic_ne type rfl, code_basic_ne type rfl⟩
  | _ => constructor <;> simp [code]

theorem letters_eq_cons (type : Ty) : ∃ tail, type.letters = type.code :: tail := by
  cases type <;> exact ⟨_, rfl⟩

/-- only types that start with the same letter can have a text in common -/
theorem code_eq_of_letters {t u : Ty} {r s : List Char} (h : t.letters ++ r = u.letters ++ s) : t.code = u.code := by
  obtain ⟨x, hx⟩ := letters_eq_cons t
  obtain ⟨y, hy⟩ := letters_eq_cons u
  rw [hx, hy] at h
  exact (List.cons.inj h).1

theorem letters_ne_close {t : Ty} {r s : List Char} : t.letters ++ r ≠ ')' :: s := by
  obtain ⟨x, hx⟩ := letters_eq_cons t
  intro h
  rw [hx] at h
  exact (code_ne_close t).1 (List.cons.inj h).1

mutual
/-- **The letters of types are a prefix code**: what starts with the letters of a type starts with those of no other,
be the trees well formed or not. -/
theorem letters_append_inj (t u : Ty) (r s : List Char) (h : t.letters ++ r = u.letters ++ s) : t = u ∧ r = s := by
  have hc := code_eq_of_letters h
  cases t with
  | basic a =>
    cases u with
    | basic b =>
      obtain ⟨hab, hrs⟩ := List.cons.inj h
      exact ⟨congrArg basic (code_basic_inj hab), hrs⟩
    | _ => exact absurd hc (code_basic_ne a rfl)
  | variant =>
    cases u with
    | basic b => exact absurd hc.symm (code_basic_ne b rfl)
    | variant => exact ⟨rfl, (List.cons.inj h).2⟩
    | _ => simp [code] at hc
  | array e =>
    cases u with
    | basic b => exact absurd hc.symm (code_basic_ne b rfl)
    | array e' =>
      obtain ⟨rfl, hrs⟩ := letters_append_inj e e' r s (List.cons.inj h).2
      exact ⟨rfl, hrs⟩
    | _ => simp [code] at hc
  | struct fs =>
    cases u with
    | basic b => exact absurd hc.symm (code_basic_ne b rfl)
    | struct fs' =>
      have hfs : lettersAll fs ++ ')' :: r = lettersAll fs' ++ ')' :: s := by simpa [letters] using h
      obtain ⟨rfl, hrs⟩ := lettersAll_close_inj fs fs' r s hfs
      exact ⟨rfl, hrs⟩
    | _ => simp [code] at hc
  | dictEntry k v =>
    cases u with
    | basic b => exact absurd hc.symm (code_basic_ne b rfl)
    | dictEntry k' v' =>
      have hkv : k.letters ++ (v.letters ++ '\x7d' :: r) = k'.letters ++ (v'.letters ++ '\x7d' :: s) := by
        simpa [letters] using h
      obtain ⟨rfl, hv⟩ := letters_append_inj k k' _ _ hkv
      obtain ⟨rfl, hrs⟩ := letters_append_inj v v' _ _ hv
      exact ⟨rfl, (List.cons.inj hrs).2⟩
    | _ => simp [code] at hc
theorem lettersAll_close_inj (ts us : List Ty) (r s : List Char)
    (h : lettersAll ts ++ ')' :: r = lettersAll us ++ ')' :: s) : ts = us ∧ r = s := by
  cases ts with
  | nil =>
    cases us with
    | nil => exact ⟨rfl, (List.cons.inj h).2⟩
    | cons u us =>
      simp only [lettersAll, List.append_assoc] at h
      exact absurd h.symm letters_ne_close
  | cons t ts =>
    cases us with
    | nil =>
      simp only [lettersAll, List.append_assoc] at h
      exact absurd h letters_ne_close
    | cons u us =>
      simp only [lettersAll, List.append_assoc] at h
      obtain ⟨rfl, htail⟩ := letters_append_inj t u _ _ h
      obtain ⟨rfl, hrs⟩ := lettersAll_close_inj ts us r s htail
      exact ⟨rfl, hrs⟩
end

theorem lettersAll_inj {ts us : List Ty} (h : lettersAll ts = lettersAll us) : ts = us :=
  (lettersAll_close_inj ts us [] [] (by rw [h])).1

/-- two lists of types of one text are the same -/
theorem textAll_injective : Function.Injective textAll := by
  intro ts us h
  have := congrArg String.toList h
  exact lettersAll_inj (by simpa [textAll] using this)

theorem textAll_eq_iff {types : List Ty} {text : String} : textAll types = text ↔ lettersAll types = text.toList := by
  constructor
  · rintro rfl
    simp [textAll]
  · intro h
    rw [textAll, h, String.ofList_toList]

theorem lettersAll_append (ts us : List Ty) : lettersAll (ts ++ us) = lettersAll ts ++ lettersAll us := by
  induction ts with
  | nil => rfl
  | cons t ts ih => simp [lettersAll, ih]

theorem textAll_singleton (type : Ty) : textAll [type] = type.text := by
  simp [textAll, text, lettersAll]

mutual
theorem nul_not_mem_letters (type : Ty) : '\x00' ∉ type.letters := by
  cases type with
  | basic type => simpa [letters] using (code_basic_ne type rfl).symm
  | variant => simp [letters]
  | array e => simpa [letters] using nul_not_mem_letters e
  | struct fs => simpa [letters] using nul_not_mem_lettersAll fs
  | dictEntry k v => simpa [letters] using ⟨nul_not_mem_letters k, nul_not_mem_letters v⟩
theorem nul_not_mem_lettersAll (types : List Ty) : '\x00' ∉ lettersAll types := by
  cases types with
  | nil => simp [lettersAll]
  | cons t ts => simpa [lettersAll] using ⟨nul_not_mem_letters t, nul_not_mem_lettersAll ts⟩
end

end MessageBus.Ty
