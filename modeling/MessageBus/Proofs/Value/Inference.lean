/-
Types inferred from values.

A value that is put into a variant without a type is given the one that it has of itself, for which only the first item of an
array and the first entry of a dict are looked at. `OfKinds` says that a value is of the kinds that a type names, and
`LeadsToEmpty` that this search comes upon an array or a dict that is empty.

A value of the kinds of a type is given that type or none (`OfKinds.eq_of_inferType?`), and none just when the search meets
something empty (`inferType?_eq_none_iff`). Decoded values are of the kinds of the type that they were decoded with, so no
other type is ever inferred for them (`infer_decoded`).
-/
import Mathlib
import MessageBus.Proofs.Wire.Progress

namespace MessageBus.Value

/-! ## Values of the kinds that a type names -/

/-- a value is of the kind that the type names, and so is all inside of it: nothing stands for something else, and only a dict
for an array of dict entries; what scalars and variants hold is left open -/
inductive OfKinds : Ty → Value → Prop where
  | scalar (value : Scalar) : OfKinds (.basic value.type) (.scalar value)
  | variant (type : Ty) (value : Value) : OfKinds .variant (.variant type value)
  | array {element : Ty} {items : List Value} (hentry : ∀ key value, element ≠ .dictEntry key value)
      (h : ∀ item ∈ items, OfKinds element item) : OfKinds (.array element) (.array items)
  | dict {key value : Ty} {entries : List (Value × Value)} (hkey : ∀ entry ∈ entries, OfKinds key entry.1)
      (hvalue : ∀ entry ∈ entries, OfKinds value entry.2) : OfKinds (.array (.dictEntry key value)) (.dict entries)
  | struct {types : List Ty} {fields : List Value} (hlen : types.length = fields.length)
      (h : ∀ field ∈ types.zip fields, OfKinds field.1 field.2) : OfKinds (.struct types) (.struct fields)

/-- fields that are each given their type or none are given these types together, or none -/
theorem eq_of_inferTypes? {types inferred : List Ty} {fields : List Value} (hlen : types.length = fields.length)
    (hfield : ∀ field ∈ types.zip fields, ∀ type, field.2.inferType? = some type → type = field.1)
    (h : inferTypes? fields = some inferred) : inferred = types := by
  induction types generalizing fields inferred with
  | nil =>
    obtain rfl := List.eq_nil_of_length_eq_zero hlen.symm
    cases h
    rfl
  | cons type types ih =>
    obtain ⟨field, fields, rfl⟩ := List.exists_cons_of_length_eq_add_one hlen.symm
    obtain ⟨hfirst, hrest⟩ := List.forall_mem_cons.1 hfield
    obtain ⟨first, hinfer, h⟩ := Option.bind_eq_some_iff.1 h
    obtain ⟨rest, hinfers, heq⟩ := Option.bind_eq_some_iff.1 h
    cases heq
    rw [hfirst first hinfer, ih (Nat.succ.inj hlen) hrest hinfers]

/-- **No other type is inferred** for a value of the kinds of a type. -/
theorem OfKinds.eq_of_inferType? {type inferred : Ty} {value : Value} (h : OfKinds type value)
    (hinferred : value.inferType? = some inferred) : inferred = type := by
  induction h generalizing inferred with
  | scalar => exact (Option.some.inj hinferred).symm
  | variant => exact (Option.some.inj hinferred).symm
  | @array element items _ _ ih =>
    cases items with
    | nil => cases hinferred
    | cons item items =>
      obtain ⟨first, hfirst, heq⟩ := Option.bind_eq_some_iff.1 hinferred
      cases heq
      rw [ih item List.mem_cons_self hfirst]
  | @dict key value entries _ _ ihkey ihvalue =>
    cases entries with
    | nil => cases hinferred
    | cons entry entries =>
      obtain ⟨first, hfirst, hinferred⟩ := Option.bind_eq_some_iff.1 hinferred
      obtain ⟨second, hsecond, heq⟩ := Option.bind_eq_some_iff.1 hinferred
      cases heq
      rw [ihkey entry List.mem_cons_self hfirst, ihvalue entry List.mem_cons_self hsecond]
  | struct hlen _ ih =>
    obtain ⟨types, htypes, heq⟩ := Option.bind_eq_some_iff.1 hinferred
    cases heq
    rw [eq_of_inferTypes? hlen (fun field hfield _ => ih field hfield) htypes]

/-! ## Values that have no type of themselves -/

/-- the values inside of a value that its type is taken from: the first of an array, the key and value of the first entry of
a dict, all fields of a struct -/
def heads : Value → List Value
  | scalar _ | variant _ _ => []
  | array items => items.take 1
  | dict entries => (entries.take 1).flatMap fun entry => [entry.1, entry.2]
  | struct fields => fields

/-- from head to head an array or a dict is met that is empty -/
def LeadsToEmpty (value : Value) : Prop :=
  ∃ part, Relation.ReflTransGen (fun outer inner => inner ∈ outer.heads) value part ∧ (part = .array [] ∨ part = .dict [])

theorem leadsToEmpty_iff {value : Value} :
    value.LeadsToEmpty ↔ value = .array [] ∨ value = .dict [] ∨ ∃ head ∈ value.heads, head.LeadsToEmpty := by
  constructor
  · rintro ⟨part, hpath, hempty⟩
    obtain rfl | ⟨head, hhead, hpath⟩ := hpath.cases_head
    · exact hempty.imp id .inl
    · exact .inr (.inr ⟨head, hhead, part, hpath, hempty⟩)
  · rintro (h | h | ⟨head, hhead, part, hpath, hempty⟩)
    · exact ⟨value, .refl, .inl h⟩
    · exact ⟨value, .refl, .inr h⟩
    · exact ⟨part, hpath.head hhead, hempty⟩

section Parts

variable {α β γ : Type} {a : Option α} {b : Option β}

theorem one_part_eq_none_iff {f : α → γ} : (do return f (← a)) = none ↔ a = none := by
  cases a <;> simp

theorem two_parts_eq_none_iff {f : α → β → γ} : (do return f (← a) (← b)) = none ↔ a = none ∨ b = none := by
  cases a <;> cases b <;> simp

end Parts

mutual
/-- **A value has no type of itself** just when something empty is met where the type is taken from. -/
theorem inferType?_eq_none_iff (value : Value) : value.inferType? = none ↔ value.LeadsToEmpty := by
  rw [leadsToEmpty_iff]
  cases value with
  | scalar value => simp [inferType?, heads]
  | variant type value => simp [inferType?, heads]
  | array items =>
    cases items with
    | nil => simp [inferType?]
    | cons item items =>
      rw [inferType?, one_part_eq_none_iff, inferType?_eq_none_iff item]
      simp [heads]
  | dict entries =>
    cases entries with
    | nil => simp [inferType?]
    | cons entry entries =>
      rw [inferType?, two_parts_eq_none_iff, inferType?_eq_none_iff entry.1, inferType?_eq_none_iff entry.2]
      simp [heads]
  | struct fields =>
    rw [inferType?, one_part_eq_none_iff, inferTypes?_eq_none_iff fields]
    simp [heads]
theorem inferTypes?_eq_none_iff (values : List Value) :
    inferTypes? values = none ↔ ∃ value ∈ values, value.LeadsToEmpty := by
  cases values with
  | nil => simp [inferTypes?]
  | cons value values =>
    rw [inferTypes?, two_parts_eq_none_iff, inferType?_eq_none_iff value, inferTypes?_eq_none_iff values]
    simp
end

/-! ## Decoded values -/

open Wire

theorem ofKinds_fields {levels : Nat} {types : List Ty} {fields : List Value} (hs : ∀ type ∈ types, type.Shaped)
    (hone : ∀ {type value}, type.Shaped → Exact levels type value → OfKinds type value)
    (h : List.Forall₂ (Exact levels) types fields) : ∀ field ∈ types.zip fields, OfKinds field.1 field.2 := by
  induction h with
  | nil => simp
  | cons hvalue _ ih =>
    obtain ⟨hfirst, hrest⟩ := List.forall_mem_cons.1 hs
    exact List.forall_mem_cons.2 ⟨hone hfirst hvalue, ih hrest⟩

theorem Exact.ofKinds {levels : Nat} {type : Ty} {value : Value} (hs : type.Shaped) (h : Exact levels type value) :
    OfKinds type value := by
  induction levels generalizing type value with
  | zero => cases h
  | succ levels ih =>
    cases hs with
    | basic type =>
      obtain ⟨scalar, rfl, rfl, -⟩ := exact_basic.1 h
      exact .scalar scalar
    | variant =>
      obtain ⟨type, content, rfl, -⟩ := exact_variant.1 h
      exact .variant type content
    | @array element hs =>
      obtain ⟨items, rfl, hitems⟩ := (exact_array hs).1 h
      refine .array ?_ fun item hitem => ih hs (hitems item hitem)
      rintro key value rfl
      cases hs
    | dict key hs =>
      obtain ⟨entries, rfl, hentries⟩ := exact_dict.1 h
      exact .dict (fun entry hentry => ih (.basic key) (hentries entry hentry).1)
        fun entry hentry => ih hs (hentries entry hentry).2
    | struct _ hs =>
      obtain ⟨fields, rfl, hfields⟩ := exact_struct.1 h
      exact .struct hfields.length_eq (ofKinds_fields hs ih hfields)

theorem ofKinds_of_decode {levels : Nat} {type : Ty} {value : Value} {r last : Reader} (hs : type.Shaped)
    (hrun : (decodeWithin levels type).run r = (.ok value, last)) : OfKinds type value := by
  obtain ⟨_, _, _, ⟨hexact, -, -⟩, -⟩ := (decodeWithin_reads hs _ _ _ _ _).1 hrun
  exact hexact.ofKinds hs

theorem inferVariant_eq_ok_iff {value content : Value} {type : Ty} :
    value.inferVariant = .ok (type, content) ↔ value.inferType? = some type ∧ content = value := by
  unfold inferVariant
  cases value.inferType? <;> simp [eq_comm]

/-- **The type inferred for a value is the one that it has.** A value of the kinds that a type names is given just this type,
or none, and none just when an empty array or dict is met on the way through struct fields, first items and first entries, but
not into variants; it is put into a variant without naming the type just when it is given one. So a value that was decoded as
a type, at any depth and from any bytes, is put into a variant of this type whenever it can be put into one. -/
theorem infer_decoded {text : String} {type : Ty} (htype : Ty.parseSingle text = .ok type) :
    (∀ value, OfKinds type value → (value.inferType? = some type ∨ value.inferType? = none) ∧
      (value.inferType? = none ↔ value.LeadsToEmpty) ∧
      ∀ given content, value.inferVariant = .ok (given, content) ↔ value.inferType? = some given ∧ content = value) ∧
    ∀ levels r value last, (decodeWithin levels type).run r = (.ok value, last) → OfKinds type value ∧
      ∀ given content, value.inferVariant = .ok (given, content) → given = type ∧ content = value := by
  constructor
  · intro value h
    refine ⟨?_, inferType?_eq_none_iff value, fun _ _ => inferVariant_eq_ok_iff⟩
    cases hinfer : value.inferType? with
    | none => exact .inr rfl
    | some inferred => exact .inl (congrArg some (h.eq_of_inferType? hinfer))
  · intro levels r value last hrun
    have hkinds : OfKinds type value := ofKinds_of_decode (shaped_of_parseSingle htype) hrun
    refine ⟨hkinds, fun given content hgiven => ?_⟩
    obtain ⟨hinfer, hcontent⟩ := inferVariant_eq_ok_iff.1 hgiven
    exact ⟨hkinds.eq_of_inferType? hinfer, hcontent⟩

/-- a dict with a variant in it is read behind a byte, and its type is found again; with an array in front that has a first
item, but an empty one, none is found -/
theorem infer_decoded_pairs :
    let type : Ty := .struct [.basic (.int .byte), .array (.dictEntry (.basic (.int .byte)) .variant)]
    let r : Reader := ⟨.little, 0, [9, 0, 0, 0, 5, 0, 0, 0, 7, 1, 121, 0, 3]⟩
    let value : Value := .struct [.byte 9, .dict [(.byte 7, .variant (.basic (.int .byte)) (.byte 3))]]
    let hollow : Value := .array [.array [], .array [.byte 1]]
    Ty.parseSingle "(ya\x7byv\x7d)" = .ok type ∧ Ty.parseSingle "aay" = .ok (.array (.array (.basic (.int .byte)))) ∧
      (decodeWithin (maxDepth + 1) type).run r = (.ok value, ⟨.little, 13, []⟩) ∧ OfKinds type value ∧
      value.inferType? = some type ∧ ¬value.LeadsToEmpty ∧
      (∀ given content, value.inferVariant = .ok (given, content) → given = type ∧ content = value) ∧
      value.inferVariant = .ok (type, value) ∧
      OfKinds (.array (.array (.basic (.int .byte)))) hollow ∧ hollow.LeadsToEmpty ∧
      ∀ given content, hollow.inferVariant ≠ .ok (given, content) := by
  intro type r value hollow
  have htype : Ty.parseSingle "(ya\x7byv\x7d)" = .ok type := by cbv
  have hrun : (decodeWithin (maxDepth + 1) type).run r = (.ok value, ⟨.little, 13, []⟩) := by cbv
  have hinfer : value.inferType? = some type := by cbv
  obtain ⟨hconforming, hdecoded⟩ := infer_decoded htype
  obtain ⟨hkinds, hgiven⟩ := hdecoded _ r value _ hrun
  have hfull : ¬value.LeadsToEmpty := by
    rw [← (hconforming value hkinds).2.1, hinfer]
    exact Option.some_ne_none type
  have hrows : Ty.parseSingle "aay" = .ok (.array (.array (.basic (.int .byte)))) := by cbv
  have hbytes (items : List (BitVec 8)) : OfKinds (.array (.basic (.int .byte))) (.array (items.map .byte)) :=
    .array (fun _ _ => by simp) fun item hitem => by
      obtain ⟨n, -, rfl⟩ := List.mem_map.1 hitem
      exact .scalar (.int .byte n)
  have hhollow : OfKinds (.array (.array (.basic (.int .byte)))) hollow := by
    refine .array (fun _ _ => by simp) ?_
    rw [List.forall_mem_cons, List.forall_mem_singleton]
    exact ⟨hbytes [], hbytes [1]⟩
  obtain ⟨-, hempty, hput⟩ := (infer_decoded hrows).1 hollow hhollow
  refine ⟨htype, hrows, hrun, hkinds, hinfer, hfull, hgiven, ((hconforming value hkinds).2.2 type value).2 ⟨hinfer, rfl⟩,
    hhollow, hempty.1 rfl, fun given content hok => ?_⟩
  cases ((hput given content).1 hok).1

end MessageBus.Value
