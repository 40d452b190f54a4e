/-
Values that conform to a type.

`Conforms` says what may stand for a type, one rule for each way: an integer of any kind in the range of an integer type,
an integer 0 or 1 for a boolean, a string for a path or a signature, an array of pairs for a dict. It counts no levels.
How deep values nest is a matter of their own: `Below` says how many levels down a value lies inside of another, and
`Within` bounds them. Both together are what may be written (`writable_iff`).
-/
import MessageBus.Proofs.Value.Typing

namespace MessageBus

/-! ## Scalars -/

/-- the numbers that a word of the kind can hold -/
def IntKind.Holds (kind : IntKind) (n : Int) : Prop :=
  if kind.isSigned then -2 ^ (kind.width - 1) ≤ n ∧ n < 2 ^ (kind.width - 1) else 0 ≤ n ∧ n < 2 ^ kind.width

theorem IntKind.exists_ofInt?_iff {kind : IntKind} {n : Int} :
    (∃ bits, kind.ofInt? n = some bits) ↔ kind.Holds n := by
  have hround : (∃ bits, kind.ofInt? n = some bits) ↔ kind.toInt (BitVec.ofInt kind.width n) = n := by
    by_cases h : kind.toInt (BitVec.ofInt kind.width n) = n <;> simp [ofInt?, h]
  rw [hround]
  cases kind <;>
    simp only [toInt, Holds, isSigned, width, size, BitVec.toInt_ofInt, BitVec.toNat_ofInt, Int.bmod, Bool.false_eq_true,
      if_true, if_false] <;>
    omega

/-- a scalar may stand for one of a type -/
def Scalar.StandsFor (value : Scalar) : Basic → Prop
  | .int kind => ∃ n, value.number? = some n ∧ kind.Holds n
  | .boolean => (∃ b, value = .boolean b) ∨ value.number? = some 0 ∨ value.number? = some 1
  | .double => ∃ bits, value = .double bits
  | .text .string => ∃ text, value = .text .string text ∧ text.contains '\x00' = false
  | .text .objectPath =>
    ∃ path, (value = .text .objectPath path ∨ value = .text .string path) ∧ NameKind.objectPath.accepts path = true
  | .text .signature =>
    ∃ text, (value = .text .signature text ∨ value = .text .string text) ∧ ∃ types, Ty.parse text = .ok types

theorem Basic.coerce?_text {kind : TextKind} {value result : Scalar} :
    (text kind).coerce? value = some result ↔
      ∃ content, (value = .text kind content ∨ value = .text .string content) ∧ result = .text kind content := by
  cases value with
  | text given content => simp only [coerce?, Scalar.text.injEq, Option.ite_none_right_eq_some, Option.some.injEq]; grind
  | _ => simp [coerce?]

theorem Scalar.standsFor_iff {value : Scalar} {type : Basic} :
    value.StandsFor type ↔ ∃ result, type.coerce? value = some result ∧ result.Valid := by
  cases type with
  | int kind =>
    cases hn : value.number? with
    | none => simp [StandsFor, Basic.coerce?, hn]
    | some n =>
      simp only [StandsFor, hn, Option.some.injEq, exists_eq_left', ← IntKind.exists_ofInt?_iff, Basic.coerce?,
        Option.bind_some, Option.map_eq_some_iff]
      constructor
      · rintro ⟨bits, hbits⟩
        exact ⟨.int kind bits, ⟨bits, hbits, rfl⟩, trivial⟩
      · rintro ⟨-, ⟨bits, hbits, -⟩, -⟩
        exact ⟨bits, hbits⟩
  | boolean =>
    cases value with
    | int kind bits =>
      by_cases hzero : kind.toInt bits = 0
      · simp [StandsFor, Basic.coerce?, number?, Valid, hzero]
      · by_cases hone : kind.toInt bits = 1 <;> simp [StandsFor, Basic.coerce?, number?, Valid, hzero, hone]
    | _ => simp [StandsFor, Basic.coerce?, number?, Valid]
  | double => cases value <;> simp [StandsFor, Basic.coerce?, Valid]
  | text kind =>
    cases kind <;> simp [StandsFor, Basic.coerce?_text, Valid, TextKind.Admits]

namespace Value

/-! ## Values inside of values -/

/-- the values directly inside of a value: the items of an array, the keys and values of a dict, the fields of a struct,
the content of a variant -/
def children : Value → List Value
  | scalar _ => []
  | array items => items
  | dict entries => entries.flatMap fun entry => [entry.1, entry.2]
  | struct fields => fields
  | variant _ value => [value]

/-- a value lies so many levels down inside of another -/
inductive Below : Value → Nat → Value → Prop where
  | self (value : Value) : Below value 0 value
  | inside {value child part : Value} {n : Nat} (hchild : child ∈ value.children) (h : Below child n part) :
      Below value (n + 1) part

/-- a value has fewer levels than this, its own included -/
def Within (levels : Nat) (value : Value) : Prop := ∀ n part, value.Below n part → n < levels

theorem not_within_zero (value : Value) : ¬value.Within 0 := fun h => absurd (h 0 value (.self value)) (by simp)

theorem within_succ {levels : Nat} {value : Value} :
    value.Within (levels + 1) ↔ ∀ child ∈ value.children, child.Within levels := by
  constructor
  · intro h child hchild n part hpart
    exact Nat.lt_of_succ_lt_succ (h (n + 1) part (.inside hchild hpart))
  · intro h n part hpart
    cases hpart with
    | self => exact Nat.succ_pos levels
    | inside hchild hpart => exact Nat.succ_lt_succ (h _ hchild _ _ hpart)

theorem forall_children_dict {P : Value → Prop} {entries : List (Value × Value)} :
    (∀ child ∈ (dict entries).children, P child) ↔ ∀ entry ∈ entries, P entry.1 ∧ P entry.2 := by
  simp [children, List.mem_flatMap]
  grind

/-! ## Conforming values -/

/-- a value may stand for a type, however deep it nests; a dict entry is met as the element of an array -/
inductive Conforms : Ty → Value → Prop where
  | scalar {type : Basic} {value : Scalar} (h : value.StandsFor type) : Conforms (.basic type) (.scalar value)
  /-- a variant carries a type that a signature can name, and a value that conforms to it -/
  | variant {type : Ty} {value : Value} (htype : ∃ types, Ty.parse type.text = .ok types) (h : Conforms type value) :
      Conforms .variant (.variant type value)
  | array {element : Ty} {items : List Value} (h : ∀ item ∈ items, Conforms element item) :
      Conforms (.array element) (.array items)
  | dict {key value : Ty} {entries : List (Value × Value)} (hkey : ∀ entry ∈ entries, Conforms key entry.1)
      (hvalue : ∀ entry ∈ entries, Conforms value entry.2) : Conforms (.array (.dictEntry key value)) (.dict entries)
  /-- an entry of a dict that is given as an array of pairs -/
  | pair {key value : Ty} {first second : Value} (hkey : Conforms key first) (hvalue : Conforms value second) :
      Conforms (.dictEntry key value) (.struct [first, second])
  | struct {types : List Ty} {fields : List Value} (hlen : types.length = fields.length)
      (h : ∀ field ∈ types.zip fields, Conforms field.1 field.2) : Conforms (.struct types) (.struct fields)

/-- a value for each type, wherever one that may be written conforms -/
theorem conforms_fields {levels : Nat} {types : List Ty} {values : List Value}
    (hone : ∀ {type value}, Writable levels type value → Conforms type value ∧ value.Within levels)
    (h : List.Forall₂ (Writable levels) types values) :
    (∀ field ∈ types.zip values, Conforms field.1 field.2) ∧ ∀ value ∈ values, value.Within levels := by
  induction h with
  | nil => simp
  | cons hv _ ih =>
    obtain ⟨hconforms, hdepth⟩ := hone hv
    exact ⟨List.forall_mem_cons.2 ⟨hconforms, ih.1⟩, List.forall_mem_cons.2 ⟨hdepth, ih.2⟩⟩

theorem Writable.conforms {levels : Nat} {type : Ty} {value : Value} (h : Writable levels type value) :
    Conforms type value ∧ value.Within levels := by
  induction levels generalizing type value with
  | zero => cases h
  | succ levels ih =>
    rw [within_succ]
    unfold Writable at h
    split at h
    · exact ⟨.scalar (Scalar.standsFor_iff.2 h), by simp [children]⟩
    · obtain ⟨hconforms, hdepth⟩ := ih h.2
      exact ⟨.variant ⟨_, h.1⟩ hconforms, List.forall_mem_singleton.2 hdepth⟩
    · refine ⟨.dict (fun e he => (ih (h e he).1).1) fun e he => (ih (h e he).2).1, forall_children_dict.2 fun e he => ?_⟩
      exact ⟨(ih (h e he).1).2, (ih (h e he).2).2⟩
    · exact ⟨.array fun item hitem => (ih (h item hitem)).1, fun item hitem => (ih (h item hitem)).2⟩
    · obtain ⟨hconforms, hdepth⟩ := conforms_fields ih h
      exact ⟨.struct h.length_eq hconforms, hdepth⟩
    · -- two types, so there are two fields
      obtain ⟨hconforms, hdepth⟩ := conforms_fields ih h
      obtain _ | ⟨-, _ | ⟨-, hnil⟩⟩ := h
      cases hnil
      exact ⟨.pair (hconforms _ List.mem_cons_self) (hconforms _ (List.mem_cons_of_mem _ List.mem_cons_self)), hdepth⟩
    · cases h

theorem Conforms.writable {levels : Nat} {type : Ty} {value : Value} (h : Conforms type value)
    (hdepth : value.Within levels) : Writable levels type value := by
  induction h generalizing levels with
  | scalar h =>
    obtain _ | levels := levels
    · exact (not_within_zero _ hdepth).elim
    · exact Scalar.standsFor_iff.1 h
  | variant htype _ ih =>
    obtain _ | levels := levels
    · exact (not_within_zero _ hdepth).elim
    · obtain ⟨types, htypes⟩ := htype
      exact ⟨Ty.eq_of_parse_text htypes ▸ htypes, ih (within_succ.1 hdepth _ (List.mem_singleton_self _))⟩
  | array _ ih =>
    obtain _ | levels := levels
    · exact (not_within_zero _ hdepth).elim
    · exact writable_array.2 fun item hitem => ih item hitem (within_succ.1 hdepth item hitem)
  | dict _ _ ihkey ihvalue =>
    obtain _ | levels := levels
    · exact (not_within_zero _ hdepth).elim
    · have hentries := forall_children_dict.1 (within_succ.1 hdepth)
      exact fun e he => ⟨ihkey e he (hentries e he).1, ihvalue e he (hentries e he).2⟩
  | pair _ _ ihkey ihvalue =>
    obtain _ | levels := levels
    · exact (not_within_zero _ hdepth).elim
    · have hfields := within_succ.1 hdepth
      exact .cons (ihkey (hfields _ List.mem_cons_self))
        (.cons (ihvalue (hfields _ (List.mem_cons_of_mem _ List.mem_cons_self))) .nil)
  | struct hlen _ ih =>
    obtain _ | levels := levels
    · exact (not_within_zero _ hdepth).elim
    · refine List.forall₂_iff_zip.2 ⟨hlen, fun {type field} hfield => ih _ hfield (within_succ.1 hdepth field ?_)⟩
      exact (List.of_mem_zip hfield).2

/-- **What may be written is what conforms and does not nest too deep.** -/
theorem writable_iff {levels : Nat} {type : Ty} {value : Value} :
    Writable levels type value ↔ Conforms type value ∧ value.Within levels :=
  ⟨Writable.conforms, fun h => h.1.writable h.2⟩

end Value

end MessageBus
