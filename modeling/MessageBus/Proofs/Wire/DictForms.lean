/-
The two forms of a dict.

A dict may be held as a dict or as an array of pairs. `Unrolls` relates two values of a type of which the second has pairs
where the first has dicts, wherever these are. Both conform to the same types and normalize to the same value, so that both
are written as the same bytes (`encodeAll_unrolled`), except that pairs are structs: what they hold lies one level further
down than in the dict, and is refused there when that is a level too many.
-/
import Mathlib
import MessageBus.Proofs.Value.Conforming
import MessageBus.Proofs.Wire.Encode

namespace MessageBus

namespace Value

/-- two values of a type that are the same but for dicts of the first, which the second holds as arrays of pairs -/
inductive Unrolls : Ty → Value → Value → Prop where
  | pairs {key value : Ty} (entries : List (Value × Value)) :
      Unrolls (.array (.dictEntry key value)) (.dict entries) (.array (entries.map fun entry => .struct [entry.1, entry.2]))
  | trans {type : Ty} {a b c : Value} (h : Unrolls type a b) (h' : Unrolls type b c) : Unrolls type a c
  | variant {type : Ty} {a b : Value} (h : Unrolls type a b) : Unrolls .variant (.variant type a) (.variant type b)
  | item {element : Ty} {a b : Value} (before after : List Value) (h : Unrolls element a b) :
      Unrolls (.array element) (.array (before ++ a :: after)) (.array (before ++ b :: after))
  | field {type : Ty} {a b : Value} (before after : List Ty) (front back : List Value)
      (hlen : before.length = front.length) (h : Unrolls type a b) :
      Unrolls (.struct (before ++ type :: after)) (.struct (front ++ a :: back)) (.struct (front ++ b :: back))
  | key {key value : Ty} {a b : Value} (before after : List (Value × Value)) (v : Value) (h : Unrolls key a b) :
      Unrolls (.array (.dictEntry key value)) (.dict (before ++ (a, v) :: after)) (.dict (before ++ (b, v) :: after))
  | value {key value : Ty} {a b : Value} (before after : List (Value × Value)) (k : Value) (h : Unrolls value a b) :
      Unrolls (.array (.dictEntry key value)) (.dict (before ++ (k, a) :: after)) (.dict (before ++ (k, b) :: after))
  /-- the key of a pair -/
  | first {key value : Ty} {a b : Value} (v : Value) (h : Unrolls key a b) :
      Unrolls (.dictEntry key value) (.struct [a, v]) (.struct [b, v])
  /-- the value of a pair -/
  | second {key value : Ty} {a b : Value} (k : Value) (h : Unrolls value a b) :
      Unrolls (.dictEntry key value) (.struct [k, a]) (.struct [k, b])

/-! ## Conforming -/

theorem conforms_variant {type : Ty} {v : Value} :
    Conforms .variant (.variant type v) ↔ (∃ types, Ty.parse type.text = .ok types) ∧ Conforms type v := by
  constructor
  · intro h
    rcases h with _ | ⟨htype, h⟩
    exact ⟨htype, h⟩
  · intro h
    exact .variant h.1 h.2

theorem conforms_array {element : Ty} {items : List Value} :
    Conforms (.array element) (.array items) ↔ ∀ item ∈ items, Conforms element item := by
  constructor
  · intro h
    cases h with
    | array h => exact h
  · exact .array

theorem conforms_dict {key value : Ty} {entries : List (Value × Value)} :
    Conforms (.array (.dictEntry key value)) (.dict entries) ↔
      ∀ entry ∈ entries, Conforms key entry.1 ∧ Conforms value entry.2 := by
  constructor
  · intro h
    cases h with
    | dict hkey hvalue => exact fun entry hentry => ⟨hkey entry hentry, hvalue entry hentry⟩
  · intro h
    exact .dict (fun entry hentry => (h entry hentry).1) fun entry hentry => (h entry hentry).2

theorem conforms_pair {key value : Ty} {first second : Value} :
    Conforms (.dictEntry key value) (.struct [first, second]) ↔ Conforms key first ∧ Conforms value second := by
  constructor
  · intro h
    cases h with
    | pair hkey hvalue => exact ⟨hkey, hvalue⟩
  · intro h
    exact .pair h.1 h.2

theorem conforms_struct {types : List Ty} {fields : List Value} :
    Conforms (.struct types) (.struct fields) ↔
      types.length = fields.length ∧ ∀ field ∈ types.zip fields, Conforms field.1 field.2 := by
  constructor
  · intro h
    cases h with
    | struct hlen h => exact ⟨hlen, h⟩
  · intro h
    exact .struct h.1 h.2

/-- pairs conform to a type just when the dict does -/
theorem Unrolls.conforms_iff {type : Ty} {a b : Value} (h : Unrolls type a b) : Conforms type b ↔ Conforms type a := by
  induction h with
  | pairs entries => simp only [conforms_array, conforms_dict, List.forall_mem_map, conforms_pair]
  | trans _ _ ih ih' => rw [ih', ih]
  | variant _ ih => rw [conforms_variant, conforms_variant, ih]
  | item before after _ ih => simp only [conforms_array, List.forall_mem_append, List.forall_mem_cons, ih]
  | field _ _ _ _ hlen _ ih =>
    simp only [conforms_struct, List.zip_append hlen, List.zip_cons_cons, List.forall_mem_append, List.forall_mem_cons,
      List.length_append, List.length_cons, ih]
  | key before after v _ ih => simp only [conforms_dict, List.forall_mem_append, List.forall_mem_cons, ih]
  | value before after k _ ih => simp only [conforms_dict, List.forall_mem_append, List.forall_mem_cons, ih]
  | first v _ ih => rw [conforms_pair, conforms_pair, ih]
  | second k _ ih => rw [conforms_pair, conforms_pair, ih]

/-! ## Depth -/

theorem Within.mono {levels more : Nat} {v : Value} (h : v.Within levels) (hle : levels ≤ more) : v.Within more :=
  fun n part hpart => lt_of_lt_of_le (h n part hpart) hle

/-- a value with another child in the place of one that does not nest less deep -/
theorem within_of_child {v w a b : Value} (before after : List Value) (hv : v.children = before ++ a :: after)
    (hw : w.children = before ++ b :: after) (h : ∀ {levels : Nat}, b.Within levels → a.Within levels) {levels : Nat}
    (hwithin : w.Within levels) : v.Within levels := by
  obtain _ | levels := levels
  · exact absurd hwithin (not_within_zero w)
  · rw [within_succ, hw, List.forall_mem_append, List.forall_mem_cons] at hwithin
    rw [within_succ, hv, List.forall_mem_append, List.forall_mem_cons]
    exact ⟨hwithin.1, h hwithin.2.1, hwithin.2.2⟩

/-- pairs do not nest less deep than the dict -/
theorem Unrolls.within {type : Ty} {a b : Value} (h : Unrolls type a b) {levels : Nat} (hb : b.Within levels) :
    a.Within levels := by
  induction h generalizing levels with
  | pairs entries =>
    obtain _ | levels := levels
    · exact absurd hb (not_within_zero _)
    · -- a key or a value lies in the dict directly, and in a pair of the array
      rw [within_succ, forall_children_dict]
      intro entry hentry
      have hpair := within_succ.1 hb _ (List.mem_map_of_mem hentry)
      obtain _ | levels := levels
      · exact absurd hpair (not_within_zero _)
      · have hfields := within_succ.1 hpair
        exact ⟨(hfields _ List.mem_cons_self).mono (Nat.le_succ _),
          (hfields _ (List.mem_cons_of_mem _ List.mem_cons_self)).mono (Nat.le_succ _)⟩
  | trans _ _ ih ih' => exact ih (ih' hb)
  | variant _ ih => exact within_of_child [] [] rfl rfl ih hb
  | item before after _ ih => exact within_of_child before after rfl rfl ih hb
  | field _ _ front back _ _ ih => exact within_of_child front back rfl rfl ih hb
  | key before after v _ ih =>
    refine within_of_child (dict before).children (v :: (dict after).children) ?_ ?_ ih hb
    · simp [children]
    · simp [children]
  | value before after k _ ih =>
    refine within_of_child ((dict before).children ++ [k]) (dict after).children ?_ ?_ ih hb
    · simp [children]
    · simp [children]
  | first v _ ih => exact within_of_child [] [v] rfl rfl ih hb
  | second k _ ih => exact within_of_child [k] [] rfl rfl ih hb

/-! ## Normal values -/

theorem normalize_pairs_map (key value : Ty) (entries : List (Value × Value)) :
    normalize (.array (.dictEntry key value)) (.array (entries.map fun entry => .struct [entry.1, entry.2]))
      = normalize (.array (.dictEntry key value)) (.dict entries) := by
  simp [normalize, ofItems, normalizeEach_eq_map, normalizeEntries_eq_map, normalizeAll, pair?, List.filterMap_map,
    Function.comp_def]

theorem normalizeAll_append {types : List Ty} {values : List Value} (hlen : types.length = values.length) (more : List Ty)
    (rest : List Value) : normalizeAll (types ++ more) (values ++ rest) = normalizeAll types values ++ normalizeAll more rest := by
  induction types generalizing values with
  | nil =>
    obtain rfl := List.length_eq_zero_iff.1 hlen.symm
    rfl
  | cons type types ih =>
    obtain _ | ⟨value, values⟩ := values
    · cases hlen
    · exact congrArg (normalize type value :: ·) (ih (Nat.succ.inj hlen))

/-- pairs stand for the dict -/
theorem Unrolls.normalize_eq {type : Ty} {a b : Value} (h : Unrolls type a b) : normalize type b = normalize type a := by
  induction h with
  | pairs entries => exact normalize_pairs_map _ _ entries
  | trans _ _ ih ih' => rw [ih', ih]
  | variant _ ih => rw [normalize, normalize, ih]
  | @item element _ _ before after _ ih =>
    simp only [normalize, normalizeEach_eq_map, List.map_append, List.map_cons, ih]
  | field _ _ _ _ hlen _ ih =>
    rw [normalize, normalize, normalizeAll_append hlen, normalizeAll_append hlen, normalizeAll, normalizeAll, ih]
  | key before after v _ ih => simp only [normalize, normalizeEntries_eq_map, List.map_append, List.map_cons, ih]
  | value before after k _ ih => simp only [normalize, normalizeEntries_eq_map, List.map_append, List.map_cons, ih]
  | first v _ ih => simp only [normalize, normalizeAll, ih]
  | second k _ ih => simp only [normalize, normalizeAll, ih]

end Value

namespace Wire

open Value

/-- **The two forms of a dict are written alike, but for the depth of pairs.** When arguments have pairs in the place of
dicts, anywhere in them and inside of variants too, they are written just when those with the dicts are and the pairs do not
nest too deep, and then as the same bytes. -/
theorem encodeAll_unrolled {types : List Ty} {values values' : List Value}
    (h : Unrolls (.struct types) (.struct values) (.struct values')) (w w' : Writer) :
    (encodeAll types values').run w = (.ok (), w') ↔
      (encodeAll types values).run w = (.ok (), w') ∧ ∀ value ∈ values', value.Within (maxDepth + 1) := by
  -- the arguments are written like the fields of a struct around them
  have hwritable (values : List Value) : List.Forall₂ (Writable (maxDepth + 1)) types values ↔
      Conforms (.struct types) (.struct values) ∧ (Value.struct values).Within (maxDepth + 1 + 1) :=
    (writable_iff : Writable (maxDepth + 1 + 1) (.struct types) (.struct values) ↔ _)
  have hwithin : (Value.struct values').Within (maxDepth + 1 + 1) ↔ ∀ value ∈ values', value.Within (maxDepth + 1) :=
    (within_succ : (Value.struct values').Within (maxDepth + 1 + 1) ↔ _)
  have hnormal : normalizeAll types values' = normalizeAll types values := Value.struct.inj h.normalize_eq
  rw [encodeAll_emits types values' w w', encodeAll_emits types values w w', hwritable, hwritable, hnormal, h.conforms_iff,
    ← hwithin]
  constructor
  · rintro ⟨⟨hconforms, hwithin⟩, hlaid⟩
    exact ⟨⟨⟨hconforms, h.within hwithin⟩, hlaid⟩, hwithin⟩
  · rintro ⟨⟨⟨hconforms, -⟩, hlaid⟩, hwithin⟩
    exact ⟨⟨hconforms, hwithin⟩, hlaid⟩

/-- a dict in a dict -/
def nestedDicts : Value :=
  .dict [(.byte 1, .dict [(.byte 2, .variant (.basic (.int .uint16)) (.scalar (.int .uint16 5)))])]

/-- pairs in the place of both -/
def nestedPairs : Value :=
  .array [.struct [.byte 1, .array [.struct [.byte 2, .variant (.basic (.int .uint16)) (.scalar (.int .uint16 5))]]]]

/-- both are written alike from position 3 on -/
theorem encodeAll_unrolled_nested :
    let types : List Ty := [.array (.dictEntry (.basic (.int .byte)) (.array (.dictEntry (.basic (.int .byte)) .variant)))]
    let w : Writer := ⟨.big, 3, #[0, 0, 0, 0, 14, 1, 0, 0, 0, 0, 0, 0, 6, 2, 1, 113, 0, 0, 5]⟩
    Unrolls (.struct types) (.struct [nestedDicts]) (.struct [nestedPairs]) ∧
      (encodeAll types [nestedDicts]).run (Writer.new .big 3) = (.ok (), w) ∧
      (encodeAll types [nestedPairs]).run (Writer.new .big 3) = (.ok (), w) := by
  intro types w
  have hunrolls : Unrolls (.struct types) (.struct [nestedDicts]) (.struct [nestedPairs]) := by
    apply Unrolls.field [] [] [] [] rfl
    exact .trans (.value [] [] _ (.pairs [(_, _)])) (.pairs [(_, _)])
  have hdicts : (encodeAll types [nestedDicts]).run (Writer.new .big 3) = (.ok (), w) := rfl
  refine ⟨hunrolls, hdicts, (encodeAll_unrolled hunrolls _ _).2 ⟨hdicts, List.forall_mem_singleton.2 ?_⟩⟩
  have hwithin : nestedPairs.Within 6 := by simp [within_succ, children, nestedPairs]
  exact hwithin.mono (by decide)

/-- a value behind one variant that carries its type, and behind so many more of them -/
def behindVariants : (more : Nat) → Ty → Value → Value
  | 0, type, value => .variant type value
  | more + 1, type, value => .variant .variant (behindVariants more type value)

/-- what is behind variants is written with a level less for each of them -/
theorem exists_run_behindVariants {type : Ty} (hp : Ty.parse type.text = .ok [type]) (value : Value) (more levels : Nat)
    (w : Writer) : ∃ next : Writer,
      (encodeWithin (levels + 1 + more) .variant (behindVariants more type value)).run w
        = (encodeWithin levels type value).run next := by
  have hput {text : String} {types : List Ty} (h : Ty.parse text = .ok types) (w : Writer) :
      (putSignature text).run w = (.ok (), ((w.put 1 text.utf8ByteSize).append (Text.utf8 text)).append [0]) := by
    unfold putSignature
    rw [h]
    rfl
  induction more generalizing w with
  | zero =>
    refine ⟨((w.put 1 type.text.utf8ByteSize).append (Text.utf8 type.text)).append [0], ?_⟩
    rw [behindVariants, encodeWithin, run_bind, hput hp]
  | succ more ih =>
    have hv : Ty.parse Ty.variant.text = .ok [.variant] := by decide
    obtain ⟨next, hnext⟩ := ih (((w.put 1 Ty.variant.text.utf8ByteSize).append (Text.utf8 Ty.variant.text)).append [0])
    refine ⟨next, ?_⟩
    rw [← hnext, behindVariants, ← Nat.add_assoc, encodeWithin, run_bind, hput hv]

/-- a dict from bytes to bytes -/
def byteDict : Ty := .array (.dictEntry (.basic (.int .byte)) (.basic (.int .byte)))

/-- two levels are enough for a dict of bytes, anywhere -/
theorem exists_run_byteDict (w : Writer) :
    ∃ w', (encodeWithin 2 byteDict (.dict [(.byte 1, .byte 2)])).run w = (.ok (), w') := by
  refine ⟨_, (encodeWithin_emits 2 byteDict _ w _).2 ⟨?_, ?_, rfl⟩⟩
  · intro entry hentry
    obtain rfl := List.mem_singleton.1 hentry
    exact ⟨⟨_, rfl, trivial⟩, ⟨_, rfl, trivial⟩⟩
  · have hnormal : normalize byteDict (.dict [(.byte 1, .byte 2)]) = .dict [(.byte 1, .byte 2)] := rfl
    have hbyte (p : Nat) : padding p IntKind.byte.size = 0 := Nat.mod_one _
    have hbody (p : Nat) : padding p 8 + (IntKind.byte.size + IntKind.byte.size) ≤ maxArrayLength :=
      (Nat.add_le_add_right (padding_lt p (by decide)).le 2).trans (by decide)
    have hword : 1 < 1 <<< (8 * IntKind.byte.size) ∧ 2 < 1 <<< (8 * IntKind.byte.size) := by decide
    rw [hnormal]
    simp [layout, layoutEntries, byteDict, measured, Scalar.layout, aligned, consecutive, Segment.Fits, Segment.size, hbyte,
      hbody, hword]

/-- behind 63 variants there is just room for a dict of bytes, and not for its pairs -/
theorem encodeAll_pairs_too_deep :
    let w := Writer.new .little 0
    Ty.parse byteDict.text = .ok [byteDict] ∧
      Unrolls byteDict (.dict [(.byte 1, .byte 2)]) (.array [.struct [.byte 1, .byte 2]]) ∧
      (∃ w', (encodeAll [.variant] [behindVariants 62 byteDict (.dict [(.byte 1, .byte 2)])]).run w = (.ok (), w')) ∧
      ∃ w', (encodeAll [.variant] [behindVariants 62 byteDict (.array [.struct [.byte 1, .byte 2]])]).run w
        = (.error (.signatureTooComplex "y"), w') := by
  intro w
  have hp : Ty.parse byteDict.text = .ok [byteDict] := by decide
  have hone (value : Value) : (encodeAll [.variant] [value]).run w = (encodeWithin (2 + 1 + 62) .variant value).run w := by
    change (encode .variant value >>= fun _ => pure ()).run w = _
    rw [bind_pure_unit]
    rfl
  refine ⟨hp, .pairs [(_, _)], ?_, ?_⟩
  · obtain ⟨next, hnext⟩ := exists_run_behindVariants hp (.dict [(.byte 1, .byte 2)]) 62 2 w
    rw [hone, hnext]
    exact exists_run_byteDict next
  · obtain ⟨next, hnext⟩ := exists_run_behindVariants hp (.array [.struct [.byte 1, .byte 2]]) 62 2 w
    rw [hone, hnext]
    exact ⟨_, rfl⟩

end Wire

end MessageBus
