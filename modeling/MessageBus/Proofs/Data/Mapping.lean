/-
The types of mapped data.

Whatever type is chosen for a shape, or asked for, the value is of that type (`infer_hasType`, `realize_hasType`). So a
body made of host data holds nothing that only stands for something else, and comes back from the wire as it is
(`mapping_hasType`). All of it holds of the shapes that data have, and for any way to say which strings are admitted,
as long as it admits the strings and names of the shape (`Shape.Admitted`).
-/
import Mathlib
import MessageBus.Data.Realize
import MessageBus.Proofs.Message.Frame
import MessageBus.Proofs.Value.HasType

namespace MessageBus

open Value (HasType)

variable {admits : String → Prop} {policy : Policy}

/-! ## Shapes of data -/

/-- the leaves of a shape obey the rules of their kinds, and its strings and names are admitted -/
inductive Shape.Admitted (admits : String → Prop) : Shape → Prop where
  | absent : Admitted admits .absent
  | leaf {value : Scalar} (h : value.ValidBy admits) : Admitted admits (.leaf value)
  | unitVariant (index : Nat) {name : String} (h : admits name) : Admitted admits (.unitVariant index name)
  | seq {items : List Shape} (h : ∀ item ∈ items, Admitted admits item) : Admitted admits (.seq items)
  | tuple {items : List Shape} (h : ∀ item ∈ items, Admitted admits item) : Admitted admits (.tuple items)
  | map {entries : List (Shape × Shape)} (hkey : ∀ entry ∈ entries, Admitted admits entry.1)
      (hvalue : ∀ entry ∈ entries, Admitted admits entry.2) : Admitted admits (.map entries)
  | record (name : String) {fields : List (String × Shape)} (hname : ∀ field ∈ fields, admits field.1)
      (h : ∀ field ∈ fields, Admitted admits field.2) : Admitted admits (.record name fields)

theorem Shape.Admitted.named {name : String} {content : Shape} (hname : admits name) (h : content.Admitted admits) :
    (Shape.named name content).Admitted admits :=
  .map (List.forall_mem_singleton.2 (.leaf hname)) (List.forall_mem_singleton.2 h)

/-! ## Types that are chosen -/

/-- a type of the right shape and a value of that type -/
def WellTyped (admits : String → Prop) (typed : Ty × Value) : Prop := typed.1.Shaped ∧ HasType admits typed.1 typed.2

theorem bind_eq_ok {ε α β : Type} {x : Except ε α} {f : α → Except ε β} {b : β} :
    (x >>= f) = .ok b ↔ ∃ a, x = .ok a ∧ f a = .ok b := by
  cases x <;> simp [bind, Except.bind]

namespace Shape

theorem unify_wellTyped {typed : List (Ty × Value)} (h : ∀ t ∈ typed, WellTyped admits t) :
    (unify typed).1.Shaped ∧ ∀ value ∈ (unify typed).2, HasType admits (unify typed).1 value := by
  cases typed with
  | nil => exact ⟨.variant, by simp [unify]⟩
  | cons first rest =>
    simp only [unify]
    split_ifs with hall
    · refine ⟨(h first List.mem_cons_self).1, fun value hvalue => ?_⟩
      obtain ⟨t, ht, rfl⟩ := List.mem_map.1 hvalue
      have htype : t.1 = first.1 := by simpa using List.all_eq_true.1 hall t ht
      exact htype ▸ (h t ht).2
    · refine ⟨.variant, fun value hvalue => ?_⟩
      obtain ⟨t, ht, rfl⟩ := List.mem_map.1 hvalue
      exact .variant (h t ht).1 (h t ht).2

theorem inferFields_eq (fields : List (String × Shape)) :
    inferFields policy fields = inferAll policy (fields.map (·.2)) := by
  induction fields with
  | nil => rfl
  | cons field fields ih => rw [inferFields, ih, List.map_cons, inferAll]

theorem inferAll_wellTyped {items : List Shape} {typed : List (Ty × Value)}
    (hone : ∀ item ∈ items, ∀ t, item.infer policy = .ok t → WellTyped admits t)
    (h : inferAll policy items = .ok typed) : ∀ t ∈ typed, WellTyped admits t := by
  induction items generalizing typed with
  | nil =>
    cases h
    simp
  | cons item items ih =>
    obtain ⟨hitem, hitems⟩ := List.forall_mem_cons.1 hone
    obtain ⟨t, ht, h⟩ := bind_eq_ok.1 h
    obtain ⟨ts, hts, h⟩ := bind_eq_ok.1 h
    cases h
    exact List.forall_mem_cons.2 ⟨hitem t ht, ih hitems hts⟩

/-- the types and values of several shapes, as those of a struct -/
theorem inferAll_struct {items : List Shape} {typed : List (Ty × Value)} (hne : items ≠ [])
    (hone : ∀ item ∈ items, ∀ t, item.infer policy = .ok t → WellTyped admits t)
    (h : inferAll policy items = .ok typed) :
    WellTyped admits (.struct (typed.map (·.1)), .struct (typed.map (·.2))) := by
  have htyped := inferAll_wellTyped hone h
  have hsome : typed ≠ [] := by
    obtain ⟨item, items, rfl⟩ := List.exists_cons_of_ne_nil hne
    obtain ⟨t, -, h⟩ := bind_eq_ok.1 h
    obtain ⟨ts, -, h⟩ := bind_eq_ok.1 h
    cases h
    simp
  refine ⟨.struct (by simpa using hsome) fun type htype => ?_, .struct (by simp) fun field hfield => ?_⟩
  · obtain ⟨t, ht, rfl⟩ := List.mem_map.1 htype
    exact (htyped t ht).1
  · rw [List.zip_map', List.mem_map] at hfield
    obtain ⟨t, ht, rfl⟩ := hfield
    exact (htyped t ht).2

theorem inferPresent_cons (name : String) {field : Shape} (h : field ≠ absent) (fields : List (String × Shape)) :
    inferPresent policy ((name, field) :: fields) = do
      let t ← field.infer policy
      return (.string name, .variant t.1 t.2) :: (← inferPresent policy fields) := by
  cases field <;> first | rfl | exact absurd rfl h

theorem inferPresent_hasType {fields : List (String × Shape)} {entries : List (Value × Value)}
    (hname : ∀ field ∈ fields, admits field.1)
    (hone : ∀ field ∈ fields, ∀ t, field.2.infer policy = .ok t → WellTyped admits t)
    (h : inferPresent policy fields = .ok entries) :
    ∀ entry ∈ entries, HasType admits (.basic (.text .string)) entry.1 ∧ HasType admits .variant entry.2 := by
  induction fields generalizing entries with
  | nil =>
    cases h
    simp
  | cons field fields ih =>
    obtain ⟨name, field⟩ := field
    obtain ⟨hfirst, hnames⟩ := List.forall_mem_cons.1 hname
    obtain ⟨hfield, hfields⟩ := List.forall_mem_cons.1 hone
    by_cases habsent : field = absent
    · subst habsent
      exact ih hnames hfields h
    · rw [inferPresent_cons name habsent] at h
      obtain ⟨t, ht, h⟩ := bind_eq_ok.1 h
      obtain ⟨rest, hrest, h⟩ := bind_eq_ok.1 h
      cases h
      have hwell := hfield t ht
      exact List.forall_mem_cons.2 ⟨⟨.scalar rfl hfirst, .variant hwell.1 hwell.2⟩, ih hnames hfields hrest⟩

/-- the keys of a dict share a basic type with the first of them, or with one that is given -/
theorem inferEntries_wellTyped {entries : List (Shape × Shape)} {given keyType : Option Ty}
    {typed : List (Value × Ty × Value)} (hkey : ∀ entry ∈ entries, ∀ t, entry.1.infer policy = .ok t → WellTyped admits t)
    (hvalue : ∀ entry ∈ entries, ∀ t, entry.2.infer policy = .ok t → WellTyped admits t)
    (hgiven : ∀ type ∈ given, type.isBasic = true) (h : inferEntries policy given entries = .ok (keyType, typed)) :
    (∀ type ∈ given, keyType = some type) ∧ (∀ type ∈ keyType, type.isBasic = true) ∧
      ∀ entry ∈ typed, (∃ type, keyType = some type ∧ HasType admits type entry.1) ∧ WellTyped admits entry.2 := by
  induction entries generalizing given keyType typed with
  | nil =>
    cases h
    exact ⟨fun type htype => htype, hgiven, by simp⟩
  | cons entry entries ih =>
    obtain ⟨hfirst, hkeys⟩ := List.forall_mem_cons.1 hkey
    obtain ⟨hcontent, hvalues⟩ := List.forall_mem_cons.1 hvalue
    obtain ⟨⟨type, key⟩, hinfer, h⟩ := bind_eq_ok.1 h
    simp only at h
    split_ifs at h with hrefused
    obtain ⟨hbasic, hagrees⟩ : type.isBasic = true ∧ type = given.getD type := by simpa using hrefused
    obtain ⟨t, ht, h⟩ := bind_eq_ok.1 h
    obtain ⟨⟨keyType', typed'⟩, hrest, h⟩ := bind_eq_ok.1 h
    cases h
    -- the type of this key is given to the other entries, and has to be theirs
    obtain ⟨hkeep, hbasics, hentries⟩ := ih hkeys hvalues (by simpa using hbasic) hrest
    have hshared : keyType' = some type := hkeep type rfl
    refine ⟨fun other hother => ?_, hbasics, ?_⟩
    · obtain rfl : given = some other := hother
      exact hshared.trans (congrArg some hagrees)
    · exact List.forall_mem_cons.2 ⟨⟨⟨type, hshared, (hfirst _ hinfer).2⟩, hcontent t ht⟩, hentries⟩

theorem dictOf_wellTyped {keyType : Option Ty} {entries : List (Value × Ty × Value)}
    (hbasic : ∀ type ∈ keyType, type.isBasic = true)
    (h : ∀ entry ∈ entries, (∃ type, keyType = some type ∧ HasType admits type entry.1) ∧ WellTyped admits entry.2) :
    WellTyped admits (dictOf keyType entries) := by
  have hvalues : ∀ t ∈ entries.map (·.2), WellTyped admits t := fun t ht => by
    obtain ⟨entry, hentry, rfl⟩ := List.mem_map.1 ht
    exact (h entry hentry).2
  obtain ⟨hshaped, htyped⟩ := unify_wellTyped hvalues
  obtain ⟨key, hkey⟩ : ∃ key, keyType.getD (.basic (.text .string)) = .basic key := by
    cases keyType with
    | none => exact ⟨_, rfl⟩
    | some type =>
      have := hbasic type rfl
      cases type <;> first | exact ⟨_, rfl⟩ | cases this
  simp only [dictOf, WellTyped, hkey]
  refine ⟨.dict key hshaped, .dict (fun entry hentry => ?_) fun entry hentry => htyped _ (List.of_mem_zip hentry).2⟩
  obtain ⟨e, he, heq⟩ := List.mem_map.1 (List.of_mem_zip hentry).1
  obtain ⟨type, rfl, htype⟩ := (h e he).1
  obtain rfl : type = .basic key := hkey
  exact heq ▸ htype

/-- **A type chosen for a shape is of the right shape, and its value is of that type.** -/
theorem infer_hasType {shape : Shape} (hshape : shape.Admitted admits) {t : Ty × Value} (h : shape.infer policy = .ok t) :
    WellTyped admits t := by
  induction hshape generalizing t with
  | absent => cases h
  | leaf hvalid =>
    cases h
    exact ⟨.basic _, .scalar rfl hvalid⟩
  | unitVariant index hname =>
    cases h
    exact ⟨.basic _, .scalar rfl hname⟩
  | @seq items _ ih =>
    obtain ⟨typed, htyped, h⟩ := bind_eq_ok.1 h
    cases h
    obtain ⟨hshaped, hvalues⟩ := unify_wellTyped (inferAll_wellTyped (fun item hitem t => ih item hitem) htyped)
    exact ⟨.array hshaped, .array hshaped hvalues⟩
  | @tuple items _ ih =>
    rw [infer] at h
    split_ifs at h with hempty
    obtain ⟨typed, htyped, h⟩ := bind_eq_ok.1 h
    cases h
    exact inferAll_struct (by simpa using hempty) (fun item hitem t => ih item hitem) htyped
  | map _ _ ihkey ihvalue =>
    obtain ⟨⟨keyType, typed⟩, htyped, h⟩ := bind_eq_ok.1 h
    cases h
    obtain ⟨-, hbasic, hentries⟩ :=
      inferEntries_wellTyped (fun e he t => ihkey e he) (fun e he t => ihvalue e he) (by simp) htyped
    exact dictOf_wellTyped hbasic hentries
  | record name hname _ ih =>
    rw [infer] at h
    split at h
    · obtain ⟨entries, hentries, h⟩ := bind_eq_ok.1 h
      cases h
      have htyped := inferPresent_hasType hname (fun f hf t => ih f hf) hentries
      exact ⟨.dict _ .variant, .dict (fun e he => (htyped e he).1) fun e he => (htyped e he).2⟩
    · split_ifs at h with hempty
      obtain ⟨typed, htyped, h⟩ := bind_eq_ok.1 h
      cases h
      rw [inferFields_eq] at htyped
      refine inferAll_struct (by simpa using hempty) (fun item hitem t ht => ?_) htyped
      obtain ⟨field, hfield, rfl⟩ := List.mem_map.1 hitem
      exact ih field hfield ht

/-! ## Types that are asked for -/

theorem convert_valid {value result : Scalar} {type : Basic} (hvalid : value.ValidBy admits)
    (h : value.convert type = .ok result) : result.type = type ∧ result.ValidBy admits := by
  unfold Scalar.convert at h
  simp only at h
  split at h
  · obtain ⟨bits, -, h⟩ := bind_eq_ok.1 h
    cases h
    exact ⟨rfl, trivial⟩
  · cases h
    exact ⟨rfl, trivial⟩
  · cases h
    exact ⟨rfl, trivial⟩
  · cases h
    exact ⟨rfl, hvalid⟩
  · next path =>
      obtain ⟨_, hcheck, h⟩ := bind_eq_ok.1 h
      cases h
      exact ⟨rfl, NameKind.check_eq_ok_iff.1 hcheck⟩
  · obtain ⟨types, htypes, h⟩ := bind_eq_ok.1 h
    cases h
    exact ⟨rfl, types, htypes⟩
  · cases h

/-- whatever values of a type are made of shapes are of that type -/
def Realizes (admits : String → Prop) (policy : Policy) (type : Ty) : Prop :=
  ∀ (shape : Shape) (value : Value),
    shape.Admitted admits → shape.realize policy type = .ok value → HasType admits type value

theorem realizeAll_hasType {element : Ty} (hone : Realizes admits policy element) {items : List Shape}
    {values : List Value} (hitems : ∀ item ∈ items, item.Admitted admits)
    (h : realizeAll policy element items = .ok values) : ∀ v ∈ values, HasType admits element v := by
  induction items generalizing values with
  | nil =>
    cases h
    simp
  | cons item items ih =>
    obtain ⟨hitem, hitems⟩ := List.forall_mem_cons.1 hitems
    obtain ⟨v, hv, h⟩ := bind_eq_ok.1 h
    obtain ⟨vs, hvs, h⟩ := bind_eq_ok.1 h
    cases h
    exact List.forall_mem_cons.2 ⟨hone item v hitem hv, ih hitems hvs⟩

theorem realizeFields_eq (types : List Ty) (fields : List (String × Shape)) :
    realizeFields policy types fields = realizeItems policy types (fields.map (·.2)) := by
  induction types generalizing fields with
  | nil => cases fields <;> rfl
  | cons type types ih =>
    cases fields with
    | nil => rfl
    | cons field fields => rw [realizeFields, ih, List.map_cons, realizeItems]

theorem realizeItems_hasType {types : List Ty} {items : List Shape} {values : List Value}
    (hone : ∀ type ∈ types, Realizes admits policy type) (hitems : ∀ item ∈ items, item.Admitted admits)
    (hlen : types.length = items.length) (h : realizeItems policy types items = .ok values) :
    types.length = values.length ∧ ∀ field ∈ types.zip values, HasType admits field.1 field.2 := by
  induction types generalizing items values with
  | nil =>
    obtain rfl := List.eq_nil_of_length_eq_zero hlen.symm
    cases h
    simp
  | cons type types ih =>
    obtain ⟨item, items, rfl⟩ := List.exists_cons_of_length_eq_add_one hlen.symm
    obtain ⟨htype, htypes⟩ := List.forall_mem_cons.1 hone
    obtain ⟨hitem, hitems⟩ := List.forall_mem_cons.1 hitems
    obtain ⟨v, hv, h⟩ := bind_eq_ok.1 h
    obtain ⟨vs, hvs, h⟩ := bind_eq_ok.1 h
    cases h
    obtain ⟨hlen', hrest⟩ := ih htypes hitems (Nat.succ.inj hlen) hvs
    rw [List.zip_cons_cons, List.length_cons, List.length_cons, hlen']
    exact ⟨rfl, List.forall_mem_cons.2 ⟨htype item v hitem hv, hrest⟩⟩

section Dict

variable {key value : Ty} {made : List (Value × Value)}

/-- entries of a dict whose keys and values are of these types -/
def Entries (admits : String → Prop) (key value : Ty) (entries : List (Value × Value)) : Prop :=
  ∀ entry ∈ entries, HasType admits key entry.1 ∧ HasType admits value entry.2

theorem realizeEntries_hasType (hkey : Realizes admits policy key) (hvalue : Realizes admits policy value)
    {entries : List (Shape × Shape)} (hkeys : ∀ entry ∈ entries, entry.1.Admitted admits)
    (hvalues : ∀ entry ∈ entries, entry.2.Admitted admits) (h : realizeEntries policy key value entries = .ok made) :
    Entries admits key value made := by
  induction entries generalizing made with
  | nil =>
    cases h
    simp [Entries]
  | cons entry entries ih =>
    obtain ⟨hk, hkeys⟩ := List.forall_mem_cons.1 hkeys
    obtain ⟨hv, hvalues⟩ := List.forall_mem_cons.1 hvalues
    obtain ⟨k, hrk, h⟩ := bind_eq_ok.1 h
    obtain ⟨v, hrv, h⟩ := bind_eq_ok.1 h
    obtain ⟨rest, hrest, h⟩ := bind_eq_ok.1 h
    cases h
    exact List.forall_mem_cons.2 ⟨⟨hkey _ k hk hrk, hvalue _ v hv hrv⟩, ih hkeys hvalues hrest⟩

theorem realizePresent_cons (name : String) {field : Shape} (h : field ≠ absent) (fields : List (String × Shape)) :
    realizePresent policy key value ((name, field) :: fields) = do
      let k ← realizeName key name
      let v ← field.realize policy value
      return (k, v) :: (← realizePresent policy key value fields) := by
  cases field <;> first | rfl | exact absurd rfl h

theorem realizePresent_hasType (type : Basic) (hvalue : Realizes admits policy value) {fields : List (String × Shape)}
    (hname : ∀ field ∈ fields, admits field.1) (hfield : ∀ field ∈ fields, field.2.Admitted admits)
    (h : realizePresent policy (.basic type) value fields = .ok made) : Entries admits (.basic type) value made := by
  induction fields generalizing made with
  | nil =>
    cases h
    simp [Entries]
  | cons field fields ih =>
    obtain ⟨name, field⟩ := field
    obtain ⟨hfirst, hnames⟩ := List.forall_mem_cons.1 hname
    obtain ⟨hcontent, hfields⟩ := List.forall_mem_cons.1 hfield
    by_cases habsent : field = absent
    · subst habsent
      exact ih hnames hfields h
    · rw [realizePresent_cons name habsent] at h
      obtain ⟨k, hk, h⟩ := bind_eq_ok.1 h
      obtain ⟨v, hv, h⟩ := bind_eq_ok.1 h
      obtain ⟨rest, hrest, h⟩ := bind_eq_ok.1 h
      cases h
      obtain ⟨scalar, hscalar, hk⟩ := bind_eq_ok.1 hk
      cases hk
      obtain ⟨htype, hvalid⟩ := convert_valid (show Scalar.ValidBy admits (.text .string name) from hfirst) hscalar
      exact List.forall_mem_cons.2 ⟨⟨.scalar htype hvalid, hvalue _ v hcontent hv⟩, ih hnames hfields hrest⟩

theorem realizePairs_hasType (hkey : Realizes admits policy key) (hvalue : Realizes admits policy value)
    {items : List Shape} (hitems : ∀ item ∈ items, item.Admitted admits)
    (h : realizePairs policy key value items = .ok made) : Entries admits key value made := by
  induction items generalizing made with
  | nil =>
    cases h
    simp [Entries]
  | cons item items ih =>
    obtain ⟨hitem, hitems⟩ := List.forall_mem_cons.1 hitems
    have hpair {first second : Shape} (hfirst : first.Admitted admits) (hsecond : second.Admitted admits)
        (h : (do
          let k ← first.realize policy key
          let v ← second.realize policy value
          return (k, v) :: (← realizePairs policy key value items)) = Except.ok made) : Entries admits key value made := by
      obtain ⟨k, hk, h⟩ := bind_eq_ok.1 h
      obtain ⟨v, hv, h⟩ := bind_eq_ok.1 h
      obtain ⟨rest, hrest, h⟩ := bind_eq_ok.1 h
      cases h
      exact List.forall_mem_cons.2 ⟨⟨hkey _ k hfirst hk, hvalue _ v hsecond hv⟩, ih hitems hrest⟩
    unfold realizePairs at h
    split at h
    · next hnil => cases hnil
    · next heq =>
        cases heq
        cases hitem with
        | tuple hparts =>
          exact hpair (hparts _ List.mem_cons_self) (hparts _ (List.mem_cons_of_mem _ List.mem_cons_self)) h
    · next heq =>
        cases heq
        cases hitem with
        | seq hparts =>
          exact hpair (hparts _ List.mem_cons_self) (hparts _ (List.mem_cons_of_mem _ List.mem_cons_self)) h
    · cases h

theorem Entries.hasType (h : Entries admits key value made) :
    HasType admits (.array (.dictEntry key value)) (.dict made) :=
  .dict (fun e he => (h e he).1) fun e he => (h e he).2

end Dict

theorem realize_index {type : Basic} (h : type ≠ .text .string) (index : Nat) (name : String) :
    realize policy (.basic type) (.unitVariant index name)
      = do return .scalar (← (Scalar.int .uint32 (BitVec.ofNat 32 index)).convert type) := by
  cases type with
  | text kind =>
    cases kind with
    | string => exact absurd rfl h
    | _ => rfl
  | _ => rfl

theorem realizes_basic (type : Basic) : Realizes admits policy (.basic type) := by
  intro shape value hshape h
  have hscalar {given : Scalar} (hgiven : given.ValidBy admits)
      (h : (do return .scalar (← given.convert type)) = Except.ok value) : HasType admits (.basic type) value := by
    obtain ⟨result, hresult, h⟩ := bind_eq_ok.1 h
    cases h
    obtain ⟨htype, hvalid⟩ := convert_valid hgiven hresult
    exact .scalar htype hvalid
  cases hshape with
  | leaf hvalid => exact hscalar hvalid h
  | unitVariant index hname =>
    by_cases hstring : type = .text .string
    · subst hstring
      cases h
      exact .scalar rfl hname
    · rw [realize_index hstring] at h
      exact hscalar (show Scalar.ValidBy admits (.int .uint32 _) from trivial) h
  | _ => cases h

theorem realizes_variant : Realizes admits policy .variant := by
  intro shape value hshape h
  have hinfer : shape.realize policy .variant = do
      let t ← shape.infer policy
      return .variant t.1 t.2 := by cases shape <;> rfl
  rw [hinfer] at h
  obtain ⟨t, ht, h⟩ := bind_eq_ok.1 h
  cases h
  have hwell := infer_hasType hshape ht
  exact .variant hwell.1 hwell.2

theorem realizes_array {element : Ty} (hs : element.Shaped) (hone : Realizes admits policy element) :
    Realizes admits policy (.array element) := by
  intro shape value hshape h
  have harray {items : List Shape} (hitems : ∀ item ∈ items, item.Admitted admits)
      (h : (do return .array (← realizeAll policy element items)) = Except.ok value) :
      HasType admits (.array element) value := by
    obtain ⟨values, hvalues, h⟩ := bind_eq_ok.1 h
    cases h
    exact .array hs (realizeAll_hasType hone hitems hvalues)
  cases hshape with
  | seq hitems => exact harray hitems (by cases hs <;> exact h)
  | tuple hitems => exact harray hitems (by cases hs <;> exact h)
  | _ => cases hs <;> cases h

theorem realizes_dict (key : Basic) {content : Ty} (hone : Realizes admits policy content) :
    Realizes admits policy (.array (.dictEntry (.basic key) content)) := by
  intro shape value hshape h
  cases hshape with
  | map hkeys hvalues =>
    obtain ⟨made, hmade, h⟩ := bind_eq_ok.1 h
    cases h
    exact (realizeEntries_hasType (realizes_basic key) hone hkeys hvalues hmade).hasType
  | record name hnames hfields =>
    obtain ⟨made, hmade, h⟩ := bind_eq_ok.1 h
    cases h
    exact (realizePresent_hasType key hone hnames hfields hmade).hasType
  | @seq items hitems =>
    -- an item that is no pair is looked for before anything is made of the others
    cases hfound : items.find? fun item => !item.isPair with
    | some item =>
      rw [realize, hfound] at h
      cases h
    | none =>
      rw [realize, hfound] at h
      obtain ⟨made, hmade, h⟩ := bind_eq_ok.1 h
      cases h
      exact (realizePairs_hasType (realizes_basic key) hone hitems hmade).hasType
  | _ => cases h

theorem realizes_struct {types : List Ty} (hone : ∀ type ∈ types, Realizes admits policy type) :
    Realizes admits policy (.struct types) := by
  intro shape value hshape h
  have hstruct {items : List Shape} (hitems : ∀ item ∈ items, item.Admitted admits)
      (h : (if types.length = items.length then do return .struct (← realizeItems policy types items)
        else .error (misfit (.struct types) "struct with a different number of fields")) = Except.ok value) :
      HasType admits (.struct types) value := by
    split_ifs at h with hlen
    obtain ⟨values, hvalues, h⟩ := bind_eq_ok.1 h
    cases h
    obtain ⟨hlen', hfields⟩ := realizeItems_hasType hone hitems hlen hvalues
    exact .struct hlen' hfields
  cases hshape with
  | seq hitems => exact hstruct hitems h
  | tuple hitems => exact hstruct hitems h
  | @record fields name hnames hfields =>
    refine hstruct (List.forall_mem_map.2 hfields) ?_
    rw [List.length_map, ← realizeFields_eq]
    exact h
  | _ => cases h

/-- **A value made for a type is of that type.** -/
theorem realize_hasType {type : Ty} (hs : type.Shaped) : Realizes admits policy type := by
  induction hs with
  | basic type => exact realizes_basic type
  | variant => exact realizes_variant
  | array hs ih => exact realizes_array hs ih
  | dict key hs ih => exact realizes_dict key ih
  | struct hne hs ih => exact realizes_struct ih

end Shape

/-! ## Shapes that data have -/

namespace Datum

/-- any shape of data, whatever its strings -/
abbrev IsShape (shape : Shape) : Prop := shape.Admitted fun _ => True

mutual
theorem isShape_shape : ∀ {datum : Datum} {shape : Shape}, datum.shape = .ok shape → IsShape shape
  | bool _, _, h | int _ _, _, h | single _, _, h | double _, _, h | char _, _, h | text _, _, h => by
    cases h
    exact .leaf trivial
  | bytes _, _, h => by
    cases h
    exact .seq (List.forall_mem_map.2 fun _ _ => .leaf trivial)
  | absent, _, h | unit, _, h | unitStruct _, _, h => by
    cases h
    exact .absent
  | present content, _, h | newtypeStruct _ content, _, h => @isShape_shape content _ h
  | seq items, _, h => by
    obtain ⟨shapes, hshapes, h⟩ := bind_eq_ok.1 h
    cases h
    exact .seq (isShape_shapeAll hshapes)
  | tuple items, _, h | tupleStruct _ items, _, h => by
    obtain ⟨shapes, hshapes, h⟩ := bind_eq_ok.1 h
    cases h
    exact .tuple (isShape_shapeAll hshapes)
  | record name fields, _, h => by
    obtain ⟨shapes, hshapes, h⟩ := bind_eq_ok.1 h
    cases h
    exact .record name (fun _ _ => trivial) (isShape_shapeFields hshapes)
  | unitVariant _ index _, _, h => by
    cases h
    exact .unitVariant index trivial
  | newtypeVariant _ _ name content, _, h => by
    obtain ⟨shape, hshape, h⟩ := bind_eq_ok.1 h
    cases h
    exact .named trivial (isShape_shape hshape)
  | tupleVariant _ _ name items, _, h => by
    obtain ⟨shapes, hshapes, h⟩ := bind_eq_ok.1 h
    cases h
    exact .named trivial (.tuple (isShape_shapeAll hshapes))
  | recordVariant _ _ name fields, _, h => by
    obtain ⟨shapes, hshapes, h⟩ := bind_eq_ok.1 h
    cases h
    exact .named trivial (.record name (fun _ _ => trivial) (isShape_shapeFields hshapes))
  | map entries, _, h => by
    obtain ⟨shapes, hshapes, h⟩ := bind_eq_ok.1 h
    cases h
    have hentries := isShape_shapeEntries hshapes
    exact .map (fun e he => (hentries e he).1) fun e he => (hentries e he).2
  | mapParts parts, _, h => by
    obtain ⟨shapes, hshapes, h⟩ := bind_eq_ok.1 h
    cases h
    have hentries := isShape_shapeParts (by simp) hshapes
    exact .map (fun e he => (hentries e he).1) fun e he => (hentries e he).2
  | refused _, _, h | unsupported _, _, h => by cases h
theorem isShape_shapeAll : ∀ {items : List Datum} {shapes : List Shape},
    shapeAll items = .ok shapes → ∀ shape ∈ shapes, IsShape shape
  | [], _, h => by
    cases h
    simp
  | item :: items, _, h => by
    obtain ⟨shape, hshape, h⟩ := bind_eq_ok.1 h
    obtain ⟨shapes, hshapes, h⟩ := bind_eq_ok.1 h
    cases h
    exact List.forall_mem_cons.2 ⟨isShape_shape hshape, isShape_shapeAll hshapes⟩
theorem isShape_shapeFields : ∀ {fields : List (String × Datum)} {shapes : List (String × Shape)},
    shapeFields fields = .ok shapes → ∀ field ∈ shapes, IsShape field.2
  | [], _, h => by
    cases h
    simp
  | (_, field) :: fields, _, h => by
    obtain ⟨shape, hshape, h⟩ := bind_eq_ok.1 h
    obtain ⟨shapes, hshapes, h⟩ := bind_eq_ok.1 h
    cases h
    exact List.forall_mem_cons.2 ⟨isShape_shape hshape, isShape_shapeFields hshapes⟩
theorem isShape_shapeEntries : ∀ {entries : List (Datum × Datum)} {shapes : List (Shape × Shape)},
    shapeEntries entries = .ok shapes → ∀ entry ∈ shapes, IsShape entry.1 ∧ IsShape entry.2
  | [], _, h => by
    cases h
    simp
  | (key, value) :: entries, _, h => by
    obtain ⟨k, hk, h⟩ := bind_eq_ok.1 h
    obtain ⟨v, hv, h⟩ := bind_eq_ok.1 h
    obtain ⟨shapes, hshapes, h⟩ := bind_eq_ok.1 h
    cases h
    exact List.forall_mem_cons.2 ⟨⟨isShape_shape hk, isShape_shape hv⟩, isShape_shapeEntries hshapes⟩
theorem isShape_shapeParts : ∀ {parts : List (MapPart × Datum)} {waiting : Option Shape} {shapes : List (Shape × Shape)},
    (∀ key ∈ waiting, IsShape key) → shapeParts waiting parts = .ok shapes →
      ∀ entry ∈ shapes, IsShape entry.1 ∧ IsShape entry.2
  | [], _, _, _, h => by
    cases h
    simp
  | (.key, key) :: parts, _, _, _, h => by
    obtain ⟨k, hk, h⟩ := bind_eq_ok.1 h
    exact isShape_shapeParts (by simpa using isShape_shape hk) h
  | (.value, value) :: parts, none, _, _, h => by cases h
  | (.value, value) :: parts, some key, _, hkey, h => by
    obtain ⟨v, hv, h⟩ := bind_eq_ok.1 h
    obtain ⟨shapes, hshapes, h⟩ := bind_eq_ok.1 h
    cases h
    exact List.forall_mem_cons.2 ⟨⟨hkey key rfl, isShape_shape hv⟩, isShape_shapeParts (by simp) hshapes⟩
end

end Datum

/-! ## Bodies -/

namespace Body

theorem spread_admitted {signature : String} {types : List Ty} {shape : Shape} {items : List Shape}
    (hshape : shape.Admitted admits) (h : spread signature types shape = .ok items) :
    types.length = items.length ∧ ∀ item ∈ items, item.Admitted admits := by
  unfold spread at h
  split at h
  · cases h
    simp
  · cases h
    exact ⟨rfl, List.forall_mem_singleton.2 hshape⟩
  · cases h
    cases hshape with
    | tuple hitems => exact ⟨rfl, hitems⟩
  · cases h
    exact ⟨rfl, List.forall_mem_singleton.2 hshape⟩
  · split_ifs at h with hlen
    cases h
    cases hshape with
    | tuple hitems => exact ⟨hlen, hitems⟩
  · split_ifs at h with hlen
    cases h
    cases hshape with
    | seq hitems => exact ⟨hlen, hitems⟩
  · cases h

/-- the arguments made of a datum are of the types of the signature -/
theorem ofDatum_hasType {signature : String} {datum : Datum} {body : Body} (h : ofDatum signature datum policy = .ok body) :
    ∀ argument ∈ body.types.zip body.values, HasType (fun _ => True) argument.1 argument.2 := by
  obtain ⟨types, htypes, h⟩ := bind_eq_ok.1 h
  obtain ⟨shape, hshape, h⟩ := bind_eq_ok.1 h
  obtain ⟨items, hitems, h⟩ := bind_eq_ok.1 h
  obtain ⟨values, hvalues, h⟩ := bind_eq_ok.1 h
  obtain ⟨hlen, hadmitted⟩ := spread_admitted (Datum.isShape_shape hshape) hitems
  have hrealizes : ∀ type ∈ types, Shape.Realizes (fun _ => True) policy type := fun type htype =>
    Shape.realize_hasType ((Ty.parse_sound htypes).2.2 type htype).shaped
  obtain ⟨hlen', harguments⟩ := Shape.realizeItems_hasType hrealizes hadmitted hlen hvalues
  rw [ofParts, dif_pos hlen'] at h
  cases h
  exact harguments

/-- **A body made of a datum is normal.** -/
theorem normalize_ofDatum {signature : String} {datum : Datum} {body : Body} (h : ofDatum signature datum policy = .ok body) :
    body.normalize = body := by
  have hvalues := Value.normalizeAll_eq_self fun argument hargument => (ofDatum_hasType h argument hargument).normalize_eq
  obtain ⟨types, values, arity⟩ := body
  simp only [normalize, mk.injEq, true_and]
  exact hvalues

end Body

/-- **The mapper is well typed.** A value made for a type is of that type, and so is one whose type is chosen, which is
then of the right shape; this holds of whatever shapes data have. So a body that is made of a datum comes back from the
wire as it is. -/
theorem mapping_hasType (policy : Policy) :
    (∀ admits shape, Shape.Admitted admits shape →
      (∀ text type value, Ty.parseSingle text = .ok type → shape.realize policy type = .ok value →
        HasType admits type value) ∧
      ∀ type value, shape.infer policy = .ok (type, value) → type.Shaped ∧ HasType admits type value) ∧
    (∀ datum shape, Datum.shape datum = .ok shape → shape.Admitted fun _ => True) ∧
    ∀ (signature : String) (datum : Datum) (body : Body) (message : Message) (data : List UInt8),
      Body.ofDatum signature datum policy = .ok body → message.body = body → message.marshal = .ok data →
        ∃ back, Message.unmarshal data = .ok back ∧ back.body = body := by
  refine ⟨fun admits shape hshape => ⟨fun text type value htype h => ?_, fun type value h => ?_⟩,
    fun datum shape h => Datum.isShape_shape h, ?_⟩
  · have hparse := Ty.parseSingle_eq_ok_iff.1 htype
    have hs := ((Ty.parse_sound hparse).2.2 type (List.mem_singleton_self _)).shaped
    exact Shape.realize_hasType hs shape value hshape h
  · exact Shape.infer_hasType hshape h
  · rintro signature datum body message data h rfl hmarshal
    exact ⟨message.received, Message.unmarshal_written hmarshal, Body.normalize_ofDatum h⟩

/-- a text, a number in a narrower type than is asked for, and options of which one is left out -/
def greeting : Datum :=
  .tuple [.text "hello", .int .u8 7, .record "Options" [("size", .int .u32 3), ("title", .absent)]]

def greetingReply : Message where
  type := .methodReturn
  order := .big
  serial := 2
  fields := { replySerial := some 1 }
  body := ⟨[.basic (.text .string), .basic (.int .uint32), .array (.dictEntry (.basic (.text .string)) .variant)],
    [.string "hello", .uint32 7, .dict [(.string "size", .variant (.basic (.int .uint32)) (.uint32 3))]], rfl⟩

theorem ofDatum_greeting : Body.ofDatum "sua\x7bsv\x7d" greeting .dicts = .ok greetingReply.body := by rfl

/-- a number and a name, which have no type in common -/
def mixed : Shape := .seq [.leaf (.int .byte 1), .unitVariant 3 "three"]

def mixedValue : Value :=
  .array [.variant (.basic (.int .byte)) (.byte 1), .variant (.basic (.text .string)) (.string "three")]

theorem infer_mixed : mixed.infer .dicts = .ok (.array .variant, mixedValue) := by rfl

theorem mapping_hasType_greeting :
    mixed.infer .dicts = .ok (.array .variant, mixedValue) ∧
      HasType (fun text => text.contains '\x00' = false) (.array .variant) mixedValue ∧
      Body.ofDatum "sua\x7bsv\x7d" greeting .dicts = .ok greetingReply.body ∧
      greetingReply.marshal = .ok greetingReply.frame ∧
      ∃ back, Message.unmarshal greetingReply.frame = .ok back ∧ back.body = greetingReply.body := by
  have hmixed : mixed.Admitted fun text => text.contains '\x00' = false :=
    .seq (List.forall_mem_cons.2 ⟨.leaf trivial, List.forall_mem_singleton.2 (.unitVariant 3 (by simp))⟩)
  have hmarshal : greetingReply.marshal = .ok greetingReply.frame := by cbv
  refine ⟨infer_mixed, (((mapping_hasType .dicts).1 _ _ hmixed).2 _ _ infer_mixed).2, ofDatum_greeting, hmarshal, ?_⟩
  exact (mapping_hasType .dicts).2.2 _ greeting _ greetingReply _ ofDatum_greeting rfl hmarshal

end MessageBus
