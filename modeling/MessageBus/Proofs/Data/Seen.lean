/-
What is seen of the values that shapes and data become.

Whoever reads a value does not see the variants around it, the width of an integer, the kind of a text or whether a
sequence is an array or a struct. `Shape.SeenAs` says when a view shows all that there is in a shape, as far as it can be
seen. A value whose type is chosen for a shape always does (`infer_seenAs`). So does a value of a type that is asked for,
but for two exceptions, `Strays`: a sequence becomes a dict, or the index of a variant a signed integer
(`realize_seenAs`). A view shows a datum when it shows the shape of the datum (`Datum.SeenAs`), which determines the view
of each kind of datum.
-/
import Mathlib
import MessageBus.Data.View
import MessageBus.Proofs.Data.Mapping
import MessageBus.Proofs.Wire.Encode

namespace MessageBus

variable {admits : String → Prop} {policy : Policy}

/-! ## Results for each element -/

theorem mapM_eq_ok {ε α β : Type} {f : α → Except ε β} {xs : List α} {ys : List β} :
    xs.mapM f = .ok ys ↔ List.Forall₂ (fun x y => f x = .ok y) xs ys := by
  induction xs generalizing ys with
  | nil => simp [pure, Except.pure, eq_comm]
  | cons x xs ih =>
    rw [List.mapM_cons, bind_eq_ok]
    constructor
    · rintro ⟨y, hy, h⟩
      obtain ⟨ys, hys, h⟩ := bind_eq_ok.1 h
      cases h
      exact .cons hy (ih.1 hys)
    · rintro (_ | ⟨hy, hys⟩)
      exact ⟨_, hy, bind_eq_ok.2 ⟨_, ih.2 hys, rfl⟩⟩

theorem forall₂_imp_of_mem {α β : Type} {R S : α → β → Prop} {xs : List α} {ys : List β} (h : List.Forall₂ R xs ys)
    (himp : ∀ x ∈ xs, ∀ y, R x y → S x y) : List.Forall₂ S xs ys :=
  ((List.forall₂_and_left _ _).2 ⟨himp, h⟩).imp fun _ y h => h.1 y h.2

theorem forall₂_comp {α β γ : Type} {R : α → β → Prop} {S : β → γ → Prop} {xs : List α} {ys : List β} {zs : List γ}
    (h : List.Forall₂ R xs ys) (h' : List.Forall₂ S ys zs) : List.Forall₂ (fun x z => ∃ y, R x y ∧ S y z) xs zs := by
  induction h generalizing zs with
  | nil =>
    cases h'
    exact .nil
  | cons hxy _ ih =>
    cases h' with
    | cons hyz h' => exact .cons ⟨_, hxy, hyz⟩ (ih h')

theorem exists_of_mem_forall₂ {α β : Type} {R : α → β → Prop} {xs : List α} {ys : List β} (h : List.Forall₂ R xs ys)
    {x : α} (hx : x ∈ xs) : ∃ y ∈ ys, R x y := by
  induction h with
  | nil => cases hx
  | cons hfirst _ ih =>
    rcases List.mem_cons.1 hx with rfl | hx
    · exact ⟨_, List.mem_cons_self, hfirst⟩
    · obtain ⟨y, hy, h⟩ := ih hx
      exact ⟨y, List.mem_cons_of_mem _ hy, h⟩

theorem forall₂_replicate {α β : Type} {R : α → β → Prop} {x : α} {ys : List β} (h : ∀ y ∈ ys, R x y) :
    List.Forall₂ R (List.replicate ys.length x) ys := by
  refine List.forall₂_iff_zip.2 ⟨List.length_replicate, fun hpart => ?_⟩
  obtain ⟨hx, hy⟩ := List.of_mem_zip hpart
  exact List.eq_of_mem_replicate hx ▸ h _ hy

/-! ## Shapes and views -/

/-- scalars that cannot be told apart by reading them: an integer of any kind with the same number, a text of any kind -/
inductive Scalar.SeenAs : Scalar → Scalar → Prop where
  | int {kind kind' : IntKind} {bits : BitVec kind.width} {bits' : BitVec kind'.width}
      (h : kind'.toInt bits' = kind.toInt bits) : SeenAs (.int kind bits) (.int kind' bits')
  | boolean (value : Bool) : SeenAs (.boolean value) (.boolean value)
  | double (bits : BitVec 64) : SeenAs (.double bits) (.double bits)
  | text (kind kind' : TextKind) (value : String) : SeenAs (.text kind value) (.text kind' value)

theorem Scalar.SeenAs.refl : ∀ value : Scalar, value.SeenAs value
  | .int _ _ => .int rfl
  | .boolean value => .boolean value
  | .double bits => .double bits
  | .text kind value => .text kind kind value

namespace Shape

/-- the fields of a record that a dict has entries for -/
def present (fields : List (String × Shape)) : List (String × Shape) :=
  fields.filter fun field => match field.2 with
    | absent => false
    | _ => true

theorem present_cons (name : String) {field : Shape} (h : field ≠ absent) (fields : List (String × Shape)) :
    present ((name, field) :: fields) = (name, field) :: present fields := by
  cases field <;> first | rfl | exact absurd rfl h

/-- the map that a record is as a dict -/
def ofPresent (fields : List (String × Shape)) : Shape := .map ((present fields).map fun field => (string field.1, field.2))

/-- a view shows a shape: nothing is seen of what is absent -/
inductive SeenAs : Shape → View → Prop where
  | leaf {given seen : Scalar} (h : given.SeenAs seen) : SeenAs (.leaf given) (.scalar seen)
  | name (index : Nat) (name : String) (kind : TextKind) : SeenAs (.unitVariant index name) (.scalar (.text kind name))
  | index {index : Nat} (name : String) {kind : IntKind} {bits : BitVec kind.width} (hsigned : kind.isSigned = false)
      (h : bits.toNat = index % 2 ^ 32) : SeenAs (.unitVariant index name) (.scalar (.int kind bits))
  | seq {items : List Shape} {values : List Value} (h : List.Forall₂ SeenAs items (values.map Value.view)) :
      SeenAs (.seq items) (.seq values)
  | tuple {items : List Shape} {values : List Value} (h : List.Forall₂ SeenAs items (values.map Value.view)) :
      SeenAs (.tuple items) (.seq values)
  | map {shapes : List (Shape × Shape)} {entries : List (Value × Value)}
      (hkey : List.Forall₂ SeenAs (shapes.map (·.1)) (entries.map (·.1.view)))
      (hvalue : List.Forall₂ SeenAs (shapes.map (·.2)) (entries.map (·.2.view))) : SeenAs (.map shapes) (.map entries)
  | fields (name : String) {fields : List (String × Shape)} {values : List Value}
      (h : SeenAs (.tuple (fields.map (·.2))) (.seq values)) : SeenAs (.record name fields) (.seq values)
  | entries (name : String) {fields : List (String × Shape)} {entries : List (Value × Value)}
      (h : SeenAs (ofPresent fields) (.map entries)) : SeenAs (.record name fields) (.map entries)

theorem string_seenAs_iff {name : String} {view : View} :
    (string name).SeenAs view ↔ ∃ kind, view = .scalar (.text kind name) := by
  constructor
  · rintro (h | _)
    cases h with
    | text _ kind => exact ⟨kind, rfl⟩
  · rintro ⟨kind, rfl⟩
    exact .leaf (.text _ kind name)

theorem map_seenAs_iff {shapes : List (Shape × Shape)} {entries : List (Value × Value)} :
    (map shapes).SeenAs (.map entries) ↔
      List.Forall₂ (fun shape entry => shape.1.SeenAs entry.1.view ∧ shape.2.SeenAs entry.2.view) shapes entries := by
  have hkeys : List.Forall₂ SeenAs (shapes.map (·.1)) (entries.map (·.1.view)) ↔
      List.Forall₂ (fun shape entry => shape.1.SeenAs entry.1.view) shapes entries := by
    rw [List.forall₂_map_left_iff, List.forall₂_map_right_iff]
  have hvalues : List.Forall₂ SeenAs (shapes.map (·.2)) (entries.map (·.2.view)) ↔
      List.Forall₂ (fun shape entry => shape.2.SeenAs entry.2.view) shapes entries := by
    rw [List.forall₂_map_left_iff, List.forall₂_map_right_iff]
  constructor
  · intro h
    cases h with
    | map hkey hvalue =>
      exact List.Forall₂.mp (fun _ _ hkey hvalue => ⟨hkey, hvalue⟩) (hkeys.1 hkey) (hvalues.1 hvalue)
  · intro h
    exact .map (hkeys.2 (h.imp fun _ _ h => h.1)) (hvalues.2 (h.imp fun _ _ h => h.2))

/-- a record as a dict: a key for the name of each field that is there, with its value -/
theorem ofPresent_seenAs_iff {fields : List (String × Shape)} {entries : List (Value × Value)} :
    (ofPresent fields).SeenAs (.map entries) ↔
      List.Forall₂ (fun field entry => (∃ kind, entry.1.view = .scalar (.text kind field.1)) ∧ field.2.SeenAs entry.2.view)
        (present fields) entries := by
  rw [ofPresent, map_seenAs_iff, List.forall₂_map_left_iff]
  simp only [string_seenAs_iff]

/-- a variant with content is seen as an entry from its name to its content -/
theorem named_seen {name : String} {content : Shape} {view : View} (h : (named name content).SeenAs view) :
    ∃ tag value kind, view = .map [(tag, value)] ∧ tag.view = .scalar (.text kind name) ∧ content.SeenAs value.view := by
  rw [named] at h
  cases h with
  | @map _ entries hkey hvalue =>
    match entries, hkey, hvalue with
    | [(tag, value)], .cons hkey .nil, .cons hvalue .nil =>
      obtain ⟨kind, hkind⟩ := string_seenAs_iff.1 hkey
      exact ⟨tag, value, kind, rfl, hkind, hvalue⟩

/-! ## Types that are chosen -/

theorem unify_view (typed : List (Ty × Value)) : (unify typed).2.map Value.view = typed.map fun t => t.2.view := by
  cases typed with
  | nil => rfl
  | cons first rest =>
    simp only [unify]
    split_ifs
    · rw [List.map_map]
      rfl
    · rw [List.map_map]
      rfl

theorem inferAll_eq_mapM (items : List Shape) : inferAll policy items = items.mapM (infer policy) := by
  induction items with
  | nil => rfl
  | cons item items ih => rw [inferAll, ih, List.mapM_cons]

theorem inferAll_seenAs {items : List Shape} {typed : List (Ty × Value)}
    (hone : ∀ item ∈ items, ∀ t, item.infer policy = .ok t → item.SeenAs t.2.view)
    (h : inferAll policy items = .ok typed) : List.Forall₂ SeenAs items (typed.map fun t => t.2.view) := by
  rw [inferAll_eq_mapM, mapM_eq_ok] at h
  exact List.forall₂_map_right_iff.2 (forall₂_imp_of_mem h hone)

theorem inferEntries_seenAs {entries : List (Shape × Shape)} {given keyType : Option Ty}
    {typed : List (Value × Ty × Value)}
    (hkey : ∀ entry ∈ entries, ∀ t, entry.1.infer policy = .ok t → entry.1.SeenAs t.2.view)
    (hvalue : ∀ entry ∈ entries, ∀ t, entry.2.infer policy = .ok t → entry.2.SeenAs t.2.view)
    (h : inferEntries policy given entries = .ok (keyType, typed)) :
    List.Forall₂ (fun entry t => entry.1.SeenAs t.1.view ∧ entry.2.SeenAs t.2.2.view) entries typed := by
  induction entries generalizing given keyType typed with
  | nil =>
    cases h
    exact .nil
  | cons entry entries ih =>
    obtain ⟨hfirst, hkeys⟩ := List.forall_mem_cons.1 hkey
    obtain ⟨hcontent, hvalues⟩ := List.forall_mem_cons.1 hvalue
    obtain ⟨⟨type, key⟩, hinfer, h⟩ := bind_eq_ok.1 h
    simp only at h
    split_ifs at h
    obtain ⟨t, ht, h⟩ := bind_eq_ok.1 h
    obtain ⟨⟨keyType', typed'⟩, hrest, h⟩ := bind_eq_ok.1 h
    cases h
    exact .cons ⟨hfirst _ hinfer, hcontent t ht⟩ (ih hkeys hvalues hrest)

theorem dictOf_seenAs {entries : List (Shape × Shape)} {typed : List (Value × Ty × Value)} (keyType : Option Ty)
    (h : List.Forall₂ (fun entry t => entry.1.SeenAs t.1.view ∧ entry.2.SeenAs t.2.2.view) entries typed) :
    (Shape.map entries).SeenAs (dictOf keyType typed).2.view := by
  have hview := unify_view (typed.map (·.2))
  have hlen : (typed.map (·.1)).length = (unify (typed.map (·.2))).2.length := by
    simpa using (congrArg List.length hview).symm
  -- the values may be in variants now, but they look the same
  have hkeys : ((typed.map (·.1)).zip (unify (typed.map (·.2))).2).map (·.1.view) = typed.map (·.1.view) := by
    have := congrArg (List.map Value.view) (List.map_fst_zip hlen.le)
    rwa [List.map_map, List.map_map] at this
  have hvalues : ((typed.map (·.1)).zip (unify (typed.map (·.2))).2).map (·.2.view) = typed.map (·.2.2.view) := by
    have := congrArg (List.map Value.view) (List.map_snd_zip hlen.ge)
    rwa [hview, List.map_map, List.map_map] at this
  have hkey : List.Forall₂ SeenAs (entries.map (·.1)) (typed.map (·.1.view)) :=
    List.forall₂_map_left_iff.2 (List.forall₂_map_right_iff.2 (h.imp fun _ _ h => h.1))
  have hvalue : List.Forall₂ SeenAs (entries.map (·.2)) (typed.map (·.2.2.view)) :=
    List.forall₂_map_left_iff.2 (List.forall₂_map_right_iff.2 (h.imp fun _ _ h => h.2))
  exact .map (hkeys ▸ hkey) (hvalues ▸ hvalue)

theorem inferAll_struct_seenAs {items : List Shape} {typed : List (Ty × Value)}
    (hone : ∀ item ∈ items, ∀ t, item.infer policy = .ok t → item.SeenAs t.2.view)
    (h : inferAll policy items = .ok typed) : (tuple items).SeenAs (.seq (typed.map (·.2))) := by
  refine .tuple ?_
  rw [List.map_map]
  exact inferAll_seenAs hone h

theorem inferPresent_eq_mapM (fields : List (String × Shape)) :
    inferPresent policy fields = (present fields).mapM fun field => do
      let t ← field.2.infer policy
      return (.string field.1, .variant t.1 t.2) := by
  induction fields with
  | nil => rfl
  | cons field fields ih =>
    obtain ⟨name, field⟩ := field
    by_cases habsent : field = absent
    · subst habsent
      exact ih
    · rw [inferPresent_cons name habsent, ih, present_cons name habsent, List.mapM_cons, bind_assoc]
      rfl

/-- **A value whose type is chosen for a shape is seen as that shape.** -/
theorem infer_seenAs {shape : Shape} (hshape : shape.Admitted admits) {t : Ty × Value} (h : shape.infer policy = .ok t) :
    shape.SeenAs t.2.view := by
  induction hshape generalizing t with
  | absent => cases h
  | @leaf value _ =>
    cases h
    exact .leaf (.refl value)
  | unitVariant index _ =>
    cases h
    exact .name index _ .string
  | seq _ ih =>
    obtain ⟨typed, htyped, h⟩ := bind_eq_ok.1 h
    cases h
    exact .seq (unify_view typed ▸ inferAll_seenAs (fun item hitem t => ih item hitem) htyped)
  | tuple _ ih =>
    rw [infer] at h
    split_ifs at h
    obtain ⟨typed, htyped, h⟩ := bind_eq_ok.1 h
    cases h
    exact inferAll_struct_seenAs (fun item hitem t => ih item hitem) htyped
  | map _ _ ihkey ihvalue =>
    obtain ⟨⟨keyType, typed⟩, htyped, h⟩ := bind_eq_ok.1 h
    cases h
    exact dictOf_seenAs keyType (inferEntries_seenAs (fun e he t => ihkey e he) (fun e he t => ihvalue e he) htyped)
  | record name _ _ ih =>
    rw [infer] at h
    split at h
    · obtain ⟨entries, hentries, h⟩ := bind_eq_ok.1 h
      cases h
      rw [inferPresent_eq_mapM, mapM_eq_ok] at hentries
      refine .entries name (ofPresent_seenAs_iff.2 (forall₂_imp_of_mem hentries fun field hfield entry hentry => ?_))
      obtain ⟨t, ht, hentry⟩ := bind_eq_ok.1 hentry
      cases hentry
      exact ⟨⟨.string, rfl⟩, ih field (List.mem_of_mem_filter hfield) ht⟩
    · split_ifs at h
      obtain ⟨typed, htyped, h⟩ := bind_eq_ok.1 h
      cases h
      rw [inferFields_eq] at htyped
      refine .fields name (inferAll_struct_seenAs (fun item hitem t ht => ?_) htyped)
      obtain ⟨field, hfield, rfl⟩ := List.mem_map.1 hitem
      exact ih field hfield ht

/-! ## Types that are asked for -/

/-- a type is asked for a part of a shape when another is asked for the shape -/
inductive Meets : Ty → Shape → Ty → Shape → Prop where
  | element {element : Ty} {items : List Shape} {item : Shape} (h : item ∈ items) :
      Meets (.array element) (.seq items) element item
  | elementOfTuple {element : Ty} {items : List Shape} {item : Shape} (h : item ∈ items) :
      Meets (.array element) (.tuple items) element item
  | field {types : List Ty} {items : List Shape} {type : Ty} {item : Shape} (h : (type, item) ∈ types.zip items) :
      Meets (.struct types) (.seq items) type item
  | fieldOfTuple {types : List Ty} {items : List Shape} {type : Ty} {item : Shape} (h : (type, item) ∈ types.zip items) :
      Meets (.struct types) (.tuple items) type item
  | fieldOfRecord {types : List Ty} {name : String} {fields : List (String × Shape)} {type : Ty} {item : Shape}
      (h : (type, item) ∈ types.zip (fields.map (·.2))) : Meets (.struct types) (.record name fields) type item
  | key {key value : Ty} {entries : List (Shape × Shape)} {entry : Shape × Shape} (h : entry ∈ entries) :
      Meets (.array (.dictEntry key value)) (.map entries) key entry.1
  | value {key value : Ty} {entries : List (Shape × Shape)} {entry : Shape × Shape} (h : entry ∈ entries) :
      Meets (.array (.dictEntry key value)) (.map entries) value entry.2
  | valueOfRecord {key value : Ty} {name : String} {fields : List (String × Shape)} {field : String × Shape}
      (h : field ∈ fields) : Meets (.array (.dictEntry key value)) (.record name fields) value field.2

/-- a shape, or a part of it, becomes something else than it looks like: a sequence of pairs a dict, or the index of a
variant a signed integer -/
inductive Strays : Ty → Shape → Prop where
  | pairs (key value : Ty) (items : List Shape) : Strays (.array (.dictEntry key value)) (.seq items)
  | index {kind : IntKind} (hsigned : kind.isSigned = true) (index : Nat) (name : String) :
      Strays (.basic (.int kind)) (.unitVariant index name)
  | inside {type part : Ty} {shape item : Shape} (hmeets : Meets type shape part item) (h : Strays part item) :
      Strays type shape

theorem not_strays_leaf (type : Ty) (value : Scalar) : ¬Strays type (.leaf value) := by
  intro h
  cases h with
  | inside hmeets => cases hmeets

/-- inside of a variant nothing strays, since its type is chosen -/
theorem not_strays_variant (shape : Shape) : ¬Strays .variant shape := by
  intro h
  cases h with
  | inside hmeets => cases hmeets

theorem toInt_of_ofInt? {kind : IntKind} {n : Int} {bits : BitVec kind.width} (h : kind.ofInt? n = some bits) :
    kind.toInt bits = n := by
  simp only [IntKind.ofInt?] at h
  split_ifs at h with hn
  cases h
  exact hn

theorem convert_seenAs {given result : Scalar} {type : Basic} (h : given.convert type = .ok result) :
    given.SeenAs result := by
  unfold Scalar.convert at h
  simp only at h
  split at h
  · obtain ⟨bits, hbits, h⟩ := bind_eq_ok.1 h
    cases h
    obtain ⟨n, hn, hbits⟩ := Option.bind_eq_some_iff.1 (Wire.toWord_eq_ok_iff.1 hbits)
    cases given with
    | int kind given =>
      cases hn
      exact .int (toInt_of_ofInt? hbits)
    | _ => cases hn
  · cases h
    exact .boolean _
  · cases h
    exact .double _
  · cases h
    exact .text _ _ _
  · obtain ⟨_, _, h⟩ := bind_eq_ok.1 h
    cases h
    exact .text _ _ _
  · obtain ⟨_, _, h⟩ := bind_eq_ok.1 h
    cases h
    exact .text _ _ _
  · cases h

/-- an index that is written as an integer of an unsigned kind is found in its bits -/
theorem index_seenAs {index : Nat} {name : String} {type : Basic} {result : Scalar}
    (hstray : ¬Strays (.basic type) (.unitVariant index name))
    (h : (Scalar.int .uint32 (BitVec.ofNat 32 index)).convert type = .ok result) :
    (unitVariant index name).SeenAs (.scalar result) := by
  obtain ⟨htype, -⟩ := convert_valid (show Scalar.ValidBy (fun _ => True) (.int .uint32 _) from trivial) h
  cases convert_seenAs h with
  | @int _ kind' _ bits' hbits =>
    have hsigned : kind'.isSigned = false := by
      by_contra hsigned
      obtain rfl : type = .int kind' := htype.symm
      exact hstray (.index (by simpa using hsigned) index name)
    refine .index name hsigned ?_
    -- both the word that is given and the one that is made stand for themselves
    have hnat : (bits'.toNat : Int) = ((BitVec.ofNat 32 index).toNat : Int) := by
      rw [IntKind.toInt, hsigned] at hbits
      exact hbits
    rw [Int.natCast_inj.1 hnat, BitVec.toNat_ofNat]

/-- whatever values of a type are made of shapes are seen as these, unless something strays -/
def Shows (admits : String → Prop) (policy : Policy) (type : Ty) : Prop :=
  ∀ (shape : Shape) (value : Value), shape.Admitted admits → shape.realize policy type = .ok value →
    ¬Strays type shape → shape.SeenAs value.view

theorem realizeAll_eq_mapM (type : Ty) (items : List Shape) :
    realizeAll policy type items = items.mapM (realize policy type) := by
  induction items with
  | nil => rfl
  | cons item items ih => rw [realizeAll, ih, List.mapM_cons]

theorem realizeItems_eq_mapM (types : List Ty) (items : List Shape) :
    realizeItems policy types items = (types.zip items).mapM fun part => part.2.realize policy part.1 := by
  induction types generalizing items with
  | nil => cases items <;> rfl
  | cons type types ih =>
    cases items with
    | nil => rfl
    | cons item items => rw [realizeItems, ih, List.zip_cons_cons, List.mapM_cons]

theorem realizeEntries_eq_mapM (key value : Ty) (entries : List (Shape × Shape)) :
    realizeEntries policy key value entries = entries.mapM fun entry => do
      let k ← entry.1.realize policy key
      return (k, ← entry.2.realize policy value) := by
  induction entries with
  | nil => rfl
  | cons entry entries ih =>
    rw [realizeEntries, ih, List.mapM_cons, bind_assoc]
    simp only [bind_assoc, pure_bind]

theorem realizePresent_eq_mapM (key value : Ty) (fields : List (String × Shape)) :
    realizePresent policy key value fields = (present fields).mapM fun field => do
      let k ← realizeName key field.1
      return (k, ← field.2.realize policy value) := by
  induction fields with
  | nil => rfl
  | cons field fields ih =>
    obtain ⟨name, field⟩ := field
    by_cases habsent : field = absent
    · subst habsent
      exact ih
    · rw [realizePresent_cons name habsent, ih, present_cons name habsent, List.mapM_cons, bind_assoc]
      simp only [bind_assoc, pure_bind]

theorem realizeEntries_parts {key value : Ty} {entries : List (Shape × Shape)} {made : List (Value × Value)}
    (h : realizeEntries policy key value entries = .ok made) :
    List.Forall₂ (fun entry e => entry.1.realize policy key = .ok e.1 ∧ entry.2.realize policy value = .ok e.2)
      entries made := by
  rw [realizeEntries_eq_mapM, mapM_eq_ok] at h
  refine h.imp fun entry e h => ?_
  obtain ⟨k, hk, h⟩ := bind_eq_ok.1 h
  obtain ⟨v, hv, h⟩ := bind_eq_ok.1 h
  cases h
  exact ⟨hk, hv⟩

/-- the key of a field is its name, whatever kind of text it becomes -/
theorem realizePresent_parts {key : Basic} {value : Ty} {fields : List (String × Shape)} {made : List (Value × Value)}
    (h : realizePresent policy (.basic key) value fields = .ok made) :
    List.Forall₂ (fun field e => (∃ kind, e.1.view = .scalar (.text kind field.1)) ∧ field.2.realize policy value = .ok e.2)
      (present fields) made := by
  rw [realizePresent_eq_mapM, mapM_eq_ok] at h
  refine h.imp fun field e h => ?_
  obtain ⟨k, hk, h⟩ := bind_eq_ok.1 h
  obtain ⟨v, hv, h⟩ := bind_eq_ok.1 h
  cases h
  obtain ⟨result, hresult, hk⟩ := bind_eq_ok.1 hk
  cases hk
  exact ⟨string_seenAs_iff.1 (.leaf (convert_seenAs hresult)), hv⟩

theorem realizeAll_seenAs {element : Ty} (hone : Shows admits policy element) {items : List Shape} {values : List Value}
    (hitems : ∀ item ∈ items, item.Admitted admits) (hstray : ∀ item ∈ items, ¬Strays element item)
    (h : realizeAll policy element items = .ok values) : List.Forall₂ SeenAs items (values.map Value.view) := by
  rw [realizeAll_eq_mapM, mapM_eq_ok] at h
  exact List.forall₂_map_right_iff.2 (forall₂_imp_of_mem h fun item hitem value hvalue =>
    hone item value (hitems item hitem) hvalue (hstray item hitem))

theorem realizeItems_seenAs {types : List Ty} (hone : ∀ type ∈ types, Shows admits policy type) {items : List Shape}
    {values : List Value} (hitems : ∀ item ∈ items, item.Admitted admits)
    (hstray : ∀ part ∈ types.zip items, ¬Strays part.1 part.2) (hlen : types.length = items.length)
    (h : realizeItems policy types items = .ok values) : List.Forall₂ SeenAs items (values.map Value.view) := by
  rw [realizeItems_eq_mapM, mapM_eq_ok] at h
  rw [← List.map_snd_zip hlen.ge, List.forall₂_map_left_iff, List.forall₂_map_right_iff]
  refine forall₂_imp_of_mem h fun part hpart value hvalue => ?_
  obtain ⟨htype, hitem⟩ := List.of_mem_zip hpart
  exact hone _ htype _ value (hitems _ hitem) hvalue (hstray part hpart)

theorem shows_basic (type : Basic) : Shows admits policy (.basic type) := by
  intro shape value hshape h hstray
  cases hshape with
  | leaf _ =>
    obtain ⟨result, hresult, h⟩ := bind_eq_ok.1 h
    cases h
    exact .leaf (convert_seenAs hresult)
  | unitVariant index _ =>
    by_cases hstring : type = .text .string
    · subst hstring
      cases h
      exact .name index _ .string
    · rw [realize_index hstring] at h
      obtain ⟨result, hresult, h⟩ := bind_eq_ok.1 h
      cases h
      exact index_seenAs hstray hresult
  | _ => cases h

theorem shows_variant : Shows admits policy .variant := by
  intro shape value hshape h _
  have hinfer : shape.realize policy .variant = do
      let t ← shape.infer policy
      return .variant t.1 t.2 := by cases shape <;> rfl
  rw [hinfer] at h
  obtain ⟨t, ht, h⟩ := bind_eq_ok.1 h
  cases h
  exact infer_seenAs hshape ht

theorem shows_array {element : Ty} (hs : element.Shaped) (hone : Shows admits policy element) :
    Shows admits policy (.array element) := by
  intro shape value hshape h hstray
  have hall {items : List Shape} (hitems : ∀ item ∈ items, item.Admitted admits)
      (hin : ∀ item ∈ items, Meets (.array element) shape element item)
      (h : (do return .array (← realizeAll policy element items)) = Except.ok value) :
      ∃ values, value = .array values ∧ List.Forall₂ SeenAs items (values.map Value.view) := by
    obtain ⟨values, hvalues, h⟩ := bind_eq_ok.1 h
    cases h
    exact ⟨values, rfl, realizeAll_seenAs hone hitems (fun item hitem h => hstray (.inside (hin item hitem) h)) hvalues⟩
  cases hshape with
  | seq hitems =>
    obtain ⟨values, rfl, hseen⟩ := hall hitems (fun _ => .element) (by cases hs <;> exact h)
    exact .seq hseen
  | tuple hitems =>
    obtain ⟨values, rfl, hseen⟩ := hall hitems (fun _ => .elementOfTuple) (by cases hs <;> exact h)
    exact .tuple hseen
  | _ => cases hs <;> cases h

theorem shows_dict (key : Basic) {content : Ty} (hone : Shows admits policy content) :
    Shows admits policy (.array (.dictEntry (.basic key) content)) := by
  intro shape value hshape h hstray
  cases hshape with
  | map hkeys hvalues =>
    obtain ⟨made, hmade, h⟩ := bind_eq_ok.1 h
    cases h
    refine map_seenAs_iff.2 (forall₂_imp_of_mem (realizeEntries_parts hmade) fun entry hentry e ⟨hk, hv⟩ => ?_)
    exact ⟨shows_basic key _ e.1 (hkeys entry hentry) hk fun h => hstray (.inside (.key hentry) h),
      hone _ e.2 (hvalues entry hentry) hv fun h => hstray (.inside (.value hentry) h)⟩
  | record name hnames hfields =>
    obtain ⟨made, hmade, h⟩ := bind_eq_ok.1 h
    cases h
    have hparts := realizePresent_parts hmade
    refine .entries name (ofPresent_seenAs_iff.2 (forall₂_imp_of_mem hparts fun field hfield e ⟨hk, hv⟩ => ?_))
    have hin := List.mem_of_mem_filter hfield
    exact ⟨hk, hone _ e.2 (hfields field hin) hv fun h => hstray (.inside (.valueOfRecord hin) h)⟩
  | seq => exact absurd (.pairs ..) hstray
  | _ => cases h

theorem shows_struct {types : List Ty} (hone : ∀ type ∈ types, Shows admits policy type) :
    Shows admits policy (.struct types) := by
  intro shape value hshape h hstray
  have hall {items : List Shape} (hitems : ∀ item ∈ items, item.Admitted admits)
      (hin : ∀ part ∈ types.zip items, Meets (.struct types) shape part.1 part.2)
      (h : (if types.length = items.length then do return .struct (← realizeItems policy types items)
        else .error (misfit (.struct types) "struct with a different number of fields")) = Except.ok value) :
      ∃ values, value = .struct values ∧ List.Forall₂ SeenAs items (values.map Value.view) := by
    split_ifs at h with hlen
    obtain ⟨values, hvalues, h⟩ := bind_eq_ok.1 h
    cases h
    have hparts : ∀ part ∈ types.zip items, ¬Strays part.1 part.2 := fun part hpart h =>
      hstray (.inside (hin part hpart) h)
    exact ⟨values, rfl, realizeItems_seenAs hone hitems hparts hlen hvalues⟩
  cases hshape with
  | seq hitems =>
    obtain ⟨values, rfl, hseen⟩ := hall hitems (fun _ => .field) h
    exact .seq hseen
  | tuple hitems =>
    obtain ⟨values, rfl, hseen⟩ := hall hitems (fun _ => .fieldOfTuple) h
    exact .tuple hseen
  | record name hnames hfields =>
    obtain ⟨values, rfl, hseen⟩ := hall (List.forall_mem_map.2 hfields) (fun _ => .fieldOfRecord) (by
      rw [List.length_map, ← realizeFields_eq]
      exact h)
    exact .fields name (.tuple hseen)
  | _ => cases h

/-- **A value made for a type is seen as its shape, unless something strays.** -/
theorem realize_seenAs {type : Ty} (hs : type.Shaped) : Shows admits policy type := by
  induction hs with
  | basic type => exact shows_basic type
  | variant => exact shows_variant
  | array hs ih => exact shows_array hs ih
  | dict key hs ih => exact shows_dict key ih
  | struct hne hs ih => exact shows_struct ih

end Shape

/-! ## Data -/

namespace Datum

theorem shapeAll_eq_mapM (data : List Datum) : shapeAll data = data.mapM shape := by
  induction data with
  | nil => rfl
  | cons datum data ih => rw [shapeAll, ih, List.mapM_cons]

theorem shapeFields_eq_mapM (fields : List (String × Datum)) :
    shapeFields fields = fields.mapM fun field => do return (field.1, ← field.2.shape) := by
  induction fields with
  | nil => rfl
  | cons field fields ih =>
    rw [shapeFields, ih, List.mapM_cons]
    simp only [bind_assoc, pure_bind]

theorem shapeEntries_eq_mapM (entries : List (Datum × Datum)) :
    shapeEntries entries = entries.mapM fun entry => do
      let key ← entry.1.shape
      return (key, ← entry.2.shape) := by
  induction entries with
  | nil => rfl
  | cons entry entries ih =>
    rw [shapeEntries, ih, List.mapM_cons]
    simp only [bind_assoc, pure_bind]

theorem shapeFields_parts {fields : List (String × Datum)} {shapes : List (String × Shape)} (h : shapeFields fields = .ok shapes) :
    List.Forall₂ (fun field shape => field.1 = shape.1 ∧ field.2.shape = .ok shape.2) fields shapes := by
  rw [shapeFields_eq_mapM, mapM_eq_ok] at h
  refine h.imp fun field shape h => ?_
  obtain ⟨s, hs, h⟩ := bind_eq_ok.1 h
  cases h
  exact ⟨rfl, hs⟩

theorem shapeEntries_parts {entries : List (Datum × Datum)} {shapes : List (Shape × Shape)}
    (h : shapeEntries entries = .ok shapes) :
    List.Forall₂ (fun entry shape => entry.1.shape = .ok shape.1 ∧ entry.2.shape = .ok shape.2) entries shapes := by
  rw [shapeEntries_eq_mapM, mapM_eq_ok] at h
  refine h.imp fun entry shape h => ?_
  obtain ⟨k, hk, h⟩ := bind_eq_ok.1 h
  obtain ⟨v, hv, h⟩ := bind_eq_ok.1 h
  cases h
  exact ⟨hk, hv⟩

/-- a view shows all of a datum -/
def SeenAs (datum : Datum) (view : View) : Prop := ∃ shape, datum.shape = .ok shape ∧ shape.SeenAs view

/-- values that are seen as data, one for each -/
abbrev AllSeen (data : List Datum) (values : List Value) : Prop :=
  List.Forall₂ (fun datum value => datum.SeenAs value.view) data values

/-- a dict has no entry for the datum -/
def isLeftOut (datum : Datum) : Bool :=
  match datum.shape with
  | .ok .absent => true
  | _ => false

theorem isLeftOut_iff {datum : Datum} : datum.isLeftOut = true ↔ datum.shape = .ok .absent := by
  rw [isLeftOut]
  split <;> simp_all

/-- entries that are seen as fields, one for each that is not left out -/
abbrev EntriesSeen (fields : List (String × Datum)) (entries : List (Value × Value)) : Prop :=
  List.Forall₂ (fun field entry => (∃ kind, entry.1.view = .scalar (.text kind field.1)) ∧ field.2.SeenAs entry.2.view)
    (fields.filter fun field => !field.2.isLeftOut) entries

variable {view : View}

theorem allSeen_of_shapeAll {data : List Datum} {shapes : List Shape} {values : List Value}
    (hshapes : shapeAll data = .ok shapes) (h : List.Forall₂ Shape.SeenAs shapes (values.map Value.view)) :
    AllSeen data values := by
  rw [shapeAll_eq_mapM, mapM_eq_ok] at hshapes
  exact forall₂_comp hshapes (List.forall₂_map_right_iff.1 h)

theorem leaf_seen {datum : Datum} {given : Scalar} (h : datum.SeenAs view)
    (hshape : datum.shape = .ok (.leaf given)) : ∃ seen, view = .scalar seen ∧ given.SeenAs seen := by
  obtain ⟨shape, hshape', h⟩ := h
  obtain rfl : shape = .leaf given := by rw [hshape] at hshape'; cases hshape'; rfl
  cases h with
  | leaf h => exact ⟨_, rfl, h⟩

theorem seq_seen {data : List Datum} (h : (seq data).SeenAs view) : ∃ values, view = .seq values ∧ AllSeen data values := by
  obtain ⟨_, hshape, h⟩ := h
  obtain ⟨shapes, hshapes, hshape⟩ := bind_eq_ok.1 hshape
  cases hshape
  cases h with
  | seq h => exact ⟨_, rfl, allSeen_of_shapeAll hshapes h⟩

theorem tuple_seen {data : List Datum} (h : (tuple data).SeenAs view) :
    ∃ values, view = .seq values ∧ AllSeen data values := by
  obtain ⟨_, hshape, h⟩ := h
  obtain ⟨shapes, hshapes, hshape⟩ := bind_eq_ok.1 hshape
  cases hshape
  cases h with
  | tuple h => exact ⟨_, rfl, allSeen_of_shapeAll hshapes h⟩

theorem map_seen {entries : List (Datum × Datum)} (h : (map entries).SeenAs view) :
    ∃ seen, view = .map seen ∧
      List.Forall₂ (fun entry made => entry.1.SeenAs made.1.view ∧ entry.2.SeenAs made.2.view) entries seen := by
  obtain ⟨_, hshape, h⟩ := h
  obtain ⟨shapes, hshapes, hshape⟩ := bind_eq_ok.1 hshape
  cases hshape
  cases h with
  | map hkey hvalue =>
    have hparts := forall₂_comp (shapeEntries_parts hshapes) (Shape.map_seenAs_iff.1 (.map hkey hvalue))
    refine ⟨_, rfl, hparts.imp fun entry made h => ?_⟩
    obtain ⟨shape, ⟨hk, hv⟩, hseen⟩ := h
    exact ⟨⟨shape.1, hk, hseen.1⟩, ⟨shape.2, hv, hseen.2⟩⟩

/-- a record is seen as its fields in order, or as entries for those that are not left out -/
theorem record_seen {name : String} {fields : List (String × Datum)} (h : (record name fields).SeenAs view) :
    (∃ values, view = .seq values ∧ AllSeen (fields.map (·.2)) values) ∨
      ∃ entries, view = .map entries ∧ EntriesSeen fields entries := by
  obtain ⟨_, hshape, h⟩ := h
  obtain ⟨shapes, hshapes, hshape⟩ := bind_eq_ok.1 hshape
  cases hshape
  have hfields := shapeFields_parts hshapes
  cases h with
  | fields _ h =>
    cases h with
    | tuple h =>
      refine .inl ⟨_, rfl, List.forall₂_map_left_iff.2 ?_⟩
      rw [List.forall₂_map_left_iff, List.forall₂_map_right_iff] at h
      refine (forall₂_comp hfields h).imp fun field value h => ?_
      obtain ⟨shape, ⟨-, hshape⟩, hseen⟩ := h
      exact ⟨shape.2, hshape, hseen⟩
  | entries _ h =>
    refine .inr ⟨_, rfl, ?_⟩
    have hpresent : List.Forall₂ (fun field shape => field.1 = shape.1 ∧ field.2.shape = .ok shape.2)
        (fields.filter fun field => !field.2.isLeftOut) (Shape.present shapes) := by
      refine List.rel_filter (fun field shape h => ?_) hfields
      obtain ⟨-, hshape⟩ := h
      cases hs : shape.2 <;> simp [isLeftOut, hshape, hs]
    refine (forall₂_comp hpresent (Shape.ofPresent_seenAs_iff.1 h)).imp fun field entry h => ?_
    obtain ⟨shape, ⟨hname, hshape⟩, hkey, hseen⟩ := h
    exact ⟨hname ▸ hkey, shape.2, hshape, hseen⟩

variable {type name : String} {index : Nat}

theorem newtypeVariant_seen {content : Datum} (h : (newtypeVariant type index name content).SeenAs view) :
    ∃ tag value kind, view = .map [(tag, value)] ∧ tag.view = .scalar (.text kind name) ∧ content.SeenAs value.view := by
  obtain ⟨_, hshape, h⟩ := h
  obtain ⟨shape, hcontent, hshape⟩ := bind_eq_ok.1 hshape
  cases hshape
  obtain ⟨tag, value, kind, hview, htag, hseen⟩ := Shape.named_seen h
  exact ⟨tag, value, kind, hview, htag, shape, hcontent, hseen⟩

theorem tupleVariant_seen {items : List Datum} (h : (tupleVariant type index name items).SeenAs view) :
    ∃ tag value kind, view = .map [(tag, value)] ∧ tag.view = .scalar (.text kind name) ∧
      (tuple items).SeenAs value.view := by
  obtain ⟨_, hshape, h⟩ := h
  obtain ⟨shapes, hcontent, hshape⟩ := bind_eq_ok.1 hshape
  cases hshape
  obtain ⟨tag, value, kind, hview, htag, hseen⟩ := Shape.named_seen h
  exact ⟨tag, value, kind, hview, htag, .tuple shapes, bind_eq_ok.2 ⟨shapes, hcontent, rfl⟩, hseen⟩

theorem recordVariant_seen {fields : List (String × Datum)} (h : (recordVariant type index name fields).SeenAs view) :
    ∃ tag value kind, view = .map [(tag, value)] ∧ tag.view = .scalar (.text kind name) ∧
      (record name fields).SeenAs value.view := by
  obtain ⟨_, hshape, h⟩ := h
  obtain ⟨shapes, hcontent, hshape⟩ := bind_eq_ok.1 hshape
  cases hshape
  obtain ⟨tag, value, kind, hview, htag, hseen⟩ := Shape.named_seen h
  exact ⟨tag, value, kind, hview, htag, .record name shapes, bind_eq_ok.2 ⟨shapes, hcontent, rfl⟩, hseen⟩

end Datum

end MessageBus
