/-
Reading what was written to a given type.

What a datum becomes as a value of a type that is asked for is read back by its schema, whatever the type makes of it, but for
two cases (`Shape.strays_iff`): a sequence became a dict (`Shape.AsDict`), or an index of a variant a signed integer
(`Shape.AsSigned`). A dict is read as a map only, and a reader that succeeds has read every part of a value. So where some
sequence became a dict, all of the reading fails, and nothing else is read instead (`Datum.read_toValue`). Pairs that became
a dict are the same value as the map of them, and read back as that (`Datum.toValue_pairs`).
-/
import Mathlib
import MessageBus.Proofs.Data.Arguments
import MessageBus.Proofs.Ty.Scan

namespace MessageBus

variable {policy : Policy}

/-! ## Readers that succeed -/

namespace Reading

/-- items are read if there are enough of them and each is read, however the error would have named them -/
theorem items_eq_ok_iff {expected : String} {readers : List DatumReader} {values : List Value} {data : List Datum} :
    items expected readers values = .ok data ↔ readers.length ≤ values.length ∧
      List.Forall₂ (fun part datum => part.1 (.value part.2) = .ok datum) (readers.zip values) data := by
  have hgo : ∀ done data, items.go expected done readers values = .ok data ↔ readers.length ≤ values.length ∧
      List.Forall₂ (fun part datum => part.1 (.value part.2) = .ok datum) (readers.zip values) data := by
    induction readers generalizing values with
    | nil => simp [items.go, eq_comm]
    | cons reader readers ih =>
      cases values with
      | nil => simp [items.go]
      | cons value values =>
        intro done data
        rw [items.go, bind_eq_ok, List.length_cons, List.length_cons, Nat.succ_le_succ_iff, List.zip_cons_cons,
          List.forall₂_cons_left_iff]
        constructor
        · rintro ⟨datum, hdatum, h⟩
          obtain ⟨rest, hrest, h⟩ := bind_eq_ok.1 h
          cases h
          obtain ⟨hlen, hrest⟩ := (ih _ _).1 hrest
          exact ⟨hlen, datum, rest, hdatum, hrest, rfl⟩
        · rintro ⟨hlen, datum, rest, hdatum, hrest, rfl⟩
          exact ⟨datum, hdatum, bind_eq_ok.2 ⟨rest, (ih _ _).2 ⟨hlen, hrest⟩, rfl⟩⟩
  exact hgo 0 data

theorem fieldsOfSeq_eq_ok_iff {expected : String} {fields : List FieldReader} {values : List Value}
    {data : List (String × Datum)} (hdefault : ∀ field ∈ fields, field.default = none) :
    fieldsOfSeq expected fields values = .ok data ↔ fields.length ≤ values.length ∧
      List.Forall₂ (fun part entry => part.1.read (.value part.2) = .ok entry.2 ∧ part.1.name = entry.1)
        (fields.zip values) data := by
  have hgo : ∀ done data, fieldsOfSeq.go expected done fields values = .ok data ↔ fields.length ≤ values.length ∧
      List.Forall₂ (fun part entry => part.1.read (.value part.2) = .ok entry.2 ∧ part.1.name = entry.1)
        (fields.zip values) data := by
    induction fields generalizing values with
    | nil => simp [fieldsOfSeq.go, eq_comm]
    | cons field fields ih =>
      obtain ⟨hfield, hdefault⟩ := List.forall_mem_cons.1 hdefault
      cases values with
      | nil => simp [fieldsOfSeq.go, hfield]
      | cons value values =>
        intro done data
        rw [fieldsOfSeq.go, bind_eq_ok, List.length_cons, List.length_cons, Nat.succ_le_succ_iff, List.zip_cons_cons,
          List.forall₂_cons_left_iff]
        constructor
        · rintro ⟨datum, hdatum, h⟩
          obtain ⟨rest, hrest, h⟩ := bind_eq_ok.1 h
          cases h
          obtain ⟨hlen, hrest⟩ := (ih hdefault _ _).1 hrest
          exact ⟨hlen, (field.name, datum), rest, ⟨hdatum, rfl⟩, hrest, rfl⟩
        · rintro ⟨hlen, ⟨_, datum⟩, rest, ⟨hdatum, rfl⟩, hrest, rfl⟩
          exact ⟨datum, hdatum, bind_eq_ok.2 ⟨rest, (ih hdefault _ _).2 ⟨hlen, hrest⟩, rfl⟩⟩
  exact hgo 0 data

/-- a record is read all the same under another title -/
theorem record_ok {title : String} {fields : List FieldReader} {closed : Bool} {view : View} {data : List (String × Datum)}
    (hdefault : ∀ field ∈ fields, field.default = none) (h : record title fields closed view = .ok data)
    (title' : String) : record title' fields closed view = .ok data := by
  cases view with
  | scalar => cases h
  | map => exact h
  | seq values => exact (fieldsOfSeq_eq_ok_iff hdefault).2 ((fieldsOfSeq_eq_ok_iff hdefault).1 h)

/-- an entry with the name of a field is read as that field -/
theorem read_of_fieldsOfMap {fields : List FieldReader} {closed : Bool} {entries : List (Value × Value)}
    {found result : List (Option Datum)} (hnames : (fields.map (·.name)).Nodup)
    (h : fieldsOfMap fields closed entries found = .ok result) {entry : Value × Value} (hentry : entry ∈ entries)
    {field : FieldReader} (hfield : field ∈ fields) {kind : TextKind} (hkey : entry.1.view = .scalar (.text kind field.name)) :
    ∃ datum, field.read (.value entry.2) = .ok datum := by
  induction entries generalizing found with
  | nil => cases hentry
  | cons first entries ih =>
    obtain ⟨place, hplace, h⟩ := bind_eq_ok.1 h
    rcases List.mem_cons.1 hentry with rfl | hentry
    · obtain ⟨index, hindex⟩ := List.mem_iff_getElem?.1 hfield
      have hname : (fields.map (·.name))[index]? = some field.name := by rw [List.getElem?_map, hindex, Option.map_some]
      rw [hkey, identifier_name hnames hname] at hplace
      cases hplace
      simp only [hindex] at h
      split at h
      · next heq _ =>
          cases heq
          obtain ⟨datum, hdatum, -⟩ := bind_eq_ok.1 h
          exact ⟨datum, hdatum⟩
      · cases h
      · next hnone => cases hnone
    · -- whatever became of the first entry, the others were read as well
      have hrest : ∃ found, fieldsOfMap fields closed entries found = .ok result := by
        cases place with
        | none =>
          simp only at h
          split_ifs at h
          exact ⟨_, h⟩
        | some place =>
          simp only at h
          split at h
          · obtain ⟨datum, -, h⟩ := bind_eq_ok.1 h
            exact ⟨_, h⟩
          · cases h
          · exact ⟨_, h⟩
      obtain ⟨found, hrest⟩ := hrest
      exact ih hrest hentry

end Reading

theorem Field.read_reader : ∀ field : Field, field.reader.read = field.content.read
  | .mk _ _ _ => rfl

theorem Field.name_reader : ∀ field : Field, field.reader.name = field.name
  | .mk _ _ _ => rfl

theorem Field.default_readers {fields : List Field} (hdefault : ∀ field ∈ fields, field.default = none) :
    ∀ field ∈ Field.readers fields, field.default = none := by
  rw [Field.readers_eq, List.forall_mem_map]
  exact fun ⟨_, _, _⟩ hfield => hdefault _ hfield

namespace Schema

theorem forall₂_fields {fields : List Field} {data : List (String × Datum)} (hnames : fields.map Field.name = data.map (·.1))
    (hholds : ∀ part ∈ fields.zip data, Holds part.1.content part.2.2) :
    List.Forall₂ (fun field entry => field.name = entry.1 ∧ field.content.Holds entry.2) fields data := by
  have hname := Field.forall₂_names hnames
  exact List.forall₂_iff_zip.2 ⟨hname.length_eq, fun hpart => ⟨List.forall₂_zip hname hpart, hholds _ hpart⟩⟩

/-- each of several values is read by the schema in its place -/
def EachRead (schemas : List Schema) (values : List Value) : Prop :=
  ∀ part ∈ schemas.zip values, ∃ result, part.1.read (.value part.2) = .ok result

theorem eachRead_of_items {expected : String} {schemas : List Schema} {values : List Value} {data : List Datum}
    (h : Reading.items expected (Schema.readers schemas) values = .ok data) : EachRead schemas values := by
  obtain ⟨-, hall⟩ := Reading.items_eq_ok_iff.1 h
  rw [readers_eq, List.zip_map_left, List.forall₂_map_left_iff] at hall
  intro part hpart
  obtain ⟨result, -, hresult⟩ := exists_of_mem_forall₂ hall hpart
  exact ⟨result, hresult⟩

variable {value : Value} {values : List Value} {result : Datum}

theorem eachRead_of_vec {item : Schema} (h : (vec item).read (.value value) = .ok result) (hview : value.view = .seq values)
    (length : Nat) : EachRead (List.replicate length item) values := by
  rw [read, Source.view, hview] at h
  obtain ⟨data, hdata, -⟩ := bind_eq_ok.1 h
  intro part hpart
  obtain ⟨hschema, hvalue⟩ := List.of_mem_zip hpart
  obtain ⟨datum, -, hdatum⟩ := exists_of_mem_forall₂ (mapM_eq_ok.1 hdata) hvalue
  exact ⟨datum, List.eq_of_mem_replicate hschema ▸ hdatum⟩

theorem eachRead_of_array {length : Nat} {item : Schema} (h : (array length item).read (.value value) = .ok result)
    (hview : value.view = .seq values) : EachRead (List.replicate length item) values := by
  rw [read, Source.tupleView, hview] at h
  obtain ⟨data, hdata, -⟩ := bind_eq_ok.1 h
  rw [← List.map_replicate, ← readers_eq] at hdata
  exact eachRead_of_items hdata

theorem eachRead_of_tuple {items : List Schema} (h : (tuple items).read (.value value) = .ok result)
    (hview : value.view = .seq values) : EachRead items values := by
  rw [read, Source.tupleView, hview] at h
  obtain ⟨data, hdata, -⟩ := bind_eq_ok.1 h
  exact eachRead_of_items hdata

theorem eachRead_of_record {name : String} {fields : List Field} {closed : Bool} (hdefault : ∀ field ∈ fields, field.default = none)
    (h : (record name fields closed).read (.value value) = .ok result) (hview : value.view = .seq values) :
    EachRead (fields.map Field.content) values := by
  rw [read, Source.view, hview] at h
  obtain ⟨data, hdata, -⟩ := bind_eq_ok.1 h
  rw [Reading.record, Reading.fieldsOfSeq_eq_ok_iff (Field.default_readers hdefault), Field.readers_eq, List.zip_map_left,
    List.forall₂_map_left_iff] at hdata
  intro part hpart
  rw [List.zip_map_left] at hpart
  obtain ⟨⟨field, value⟩, hmem, rfl⟩ := List.mem_map.1 hpart
  obtain ⟨entry, -, hentry, -⟩ := exists_of_mem_forall₂ hdata.2 hmem
  exact ⟨entry.2, field.read_reader ▸ hentry⟩

section Contents

variable {type name : String} {index : Nat} {reader : VariantReader}

theorem read_of_newtypeVariant {content : Schema} (hreader : (Variant.readers type index [.newtype name content]).head? = some reader)
    (h : reader.read (some value) = .ok result) : ∃ datum, content.read (.value value) = .ok datum := by
  cases hreader
  obtain ⟨_, hcontent, h⟩ := bind_eq_ok.1 h
  cases hcontent
  obtain ⟨datum, hdatum, -⟩ := bind_eq_ok.1 h
  exact ⟨datum, hdatum⟩

theorem read_of_tupleVariant {items : List Schema} (hreader : (Variant.readers type index [.tuple name items]).head? = some reader)
    (h : reader.read (some value) = .ok result) : ∃ datum, (tuple items).read (.value value) = .ok datum := by
  cases hreader
  obtain ⟨_, hcontent, h⟩ := bind_eq_ok.1 h
  cases hcontent
  rw [read, Source.tupleView]
  cases hview : value.view with
  | seq values =>
    simp only [hview] at h
    obtain ⟨data, hdata, -⟩ := bind_eq_ok.1 h
    exact ⟨.tuple data, bind_eq_ok.2 ⟨data, Reading.items_eq_ok_iff.2 (Reading.items_eq_ok_iff.1 hdata), rfl⟩⟩
  | _ =>
    simp only [hview] at h
    cases h

theorem read_of_recordVariant {fields : List Field} (hdefault : ∀ field ∈ fields, field.default = none)
    (hreader : (Variant.readers type index [.record name fields]).head? = some reader)
    (h : reader.read (some value) = .ok result) : ∃ datum, (record name fields false).read (.value value) = .ok datum := by
  cases hreader
  obtain ⟨_, hcontent, h⟩ := bind_eq_ok.1 h
  cases hcontent
  obtain ⟨data, hdata, -⟩ := bind_eq_ok.1 h
  rw [read]
  exact ⟨.record name data, bind_eq_ok.2 ⟨data, Reading.record_ok (Field.default_readers hdefault) hdata _, rfl⟩⟩

end Contents

end Schema

/-! ## Parts that stray -/

namespace Shape

/-- something holds of a shape and the type that is asked for it, or of a part of it and the type that is asked for that -/
inductive Somewhere (P : Ty → Shape → Prop) : Ty → Shape → Prop where
  | here {type : Ty} {shape : Shape} (h : P type shape) : Somewhere P type shape
  | inside {type part : Ty} {shape item : Shape} (hmeets : Meets type shape part item) (h : Somewhere P part item) :
      Somewhere P type shape

/-- a dict is asked for a sequence -/
inductive AsDict : Ty → Shape → Prop where
  | mk (key value : Ty) (items : List Shape) : AsDict (.array (.dictEntry key value)) (.seq items)

/-- a signed integer is asked for a variant without content -/
inductive AsSigned : Ty → Shape → Prop where
  | mk {kind : IntKind} (hsigned : kind.isSigned = true) (index : Nat) (name : String) :
      AsSigned (.basic (.int kind)) (.unitVariant index name)

theorem Somewhere.strays {P : Ty → Shape → Prop} (hP : ∀ type shape, P type shape → Strays type shape) {type : Ty}
    {shape : Shape} (h : Somewhere P type shape) : Strays type shape := by
  induction h with
  | here h => exact hP _ _ h
  | inside hmeets _ ih => exact .inside hmeets ih

theorem strays_iff {type : Ty} {shape : Shape} :
    Strays type shape ↔ Somewhere AsDict type shape ∨ Somewhere AsSigned type shape := by
  constructor
  · intro h
    induction h with
    | pairs key value items => exact .inl (.here (.mk key value items))
    | index hsigned index name => exact .inr (.here (.mk hsigned index name))
    | inside hmeets _ ih => exact ih.imp (.inside hmeets) (.inside hmeets)
  · rintro (h | h)
    · exact h.strays fun _ _ ⟨key, value, items⟩ => .pairs key value items
    · exact h.strays fun _ _ ⟨hsigned, index, name⟩ => .index hsigned index name

/-! ## Parts of values -/

variable {type part : Ty} {shape item : Shape} {value : Value}

/-- shapes become values of the types that are asked for them -/
abbrev Become (policy : Policy) (parts : List (Ty × Shape)) (values : List Value) : Prop :=
  List.Forall₂ (fun part value => part.2.realize policy part.1 = .ok value) parts values

/-- a value shows shapes in order, among them that of a part -/
def InOrder (policy : Policy) (part : Ty) (item : Shape) (items : List Shape) (value : Value) : Prop :=
  ∃ parts values, parts.map (·.2) = items ∧ (part, item) ∈ parts ∧ Become policy parts values ∧ value.view = .seq values

theorem inOrder_array {element : Ty} {items : List Shape} (hitem : item ∈ items)
    (h : (do return .array (← realizeAll policy element items)) = Except.ok value) :
    InOrder policy element item items value := by
  obtain ⟨values, hvalues, h⟩ := bind_eq_ok.1 h
  cases h
  rw [realizeAll_eq_mapM, mapM_eq_ok] at hvalues
  refine ⟨items.map fun item => (element, item), values, ?_, List.mem_map_of_mem hitem, ?_, rfl⟩
  · rw [List.map_map]
    exact List.map_id _
  · exact List.forall₂_map_left_iff.2 hvalues

theorem inOrder_struct {types : List Ty} {items : List Shape} (hitem : (part, item) ∈ types.zip items)
    (h : (if types.length = items.length then do return .struct (← realizeItems policy types items)
      else .error (misfit (.struct types) "struct with a different number of fields")) = Except.ok value) :
    InOrder policy part item items value := by
  split_ifs at h with hlen
  obtain ⟨values, hvalues, h⟩ := bind_eq_ok.1 h
  cases h
  rw [realizeItems_eq_mapM, mapM_eq_ok] at hvalues
  exact ⟨types.zip items, values, List.map_snd_zip hlen.ge, hitem, hvalues, rfl⟩

/-- a part of a sequence or tuple that does not become a dict -/
theorem Meets.inOrder {items : List Shape} (hs : type.Shaped) (hmeets : Meets type shape part item)
    (hitems : shape = .seq items ∨ shape = .tuple items) (hdict : ¬AsDict type shape)
    (h : shape.realize policy type = .ok value) : part.Shaped ∧ InOrder policy part item items value := by
  cases hmeets with
  | element hitem =>
    obtain rfl : _ = items := by simpa using hitems
    cases hs with
    | array hs => exact ⟨hs, inOrder_array hitem (by cases hs <;> exact h)⟩
    | dict => exact absurd (.mk ..) hdict
  | elementOfTuple hitem =>
    obtain rfl : _ = items := by simpa using hitems
    cases hs with
    | array hs => exact ⟨hs, inOrder_array hitem (by cases hs <;> exact h)⟩
    | dict => cases h
  | field hitem | fieldOfTuple hitem =>
    obtain rfl : _ = items := by simpa using hitems
    cases hs with
    | struct _ hs => exact ⟨hs _ (List.of_mem_zip hitem).1, inOrder_struct hitem h⟩
  | _ => simp at hitems

/-- an entry for a part of a map -/
theorem Meets.inMap {entries : List (Shape × Shape)} (hs : type.Shaped) (hmeets : Meets type (.map entries) part item)
    (hpart : ∀ key : Basic, part ≠ .basic key) (h : (map entries).realize policy type = .ok value) :
    part.Shaped ∧ ∃ key made, value.view = .map made ∧ made.length = entries.length ∧ ∃ entry ∈ entries, ∃ e ∈ made,
      item = entry.2 ∧ entry.1.realize policy (.basic key) = .ok e.1 ∧ item.realize policy part = .ok e.2 := by
  cases hmeets with
  | key =>
    cases hs with
    | array hs => cases hs
    | dict key => exact absurd rfl (hpart key)
  | @value _ _ _ entry hentry =>
    cases hs with
    | array hs => cases hs
    | dict key hs =>
      obtain ⟨made, hmade, h⟩ := bind_eq_ok.1 h
      cases h
      have hparts := realizeEntries_parts hmade
      obtain ⟨e, he, hk, hv⟩ := exists_of_mem_forall₂ hparts hentry
      exact ⟨hs, key, made, rfl, hparts.length_eq.symm, entry, hentry, e, he, rfl, hk, hv⟩

/-- a part of a variant with content is the content, under the name of the variant -/
theorem Meets.inNamed {name : String} {content : Shape} (hs : type.Shaped) (hmeets : Meets type (named name content) part item)
    (hpart : ∀ key : Basic, part ≠ .basic key) (h : (named name content).realize policy type = .ok value) :
    part.Shaped ∧ item = content ∧ ∃ tag sub kind, value.view = .map [(tag, sub)] ∧ tag.view = .scalar (.text kind name) ∧
      item.realize policy part = .ok sub := by
  obtain ⟨hs, key, made, hview, hlen, entry, hentry, e, he, rfl, hkey, hitem⟩ := hmeets.inMap hs hpart h
  obtain rfl := List.mem_singleton.1 hentry
  obtain ⟨⟨tag, sub⟩, rfl⟩ := List.length_eq_one_iff.1 hlen
  obtain rfl := List.mem_singleton.1 he
  obtain ⟨result, hresult, hkey⟩ := bind_eq_ok.1 hkey
  cases hkey
  obtain ⟨kind, hkind⟩ := string_seenAs_iff.1 (.leaf (convert_seenAs hresult))
  exact ⟨hs, rfl, _, sub, kind, hview, hkind, hitem⟩

/-- a part of a record is found in order, or under the name of its field -/
theorem Meets.ofRecord {name : String} {fields : List (String × Shape)} (hs : type.Shaped)
    (hmeets : Meets type (.record name fields) part item) (habsent : item ≠ .absent)
    (h : (record name fields).realize policy type = .ok value) :
    part.Shaped ∧ (InOrder policy part item (fields.map (·.2)) value ∨ ∃ made, value.view = .map made ∧
      ∃ field ∈ fields, ∃ e ∈ made, ∃ kind, item = field.2 ∧ e.1.view = .scalar (.text kind field.1) ∧
        item.realize policy part = .ok e.2) := by
  cases hmeets with
  | fieldOfRecord hitem =>
    cases hs with
    | struct _ hs =>
      refine ⟨hs _ (List.of_mem_zip hitem).1, .inl (inOrder_struct hitem ?_)⟩
      rw [List.length_map, ← realizeFields_eq]
      exact h
  | @valueOfRecord key _ _ _ field hfield =>
    cases hs with
    | array hs => cases hs
    | dict key hs =>
      obtain ⟨made, hmade, h⟩ := bind_eq_ok.1 h
      cases h
      have hpresent : field ∈ present fields := by
        rw [present, List.mem_filter]
        exact ⟨hfield, by cases hshape : field.2 <;> simp_all⟩
      obtain ⟨e, he, ⟨kind, hkind⟩, hv⟩ := exists_of_mem_forall₂ (realizePresent_parts hmade) hpresent
      exact ⟨hs, .inr ⟨made, rfl, field, hfield, e, he, kind, rfl, hkind, hv⟩⟩

/-! ## Data that are read -/

/-- some datum of a shape becomes a value of a type that the schema of the datum gets something from -/
def IsRead (policy : Policy) (type : Ty) (shape : Shape) : Prop :=
  ∃ (schema : Schema) (datum : Datum) (value : Value) (result : Datum), schema.Plain ∧ schema.Holds datum ∧
    datum.shape = .ok shape ∧ shape.realize policy type = .ok value ∧ schema.read (.value value) = .ok result

/-- parts in order are read if there is a reader for each of them -/
theorem isRead_of_eachRead {schemas : List Schema} {data : List Datum} {shapes : List Shape}
    (hplain : ∀ schema ∈ schemas, schema.Plain) (hholds : List.Forall₂ Schema.Holds schemas data)
    (hshapes : List.Forall₂ (fun datum shape => datum.shape = .ok shape) data shapes)
    (horder : InOrder policy part item shapes value)
    (heach : ∀ values, value.view = .seq values → Schema.EachRead schemas values) : IsRead policy part item := by
  obtain ⟨parts, values, rfl, hmem, hvalues, hview⟩ := horder
  have hread := heach values hview
  clear heach hview
  induction hvalues generalizing schemas data with
  | nil => cases hmem
  | @cons first value parts values hvalue _ ih =>
    cases hshapes with
    | cons hshape hshapes =>
      cases hholds with
      | cons hfirst hholds =>
        rw [Schema.EachRead, List.zip_cons_cons, List.forall_mem_cons] at hread
        obtain ⟨⟨result, hresult⟩, hread⟩ := hread
        obtain ⟨hschema, hplain⟩ := List.forall_mem_cons.1 hplain
        rcases List.mem_cons.1 hmem with rfl | hmem
        · exact ⟨_, _, value, result, hschema, hfirst, hshape, hvalue, hresult⟩
        · exact ih hplain hholds hshapes hmem hread

/-- the schema of what is there may as well not be optional -/
theorem IsRead.there (h : IsRead policy type shape) (habsent : shape ≠ .absent) :
    ∃ (schema : Schema) (datum : Datum) (value : Value) (result : Datum), (∀ content, schema ≠ .option content) ∧
      schema.Plain ∧ schema.Holds datum ∧ datum.shape = .ok shape ∧ shape.realize policy type = .ok value ∧
      schema.read (.value value) = .ok result := by
  obtain ⟨schema, datum, value, result, hplain, hholds, hshape, hvalue, hread⟩ := h
  by_cases hoption : ∃ content, schema = .option content
  · obtain ⟨content, rfl⟩ := hoption
    cases hplain with
    | option hcontent hplain =>
      cases hholds with
      | absent =>
        cases hshape
        exact absurd rfl habsent
      | present hholds =>
        rw [Schema.read] at hread
        · obtain ⟨inner, hread, -⟩ := bind_eq_ok.1 hread
          exact ⟨content, _, value, inner, hcontent, hplain, hholds, hshape, hvalue, hread⟩
        · intro h
          cases h
  · exact ⟨schema, datum, value, result, fun content h => hoption ⟨content, h⟩, hplain, hholds, hshape, hvalue, hread⟩

/-- a dict is not read as a sequence -/
theorem AsDict.not_isRead (hdict : AsDict type shape) : ¬IsRead policy type shape := by
  intro h
  cases hdict with
  | mk key content items =>
    obtain ⟨schema, datum, value, result, hoption, -, hholds, hshape, hvalue, hread⟩ := h.there nofun
    obtain ⟨made, rfl⟩ : ∃ made, value = .dict made := by
      rw [realize] at hvalue
      split at hvalue
      · cases hvalue
      · obtain ⟨made, -, hvalue⟩ := bind_eq_ok.1 hvalue
        cases hvalue
        exact ⟨made, rfl⟩
    cases hholds with
    | vec =>
      rw [Schema.read] at hread
      cases hread
    | present => exact absurd rfl (hoption _)
    | array | tuple | map | record | newtypeVariant | tupleVariant | recordVariant =>
      obtain ⟨_, _, hshape⟩ := bind_eq_ok.1 hshape
      cases hshape
    | _ => cases hshape

/-- a part in order of what is read -/
theorem isRead_of_seq {items : List Shape} {schemas : List Schema} {data : List Datum} (hs : type.Shaped)
    (hmeets : Meets type shape part item) (hitems : shape = .seq items ∨ shape = .tuple items) (hdict : ¬AsDict type shape)
    (hvalue : shape.realize policy type = .ok value) (hplain : ∀ schema ∈ schemas, schema.Plain)
    (hholds : List.Forall₂ Schema.Holds schemas data) (hshapes : Datum.shapeAll data = .ok items)
    (heach : ∀ values, value.view = .seq values → Schema.EachRead schemas values) :
    part.Shaped ∧ IsRead policy part item := by
  rw [Datum.shapeAll_eq_mapM, mapM_eq_ok] at hshapes
  obtain ⟨hs, horder⟩ := hmeets.inOrder hs hitems hdict hvalue
  exact ⟨hs, isRead_of_eachRead hplain hholds hshapes horder heach⟩

/-- a part in a map that is read -/
theorem isRead_of_map {key content : Schema} {entries : List (Datum × Datum)} {shapes : List (Shape × Shape)} (hs : type.Shaped)
    (hmeets : Meets type (.map shapes) part item) (hpart : ∀ key : Basic, part ≠ .basic key)
    (hvalue : (map shapes).realize policy type = .ok value) (hplain : content.Plain)
    (hholds : ∀ entry ∈ entries, content.Holds entry.2) (hshapes : Datum.shapeEntries entries = .ok shapes) {result : Datum}
    (hread : (Schema.map key content).read (.value value) = .ok result) : part.Shaped ∧ IsRead policy part item := by
  obtain ⟨hs, _, made, hview, -, shapes, hmem, e, he, rfl, -, hitem⟩ := hmeets.inMap hs hpart hvalue
  obtain ⟨entry, hentry, -, hcontent⟩ := exists_of_mem_forall₂ (List.Forall₂.flip (Datum.shapeEntries_parts hshapes)) hmem
  rw [Schema.read, Source.view, hview] at hread
  obtain ⟨data, hdata, -⟩ := bind_eq_ok.1 hread
  obtain ⟨_, -, hone⟩ := exists_of_mem_forall₂ (mapM_eq_ok.1 hdata) he
  obtain ⟨_, -, hone⟩ := bind_eq_ok.1 hone
  obtain ⟨datum, hdatum, -⟩ := bind_eq_ok.1 hone
  exact ⟨hs, content, entry.2, e.2, datum, hplain, hholds entry hentry, hcontent, hitem, hdatum⟩

/-- a part of a record that is read -/
theorem isRead_of_record {name : String} {fields : List Field} {closed : Bool} {data : List (String × Datum)}
    {shapes : List (String × Shape)} (hs : type.Shaped) (hmeets : Meets type (.record name shapes) part item)
    (habsent : item ≠ .absent) (hvalue : (record name shapes).realize policy type = .ok value)
    (hplain : ∀ field ∈ fields, field.content.Plain) (hdistinct : (fields.map Field.name).Nodup)
    (hdefault : ∀ field ∈ fields, field.default = none) (hnames : fields.map Field.name = data.map (·.1))
    (hholds : ∀ part ∈ fields.zip data, part.1.content.Holds part.2.2) (hshapes : Datum.shapeFields data = .ok shapes)
    {result : Datum} (hread : (Schema.record name fields closed).read (.value value) = .ok result) :
    part.Shaped ∧ IsRead policy part item := by
  have hfields := Schema.forall₂_fields hnames hholds
  have hshapes := Datum.shapeFields_parts hshapes
  obtain ⟨hs, horder | ⟨made, hview, shape, hmem, e, he, kind, rfl, hkey, hitem⟩⟩ := hmeets.ofRecord hs habsent hvalue
  · have hcontents : List.Forall₂ Schema.Holds (fields.map Field.content) (data.map (·.2)) := by
      rw [List.forall₂_map_left_iff, List.forall₂_map_right_iff]
      exact hfields.imp fun _ _ h => h.2
    have hparts : List.Forall₂ (fun datum shape => datum.shape = .ok shape) (data.map (·.2)) (shapes.map (·.2)) := by
      rw [List.forall₂_map_left_iff, List.forall₂_map_right_iff]
      exact hshapes.imp fun _ _ h => h.2
    exact ⟨hs, isRead_of_eachRead (List.forall_mem_map.2 hplain) hcontents hparts horder
      fun values hview => Schema.eachRead_of_record hdefault hread hview⟩
  · obtain ⟨entry, hentry, hname, hshape⟩ := exists_of_mem_forall₂ (List.Forall₂.flip hshapes) hmem
    obtain ⟨field, hfield, hnamed, hcontent⟩ := exists_of_mem_forall₂ (List.Forall₂.flip hfields) hentry
    rw [Schema.read, Source.view, hview] at hread
    obtain ⟨_, hread, -⟩ := bind_eq_ok.1 hread
    obtain ⟨found, hfound, -⟩ := bind_eq_ok.1 hread
    have hreader : field.reader ∈ Field.readers fields := Field.readers_eq fields ▸ List.mem_map_of_mem hfield
    rw [← hname, ← hnamed, ← field.name_reader] at hkey
    obtain ⟨datum, hdatum⟩ :=
      Reading.read_of_fieldsOfMap (Field.names_readers fields ▸ hdistinct) hfound he hreader hkey
    exact ⟨hs, field.content, entry.2, e.2, datum, hplain field hfield, hcontent, hshape, hitem, field.read_reader ▸ hdatum⟩

/-- the content of a variant is read by the reader of the variant -/
theorem read_of_named {enum : String} {variants : List Variant} {index : Nat} {variant : Variant} {reader : VariantReader}
    {content : Shape} {result : Datum} (hs : type.Shaped) (hmeets : Meets type (named reader.name content) part item)
    (hpart : ∀ key : Basic, part ≠ .basic key) (hvalue : (named reader.name content).realize policy type = .ok value)
    (hdistinct : (variants.map Variant.name).Nodup) (hvariant : variants[index]? = some variant)
    (hreader : (Variant.readers enum index [variant]).head? = some reader)
    (hread : (Schema.enumeration enum variants).read (.value value) = .ok result) :
    part.Shaped ∧ item = content ∧ ∃ sub, item.realize policy part = .ok sub ∧ reader.read (some sub) = .ok result := by
  obtain ⟨hs, rfl, tag, sub, kind, hview, htag, hitem⟩ := hmeets.inNamed hs hpart hvalue
  rw [Schema.read_content hdistinct hvariant hreader hview htag] at hread
  exact ⟨hs, rfl, sub, hitem, hread⟩

/-- **Whatever is read, its parts are read.** -/
theorem IsRead.of_meets (h : IsRead policy type shape) (hs : type.Shaped) (hmeets : Meets type shape part item)
    (hinside : Somewhere AsDict part item) : part.Shaped ∧ IsRead policy part item := by
  have hdict : ¬AsDict type shape := fun hdict => hdict.not_isRead h
  -- a part in which something becomes a dict is no key, and it is there
  have hpart : ∀ key : Basic, part ≠ .basic key := by
    rintro key rfl
    cases hinside with
    | here h => cases h
    | inside hmeets => cases hmeets
  have habsent : item ≠ .absent := by
    rintro rfl
    cases hinside with
    | here h => cases h
    | inside hmeets => cases hmeets
  have hthere : shape ≠ .absent := by
    rintro rfl
    cases hmeets
  obtain ⟨schema, datum, value, result, hoption, hplain, hholds, hshape, hvalue, hread⟩ := h.there hthere
  cases hholds with
  | present | absent => exact absurd rfl (hoption _)
  | vec hholds =>
    obtain ⟨items, hitems, hshape⟩ := bind_eq_ok.1 hshape
    cases hshape
    cases hplain with
    | vec hplain =>
      exact isRead_of_seq hs hmeets (.inl rfl) hdict hvalue (fun schema h => List.eq_of_mem_replicate h ▸ hplain)
        (forall₂_replicate hholds) hitems fun values hview => Schema.eachRead_of_vec hread hview _
  | array hholds =>
    obtain ⟨items, hitems, hshape⟩ := bind_eq_ok.1 hshape
    cases hshape
    cases hplain with
    | array _ hplain =>
      exact isRead_of_seq hs hmeets (.inr rfl) hdict hvalue (fun schema h => List.eq_of_mem_replicate h ▸ hplain)
        (forall₂_replicate hholds) hitems fun values hview => Schema.eachRead_of_array hread hview
  | tuple hlen hholds =>
    obtain ⟨items, hitems, hshape⟩ := bind_eq_ok.1 hshape
    cases hshape
    cases hplain with
    | tuple hplain =>
      exact isRead_of_seq hs hmeets (.inr rfl) hdict hvalue hplain
        (List.forall₂_iff_zip.2 ⟨hlen, fun hpart => hholds _ hpart⟩) hitems fun values hview => Schema.eachRead_of_tuple hread hview
  | map hkeys hvalues =>
    obtain ⟨items, hitems, hshape⟩ := bind_eq_ok.1 hshape
    cases hshape
    cases hplain with
    | map _ hplain => exact isRead_of_map hs hmeets hpart hvalue hplain hvalues hitems hread
  | record name closed hnames hholds =>
    obtain ⟨items, hitems, hshape⟩ := bind_eq_ok.1 hshape
    cases hshape
    cases hplain with
    | record _ _ hdistinct hdefault hplain =>
      exact isRead_of_record hs hmeets habsent hvalue hplain hdistinct hdefault hnames hholds hitems hread
  | newtypeVariant type hvariant hholds =>
    obtain ⟨content, hcontent, hshape⟩ := bind_eq_ok.1 hshape
    cases hshape
    cases hplain with
    | enumeration _ hdistinct hfew hfields hdefault hplain =>
      obtain ⟨hs, rfl, sub, hitem, hread⟩ := read_of_named hs hmeets hpart hvalue hdistinct hvariant rfl hread
      obtain ⟨datum, hread⟩ := Schema.read_of_newtypeVariant rfl hread
      have hplain := hplain _ (List.mem_of_getElem? hvariant) _ (List.mem_singleton_self _)
      exact ⟨hs, _, _, sub, datum, hplain, hholds, hcontent, hitem, hread⟩
  | tupleVariant type hvariant hlen hholds =>
    obtain ⟨content, hcontent, hshape⟩ := bind_eq_ok.1 hshape
    cases hshape
    cases hplain with
    | enumeration _ hdistinct hfew hfields hdefault hplain =>
      obtain ⟨hs, rfl, sub, hitem, hread⟩ := read_of_named hs hmeets hpart hvalue hdistinct hvariant rfl hread
      -- the content is read like a tuple on its own
      obtain ⟨datum, hread⟩ := Schema.read_of_tupleVariant rfl hread
      have hplain := hplain _ (List.mem_of_getElem? hvariant)
      exact ⟨hs, _, _, sub, datum, .tuple hplain, .tuple hlen hholds, bind_eq_ok.2 ⟨_, hcontent, rfl⟩, hitem, hread⟩
  | @recordVariant type _ _ name _ _ hvariant hnames hholds =>
    obtain ⟨content, hcontent, hshape⟩ := bind_eq_ok.1 hshape
    cases hshape
    cases hplain with
    | enumeration _ hdistinct hfew hfields hdefault hplain =>
      obtain ⟨hs, rfl, sub, hitem, hread⟩ := read_of_named hs hmeets hpart hvalue hdistinct hvariant rfl hread
      have hmem := List.mem_of_getElem? hvariant
      -- and like a record on its own
      obtain ⟨datum, hread⟩ := Schema.read_of_recordVariant (hdefault _ hmem) rfl hread
      have hplain : Schema.Plain (.record _ _ false) :=
        .record name _ (hfields _ hmem) (hdefault _ hmem) (List.forall_mem_map.1 (hplain _ hmem))
      exact ⟨hs, _, _, sub, datum, hplain, .record _ _ hnames hholds, bind_eq_ok.2 ⟨_, hcontent, rfl⟩, hitem, hread⟩
  | _ =>
    cases hshape
    cases hmeets

/-- **Nothing of what is read became a dict in place of a sequence.** -/
theorem IsRead.not_asDict (hs : type.Shaped) (h : IsRead policy type shape) : ¬Somewhere AsDict type shape := by
  intro hdict
  induction hdict with
  | here hdict => exact hdict.not_isRead h
  | inside hmeets hinside ih =>
    obtain ⟨hs, h⟩ := h.of_meets hs hmeets hinside
    exact ih hs h

end Shape

/-- **What is written to a given type is read back, unless a sequence became a dict; then reading fails.** -/
theorem Datum.read_toValue {text : String} {type : Ty} {schema : Schema} {datum : Datum} {shape : Shape} {value : Value}
    (htype : Ty.parseSingle text = .ok type) (hplain : schema.Plain) (hholds : schema.Holds datum)
    (hshape : datum.shape = .ok shape) (h : datum.toValue policy type = .ok value) :
    (¬Shape.Somewhere Shape.AsDict type shape → ¬Shape.Somewhere Shape.AsSigned type shape →
      value.read schema = .ok datum) ∧
    (Shape.Somewhere Shape.AsDict type shape → ∃ fault, value.read schema = .error (.unreadable fault)) := by
  have hs : type.Shaped :=
    ((Ty.parse_sound (Ty.parseSingle_eq_ok_iff.1 htype)).2.2 type (List.mem_singleton_self type)).shaped
  obtain ⟨_, hshape', h⟩ := bind_eq_ok.1 h
  obtain rfl := Except.ok.inj (hshape.symm.trans hshape')
  constructor
  · intro hdict hsigned
    have hstray : ¬Shape.Strays type shape := fun hstray => (Shape.strays_iff.1 hstray).elim hdict hsigned
    have hseen : datum.SeenAs value.view := ⟨shape, hshape, Shape.realize_seenAs hs shape value (isShape_shape hshape) h hstray⟩
    rw [Value.read, Schema.readsBack hplain hholds value hseen, Reading.toExcept]
  · intro hdict
    cases hread : schema.read (.value value) with
    | ok result => exact absurd hdict (Shape.IsRead.not_asDict hs ⟨schema, datum, value, result, hplain, hholds, hshape, h, hread⟩)
    | error fault => exact ⟨fault, by rw [Value.read, hread, Reading.toExcept]⟩

/-- pairs become the dict that the map of them does, which is how they can be read back -/
theorem Datum.toValue_pairs (key value : Ty) (entries : List (Datum × Datum)) :
    (seq (entries.map fun entry => tuple [entry.1, entry.2])).toValue policy (.array (.dictEntry key value))
      = (map entries).toValue policy (.array (.dictEntry key value)) := by
  have hshapes : shapeAll (entries.map fun entry => tuple [entry.1, entry.2])
      = (shapeEntries entries).map (List.map fun entry => Shape.tuple [entry.1, entry.2]) := by
    induction entries with
    | nil => rfl
    | cons entry entries ih =>
      rw [List.map_cons, shapeAll, shapeEntries, ih, shape, shapeAll, shapeAll, shapeAll]
      cases entry.1.shape with
      | error e => rfl
      | ok k =>
        cases entry.2.shape with
        | error e => rfl
        | ok v => cases shapeEntries entries <;> rfl
  have hrealize (shapes : List (Shape × Shape)) :
      (Shape.seq (shapes.map fun entry => .tuple [entry.1, entry.2])).realize policy (.array (.dictEntry key value))
        = (Shape.map shapes).realize policy (.array (.dictEntry key value)) := by
    have hpairs : (shapes.map fun entry => Shape.tuple [entry.1, entry.2]).find? (fun item => !item.isPair) = none := by
      simp [Shape.isPair]
    have hall : Shape.realizePairs policy key value (shapes.map fun entry => .tuple [entry.1, entry.2])
        = Shape.realizeEntries policy key value shapes := by
      induction shapes with
      | nil => rfl
      | cons entry shapes ih => rw [List.map_cons, Shape.realizePairs, Shape.realizeEntries, ih (by simp [Shape.isPair])]
    conv_rhs => rw [Shape.realize]
    conv_lhs => rw [Shape.realize, hpairs]
    rw [hall]
  rw [toValue, toValue, shape, shape, hshapes]
  cases shapeEntries entries with
  | error e => rfl
  | ok shapes => exact hrealize shapes

/-- a number, one of two modes and a path -/
def jobSchema : Schema := .tuple [.int .i64, .enumeration "Mode" [.unit "Low", .unit "High"], .string]

def job : Datum := .tuple [.int .i64 3, .unitVariant "Mode" 1 "High", .text "/a"]

def jobType : Ty := .struct [.basic (.int .uint16), .basic (.int .byte), .basic (.text .objectPath)]

/-- the number is narrowed, and the mode its index -/
def jobValue : Value := .struct [.scalar (.int .uint16 3), .byte 1, .objectPath "/a"]

def jobShape : Shape :=
  .tuple [.leaf (.int .int64 3), .unitVariant 1 "High", .string "/a"]

theorem plain_jobSchema : jobSchema.Plain := by
  have hmode : Schema.Plain (.enumeration "Mode" [.unit "Low", .unit "High"]) :=
    .enumeration _ (by decide) (by decide) (by decide) (by decide) (by simp [Variant.contents])
  exact .tuple (List.forall_mem_cons.2 ⟨.int _, List.forall_mem_cons.2 ⟨hmode, List.forall_mem_singleton.2 (.text _)⟩⟩)

theorem holds_job : jobSchema.Holds job :=
  .tuple rfl (List.forall_mem_cons.2 ⟨.int rfl,
    List.forall_mem_cons.2 ⟨.unitVariant _ rfl, List.forall_mem_singleton.2 (.text _ _)⟩⟩)

/-- what holds somewhere in the job holds of it or of one of its three fields -/
theorem Shape.somewhere_job {P : Ty → Shape → Prop} (h : Somewhere P jobType jobShape) :
    P jobType jobShape ∨ P (.basic (.int .uint16)) (.leaf (.int .int64 3)) ∨
      P (.basic (.int .byte)) (.unitVariant 1 "High") ∨ P (.basic (.text .objectPath)) (.string "/a") := by
  have hleaf {type : Basic} {shape : Shape} (h : Somewhere P (.basic type) shape) : P (.basic type) shape := by
    cases h with
    | here h => exact h
    | inside hmeets => cases hmeets
  cases h with
  | here h => exact .inl h
  | inside hmeets h =>
    cases hmeets with
    | fieldOfTuple hfield =>
      simp only [List.zip_cons_cons, List.zip_nil_right, List.mem_cons, List.not_mem_nil, or_false, Prod.mk.injEq] at hfield
      obtain ⟨rfl, rfl⟩ | ⟨rfl, rfl⟩ | ⟨rfl, rfl⟩ := hfield
      · exact .inr (.inl (hleaf h))
      · exact .inr (.inr (.inl (hleaf h)))
      · exact .inr (.inr (.inr (hleaf h)))

def rowsType : Ty := .array (.dictEntry (.basic (.int .int16)) (.basic (.int .int16)))

theorem plain_rowsSchema : rowsSchema.Plain := .vec (.vec (.int _))

theorem holds_rows : rowsSchema.Holds rows := by
  have hrow : Schema.Holds (.vec (.int .i16)) (.seq [.int .i16 1, .int .i16 2]) :=
    .vec (List.forall_mem_cons.2 ⟨.int rfl, List.forall_mem_singleton.2 (.int rfl)⟩)
  exact .vec (List.forall_mem_singleton.2 hrow)

/-- the rows as entries of a dict -/
def rowsValue : Value := .dict [(.scalar (.int .int16 1), .scalar (.int .int16 2))]

def rowsShape : Shape := .seq [.seq [.leaf (.int .int16 1), .leaf (.int .int16 2)]]

/-- the job is read back, and the rows are not -/
theorem Datum.read_toValue_job :
    Ty.parseSingle "(qyo)" = .ok jobType ∧ job.toValue .dicts jobType = .ok jobValue ∧ jobValue.read jobSchema = .ok job ∧
      Shape.AsDict rowsType rowsShape ∧
      ∃ fault, rowsValue.read rowsSchema = .error (.unreadable fault) := by
  have hparse : Ty.parseSingle "(qyo)" = .ok jobType := by rfl
  have hparse' : Ty.parseSingle "a\x7bnn\x7d" = .ok rowsType := by rfl
  have hvalue : job.toValue .dicts jobType = .ok jobValue := by rfl
  have hvalue' : rows.toValue .dicts rowsType = .ok rowsValue := by rfl
  have hdict : ¬Shape.Somewhere Shape.AsDict jobType jobShape := by
    intro h
    rcases Shape.somewhere_job h with h | h | h | h <;> cases h
  have hsigned : ¬Shape.Somewhere Shape.AsSigned jobType jobShape := by
    intro h
    rcases Shape.somewhere_job h with h | h | h | h <;> cases h
    contradiction
  have hrows : Shape.AsDict rowsType rowsShape := .mk ..
  exact ⟨hparse, hvalue, (Datum.read_toValue hparse plain_jobSchema holds_job rfl hvalue).1 hdict hsigned, hrows,
    (Datum.read_toValue hparse' plain_rowsSchema holds_rows rfl hvalue').2 (.here hrows)⟩

/-- rows that are written as a dict are not read as rows any more -/
theorem Datum.read_toValue_rows :
    Ty.parseSingle "a\x7bnn\x7d" = .ok rowsType ∧
      rowsSchema.Plain ∧ rowsSchema.Holds rows ∧
      rows.toValue .dicts rowsType = .ok rowsValue ∧
      rowsValue.read rowsSchema = .error (.unreadable (.wrongType .map "a sequence")) :=
  ⟨by rfl, plain_rowsSchema, holds_rows, by rfl, by rfl⟩

end MessageBus
