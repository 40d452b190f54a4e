/-
Reading back what was written.

A reader reads a datum back if it gets the datum from every value that is seen as it (`ReadsBack`), whatever the type of
the value. That holds of the reader of a schema and any datum of it, by induction on the datum (`Schema.readsBack`): each
way of putting data together has a reader that reads it back whenever the readers of the parts do. So a datum whose type
is chosen is read back from the value that it becomes (`Datum.read_toVariant`).
-/
import Mathlib
import MessageBus.Data.Read
import MessageBus.Proofs.Data.Schema
import MessageBus.Proofs.Data.Seen

namespace MessageBus

variable {policy : Policy}

/-! ## Readers -/

/-- a reader gets a datum from every value that is seen as it -/
def ReadsBack (reader : DatumReader) (datum : Datum) : Prop :=
  ∀ value : Value, datum.SeenAs value.view → reader (.value value) = .ok datum

/-- a field is read back, and its absence stands for it when it is left out -/
structure FieldReadsBack (field : FieldReader) (entry : String × Datum) : Prop where
  name : field.name = entry.1
  read : ReadsBack field.read entry.2
  absence : entry.2.isLeftOut = true → field.absence = some entry.2

namespace Reading

theorem items_readsBack {readers : List DatumReader} {data : List Datum} {values : List Value}
    (hreads : List.Forall₂ ReadsBack readers data) (hseen : Datum.AllSeen data values) (expected : String) :
    items expected readers values = .ok data := by
  have hgo : ∀ done, items.go expected done readers values = .ok data := by
    induction hreads generalizing values with
    | nil => exact fun _ => by rw [items.go]
    | cons hread _ ih =>
      cases hseen with
      | cons hfirst hseen =>
        intro done
        rw [items.go, hread _ hfirst]
        exact bind_eq_ok.2 ⟨_, rfl, bind_eq_ok.2 ⟨_, ih hseen (done + 1), rfl⟩⟩
  exact hgo 0

section Record

variable {fields : List FieldReader} {data : List (String × Datum)}

theorem fieldsOfSeq_readsBack {values : List Value} (hreads : List.Forall₂ FieldReadsBack fields data)
    (hseen : Datum.AllSeen (data.map (·.2)) values) (expected : String) :
    fieldsOfSeq expected fields values = .ok data := by
  have hgo : ∀ done, fieldsOfSeq.go expected done fields values = .ok data := by
    induction hreads generalizing values with
    | nil => exact fun _ => by rw [fieldsOfSeq.go]
    | cons hread _ ih =>
      cases hseen with
      | cons hfirst hseen =>
        intro done
        rw [fieldsOfSeq.go, hread.read _ hfirst, hread.name]
        exact bind_eq_ok.2 ⟨_, rfl, bind_eq_ok.2 ⟨_, ih hseen (done + 1), rfl⟩⟩
  exact hgo 0

/-- what a map has for a field -/
def entryOf (field : String × Datum) : Option Datum := if field.2.isLeftOut then none else some field.2

theorem settle_readsBack (hreads : List.Forall₂ FieldReadsBack fields data) :
    settle fields (data.map entryOf) = .ok data := by
  induction hreads with
  | nil => rfl
  | @cons field entry _ _ hread _ ih =>
    rw [List.map_cons, settle, hread.name]
    by_cases hleft : entry.2.isLeftOut = true
    · rw [entryOf, if_pos hleft, hread.absence hleft]
      exact bind_eq_ok.2 ⟨entry.2, rfl, bind_eq_ok.2 ⟨_, ih, rfl⟩⟩
    · rw [entryOf, if_neg hleft]
      exact bind_eq_ok.2 ⟨entry.2, rfl, bind_eq_ok.2 ⟨_, ih, rfl⟩⟩

theorem identifier_name {what : String} {names : List String} {index : Nat} {name : String} {kind : TextKind}
    (hnames : names.Nodup) (h : names[index]? = some name) :
    identifier what names (.scalar (.text kind name)) = .ok (some index) := by
  obtain ⟨hindex, hname⟩ := List.getElem?_eq_some_iff.1 h
  rw [identifier, List.idxOf?_eq_some_iff.2 ⟨hindex, hname, fun other hother heq => ?_⟩]
  exact hother.ne ((hnames.getElem_inj_iff).1 (heq.trans hname.symm))

/-- entries for the fields from some place on are put at the places of these -/
theorem fieldsOfMap_readsBack (closed : Bool) {all done : List FieldReader} {found : List (Option Datum)}
    {entries : List (Value × Value)} (hnames : (all.map (·.name)).Nodup) (hall : all = done ++ fields)
    (hfound : found.length = done.length) (hreads : List.Forall₂ FieldReadsBack fields data)
    (hseen : Datum.EntriesSeen data entries) :
    fieldsOfMap all closed entries (found ++ fields.map fun _ => none) = .ok (found ++ data.map entryOf) := by
  induction hreads generalizing done found entries with
  | nil =>
    cases hseen
    rw [fieldsOfMap]
    rfl
  | @cons field entry fields data hread hreads ih =>
    have hrest : all = (done ++ [field]) ++ fields := by rw [hall, List.append_assoc, List.singleton_append]
    by_cases hleft : entry.2.isLeftOut = true
    -- there is no entry for the field, and its place stays empty
    · have hskip : Datum.EntriesSeen data entries := by simpa [Datum.EntriesSeen, hleft] using hseen
      have hnext := ih hrest (show (found ++ [none]).length = (done ++ [field]).length by simp [hfound]) hskip
      simpa [entryOf, hleft] using hnext
    -- the next entry is for the field, whose place is behind those of the fields that are done
    · rw [Datum.EntriesSeen, List.filter_cons_of_pos (by simpa using hleft)] at hseen
      cases hseen with
      | @cons _ made _ made' hfirst hseen =>
        obtain ⟨⟨kind, hkey⟩, hvalue⟩ := hfirst
        have hfield : all[done.length]? = some field := by simp [hall]
        have hname : (all.map (·.name))[done.length]? = some entry.1 := by
          rw [List.getElem?_map, hfield, Option.map_some, hread.name]
        have hempty : (found ++ none :: fields.map fun _ => none)[done.length]? = some none := by simp [← hfound]
        have hset : (found ++ none :: fields.map fun _ => none).set done.length (some entry.2)
            = (found ++ [some entry.2]) ++ fields.map fun _ => none := by simp [← hfound]
        have hnext := ih hrest (show (found ++ [some entry.2]).length = (done ++ [field]).length by simp [hfound]) hseen
        rw [List.map_cons, fieldsOfMap, hkey, identifier_name hnames hname]
        simp only [bind, Except.bind, hfield, hempty, hread.read _ hvalue, hset, hnext]
        simp [entryOf, hleft]

/-- **A record is read back if its fields are.** -/
theorem record_readsBack {view : View} {name : String} (hnames : (fields.map (·.name)).Nodup)
    (hreads : List.Forall₂ FieldReadsBack fields data) (hseen : (Datum.record name data).SeenAs view) (title : String)
    (closed : Bool) : record title fields closed view = .ok data := by
  rcases Datum.record_seen hseen with ⟨values, rfl, hvalues⟩ | ⟨entries, rfl, hentries⟩
  · exact fieldsOfSeq_readsBack hreads hvalues _
  · have hfound := fieldsOfMap_readsBack closed hnames (List.nil_append fields).symm List.length_nil hreads hentries
    exact bind_eq_ok.2 ⟨_, hfound, settle_readsBack hreads⟩

end Record

section Enumeration

variable {readers : List VariantReader} {index : Nat} {reader : VariantReader}

theorem variant_eq {tag : Value} (content : Option Value)
    (htag : identifier "variant identifier" (readers.map (·.name)) tag.view = .ok (some index))
    (hreader : readers[index]? = some reader) : variant readers tag content = reader.read content := by
  rw [variant, htag]
  simp only [bind, Except.bind, hreader]

/-- a name in front of content is that of a variant -/
theorem enumerated_content {value tag content : Value} {kind : TextKind} (hnames : (readers.map (·.name)).Nodup)
    (hreader : readers[index]? = some reader) (hview : value.view = .map [(tag, content)])
    (htag : tag.view = .scalar (.text kind reader.name)) : enumerated readers (.value value) = reader.read (some content) := by
  have hname : (readers.map (·.name))[index]? = some reader.name := by rw [List.getElem?_map, hreader, Option.map_some]
  have hindex : identifier "variant identifier" (readers.map (·.name)) (.scalar (.text kind reader.name)) = .ok (some index) :=
    identifier_name hnames hname
  rw [enumerated, enumerated.ofValue, hview]
  exact variant_eq (some content) (htag ▸ hindex) hreader

/-- a name or an index alone is that of a variant without content -/
theorem enumerated_name {value : Value} {type : String} (hnames : (readers.map (·.name)).Nodup)
    (hreader : readers[index]? = some reader) (hfew : readers.length ≤ 2 ^ 32)
    (hseen : (Datum.unitVariant type index reader.name).SeenAs value.view) :
    enumerated readers (.value value) = reader.read none := by
  obtain ⟨_, hshape, hseen⟩ := hseen
  cases hshape
  have hname : (readers.map (·.name))[index]? = some reader.name := by rw [List.getElem?_map, hreader, Option.map_some]
  have hindex : index < (readers.map (·.name)).length := by
    rw [List.length_map]
    exact (List.getElem?_eq_some_iff.1 hreader).1
  generalize hview : value.view = view at hseen
  cases hseen with
  | name =>
    rw [enumerated, enumerated.ofValue, hview]
    exact variant_eq none (hview ▸ identifier_name hnames hname) hreader
  | @index _ _ kind bits hsigned hbits =>
    rw [enumerated, enumerated.ofValue, hview]
    refine variant_eq none ?_ hreader
    have hplace : bits.toNat = index := by
      rw [List.length_map] at hindex
      rw [hbits, Nat.mod_eq_of_lt (hindex.trans_le hfew)]
    rw [hview, identifier, hsigned, hplace, if_neg (by simp), if_pos hindex]

end Enumeration

end Reading

/-! ## Readers of schemas -/

/-- the kind as which an integer is written has its number -/
theorem HostInt.toInt_kind {type : HostInt} {value : Int} (h : type.holds value = true) :
    type.kind.toInt (BitVec.ofInt type.kind.width value) = value := by
  cases type <;>
    simp only [holds, width, isSigned, kind, IntKind.toInt, IntKind.isSigned, IntKind.width, IntKind.size,
      BitVec.toInt_ofInt, BitVec.toNat_ofInt, Int.bmod, Bool.false_eq_true, if_true, if_false, decide_eq_true_eq] at h ⊢ <;>
    omega

def Field.reader : Field → FieldReader
  | .mk name content default =>
    { name, read := content.read, default
      absence := default <|> match content with
        | .option _ => some .absent
        | _ => none }

theorem Field.readers_eq (fields : List Field) : Field.readers fields = fields.map Field.reader := by
  induction fields with
  | nil => rfl
  | cons field fields ih =>
    obtain ⟨name, content, default⟩ := field
    cases content <;> simp only [Field.readers, ih, List.map_cons, Field.reader]

theorem Field.names_readers (fields : List Field) : (Field.readers fields).map (·.name) = fields.map Field.name := by
  rw [Field.readers_eq, List.map_map]
  exact List.map_congr_left fun ⟨_, _, _⟩ _ => rfl

theorem Field.forall₂_names {fields : List Field} {data : List (String × Datum)}
    (h : fields.map Field.name = data.map (·.1)) : List.Forall₂ (fun field entry => field.name = entry.1) fields data := by
  have hall : List.Forall₂ (· = ·) (fields.map Field.name) (data.map (·.1)) := h ▸ List.forall₂_refl _
  rwa [List.forall₂_map_left_iff, List.forall₂_map_right_iff] at hall

theorem Schema.readers_eq (schemas : List Schema) : Schema.readers schemas = schemas.map Schema.read := by
  induction schemas with
  | nil => rfl
  | cons schema schemas ih => rw [Schema.readers, ih, List.map_cons]

namespace Variant

variable (type : String) (start : Nat)

theorem readers_cons (variant : Variant) :
    ∃ reader, reader.name = variant.name ∧
      ∀ rest, Variant.readers type start (variant :: rest) = reader :: Variant.readers type (start + 1) rest := by
  cases variant <;> exact ⟨_, rfl, fun _ => by rw [Variant.readers]⟩

theorem names_readers (variants : List Variant) :
    (Variant.readers type start variants).map (·.name) = variants.map Variant.name := by
  induction variants generalizing start with
  | nil => rfl
  | cons variant variants ih =>
    obtain ⟨reader, hname, hreaders⟩ := readers_cons type start variant
    rw [hreaders, List.map_cons, List.map_cons, ih, hname]

/-- the reader at an index is that of the variant there, which may as well be the only one -/
theorem readers_getElem? {variants : List Variant} {index : Nat} {variant : Variant}
    (h : variants[index]? = some variant) :
    (Variant.readers type start variants)[index]? = (Variant.readers type (start + index) [variant]).head? := by
  induction index generalizing start variants with
  | zero =>
    cases variants with
    | nil => cases h
    | cons first rest =>
      cases h
      obtain ⟨reader, -, hreaders⟩ := readers_cons type start variant
      rw [Nat.add_zero, hreaders, hreaders]
      rfl
  | succ index ih =>
    cases variants with
    | nil => cases h
    | cons first rest =>
      obtain ⟨reader, -, hreaders⟩ := readers_cons type start first
      rw [hreaders, List.getElem?_cons_succ, ih _ h, Nat.add_right_comm, Nat.add_assoc]

end Variant

namespace Schema

theorem readers_readBack {schemas : List Schema} {data : List Datum} (hlen : schemas.length = data.length)
    (hplain : ∀ schema ∈ schemas, schema.Plain)
    (h : ∀ part ∈ schemas.zip data, part.1.Plain → ReadsBack part.1.read part.2) :
    List.Forall₂ ReadsBack (Schema.readers schemas) data := by
  rw [readers_eq, List.forall₂_map_left_iff]
  exact List.forall₂_iff_zip.2 ⟨hlen, fun hpart => h _ hpart (hplain _ (List.of_mem_zip hpart).1)⟩

/-- nothing is written only for an optional value that is not there -/
theorem absent_of_shape {schema : Schema} {datum : Datum} (hplain : schema.Plain) (hholds : schema.Holds datum)
    (h : datum.shape = .ok .absent) : datum = .absent ∧ ∃ content, schema = .option content := by
  induction hholds with
  | unit => cases hplain
  | absent content => exact ⟨rfl, content, rfl⟩
  | present _ ih =>
    cases hplain with
    | option hcontent hplain =>
      obtain ⟨-, content, rfl⟩ := ih hplain h
      exact absurd rfl (hcontent content)
  | bool | int | single | double | char | text | unitVariant => cases h
  | vec | array | tuple | map | record | newtypeVariant | tupleVariant | recordVariant =>
    obtain ⟨_, _, h⟩ := bind_eq_ok.1 h
    cases h

theorem fields_readBack {fields : List Field} {data : List (String × Datum)}
    (hnames : fields.map Field.name = data.map (·.1)) (hdefault : ∀ field ∈ fields, field.default = none)
    (hplain : ∀ field ∈ fields, field.content.Plain) (hholds : ∀ part ∈ fields.zip data, Holds part.1.content part.2.2)
    (h : ∀ part ∈ fields.zip data, part.1.content.Plain → ReadsBack part.1.content.read part.2.2) :
    List.Forall₂ FieldReadsBack (Field.readers fields) data := by
  have hname := Field.forall₂_names hnames
  rw [Field.readers_eq, List.forall₂_map_left_iff]
  refine List.forall₂_iff_zip.2 ⟨hname.length_eq, fun {field entry} hpart => ?_⟩
  have hfield := (List.of_mem_zip hpart).1
  obtain ⟨name, content, default⟩ := field
  obtain rfl : default = none := hdefault _ hfield
  refine ⟨List.forall₂_zip hname hpart, h _ hpart (hplain _ hfield), fun hleft => ?_⟩
  obtain ⟨habsent, inner, hinner⟩ := absent_of_shape (hplain _ hfield) (hholds _ hpart) (Datum.isLeftOut_iff.1 hleft)
  obtain rfl : content = .option inner := hinner
  rw [show entry.2 = .absent from habsent]
  rfl

/-- a reader that looks at the view alone reads a scalar back from whatever is seen as that -/
theorem leaf_readsBack {schema : Schema} {datum : Datum} {given : Scalar} (reader : View → Reading Datum)
    (hread : ∀ source, schema.read source = reader source.view) (hshape : datum.shape = .ok (.leaf given))
    (h : ∀ seen, given.SeenAs seen → reader (.scalar seen) = .ok datum) : ReadsBack schema.read datum := by
  intro v hseen
  obtain ⟨seen, hview, hseen⟩ := Datum.leaf_seen hseen hshape
  rw [hread, Source.view, hview]
  exact h seen hseen

section Sequences

variable {source : Source} {data : List Datum} {values : List Value}

theorem vec_readsBack {item : Schema} (hreads : ∀ datum ∈ data, ReadsBack item.read datum)
    (hview : source.view = .seq values) (hvalues : Datum.AllSeen data values) : (vec item).read source = .ok (.seq data) := by
  have hall : List.Forall₂ (fun value datum => item.read (.value value) = .ok datum) values data :=
    (forall₂_imp_of_mem hvalues fun datum hdatum value h => hreads datum hdatum value h).flip
  rw [read, hview]
  exact bind_eq_ok.2 ⟨data, mapM_eq_ok.2 hall, rfl⟩

theorem array_readsBack {item : Schema} (hreads : ∀ datum ∈ data, ReadsBack item.read datum)
    (hview : source.tupleView = .seq values) (hvalues : Datum.AllSeen data values) :
    (array data.length item).read source = .ok (.tuple data) := by
  rw [read, hview]
  exact bind_eq_ok.2 ⟨data, Reading.items_readsBack (forall₂_replicate hreads) hvalues _, rfl⟩

theorem tuple_readsBack {schemas : List Schema} (hreads : List.Forall₂ ReadsBack (Schema.readers schemas) data)
    (hview : source.tupleView = .seq values) (hvalues : Datum.AllSeen data values) :
    (tuple schemas).read source = .ok (.tuple data) := by
  rw [read, hview]
  exact bind_eq_ok.2 ⟨data, Reading.items_readsBack hreads hvalues _, rfl⟩

end Sequences

/-- an enumeration is read by the reader of the variant that is named in front of the content -/
theorem read_content {type : String} {variants : List Variant} {index : Nat} {variant : Variant} {reader : VariantReader}
    {value tag content : Value} {kind : TextKind} (hdistinct : (variants.map Variant.name).Nodup)
    (hvariant : variants[index]? = some variant) (hreader : (Variant.readers type index [variant]).head? = some reader)
    (hview : value.view = .map [(tag, content)]) (htag : tag.view = .scalar (.text kind reader.name)) :
    (enumeration type variants).read (.value value) = reader.read (some content) := by
  have hget := Variant.readers_getElem? type 0 hvariant
  rw [Nat.zero_add, hreader] at hget
  rw [read]
  exact Reading.enumerated_content (Variant.names_readers type 0 variants ▸ hdistinct) hget hview htag

/-- **Data of a schema are read back by its reader.** -/
theorem readsBack {schema : Schema} {datum : Datum} (hplain : schema.Plain) (hholds : schema.Holds datum) :
    ReadsBack schema.read datum := by
  induction hholds with
  | bool value =>
    refine leaf_readsBack Reading.bool (fun _ => by rw [read]) rfl fun seen hseen => ?_
    cases hseen
    rfl
  | @int type _ h =>
    refine leaf_readsBack (Reading.int type) (fun _ => by rw [read]) rfl fun seen hseen => ?_
    cases hseen with
    | int heq =>
      rw [HostInt.toInt_kind h] at heq
      simp only [Reading.int, heq, h, if_true]
  | single h =>
    refine leaf_readsBack Reading.single (fun _ => by rw [read]) rfl fun seen hseen => ?_
    cases hseen
    rw [Reading.single, Binary.narrow_widen h]
  | double bits =>
    refine leaf_readsBack Reading.double (fun _ => by rw [read]) rfl fun seen hseen => ?_
    cases hseen
    rfl
  | char value =>
    refine leaf_readsBack Reading.char (fun _ => by rw [read]) rfl fun seen hseen => ?_
    cases hseen
    simp [Reading.char]
  | text expected value =>
    refine leaf_readsBack (Reading.text expected) (fun _ => by rw [read]) rfl fun seen hseen => ?_
    cases hseen
    rfl
  | unit => cases hplain
  | absent content =>
    rintro v ⟨_, hshape, hseen⟩
    cases hshape
    cases hseen
  | present _ ih =>
    intro v hseen
    cases hplain with
    | option _ hcontent =>
      rw [read]
      · exact bind_eq_ok.2 ⟨_, ih hcontent v hseen, rfl⟩
      · intro h
        cases h
  | vec _ ih =>
    intro v hseen
    cases hplain with
    | vec hitem =>
      obtain ⟨values, hview, hvalues⟩ := Datum.seq_seen hseen
      exact vec_readsBack (fun datum hdatum => ih datum hdatum hitem) hview hvalues
  | array _ ih =>
    intro v hseen
    cases hplain with
    | array _ hitem =>
      obtain ⟨values, hview, hvalues⟩ := Datum.tuple_seen hseen
      exact array_readsBack (fun datum hdatum => ih datum hdatum hitem) hview hvalues
  | tuple hlen _ ih =>
    intro v hseen
    cases hplain with
    | tuple hitems =>
      obtain ⟨values, hview, hvalues⟩ := Datum.tuple_seen hseen
      exact tuple_readsBack (readers_readBack hlen hitems ih) hview hvalues
  | @map key value entries _ _ ihkey ihvalue =>
    intro v hseen
    cases hplain with
    | map hkey hvalue =>
      obtain ⟨seen, hview, hentries⟩ := Datum.map_seen hseen
      rw [read, Source.view, hview]
      refine bind_eq_ok.2 ⟨entries, mapM_eq_ok.2 ?_, rfl⟩
      refine List.Forall₂.flip (forall₂_imp_of_mem hentries fun entry hentry made h => ?_)
      exact bind_eq_ok.2 ⟨_, ihkey entry hentry hkey _ h.1, bind_eq_ok.2 ⟨_, ihvalue entry hentry hvalue _ h.2, rfl⟩⟩
  | @record name fields closed data hnames hholds ih =>
    intro v hseen
    cases hplain with
    | record _ _ hdistinct hdefault hfields =>
      rw [read]
      have hreads := fields_readBack hnames hdefault hfields hholds ih
      exact bind_eq_ok.2 ⟨_, Reading.record_readsBack (Field.names_readers fields ▸ hdistinct) hreads hseen _ closed, rfl⟩
  | @unitVariant type variants index name hvariant =>
    intro v hseen
    cases hplain with
    | enumeration _ hdistinct hfew hfields hdefault hcontents =>
      have hreader := Variant.readers_getElem? type 0 hvariant
      rw [Nat.zero_add] at hreader
      rw [read]
      have hlength : (Variant.readers type 0 variants).length = variants.length := by
        simpa using congrArg List.length (Variant.names_readers type 0 variants)
      exact Reading.enumerated_name (Variant.names_readers type 0 variants ▸ hdistinct) hreader (hlength ▸ hfew) hseen
  | newtypeVariant type hvariant _ ih =>
    intro v hseen
    cases hplain with
    | enumeration _ hdistinct hfew hfields hdefault hcontents =>
      obtain ⟨tag, value, kind, hview, htag, hseen⟩ := Datum.newtypeVariant_seen hseen
      rw [read_content hdistinct hvariant rfl hview htag]
      have hcontent := hcontents _ (List.mem_of_getElem? hvariant) _ (List.mem_singleton_self _)
      exact bind_eq_ok.2 ⟨value, rfl, bind_eq_ok.2 ⟨_, ih hcontent value hseen, rfl⟩⟩
  | tupleVariant type hvariant hlen _ ih =>
    intro v hseen
    cases hplain with
    | enumeration _ hdistinct hfew hfields hdefault hcontents =>
      obtain ⟨tag, value, kind, hview, htag, hseen⟩ := Datum.tupleVariant_seen hseen
      obtain ⟨values, hvalue, hvalues⟩ := Datum.tuple_seen hseen
      have hreads := readers_readBack hlen (hcontents _ (List.mem_of_getElem? hvariant)) ih
      rw [read_content hdistinct hvariant rfl hview htag]
      refine bind_eq_ok.2 ⟨value, rfl, ?_⟩
      simp only [hvalue]
      exact bind_eq_ok.2 ⟨_, Reading.items_readsBack hreads hvalues _, rfl⟩
  | recordVariant type hvariant hnames hholds ih =>
    intro v hseen
    cases hplain with
    | enumeration _ hdistinct hfew hfields hdefault hcontents =>
      obtain ⟨tag, value, kind, hview, htag, hseen⟩ := Datum.recordVariant_seen hseen
      have hmem := List.mem_of_getElem? hvariant
      have hreads := fields_readBack hnames (hdefault _ hmem) (List.forall_mem_map.1 (hcontents _ hmem)) hholds ih
      rw [read_content hdistinct hvariant rfl hview htag]
      refine bind_eq_ok.2 ⟨value, rfl, bind_eq_ok.2 ⟨_, ?_, rfl⟩⟩
      exact Reading.record_readsBack (Field.names_readers _ ▸ hfields _ hmem) hreads hseen _ false

end Schema

/-- **What becomes a value of a type that is chosen for it is read back from that value.** -/
theorem Datum.read_toVariant {schema : Schema} {datum : Datum} {type : Ty} {value : Value} (hplain : schema.Plain)
    (hholds : schema.Holds datum) (h : datum.toVariant policy = .ok (type, value)) : value.read schema = .ok datum := by
  obtain ⟨shape, hshape, h⟩ := bind_eq_ok.1 h
  have hseen : datum.SeenAs value.view := ⟨shape, hshape, Shape.infer_seenAs (Datum.isShape_shape hshape) h⟩
  rw [Value.read, Schema.readsBack hplain hholds value hseen]
  rfl

/-- commands of all four forms that a variant can have -/
def commands : Schema :=
  .vec (.enumeration "Command"
    [.unit "Stop", .newtype "Move" (.record "Point" [.required "x" (.int .i32), .required "y" (.int .i32)] false),
      .tuple "Say" [.string, .int .u8],
      .record "Turn" [.required "degrees" (.int .i16), .required "label" (.option .string)]])

def someCommands : Datum :=
  .seq [.unitVariant "Command" 0 "Stop",
    .newtypeVariant "Command" 1 "Move" (.record "Point" [("x", .int .i32 4), ("y", .int .i32 5)]),
    .tupleVariant "Command" 2 "Say" [.text "hi", .int .u8 7],
    .recordVariant "Command" 3 "Turn" [("degrees", .int .i16 (-90)), ("label", .absent)]]

/-- commands have no type in common; a turn is a dict, from which the label that it does not have is left out -/
def commandValues : Value :=
  .array [.variant (.basic (.text .string)) (.string "Stop"),
    .variant (.array (.dictEntry (.basic (.text .string)) (.struct [.basic (.int .int32), .basic (.int .int32)])))
      (.dict [(.string "Move", .struct [.scalar (.int .int32 4), .scalar (.int .int32 5)])]),
    .variant (.array (.dictEntry (.basic (.text .string)) (.struct [.basic (.text .string), .basic (.int .byte)])))
      (.dict [(.string "Say", .struct [.string "hi", .byte 7])]),
    .variant (.array (.dictEntry (.basic (.text .string)) (.array (.dictEntry (.basic (.text .string)) .variant))))
      (.dict [(.string "Turn", .dict [(.string "degrees", .variant (.basic (.int .int16)) (.scalar (.int .int16 (-90))))])])]

theorem plain_commands : commands.Plain := by
  have hpoint : Schema.Plain (.record "Point" [.required "x" (.int .i32), .required "y" (.int .i32)] false) :=
    .record _ _ (by decide) (by decide) (by simp [Field.content, Schema.Plain.int])
  have hlabel : Schema.Plain (.option .string) := .option (by simp) (.text _)
  refine .vec (.enumeration _ (by decide) (by decide) (by decide) (by decide) ?_)
  simp [Variant.contents, Field.content, Schema.Plain.int, Schema.Plain.text, hpoint, hlabel]

theorem holds_someCommands : commands.Holds someCommands := by
  have hpoint : Schema.Holds (.record "Point" [.required "x" (.int .i32), .required "y" (.int .i32)] false)
      (.record "Point" [("x", .int .i32 4), ("y", .int .i32 5)]) :=
    .record _ _ rfl (List.forall_mem_cons.2 ⟨.int rfl, List.forall_mem_singleton.2 (.int rfl)⟩)
  refine .vec ?_
  simp only [List.forall_mem_cons, List.not_mem_nil, false_implies, implies_true, and_true]
  refine ⟨.unitVariant _ rfl, .newtypeVariant _ rfl hpoint, .tupleVariant _ rfl rfl ?_, .recordVariant _ rfl rfl ?_⟩
  · exact List.forall_mem_cons.2 ⟨.text _ _, List.forall_mem_singleton.2 (.int rfl)⟩
  · exact List.forall_mem_cons.2 ⟨.int rfl, List.forall_mem_singleton.2 (.absent _)⟩

theorem toVariant_someCommands :
    someCommands.toVariant (.structsNamed ["Point"]) = .ok (.array .variant, commandValues) := by rfl

theorem Datum.read_toVariant_commands :
    commands.Plain ∧ commands.Holds someCommands ∧
      someCommands.toVariant (.structsNamed ["Point"]) = .ok (.array .variant, commandValues) ∧
      commandValues.read commands = .ok someCommands :=
  ⟨plain_commands, holds_someCommands, toVariant_someCommands,
    Datum.read_toVariant plain_commands holds_someCommands toVariant_someCommands⟩

end MessageBus
