/-
What no reader sees.

A reader meets values through their views only. `Value.datum` is all that can be seen of a value: sources that agree in it are
read alike by every schema, with the same data or the same fault (`Schema.read_blind`). To put parts of a value into variants
(`Value.Boxes`) changes nothing of it, whatever types these variants carry. So a value reads as it does without any variants,
and the arguments of a message as well (`Schema.read_boxed`).
-/
import Mathlib
import MessageBus.Data.Read

namespace MessageBus

/-! ## Variants around values -/

namespace Value

mutual
/-- a value without the variants around it and around its parts -/
def unboxed : Value → Value
  | scalar value => scalar value
  | array items => array (unboxedAll items)
  | dict entries => dict (unboxedEntries entries)
  | struct fields => struct (unboxedAll fields)
  | variant _ value => value.unboxed
/-- several values without variants -/
def unboxedAll : List Value → List Value
  | [] => []
  | value :: values => value.unboxed :: unboxedAll values
/-- keys and values of a dict without variants -/
def unboxedEntries : List (Value × Value) → List (Value × Value)
  | [] => []
  | (key, value) :: entries => (key.unboxed, value.unboxed) :: unboxedEntries entries
end

/-- the second value is the first with variants of any types around some of its parts, or around all of it -/
inductive Boxes : Value → Value → Prop where
  | scalar (value : Scalar) : Boxes (.scalar value) (.scalar value)
  | array {items boxed : List Value} (hlen : items.length = boxed.length)
      (h : ∀ part ∈ items.zip boxed, Boxes part.1 part.2) : Boxes (.array items) (.array boxed)
  | dict {entries boxed : List (Value × Value)} (hlen : entries.length = boxed.length)
      (hkey : ∀ part ∈ entries.zip boxed, Boxes part.1.1 part.2.1)
      (hvalue : ∀ part ∈ entries.zip boxed, Boxes part.1.2 part.2.2) : Boxes (.dict entries) (.dict boxed)
  | struct {fields boxed : List Value} (hlen : fields.length = boxed.length)
      (h : ∀ part ∈ fields.zip boxed, Boxes part.1 part.2) : Boxes (.struct fields) (.struct boxed)
  | variant (type : Ty) {value boxed : Value} (h : Boxes value boxed) : Boxes (.variant type value) (.variant type boxed)
  | box (type : Ty) {value boxed : Value} (h : Boxes value boxed) : Boxes value (.variant type boxed)

theorem datumAll_eq_map (values : List Value) : datumAll values = values.map datum := by
  induction values with
  | nil => rfl
  | cons value values ih => rw [datumAll, ih, List.map_cons]

theorem datumEntries_eq_map (entries : List (Value × Value)) :
    datumEntries entries = entries.map fun entry => (entry.1.datum, entry.2.datum) := by
  induction entries with
  | nil => rfl
  | cons entry entries ih => rw [datumEntries, ih, List.map_cons]

mutual
/-- the variants of a value cannot be seen -/
theorem datum_unboxed : ∀ value : Value, value.unboxed.datum = value.datum
  | scalar _ => by rw [unboxed]
  | array items | struct items => by rw [unboxed, datum, datum, datumAll_unboxed]
  | dict entries => by rw [unboxed, datum, datum, datumEntries_unboxed]
  | variant _ value => by rw [unboxed, datum, datum_unboxed value]
theorem datumAll_unboxed : ∀ values : List Value, datumAll (unboxedAll values) = datumAll values
  | [] => rfl
  | value :: values => by rw [unboxedAll, datumAll, datumAll, datum_unboxed value, datumAll_unboxed values]
theorem datumEntries_unboxed : ∀ entries : List (Value × Value), datumEntries (unboxedEntries entries) = datumEntries entries
  | [] => rfl
  | (key, value) :: entries => by
    rw [unboxedEntries, datumEntries, datumEntries, datum_unboxed key, datum_unboxed value, datumEntries_unboxed entries]
end

/-- what can be seen of two values is the same -/
abbrev Same (v w : Value) : Prop := v.datum = w.datum

/-- what can be seen of two entries of dicts is the same -/
abbrev SameEntry (entry other : Value × Value) : Prop := entry.1.Same other.1 ∧ entry.2.Same other.2

theorem datumAll_eq_iff {vs ws : List Value} : datumAll vs = datumAll ws ↔ List.Forall₂ Same vs ws := by
  rw [datumAll_eq_map, datumAll_eq_map, ← List.forall₂_eq_eq_eq, List.forall₂_map_left_iff, List.forall₂_map_right_iff]

theorem datumEntries_eq_iff {es fs : List (Value × Value)} :
    datumEntries es = datumEntries fs ↔ List.Forall₂ SameEntry es fs := by
  rw [datumEntries_eq_map, datumEntries_eq_map, ← List.forall₂_eq_eq_eq, List.forall₂_map_left_iff,
    List.forall₂_map_right_iff]
  simp only [Prod.mk.injEq]

/-- **Variants around parts of a value cannot be seen.** -/
theorem Boxes.same {value boxed : Value} (h : value.Boxes boxed) : boxed.Same value := by
  have hall {vs ws : List Value} (hlen : vs.length = ws.length) (h : ∀ part ∈ vs.zip ws, part.2.Same part.1) :
      datumAll ws = datumAll vs :=
    datumAll_eq_iff.2 (List.Forall₂.flip (List.forall₂_iff_zip.2 ⟨hlen, fun hpart => h _ hpart⟩))
  induction h with
  | scalar => rfl
  | array hlen _ ih | struct hlen _ ih => rw [Same, datum, datum, hall hlen ih]
  | dict hlen _ _ ihkey ihvalue =>
    have hentries := List.forall₂_iff_zip.2 ⟨hlen, fun hpart => And.intro (ihkey _ hpart) (ihvalue _ hpart)⟩
    rw [Same, datum, datum, datumEntries_eq_iff.2 (List.Forall₂.flip hentries)]
  | variant type _ ih => rw [Same, datum, datum, ih]
  | box type _ ih => rw [Same, datum, ih]

end Value

/-! ## Views of the same -/

/-- two views show the same -/
inductive View.Same : View → View → Prop where
  | int {kind kind' : IntKind} {bits : BitVec kind.width} {bits' : BitVec kind'.width}
      (hsigned : kind.isSigned = kind'.isSigned) (h : kind.toInt bits = kind'.toInt bits') :
      Same (.scalar (.int kind bits)) (.scalar (.int kind' bits'))
  | boolean (value : Bool) : Same (.scalar (.boolean value)) (.scalar (.boolean value))
  | double (bits : BitVec 64) : Same (.scalar (.double bits)) (.scalar (.double bits))
  | text (kind kind' : TextKind) (value : String) : Same (.scalar (.text kind value)) (.scalar (.text kind' value))
  | seq {vs ws : List Value} (h : List.Forall₂ Value.Same vs ws) : Same (.seq vs) (.seq ws)
  | map {es fs : List (Value × Value)} (h : List.Forall₂ Value.SameEntry es fs) : Same (.map es) (.map fs)

/-- the datum of whatever is viewed -/
def View.datum : View → Datum
  | scalar value => (Value.scalar value).datum
  | seq items => .seq (Value.datumAll items)
  | map entries => .map (Value.datumEntries entries)

theorem Value.datum_view : ∀ value : Value, value.view.datum = value.datum
  | scalar _ | array _ | struct _ | dict _ => rfl
  | variant _ value => by rw [view, datum, datum_view value]

theorem IntKind.isSigned_of_hostInt {kind kind' : IntKind} (h : kind.hostInt = kind'.hostInt) :
    kind.isSigned = kind'.isSigned := by
  cases kind <;> cases kind' <;> first | rfl | cases h

theorem View.same_of_datum {V W : View} (h : V.datum = W.datum) : V.Same W := by
  rcases V with (⟨kind, bits⟩ | b | bits | ⟨kind, text⟩) | items | entries <;>
    rcases W with (⟨kind', bits'⟩ | b' | bits' | ⟨kind', text'⟩) | items' | entries' <;> try (cases h; done)
  · obtain ⟨hkind, hn⟩ := Datum.int.inj h
    exact .int (IntKind.isSigned_of_hostInt hkind) hn
  · cases h
    exact .boolean b
  · cases h
    exact .double bits
  · cases h
    exact .text kind kind' text
  · exact .seq (Value.datumAll_eq_iff.1 (Datum.seq.inj h))
  · exact .map (Value.datumEntries_eq_iff.1 (Datum.map.inj h))

theorem Value.Same.view {v w : Value} (h : v.Same w) : v.view.Same w.view :=
  View.same_of_datum (by rw [datum_view, datum_view, h])

theorem View.Same.sight_eq {V W : View} (h : V.Same W) : V.sight = W.sight := by
  cases h with
  | int _ h => rw [sight, sight, h]
  | _ => rfl

/-- two sources offer the same -/
inductive Source.Same : Source → Source → Prop where
  | value {v w : Value} (h : v.Same w) : Same (.value v) (.value w)
  | arguments {vs ws : List Value} (h : List.Forall₂ Value.Same vs ws) : Same (.arguments vs) (.arguments ws)

namespace Source.Same

variable {s s' : Source}

theorem view (h : s.Same s') : s.view.Same s'.view := by
  cases h with
  | value h => exact h.view
  | arguments h =>
    cases h with
    | nil => exact .seq .nil
    | cons hfirst hrest =>
      cases hrest with
      | nil => exact hfirst.view
      | cons hsecond hrest => exact .seq (.cons hfirst (.cons hsecond hrest))

theorem tupleView (h : s.Same s') : s.tupleView.Same s'.tupleView := by
  cases h with
  | value h => exact h.view
  | arguments h => exact .seq h

theorem toValue (h : s.Same s') : s.toValue.Same s'.toValue := by
  have hstruct {vs ws : List Value} (h : List.Forall₂ Value.Same vs ws) : (Value.struct vs).Same (.struct ws) := by
    rw [Value.Same, Value.datum, Value.datum, Value.datumAll_eq_iff.2 h]
  cases h with
  | value h => exact h
  | arguments h =>
    cases h with
    | nil => exact hstruct .nil
    | cons hfirst hrest =>
      cases hrest with
      | nil => exact hfirst
      | cons hsecond hrest => exact hstruct (.cons hfirst (.cons hsecond hrest))

end Source.Same

/-! ## Readers -/

/-- a reader does not tell sources apart that offer the same -/
def DatumReader.Blind (reader : DatumReader) : Prop := ∀ s s' : Source, s.Same s' → reader s = reader s'

/-- the contents of two variants are the same, if they have any -/
abbrev SameContent : Option Value → Option Value → Prop := Option.Rel Value.Same

/-- a variant is read alike from contents that are the same -/
def VariantReader.Blind (reader : VariantReader) : Prop := ∀ c c', SameContent c c' → reader.read c = reader.read c'

namespace Reading

variable {V W : View} (h : V.Same W)
include h

theorem wrongType_congr {α : Type} (expected : String) : (wrongType V expected : Reading α) = wrongType W expected := by
  rw [wrongType, wrongType, h.sight_eq]

theorem bool_congr : bool V = bool W := by
  cases h with
  | int hsigned hn => exact wrongType_congr (.int hsigned hn) _
  | _ => rfl

theorem int_congr (type : HostInt) : int type V = int type W := by
  cases h with
  | int _ hn => rw [int, int, hn]
  | _ => rfl

theorem single_congr : single V = single W := by
  cases h with
  | int _ hn => rw [single, single, hn]
  | _ => rfl

theorem double_congr : double V = double W := by
  cases h with
  | int _ hn => rw [double, double, hn]
  | _ => rfl

theorem char_congr : char V = char W := by
  cases h with
  | int hsigned hn => exact wrongType_congr (.int hsigned hn) _
  | _ => rfl

theorem text_congr (expected : String) : text expected V = text expected W := by
  cases h with
  | int hsigned hn => exact wrongType_congr (.int hsigned hn) _
  | _ => rfl

theorem identifier_congr (what : String) (names : List String) : identifier what names V = identifier what names W := by
  cases h with
  | @int kind kind' bits bits' hsigned hn =>
    by_cases hs : kind.isSigned = true
    · rw [identifier, identifier, if_pos hs, if_pos (hsigned ▸ hs)]
      exact wrongType_congr (.int hsigned hn) what
    · -- a number without a sign is the word itself
      have hs' : ¬kind'.isSigned = true := hsigned ▸ hs
      rw [IntKind.toInt, IntKind.toInt, if_neg hs, if_neg hs', Int.natCast_inj] at hn
      rw [identifier, identifier, if_neg hs, if_neg hs', hn]
  | _ => rfl

theorem unknownField_congr (names : List String) : unknownField names V = unknownField names W := by
  cases h with
  | int hsigned hn => exact congrArg (ReadFault.wrongValue · _) (View.Same.int hsigned hn).sight_eq
  | _ => rfl

theorem unknownVariant_congr (names : List String) : unknownVariant names V = unknownVariant names W := by
  cases h with
  | int hsigned hn => exact congrArg (ReadFault.wrongValue · _) (View.Same.int hsigned hn).sight_eq
  | _ => rfl

omit h in
theorem items_congr {readers : List DatumReader} (hblind : ∀ reader ∈ readers, reader.Blind) {vs ws : List Value}
    (h : List.Forall₂ Value.Same vs ws) (expected : String) : items expected readers vs = items expected readers ws := by
  have hgo : ∀ done, items.go expected done readers vs = items.go expected done readers ws := by
    induction readers generalizing vs ws with
    | nil => exact fun _ => by rw [items.go, items.go]
    | cons reader readers ih =>
      obtain ⟨hreader, hreaders⟩ := List.forall_mem_cons.1 hblind
      intro done
      cases h with
      | nil => rfl
      | cons hfirst hrest => rw [items.go, items.go, hreader _ _ (.value hfirst), ih hreaders hrest]
  exact hgo 0

section Record

variable {fields : List FieldReader} (hblind : ∀ field ∈ fields, DatumReader.Blind field.read)
include hblind

omit h in
theorem fieldsOfSeq_congr {vs ws : List Value} (h : List.Forall₂ Value.Same vs ws) (expected : String) :
    fieldsOfSeq expected fields vs = fieldsOfSeq expected fields ws := by
  have hgo : ∀ done, fieldsOfSeq.go expected done fields vs = fieldsOfSeq.go expected done fields ws := by
    induction fields generalizing vs ws with
    | nil => exact fun _ => by rw [fieldsOfSeq.go, fieldsOfSeq.go]
    | cons field fields ih =>
      obtain ⟨hfield, hfields⟩ := List.forall_mem_cons.1 hblind
      intro done
      cases h with
      | nil => rfl
      | cons hfirst hrest => rw [fieldsOfSeq.go, fieldsOfSeq.go, hfield _ _ (.value hfirst), ih hfields hrest]
  exact hgo 0

omit h in
theorem fieldsOfMap_congr (closed : Bool) {es fs : List (Value × Value)} (h : List.Forall₂ Value.SameEntry es fs)
    (found : List (Option Datum)) : fieldsOfMap fields closed es found = fieldsOfMap fields closed fs found := by
  induction h generalizing found with
  | nil => rfl
  | @cons entry other _ _ hentry _ ih =>
    obtain ⟨hkey, hvalue⟩ := hentry
    rw [fieldsOfMap, fieldsOfMap, identifier_congr hkey.view, unknownField_congr hkey.view]
    refine bind_congr fun place => ?_
    cases place with
    | none => rw [ih]
    | some place =>
      simp only
      split
      · next field hfield hplace =>
          rw [hblind field (List.mem_of_getElem? hfield) _ _ (.value hvalue)]
          exact bind_congr fun datum => ih _
      · rfl
      · exact ih found

theorem record_congr (title : String) (closed : Bool) : record title fields closed V = record title fields closed W := by
  cases h with
  | int hsigned hn => exact wrongType_congr (.int hsigned hn) title
  | seq h => exact fieldsOfSeq_congr hblind h _
  | map h => rw [record, record, fieldsOfMap_congr hblind closed h]
  | _ => rfl

end Record

section Enumeration

variable {variants : List VariantReader} (hblind : ∀ variant ∈ variants, variant.Blind)
include hblind

omit h in
theorem variant_congr {tag tag' : Value} (htag : tag.Same tag') {content content' : Option Value}
    (hcontent : SameContent content content') : variant variants tag content = variant variants tag' content' := by
  rw [variant, variant, identifier_congr htag.view, unknownVariant_congr htag.view]
  refine bind_congr fun place => ?_
  cases place with
  | none => rfl
  | some place =>
    cases hplace : variants[place]? with
    | none => simp only [hplace]
    | some reader => simpa only [hplace] using hblind reader (List.mem_of_getElem? hplace) _ _ hcontent

omit h in
theorem ofValue_congr {v w : Value} (h : v.Same w) : enumerated.ofValue variants v = enumerated.ofValue variants w := by
  have halone := variant_congr hblind h .none
  have hview := h.view
  rw [enumerated.ofValue, enumerated.ofValue]
  generalize v.view = V, w.view = W at hview
  cases hview with
  | map hentries =>
    cases hentries with
    | nil => rfl
    | cons hfirst hrest =>
      cases hrest with
      | nil => exact variant_congr hblind hfirst.1 (.some hfirst.2)
      | cons _ hrest => exact congrArg (fun n => Except.error (ReadFault.wrongLength (n + 2) _)) hrest.length_eq
  | _ => exact halone

omit h in
theorem enumerated_congr {s s' : Source} (h : s.Same s') : enumerated variants s = enumerated variants s' := by
  cases h with
  | value h => exact ofValue_congr hblind h
  | arguments h =>
    cases h with
    | nil => rfl
    | cons hfirst hrest =>
      cases hrest with
      | nil => exact ofValue_congr hblind hfirst
      | cons _ hrest => exact congrArg (fun n => Except.error (ReadFault.wrongLength (n + 2) _)) hrest.length_eq

end Enumeration

omit h in
theorem firstOf_congr {readers : List DatumReader} (hblind : ∀ reader ∈ readers, reader.Blind) {s s' : Source}
    (h : s.Same s') (name : String) : firstOf name s readers = firstOf name s' readers := by
  induction readers with
  | nil => rfl
  | cons reader readers ih =>
    obtain ⟨hreader, hreaders⟩ := List.forall_mem_cons.1 hblind
    rw [firstOf, firstOf, hreader s s' h, ih hreaders]

end Reading

/-! ## Schemas -/

namespace Reading

section Shown

variable {α : Type} {V W : View} (expected : String)

/-- what takes nothing but sequences -/
theorem onSeq_congr (f : List Value → Reading α) (hf : ∀ vs ws, List.Forall₂ Value.Same vs ws → f vs = f ws) :
    V.Same W → (match V with | .seq values => f values | view => wrongType view expected)
      = match W with | .seq values => f values | view => wrongType view expected := by
  intro h
  cases h with
  | seq h => exact hf _ _ h
  | int hsigned hn => exact wrongType_congr (.int hsigned hn) expected
  | _ => rfl

/-- what takes nothing but maps -/
theorem onMap_congr (f : List (Value × Value) → Reading α)
    (hf : ∀ es fs, List.Forall₂ Value.SameEntry es fs → f es = f fs) :
    V.Same W → (match V with | .map entries => f entries | view => wrongType view expected)
      = match W with | .map entries => f entries | view => wrongType view expected := by
  intro h
  cases h with
  | map h => exact hf _ _ h
  | int hsigned hn => exact wrongType_congr (.int hsigned hn) expected
  | _ => rfl

end Shown

theorem mapM_congr {α β : Type} {R : α → α → Prop} {f : α → Reading β} {xs ys : List α} (h : List.Forall₂ R xs ys)
    (hf : ∀ x y, R x y → f x = f y) : xs.mapM f = ys.mapM f := by
  induction h with
  | nil => rfl
  | cons hfirst _ ih => rw [List.mapM_cons, List.mapM_cons, hf _ _ hfirst, ih]

/-- whether there is content is seen, and the content as what it is -/
theorem content_congr {α : Type} {what : String} {c c' : Option Value} (h : SameContent c c') {f : Value → Reading α}
    (hf : ∀ v w : Value, v.Same w → f v = f w) : (content what c >>= f) = content what c' >>= f := by
  cases h with
  | none => rfl
  | some h => exact hf _ _ h

end Reading

mutual
/-- **A schema reads alike whatever looks the same.** -/
theorem Schema.read_blind (schema : Schema) : schema.read.Blind := by
  intro s s' h
  cases schema with
  | bool => rw [Schema.read, Schema.read, Reading.bool_congr h.view]
  | int type => rw [Schema.read, Schema.read, Reading.int_congr h.view]
  | single => rw [Schema.read, Schema.read, Reading.single_congr h.view]
  | double => rw [Schema.read, Schema.read, Reading.double_congr h.view]
  | char => rw [Schema.read, Schema.read, Reading.char_congr h.view]
  | text expected => rw [Schema.read, Schema.read, Reading.text_congr h.view]
  | unsupported type => rw [Schema.read, Schema.read]
  | unit =>
    cases h with
    | value => rfl
    | arguments h =>
      cases h with
      | nil => rfl
      | cons _ hrest => exact congrArg (fun n => Except.error (ReadFault.wrongLength (n + 1) _)) hrest.length_eq
  | unitStruct name =>
    have hview := h.view
    cases h with
    | value => rfl
    | arguments => exact Reading.wrongType_congr hview _
  | newtypeStruct name content =>
    have hcontent := Schema.read_blind content
    have hsame := congrArg (fun reading => reading >>= fun datum => pure (Datum.newtypeStruct name datum)) (hcontent s s' h)
    cases h with
    | value => exact hsame
    | arguments h =>
      cases h with
      | nil => exact hsame
      | cons hfirst hrest =>
        cases hrest with
        | nil => exact congrArg (· >>= _) (hcontent _ _ (.value hfirst))
        | cons => exact hsame
  | option content =>
    have hcontent := Schema.read_blind content s s' h
    cases h with
    | value => exact congrArg (· >>= _) hcontent
    | arguments h =>
      cases h with
      | nil => rfl
      | cons => exact congrArg (· >>= _) hcontent
  | vec item =>
    have hitem := Schema.read_blind item
    rw [Schema.read, Schema.read]
    refine Reading.onSeq_congr _ _ (fun vs ws hitems => ?_) h.view
    rw [Reading.mapM_congr hitems fun v w hsame => hitem _ _ (.value hsame)]
  | array length item =>
    have hitem := Schema.read_blind item
    rw [Schema.read, Schema.read]
    refine Reading.onSeq_congr _ _ (fun vs ws hitems => ?_) h.tupleView
    rw [Reading.items_congr (fun reader hreader => List.eq_of_mem_replicate hreader ▸ hitem) hitems]
  | tuple items =>
    rw [Schema.read, Schema.read]
    refine Reading.onSeq_congr _ _ (fun vs ws hitems => ?_) h.tupleView
    rw [Reading.items_congr (Schema.readers_blind items) hitems]
  | tupleStruct name items =>
    rw [Schema.read, Schema.read]
    refine Reading.onSeq_congr _ _ (fun vs ws hitems => ?_) h.tupleView
    exact congrArg (· >>= _) (Reading.items_congr (Schema.readers_blind items) hitems _)
  | map key value =>
    have hkey := Schema.read_blind key
    have hvalue := Schema.read_blind value
    rw [Schema.read, Schema.read]
    refine Reading.onMap_congr _ _ (fun es fs hentries => ?_) h.view
    rw [Reading.mapM_congr hentries fun e f hentry => by
      rw [hkey _ _ (.value hentry.1), hvalue _ _ (.value hentry.2)]]
  | record name fields closed =>
    rw [Schema.read, Schema.read, Reading.record_congr h.view (Field.readers_blind fields)]
  | enumeration name variants =>
    rw [Schema.read, Schema.read, Reading.enumerated_congr (Variant.readers_blind name 0 variants) h]
  | firstOf name options =>
    rw [Schema.read, Schema.read, Reading.firstOf_congr (Schema.readers_blind options) (.value h.toValue)]
  | any => rw [Schema.read, Schema.read, h.toValue]
  | ignored => rw [Schema.read, Schema.read]
  | valueFirst =>
    rw [Schema.read, Schema.read]
    exact Reading.onMap_congr _ _ (fun _ _ _ => rfl) h.view
theorem Schema.readers_blind (schemas : List Schema) : ∀ reader ∈ Schema.readers schemas, reader.Blind := by
  cases schemas with
  | nil => exact List.forall_mem_nil _
  | cons schema schemas =>
    rw [Schema.readers]
    exact List.forall_mem_cons.2 ⟨Schema.read_blind schema, Schema.readers_blind schemas⟩
theorem Field.readers_blind (fields : List Field) : ∀ field ∈ Field.readers fields, DatumReader.Blind field.read := by
  cases fields with
  | nil => exact List.forall_mem_nil _
  | cons field fields =>
    obtain ⟨name, schema, default⟩ := field
    have hfirst := Schema.read_blind schema
    have hrest := Field.readers_blind fields
    cases schema <;> exact List.forall_mem_cons.2 ⟨hfirst, hrest⟩
theorem Variant.readers_blind (type : String) (index : Nat) (variants : List Variant) :
    ∀ variant ∈ Variant.readers type index variants, variant.Blind := by
  cases variants with
  | nil => exact List.forall_mem_nil _
  | cons variant variants =>
    have hrest := Variant.readers_blind type (index + 1) variants
    cases variant with
    | unit name =>
      refine List.forall_mem_cons.2 ⟨fun c c' h => ?_, hrest⟩
      cases h with
      | none => rfl
      | some => rfl
    | newtype name schema =>
      refine List.forall_mem_cons.2 ⟨fun c c' h => Reading.content_congr h fun v w hsame => ?_, hrest⟩
      rw [Schema.read_blind schema _ _ (.value hsame)]
    | tuple name schemas =>
      refine List.forall_mem_cons.2 ⟨fun c c' h => Reading.content_congr h fun v w hsame => ?_, hrest⟩
      refine Reading.onSeq_congr _ _ (fun vs ws hitems => ?_) hsame.view
      exact congrArg (· >>= _) (Reading.items_congr (Schema.readers_blind schemas) hitems _)
    | record name fields =>
      refine List.forall_mem_cons.2 ⟨fun c c' h => Reading.content_congr h fun v w hsame => ?_, hrest⟩
      exact congrArg (· >>= _) (Reading.record_congr hsame.view (Field.readers_blind fields) _ _)
end

/-- **Reading never sees variants, whatever they are put around.** -/
theorem Schema.read_boxed (schema : Schema) :
    (∀ value boxed : Value, value.Boxes boxed → boxed.read schema = value.unboxed.read schema) ∧
      ∀ body boxed bare : Body, List.Forall₂ Value.Boxes body.values boxed.values →
        bare.values = body.values.map Value.unboxed → boxed.read schema = bare.read schema := by
  have hblind := schema.read_blind
  refine ⟨fun value boxed h => ?_, fun body boxed bare h hbare => ?_⟩
  · have hsame : boxed.Same value.unboxed := h.same.trans value.datum_unboxed.symm
    rw [Value.read, Value.read, hblind _ _ (.value hsame)]
  · have hsame : List.Forall₂ Value.Same boxed.values bare.values := by
      rw [hbare, List.forall₂_map_right_iff]
      exact h.flip.imp fun boxed value h => h.same.trans value.datum_unboxed.symm
    rw [Body.read, Body.read, hblind _ _ (.arguments hsame)]

/-- a level, among others that a program may be set to -/
def levelSchema : Schema := .enumeration "Setting" [.unit "Default", .newtype "Level" (.int .u8)]

/-- the dict of one entry that is the level 3 -/
def level : Value := .dict [(.string "Level", .byte 3)]

/-- the level with its name, its content and all of it in variants, the content in two of them -/
def boxedLevel : Value :=
  .variant .variant (.dict [(.variant (.basic (.text .string)) (.string "Level"),
    .variant .variant (.variant (.basic (.int .byte)) (.byte 3)))])

theorem boxes_level : level.Boxes boxedLevel := by
  have hname : (Value.string "Level").Boxes (.variant (.basic (.text .string)) (.string "Level")) := .box _ (.scalar _)
  have hcontent : (Value.byte 3).Boxes (.variant .variant (.variant (.basic (.int .byte)) (.byte 3))) :=
    .box _ (.box _ (.scalar _))
  exact .box _ (.dict rfl (List.forall_mem_singleton.2 hname) (List.forall_mem_singleton.2 hcontent))

/-- a name and a level as arguments -/
def levelBody : Body :=
  ⟨[.basic (.text .string), .array (.dictEntry (.basic (.text .string)) (.basic (.int .byte)))], [.string "x", level], rfl⟩

def boxedLevelBody : Body := ⟨[.variant, .variant], [.variant (.basic (.text .string)) (.string "x"), boxedLevel], rfl⟩

theorem Schema.read_boxed_level :
    level.Boxes boxedLevel ∧ boxedLevel.read levelSchema = level.unboxed.read levelSchema ∧
      level.unboxed.read levelSchema = .ok (.newtypeVariant "Setting" 1 "Level" (.int .u8 3)) ∧
      List.Forall₂ Value.Boxes levelBody.values boxedLevelBody.values ∧
      levelBody.values = levelBody.values.map Value.unboxed ∧
      boxedLevelBody.read (.tuple [.string, levelSchema]) = levelBody.read (.tuple [.string, levelSchema]) := by
  have hbody : List.Forall₂ Value.Boxes levelBody.values boxedLevelBody.values :=
    .cons (.box _ (.scalar _)) (.cons boxes_level .nil)
  exact ⟨boxes_level, (Schema.read_boxed levelSchema).1 level boxedLevel boxes_level, by rfl, hbody, rfl,
    (Schema.read_boxed _).2 levelBody boxedLevelBody levelBody hbody rfl⟩

end MessageBus
