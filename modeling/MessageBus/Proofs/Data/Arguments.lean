/-
Data as the arguments of a message.

Writing decides by the types of the signature, by the shape and by the length of a tuple whether data are laid out over
the arguments (`Body.spread_cases`), reading by the number of arguments and by what is wanted. A tuple always reads the
whole list of arguments. So all data are read back from the body that they become, but a tuple that is a single argument,
which is read back as the only item of a tuple (`Body.read_ofDatum`); unless, in both cases, something strays on its way.
-/
import Mathlib
import MessageBus.Proofs.Data.ReadBack

namespace MessageBus

variable {policy : Policy}

namespace Body

/-- a tuple is an argument by itself: there is one type, and a tuple of one item is not laid out only for a struct -/
def Sole (types : List Ty) (datum : Datum) : Prop :=
  ∃ type items, types = [type] ∧ datum = .tuple items ∧ (items.length = 1 → ∃ fields, type = .struct fields)

/-- some part of a datum strays when the datum is laid out over the arguments of a signature -/
def Strays (signature : String) (datum : Datum) : Prop :=
  ∃ types shape items, Ty.parse signature = .ok types ∧ datum.shape = .ok shape ∧
    spread signature types shape = .ok items ∧ ∃ part ∈ types.zip items, Shape.Strays part.1 part.2

/-! ## Laying out -/

/-- nothing, the item of a tuple, the shape as it is, or as many items as types -/
theorem spread_cases {signature : String} {types : List Ty} {shape : Shape} {items : List Shape}
    (h : spread signature types shape = .ok items) :
    (types = [] ∧ shape = .absent) ∨
      (∃ type item, types = [type] ∧ shape = .tuple [item] ∧ items = [item] ∧ ∀ fields, type ≠ .struct fields) ∨
      (∃ type, types = [type] ∧ items = [shape] ∧ ∀ item, shape = .tuple [item] → ∃ fields, type = .struct fields) ∨
      (items.length ≠ 1 ∧ (shape = .tuple items ∨ shape = .seq items)) := by
  have hmany : (∀ type, types = [type] → False) → types.length ≠ 1 := fun hnot hlen => by
    obtain ⟨type, htype⟩ := List.length_eq_one_iff.1 hlen
    exact hnot type htype
  unfold spread at h
  split at h
  · exact .inl ⟨rfl, rfl⟩
  · cases h
    exact .inr (.inr (.inl ⟨_, rfl, rfl, fun _ _ => ⟨_, rfl⟩⟩))
  · cases h
    next hstruct => exact .inr (.inl ⟨_, _, rfl, rfl, rfl, hstruct⟩)
  · cases h
    next hstruct hone => exact .inr (.inr (.inl ⟨_, rfl, rfl, fun item heq => absurd heq (hone item)⟩))
  · split_ifs at h with hlen
    cases h
    exact .inr (.inr (.inr ⟨hlen ▸ hmany (by assumption), .inl rfl⟩))
  · split_ifs at h with hlen
    cases h
    exact .inr (.inr (.inr ⟨hlen ▸ hmany (by assumption), .inr rfl⟩))
  · cases h

/-- what is absent is no argument -/
theorem absent_arguments {signature : String} {types : List Ty} {items : List Shape} {values : List Value}
    (hspread : spread signature types .absent = .ok items) (hlen : types.length = items.length)
    (hseen : List.Forall₂ Shape.SeenAs items (values.map Value.view)) : values = [] := by
  obtain ⟨rfl, -⟩ | ⟨_, _, -, habsent, -⟩ | ⟨_, -, rfl, -⟩ | ⟨-, habsent | habsent⟩ := spread_cases hspread
  · obtain rfl := List.eq_nil_of_length_eq_zero hlen.symm
    exact List.map_eq_nil_iff.1 (List.forall₂_nil_left_iff.1 hseen)
  · cases habsent
  · match values, hseen with
    | [value], .cons hvalue .nil => cases hvalue
  · cases habsent
  · cases habsent

end Body

/-! ## Reading arguments -/

theorem Datum.length_shapeAll {data : List Datum} {shapes : List Shape} (h : Datum.shapeAll data = .ok shapes) :
    shapes.length = data.length := by
  rw [Datum.shapeAll_eq_mapM, mapM_eq_ok] at h
  exact h.length_eq.symm

namespace Schema

variable {schema : Schema} {datum : Datum}

/-- a single argument is read as itself, unless a tuple is wanted -/
theorem read_argument (hplain : schema.Plain) (hoption : ∀ content, schema ≠ .option content) (hholds : schema.Holds datum)
    (htuple : ∀ items, datum ≠ .tuple items) (value : Value) :
    schema.read (.arguments [value]) = schema.read (.value value) := by
  cases hholds with
  | unit => cases hplain
  | absent content | present => exact absurd rfl (hoption _)
  | array | tuple => exact absurd rfl (htuple _)
  | _ => rw [read, read]; rfl

/-- a tuple is read from all arguments -/
theorem tuple_arguments {items : List Datum} {values : List Value} (hplain : schema.Plain)
    (hholds : schema.Holds (.tuple items)) (hvalues : Datum.AllSeen items values) :
    schema.read (.arguments values) = .ok (.tuple items) := by
  have hview : (Source.arguments values).tupleView = .seq values := rfl
  cases hholds with
  | array hitems =>
    cases hplain with
    | array _ hitem => exact array_readsBack (fun datum hdatum => readsBack hitem (hitems datum hdatum)) hview hvalues
  | tuple hlen hparts =>
    cases hplain with
    | tuple hschemas =>
      exact tuple_readsBack (readers_readBack hlen hschemas fun part hpart h => readsBack h (hparts part hpart)) hview hvalues

/-- a sequence is read from all arguments, unless there is one -/
theorem seq_arguments {items : List Datum} {values : List Value} (hplain : schema.Plain)
    (hholds : schema.Holds (.seq items)) (hvalues : Datum.AllSeen items values) (hmany : values.length ≠ 1) :
    schema.read (.arguments values) = .ok (.seq items) := by
  have hview : (Source.arguments values).view = .seq values := by
    rw [Source.view]
    rintro value rfl
    exact hmany rfl
  cases hholds with
  | vec hitems =>
    cases hplain with
    | vec hitem => exact vec_readsBack (fun datum hdatum => readsBack hitem (hitems datum hdatum)) hview hvalues

/-- only tuples and sequences have items by their shapes -/
theorem items_of_shape {shape : Shape} {shapes : List Shape} (hplain : schema.Plain)
    (hoption : ∀ content, schema ≠ .option content) (hholds : schema.Holds datum) (hshape : datum.shape = .ok shape)
    (hitems : shape = .tuple shapes ∨ shape = .seq shapes) :
    ∃ items, Datum.shapeAll items = .ok shapes ∧
      (shape = .tuple shapes ∧ datum = .tuple items ∨ shape = .seq shapes ∧ datum = .seq items) := by
  cases hholds with
  | unit => cases hplain
  | absent content | present => exact absurd rfl (hoption _)
  | @array _ items | @tuple _ items =>
    obtain ⟨_, hshapes, hshape⟩ := bind_eq_ok.1 hshape
    cases hshape
    rcases hitems with hitems | hitems <;> cases hitems
    exact ⟨items, hshapes, .inl ⟨rfl, rfl⟩⟩
  | @vec _ items =>
    obtain ⟨_, hshapes, hshape⟩ := bind_eq_ok.1 hshape
    cases hshape
    rcases hitems with hitems | hitems <;> cases hitems
    exact ⟨items, hshapes, .inr ⟨rfl, rfl⟩⟩
  | map | record | newtypeVariant | tupleVariant | recordVariant =>
    obtain ⟨_, _, hshape⟩ := bind_eq_ok.1 hshape
    cases hshape
    rcases hitems with hitems | hitems <;> cases hitems
  | _ =>
    cases hshape
    rcases hitems with hitems | hitems <;> cases hitems

/-- a value that is seen as a datum is read back as the only argument, or as the only item of all arguments -/
theorem sole_argument {types : List Ty} {value : Value} (hplain : schema.Plain) (hoption : ∀ content, schema ≠ .option content)
    (hholds : schema.Holds datum) (hseen : datum.SeenAs value.view) (hsole : ∀ items, datum = .tuple items → Body.Sole types datum) :
    (¬Body.Sole types datum → schema.read (.arguments [value]) = .ok datum) ∧
      (Body.Sole types datum → (tuple [schema]).read (.arguments [value]) = .ok (.tuple [datum])) := by
  have hreads := readsBack hplain hholds
  refine ⟨fun hnot => ?_, fun _ => ?_⟩
  · rw [read_argument hplain hoption hholds (fun items heq => hnot (hsole items heq)) value]
    exact hreads value hseen
  · have hone : List.Forall₂ ReadsBack (Schema.readers [schema]) [datum] := .cons hreads .nil
    exact tuple_readsBack hone rfl (.cons hseen .nil)

/-- data are read back from the arguments over which they are laid out -/
theorem read_arguments {signature : String} {types : List Ty} {shape : Shape} {items : List Shape} {values : List Value}
    (hplain : schema.Plain) (hoption : ∀ content, schema ≠ .option content) (hholds : schema.Holds datum)
    (hshape : datum.shape = .ok shape) (hspread : Body.spread signature types shape = .ok items)
    (hlen : types.length = items.length) (hseen : List.Forall₂ Shape.SeenAs items (values.map Value.view)) :
    (¬Body.Sole types datum → schema.read (.arguments values) = .ok datum) ∧
      (Body.Sole types datum → (tuple [schema]).read (.arguments values) = .ok (.tuple [datum])) := by
  obtain ⟨-, rfl⟩ | ⟨type, item, rfl, rfl, rfl, hstruct⟩ | ⟨type, rfl, rfl, hone⟩ | ⟨hmany, hall⟩ := Body.spread_cases hspread
  · -- nothing
    obtain ⟨-, content, rfl⟩ := absent_of_shape hplain hholds hshape
    exact absurd rfl (hoption content)
  · -- the item of a tuple, which is read as the tuple
    obtain ⟨data, hdata, ⟨-, rfl⟩ | ⟨hseq, -⟩⟩ := items_of_shape hplain hoption hholds hshape (.inl rfl)
    · have hnot : ¬Body.Sole [type] (.tuple data) := by
        rintro ⟨_, _, htype, hdatum, hsole⟩
        cases htype
        cases hdatum
        obtain ⟨fields, hfields⟩ := hsole (Datum.length_shapeAll hdata).symm
        exact hstruct fields hfields
      exact ⟨fun _ => tuple_arguments hplain hholds (Datum.allSeen_of_shapeAll hdata hseen), fun h => absurd h hnot⟩
    · cases hseq
  · -- a single argument, which may be a tuple
    match values, hseen with
    | [value], .cons hseen .nil =>
      refine sole_argument hplain hoption hholds ⟨shape, hshape, hseen⟩ fun data hdatum => ?_
      subst hdatum
      refine ⟨type, data, rfl, rfl, fun hlength => ?_⟩
      obtain ⟨shapes, hshapes, hshape⟩ := bind_eq_ok.1 hshape
      cases hshape
      obtain ⟨item, rfl⟩ := List.length_eq_one_iff.1 ((Datum.length_shapeAll hshapes).trans hlength)
      exact hone item rfl
  · -- none or several arguments, as many as items
    have hnot : ¬Body.Sole types datum := by
      rintro ⟨type, _, rfl, -⟩
      exact hmany hlen.symm
    have hmany' : values.length ≠ 1 := by
      rw [← List.length_map, ← hseen.length_eq]
      exact hmany
    refine ⟨fun _ => ?_, fun h => absurd h hnot⟩
    obtain ⟨data, hdata, ⟨-, rfl⟩ | ⟨-, rfl⟩⟩ := items_of_shape hplain hoption hholds hshape hall
    · exact tuple_arguments hplain hholds (Datum.allSeen_of_shapeAll hdata hseen)
    · exact seq_arguments hplain hholds (Datum.allSeen_of_shapeAll hdata hseen) hmany'

end Schema

/-- **Data are read back from the body that they become.** -/
theorem Body.read_ofDatum {signature : String} {schema : Schema} {datum : Datum} {body : Body}
    (hschema : schema = .unit ∨ schema.Plain ∧ ∀ content, schema ≠ .option content) (hholds : schema.Holds datum)
    (hstray : ¬Body.Strays signature datum) (h : Body.ofDatum signature datum policy = .ok body) :
    (¬Body.Sole body.types datum → body.read schema = .ok datum) ∧
      (Body.Sole body.types datum → body.read (.tuple [schema]) = .ok (.tuple [datum])) := by
  obtain ⟨types, htypes, h⟩ := bind_eq_ok.1 h
  obtain ⟨shape, hshape, h⟩ := bind_eq_ok.1 h
  obtain ⟨items, hitems, h⟩ := bind_eq_ok.1 h
  obtain ⟨values, hvalues, h⟩ := bind_eq_ok.1 h
  obtain ⟨hlen, hadmitted⟩ := spread_admitted (Datum.isShape_shape hshape) hitems
  have hshows : ∀ type ∈ types, Shape.Shows (fun _ => True) policy type := fun type htype =>
    Shape.realize_seenAs ((Ty.parse_sound htypes).2.2 type htype).shaped
  have hstraight : ∀ part ∈ types.zip items, ¬Shape.Strays part.1 part.2 := fun part hpart h =>
    hstray ⟨types, shape, items, htypes, hshape, hitems, part, hpart, h⟩
  have hseen := Shape.realizeItems_seenAs hshows hadmitted hstraight hlen hvalues
  have hlen' : types.length = values.length := by
    rw [hlen, hseen.length_eq, List.length_map]
  rw [ofParts, dif_pos hlen'] at h
  cases h
  rcases hschema with rfl | ⟨hplain, hoption⟩
  · cases hholds
    cases hshape
    obtain rfl := absent_arguments hitems hlen hseen
    refine ⟨fun _ => rfl, ?_⟩
    rintro ⟨_, _, _, hdatum, -⟩
    cases hdatum
  · obtain ⟨hread, hsole⟩ := Schema.read_arguments hplain hoption hholds hshape hitems hlen hseen
    exact ⟨fun h => by rw [Body.read, hread h, Reading.toExcept], fun h => by rw [Body.read, hsole h, Reading.toExcept]⟩

/-- what the greeting is a datum of -/
def greetingSchema : Schema :=
  .tuple [.string, .int .u8, .record "Options" [.required "size" (.int .u32), .required "title" (.option .string)] false]

theorem plain_greetingSchema : greetingSchema.Plain := by
  have hoptions : Schema.Plain
      (.record "Options" [.required "size" (.int .u32), .required "title" (.option .string)] false) :=
    .record _ _ (by decide) (by decide)
      (List.forall_mem_cons.2 ⟨.int _, List.forall_mem_singleton.2 (.option (by simp) (.text _))⟩)
  exact .tuple (List.forall_mem_cons.2 ⟨.text _, List.forall_mem_cons.2 ⟨.int _, List.forall_mem_singleton.2 hoptions⟩⟩)

theorem holds_greeting : greetingSchema.Holds greeting := by
  have hoptions : Schema.Holds
      (.record "Options" [.required "size" (.int .u32), .required "title" (.option .string)] false)
      (.record "Options" [("size", .int .u32 3), ("title", .absent)]) :=
    .record _ _ rfl (List.forall_mem_cons.2 ⟨.int rfl, List.forall_mem_singleton.2 (.absent _)⟩)
  exact .tuple rfl (List.forall_mem_cons.2 ⟨.text _ _, List.forall_mem_cons.2 ⟨.int rfl, List.forall_mem_singleton.2 hoptions⟩⟩)

theorem not_strays_greeting : ¬Body.Strays "sua\x7bsv\x7d" greeting := by
  rintro ⟨types, shape, items, htypes, hshape, hitems, part, hpart, hstrays⟩
  have hparse : Ty.parse "sua\x7bsv\x7d"
      = .ok [.basic (.text .string), .basic (.int .uint32), .array (.dictEntry (.basic (.text .string)) .variant)] := by rfl
  rw [hparse] at htypes
  cases htypes
  cases hshape
  cases hitems
  simp only [List.zip_cons_cons, List.zip_nil_right, List.mem_cons, List.not_mem_nil, or_false] at hpart
  rcases hpart with rfl | rfl | rfl
  · exact Shape.not_strays_leaf _ _ hstrays
  · exact Shape.not_strays_leaf _ _ hstrays
  · cases hstrays with
    | inside hmeets hstrays =>
      cases hmeets with
      | valueOfRecord => exact Shape.not_strays_variant _ hstrays

def pairSchema : Schema := .tuple [.string, .int .u32]

def pair : Datum := .tuple [.text "x", .int .u32 3]

/-- a pair as the only argument -/
def pairBody : Body := ⟨[.struct [.basic (.text .string), .basic (.int .uint32)]], [.struct [.string "x", .uint32 3]], rfl⟩

theorem plain_pairSchema : pairSchema.Plain :=
  .tuple (List.forall_mem_cons.2 ⟨.text _, List.forall_mem_singleton.2 (.int _)⟩)

theorem holds_pair : pairSchema.Holds pair :=
  .tuple rfl (List.forall_mem_cons.2 ⟨.text _ _, List.forall_mem_singleton.2 (.int rfl)⟩)

theorem not_strays_pair : ¬Body.Strays "(su)" pair := by
  rintro ⟨types, shape, items, htypes, hshape, hitems, part, hpart, hstrays⟩
  have hparse : Ty.parse "(su)" = .ok [.struct [.basic (.text .string), .basic (.int .uint32)]] := by rfl
  rw [hparse] at htypes
  cases htypes
  cases hshape
  cases hitems
  obtain rfl := List.mem_singleton.1 hpart
  cases hstrays with
  | inside hmeets hstrays =>
    cases hmeets with
    | fieldOfTuple hfield =>
      simp only [List.zip_cons_cons, List.zip_nil_right, List.mem_cons, List.not_mem_nil, or_false, Prod.mk.injEq] at hfield
      obtain ⟨rfl, rfl⟩ | ⟨rfl, rfl⟩ := hfield
      · exact Shape.not_strays_leaf _ _ hstrays
      · exact Shape.not_strays_leaf _ _ hstrays

theorem ofDatum_pair : Body.ofDatum "(su)" pair .dicts = .ok pairBody := by rfl

theorem Body.read_ofDatum_greeting :
    Body.ofDatum "sua\x7bsv\x7d" greeting .dicts = .ok greetingReply.body ∧
      greetingReply.body.read greetingSchema = .ok greeting ∧
      Body.ofDatum "(su)" pair .dicts = .ok pairBody ∧ pairBody.read (.tuple [pairSchema]) = .ok (.tuple [pair]) := by
  have hgreeting := Body.read_ofDatum (.inr ⟨plain_greetingSchema, nofun⟩) holds_greeting not_strays_greeting ofDatum_greeting
  have hpair := Body.read_ofDatum (.inr ⟨plain_pairSchema, nofun⟩) holds_pair not_strays_pair ofDatum_pair
  refine ⟨ofDatum_greeting, hgreeting.1 ?_, ofDatum_pair, hpair.2 ⟨_, _, rfl, rfl, nofun⟩⟩
  rintro ⟨_, _, htypes, -⟩
  cases htypes

def rowsSchema : Schema := .vec (.vec (.int .i16))

def rows : Datum := .seq [.seq [.int .i16 1, .int .i16 2]]

/-- rows of two numbers as entries of a dict -/
def rowsBody : Body :=
  ⟨[.array (.dictEntry (.basic (.int .int16)) (.basic (.int .int16)))],
    [.dict [(.scalar (.int .int16 1), .scalar (.int .int16 2))]], rfl⟩

/-- a signaling NaN -/
def signaling : Datum := .single 0x7f800001#32

def signalingBody : Body := ⟨[.basic .double], [.scalar (.double 0x7ff8000020000000#64)], rfl⟩

/-- a tuple that is one argument is looked for in all arguments, rows that became a dict are no sequence any more, and a
signaling NaN comes back as a quiet one -/
theorem Body.read_ofDatum_misread :
    (pairSchema.Plain ∧ pairSchema.Holds pair ∧ Body.ofDatum "(su)" pair .dicts = .ok pairBody ∧
      pairBody.read pairSchema = .error (.unreadable (.wrongType .sequence "a string"))) ∧
    (rowsSchema.Plain ∧ rowsSchema.Holds rows ∧ Body.ofDatum "a\x7bnn\x7d" rows .dicts = .ok rowsBody ∧
      rowsBody.read rowsSchema = .error (.unreadable (.wrongType .map "a sequence"))) ∧
    Body.ofDatum "d" signaling .dicts = .ok signalingBody ∧ signalingBody.read .single = .ok (.single 0x7fc00001#32) := by
  have hrow : Schema.Holds (.vec (.int .i16)) (.seq [.int .i16 1, .int .i16 2]) :=
    .vec (List.forall_mem_cons.2 ⟨.int rfl, List.forall_mem_singleton.2 (.int rfl)⟩)
  refine ⟨⟨plain_pairSchema, holds_pair, ofDatum_pair, by rfl⟩, ⟨.vec (.vec (.int _)), .vec ?_, by rfl, by rfl⟩, by rfl, by rfl⟩
  exact List.forall_mem_singleton.2 hrow

end MessageBus
