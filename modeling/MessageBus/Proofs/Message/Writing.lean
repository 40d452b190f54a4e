/-
What keeps a message from being written.

All header fields but the path are names of bounded length, a signature or numbers, so that they always have room
(`writable_header`). A valid message without a path hence is written just when its body can be, unless its frame is too
long, and whatever stands against that can be told in another message (`marshal_cases`). A body that is a text without a
NUL always can be (`marshal_text`).
-/
import MessageBus.Proofs.Message.FixedPoint
import MessageBus.Proofs.Wire.Refusals

namespace MessageBus

open Wire
open Value (Exact Writable)
open Text (NulFree)

/-! ## Valid messages -/

theorem forM_check_eq_ok_iff {names : List (NameKind × String)} :
    (names.forM fun name => name.1.check name.2) = .ok () ↔ ∀ name ∈ names, name.1.accepts name.2 = true := by
  induction names with
  | nil => exact iff_of_true rfl (by simp)
  | cons name names ih =>
    rw [List.forall_mem_cons, ← ih, ← NameKind.check_eq_ok_iff, List.forM]
    cases hname : name.1.check name.2 with
    | error e => simp [bind, Except.bind]
    | ok _ => simp [bind, Except.bind]

namespace Message

variable {m : Message}

theorem validate_eq_ok_iff : m.validate = .ok () ↔
    m.version = protocolVersion ∧ (∀ field ∈ requiredFields m.type, m.hasField field = true) ∧
      ∀ name ∈ m.names, name.1.accepts name.2 = true := by
  have hpresent : (∀ field ∈ requiredFields m.type, m.hasField field = true)
      ↔ ((requiredFields m.type).find? fun field => !m.hasField field) = none := by
    simp [List.find?_eq_none]
  rw [validate, hpresent, ← forM_check_eq_ok_iff]
  by_cases hversion : m.version = protocolVersion
  · rw [if_neg (not_not.2 hversion)]
    cases hfind : (requiredFields m.type).find? fun field => !m.hasField field with
    | some field =>
      constructor
      · intro h
        cases h
      · intro h
        cases h.2.1
    | none =>
      constructor
      · intro h
        exact ⟨hversion, rfl, h⟩
      · intro h
        exact h.2.2
  · rw [if_pos hversion]
    constructor
    · intro h
      cases h
    · intro h
      exact absurd h.1 hversion

end Message

/-! ## Header fields of bounded length -/

namespace Ty

theorem parse_basic (type : Basic) : parse (basic type).text = .ok [basic type] := by
  rcases type with kind | _ | _ | kind <;> (try cases kind) <;> rfl

theorem length_text_basic (type : Basic) : (Text.utf8 (basic type).text).length = 1 := by
  rcases type with kind | _ | _ | kind <;> (try cases kind) <;> rfl

end Ty

/-- the scalar can be written in the value of a header field, and takes up little room there -/
structure Scalar.Short (value : Scalar) : Prop where
  valid : value.Valid
  size_le : size (value.layout 4) ≤ 260
  fits : AllFit (value.layout 4)

namespace Fields

theorem short_number (n : UInt32) : (Scalar.int .uint32 n.toBitVec).Short where
  valid := trivial
  size_le := by simp [Scalar.layout, aligned, Segment.size, IntKind.size, padding]
  fits := by
    change AllFit [.padding (padding 4 4), .word 4 n.toNat]
    rw [allFit_cons, allFit_cons]
    exact ⟨trivial, n.toNat_lt, allFit_nil⟩

theorem short_text {kind : TextKind} {text : String} (h : kind.Admits text) (hlen : text.utf8ByteSize ≤ 255) :
    (Scalar.text kind text).Short where
  valid := h
  size_le := by
    have hpadding : padding 4 kind.alignment = 0 := by cases kind <;> rfl
    have halignment : kind.alignment ≤ 4 := by cases kind <;> decide
    simp [Scalar.layout, aligned, Segment.size, hpadding, Text.length_utf8]
    omega
  fits := by
    have hword : 255 < 1 <<< (8 * kind.alignment) := by cases kind <;> decide
    simp [Scalar.layout, aligned, Segment.Fits]
    omega

theorem exact_wireEntry {code : FieldCode} {value : Scalar} (h : value.Valid) :
    Exact maxDepth Message.entryType (wireEntry code value) := by
  -- the struct, the variant and what is in it take up three of the levels
  change Exact (61 + 1 + 1 + 1) _ _
  refine Value.exact_struct.2 ⟨_, rfl, .cons ?_ (.cons ?_ .nil)⟩
  · exact Value.exact_basic.2 ⟨_, rfl, rfl, trivial⟩
  · exact Value.exact_variant.2 ⟨_, _, rfl, Ty.parse_basic _, Value.exact_basic.2 ⟨_, rfl, rfl, h⟩⟩

/-- an entry starts with its code and the type of its value -/
theorem layout_wireEntry (code : FieldCode) (value : Scalar) :
    layout Message.entryType (wireEntry code value) 0
      = [.padding 0, .padding 0, .word 1 code.code.toNat, .padding 0, .word 1 1,
          .raw (Text.utf8 (Ty.basic value.type).text), .raw [0]] ++ value.layout 4 := by
  have hone := Ty.length_text_basic value.type
  rw [Text.length_utf8] at hone
  simp [layout, layoutAll, wireEntry, aligned, Scalar.layout, consecutive, Segment.size, Text.length_utf8, hone, padding,
    IntKind.size, TextKind.alignment]
  rfl

end Fields

section Short

variable {value : Scalar}

theorem Scalar.Short.size_entry (h : value.Short) (code : FieldCode) :
    size (Wire.layout Message.entryType (Fields.wireEntry code value) 0) ≤ 264 := by
  have hvalue := h.size_le
  have hone : (Text.utf8 (Ty.basic value.type).text).length = 1 := Ty.length_text_basic value.type
  rw [Fields.layout_wireEntry, size_append]
  simp [Segment.size, hone]
  omega

theorem Scalar.Short.fits_entry (h : value.Short) (code : FieldCode) :
    AllFit (Wire.layout Message.entryType (Fields.wireEntry code value) 0) := by
  have hcode : code.code.toNat < 1 <<< (8 * 1) := code.code.toNat_lt
  rw [Fields.layout_wireEntry, allFit_append]
  refine ⟨?_, h.fits⟩
  simpa [Segment.Fits] using hcode

end Short

namespace Message

variable {m : Message}

/-- the fields of a valid message without a path are short, and its signature is when it is one -/
theorem short_scalars (hvalid : m.validate = .ok ()) (hpath : m.fields.path = none)
    (hsig : ∀ text, Fields.signature? m.body = some text → ∃ types, Ty.parse text = .ok types) {code : FieldCode}
    {value : Scalar} (h : (code, some value) ∈ (Fields.Sorted.mk m.fields (Fields.signature? m.body)).scalars) :
    value.Short := by
  have hnames := (validate_eq_ok_iff.1 hvalid).2.2
  have hname {kind : NameKind} {name : String} (hmem : (kind, name) ∈ m.names) (hkind : kind ≠ .objectPath) :
      (Scalar.text .string name).Short := by
    have haccepts := hnames _ hmem
    refine Fields.short_text ?_ (Name.length_of_accepts haccepts hkind)
    exact (Text.nulFree_iff name).1 (Name.nul_not_mem_of_accepts haccepts)
  simp only [Fields.Sorted.scalars, List.mem_cons, Prod.mk.injEq, List.not_mem_nil, or_false] at h
  obtain ⟨-, h⟩ | ⟨-, h⟩ | ⟨-, h⟩ | ⟨-, h⟩ | ⟨-, h⟩ | ⟨-, h⟩ | ⟨-, h⟩ | ⟨-, h⟩ | ⟨-, h⟩ := h <;>
    obtain ⟨given, hgiven, rfl⟩ := Option.map_eq_some_iff.1 h.symm
  · simp [hpath] at hgiven
  · exact hname (show (NameKind.interface, given) ∈ m.names by simp [names, hgiven]) (by decide)
  · exact hname (show (NameKind.member, given) ∈ m.names by simp [names, hgiven]) (by decide)
  · exact hname (show (NameKind.error, given) ∈ m.names by simp [names, hgiven]) (by decide)
  · exact Fields.short_number given
  · exact hname (show (NameKind.bus, given) ∈ m.names by simp [names, hgiven]) (by decide)
  · exact hname (show (NameKind.bus, given) ∈ m.names by simp [names, hgiven]) (by decide)
  · obtain ⟨types, htypes⟩ := hsig given hgiven
    exact Fields.short_text ⟨types, htypes⟩ (Ty.parse_sound htypes).1
  · exact Fields.short_number given

/-- **The header fields of a valid message without a path can be written**, if its signature is one. -/
theorem writable_header (hvalid : m.validate = .ok ()) (hpath : m.fields.path = none)
    (hsig : ∀ text, Fields.signature? m.body = some text → ∃ types, Ty.parse text = .ok types) :
    Writable (maxDepth + 1) Fields.wireType (.array (m.fields.toWire m.body)) ∧ AllFit m.header := by
  have hshort : ∀ entry ∈ m.fields.toWire m.body, ∃ code value, Fields.wireEntry code value = entry ∧ value.Short := by
    intro entry hentry
    rw [Fields.toWire_eq, Fields.Sorted.mem_entries] at hentry
    obtain ⟨code, value, hmem, rfl⟩ := hentry
    exact ⟨code, value, rfl, short_scalars hvalid hpath hsig hmem⟩
  have hexact : ∀ entry ∈ m.fields.toWire m.body, Exact maxDepth entryType entry := by
    intro entry hentry
    obtain ⟨code, value, rfl, hvalue⟩ := hshort entry hentry
    exact Fields.exact_wireEntry hvalue.valid
  have hroom : ∀ entry ∈ m.fields.toWire m.body, room (layout entryType entry) ≤ 272 := by
    intro entry hentry
    obtain ⟨code, value, rfl, hvalue⟩ := hshort entry hentry
    have hsize := hvalue.size_entry code
    have hpadding := padding_lt (size (layout entryType (Fields.wireEntry code value) 0)) (show 0 < 8 by decide)
    rw [room]
    omega
  have hcount : (m.fields.toWire m.body).length ≤ 9 := List.length_filterMap_le _ _
  refine ⟨(exact_entries.2 hexact).writable, (allFit_fields hexact).2 ⟨?_, ?_⟩⟩
  · have hsum := List.sum_le_card_nsmul ((m.fields.toWire m.body).map fun entry => room (layout entryType entry)) 272
      (List.forall_mem_map.2 hroom)
    rw [List.length_map, smul_eq_mul] at hsum
    have hmax : 9 * 272 ≤ maxArrayLength := by decide
    rw [entriesRoom]
    omega
  · intro entry hentry
    obtain ⟨code, value, rfl, hvalue⟩ := hshort entry hentry
    exact hvalue.fits_entry code

/-! ## What comes of writing a message -/

/-- the message is refused for its length: that of its frame, or of a text in it that no length word can hold -/
def Overlong (message : Message) : Prop := ∃ n, message.marshal = .error (.messageTooLong n)

theorem refuses_encode (m : Message) : Refuses m.encode := by
  refine (refuses_append _).bind fun _ => Refuses.bind (.of_ok fun _ => ⟨_, rfl⟩) fun slot => ?_
  refine (refuses_put _ _).bind fun _ => (refuses_encodeWithin _ _ _).bind fun _ => (refuses_align 8).bind fun _ => ?_
  refine Refuses.bind (.of_ok fun _ => ⟨_, rfl⟩) fun slot => (refuses_encodeAll _ _).bind fun _ => ?_
  exact Refuses.bind (.of_ok fun _ => ⟨_, rfl⟩) fun _ => .of_ok fun _ => ⟨_, rfl⟩

/-- writing a valid message fails only by a refusal -/
theorem marshal_refusal {e : Error} (hserial : m.serial ≠ 0) (hvalid : m.validate = .ok ()) (h : m.marshal = .error e) :
    e.IsRefusal := by
  rw [marshal, if_neg hserial, hvalid] at h
  rcases hrun : m.encode.run (Writer.new m.order 0) with ⟨_ | _, w⟩
  · simp only [hrun] at h
    cases h
    exact refuses_encode m (Writer.new m.order 0) e (by rw [hrun])
  · simp only [hrun] at h
    change (if maxMessageSize < w.data.size then Except.error (Error.messageTooLong w.data.size)
      else .ok w.data.toList) = .error e at h
    split_ifs at h
    cases h
    trivial

/-- the body is laid out as if it stood alone -/
theorem content_eq (m : Message) : m.content = layoutAll m.body.types m.body.normalize.values 0 :=
  periodic_eq_zero (periodic_layouts.2.1 _ _) (dvd_add_padding _ (by decide))

end Message

/-- a body that can be sent: its signature is one, and there is a value for each type that can be written -/
def Body.Marshals (body : Body) (order : ByteOrder) : Prop :=
  (∃ types, Ty.parse body.signature = .ok types) ∧ ∃ bytes, Wire.marshal order body.types body.values = .ok bytes

theorem Fields.eq_signature {body : Body} {text : String} (h : signature? body = some text) : text = body.signature := by
  unfold signature? at h
  split_ifs at h
  exact (Option.some.inj h).symm

namespace Message

variable {m : Message}

theorem marshals_iff : m.body.Marshals m.order ↔ (∃ types, Ty.parse m.body.signature = .ok types) ∧
    List.Forall₂ (Writable (maxDepth + 1)) m.body.types m.body.values ∧ AllFit m.content := by
  rw [Body.Marshals, content_eq]
  refine and_congr_right fun _ => ?_
  simp only [Wire.marshal_eq_ok_iff, exists_and_left, exists_eq, and_true]
  rfl

/-- a message that is written has a body that can be sent -/
theorem marshals_of_marshal {data : List UInt8} (h : m.marshal = .ok data) : m.body.Marshals m.order := by
  obtain ⟨-, -, -, w, hrun, -⟩ := marshal_eq_ok h
  obtain ⟨⟨hw, -⟩, ⟨hws, hfits⟩, -⟩ := frame_of_encode hrun
  refine marshals_iff.2 ⟨?_, hws, hfits⟩
  cases hsig : Fields.signature? m.body with
  | some text =>
    rw [← Fields.eq_signature hsig]
    exact ⟨_, Fields.parse_signature hw hsig⟩
  | none =>
    rw [Body.signature, Fields.types_of_signature?_none hsig]
    exact ⟨[], rfl⟩

/-- **A valid message without a path is written just when its body can be sent**, unless it is too long; and what stands
against it can be told. -/
theorem marshal_cases (hserial : m.serial ≠ 0) (hvalid : m.validate = .ok ()) (hpath : m.fields.path = none)
    (hlen : ¬m.Overlong) :
    (m.body.Marshals m.order ∧ m.marshal = .ok m.frame) ∨
      (¬m.body.Marshals m.order ∧ ∃ e, m.marshal = .error e ∧ e.Tellable) := by
  cases hmarshal : m.marshal with
  | ok data => exact .inl ⟨marshals_of_marshal hmarshal, by rw [frame_of_marshal hmarshal]⟩
  | error e =>
    refine .inr ⟨fun hbody => hlen ?_, e, rfl, ?_⟩
    · obtain ⟨-, hws, hfits⟩ := marshals_iff.1 hbody
      obtain ⟨hw, hfit⟩ := writable_header hvalid hpath fun _ hsig => Fields.eq_signature hsig ▸ hbody.1
      have heq := marshal_eq hserial hvalid hw hfit hws hfits
      split_ifs at heq with hlong
      · exact ⟨_, heq⟩
      · rw [heq] at hmarshal
        cases hmarshal
    · refine (marshal_refusal hserial hvalid hmarshal).tellable.resolve_left ?_
      rintro ⟨n, rfl⟩
      exact hlen ⟨n, hmarshal⟩

/-! ## Texts as bodies -/

theorem parse_ofString (text : String) :
    Ty.parse (Body.ofString text).signature = .ok [.basic (.text .string)] := by
  rw [Body.signature, Body.ofString, Ty.textAll_singleton]
  exact Ty.parse_basic (.text .string)

theorem marshals_ofString {text : String} (htext : NulFree text) (hsize : text.utf8ByteSize < UInt32.size)
    (order : ByteOrder) : (Body.ofString text).Marshals order := by
  refine ⟨⟨_, parse_ofString text⟩, _, Wire.marshal_eq_ok_iff.2 ⟨?_, ?_, rfl⟩⟩
  · exact .cons ⟨_, rfl, (Text.nulFree_iff text).1 htext⟩ .nil
  · change AllFit [.padding (padding 0 4), .word 4 text.utf8ByteSize, .raw (Text.utf8 text), .raw [0]]
    simp only [allFit_cons]
    exact ⟨trivial, hsize, trivial, trivial, allFit_nil⟩

/-- what stands against the body stands against the message -/
theorem run_encode_error (hw : Writable (maxDepth + 1) Fields.wireType (.array (m.fields.toWire m.body)))
    (hfit : AllFit m.header) {e : Error} {w : Writer} (h : (encodeAll m.body.types m.body.values).run
      (m.opened.append ([0, 0, 0, 0] ++ m.between)) = (.error e, w)) :
    m.encode.run (Writer.new m.order 0) = (.error e, w) := by
  have hopened : (Writer.new m.order 0).append [m.order.marker, m.type.code, m.flags.bits, m.version] = m.opened := rfl
  simp only [encode, run_bind, Encoder.run_append, Encoder.run_startLength, Encoder.run_put, Encoder.run_align,
    Encoder.run_beginLength, hopened, opened_startLength, put_serial, run_header hw hfit, align_header, h]

/-- a text that is too long for its own length word is refused as a message that is too long -/
theorem run_encodeAll_long {text : String} (htext : NulFree text) (hsize : UInt32.size ≤ text.utf8ByteSize) (w : Writer) :
    (encodeAll (Body.ofString text).types (Body.ofString text).values).run w
      = (.error (.messageTooLong text.utf8ByteSize), w) := by
  change (putText text >>= fun _ => pure ()).run w = _
  rw [bind_pure_unit, putText, if_neg (by simp [(Text.nulFree_iff text).1 htext]), if_pos hsize]
  rfl

/-- **A valid message whose body is a text without a NUL is written**, unless it is too long. -/
theorem marshal_text {text : String} (hserial : m.serial ≠ 0) (hvalid : m.validate = .ok ())
    (hpath : m.fields.path = none) (hbody : m.body = .ofString text) (htext : NulFree text) (hlen : ¬m.Overlong) :
    m.marshal = .ok m.frame := by
  obtain hsize | hsize := lt_or_ge text.utf8ByteSize UInt32.size
  · have hmarshals : m.body.Marshals m.order := hbody ▸ marshals_ofString htext hsize m.order
    exact ((marshal_cases hserial hvalid hpath hlen).resolve_right fun h => h.1 hmarshals).2
  · have hparse : ∃ types, Ty.parse m.body.signature = .ok types := hbody ▸ ⟨_, parse_ofString text⟩
    obtain ⟨hw, hfit⟩ := writable_header hvalid hpath fun _ hsig => Fields.eq_signature hsig ▸ hparse
    refine absurd ⟨text.utf8ByteSize, ?_⟩ hlen
    have hrun := run_encode_error hw hfit (hbody ▸ run_encodeAll_long htext hsize _)
    rw [marshal, if_neg hserial, hvalid]
    simp only [hrun]
    rfl

end Message

end MessageBus
