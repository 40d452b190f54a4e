/-
Messages, there and back.

A frame is the bytes of the fixed header, the header fields, padding and the body, one after another (`Message.frame`):
that is what a message is written as (`frame_of_encode`), the length of the body having been filled in afterwards. The
first 16 bytes of it say how long it is, and reading it gives the message as it is received (`unmarshal_marshal`).
-/
import MessageBus.Proofs.Message.Fields
import MessageBus.Proofs.Wire.RoundTrip
import MessageBus.Message.Frame

namespace MessageBus

open Wire
open Value (Writable)

/-- the bytes of a fixed header, in the order of its fields -/
def FixedHeader.bytes (header : FixedHeader) : List UInt8 :=
  [header.order.marker, header.type, header.flags.bits, header.version] ++ (header.order.bytes 4 header.bodyLength
    ++ (header.order.bytes 4 header.serial.toNat ++ header.order.bytes 4 header.fieldsLength))

namespace Message

/-! ## The layout of a frame -/

/-- the header fields, which start behind three words -/
def header (message : Message) : List Segment :=
  layout Fields.wireType (.array (message.fields.toWire message.body)) 12

/-- the padding between the header fields and the body -/
def gap (message : Message) : Nat := padding (12 + size message.header) 8

/-- the body, with its values as its types name them -/
def content (message : Message) : List Segment :=
  layoutAll message.body.types message.body.normalize.values (12 + size message.header + message.gap)

/-- the bytes of a message -/
def frame (message : Message) : List UInt8 :=
  [message.order.marker, message.type.code, message.flags.bits, message.version]
    ++ (message.order.bytes 4 (size message.content) ++ (message.order.bytes 4 message.serial.toNat
    ++ (render message.order message.header ++ (List.replicate message.gap 0 ++ render message.order message.content))))

/-- everything between the length of the body and the body -/
def between (message : Message) : List UInt8 :=
  message.order.bytes 4 message.serial.toNat
    ++ (render message.order message.header ++ List.replicate message.gap 0)

/-- a writer that has been given all that stands in front of the length of the body -/
def opened (message : Message) : Writer :=
  (Writer.new message.order 0).append
    [message.order.marker, message.type.code, message.flags.bits, message.version]

variable {m : Message} {w : Writer}

theorem opened_position (m : Message) : m.opened.position = 4 := rfl

theorem opened_order (m : Message) : m.opened.order = m.order := rfl

theorem opened_startLength (m : Message) :
    m.opened.startLength = (⟨m.opened.data.size, m.opened.data.size + 4⟩, m.opened.append [0, 0, 0, 0]) := by
  simp [Writer.startLength, Writer.align, opened_position, padding]

theorem put_serial (m : Message) : (m.opened.append [0, 0, 0, 0]).put 4 m.serial.toNat
    = m.opened.append ([0, 0, 0, 0] ++ m.order.bytes 4 m.serial.toNat) := by
  simp [Writer.put, Writer.align, opened_position, opened_order, padding]

theorem run_encode_eq_ok : m.encode.run (Writer.new m.order 0) = (.ok (), w) ↔
    ∃ w₁ w₂, (Wire.encode Fields.wireType (.array (m.fields.toWire m.body))).run
        (m.opened.append ([0, 0, 0, 0] ++ m.order.bytes 4 m.serial.toNat)) = (.ok (), w₁) ∧
      (encodeAll m.body.types m.body.values).run (w₁.align 8) = (.ok (), w₂) ∧
      w = (w₂.finishLength ⟨m.opened.data.size, (w₁.align 8).data.size⟩).2 := by
  have hopened : (Writer.new m.order 0).append [m.order.marker, m.type.code, m.flags.bits, m.version] = m.opened := rfl
  simp only [encode, run_bind, Encoder.run_append, Encoder.run_startLength, Encoder.run_put, Encoder.run_align,
    Encoder.run_beginLength, Encoder.run_finishLength, hopened, opened_startLength, put_serial]
  rcases (Wire.encode Fields.wireType (.array (m.fields.toWire m.body))).run
    (m.opened.append ([0, 0, 0, 0] ++ m.order.bytes 4 m.serial.toNat)) with ⟨error | _, w₁⟩
  · simp
  · simp only [outcome_eq_iff, true_and, exists_and_left, exists_eq_left']
    rcases (encodeAll m.body.types m.body.values).run (w₁.align 8) with ⟨error | _, w₂⟩
    · simp
    · simp [run_pure, Writer.beginLength, eq_comm]

/-- the header fields, once they are written behind the serial, and the padding up to the body -/
theorem align_header (m : Message) :
    ((m.opened.append ([0, 0, 0, 0] ++ m.order.bytes 4 m.serial.toNat)).append (render m.order m.header)).align 8
      = m.opened.append ([0, 0, 0, 0] ++ m.between) := by
  have hend : ((m.opened.append ([0, 0, 0, 0] ++ m.order.bytes 4 m.serial.toNat)).append
      (render m.order m.header)).position = 12 + size m.header := by
    simp [opened_position]
    omega
  rw [Writer.align, hend]
  simp [between, gap]

/-- a message that can be written is written as its frame -/
theorem frame_of_encode (h : m.encode.run (Writer.new m.order 0) = (.ok (), w)) :
    (Writable (maxDepth + 1) Fields.wireType (.array (m.fields.toWire m.body)) ∧ AllFit m.header) ∧
      (List.Forall₂ (Writable (maxDepth + 1)) m.body.types m.body.values ∧ AllFit m.content) ∧
      w.data.toList = m.frame := by
  obtain ⟨_, _, h₁, h₂, rfl⟩ := run_encode_eq_ok.1 h
  have hpos : (m.opened.append ([0, 0, 0, 0] ++ m.order.bytes 4 m.serial.toNat)).position = 12 := by
    simp [opened_position]
  have hbody : (m.opened.append ([0, 0, 0, 0] ++ m.between)).position = 12 + size m.header + m.gap := by
    simp [opened_position, between]
    omega
  have hheader : layout Fields.wireType (.array (m.fields.toWire m.body)) 12 = m.header := rfl
  obtain ⟨hw, hfit, rfl⟩ := (encodeWithin_emits (maxDepth + 1) _ _ _ _).1 h₁
  rw [hpos, Fields.normalize_toWire, hheader] at hfit h₂ ⊢
  rw [Writer.append_order, opened_order, align_header] at h₂ ⊢
  obtain ⟨hws, hfits, rfl⟩ := (encodeAll_emits _ _ _ _).1 h₂
  rw [hbody] at hfits ⊢
  refine ⟨⟨hw, hfit⟩, ⟨hws, hfits⟩, ?_⟩
  rw [finishLength_append]
  simp [frame, between, content, Body.normalize, opened, Writer.new]

/-! ## The fixed header -/

theorem take_drop_append (index : Nat) (front middle back : List UInt8) (hf : front.length = index)
    (hm : middle.length = 4) : ((front ++ (middle ++ back)).drop index).take 4 = middle := by
  rw [List.drop_left' hf, List.take_left' hm]

/-- a fixed header is read off its bytes, whatever follows them -/
theorem parse_bytes {header : FixedHeader} (hv : header.version = protocolVersion)
    (hbody : header.bodyLength < UInt32.size) (hfields : header.fieldsLength < UInt32.size) (back : List UInt8) :
    FixedHeader.parse (header.bytes ++ back) = .ok header := by
  obtain ⟨order, type, ⟨flags⟩, version, body, serial, fields⟩ := header
  obtain rfl : version = protocolVersion := hv
  have hnumber {n : Nat} (hn : n < UInt32.size) : order.number (order.bytes 4 n) = n := by
    rw [ByteOrder.number_bytes]
    exact Nat.mod_eq_of_lt hn
  have hlen (n : Nat) : (order.bytes 4 n).length = 4 := order.length_bytes 4 n
  have hrest : hasAtLeast (fixedHeaderLength - 4) (order.bytes 4 body
      ++ (order.bytes 4 serial.toNat ++ (order.bytes 4 fields ++ back))) = true := by
    rw [hasAtLeast_iff]
    simp [fixedHeaderLength]
    omega
  have hmarker : ByteOrder.ofMarker order.marker = .ok order := by cases order <;> rfl
  -- the same bytes, cut in front of each word
  have h₄ := take_drop_append 4 [order.marker, type, flags, protocolVersion] (order.bytes 4 body)
    (order.bytes 4 serial.toNat ++ (order.bytes 4 fields ++ back)) rfl (hlen body)
  have h₈ := take_drop_append 8 ([order.marker, type, flags, protocolVersion] ++ order.bytes 4 body)
    (order.bytes 4 serial.toNat) (order.bytes 4 fields ++ back) (by simp) (hlen serial.toNat)
  have h₁₂ := take_drop_append 12
    ([order.marker, type, flags, protocolVersion] ++ (order.bytes 4 body ++ order.bytes 4 serial.toNat))
    (order.bytes 4 fields) back (by simp) (hlen fields)
  simp only [FixedHeader.bytes, List.append_assoc] at h₈ h₁₂ ⊢
  simp only [List.cons_append, List.nil_append] at h₄ h₈ h₁₂ ⊢
  simp only [FixedHeader.parse, hrest, hmarker, h₄, h₈, h₁₂]
  change Except.ok (⟨order, type, ⟨flags⟩, protocolVersion, order.number (order.bytes 4 body),
    .ofNat (order.number (order.bytes 4 serial.toNat)), order.number (order.bytes 4 fields)⟩ : FixedHeader) = _
  rw [hnumber hbody, hnumber serial.toNat_lt, hnumber hfields, UInt32.ofNat_toNat]

/-- the fixed header of a message -/
def fixedHeader (message : Message) : FixedHeader :=
  ⟨message.order, message.type.code, message.flags, message.version, size message.content, message.serial,
    size message.header - 4⟩

/-- the header fields are the length of the array, without any padding, and its contents -/
theorem header_eq (m : Message) :
    ∃ entries, m.header = [.padding 0, .length (size entries), .padding 0] ++ entries := ⟨_, rfl⟩

theorem size_header (m : Message) : size m.header = 4 + m.fixedHeader.fieldsLength := by
  obtain ⟨entries, h⟩ := header_eq m
  simp [fixedHeader, h, Segment.size]

/-- a frame starts with its fixed header -/
theorem frame_eq (m : Message) : ∃ rest, m.frame = m.fixedHeader.bytes ++ rest := by
  obtain ⟨entries, h⟩ := header_eq m
  refine ⟨render m.order entries ++ (List.replicate m.gap 0 ++ render m.order m.content), ?_⟩
  simp [frame, FixedHeader.bytes, fixedHeader, h, Segment.bytes, Segment.size]

/-- the padding behind the header fields is the same as from the start of the frame -/
theorem padding_fields (n : Nat) : padding (16 + n) 8 = padding n 8 := by
  simp only [padding]
  omega

/-- the fixed header tells how long the frame is -/
theorem frameLength_fixedHeader (m : Message) : m.fixedHeader.frameLength = m.frame.length := by
  have hgap : m.gap = padding m.fixedHeader.fieldsLength 8 := by
    rw [gap, size_header, ← Nat.add_assoc]
    exact padding_fields _
  simp only [FixedHeader.frameLength, fixedHeaderLength, frame, List.length_append, List.length_cons, List.length_nil,
    ByteOrder.length_bytes, length_render, List.length_replicate, size_header, hgap]
  simp only [fixedHeader]
  omega

/-! ## Reading a frame -/

/-- the message as it is received: without the fields of unknown codes, which are not written, and with the values of
the body as its types name them -/
def received (message : Message) : Message :=
  { message with fields := { message.fields with unknown := [] }, body := message.body.normalize }

theorem validate_received (m : Message) : m.received.validate = m.validate := by
  obtain ⟨type, order, flags, version, serial, fields, body⟩ := m
  cases type <;> rfl

/-- read what is left of a frame, a body of these types, and check the message -/
def readBody (header : FixedHeader) (type : MessageType) (fields : Fields) (start : Nat) (types : List Ty) :
    Decoder Message := do
  let values ← decodeAll types
  let r ← get
  if !r.rest.isEmpty then throw (.lengthMismatch header.bodyLength (r.position - start))
  let message : Message :=
    { type, order := header.order, flags := header.flags, version := header.version, serial := header.serial
      fields, body := ← Body.ofParts types values }
  message.validate
  return message

variable {bodyLength fieldsLength : Nat}

theorem run_readBody (hs : ∀ type ∈ m.body.types, type.Shaped)
    (hws : List.Forall₂ (Writable (maxDepth + 1)) m.body.types m.body.values) (hfits : AllFit m.content)
    (hvalid : m.validate = .ok ()) (start : Nat) :
    (readBody ⟨m.order, m.type.code, m.flags, m.version, bodyLength, m.serial, fieldsLength⟩ m.type m.received.fields
        start m.body.types).run ⟨m.order, 12 + size m.header + m.gap, render m.order m.content⟩
      = (.ok m.received, ⟨m.order, 12 + size m.header + m.gap + size m.content, []⟩) := by
  have hvalues := (decodeAll_reads hs m.order (12 + size m.header + m.gap) _ _ _).2
    ⟨_, _, [], ⟨exact_normalized hs hws, hfits, rfl⟩, matches_render .., (List.append_nil _).symm, rfl⟩
  have hparts : Body.ofParts m.body.types m.body.normalize.values = .ok m.body.normalize := dif_pos m.body.normalize.arity
  refine run_bind_eq_ok.2 ⟨m.body.normalize.values, _, hvalues, ?_⟩
  refine run_bind_eq_ok.2 ⟨_, _, rfl, ?_⟩
  dsimp only [List.isEmpty]
  rw [hparts]
  refine run_bind_eq_ok.2 ⟨m.body.normalize, _, rfl, ?_⟩
  refine run_bind_eq_ok.2 ⟨(), _, ?_, rfl⟩
  exact congrArg (·, _) ((validate_received m).trans hvalid)

/-- **What follows the fixed header of a frame is read as the message that is received**, to the end. -/
theorem run_decodeRest (hw : Writable (maxDepth + 1) Fields.wireType (.array (m.fields.toWire m.body)))
    (hfit : AllFit m.header) (hws : List.Forall₂ (Writable (maxDepth + 1)) m.body.types m.body.values)
    (hfits : AllFit m.content) (hvalid : m.validate = .ok ()) :
    (decodeRest ⟨m.order, m.type.code, m.flags, m.version, bodyLength, m.serial, fieldsLength⟩).run
        ⟨m.order, 12, render m.order m.header ++ (List.replicate m.gap 0 ++ render m.order m.content)⟩
      = (.ok m.received, ⟨m.order, 12 + size m.header + m.gap + size m.content, []⟩) := by
  have hfields := hw.exact_normalize Fields.shaped_wireType
  rw [Fields.normalize_toWire] at hfields
  have hdecode := (decodeWithin_reads Fields.shaped_wireType m.order 12 _ _ _).2
    ⟨_, _, List.replicate m.gap 0 ++ render m.order m.content, ⟨hfields, hfit, rfl⟩, matches_render .., rfl, rfl⟩
  have halign := (reads_align 8 m.order (12 + size m.header) _ () _).2
    ⟨_, List.replicate m.gap 0, render m.order m.content, rfl, matches_singleton.2 (List.length_replicate ..), rfl, rfl⟩
  rw [decodeRest, MessageType.ofCode?_code]
  refine run_bind_eq_ok.2 ⟨_, _, hdecode, ?_⟩
  rw [Fields.ofWire_toWire]
  refine run_bind_eq_ok.2 ⟨_, _, run_lift _ _, ?_⟩
  refine run_bind_eq_ok.2 ⟨_, _, halign, ?_⟩
  refine run_bind_eq_ok.2 ⟨_, _, rfl, ?_⟩
  cases hsig : Fields.signature? m.body with
  | some text =>
    have hp := Fields.parse_signature hw hsig
    refine run_bind_eq_ok.2 ⟨m.body.types, _, ?_, run_readBody (shaped_of_mem hp) hws hfits hvalid _⟩
    rw [hp]
    rfl
  | none =>
    have hnil := Fields.types_of_signature?_none hsig
    refine run_bind_eq_ok.2 ⟨m.body.types, _, ?_, run_readBody (by simp [hnil]) hws hfits hvalid _⟩
    rw [hnil]
    rfl

/-! ## Whole messages -/

theorem version_of_validate (h : m.validate = .ok ()) : m.version = protocolVersion := by
  by_contra hv
  simp only [validate, ne_eq, hv, not_false_eq_true, if_true] at h
  cases h

theorem marshal_eq_ok {data : List UInt8} (h : m.marshal = .ok data) :
    m.serial ≠ 0 ∧ m.validate = .ok () ∧ data.length ≤ maxMessageSize ∧
      ∃ w, m.encode.run (Writer.new m.order 0) = (.ok (), w) ∧ w.data.toList = data := by
  unfold marshal at h
  split_ifs at h with hserial
  · cases h
  · cases hvalid : m.validate with
    | error e =>
      rw [hvalid] at h
      cases h
    | ok _ =>
      rw [hvalid] at h
      rcases hrun : m.encode.run (Writer.new m.order 0) with ⟨e | _, w⟩
      · simp only [hrun] at h
        cases h
      · simp only [hrun] at h
        change (if maxMessageSize < w.data.size then Except.error (Error.messageTooLong w.data.size)
          else .ok w.data.toList) = .ok data at h
        split_ifs at h with hlong
        cases h
        exact ⟨hserial, rfl, by simpa using hlong, w, rfl, rfl⟩

/-- a message is marshaled as its frame -/
theorem frame_of_marshal {data : List UInt8} (h : m.marshal = .ok data) : data = m.frame := by
  obtain ⟨-, -, -, w, hrun, rfl⟩ := marshal_eq_ok h
  exact (frame_of_encode hrun).2.2

/-- **What a message is written as is read as that message**, as it is received; and the first 16 bytes tell where it
ends. -/
theorem unmarshal_marshal {data : List UInt8} (h : m.marshal = .ok data) :
    ∃ header, FixedHeader.parse (data.take fixedHeaderLength) = .ok header ∧ header.frameLength = data.length ∧
      Message.unmarshal data = .ok m.received := by
  obtain ⟨hserial, hvalid, hlen, w, hrun, rfl⟩ := marshal_eq_ok h
  obtain ⟨⟨hw, hfit⟩, ⟨hws, hfits⟩, hframe⟩ := frame_of_encode hrun
  obtain ⟨rest, hrest⟩ := frame_eq m
  have hend := frameLength_fixedHeader m
  rw [hframe] at hlen ⊢
  have hshort : m.fixedHeader.bodyLength < UInt32.size ∧ m.fixedHeader.fieldsLength < UInt32.size := by
    have hmax : maxMessageSize < UInt32.size := by decide
    rw [FixedHeader.frameLength] at hend
    omega
  have hparse := parse_bytes (version_of_validate hvalid) hshort.1 hshort.2
  have hfront : m.frame.take fixedHeaderLength = m.fixedHeader.bytes ++ [] := by
    rw [hrest, List.append_nil]
    exact List.take_left' (by simp [FixedHeader.bytes, fixedHeaderLength])
  have hback : m.frame.drop (fixedHeaderLength - 4)
      = render m.order m.header ++ (List.replicate m.gap 0 ++ render m.order m.content) := by
    simp [frame, fixedHeaderLength, List.drop_append]
  refine ⟨m.fixedHeader, (congrArg _ hfront).trans (hparse []), hend, ?_⟩
  rw [Message.unmarshal, hback, hrest, hparse rest, ← hrest]
  change (if m.fixedHeader.frameLength ≠ m.frame.length then _ else _) = _
  rw [if_neg (not_not.2 hend)]
  change (if m.serial = 0 then _ else _) = _
  rw [if_neg hserial]
  exact congrArg Prod.fst (run_decodeRest hw hfit hws hfits hvalid)

/-- a reply with a field of an unknown code, and an integer of another kind for the byte of its body -/
def bigReply : Message where
  type := .methodReturn
  order := .big
  serial := 2
  fields := { replySerial := some 1, unknown := [(20, .basic .boolean, .scalar (.boolean true))] }
  body := ⟨[.basic (.int .byte)], [.uint32 7], rfl⟩

def bigReplyFrame : List UInt8 :=
  [66, 2, 0, 1, 0, 0, 0, 1, 0, 0, 0, 2, 0, 0, 0, 15, 5, 1, 117, 0, 0, 0, 0, 1, 8, 1, 103, 0, 1, 121, 0, 0, 7]

theorem marshal_bigReply : bigReply.marshal = .ok bigReplyFrame := by rfl

theorem unmarshal_marshal_bigReply :
    bigReply.marshal = .ok bigReplyFrame ∧
      (∃ header, FixedHeader.parse (bigReplyFrame.take 16) = .ok header ∧ header.frameLength = 33) ∧
      Message.unmarshal bigReplyFrame = .ok { bigReply with
        fields := { replySerial := some 1 }, body := ⟨[.basic (.int .byte)], [.byte 7], rfl⟩ } := by
  obtain ⟨header, hparse, hlength, hread⟩ := unmarshal_marshal marshal_bigReply
  exact ⟨marshal_bigReply, ⟨header, hparse, hlength⟩, hread⟩

end Message

end MessageBus
