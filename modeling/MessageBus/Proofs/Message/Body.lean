/-
The body of a frame, alone.

The body is written and read by the codec of the whole message, behind header fields of any length. It starts at a multiple
of eight, which the two lengths of the fixed header tell (`FixedHeader.Heads`), so that it is laid out there as it would be
at the start (`layout_body`). Hence its bytes can be cut out of a frame and dealt with on their own: they are what the body
is written as alone, and are read alone as what the message holds (`frame_body`).
-/
import MessageBus.Proofs.Message.Writing

namespace MessageBus

open Wire

/-- where the body starts: behind 16 bytes, and the header fields up to a multiple of eight -/
def FixedHeader.bodyStart (header : FixedHeader) : Nat :=
  fixedHeaderLength + (header.fieldsLength + padding header.fieldsLength 8)

/-- by the fixed header of a frame these are the bytes of its body: as many as it says, from a multiple of eight on -/
structure FixedHeader.Heads (header : FixedHeader) (data body : List UInt8) : Prop where
  parsed : FixedHeader.parse data = .ok header
  aligned : 8 ∣ header.bodyStart
  length : body.length = header.bodyLength
  split : ∃ front, data = front ++ body ∧ front.length = header.bodyStart

/-- the body is all from its start on -/
theorem FixedHeader.Heads.drop_start {header : FixedHeader} {data body : List UInt8} (h : header.Heads data body) :
    data.drop header.bodyStart = body := by
  obtain ⟨front, rfl, hfront⟩ := h.split
  exact List.drop_left' hfront

/-- the body is the last bytes, as many as the fixed header says -/
theorem FixedHeader.Heads.drop_last {header : FixedHeader} {data body : List UInt8} (h : header.Heads data body) :
    data.drop (data.length - header.bodyLength) = body := by
  obtain ⟨front, rfl, -⟩ := h.split
  rw [List.length_append, h.length, Nat.add_sub_cancel, List.drop_left]

namespace Message

variable {m : Message} {data : List UInt8}

theorem dvd_bodyStart (header : FixedHeader) : 8 ∣ header.bodyStart :=
  (show 8 ∣ fixedHeaderLength by decide).add (dvd_add_padding header.fieldsLength (by decide))

/-- what follows the serial ends with the body, which is laid out as if it stood alone -/
theorem exists_body {items : List Value} {order : ByteOrder} {bytes : List UInt8}
    (hm : Matches order (laid items m) bytes) :
    ∃ fields body, bytes = fields ++ body ∧ Matches order (layoutAll m.body.types m.body.values 0) body := by
  obtain ⟨gap, hlaid, -⟩ := laid_eq_bodyStart items m
  rw [hlaid, matches_append] at hm
  obtain ⟨fields, _, rfl, -, pad, body, rfl, -, hbody⟩ := hm
  exact ⟨fields ++ pad, body, (List.append_assoc ..).symm, hbody⟩

/-- **The body of a frame that is read is read alone as the same values.** -/
theorem exists_header (h : Message.unmarshal data = .ok m) : ∃ (header : FixedHeader) (body : List UInt8),
    header.Heads data body ∧ header.order = m.order ∧ body.length = size (layoutAll m.body.types m.body.values 0) ∧
      Wire.unmarshal m.order m.body.types body = .ok m.body.values := by
  obtain ⟨-, hvalid, items, bytes, hcarries, hfit, hsize, hm, rfl⟩ := unmarshal_eq_ok_iff.1 h
  obtain ⟨signature, -, htypes⟩ := hcarries.sorted
  obtain ⟨n, rest, hword, hn, hend⟩ := exists_fieldsLength hfit hm
  obtain ⟨fields, body, hbytes, hbody⟩ := exists_body hm
  let header : FixedHeader := ⟨m.order, m.type.code, m.flags, m.version, bodySize items m, m.serial, n⟩
  have hlength : body.length = header.bodyLength := by
    rw [hbody.length_eq, ← layout_body items m]
    rfl
  refine ⟨header, body, ⟨?_, dvd_bodyStart header, hlength, m.front (bodySize items m) ++ fields, ?_, ?_⟩, rfl,
    hbody.length_eq, ?_⟩
  · rw [hword, ← List.append_assoc, ← bytes_eq_front]
    exact parse_bytes (version_of_validate hvalid) hsize hn rest
  · rw [hbytes, List.append_assoc]
  · -- the two lengths leave just this many bytes in front of the body
    have hall : 12 + (fields.length + body.length) = header.bodyStart + header.bodyLength := by
      rw [← List.length_append, ← hbytes]
      exact hend
    rw [List.length_append, length_front]
    omega
  · obtain ⟨gap, hlaid, -⟩ := laid_eq_bodyStart items m
    rw [hlaid, allFit_append, allFit_cons] at hfit
    exact (Wire.unmarshal_eq_ok_iff (shaped_of_typesOf htypes)).2 ⟨hcarries.values, hfit.2.2, hbody⟩

/-- a frame ends with what its body is written as alone -/
theorem exists_marshal (h : m.marshal = .ok data) : ∃ front body, data = front ++ body ∧
    body.length = size (layoutAll m.body.types m.body.normalize.values 0) ∧
      Wire.marshal m.order m.body.types m.body.values = .ok body := by
  obtain ⟨-, -, -, w, hrun, rfl⟩ := marshal_eq_ok h
  obtain ⟨-, ⟨hwritable, hfit⟩, hframe⟩ := frame_of_encode hrun
  rw [content_eq] at hfit
  refine ⟨[m.order.marker, m.type.code, m.flags.bits, m.version] ++ (m.order.bytes 4 (size m.content) ++ m.between),
    render m.order m.content, ?_, ?_, ?_⟩
  · rw [hframe]
    simp only [frame, between, List.append_assoc]
  · rw [length_render, content_eq]
  · rw [content_eq]
    exact Wire.marshal_eq_ok_iff.2 ⟨hwritable, hfit, rfl⟩

/-- **The body inside of a frame is the body alone.** In a frame that a message is written as, it starts where the fixed
header says, at a multiple of eight, and is what the body is written as alone; and in any frame that is read as a message,
the last bytes, as many as the fixed header says, start there too, and are read alone as the values of the body. -/
theorem frame_body :
    (∀ (m : Message) (data : List UInt8), m.marshal = .ok data → ∃ header : FixedHeader, header.order = m.order ∧
      header.Heads data (data.drop header.bodyStart) ∧
      Wire.marshal m.order m.body.types m.body.values = .ok (data.drop header.bodyStart)) ∧
    ∀ (data : List UInt8) (m : Message), Message.unmarshal data = .ok m → ∃ header : FixedHeader, header.order = m.order ∧
      header.Heads data (data.drop (data.length - header.bodyLength)) ∧
      Wire.unmarshal header.order m.body.types (data.drop (data.length - header.bodyLength)) = .ok m.body.values := by
  constructor
  · intro m data h
    -- the frame is read as the message that is received, whose body takes up as many bytes
    obtain ⟨header, body, hheads, horder, hlength, -⟩ := exists_header (unmarshal_written h)
    obtain ⟨front, hdata, -⟩ := hheads.split
    obtain ⟨front', written, hdata', hlength', hwritten⟩ := exists_marshal h
    obtain ⟨-, rfl⟩ := List.append_inj' (hdata.symm.trans hdata') (hlength.trans hlength'.symm)
    refine ⟨header, horder, ?_, ?_⟩
    · rwa [hheads.drop_start]
    · rwa [hheads.drop_start]
  · intro data m h
    obtain ⟨header, body, hheads, horder, -, hread⟩ := exists_header h
    refine ⟨header, horder, ?_, ?_⟩
    · rwa [hheads.drop_last]
    · rwa [horder, hheads.drop_last]

def bigReplyHeader : FixedHeader := ⟨.big, 2, .none, 1, 1, 2, 15⟩

/-- a body of one byte behind 15 bytes of header fields and one of padding, on its way out and back in -/
theorem frame_body_bigReply :
    bigReply.marshal = .ok bigReplyFrame ∧ bigReplyHeader.Heads bigReplyFrame [7] ∧ bigReplyHeader.bodyStart = 32 ∧
      Wire.marshal .big bigReply.body.types bigReply.body.values = .ok [7] ∧
      Message.unmarshal bigReplyFrame = .ok bigReply.received ∧
      Wire.unmarshal .big [.basic (.int .byte)] [7] = .ok [.byte 7] := by
  have hparse : FixedHeader.parse bigReplyFrame = .ok bigReplyHeader := by rfl
  have hread : Message.unmarshal bigReplyFrame = .ok bigReply.received := by cbv
  obtain ⟨header, -, hheads, hwritten⟩ := frame_body.1 bigReply bigReplyFrame marshal_bigReply
  obtain rfl : header = bigReplyHeader := Except.ok.inj (hheads.parsed.symm.trans hparse)
  obtain ⟨header, -, hheads', halone⟩ := frame_body.2 bigReplyFrame bigReply.received hread
  obtain rfl : header = bigReplyHeader := Except.ok.inj (hheads'.parsed.symm.trans hparse)
  exact ⟨marshal_bigReply, hheads, rfl, hwritten, hread, halone⟩

end Message

end MessageBus
