/-
Messages that are sent on.

What was received can be written again. Each entry of the header fields takes up a multiple of eight bytes in the end
(`end_consecutive`), wherever it stands, so that leaving out entries and putting the others in order never makes the
header longer (`room_le`), and the body starts at a multiple of eight as before. The frame that is written is read as the
same message but for fields of unknown codes, and written the same way from then on (`marshal_unmarshal`).
-/
import Mathlib
import MessageBus.Proofs.Message.Frame

namespace MessageBus

open Wire
open Value (Exact Writable)
open Function (Periodic)

/-! ## Entries in any order -/

namespace Wire

/-- a piece is the same from the next multiple of eight on, wherever it is put -/
def Floats (piece : Piece) : Prop := ∀ p, piece p = .padding (padding p 8) :: (piece 0).tail

/-- the bytes of a piece up to the next multiple of eight -/
def room (piece : Piece) : Nat := size (piece 0) + padding (size (piece 0)) 8

theorem padding_add_of_dvd {p : Nat} (h : 8 ∣ p) (n : Nat) : padding (p + n) 8 = padding n 8 := by
  simp only [padding]
  omega

theorem periodic_eq_zero {piece : Piece} (h : Periodic piece 8) {p : Nat} (hp : 8 ∣ p) : piece p = piece 0 := by
  rw [← h.map_mod_nat, Nat.mod_eq_zero_of_dvd hp]

theorem Floats.aligned {body : Piece} (h : Periodic body 8) : Floats (aligned 8 body) := by
  intro p
  rw [Wire.aligned, periodic_eq_zero h (dvd_add_padding p (by decide))]
  rfl

section Floats

variable {α : Type} {place : α → Piece} {items : List α}

theorem Floats.size_eq {piece : Piece} (h : Floats piece) (p : Nat) : size (piece p) = padding p 8 + size (piece 0) := by
  have hzero : size (piece 0) = size (piece 0).tail := by
    rw [h 0, size_cons]
    simp [Segment.size, padding]
  rw [h p, size_cons, ← hzero, Segment.size]

theorem Floats.allFit_iff {piece : Piece} (h : Floats piece) (p : Nat) : AllFit (piece p) ↔ AllFit (piece 0) := by
  rw [h p, h 0, allFit_cons, allFit_cons]
  simp [Segment.Fits]

/-- pieces that float end where their room ends, in whatever order they are put -/
theorem end_consecutive (h : ∀ a ∈ items, Floats (place a)) (p : Nat) :
    p + size (consecutive (items.map place) p) + padding (p + size (consecutive (items.map place) p)) 8
      = p + padding p 8 + (items.map fun a => room (place a)).sum := by
  induction items generalizing p with
  | nil => simp
  | cons a items ih =>
    have hsize := (h a List.mem_cons_self).size_eq p
    have hrest := ih (fun b hb => h b (List.mem_cons_of_mem _ hb)) (p + size (place a p))
    have hpad : padding (p + size (place a p)) 8 = padding (size (place a 0)) 8 := by
      rw [hsize, ← Nat.add_assoc]
      exact padding_add_of_dvd (dvd_add_padding p (by decide)) _
    rw [List.map_cons, consecutive_cons, size_append, ← Nat.add_assoc, hrest, hpad, hsize, List.map_cons, List.sum_cons,
      room]
    omega

theorem allFit_consecutive (h : ∀ a ∈ items, Floats (place a)) (p : Nat) :
    AllFit (consecutive (items.map place) p) ↔ ∀ a ∈ items, AllFit (place a 0) := by
  induction items generalizing p with
  | nil => simp
  | cons a items ih =>
    rw [List.map_cons, consecutive_cons, allFit_append, (h a List.mem_cons_self).allFit_iff,
      ih fun b hb => h b (List.mem_cons_of_mem _ hb), List.forall_mem_cons]

theorem room_le {items' : List α} (h : items'.Subperm items) :
    (items'.map fun a => room (place a)).sum ≤ (items.map fun a => room (place a)).sum := by
  obtain ⟨kept, hperm, hsub⟩ := h
  rw [← (hperm.map fun a => room (place a)).sum_eq]
  exact (hsub.map fun a => room (place a)).sum_le_sum fun _ _ => Nat.zero_le _

end Floats

end Wire

namespace Message

/-- the type of an entry of the header fields -/
abbrev entryType : Ty := .struct [.basic (.int .byte), .variant]

/-- the bytes of some entries, each up to the next multiple of eight -/
def entriesRoom (items : List Value) : Nat := (items.map fun item => room (layout entryType item)).sum

variable {m : Message} {items kept : List Value} {data : List UInt8}

theorem floats_entry {levels : Nat} {item : Value} (h : Exact levels entryType item) : Floats (layout entryType item) := by
  cases levels with
  | zero => cases h
  | succ levels =>
    obtain ⟨fields, rfl, -⟩ := Value.exact_struct.1 h
    exact Floats.aligned (periodic_layouts.2.1 _ _)

theorem exact_entries : Exact (maxDepth + 1) Fields.wireType (.array items) ↔
    ∀ item ∈ items, Exact maxDepth entryType item := by
  rw [Fields.wireType, Value.exact_array Fields.shaped_entry]
  simp

theorem layout_fields (items : List Value) :
    layout Fields.wireType (.array items) 12
      = [.padding 0, .length (size (consecutive (items.map (layout entryType)) 16)), .padding 0]
        ++ consecutive (items.map (layout entryType)) 16 := by
  rw [Fields.wireType, layout_array Fields.shaped_entry]
  rfl

theorem entriesRoom_eq (h : ∀ item ∈ items, Exact maxDepth entryType item) {n : Nat}
    (hn : n = size (consecutive (items.map (layout entryType)) 16)) : entriesRoom items = n + padding n 8 := by
  have hend := end_consecutive (fun item hi => floats_entry (h item hi)) 16
  rw [← hn, padding_fields, show padding 16 8 = 0 from rfl] at hend
  rw [entriesRoom]
  omega

/-- the body starts where the room of the entries ends -/
theorem bodyStart_eq (h : ∀ item ∈ items, Exact maxDepth entryType item) : bodyStart items = 16 + entriesRoom items := by
  obtain ⟨n, hn⟩ : ∃ n, n = size (consecutive (items.map (layout entryType)) 16) := ⟨_, rfl⟩
  have hgap : padding (12 + (4 + n)) 8 = padding n 8 := by
    rw [← Nat.add_assoc]
    exact padding_fields n
  rw [entriesRoom_eq h hn, bodyStart, layout_fields, size_append, ← hn]
  change 12 + (4 + n) + padding (12 + (4 + n)) 8 = _
  rw [hgap]
  omega

/-- the longest array ends at a multiple of eight, so that the padding in it may be counted -/
theorem allFit_fields (h : ∀ item ∈ items, Exact maxDepth entryType item) :
    AllFit (layout Fields.wireType (.array items) 12) ↔
      entriesRoom items ≤ maxArrayLength ∧ ∀ item ∈ items, AllFit (layout entryType item 0) := by
  obtain ⟨n, hn⟩ : ∃ n, n = size (consecutive (items.map (layout entryType)) 16) := ⟨_, rfl⟩
  have hlength : n ≤ maxArrayLength ↔ n + padding n 8 ≤ maxArrayLength := by
    simp only [padding, maxArrayLength]
    omega
  rw [layout_fields, allFit_append, allFit_consecutive fun item hi => floats_entry (h item hi), entriesRoom_eq h hn,
    ← hlength, ← hn]
  simp [Segment.Fits]

/-! ## The canonical frame -/

/-- what a body is laid out as does not depend on the entries in front of it -/
theorem layout_body (items : List Value) (m : Message) :
    layoutAll m.body.types m.body.values (bodyStart items) = layoutAll m.body.types m.body.values 0 :=
  periodic_eq_zero (periodic_layouts.2.1 _ _) (dvd_add_padding _ (by decide))

theorem laid_eq_bodyStart (items : List Value) (m : Message) : ∃ gap,
    laid items m = layout Fields.wireType (.array items) 12 ++ (.padding gap :: layoutAll m.body.types m.body.values 0) ∧
      12 + size (layout Fields.wireType (.array items) 12) + gap = bodyStart items := by
  refine ⟨_, ?_, rfl⟩
  rw [laid_eq items m rfl rfl, ← layout_body items m]
  rfl

/-- **Some of the entries take up no more than all of them**, in any order. -/
theorem laid_le (h : ∀ item ∈ items, Exact maxDepth entryType item) (hkept : kept.Subperm items)
    (hfit : AllFit (laid items m)) :
    AllFit (laid kept m) ∧ size (laid kept m) ≤ size (laid items m) ∧ bodySize kept m = bodySize items m := by
  have hexact : ∀ item ∈ kept, Exact maxDepth entryType item := fun item hi => h item (hkept.subset hi)
  have hroom : entriesRoom kept ≤ entriesRoom items := room_le hkept
  obtain ⟨gap, hlaid, hgap⟩ := laid_eq_bodyStart items m
  obtain ⟨gap', hlaid', hgap'⟩ := laid_eq_bodyStart kept m
  rw [bodyStart_eq h] at hgap
  rw [bodyStart_eq hexact] at hgap'
  rw [hlaid, allFit_append, allFit_cons, allFit_fields h] at hfit
  obtain ⟨⟨hmax, hitems⟩, -, hbody⟩ := hfit
  refine ⟨?_, ?_, ?_⟩
  · rw [hlaid', allFit_append, allFit_cons, allFit_fields hexact]
    exact ⟨⟨hroom.trans hmax, fun item hi => hitems item (hkept.subset hi)⟩, trivial, hbody⟩
  · rw [hlaid, hlaid', size_append, size_append, size_cons, size_cons, Segment.size, Segment.size]
    omega
  · rw [bodySize, bodySize, layout_body, layout_body]

/-- a message that carries exact values is written as a layout with the entries that its fields are listed as -/
theorem frame_eq_front (hnormal : m.body.normalize.values = m.body.values) :
    m.frame = m.front (bodySize (m.fields.toWire m.body) m) ++ render m.order (laid (m.fields.toWire m.body) m) := by
  rw [laid_eq (m.fields.toWire m.body) m (show m.header = _ from rfl) (show m.gap = _ from rfl)]
  simp only [frame, front, content, hnormal, render_append, render_cons, render_nil, Segment.bytes, List.append_assoc,
    List.append_nil]
  rfl

/-! ## Sending on -/

/-- the header fields are written behind the serial -/
theorem run_header (hw : Writable (maxDepth + 1) Fields.wireType (.array (m.fields.toWire m.body)))
    (hfit : AllFit m.header) : (Wire.encode Fields.wireType (.array (m.fields.toWire m.body))).run
      (m.opened.append ([0, 0, 0, 0] ++ m.order.bytes 4 m.serial.toNat))
    = (.ok (), (m.opened.append ([0, 0, 0, 0] ++ m.order.bytes 4 m.serial.toNat)).append (render m.order m.header)) := by
  have hpos : (m.opened.append ([0, 0, 0, 0] ++ m.order.bytes 4 m.serial.toNat)).position = 12 := by
    simp [opened_position]
  refine (encodeWithin_emits (maxDepth + 1) _ _ _ _).2 ⟨hw, ?_, ?_⟩
  · rw [hpos, Fields.normalize_toWire]
    exact hfit
  · rw [hpos, Fields.normalize_toWire]
    rfl

/-- a message whose parts can be written is written, or its frame is too long -/
theorem marshal_eq (hserial : m.serial ≠ 0) (hvalid : m.validate = .ok ())
    (hw : Writable (maxDepth + 1) Fields.wireType (.array (m.fields.toWire m.body))) (hfit : AllFit m.header)
    (hws : List.Forall₂ (Writable (maxDepth + 1)) m.body.types m.body.values) (hfits : AllFit m.content) :
    m.marshal
      = if maxMessageSize < m.frame.length then .error (.messageTooLong m.frame.length) else .ok m.frame := by
  have hbody : (m.opened.append ([0, 0, 0, 0] ++ m.between)).position = 12 + size m.header + m.gap := by
    simp [opened_position, between]
    omega
  obtain ⟨w, hcontent⟩ : ∃ w, (encodeAll m.body.types m.body.values).run
      (((m.opened.append ([0, 0, 0, 0] ++ m.order.bytes 4 m.serial.toNat)).append (render m.order m.header)).align 8)
        = (.ok (), w) := by
    rw [align_header]
    refine ⟨_, (encodeAll_emits _ _ _ _).2 ⟨hws, ?_, rfl⟩⟩
    rw [hbody]
    exact hfits
  have hrun := run_encode_eq_ok.2 ⟨_, _, run_header hw hfit, hcontent, rfl⟩
  obtain ⟨-, -, hframe⟩ := frame_of_encode hrun
  rw [marshal, if_neg hserial, hvalid, ← hframe, Array.length_toList]
  simp only [hrun]
  rfl

theorem marshal_frame (hserial : m.serial ≠ 0) (hvalid : m.validate = .ok ())
    (hw : Writable (maxDepth + 1) Fields.wireType (.array (m.fields.toWire m.body))) (hfit : AllFit m.header)
    (hws : List.Forall₂ (Writable (maxDepth + 1)) m.body.types m.body.values) (hfits : AllFit m.content)
    (hlen : m.frame.length ≤ maxMessageSize) : m.marshal = .ok m.frame := by
  rw [marshal_eq hserial hvalid hw hfit hws hfits, if_neg (not_lt.2 hlen)]

/-- the message without the fields of unknown codes -/
def known (message : Message) : Message := { message with fields := { message.fields with unknown := [] } }

theorem validate_known (m : Message) : m.known.validate = m.validate := by
  obtain ⟨type, order, flags, version, serial, fields, body⟩ := m
  cases type <;> rfl

/-- the signature that goes along with a body is the one that its types were read off, if that was not empty -/
theorem signature_of_typesOf {signature : Option String} (h : typesOf signature = .ok m.body.types) {text : String}
    (htext : Fields.signature? m.body = some text) : signature = some text := by
  unfold Fields.signature? at htext
  split_ifs at htext with hempty
  cases htext
  cases signature with
  | some signature => exact congrArg some (Ty.parse_sound h).2.1.symm
  | none =>
    have htypes : m.body.types = [] := (Except.ok.inj h).symm
    have harity := m.body.arity
    rw [htypes, List.length_nil] at harity
    exact absurd (List.isEmpty_iff.2 (List.eq_nil_of_length_eq_zero harity.symm)) hempty

theorem typesOf_signature? {signature : Option String} (h : typesOf signature = .ok m.body.types) :
    typesOf (Fields.signature? m.body) = .ok m.body.types := by
  cases hsig : Fields.signature? m.body with
  | some text => rwa [← signature_of_typesOf h hsig]
  | none => rw [typesOf, Fields.types_of_signature?_none hsig]

/-- what was received is written as its frame, and that is read as the message without fields of unknown codes -/
theorem frame_of_unmarshal (hlen : data.length ≤ maxMessageSize) (h : Message.unmarshal data = .ok m) :
    m.marshal = .ok m.frame ∧ m.frame.length ≤ data.length ∧ Message.unmarshal m.frame = .ok m.known := by
  obtain ⟨hserial, hvalid, items, bytes, hcarries, hfit, hsize, hm, rfl⟩ := unmarshal_eq_ok_iff.1 h
  obtain ⟨signature, hsorted, htypes⟩ := hcarries.sorted
  have hexact := exact_entries.1 hcarries.entries
  have hnormal : m.body.normalize.values = m.body.values :=
    normalizeAll_exact (shaped_of_typesOf htypes) hcarries.values
  have hkept : (m.fields.toWire m.body).Subperm items :=
    Fields.toWire_subperm hsorted fun text htext => signature_of_typesOf htypes htext
  have hentries : Exact (maxDepth + 1) Fields.wireType (.array (m.fields.toWire m.body)) :=
    exact_entries.2 fun item hi => hexact item (hkept.subset hi)
  obtain ⟨hfit', hle, hsame⟩ := laid_le hexact hkept hfit
  have hframe := frame_eq_front hnormal
  have hlength : m.frame.length ≤ (m.front (bodySize items m) ++ bytes).length := by
    rw [hframe, List.length_append, List.length_append, length_front, length_front, length_render, hm.length_eq]
    exact Nat.add_le_add_left hle 12
  refine ⟨?_, hlength, ?_⟩
  · have hfits := hfit'
    rw [laid_eq (m.fields.toWire m.body) m (show m.header = _ from rfl) (show m.gap = _ from rfl), allFit_append,
      allFit_append] at hfits
    have hcontent : AllFit m.content := by
      rw [content, hnormal]
      exact hfits.2.2
    exact marshal_frame hserial hvalid hentries.writable hfits.1 (hcarries.values.imp fun _ _ h => h.writable) hcontent
      (hlength.trans hlen)
  · have hcarries' : Carries (m.fields.toWire m.body) m.known :=
      ⟨hentries, ⟨_, Fields.ofWire_toWire m.fields m.body, typesOf_signature? htypes⟩, hcarries.values⟩
    refine unmarshal_eq_ok_iff.2 ⟨hserial, (validate_known m).trans hvalid, _, _, hcarries', hfit', ?_,
      matches_render .., hframe⟩
    exact lt_of_eq_of_lt hsame hsize

/-- **A message that is sent on is the same from then on**: what was received can be written, in no more bytes, is read
back without the fields of unknown codes, and is written as just these bytes again. -/
theorem marshal_of_unmarshal (hlen : data.length ≤ maxMessageSize) (h : Message.unmarshal data = .ok m) :
    ∃ written, m.marshal = .ok written ∧ written.length ≤ data.length ∧
      Message.unmarshal written = .ok { m with fields := { m.fields with unknown := [] } } ∧
      Message.marshal { m with fields := { m.fields with unknown := [] } } = .ok written := by
  obtain ⟨hwritten, hle, hread⟩ := frame_of_unmarshal hlen h
  obtain ⟨hagain, -, -⟩ := frame_of_unmarshal (hle.trans hlen) hread
  exact ⟨m.frame, hwritten, hle, hread, hagain⟩

/-- a reply with its serial given twice, a field of an unknown code, the signature of an empty body, and something else
than zeros behind its header fields -/
def untidyFrame : List UInt8 :=
  [108, 2, 0, 1, 0, 0, 0, 0, 2, 0, 0, 0, 30, 0, 0, 0, 5, 1, 117, 0, 9, 0, 0, 0, 20, 1, 98, 0, 1, 0, 0, 0,
    5, 1, 117, 0, 1, 0, 0, 0, 8, 1, 103, 0, 0, 0, 7, 7]

def untidyReply : Message where
  type := .methodReturn
  serial := 2
  fields := { replySerial := some 1, unknown := [(20, .basic .boolean, .scalar (.boolean true))] }

def tidyFrame : List UInt8 := [108, 2, 0, 1, 0, 0, 0, 0, 2, 0, 0, 0, 8, 0, 0, 0, 5, 1, 117, 0, 1, 0, 0, 0]

theorem unmarshal_untidyFrame : Message.unmarshal untidyFrame = .ok untidyReply := by cbv

theorem marshal_of_unmarshal_untidy :
    Message.unmarshal untidyFrame = .ok untidyReply ∧ untidyReply.marshal = .ok tidyFrame ∧
      Message.unmarshal tidyFrame = .ok { untidyReply with fields := { replySerial := some 1 } } ∧
      Message.marshal { untidyReply with fields := { replySerial := some 1 } } = .ok tidyFrame := by
  obtain ⟨written, hwritten, -, hread, hagain⟩ := marshal_of_unmarshal (by decide) unmarshal_untidyFrame
  have htidy : untidyReply.marshal = .ok tidyFrame := rfl
  obtain rfl : tidyFrame = written := Except.ok.inj (htidy.symm.trans hwritten)
  exact ⟨unmarshal_untidyFrame, hwritten, hread, hagain⟩

end Message

end MessageBus
