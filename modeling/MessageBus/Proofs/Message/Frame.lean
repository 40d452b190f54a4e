/-
What a frame is read as.

A message is read off bytes exactly when they stand for a layout that carries it: the fixed header, an array of entries
that the header fields are sorted from, in any order and with whatever else there may be among them, any bytes up to the
next multiple of eight, and the values of the body (`unmarshal_eq_ok_iff`).
-/
import MessageBus.Proofs.Message.RoundTrip

namespace MessageBus

open Wire
open Value (Exact)

/-! ## The fixed header -/

theorem ByteOrder.marker_of_ofMarker {marker : UInt8} {order : ByteOrder} (h : ofMarker marker = .ok order) :
    order.marker = marker := by
  unfold ofMarker at h
  split_ifs at h with hlittle hbig
  · cases h
    exact hlittle.symm
  · cases h
    exact hbig.symm

theorem MessageType.code_of_ofCode? {code : UInt8} {type : MessageType} (h : ofCode? code = some type) :
    type.code = code := by
  unfold ofCode? at h
  split at h <;> cases h <;> rfl

/-- four bytes are the spelling of the number that they are read as -/
theorem ByteOrder.bytes_four (order : ByteOrder) {word : List UInt8} (h : word.length = 4) :
    order.bytes 4 (order.number word) = word ∧ order.number word < UInt32.size := by
  constructor
  · rw [← h]
    exact order.bytes_number word
  · have := order.number_lt word
    rwa [h] at this

theorem ByteOrder.bytes_inj {order : ByteOrder} {n k : Nat} (hn : n < UInt32.size) (hk : k < UInt32.size)
    (h : order.bytes 4 n = order.bytes 4 k) : n = k := by
  have hnumber := congrArg order.number h
  rw [number_bytes, number_bytes] at hnumber
  exact (Nat.mod_eq_of_lt hn).symm.trans (hnumber.trans (Nat.mod_eq_of_lt hk))

/-- there is no fixed header in less than 16 bytes, without a marker of the byte order, or of another version -/
theorem FixedHeader.front_of_parse {data : List UInt8} {header : FixedHeader} (h : parse data = .ok header) :
    ∃ order type flags rest, data = ByteOrder.marker order :: type :: flags :: protocolVersion :: rest ∧
      12 ≤ rest.length := by
  rcases data with _ | ⟨marker, _ | ⟨type, _ | ⟨flags, _ | ⟨version, rest⟩⟩⟩⟩
  case cons.cons.cons.cons =>
    by_cases hlong : hasAtLeast (fixedHeaderLength - 4) rest = true
    · cases horder : ByteOrder.ofMarker marker with
      | error e =>
        simp only [parse, hlong, horder] at h
        cases h
      | ok order =>
        by_cases hversion : version = protocolVersion
        · rw [hversion, ← ByteOrder.marker_of_ofMarker horder]
          exact ⟨order, type, flags, rest, rfl, (hasAtLeast_iff _ _).1 hlong⟩
        · have hversion' : (version ≠ protocolVersion) = True := eq_true hversion
          simp only [parse, hlong, horder, hversion'] at h
          cases h
    · simp only [parse, hlong] at h
      cases h
  all_goals cases h

theorem exists_word {n : Nat} {bytes : List UInt8} (h : 4 + n ≤ bytes.length) :
    ∃ word back, bytes = word ++ back ∧ word.length = 4 ∧ n ≤ back.length := by
  refine ⟨bytes.take 4, bytes.drop 4, (List.take_append_drop 4 bytes).symm, ?_, ?_⟩
  · rw [List.length_take]
    omega
  · rw [List.length_drop]
    omega

/-- what a fixed header is read off is its bytes -/
theorem FixedHeader.bytes_of_parse {data : List UInt8} {header : FixedHeader} (h : parse data = .ok header) :
    header.version = protocolVersion ∧ header.bodyLength < UInt32.size ∧ header.fieldsLength < UInt32.size ∧
      ∃ back, data = header.bytes ++ back := by
  obtain ⟨order, type, flags, rest, rfl, hlen⟩ := front_of_parse h
  obtain ⟨body, rest, rfl, hbody, hlen⟩ := exists_word (n := 8) hlen
  obtain ⟨serial, rest, rfl, hserial, hlen⟩ := exists_word (n := 4) hlen
  obtain ⟨fields, back, rfl, hfields, -⟩ := exists_word (n := 0) hlen
  obtain ⟨hbody, hbody'⟩ := order.bytes_four hbody
  obtain ⟨hserial, hserial'⟩ := order.bytes_four hserial
  obtain ⟨hfields, hfields'⟩ := order.bytes_four hfields
  obtain ⟨read, hread⟩ : ∃ read : FixedHeader, read = ⟨order, type, ⟨flags⟩, protocolVersion, order.number body,
    .ofNat (order.number serial), order.number fields⟩ := ⟨_, rfl⟩
  have hdata : order.marker :: type :: flags :: protocolVersion :: (body ++ (serial ++ (fields ++ back)))
      = read.bytes ++ back := by
    simp only [hread, bytes, UInt32.toNat_ofNat_of_lt' hserial', hbody, hserial, hfields, List.append_assoc]
    rfl
  have hparse : parse (read.bytes ++ back) = .ok read :=
    Message.parse_bytes (by rw [hread]) (by rwa [hread]) (by rwa [hread]) back
  rw [← hdata, h] at hparse
  cases hparse
  exact ⟨by rw [hread], by rwa [hread], by rwa [hread], back, hdata⟩

namespace Message

/-! ## What a frame carries -/

/-- the types of a body, by the signature among the header fields -/
def typesOf : Option String → Except Error (List Ty)
  | some signature => Ty.parse signature
  | none => .ok []

theorem shaped_of_typesOf {signature : Option String} {types : List Ty} (h : typesOf signature = .ok types) :
    ∀ type ∈ types, type.Shaped := by
  cases signature with
  | some signature => exact shaped_of_mem h
  | none =>
    cases h
    simp

/-- these entries are sorted into the header fields of the message and the types of its body -/
structure Carries (items : List Value) (message : Message) : Prop where
  entries : Exact (maxDepth + 1) Fields.wireType (.array items)
  sorted : ∃ signature, Fields.ofWire (.array items) = .ok ⟨message.fields, signature⟩ ∧
    typesOf signature = .ok message.body.types
  values : List.Forall₂ (Exact (maxDepth + 1)) message.body.types message.body.values

/-- the layout of what follows the serial: entries of header fields, and the body from a multiple of eight on -/
def laid (items : List Value) (message : Message) : List Segment :=
  consecutive [layout Fields.wireType (.array items), aligned 8 (layoutAll message.body.types message.body.values)] 12

theorem laid_eq (items : List Value) (m : Message) {fields : List Segment} {gap : Nat}
    (hfields : fields = layout Fields.wireType (.array items) 12) (hgap : gap = padding (12 + size fields) 8) :
    laid items m = fields ++ ([.padding gap] ++ layoutAll m.body.types m.body.values (12 + size fields + gap)) := by
  rw [laid, consecutive_pair, ← hfields, aligned, ← hgap]
  rfl

variable {m : Message} {items : List Value} {header : FixedHeader} {order : ByteOrder}

theorem run_readBody_iff {type : MessageType} {fields : Fields} {start : Nat} {types : List Ty} {p : Nat}
    {data : List UInt8} {r : Reader} (hs : ∀ type ∈ types, type.Shaped) :
    (readBody header type fields start types).run ⟨order, p, data⟩ = (.ok m, r) ↔
      ∃ values arity, m = ⟨type, header.order, header.flags, header.version, header.serial, fields, ⟨types, values, arity⟩⟩ ∧
        m.validate = .ok () ∧ List.Forall₂ (Exact (maxDepth + 1)) types values ∧ AllFit (layoutAll types values p) ∧
        Matches order (layoutAll types values p) data ∧ r = ⟨order, p + size (layoutAll types values p), []⟩ := by
  constructor
  · intro h
    obtain ⟨values, r₁, hvalues, h₁⟩ := run_bind_eq_ok.1 h
    obtain ⟨_, bytes, rest, ⟨hexact, hfit, rfl⟩, hm, rfl, rfl⟩ := (decodeAll_reads hs order p data values r₁).1 hvalues
    obtain ⟨r₂, r₃, hgot, h₂⟩ := run_bind_eq_ok.1 h₁
    cases hgot
    cases rest with
    | cons byte rest => cases h₂
    | nil =>
      dsimp only [List.isEmpty] at h₂
      obtain ⟨body, r₄, hparts, h₃⟩ := run_bind_eq_ok.1 h₂
      obtain ⟨_, r₅, hvalid, h₄⟩ := run_bind_eq_ok.1 h₃
      rw [Body.ofParts, dif_pos hexact.length_eq] at hparts
      cases hparts
      cases h₄
      rw [run_lift, outcome_eq_iff] at hvalid
      obtain ⟨hvalid, rfl⟩ := hvalid
      exact ⟨values, hexact.length_eq, rfl, hvalid, hexact, hfit, by simpa using hm, rfl⟩
  · intro h
    rcases h with ⟨values, harity, rfl, hvalid, hexact, hfit, hm, rfl⟩
    have hvalues := (decodeAll_reads hs order p data values _).2
      ⟨_, data, [], ⟨hexact, hfit, rfl⟩, hm, (List.append_nil _).symm, rfl⟩
    refine run_bind_eq_ok.2 ⟨values, _, hvalues, ?_⟩
    refine run_bind_eq_ok.2 ⟨_, _, rfl, ?_⟩
    dsimp only [List.isEmpty]
    rw [Body.ofParts, dif_pos harity]
    refine run_bind_eq_ok.2 ⟨⟨types, values, harity⟩, _, rfl, ?_⟩
    refine run_bind_eq_ok.2 ⟨(), _, ?_, rfl⟩
    exact congrArg (·, _) hvalid

/-- what follows the fixed header, in steps -/
theorem decodeRest_eq (header : FixedHeader) :
    decodeRest header = (match MessageType.ofCode? header.type with
      | none => throw (.invalidMessageType header.type)
      | some type => do
        let sorted ← Fields.ofWire (← Wire.decode Fields.wireType)
        Decoder.align 8
        let start := (← get).position
        let types ← typesOf sorted.signature
        readBody header type sorted.fields start types) := by
  unfold decodeRest
  cases MessageType.ofCode? header.type with
  | none => rfl
  | some type =>
    refine bind_congr fun value => bind_congr fun sorted => bind_congr fun _ => bind_congr fun r => ?_
    cases sorted.signature <;> rfl

theorem run_decodeRest_iff {data : List UInt8} {r : Reader} :
    (decodeRest header).run ⟨order, 12, data⟩ = (.ok m, r) ↔
      header = ⟨m.order, m.type.code, m.flags, m.version, header.bodyLength, m.serial, header.fieldsLength⟩ ∧
        m.validate = .ok () ∧ ∃ items, Carries items m ∧ AllFit (laid items m) ∧ Matches order (laid items m) data ∧
        r = ⟨order, 12 + size (laid items m), []⟩ := by
  rw [decodeRest_eq]
  constructor
  · intro h
    cases htype : MessageType.ofCode? header.type with
    | none =>
      rw [htype] at h
      cases h
    | some type =>
      rw [htype] at h
      obtain ⟨value, r₁, hdecode, h₁⟩ := run_bind_eq_ok.1 h
      obtain ⟨sorted, r₂, hsorted, h₂⟩ := run_bind_eq_ok.1 h₁
      obtain ⟨_, r₃, halign, h₃⟩ := run_bind_eq_ok.1 h₂
      obtain ⟨_, r₄, hgot, h₄⟩ := run_bind_eq_ok.1 h₃
      obtain ⟨types, r₅, htypes, hbody⟩ := run_bind_eq_ok.1 h₄
      cases hgot
      rw [run_lift, outcome_eq_iff] at hsorted htypes
      obtain ⟨hsorted, rfl⟩ := hsorted
      obtain ⟨htypes, rfl⟩ := htypes
      obtain ⟨_, front, rest, ⟨hexact, hfit, rfl⟩, hm, rfl, rfl⟩ :=
        (decodeWithin_reads Fields.shaped_wireType order 12 _ _ _).1 hdecode
      obtain ⟨_, pad, rest, rfl, hpad, rfl, rfl⟩ := (reads_align 8 order _ _ _ _).1 halign
      obtain ⟨values, arity, rfl, hvalid, hvalues, hfits, hms, rfl⟩ := (run_readBody_iff (shaped_of_typesOf htypes)).1 hbody
      rw [size_singleton, Segment.size] at hfits hms ⊢
      have hcode := MessageType.code_of_ofCode? htype
      obtain ⟨items, rfl, -⟩ := (Value.exact_array Fields.shaped_entry).1 hexact
      refine ⟨by rw [hcode], hvalid, items, ⟨hexact, ⟨sorted.signature, hsorted, htypes⟩, hvalues⟩, ?_⟩
      rw [laid_eq items _ rfl rfl, allFit_append, allFit_append, matches_append, size_append, size_append]
      refine ⟨⟨hfit, ?_, hfits⟩, ⟨front, pad ++ rest, rfl, hm, matches_append.2 ⟨pad, rest, rfl, hpad, hms⟩⟩, ?_⟩
      · simp [Segment.Fits]
      · rw [size_singleton, Segment.size, Nat.add_assoc, Nat.add_assoc]
  · intro h
    rcases h with ⟨hheader, hvalid, items, ⟨hexact, ⟨signature, hsorted, htypes⟩, hvalues⟩, hfit, hm, rfl⟩
    rw [laid_eq items m rfl rfl, allFit_append, allFit_append] at hfit
    rw [laid_eq items m rfl rfl, matches_append] at hm
    obtain ⟨hfit, -, hfits⟩ := hfit
    obtain ⟨front, _, rfl, hm, hm'⟩ := hm
    obtain ⟨pad, rest, rfl, hpad, hms⟩ := matches_append.1 hm'
    have hdecode := (decodeWithin_reads Fields.shaped_wireType order 12 _ _ _).2
      ⟨_, front, pad ++ rest, ⟨hexact, hfit, rfl⟩, hm, rfl, rfl⟩
    have halign := (reads_align 8 order _ _ () _).2 ⟨_, pad, rest, rfl, hpad, rfl, rfl⟩
    rw [hheader, MessageType.ofCode?_code]
    refine run_bind_eq_ok.2 ⟨_, _, hdecode, ?_⟩
    refine run_bind_eq_ok.2 ⟨_, _, (run_lift _ _).trans (congrArg (·, _) hsorted), ?_⟩
    refine run_bind_eq_ok.2 ⟨_, _, halign, ?_⟩
    refine run_bind_eq_ok.2 ⟨_, _, rfl, ?_⟩
    refine run_bind_eq_ok.2 ⟨_, _, (run_lift _ _).trans (congrArg (·, _) htypes), ?_⟩
    rw [size_singleton, Segment.size]
    refine (run_readBody_iff (shaped_of_typesOf htypes)).2 ⟨m.body.values, m.body.arity, rfl, hvalid, hvalues, hfits, hms, ?_⟩
    simp only [laid_eq items m rfl rfl, size_append, size_singleton, Segment.size, Nat.add_assoc]

/-! ## Whole frames -/

/-- where the body starts behind these entries of header fields -/
def bodyStart (items : List Value) : Nat :=
  let fields := layout Fields.wireType (.array items) 12
  12 + size fields + padding (12 + size fields) 8

/-- the number of bytes of the body behind these entries of header fields -/
def bodySize (items : List Value) (message : Message) : Nat :=
  size (layoutAll message.body.types message.body.values (bodyStart items))

/-- what stands in front of the header fields -/
def front (message : Message) (bodyLength : Nat) : List UInt8 :=
  [message.order.marker, message.type.code, message.flags.bits, message.version]
    ++ (message.order.bytes 4 bodyLength ++ message.order.bytes 4 message.serial.toNat)

theorem length_front (m : Message) (bodyLength : Nat) : (m.front bodyLength).length = 12 := by
  simp [front]

/-- what follows the serial starts with the length of the header fields, and the two lengths tell how long it is -/
theorem exists_fieldsLength {bytes : List UInt8} (hfit : AllFit (laid items m)) (hm : Matches order (laid items m) bytes) :
    ∃ n rest, bytes = order.bytes 4 n ++ rest ∧ n < UInt32.size ∧
      12 + bytes.length = fixedHeaderLength + (n + padding n 8) + bodySize items m := by
  obtain ⟨entries, hfields⟩ : ∃ entries, layout Fields.wireType (.array items) 12
      = [.padding 0, .length (size entries), .padding 0] ++ entries := ⟨_, rfl⟩
  have hsize : size (layout Fields.wireType (.array items) 12) = 4 + size entries := by
    rw [hfields]
    simp [Segment.size]
  have hlength := hm.length_eq
  rw [laid_eq items m rfl rfl, size_append, size_append, size_singleton, Segment.size] at hlength
  change _ = _ + (_ + bodySize items m) at hlength
  rw [laid_eq items m rfl rfl, hfields] at hfit hm
  obtain ⟨_, rest, rfl, hpad, _, rest, rfl, hword, -⟩ := hm
  obtain rfl := List.eq_nil_of_length_eq_zero hpad
  cases hword
  have hmax : size entries ≤ maxArrayLength := hfit (.length (size entries)) (by simp)
  refine ⟨size entries, rest, rfl, lt_of_le_of_lt hmax (by decide), ?_⟩
  have hgap := padding_fields (size entries)
  rw [show 16 + size entries = 12 + (4 + size entries) by omega] at hgap
  rw [hlength, hsize, hgap, fixedHeaderLength]
  omega

/-- reading a message, in steps -/
theorem unmarshal_steps {data : List UInt8} :
    Message.unmarshal data = .ok m ↔ ∃ header, FixedHeader.parse data = .ok header ∧
      header.frameLength = data.length ∧ header.serial ≠ 0 ∧
      ∃ r, (decodeRest header).run ⟨header.order, 12, data.drop 12⟩ = (.ok m, r) := by
  cases hparse : FixedHeader.parse data with
  | error e =>
    rw [Message.unmarshal, hparse]
    constructor
    · intro h
      cases h
    · intro h
      rcases h with ⟨_, h, -⟩
      cases h
  | ok header =>
    have hunfold : Message.unmarshal data = (do
        if header.frameLength ≠ data.length then throw (.lengthMismatch header.frameLength data.length)
        if header.serial = 0 then throw .zeroSerial
        ((decodeRest header).run ⟨header.order, 12, data.drop 12⟩).1) := by
      rw [Message.unmarshal, hparse]
      rfl
    rw [hunfold]
    by_cases hlength : header.frameLength = data.length
    · rw [if_neg (not_not.2 hlength)]
      by_cases hserial : header.serial = 0
      · rw [if_pos hserial]
        constructor
        · intro h
          cases h
        · intro h
          rcases h with ⟨_, heq, -, hnonzero, -⟩
          cases heq
          exact absurd hserial hnonzero
      · rw [if_neg hserial]
        constructor
        · intro h
          exact ⟨header, rfl, hlength, hserial, _, Prod.ext h rfl⟩
        · intro h
          rcases h with ⟨_, heq, -, -, r, hrun⟩
          cases heq
          exact congrArg Prod.fst hrun
    · rw [if_pos hlength]
      constructor
      · intro h
        cases h
      · intro h
        rcases h with ⟨_, heq, hlen, -⟩
        cases heq
        exact absurd hlen hlength

/-- a fixed header ends with the length of the header fields, which follows the front of its message -/
theorem bytes_eq_front (m : Message) (bodyLength fieldsLength : Nat) :
    FixedHeader.bytes ⟨m.order, m.type.code, m.flags, m.version, bodyLength, m.serial, fieldsLength⟩
      = m.front bodyLength ++ m.order.bytes 4 fieldsLength := by
  simp [FixedHeader.bytes, front]

/-- **A message is read off just the frames that stand for a layout that carries it.** -/
theorem unmarshal_eq_ok_iff {data : List UInt8} :
    Message.unmarshal data = .ok m ↔
      m.serial ≠ 0 ∧ m.validate = .ok () ∧ ∃ items bytes, Carries items m ∧ AllFit (laid items m) ∧
        bodySize items m < UInt32.size ∧ Matches m.order (laid items m) bytes ∧
        data = m.front (bodySize items m) ++ bytes := by
  rw [unmarshal_steps]
  constructor
  · intro h
    rcases h with ⟨header, hparse, hlength, hserial, r, hrun⟩
    obtain ⟨-, hbody, hfields, back, rfl⟩ := FixedHeader.bytes_of_parse hparse
    obtain ⟨hheader, hvalid, items, hcarries, hfit, hm, -⟩ := run_decodeRest_iff.1 hrun
    obtain ⟨bodyLength, hbodyLength⟩ : ∃ bodyLength, bodyLength = header.bodyLength := ⟨_, rfl⟩
    obtain ⟨fieldsLength, hfieldsLength⟩ : ∃ fieldsLength, fieldsLength = header.fieldsLength := ⟨_, rfl⟩
    rw [← hbodyLength, ← hfieldsLength] at hheader
    subst hheader
    rw [bytes_eq_front, List.append_assoc, List.drop_left' (length_front ..)] at hm
    obtain ⟨n, rest, heq, hn, hend⟩ := exists_fieldsLength hfit hm
    obtain ⟨hword, rfl⟩ := List.append_inj heq (by simp)
    obtain rfl : fieldsLength = n := ByteOrder.bytes_inj hfields hn hword
    obtain rfl : bodyLength = bodySize items m := by
      rw [bytes_eq_front, List.append_assoc, List.length_append, length_front, hend] at hlength
      exact Nat.add_left_cancel hlength
    refine ⟨hserial, hvalid, items, _, hcarries, hfit, hbody, hm, ?_⟩
    rw [bytes_eq_front, List.append_assoc]
  · intro h
    rcases h with ⟨hserial, hvalid, items, bytes, hcarries, hfit, hbody, hm, rfl⟩
    obtain ⟨n, rest, rfl, hn, hend⟩ := exists_fieldsLength hfit hm
    refine ⟨⟨m.order, m.type.code, m.flags, m.version, bodySize items m, m.serial, n⟩, ?_, ?_, hserial,
      ⟨m.order, 12 + size (laid items m), []⟩, ?_⟩
    · rw [← List.append_assoc, ← bytes_eq_front]
      exact parse_bytes (version_of_validate hvalid) hbody hn rest
    · rw [List.length_append, length_front, hend, FixedHeader.frameLength]
    · rw [List.drop_left' (length_front ..)]
      exact run_decodeRest_iff.2 ⟨rfl, hvalid, items, hcarries, hfit, hm, rfl⟩

/-- what goes out with a body that can be written is a signature that stands for its types -/
theorem typesOf_writable (hw : Value.Writable (maxDepth + 1) Fields.wireType (.array (m.fields.toWire m.body))) :
    typesOf (Fields.signature? m.body) = .ok m.body.types := by
  cases hsig : Fields.signature? m.body with
  | some text => exact Fields.parse_signature hw hsig
  | none => rw [typesOf, Fields.types_of_signature?_none hsig]

/-- a frame that was written stands for the layout that carries what is received of it -/
theorem unmarshal_written {data : List UInt8} (h : m.marshal = .ok data) : Message.unmarshal data = .ok m.received := by
  obtain ⟨hserial, hvalid, hlen, w, hrun, rfl⟩ := marshal_eq_ok h
  obtain ⟨⟨hw, hfit⟩, ⟨hws, hfits⟩, hframe⟩ := frame_of_encode hrun
  have htypes := typesOf_writable hw
  have hentries := hw.exact_normalize Fields.shaped_wireType
  rw [Fields.normalize_toWire] at hentries
  have hcarries : Carries (m.fields.toWire m.body) m.received :=
    ⟨hentries, ⟨_, Fields.ofWire_toWire m.fields m.body, htypes⟩, exact_normalized (shaped_of_typesOf htypes) hws⟩
  have hlaid : laid (m.fields.toWire m.body) m.received = m.header ++ ([.padding m.gap] ++ m.content) := laid_eq _ _ rfl rfl
  have hfront : m.frame
      = m.received.front (size m.content) ++ render m.order (m.header ++ ([.padding m.gap] ++ m.content)) := by
    simp [frame, front, received, Segment.bytes]
  have hsize : size m.content ≤ m.frame.length := by
    rw [hfront, List.length_append, length_render, size_append, size_append]
    omega
  refine unmarshal_eq_ok_iff.2 ⟨hserial, (validate_received m).trans hvalid, _, _, hcarries, ?_, ?_, matches_render .., ?_⟩
  · rw [hlaid, allFit_append, allFit_append]
    exact ⟨hfit, by simp [Segment.Fits], hfits⟩
  · have hmax : maxMessageSize < UInt32.size := by decide
    rw [hframe] at hlen
    exact (hsize.trans hlen).trans_lt hmax
  · rw [hframe, hlaid, hfront]
    rfl

end Message

end MessageBus
