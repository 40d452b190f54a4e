/-
What a frame buffer takes out of a stream.

`takeAll maxSize bytes` is what all of some bytes hold: the messages up to the first error, that error, and the bytes
left. It goes from frame to frame and knows nothing of chunks. A buffer that is given the same bytes piece by piece
delivers just that, since whatever can be told from the front of some bytes is the same when more bytes follow
(`front_append`), so that taking all of two stretches is taking all of the first, and then of what is left of it in
front of the second (`takeAll_append`).

`push_open` and `push_failed` say all that a push does, and `pushed` what any number of them do. Therefore nothing that
can be seen from outside depends on where a stream is cut (`outcome_eq_of_flatten_eq`).
-/
import Mathlib.Tactic
import MessageBus.FrameBuffer

namespace MessageBus.FrameBuffer

variable {maxSize : Nat} {bytes : List UInt8} {e : Error}

/-! ## The front of a stream -/

/-- what lies at the front of some bytes -/
inductive Front where
  /-- not yet a complete frame -/
  | incomplete
  /-- no frame can be told from these bytes -/
  | unframed (error : Error)
  /-- a complete frame of a length, and what it holds -/
  | frame (length : Nat) (content : Except Error Message)

/-- look at the front of some bytes for a frame of at most `maxSize` bytes -/
def front (maxSize : Nat) (bytes : List UInt8) : Front :=
  if !Wire.hasAtLeast fixedHeaderLength bytes then .incomplete
  else match FixedHeader.parse (bytes.take fixedHeaderLength) with
    | .error e => .unframed e
    | .ok header =>
      if maxSize < header.frameLength then .unframed (.messageTooLong header.frameLength)
      else if !Wire.hasAtLeast header.frameLength bytes then .incomplete
      else .frame header.frameLength (Message.unmarshal (bytes.take header.frameLength))

/-- a frame takes up at least its fixed header -/
theorem front_frame_length {maxSize length : Nat} {bytes : List UInt8} {content : Except Error Message}
    (h : front maxSize bytes = .frame length content) : fixedHeaderLength ≤ length ∧ length ≤ bytes.length := by
  unfold front at h
  split at h
  · cases h
  split at h
  · cases h
  split at h
  · cases h
  split at h
  · cases h
  next hlen =>
    cases h
    refine ⟨by unfold FixedHeader.frameLength; omega, ?_⟩
    rw [← Wire.hasAtLeast_iff]
    simpa using hlen

theorem hasAtLeast_eq {α : Type} (n : Nat) (list : List α) : Wire.hasAtLeast n list = !decide (list.length < n) := by
  rw [Bool.eq_iff_iff, Wire.hasAtLeast_iff]
  simp

theorem front_short (h : bytes.length < fixedHeaderLength) : front maxSize bytes = .incomplete := by
  simp [front, hasAtLeast_eq, h]

/-- behind a whole fixed header it only depends on what that declares whether a frame is there -/
theorem front_long (h : fixedHeaderLength ≤ bytes.length) :
    front maxSize bytes = match FixedHeader.parse (bytes.take fixedHeaderLength) with
      | .error e => .unframed e
      | .ok header =>
        if maxSize < header.frameLength then .unframed (.messageTooLong header.frameLength)
        else if bytes.length < header.frameLength then .incomplete
        else .frame header.frameLength (Message.unmarshal (bytes.take header.frameLength)) := by
  cases hparse : FixedHeader.parse (bytes.take fixedHeaderLength) with
  | error e => simp [front, hasAtLeast_eq, not_lt.2 h, hparse]
  | ok header => simp [front, hasAtLeast_eq, not_lt.2 h, hparse]

theorem front_undeclared (hlong : fixedHeaderLength ≤ bytes.length) (h : declared maxSize bytes = .error e) :
    front maxSize bytes = .unframed e := by
  rw [front_long hlong]
  unfold declared at h
  cases hparse : FixedHeader.parse (bytes.take fixedHeaderLength) with
  | error e' =>
    rw [hparse] at h
    cases h
    rfl
  | ok header =>
    rw [hparse] at h
    simp only at h ⊢
    split_ifs at h ⊢
    cases h
    rfl

/-- once the length of a frame is known, it is there as soon as so many bytes are -/
theorem front_declared {length : Nat} (hlong : fixedHeaderLength ≤ bytes.length) (h : declared maxSize bytes = .ok length) :
    front maxSize bytes
      = if bytes.length < length then .incomplete else .frame length (Message.unmarshal (bytes.take length)) := by
  rw [front_long hlong]
  unfold declared at h
  cases hparse : FixedHeader.parse (bytes.take fixedHeaderLength) with
  | error e =>
    rw [hparse] at h
    cases h
  | ok header =>
    rw [hparse] at h
    simp only at h ⊢
    split_ifs at h with hmax
    cases h
    rw [if_neg hmax]

/-- what a fixed header declares does not depend on the bytes behind it -/
theorem declared_append (hlong : fixedHeaderLength ≤ bytes.length) (more : List UInt8) :
    declared maxSize (bytes ++ more) = declared maxSize bytes := by
  rw [declared, declared, List.take_append_of_le_length hlong]

/-- what can be told from some bytes stays the same when more bytes follow -/
theorem front_append (more : List UInt8) (h : front maxSize bytes ≠ .incomplete) :
    front maxSize (bytes ++ more) = front maxSize bytes := by
  have hlong : fixedHeaderLength ≤ bytes.length := not_lt.1 fun hshort => h (front_short hshort)
  have hlong' : fixedHeaderLength ≤ (bytes ++ more).length := by
    rw [List.length_append]
    omega
  rw [front_long hlong] at h ⊢
  rw [front_long hlong', List.take_append_of_le_length hlong]
  cases hparse : FixedHeader.parse (bytes.take fixedHeaderLength) with
  | error e => rfl
  | ok header =>
    simp only [hparse] at h ⊢
    by_cases hmax : maxSize < header.frameLength
    · rw [if_pos hmax, if_pos hmax]
    · rw [if_neg hmax] at h ⊢
      have hwhole : header.frameLength ≤ bytes.length := not_lt.1 fun hpart => h (if_pos hpart)
      rw [if_neg hmax, if_neg (not_lt.2 hwhole), if_neg, List.take_append_of_le_length hwhole]
      rw [List.length_append]
      omega

/-! ## All of a stream -/

/-- the messages in some bytes up to the first error, that error, and the bytes left -/
structure Taken where
  messages : List Message
  error : Option Error
  rest : List UInt8

/-- one message more, in front of the others -/
def Taken.cons (message : Message) (taken : Taken) : Taken := { taken with messages := message :: taken.messages }

/-- take all of some bytes, frame by frame -/
def takeAll (maxSize : Nat) (bytes : List UInt8) : Taken :=
  match _h : front maxSize bytes with
  | .incomplete => ⟨[], none, bytes⟩
  | .unframed e => ⟨[], some e, bytes⟩
  | .frame length (.ok message) => (takeAll maxSize (bytes.drop length)).cons message
  | .frame length (.error e) =>
    if e.isFatal then ⟨[], some e, bytes.drop length⟩ else takeAll maxSize (bytes.drop length)
termination_by bytes.length
decreasing_by
  all_goals
    have := front_frame_length _h
    simp only [List.length_drop, fixedHeaderLength] at *
    omega

section Equations

variable {length : Nat} {message : Message}

theorem takeAll_incomplete (h : front maxSize bytes = .incomplete) : takeAll maxSize bytes = ⟨[], none, bytes⟩ := by
  rw [takeAll]
  split <;> simp_all

theorem takeAll_unframed (h : front maxSize bytes = .unframed e) : takeAll maxSize bytes = ⟨[], some e, bytes⟩ := by
  rw [takeAll]
  split <;> simp_all

theorem takeAll_message (h : front maxSize bytes = .frame length (.ok message)) :
    takeAll maxSize bytes = (takeAll maxSize (bytes.drop length)).cons message := by
  rw [takeAll]
  split <;> simp_all

theorem takeAll_fatal (h : front maxSize bytes = .frame length (.error e)) (hfatal : e.isFatal = true) :
    takeAll maxSize bytes = ⟨[], some e, bytes.drop length⟩ := by
  rw [takeAll]
  split <;> simp_all

theorem takeAll_skipped (h : front maxSize bytes = .frame length (.error e)) (hfatal : e.isFatal = false) :
    takeAll maxSize bytes = takeAll maxSize (bytes.drop length) := by
  rw [takeAll]
  split <;> simp_all

end Equations

/-- no frame is complete in the bytes that are left without an error -/
theorem front_rest (h : (takeAll maxSize bytes).error = none) :
    front maxSize (takeAll maxSize bytes).rest = .incomplete := by
  fun_induction takeAll maxSize bytes with
  | case1 bytes hfront => exact hfront
  | case2 bytes e hfront => cases h
  | case3 bytes length message hfront ih => exact ih h
  | case4 bytes length e hfront hfatal => cases h
  | case5 bytes length e hfront hfatal ih => exact ih h

/-- go on with more bytes behind those that were left, unless there was an error -/
def Taken.goOn (maxSize : Nat) (taken : Taken) (more : List UInt8) : Taken :=
  match taken.error with
  | some _ => { taken with rest := taken.rest ++ more }
  | none =>
    let next := takeAll maxSize (taken.rest ++ more)
    { next with messages := taken.messages ++ next.messages }

theorem Taken.cons_goOn (message : Message) (taken : Taken) (more : List UInt8) :
    (taken.cons message).goOn maxSize more = (taken.goOn maxSize more).cons message := by
  unfold goOn Taken.cons
  cases taken.error <;> rfl

/-- **All of two stretches of a stream is all of the first, and then of what is left of it in front of the second.** -/
theorem takeAll_append (bytes more : List UInt8) :
    takeAll maxSize (bytes ++ more) = (takeAll maxSize bytes).goOn maxSize more := by
  fun_induction takeAll maxSize bytes with
  | case1 bytes hfront => simp [Taken.goOn]
  | case2 bytes e hfront =>
    have hmore := (front_append more (by simp [hfront])).trans hfront
    exact takeAll_unframed hmore
  | case3 bytes length message hfront ih =>
    have hmore := (front_append more (by simp [hfront])).trans hfront
    have hlen := (front_frame_length hfront).2
    rw [takeAll_message hmore, List.drop_append_of_le_length hlen, ih, Taken.cons_goOn]
  | case4 bytes length e hfront hfatal =>
    have hmore := (front_append more (by simp [hfront])).trans hfront
    have hlen := (front_frame_length hfront).2
    rw [takeAll_fatal hmore hfatal, List.drop_append_of_le_length hlen]
    rfl
  | case5 bytes length e hfront hfatal ih =>
    have hmore := (front_append more (by simp [hfront])).trans hfront
    have hlen := (front_frame_length hfront).2
    rw [takeAll_skipped hmore (by simpa using hfatal), List.drop_append_of_le_length hlen, ih]

/-! ## Taking from a buffer -/

/-- the first message in some bytes behind any number of frames that are none, and how many bytes it takes to get
there; the frame that breaks the stream counts as used, a broken header does not -/
def search (maxSize : Nat) (bytes : List UInt8) : Nat × Next :=
  match _h : front maxSize bytes with
  | .incomplete => (0, .nothing)
  | .unframed e => (0, .failed e)
  | .frame length (.ok message) => (length, .message message)
  | .frame length (.error e) =>
    if e.isFatal then (length, .failed e)
    else
      let (used, next) := search maxSize (bytes.drop length)
      (length + used, next)
termination_by bytes.length
decreasing_by
  have := front_frame_length _h
  simp only [List.length_drop, fixedHeaderLength] at *
  omega

section Equations

variable {length : Nat} {message : Message}

theorem search_incomplete (h : front maxSize bytes = .incomplete) : search maxSize bytes = (0, .nothing) := by
  rw [search]
  split <;> simp_all

theorem search_unframed (h : front maxSize bytes = .unframed e) : search maxSize bytes = (0, .failed e) := by
  rw [search]
  split <;> simp_all

theorem search_message (h : front maxSize bytes = .frame length (.ok message)) :
    search maxSize bytes = (length, .message message) := by
  rw [search]
  split <;> simp_all

theorem search_fatal (h : front maxSize bytes = .frame length (.error e)) (hfatal : e.isFatal = true) :
    search maxSize bytes = (length, .failed e) := by
  rw [search]
  split <;> simp_all

theorem search_skipped (h : front maxSize bytes = .frame length (.error e)) (hfatal : e.isFatal = false) :
    search maxSize bytes
      = (length + (search maxSize (bytes.drop length)).1, (search maxSize (bytes.drop length)).2) := by
  rw [search]
  split <;> simp_all

end Equations

/-- what a search finds is the next thing that there is to take, and it lies behind the bytes that the search used -/
theorem takeAll_search (maxSize : Nat) (bytes : List UInt8) :
    takeAll maxSize bytes = match (search maxSize bytes).2 with
      | .message message => (takeAll maxSize (bytes.drop (search maxSize bytes).1)).cons message
      | .nothing => ⟨[], none, bytes.drop (search maxSize bytes).1⟩
      | .failed e => ⟨[], some e, bytes.drop (search maxSize bytes).1⟩ := by
  fun_induction search maxSize bytes with
  | case1 bytes hfront => simpa using takeAll_incomplete hfront
  | case2 bytes e hfront => simpa using takeAll_unframed hfront
  | case3 bytes length message hfront => exact takeAll_message hfront
  | case4 bytes length e hfront hfatal => exact takeAll_fatal hfront hfatal
  | case5 bytes length e hfront hfatal used next hsearch ih =>
    rw [takeAll_skipped hfront (by simpa using hfatal), ih]
    simp only [hsearch, List.drop_drop]

/-- a message takes up bytes -/
theorem search_message_length {message : Message} (h : (search maxSize bytes).2 = .message message) :
    0 < (search maxSize bytes).1 ∧ (search maxSize bytes).1 ≤ bytes.length := by
  fun_induction search maxSize bytes with
  | case1 => cases h
  | case2 => cases h
  | case3 bytes length message hfront =>
    have := front_frame_length hfront
    simp only [fixedHeaderLength] at this ⊢
    omega
  | case4 => cases h
  | case5 bytes length e hfront hfatal used next hsearch ih =>
    have hlen := front_frame_length hfront
    have hused := ih (by rw [hsearch]; exact h)
    simp only [hsearch, List.length_drop, fixedHeaderLength] at hlen hused ⊢
    omega

/-- the bytes of a buffer that are not used yet, and whether it has failed; how many used ones it still has does not
matter. A buffer that waits for a frame of some length has seen this length in the fixed header at the front of the bytes -/
structure Holds (buffer : FrameBuffer) (maxSize : Nat) (bytes : List UInt8) (failure : Option (Option Error)) :
    Prop where
  maxSize : buffer.maxSize = maxSize
  pending : buffer.pending = bytes
  failure : buffer.failure = failure
  awaited : ∀ length, buffer.state = .frame length →
    fixedHeaderLength ≤ buffer.pending.length ∧ declared buffer.maxSize buffer.pending = .ok length

variable {buffer : FrameBuffer} {fault : Option (Option Error)} {kept : Option Error}

theorem holds_new (maxSize : Nat) : (new maxSize).Holds maxSize [] none := ⟨rfl, rfl, rfl, nofun⟩

theorem Holds.buffered (h : buffer.Holds maxSize bytes fault) : buffer.buffered = bytes.length := by
  rw [← h.pending, FrameBuffer.pending, List.length_drop, FrameBuffer.buffered]

theorem Holds.hasFailed (h : buffer.Holds maxSize bytes fault) : buffer.hasFailed = fault.isSome := by
  rw [FrameBuffer.hasFailed, h.failure]

/-- used bytes are let go, and all others stay -/
theorem pending_extend (buffer : FrameBuffer) (chunk : List UInt8) :
    (buffer.extend chunk).pending = buffer.pending ++ chunk := by
  unfold extend pending
  split_ifs with hall hhalf
  · simp [hall]
  · rfl
  · have hstart : buffer.start ≤ buffer.data.length := by omega
    exact List.drop_append_of_le_length hstart

theorem state_extend (buffer : FrameBuffer) (chunk : List UInt8) : (buffer.extend chunk).state = buffer.state := by
  unfold extend
  split_ifs <;> rfl

theorem maxSize_extend (buffer : FrameBuffer) (chunk : List UInt8) : (buffer.extend chunk).maxSize = buffer.maxSize := by
  unfold extend
  split_ifs <;> rfl

theorem Holds.extend (h : buffer.Holds maxSize bytes fault) (chunk : List UInt8) :
    (buffer.extend chunk).Holds maxSize (bytes ++ chunk) fault := by
  refine ⟨by rw [maxSize_extend, h.maxSize], by rw [pending_extend, h.pending], ?_, fun length hlength => ?_⟩
  · rw [FrameBuffer.failure, state_extend, ← FrameBuffer.failure, h.failure]
  · rw [state_extend] at hlength
    obtain ⟨hlong, hdeclared⟩ := h.awaited length hlength
    rw [maxSize_extend, pending_extend, declared_append hlong, List.length_append]
    exact ⟨Nat.le_add_right_of_le hlong, hdeclared⟩

theorem failure_eq_some {kept : Option Error} : buffer.failure = some kept ↔ buffer.state = .failed kept := by
  rw [failure]
  cases buffer.state <;> simp

/-- a buffer that fails keeps what it holds -/
theorem Holds.fail (h : buffer.Holds maxSize bytes fault) (kept : Option Error) :
    ({ buffer with state := .failed kept } : FrameBuffer).Holds maxSize bytes (some kept) :=
  ⟨h.maxSize, h.pending, rfl, nofun⟩

/-- a buffer that has failed reports the error that it has kept, if any, and that it is closed from then on -/
theorem next_failed (h : buffer.Holds maxSize bytes (some kept)) :
    ∃ after, buffer.next = (.failed (kept.getD .closed), after) ∧ after.Holds maxSize bytes (some none) := by
  refine ⟨{ buffer with state := .failed none }, ?_, h.fail none⟩
  have hstate := failure_eq_some.1 h.failure
  unfold next
  split <;> simp_all

/-- a frame that a buffer waits for lies at the front of its bytes as soon as these are enough -/
theorem Holds.front_awaited (h : buffer.Holds maxSize bytes fault) {length : Nat} {content : Except Error Message}
    (hstate : buffer.state = .frame length) (hwhole : ¬(!Wire.hasAtLeast length buffer.pending) = true)
    (hread : Message.unmarshal (buffer.pending.take length) = content) :
    front buffer.maxSize buffer.pending = .frame length content := by
  obtain ⟨hlong, hdeclared⟩ := h.awaited length hstate
  rw [front_declared hlong hdeclared, if_neg (by simpa [hasAtLeast_eq] using hwhole), hread]

/-- behind a frame a buffer waits for another fixed header -/
theorem Holds.use (h : buffer.Holds maxSize bytes none) (length : Nat) :
    ({ buffer with start := buffer.start + length, state := .header } : FrameBuffer).Holds maxSize (bytes.drop length)
      none := by
  refine ⟨h.maxSize, ?_, rfl, nofun⟩
  rw [← h.pending, FrameBuffer.pending, FrameBuffer.pending, List.drop_drop]

/-- a buffer that has not failed finds what a search in its bytes finds -/
theorem next_open (h : buffer.Holds maxSize bytes none) :
    ∃ after, buffer.next = ((search maxSize bytes).2, after) ∧
      after.Holds maxSize (bytes.drop (search maxSize bytes).1) (match (search maxSize bytes).2 with
        | .failed _ => some none
        | _ => none) := by
  obtain rfl := h.maxSize
  obtain rfl := h.pending
  fun_induction next buffer with
  | case1 buffer error hstate => cases h.failure.symm.trans (failure_eq_some.2 hstate)
  | case2 buffer hstate hshort =>
    rw [search_incomplete (front_short (by simpa [hasAtLeast_eq] using hshort))]
    exact ⟨buffer, rfl, h⟩
  | case3 buffer hstate hlong e hdeclared =>
    rw [search_unframed (front_undeclared (by simpa [hasAtLeast_eq] using hlong) hdeclared)]
    exact ⟨_, rfl, h.fail none⟩
  | case4 buffer hstate hlong length hdeclared ih =>
    have hlong' : fixedHeaderLength ≤ buffer.pending.length := by simpa [hasAtLeast_eq] using hlong
    refine ih ⟨rfl, rfl, rfl, fun _ hlength => ?_⟩
    cases hlength
    exact ⟨hlong', hdeclared⟩
  | case5 buffer length hstate hpart =>
    obtain ⟨hlong, hdeclared⟩ := h.awaited length hstate
    have hfront := front_declared hlong hdeclared
    rw [if_pos (by simpa [hasAtLeast_eq] using hpart)] at hfront
    rw [search_incomplete hfront]
    exact ⟨buffer, rfl, h⟩
  | case6 buffer length hstate hwhole rest message hread =>
    rw [search_message (h.front_awaited hstate hwhole hread)]
    exact ⟨rest, rfl, h.use length⟩
  | case7 buffer length hstate hwhole rest e hread hfatal =>
    rw [search_fatal (h.front_awaited hstate hwhole hread) hfatal]
    exact ⟨_, rfl, (h.use length).fail none⟩
  | case8 buffer length hstate hwhole rest e hread hfatal ih =>
    have hrest : rest.Holds buffer.maxSize (buffer.pending.drop length) none := h.use length
    obtain ⟨after, hnext, hafter⟩ := ih ⟨rfl, rfl, rfl, nofun⟩
    rw [hrest.maxSize, hrest.pending] at hnext hafter
    rw [search_skipped (h.front_awaited hstate hwhole hread) (by simpa using hfatal)]
    rw [List.drop_drop] at hafter
    exact ⟨after, hnext, hafter⟩

/-- a buffer that has not failed is drained of all that its bytes hold -/
theorem drain_open {count : Nat} (h : buffer.Holds maxSize bytes none) (hcount : bytes.length < count) :
    ∃ after, drain count buffer = ((takeAll maxSize bytes).messages, (takeAll maxSize bytes).error, after) ∧
      after.Holds maxSize (takeAll maxSize bytes).rest ((takeAll maxSize bytes).error.map fun _ => none) := by
  induction count generalizing buffer bytes with
  | zero => omega
  | succ count ih =>
    obtain ⟨after, hnext, hafter⟩ := next_open h
    rw [drain, hnext, takeAll_search]
    cases hfound : (search maxSize bytes).2 with
    | message message =>
      obtain ⟨hpos, hlen⟩ := search_message_length hfound
      rw [hfound] at hafter
      obtain ⟨last, hdrain, hlast⟩ := ih hafter (by rw [List.length_drop]; omega)
      exact ⟨last, by simp only [hdrain, Taken.cons], hlast⟩
    | nothing =>
      rw [hfound] at hafter
      exact ⟨after, rfl, hafter⟩
    | failed e =>
      rw [hfound] at hafter
      exact ⟨after, rfl, hafter⟩

/-- a chunk is handed in, and all that can be taken out then is -/
theorem drain_extend (h : buffer.Holds maxSize bytes none) (chunk : List UInt8) :
    ∃ after, (buffer.extend chunk).drain ((buffer.extend chunk).buffered + 1)
        = ((takeAll maxSize (bytes ++ chunk)).messages, (takeAll maxSize (bytes ++ chunk)).error, after) ∧
      after.Holds maxSize (takeAll maxSize (bytes ++ chunk)).rest
        ((takeAll maxSize (bytes ++ chunk)).error.map fun _ => none) := by
  have hextend := h.extend chunk
  apply drain_open hextend
  rw [hextend.buffered]
  exact Nat.lt_succ_self _

/-- what a push that takes this out of the stream answers -/
def Taken.answer (taken : Taken) : Except Error (List Message) :=
  match taken.messages, taken.error with
  | [], some e => .error e
  | messages, _ => .ok messages

/-- what a push that takes this out of the stream leaves to be reported -/
def Taken.failure (taken : Taken) : Option (Option Error) :=
  match taken.messages, taken.error with
  | _, none => none
  | [], some _ => some none
  | _, some e => some (some e)

/-- a push takes all that the bytes hold together with those that were there; an error behind messages is kept -/
theorem push_open (h : buffer.Holds maxSize bytes none) (chunk : List UInt8) :
    ∃ after, buffer.push chunk = ((takeAll maxSize (bytes ++ chunk)).answer, after) ∧
      after.Holds maxSize (takeAll maxSize (bytes ++ chunk)).rest (takeAll maxSize (bytes ++ chunk)).failure := by
  obtain ⟨after, hdrain, hafter⟩ := drain_extend h chunk
  rcases htaken : takeAll maxSize (bytes ++ chunk) with ⟨messages, error, rest⟩
  rw [htaken] at hdrain hafter
  simp only [push, hdrain]
  obtain _ | e := error
  · exact ⟨after, by cases messages <;> rfl, by cases messages <;> exact hafter⟩
  · obtain _ | ⟨message, messages⟩ := messages
    · exact ⟨after, rfl, hafter⟩
    · exact ⟨_, rfl, hafter.fail (some e)⟩

theorem push_failed (h : buffer.Holds maxSize bytes (some kept)) (chunk : List UInt8) :
    ∃ after, buffer.push chunk = (.error (kept.getD .closed), after) ∧
      after.Holds maxSize (bytes ++ chunk) (some none) := by
  obtain ⟨after, hnext, hafter⟩ := next_failed (h.extend chunk)
  refine ⟨after, ?_, hafter⟩
  simp only [push, drain, hnext]

/-! ## Calls one after another -/

/-- what a user of a buffer asks of it -/
inductive Call where
  | push (chunk : List UInt8)
  | next

/-- what a call returns -/
abbrev Result := Except Error (List Message)

/-- carry out a call; the next message is one of at most one -/
def call (buffer : FrameBuffer) : Call → Result × FrameBuffer
  | .push chunk => buffer.push chunk
  | .next =>
    match buffer.next with
    | (.message message, buffer) => (.ok [message], buffer)
    | (.nothing, buffer) => (.ok [], buffer)
    | (.failed e, buffer) => (.error e, buffer)

/-- carry out calls in order, whatever the ones before return -/
def callAll (buffer : FrameBuffer) : List Call → List Result × FrameBuffer
  | [] => ([], buffer)
  | c :: calls =>
    let (result, buffer) := buffer.call c
    let (results, buffer) := buffer.callAll calls
    (result :: results, buffer)

theorem callAll_append (buffer : FrameBuffer) (calls more : List Call) :
    buffer.callAll (calls ++ more) = ((buffer.callAll calls).1 ++ ((buffer.callAll calls).2.callAll more).1,
      ((buffer.callAll calls).2.callAll more).2) := by
  induction calls generalizing buffer with
  | nil => rfl
  | cons c calls ih => simp only [List.cons_append, callAll, ih]

theorem call_failed (h : buffer.Holds maxSize bytes (some kept)) (c : Call) :
    ∃ after more, buffer.call c = (.error (kept.getD .closed), after) ∧ after.Holds maxSize more (some none) := by
  cases c with
  | push chunk =>
    obtain ⟨after, hpush, hafter⟩ := push_failed h chunk
    exact ⟨after, _, hpush, hafter⟩
  | next =>
    obtain ⟨after, hnext, hafter⟩ := next_failed h
    exact ⟨after, bytes, by rw [call, hnext], hafter⟩

/-- **A failure is final**: once it is reported, every call returns that the stream is closed. -/
theorem callAll_failed (h : buffer.Holds maxSize bytes (some none)) (calls : List Call) :
    (buffer.callAll calls).1 = List.replicate calls.length (.error .closed) := by
  induction calls generalizing buffer bytes with
  | nil => rfl
  | cons c calls ih =>
    obtain ⟨after, more, hcall, hafter⟩ := call_failed h c
    simp only [callAll, hcall, ih hafter]
    rfl

/-- what the results of pushes say about a stream, and what they leave to be reported -/
inductive Reported (taken : Taken) : List Result → Option (Option Error) → Prop where
  /-- there is no error -/
  | sound (lists : List (List Message)) (messages : lists.flatten = taken.messages) (error : taken.error = none) :
      Reported taken (lists.map .ok) none
  /-- the error is kept for the next call -/
  | kept (lists : List (List Message)) (e : Error) (messages : lists.flatten = taken.messages)
      (error : taken.error = some e) : Reported taken (lists.map .ok) (some (some e))
  /-- the error has been returned, once -/
  | told (lists : List (List Message)) (e : Error) (later : Nat) (messages : lists.flatten = taken.messages)
      (error : taken.error = some e) :
      Reported taken (lists.map .ok ++ .error e :: List.replicate later (.error .closed)) (some none)

theorem Taken.goOn_sound {taken : Taken} (h : taken.error = none) (more : List UInt8) :
    taken.goOn maxSize more = { takeAll maxSize (taken.rest ++ more) with
      messages := taken.messages ++ (takeAll maxSize (taken.rest ++ more)).messages } := by
  rw [goOn, h]

theorem Taken.goOn_broken {taken : Taken} (h : taken.error = some e) (more : List UInt8) :
    taken.goOn maxSize more = { taken with rest := taken.rest ++ more } := by
  rw [goOn, h]

/-- lists without an error in front of the answer to one push more -/
theorem reported_answer {lists : List (List Message)} {before : List Message} (next : Taken)
    (h : lists.flatten = before) :
    Reported { next with messages := before ++ next.messages } (lists.map .ok ++ [next.answer]) next.failure := by
  obtain ⟨messages, error, rest⟩ := next
  cases error with
  | none =>
    have hsound : Reported ⟨before ++ messages, none, rest⟩ ((lists ++ [messages]).map .ok) none :=
      .sound (lists ++ [messages]) (by simp [h]) rfl
    rw [List.map_append] at hsound
    cases messages <;> exact hsound
  | some e =>
    cases messages with
    | nil => exact .told lists e 0 (by simp [h]) rfl
    | cons message messages =>
      have hkept : Reported ⟨before ++ message :: messages, some e, rest⟩ ((lists ++ [message :: messages]).map .ok)
          (some (some e)) := .kept (lists ++ [message :: messages]) e (by simp [h]) rfl
      rw [List.map_append] at hkept
      exact hkept

/-- one push more says what it takes out behind the bytes that were left -/
theorem Reported.push {taken : Taken} {results : List Result} (hr : Reported taken results fault)
    (h : buffer.Holds maxSize taken.rest fault) (chunk : List UInt8) :
    (buffer.push chunk).2.Holds maxSize (taken.goOn maxSize chunk).rest (buffer.push chunk).2.failure ∧
      Reported (taken.goOn maxSize chunk) (results ++ [(buffer.push chunk).1]) (buffer.push chunk).2.failure := by
  cases hr with
  | sound lists messages error =>
    obtain ⟨after, hpush, hafter⟩ := push_open h chunk
    rw [hpush, hafter.failure, Taken.goOn_sound error]
    exact ⟨hafter, reported_answer _ messages⟩
  | kept lists e messages error =>
    obtain ⟨after, hpush, hafter⟩ := push_failed h chunk
    rw [hpush, hafter.failure, Taken.goOn_broken error]
    exact ⟨hafter, .told lists e 0 messages error⟩
  | told lists e later messages error =>
    obtain ⟨after, hpush, hafter⟩ := push_failed h chunk
    rw [hpush, hafter.failure, Taken.goOn_broken error]
    refine ⟨hafter, ?_⟩
    have hnext : Reported { taken with rest := taken.rest ++ chunk }
        (lists.map .ok ++ .error e :: List.replicate (later + 1) (.error .closed)) (some none) :=
      .told lists e (later + 1) messages error
    rwa [List.replicate_succ', ← List.cons_append, ← List.append_assoc] at hnext

/-- the results of pushing chunks in order into a new buffer, and the buffer then -/
def pushAll (maxSize : Nat) (chunks : List (List UInt8)) : List Result × FrameBuffer :=
  (new maxSize).callAll (chunks.map .push)

theorem pushAll_append (maxSize : Nat) (chunks : List (List UInt8)) (chunk : List UInt8) :
    pushAll maxSize (chunks ++ [chunk]) = ((pushAll maxSize chunks).1 ++ [((pushAll maxSize chunks).2.push chunk).1],
      ((pushAll maxSize chunks).2.push chunk).2) := by
  rw [pushAll, List.map_append, callAll_append]
  rfl

/-- **Pushes report what the stream holds, however it is cut**, and leave the bytes behind that. -/
theorem pushAll_reported (maxSize : Nat) (chunks : List (List UInt8)) :
    (pushAll maxSize chunks).2.Holds maxSize (takeAll maxSize chunks.flatten).rest (pushAll maxSize chunks).2.failure ∧
      Reported (takeAll maxSize chunks.flatten) (pushAll maxSize chunks).1 (pushAll maxSize chunks).2.failure := by
  induction chunks using List.reverseRecOn with
  | nil =>
    have hnothing : takeAll maxSize [] = ⟨[], none, []⟩ := takeAll_incomplete (front_short (by decide))
    rw [List.flatten_nil, hnothing]
    exact ⟨holds_new maxSize, .sound [] rfl rfl⟩
  | append_singleton chunks chunk ih =>
    rw [List.flatten_append, List.flatten_singleton, takeAll_append, pushAll_append]
    exact ih.2.push ih.1 chunk

/-! ## Cuts do not show -/

/-- what can be seen of a buffer from outside once a stream has been pushed -/
structure Outcome where
  messages : List Message
  /-- the first error -/
  error : Option Error
  failed : Bool
  buffered : Nat

def delivered (results : List Result) : List Message :=
  results.flatMap fun
    | .ok messages => messages
    | .error _ => []

def firstError? (results : List Result) : Option Error :=
  results.findSome? fun
    | .ok _ => none
    | .error e => some e

/-- push chunks in order into a new buffer, and an empty one that brings out an error that was kept -/
def outcome (maxSize : Nat) (chunks : List (List UInt8)) : Outcome :=
  let (results, buffer) := pushAll maxSize (chunks ++ [[]])
  ⟨delivered results, firstError? results, buffer.hasFailed, buffer.buffered⟩

theorem delivered_ok (lists : List (List Message)) : delivered (lists.map .ok) = lists.flatten := by
  simp [delivered, List.flatMap_map]

theorem firstError?_ok (lists : List (List Message)) : firstError? (lists.map .ok) = none := by
  simp [firstError?, List.findSome?_map]

/-- results that have brought out the error, if there is one, show all that was taken -/
theorem Reported.seen {taken : Taken} {results : List Result} (hr : Reported taken results fault)
    (h : ∀ e, fault ≠ some (some e)) :
    delivered results = taken.messages ∧ firstError? results = taken.error ∧ fault.isSome = taken.error.isSome := by
  cases hr with
  | sound lists messages error =>
    rw [delivered_ok, firstError?_ok, messages, error]
    exact ⟨rfl, rfl, rfl⟩
  | kept lists e messages error => exact absurd rfl (h e)
  | told lists e later messages error =>
    have hlater : delivered (.error e :: List.replicate later (.error .closed)) = [] := by
      simp [delivered, List.flatMap_replicate]
    rw [delivered, List.flatMap_append, ← delivered, ← delivered, hlater, delivered_ok, messages, List.append_nil,
      firstError?, List.findSome?_append, ← firstError?, firstError?_ok, error]
    exact ⟨rfl, rfl, rfl⟩

/-- an empty push keeps no error -/
theorem failure_push_nil (h : buffer.Holds maxSize bytes fault)
    (hbytes : fault = none → front maxSize bytes = .incomplete) (e : Error) :
    (buffer.push []).2.failure ≠ some (some e) := by
  cases fault with
  | none =>
    obtain ⟨after, hpush, hafter⟩ := push_open h []
    rw [List.append_nil, takeAll_incomplete (hbytes rfl)] at hafter
    rw [hpush, hafter.failure]
    exact nofun
  | some kept =>
    obtain ⟨after, hpush, hafter⟩ := push_failed h []
    rw [hpush, hafter.failure]
    exact nofun

theorem Reported.error_eq_none {taken : Taken} {results : List Result} (hr : Reported taken results none) :
    taken.error = none := by
  cases hr with
  | sound lists messages error => exact error

/-- an empty chunk behind the others brings out an error that was kept, and else changes nothing -/
theorem pushAll_flushed (maxSize : Nat) (chunks : List (List UInt8)) :
    ∃ fault, (pushAll maxSize (chunks ++ [[]])).2.Holds maxSize (takeAll maxSize chunks.flatten).rest fault ∧
      Reported (takeAll maxSize chunks.flatten) (pushAll maxSize (chunks ++ [[]])).1 fault ∧
      ∀ e, fault ≠ some (some e) := by
  obtain ⟨hbefore, hreported⟩ := pushAll_reported maxSize chunks
  have hkept : ∀ e, (pushAll maxSize (chunks ++ [[]])).2.failure ≠ some (some e) := by
    rw [pushAll_append]
    refine failure_push_nil hbefore fun hnone => front_rest ?_
    rw [hnone] at hreported
    exact hreported.error_eq_none
  obtain ⟨hafter, hall⟩ := pushAll_reported maxSize (chunks ++ [[]])
  have hstream : (chunks ++ [[]]).flatten = chunks.flatten := by simp
  rw [hstream] at hafter hall
  exact ⟨_, hafter, hall, hkept⟩

/-- what is seen of a buffer is what the whole stream holds -/
theorem outcome_eq (maxSize : Nat) (chunks : List (List UInt8)) :
    outcome maxSize chunks = ⟨(takeAll maxSize chunks.flatten).messages, (takeAll maxSize chunks.flatten).error,
      (takeAll maxSize chunks.flatten).error.isSome, (takeAll maxSize chunks.flatten).rest.length⟩ := by
  obtain ⟨fault, hafter, hall, hkept⟩ := pushAll_flushed maxSize chunks
  obtain ⟨hmessages, herror, hfailed⟩ := hall.seen hkept
  simp only [outcome, hmessages, herror, hafter.hasFailed, hfailed, hafter.buffered]

/-- **Where a stream is cut does not show**: any two ways to push it give the same messages, the same first error, and
leave as many bytes in a buffer that has failed or not, just as when it comes in one piece. -/
theorem outcome_eq_of_flatten_eq (maxSize : Nat) {stream : List UInt8} {chunks chunks' : List (List UInt8)}
    (h : chunks.flatten = stream) (h' : chunks'.flatten = stream) :
    outcome maxSize chunks = outcome maxSize chunks' ∧ outcome maxSize chunks = outcome maxSize [stream] := by
  have hwhole : [stream].flatten = stream := List.flatten_singleton
  rw [outcome_eq, outcome_eq, outcome_eq, h, h', hwhole]
  exact ⟨rfl, rfl⟩

/-- a byte order that there is none of, cut within the fixed header and with an empty chunk, or byte by byte -/
theorem outcome_eq_of_flatten_eq_marker :
    let stream : List UInt8 := [120, 1, 0, 1, 0, 0, 0, 0, 0, 0, 0, 1, 0, 0, 0, 0, 9]
    [[120, 1], [], [0, 1, 0, 0, 0, 0, 0, 0, 0, 1, 0, 0, 0, 0, 9]].flatten = stream ∧
      (stream.map fun byte => [byte]).flatten = stream ∧
      outcome 64 [[120, 1], [], [0, 1, 0, 0, 0, 0, 0, 0, 0, 1, 0, 0, 0, 0, 9]]
        = outcome 64 (stream.map fun byte => [byte]) ∧
      outcome 64 [[120, 1], [], [0, 1, 0, 0, 0, 0, 0, 0, 0, 1, 0, 0, 0, 0, 9]] = outcome 64 [stream] := by
  intro stream
  have h : [[120, 1], [], [0, 1, 0, 0, 0, 0, 0, 0, 0, 1, 0, 0, 0, 0, 9]].flatten = stream := rfl
  have h' : (stream.map fun byte => [byte]).flatten = stream := rfl
  exact ⟨h, h', outcome_eq_of_flatten_eq 64 h h'⟩

end MessageBus.FrameBuffer
