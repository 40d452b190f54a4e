/-
How far decoders get.

A reader only ever goes on: whether a decoder succeeds or fails, it leaves the reader behind some of the bytes that were
there, and never in front of where it was (`GoesOn`). Decoders one after another go on when each of them does, and a value
of a type that a signature can name takes it at least one byte further (`Progresses`).

The elements of an array are read in a loop that counts bytes and knows no number of elements. `Loops` is that loop with
nothing but the stop to end it. Because every turn gets further, the loop ends after at most as many turns as there are
bytes, so that the bound on its turns never cuts it short (`untilPosition_loops`), and an array that is read ends just
where its length says (`decode_progress`).
-/
import Mathlib
import MessageBus.Proofs.Wire.RoundTrip
import MessageBus.Proofs.Wire.Stepwise

namespace MessageBus.Wire

/-! ## Readers that go on -/

/-- the second reader is the first one after some more bytes -/
structure Reader.Onward (r last : Reader) : Prop where
  order : last.order = r.order
  position : r.position ≤ last.position
  /-- what is behind and what is ahead of the position come to the same number of bytes -/
  total : last.position + last.remaining = r.position + r.remaining
  rest : last.rest <:+ r.rest

theorem Reader.Onward.refl (r : Reader) : r.Onward r := ⟨rfl, le_rfl, rfl, List.suffix_refl _⟩

theorem Reader.Onward.trans {r next last : Reader} (h : r.Onward next) (h' : next.Onward last) : r.Onward last :=
  ⟨h'.order.trans h.order, h.position.trans h'.position, h'.total.trans h.total, h'.rest.trans h.rest⟩

/-- where a reader is tells what is left for it -/
theorem Reader.Onward.eq_drop {r last : Reader} {n : Nat} (h : r.Onward last) (hn : last.position = r.position + n) :
    last = ⟨r.order, r.position + n, r.rest.drop n⟩ := by
  obtain ⟨used, hused⟩ := h.rest
  have hlength : used.length = n := by
    have htotal := h.total
    rw [Reader.remaining, Reader.remaining, ← hused, List.length_append, hn] at htotal
    omega
  obtain ⟨order, position, rest⟩ := last
  obtain rfl : order = r.order := h.order
  obtain rfl : position = r.position + n := hn
  rw [← hused, List.drop_left' hlength]

variable {α β : Type} {d step : Decoder α} {f : α → Decoder β}

/-- a decoder only ever goes on, whether it succeeds or fails -/
def GoesOn (d : Decoder α) : Prop := ∀ r : Reader, r.Onward (d.run r).2

/-- a decoder that succeeds has gone on by a byte or more -/
def Progresses (d : Decoder α) : Prop := ∀ (r : Reader) a next, d.run r = (.ok a, next) → r.position < next.position

theorem goesOn_pure (a : α) : GoesOn (pure a) := fun r => .refl r

theorem goesOn_throw (e : Error) : GoesOn (throw e : Decoder α) := fun r => .refl r

theorem goesOn_lift (x : Except Error α) : GoesOn (liftM x) := fun r => .refl r

theorem GoesOn.of_run (h : GoesOn d) {r next : Reader} {result : Except Error α} (hrun : d.run r = (result, next)) :
    r.Onward next := by
  have hnext := h r
  rwa [hrun] at hnext

theorem GoesOn.bind (hd : GoesOn d) (hf : ∀ a, GoesOn (f a)) : GoesOn (d >>= f) := by
  intro r
  rw [run_bind]
  rcases hfirst : d.run r with ⟨e | a, next⟩
  · exact hd.of_run hfirst
  · exact (hd.of_run hfirst).trans (hf a next)

theorem goesOn_get {f : Reader → Decoder α} (h : ∀ r, GoesOn (f r)) : GoesOn (get >>= f) := fun r => h r r

/-- the first step gets further, and the second does not go back -/
theorem Progresses.bind (hd : Progresses d) (hf : ∀ a, GoesOn (f a)) : Progresses (d >>= f) := by
  intro r b last hrun
  obtain ⟨a, next, hfirst, hsecond⟩ := run_bind_eq_ok.1 hrun
  exact lt_of_lt_of_le (hd r a next hfirst) ((hf a).of_run hsecond).position

/-- the first step does not go back, and the second gets further -/
theorem GoesOn.bind_progresses (hd : GoesOn d) (hf : ∀ a, Progresses (f a)) : Progresses (d >>= f) := by
  intro r b last hrun
  obtain ⟨a, next, hfirst, hsecond⟩ := run_bind_eq_ok.1 hrun
  exact lt_of_le_of_lt (hd.of_run hfirst).position (hf a next b last hsecond)

/-! ## Steps -/

theorem goesOn_read (n : Nat) : GoesOn (Decoder.read n) := by
  intro r
  rw [run_read]
  split_ifs with hlen
  · rw [hasAtLeast_iff] at hlen
    refine ⟨rfl, Nat.le_add_right _ _, ?_, List.drop_suffix n r.rest⟩
    simp only [Reader.remaining, List.length_drop]
    omega
  · exact .refl r

theorem goesOn_align (alignment : Nat) : GoesOn (Decoder.align alignment) := by
  apply goesOn_get
  intro r
  exact (goesOn_read _).bind fun _ => goesOn_pure ()

theorem goesOn_word (size : Nat) : GoesOn (Decoder.word size) := by
  apply (goesOn_align size).bind
  intro _
  apply goesOn_get
  intro r
  exact (goesOn_read size).bind fun _ => goesOn_pure _

theorem goesOn_terminated (length : Nat) : GoesOn (Decoder.terminated length) := by
  rw [terminated_eq]
  apply (goesOn_read length).bind
  intro bytes
  apply goesOn_get
  intro r
  exact (goesOn_read 1).bind fun nul => goesOn_lift _

/-! ## The loop of an array -/

/-- the loop over the elements of an array, with nothing but the stop to end it: the turns that it takes from a reader on,
and what comes of it -/
inductive Loops (step : Decoder α) (stop : Nat) : (turns : Nat) → Reader → Except Error (List α) × Reader → Prop where
  | done {r : Reader} (h : stop ≤ r.position) : Loops step stop 0 r (.ok [], r)
  | failed {r next : Reader} {e : Error} (h : r.position < stop) (hstep : step.run r = (.error e, next)) :
      Loops step stop 1 r (.error e, next)
  | overrun {r next : Reader} {item : α} (h : r.position < stop) (hstep : step.run r = (.ok item, next))
      (hover : stop < next.position) : Loops step stop 1 r (.error (.arrayOverrun next.position stop), next)
  | turn {r next last : Reader} {item : α} {turns : Nat} {result : Except Error (List α)} (h : r.position < stop)
      (hstep : step.run r = (.ok item, next)) (hle : next.position ≤ stop)
      (hrest : Loops step stop turns next (result, last)) :
      Loops step stop (turns + 1) r (result.map (item :: ·), last)

/-- **A loop whose turns get further ends by itself**, after at most as many turns as there are bytes up to the stop. -/
theorem untilPosition_loops (hstep : Progresses step) {stop steps : Nat} {r : Reader} (hle : r.position ≤ stop)
    (hsteps : stop ≤ r.position + steps) :
    ∃ turns, r.position + turns ≤ stop ∧ Loops step stop turns r ((Decoder.untilPosition stop step steps).run r) := by
  induction steps generalizing r with
  | zero =>
    rw [Decoder.untilPosition, run_get, if_neg (by omega)]
    exact ⟨0, hle, .done hsteps⟩
  | succ steps ih =>
    rw [run_untilPosition_eq]
    split_ifs with hlt
    · rcases hone : step.run r with ⟨e | item, next⟩
      · exact ⟨1, hlt, .failed hlt hone⟩
      · dsimp only
        split_ifs with hover
        · exact ⟨1, hlt, .overrun hlt hone hover⟩
        · -- the turn has got further, so that one turn less is enough for what is left
          have hfurther : r.position < next.position := hstep r item next hone
          obtain ⟨turns, hturns, hrest⟩ := ih (not_lt.1 hover) (by omega)
          exact ⟨turns + 1, by omega, .turn hlt hone (not_lt.1 hover) hrest⟩
    · exact ⟨0, hle, .done (not_lt.1 hlt)⟩

/-- a loop that succeeds reaches the stop, with one item for each turn -/
theorem Loops.reached {stop turns : Nat} {r last : Reader} {items : List α}
    (h : Loops step stop turns r (.ok items, last)) (hle : r.position ≤ stop) :
    last.position = stop ∧ items.length = turns := by
  generalize houtcome : (Except.ok items, last) = outcome at h
  induction h generalizing items last with
  | done hstop =>
    cases houtcome
    exact ⟨le_antisymm hle hstop, rfl⟩
  | failed => cases houtcome
  | overrun => cases houtcome
  | @turn r next last item turns result _ _ hnext _ ih =>
    obtain ⟨hresult, rfl⟩ := Prod.mk.inj houtcome
    rcases result with e | rest
    · cases hresult
    · cases hresult
      obtain ⟨hlast, hlength⟩ := ih hnext rfl
      exact ⟨hlast, congrArg (· + 1) hlength⟩

theorem goesOn_untilPosition (h : GoesOn step) (stop steps : Nat) : GoesOn (Decoder.untilPosition stop step steps) := by
  induction steps with
  | zero =>
    apply goesOn_get
    intro r
    split_ifs
    · exact goesOn_throw _
    · exact goesOn_pure _
  | succ steps ih =>
    intro r
    rw [run_untilPosition_eq]
    split_ifs
    · rcases hone : step.run r with ⟨e | item, next⟩
      · exact h.of_run hone
      · dsimp only
        split_ifs
        · exact h.of_run hone
        · exact (h.of_run hone).trans (ih next)
    · exact .refl r

theorem Loops.onward (hgoes : GoesOn step) {stop turns : Nat} {r : Reader} {outcome : Except Error (List α) × Reader}
    (h : Loops step stop turns r outcome) : r.Onward outcome.2 := by
  induction h with
  | done => exact .refl _
  | failed _ hstep => exact hgoes.of_run hstep
  | overrun _ hstep => exact hgoes.of_run hstep
  | turn _ hstep _ _ ih => exact (hgoes.of_run hstep).trans ih

/-! ## Arrays -/

theorem goesOn_readLength (alignment : Nat) : GoesOn (readLength alignment) := by
  apply (goesOn_word 4).bind
  intro length
  split_ifs
  · exact goesOn_throw _
  · exact (goesOn_align alignment).bind fun _ => goesOn_pure length

theorem goesOn_measured (h : GoesOn step) (alignment : Nat) (collect : List α → Value) :
    GoesOn (readMeasured alignment step collect) := by
  rw [readMeasured_eq]
  apply (goesOn_readLength alignment).bind
  intro length
  apply goesOn_get
  intro r
  split_ifs
  · exact goesOn_throw _
  · exact (goesOn_untilPosition h _ length).bind fun _ => goesOn_pure _

/-- the run of an array: there is no length that is allowed, or there are fewer bytes than it says, or the loop over the
elements is run, and takes no more turns than it has bytes -/
inductive ArrayRun (alignment : Nat) (step : Decoder α) (collect : List α → Value) (r : Reader) :
    Except Error Value × Reader → Prop where
  | unmeasured {e : Error} {last : Reader} (h : (readLength alignment).run r = (.error e, last)) :
      ArrayRun alignment step collect r (.error e, last)
  | short {length : Nat} {start : Reader} (h : (readLength alignment).run r = (.ok length, start))
      (hfew : start.remaining < length) : ArrayRun alignment step collect r (.error (start.shortage length), start)
  | looped {length turns : Nat} {start last : Reader} {items : Except Error (List α)}
      (h : (readLength alignment).run r = (.ok length, start)) (henough : length ≤ start.remaining) (hturns : turns ≤ length)
      (hloop : Loops step (start.position + length) turns start (items, last)) :
      ArrayRun alignment step collect r (items.map collect, last)

/-- an array whose elements are read by a step that gets further is read by the loop -/
theorem arrayRun_readMeasured (hstep : Progresses step) (alignment : Nat) (collect : List α → Value) (r : Reader) :
    ArrayRun alignment step collect r ((readMeasured alignment step collect).run r) := by
  rw [readMeasured_eq, run_bind]
  rcases hlength : (readLength alignment).run r with ⟨e | length, start⟩
  · exact .unmeasured hlength
  · dsimp only
    rw [readItems, run_get]
    split_ifs with hfew
    · rw [Bool.not_eq_true', Bool.eq_false_iff, ne_eq, hasAtLeast_iff, not_le] at hfew
      exact .short hlength hfew
    · rw [Bool.not_eq_true', Bool.not_eq_false, hasAtLeast_iff] at hfew
      obtain ⟨turns, hturns, hloop⟩ := untilPosition_loops hstep (Nat.le_add_right start.position length) le_rfl
      rw [run_bind]
      rcases hitems : (Decoder.untilPosition (start.position + length) step length).run start with ⟨e | items, last⟩
      · rw [hitems] at hloop
        exact .looped hlength hfew (Nat.le_of_add_le_add_left hturns) hloop
      · rw [hitems] at hloop
        exact .looped hlength hfew (Nat.le_of_add_le_add_left hturns) hloop

/-- an array that is read ends just where its length says -/
theorem ArrayRun.stop (hgoes : GoesOn step) {alignment : Nat} {collect : List α → Value} {r last : Reader} {value : Value}
    (h : ArrayRun alignment step collect r (.ok value, last)) :
    ∃ length start, (readLength alignment).run r = (.ok length, start) ∧ length ≤ start.remaining ∧
      last = ⟨start.order, start.position + length, start.rest.drop length⟩ := by
  generalize houtcome : (Except.ok value, last) = outcome at h
  rcases h with ⟨h⟩ | ⟨h, -⟩ | @⟨length, turns, start, next, items, h, henough, -, hloop⟩
  · cases houtcome
  · cases houtcome
  · obtain ⟨hvalue, rfl⟩ := Prod.mk.inj houtcome
    rcases items with e | items
    · cases hvalue
    · have hlast : last.position = start.position + length := (hloop.reached (Nat.le_add_right _ _)).1
      exact ⟨length, start, h, henough, (hloop.onward hgoes).eq_drop hlast⟩

/-! ## Values -/

theorem stepwise_goesOn : Decoder.Stepwise GoesOn where
  pure := goesOn_pure
  throw _ := goesOn_throw _
  lift _ := goesOn_lift _
  bind := .bind
  align _ := goesOn_align _
  word _ := goesOn_word _
  terminated := goesOn_terminated
  measured _ _ hstep collect := goesOn_measured hstep _ collect

/-- **Reading a value goes on**, at any depth, and whether it succeeds or fails. -/
theorem decodeWithin_goesOn (levels : Nat) (type : Ty) : GoesOn (decodeWithin levels type) :=
  stepwise_goesOn.decodeWithin levels type

theorem shaped_of_parseSingle {text : String} {type : Ty} (h : Ty.parseSingle text = .ok type) : type.Shaped :=
  shaped_of_mem (Ty.parseSingle_eq_ok_iff.1 h) type (List.mem_singleton_self type)

/-- one entry of a dict -/
def decodeEntry (levels : Nat) (key value : Ty) : Decoder (Value × Value) := do
  Decoder.align 8
  let key ← decodeWithin levels key
  return (key, ← decodeWithin levels value)

/-- the run of an array of some type of elements, which may be the entries of a dict -/
def ElementsRun (levels : Nat) : Ty → Reader → Except Error Value × Reader → Prop
  | .dictEntry key value => ArrayRun 8 (decodeEntry levels key value) .dict
  | element => ArrayRun element.alignment (decodeWithin levels element) .array

theorem elementsRun_of_shaped {levels : Nat} {element : Ty} (h : element.Shaped) :
    ElementsRun levels element = ArrayRun element.alignment (decodeWithin levels element) .array := by
  cases h <;> rfl

/-- no value of a type that a signature can name is empty -/
theorem decodeWithin_progresses {levels : Nat} {type : Ty} (hs : type.Shaped) : Progresses (decodeWithin levels type) := by
  intro r value next hrun
  obtain ⟨_, _, _, ⟨hexact, -, rfl⟩, -, -, rfl⟩ := (decodeWithin_reads hs _ _ _ _ _).1 hrun
  exact Nat.lt_add_of_pos_right (size_layout_pos hs hexact r.position)

theorem goesOn_entry (levels : Nat) (key value : Ty) : GoesOn (decodeEntry levels key value) :=
  (goesOn_align 8).bind fun _ => (decodeWithin_goesOn levels key).bind fun _ =>
    (decodeWithin_goesOn levels value).bind fun _ => goesOn_pure _

theorem progresses_entry (levels : Nat) {key : Ty} (hkey : key.Shaped) (value : Ty) :
    Progresses (decodeEntry levels key value) :=
  (goesOn_align 8).bind_progresses fun _ => (decodeWithin_progresses hkey).bind fun _ =>
    (decodeWithin_goesOn levels value).bind fun _ => goesOn_pure _

theorem decodeWithin_elementsRun {levels : Nat} {element : Ty} (hs : (Ty.array element).Shaped) (r : Reader) :
    ElementsRun levels element r ((decodeWithin (levels + 1) (.array element)).run r) := by
  cases hs with
  | array hs =>
    rw [elementsRun_of_shaped hs, decodeWithin_array hs]
    exact arrayRun_readMeasured (decodeWithin_progresses hs) _ .array r
  | dict key hs =>
    exact arrayRun_readMeasured (progresses_entry levels (.basic key) _) 8 .dict r

theorem ElementsRun.stop {levels : Nat} {element : Ty} (hs : (Ty.array element).Shaped) {r last : Reader} {value : Value}
    (h : ElementsRun levels element r (.ok value, last)) :
    ∃ length start, (readLength element.alignment).run r = (.ok length, start) ∧ length ≤ start.remaining ∧
      last = ⟨start.order, start.position + length, start.rest.drop length⟩ := by
  cases hs with
  | array hs =>
    rw [elementsRun_of_shaped hs] at h
    exact h.stop (decodeWithin_goesOn levels element)
  | dict key hs => exact ArrayRun.stop (goesOn_entry levels (.basic key) _) h

/-- **Decoding gets further and stops where it should.** Of any type that a signature can name, at any depth and from any
position on: whatever comes of it, the reader does not go back and loses no byte uncounted; a value that is read takes it a
byte further or more; and an array is read by the loop that nothing but the end of its bytes stops, in at most as many
turns as its length says bytes, and if it is read, it has taken up just these bytes behind its length and the padding. -/
theorem decode_progress {text : String} {type : Ty} (htype : Ty.parseSingle text = .ok type) {levels : Nat}
    {r last : Reader} {result : Except Error Value} (hrun : (decodeWithin (levels + 1) type).run r = (result, last)) :
    r.Onward last ∧ (∀ value, result = .ok value → r.position < last.position) ∧
      ∀ element, type = .array element → ElementsRun levels element r (result, last) ∧
        ∀ value, result = .ok value → ∃ length start, (readLength element.alignment).run r = (.ok length, start) ∧
          length ≤ start.remaining ∧ last = ⟨start.order, start.position + length, start.rest.drop length⟩ := by
  have hs : type.Shaped := shaped_of_parseSingle htype
  refine ⟨(decodeWithin_goesOn (levels + 1) type).of_run hrun, ?_, ?_⟩
  · intro value hvalue
    rw [hvalue] at hrun
    exact decodeWithin_progresses hs r value last hrun
  · rintro element rfl
    have helements : ElementsRun levels element r (result, last) := hrun ▸ decodeWithin_elementsRun hs r
    refine ⟨helements, ?_⟩
    rintro value rfl
    exact helements.stop hs

/-- an array of two arrays of bytes from position 2 on, with one byte and with none, and padding in front of both -/
theorem decode_progress_nested :
    let type : Ty := .array (.array (.basic (.int .byte)))
    let r : Reader := ⟨.big, 2, [9, 9, 0, 0, 0, 12, 0, 0, 0, 1, 5, 7, 7, 7, 0, 0, 0, 0, 42]⟩
    let last : Reader := ⟨.big, 20, [42]⟩
    let value : Value := .array [.array [.byte 5], .array []]
    Ty.parseSingle "aay" = .ok type ∧ (decodeWithin (maxDepth + 1) type).run r = (.ok value, last) ∧ r.Onward last ∧
      r.position < last.position ∧ ElementsRun maxDepth (.array (.basic (.int .byte))) r (.ok value, last) ∧
      ∃ length start, (readLength 4).run r = (.ok length, start) ∧ length ≤ start.remaining ∧
        last = ⟨start.order, start.position + length, start.rest.drop length⟩ := by
  intro type r last value
  have htype : Ty.parseSingle "aay" = .ok type := by cbv
  have hrun : (decodeWithin (maxDepth + 1) type).run r = (.ok value, last) := by cbv
  obtain ⟨honward, hfurther, harray⟩ := decode_progress htype hrun
  obtain ⟨helements, hstop⟩ := harray _ rfl
  exact ⟨htype, hrun, honward, hfurther value rfl, helements, hstop value rfl⟩

end MessageBus.Wire
