/-
Offsets count modulo eight.

Writers and readers know their position in the message, but all they ask of it is how far the next multiple of an alignment
is, and all alignments divide eight. So a writer that starts a multiple of eight further on writes the same bytes and fails
in the same way (`Rebases`), and a reader reads the same there; only the positions that an error tells are further on
(`Travels`).
-/
import Mathlib
import MessageBus.Proofs.Wire.Stepwise

namespace MessageBus

/-- the same error, met so many bytes further on -/
def Error.forward (distance : Nat) : Error → Error
  | truncated offset needed available => truncated (offset + distance) needed available
  | arrayOverrun position stop => arrayOverrun (position + distance) (stop + distance)
  | unterminatedText offset => unterminatedText (offset + distance)
  | error => error

theorem Error.Placeless.forward_eq {e : Error} (h : e.Placeless) (distance : Nat) : e.forward distance = e := by
  cases e <;> first | rfl | cases h

theorem Error.forward_forward (e : Error) (m n : Nat) : (e.forward m).forward n = e.forward (m + n) := by
  cases e <;> simp [forward, Nat.add_assoc]

namespace Wire

theorem padding_congr {p q alignment : Nat} (h : p ≡ q [MOD 8]) (ha : alignment ∣ 8) :
    padding p alignment = padding q alignment := by
  rw [padding, padding, h.of_dvd ha]

variable {α β : Type}

/-! ## Writers -/

/-- the same bytes from another position on -/
def Writer.rebase (w : Writer) (base : Nat) : Writer := { w with base }

/-- an encoder does the same wherever the writer starts, modulo eight, and does not move the start -/
def Rebases (e : Encoder α) : Prop :=
  ∀ (w : Writer) (base : Nat), base ≡ w.base [MOD 8] → (e.run w).2.base = w.base ∧
    e.run (w.rebase base) = ((e.run w).1, (e.run w).2.rebase base)

section Writers

variable {e : Encoder α} {f : α → Encoder β}

/-- a step that does not look at the position -/
theorem Rebases.of_run (result : Except Error α) (h : ∀ w, e.run w = (result, w)) : Rebases e := by
  intro w base _
  rw [h, h]
  exact ⟨rfl, rfl⟩

theorem Rebases.bind (he : Rebases e) (hf : ∀ a, Rebases (f a)) : Rebases (e >>= f) := by
  intro w base hbase
  obtain ⟨hsame, hrun⟩ := he w base hbase
  rw [run_bind, run_bind, hrun]
  rcases he' : e.run w with ⟨error | a, next⟩
  · rw [he'] at hsame
    exact ⟨hsame, rfl⟩
  · rw [he'] at hsame
    obtain ⟨hsame', hrun'⟩ := hf a next base (by rwa [hsame])
    exact ⟨hsame'.trans hsame, hrun'⟩

theorem rebase_align {w : Writer} {base alignment : Nat} (h : base ≡ w.base [MOD 8]) (ha : alignment ∣ 8) :
    (w.rebase base).align alignment = (w.align alignment).rebase base := by
  have hpadding : padding (w.rebase base).position alignment = padding w.position alignment :=
    padding_congr (h.add_right w.data.size) ha
  rw [Writer.align, Writer.align, hpadding]
  rfl

theorem rebases_append (bytes : List UInt8) : Rebases (Encoder.append bytes) := by
  intro w base _
  exact ⟨rfl, rfl⟩

theorem rebases_align {alignment : Nat} (ha : alignment ∣ 8) : Rebases (Encoder.align alignment) := by
  intro w base h
  rw [Encoder.run_align, Encoder.run_align, rebase_align h ha]
  exact ⟨rfl, rfl⟩

theorem rebases_put {size : Nat} (hsize : size ∣ 8) (n : Nat) : Rebases (Encoder.put size n) := by
  intro w base h
  rw [Encoder.run_put, Encoder.run_put, Writer.put, Writer.put, rebase_align h hsize]
  exact ⟨rfl, rfl⟩

theorem rebases_startLength : Rebases Encoder.startLength := by
  intro w base h
  rw [Encoder.run_startLength, Encoder.run_startLength, Writer.startLength, Writer.startLength, rebase_align h (by decide)]
  exact ⟨rfl, rfl⟩

theorem rebases_measured {alignment : Nat} (ha : alignment ∣ 8) {body : Encoder Unit} (hbody : Rebases body) :
    Rebases (writeMeasured alignment body) := by
  apply rebases_startLength.bind
  intro slot
  apply (rebases_align ha).bind
  intro _
  have hbegin : Rebases (Encoder.beginLength slot) := fun w base _ => ⟨rfl, rfl⟩
  apply hbegin.bind
  intro slot
  apply hbody.bind
  intro _
  have hfinish : Rebases (Encoder.finishLength slot) := fun w base _ => ⟨rfl, rfl⟩
  apply hfinish.bind
  intro length
  split_ifs
  · exact .of_run (.error _) fun _ => rfl
  · exact .of_run (.ok ()) fun _ => rfl

theorem stepwise_rebases : Encoder.Stepwise Rebases where
  pure a := .of_run (.ok a) fun _ => rfl
  throw _ := .of_run (.error _) fun _ => rfl
  lift _ := .of_run _ fun _ => rfl
  bind := .bind
  append := rebases_append
  align := rebases_align
  put := rebases_put
  measured := rebases_measured

end Writers

/-! ## Readers -/

/-- the same bytes so much further on -/
def Reader.forward (r : Reader) (distance : Nat) : Reader := { r with position := r.position + distance }

/-- a decoder does further on what another does here, and so much further on it ends and tells its errors -/
def Travels (distance : Nat) (d d' : Decoder α) : Prop :=
  ∀ r : Reader, d'.run (r.forward distance)
    = ((d.run r).1.mapError (Error.forward distance), (d.run r).2.forward distance)

section Readers

variable {distance : Nat} {d d' : Decoder α} {f f' : α → Decoder β}

theorem travels_pure (a : α) : Travels distance (pure a) (pure a) := fun _ => rfl

theorem travels_throw (e : Error) : Travels distance (throw e : Decoder α) (throw (e.forward distance)) := fun _ => rfl

theorem travels_lift (x : Except Error α) : Travels distance (liftM x) (liftM (x.mapError (Error.forward distance))) :=
  fun _ => rfl

theorem mapError_forward {x : Except Error α} (h : ∀ e, x = .error e → e.Placeless) (distance : Nat) :
    x.mapError (Error.forward distance) = x := by
  rcases x with e | a
  · rw [Except.mapError, (h e rfl).forward_eq]
  · rfl

theorem Travels.bind (hd : Travels distance d d') (hf : ∀ a, Travels distance (f a) (f' a)) :
    Travels distance (d >>= f) (d' >>= f') := by
  intro r
  rw [run_bind, run_bind, hd r]
  rcases d.run r with ⟨e | a, next⟩
  · rfl
  · exact hf a next

theorem travels_get {f f' : Reader → Decoder α} (h : ∀ r, Travels distance (f r) (f' (r.forward distance))) :
    Travels distance (get >>= f) (get >>= f') := fun r => h r r

theorem travels_ite {p p' : Prop} [Decidable p] [Decidable p'] (h : p' ↔ p) {e e' : Decoder α}
    (hd : Travels distance d d') (he : Travels distance e e') :
    Travels distance (if p then d else e) (if p' then d' else e') := by
  by_cases hp : p
  · rwa [if_pos hp, if_pos (h.2 hp)]
  · rwa [if_neg hp, if_neg (mt h.1 hp)]

theorem travels_read (n : Nat) : Travels distance (Decoder.read n) (Decoder.read n) := by
  intro r
  rw [run_read, run_read]
  by_cases hlen : hasAtLeast n r.rest = true
  · rw [if_pos hlen, show hasAtLeast n (r.forward distance).rest = true from hlen, if_pos rfl]
    simp only [Reader.forward, Except.mapError, Nat.add_right_comm]
  · rw [if_neg hlen, if_neg (show ¬hasAtLeast n (r.forward distance).rest = true from hlen)]
    rfl

theorem travels_align (hdistance : 8 ∣ distance) {alignment : Nat} (ha : alignment ∣ 8) :
    Travels distance (Decoder.align alignment) (Decoder.align alignment) := by
  apply travels_get
  intro r
  have hsame : r.position + distance ≡ r.position [MOD 8] :=
    (Nat.modEq_zero_iff_dvd.2 hdistance).add_left r.position
  have hpadding : padding (r.forward distance).position alignment = padding r.position alignment := padding_congr hsame ha
  rw [hpadding]
  exact (travels_read _).bind fun _ => travels_pure ()

theorem travels_word (hdistance : 8 ∣ distance) {size : Nat} (hsize : size ∣ 8) :
    Travels distance (Decoder.word size) (Decoder.word size) := by
  apply (travels_align hdistance hsize).bind
  intro _
  apply travels_get
  intro r
  exact (travels_read size).bind fun _ => travels_pure _

theorem closeText_forward (stop distance : Nat) (bytes nul : List UInt8) :
    closeText (stop + distance) bytes nul = (closeText stop bytes nul).mapError (Error.forward distance) := by
  unfold closeText
  split_ifs
  · rfl
  · rfl
  · rcases Text.ofUtf8? bytes with _ | text <;> rfl

theorem travels_terminated (length : Nat) : Travels distance (Decoder.terminated length) (Decoder.terminated length) := by
  rw [terminated_eq]
  apply (travels_read length).bind
  intro bytes
  apply travels_get
  intro r
  apply (travels_read 1).bind
  intro nul
  have hclose : closeText (r.forward distance).position bytes nul
      = (closeText r.position bytes nul).mapError (Error.forward distance) := closeText_forward ..
  rw [hclose]
  exact travels_lift _

/-- the stop of a loop is as much further on as its start -/
theorem travels_untilPosition {step : Decoder α} (h : Travels distance step step) (stop steps : Nat) :
    Travels distance (Decoder.untilPosition stop step steps) (Decoder.untilPosition (stop + distance) step steps) := by
  induction steps with
  | zero =>
    apply travels_get
    intro r
    exact travels_ite Nat.add_lt_add_iff_right (travels_throw (.arrayOverrun r.position stop)) (travels_pure [])
  | succ steps ih =>
    apply travels_get
    intro r
    apply travels_ite Nat.add_lt_add_iff_right _ (travels_pure [])
    apply h.bind
    intro item
    apply travels_get
    intro reached
    apply travels_ite Nat.add_lt_add_iff_right
    · exact travels_throw (.arrayOverrun reached.position stop)
    · exact ih.bind fun _ => travels_pure _

theorem travels_measured (hdistance : 8 ∣ distance) {alignment : Nat} (ha : alignment ∣ 8) {step : Decoder α}
    (hstep : Travels distance step step) (collect : List α → Value) :
    Travels distance (readMeasured alignment step collect) (readMeasured alignment step collect) := by
  apply (travels_word hdistance (by decide)).bind
  intro length
  apply travels_ite Iff.rfl
  · exact travels_throw (.arrayTooLong length)
  · apply (travels_align hdistance ha).bind
    intro _
    apply travels_get
    intro r
    apply travels_ite Iff.rfl
    · exact travels_throw (r.shortage length)
    · have hstop : (r.forward distance).position + length = r.position + length + distance := Nat.add_right_comm ..
      rw [hstop]
      exact (travels_untilPosition hstep _ length).bind fun _ => travels_pure _

theorem stepwise_travels (hdistance : 8 ∣ distance) : Decoder.Stepwise fun d => Travels distance d d where
  pure := travels_pure
  throw {α error} h := by
    have hthrow : Travels distance (throw error : Decoder α) (throw (error.forward distance)) := travels_throw error
    rwa [h.forward_eq] at hthrow
  lift {α x} h := by
    have hlift : Travels distance (liftM x : Decoder α) (liftM (x.mapError (Error.forward distance))) := travels_lift x
    rwa [mapError_forward h] at hlift
  bind := .bind
  align := travels_align hdistance
  word := travels_word hdistance
  terminated := travels_terminated
  measured := travels_measured hdistance

end Readers

/-! ## Offsets -/

/-- what two readers come to is the same, but for the positions in it: they are as far apart as the offsets -/
structure SameFrom (o₁ o₂ : Nat) (outcome₁ outcome₂ : Except Error α × Reader) : Prop where
  /-- the same values, or the same error at positions that are as far apart -/
  result : outcome₁.1.mapError (Error.forward o₂) = outcome₂.1.mapError (Error.forward o₁)
  order : outcome₁.2.order = outcome₂.2.order
  position : outcome₁.2.position + o₂ = outcome₂.2.position + o₁
  rest : outcome₁.2.rest = outcome₂.2.rest

theorem SameFrom.symm {o₁ o₂ : Nat} {a b : Except Error α × Reader} (h : SameFrom o₁ o₂ a b) : SameFrom o₂ o₁ b a :=
  ⟨h.result.symm, h.order.symm, h.position.symm, h.rest.symm⟩

theorem Travels.sameFrom {d : Decoder α} {distance : Nat} (h : Travels distance d d) (order : ByteOrder) (o : Nat)
    (data : List UInt8) :
    SameFrom o (o + distance) (d.run ⟨order, o, data⟩) (d.run ⟨order, o + distance, data⟩) := by
  have hrun := h ⟨order, o, data⟩
  rw [show (⟨order, o + distance, data⟩ : Reader) = Reader.forward ⟨order, o, data⟩ distance from rfl, hrun]
  rcases d.run ⟨order, o, data⟩ with ⟨e | a, last⟩
  · refine ⟨?_, rfl, ?_, rfl⟩
    · simp only [Except.mapError, Error.forward_forward, Nat.add_comm]
    · simp only [Reader.forward]
      omega
  · refine ⟨rfl, rfl, ?_, rfl⟩
    simp only [Reader.forward]
    omega

/-- **The codec sees an offset only modulo eight.** From two such offsets on, the same values are written as the same bytes
or fail with the same error, and the same bytes are read as the same values with the same bytes left, or fail with the same
error, in which all positions are as far apart as the offsets. -/
theorem codec_offsets (types : List Ty) (order : ByteOrder) {o₁ o₂ : Nat} (h : o₁ ≡ o₂ [MOD 8]) :
    (∀ values, ∃ result w, (encodeAll types values).run (Writer.new order o₁) = (result, w) ∧
      (encodeAll types values).run (Writer.new order o₂) = (result, { w with base := o₂ })) ∧
    ∀ data, SameFrom o₁ o₂ ((decodeAll types).run ⟨order, o₁, data⟩) ((decodeAll types).run ⟨order, o₂, data⟩) := by
  constructor
  · intro values
    have hrebases : Rebases (encodeAll types values) := stepwise_rebases.encodeAll types values
    exact ⟨_, _, rfl, (hrebases (Writer.new order o₁) o₂ h.symm).2⟩
  · intro data
    have hsame {o o' : Nat} (hle : o ≤ o') (hmod : o ≡ o' [MOD 8]) :
        SameFrom o o' ((decodeAll types).run ⟨order, o, data⟩) ((decodeAll types).run ⟨order, o', data⟩) := by
      obtain ⟨distance, rfl⟩ := Nat.exists_eq_add_of_le hle
      have hdistance : 8 ∣ distance := by
        have hdvd := (Nat.modEq_iff_dvd' hle).1 hmod
        rwa [Nat.add_sub_cancel_left] at hdvd
      exact Travels.sameFrom ((stepwise_travels hdistance).decodeAll types) order o data
    obtain hle | hle := Nat.le_total o₁ o₂
    · exact hsame hle h
    · exact (hsame hle h.symm).symm

/-- a dict from position 3 and from position 19 on: written, read back, and cut short within its last number -/
theorem codec_offsets_dict :
    let types : List Ty := [.array (.dictEntry (.basic (.int .byte)) .variant)]
    let values : List Value := [.dict [(.byte 7, .variant (.basic (.int .uint16)) (.scalar (.int .uint16 258)))]]
    let bytes : List UInt8 := [0, 0, 0, 0, 6, 7, 1, 113, 0, 1, 2]
    (∃ result w, (encodeAll types values).run (Writer.new .big 3) = (result, w) ∧
        (encodeAll types values).run (Writer.new .big 19) = (result, { w with base := 19 }) ∧
        result = .ok () ∧ w.data.toList = bytes) ∧
      SameFrom 3 19 (.ok values, ⟨.big, 14, [5]⟩) ((decodeAll types).run ⟨.big, 19, bytes ++ [5]⟩) ∧
      SameFrom 3 19 (.error (.truncated 8 6 5), ⟨.big, 8, [7, 1, 113, 0, 1]⟩) ((decodeAll types).run ⟨.big, 19, bytes.take 10⟩) ∧
      ((decodeAll types).run ⟨.big, 19, bytes.take 10⟩).1 = .error (.truncated 24 6 5) := by
  intro types values bytes
  have hoffsets : 3 ≡ 19 [MOD 8] := rfl
  obtain ⟨hwrite, hread⟩ := codec_offsets types .big hoffsets
  have henc : (encodeAll types values).run (Writer.new .big 3) = (.ok (), ⟨.big, 3, bytes.toArray⟩) := rfl
  have hok : (decodeAll types).run ⟨.big, 3, bytes ++ [5]⟩ = (.ok values, ⟨.big, 14, [5]⟩) := by cbv
  have hcut : (decodeAll types).run ⟨.big, 3, bytes.take 10⟩
      = (.error (.truncated 8 6 5), ⟨.big, 8, [7, 1, 113, 0, 1]⟩) := by cbv
  refine ⟨?_, ?_, ?_, by cbv⟩
  · obtain ⟨result, w, hrun, hrun'⟩ := hwrite values
    obtain ⟨rfl, rfl⟩ := Prod.mk.inj (henc.symm.trans hrun)
    exact ⟨_, _, hrun, hrun', rfl, rfl⟩
  · rw [← hok]
    exact hread (bytes ++ [5])
  · rw [← hcut]
    exact hread (bytes.take 10)

end Wire

end MessageBus
