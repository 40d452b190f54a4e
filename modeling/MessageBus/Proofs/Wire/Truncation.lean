/-
Bytes that are missing.

A decoder is exacting when it goes by nothing but the bytes that it passes over, and when none of them can be missing: cut
anywhere short of their end, they are refused as truncated (`Exacting`). Decoders one after another are exacting when each
of them is, since a cut falls either within the bytes of the first or behind them (`Exacting.bind`). Only an array looks
ahead, and it looks just as far as it will read, so that any cut within it shows before its first item
(`exacting_measured`).

So whatever follows an argument list does not change it, and cutting the list itself short is always reported as such
(`decodeAll_cut`).
-/
import Mathlib
import MessageBus.Proofs.Wire.Stepwise

namespace MessageBus.Wire

variable {α β : Type} {d : Decoder α} {f : α → Decoder β}

/-- a run that asks for more bytes than there are, and says where they end -/
def RunsShort (d : Decoder α) (r : Reader) : Prop :=
  ∃ offset needed available r', d.run r = (.error (.truncated offset needed available), r') ∧ available < needed ∧
    offset + available = r.position + r.rest.length

/-- a decoder that succeeds goes by just the bytes that it passes over, and runs short when some of them are missing -/
def Exacting (d : Decoder α) : Prop :=
  ∀ order p data a r, d.run ⟨order, p, data⟩ = (.ok a, r) → ∃ used rest, data = used ++ rest ∧
    r = ⟨order, p + used.length, rest⟩ ∧
    (∀ other, d.run ⟨order, p, used ++ other⟩ = (.ok a, ⟨order, p + used.length, other⟩)) ∧
    ∀ kept missing, kept ++ missing = used → missing ≠ [] → RunsShort d ⟨order, p, kept⟩

/-! ## Steps -/

theorem run_bind_error {r r' : Reader} {e : Error} (h : d.run r = (.error e, r')) :
    (d >>= f).run r = (.error e, r') := by
  rw [run_bind, h]

theorem RunsShort.bind_left {r : Reader} (h : RunsShort d r) : RunsShort (d >>= f) r := by
  obtain ⟨offset, needed, available, r', hrun, hshort⟩ := h
  exact ⟨offset, needed, available, r', run_bind_error hrun, hshort⟩

theorem exacting_pure (a : α) : Exacting (pure a) := by
  intro order p data b r h
  cases h
  refine ⟨[], data, rfl, rfl, fun _ => rfl, fun kept missing hcut hmissing => ?_⟩
  exact absurd (List.append_eq_nil_iff.1 hcut).2 hmissing

theorem exacting_throw (e : Error) : Exacting (throw e : Decoder α) := by
  intro order p data b r h
  cases h

theorem exacting_lift (x : Except Error α) : Exacting (liftM x) := by
  cases x with
  | error e => exact exacting_throw e
  | ok a => exact exacting_pure a

/-- **Exacting decoders one after another are exacting**: a cut falls within the bytes of the first, or behind them. -/
theorem Exacting.bind (hd : Exacting d) (hf : ∀ a, Exacting (f a)) : Exacting (d >>= f) := by
  intro order p data b r h
  obtain ⟨a, next, hfirst, hsecond⟩ := run_bind_eq_ok.1 h
  obtain ⟨used, _, rfl, rfl, hother, hshort⟩ := hd _ _ _ _ _ hfirst
  obtain ⟨used', rest, rfl, rfl, hother', hshort'⟩ := hf a _ _ _ _ _ hsecond
  refine ⟨used ++ used', rest, (List.append_assoc ..).symm, by rw [List.length_append, Nat.add_assoc], fun other => ?_,
    fun kept missing hcut hmissing => ?_⟩
  · rw [List.append_assoc, List.length_append, ← Nat.add_assoc]
    exact run_bind_eq_ok.2 ⟨a, _, hother (used' ++ other), hother' other⟩
  · obtain ⟨more, hkept, hused'⟩ | ⟨more, hused, hmissing'⟩ := List.append_eq_append_iff.1 hcut.symm
    · -- all of the first bytes are there, and some of the second
      obtain ⟨offset, needed, available, r', hrun, hlt, hend⟩ := hshort' more missing hused'.symm hmissing
      rw [hkept]
      refine ⟨offset, needed, available, r', ?_, hlt, ?_⟩
      · rw [run_bind, hother more]
        exact hrun
      · rw [hend, List.length_append, Nat.add_assoc]
    · by_cases hmore : more = []
      · -- the first bytes are there, and none of the second
        rw [hmore, List.append_nil] at hused
        rw [hmore, List.nil_append] at hmissing'
        obtain ⟨offset, needed, available, r', hrun, hlt, hend⟩ := hshort' [] used' rfl (hmissing' ▸ hmissing)
        rw [← hused]
        refine ⟨offset, needed, available, r', ?_, hlt, hend⟩
        have hfirst' := hother []
        rw [List.append_nil] at hfirst'
        rw [run_bind, hfirst']
        exact hrun
      · exact (hshort kept more hused.symm hmore).bind_left

/-- what is done may depend on where the reader is -/
theorem exacting_get {f : Reader → Decoder α}
    (hplace : ∀ r r' : Reader, r.order = r'.order → r.position = r'.position → f r = f r')
    (h : ∀ r, Exacting (f r)) : Exacting (get >>= f) := by
  intro order p data a r hok
  rw [run_get] at hok
  obtain ⟨used, rest, hdata, hr, hother, hshort⟩ := h _ _ _ _ _ _ hok
  have hsame (bytes : List UInt8) : f ⟨order, p, bytes⟩ = f ⟨order, p, data⟩ := hplace _ _ rfl rfl
  refine ⟨used, rest, hdata, hr, fun other => ?_, fun kept missing hcut hmissing => ?_⟩
  · rw [run_get, hsame]
    exact hother other
  · obtain ⟨offset, needed, available, r', hfail, hlt⟩ := hshort kept missing hcut hmissing
    refine ⟨offset, needed, available, r', ?_, hlt⟩
    rw [run_get, hsame]
    exact hfail

theorem exacting_read (n : Nat) : Exacting (Decoder.read n) := by
  intro order p data bytes r h
  rw [run_read] at h
  split_ifs at h with hlen
  · cases h
    rw [hasAtLeast_iff] at hlen
    have hn : (data.take n).length = n := List.length_take_of_le hlen
    refine ⟨data.take n, data.drop n, (List.take_append_drop n data).symm, by rw [hn], fun other => ?_,
      fun kept missing hcut hmissing => ?_⟩
    · have hother : hasAtLeast n (data.take n ++ other) = true := by
        rw [hasAtLeast_iff, List.length_append]
        omega
      rw [run_read, if_pos hother]
      simp only [List.take_left' hn, List.drop_left' hn, hn]
    · have hkept : kept.length < n := by
        have hsum := congrArg List.length hcut
        have hpos := List.length_pos_iff.2 hmissing
        rw [List.length_append, hn] at hsum
        omega
      have hfew : ¬hasAtLeast n kept = true := by rw [hasAtLeast_iff]; omega
      refine ⟨p, n, kept.length, ⟨order, p, kept⟩, ?_, hkept, rfl⟩
      rw [run_read, if_neg hfew]
      rfl
  · cases h

theorem exacting_align (alignment : Nat) : Exacting (Decoder.align alignment) := by
  refine exacting_get (fun r r' _ hposition => by rw [hposition]) fun r => ?_
  exact (exacting_read _).bind fun _ => exacting_pure ()

theorem exacting_word (size : Nat) : Exacting (Decoder.word size) := by
  refine (exacting_align size).bind fun _ => exacting_get (fun r r' horder _ => by rw [horder]) fun r => ?_
  exact (exacting_read size).bind fun _ => exacting_pure _

theorem exacting_terminated (length : Nat) : Exacting (Decoder.terminated length) := by
  rw [terminated_eq]
  refine (exacting_read length).bind fun bytes => exacting_get (fun r r' _ hposition => by rw [hposition]) fun r => ?_
  exact (exacting_read 1).bind fun nul => exacting_lift _

/-! ## Arrays -/

theorem exacting_untilPosition {step : Decoder α} (h : Exacting step) (stop steps : Nat) :
    Exacting (Decoder.untilPosition stop step steps) := by
  induction steps with
  | zero =>
    refine exacting_get (fun r r' _ hposition => by rw [hposition]) fun r => ?_
    split_ifs
    · exact exacting_throw _
    · exact exacting_pure _
  | succ steps ih =>
    refine exacting_get (fun r r' _ hposition => by rw [hposition]) fun r => ?_
    split_ifs
    · refine h.bind fun item => exacting_get (fun r r' _ hposition => by rw [hposition]) fun reached => ?_
      dsimp only
      split_ifs
      · exact exacting_throw _
      · exact ih.bind fun _ => exacting_pure _
    · exact exacting_pure _

/-- items that do not fail to be read end at the stop -/
theorem position_untilPosition {step : Decoder α} {stop steps : Nat} {r r' : Reader} {items : List α}
    (hle : r.position ≤ stop) (h : (Decoder.untilPosition stop step steps).run r = (.ok items, r')) :
    r'.position = stop := by
  induction steps generalizing r items with
  | zero =>
    rw [Decoder.untilPosition, run_get] at h
    split_ifs at h with hlt
    · cases h
    · cases h
      omega
  | succ steps ih =>
    obtain hlt | hdone := Nat.lt_or_ge r.position stop
    · obtain ⟨item, rest, next, -, hnext, hrest, -⟩ := (run_untilPosition_succ hlt).1 h
      exact ih hnext hrest
    · obtain ⟨-, rfl⟩ := (run_untilPosition_done hdone).1 h
      omega

/-- a measured array looks for all of its bytes before it reads the first of them -/
theorem exacting_items {step : Decoder α} (h : Exacting step) (collect : List α → Value) (length : Nat) :
    Exacting (readItems step collect length) := by
  intro order p data v r hok
  rw [readItems, run_get] at hok
  split_ifs at hok with hfew
  · cases hok
  · have hitems := (exacting_untilPosition h (p + length) length).bind fun items => exacting_pure (collect items)
    obtain ⟨items, last, hrun, hlast⟩ := run_bind_eq_ok.1 hok
    cases hlast
    have hend := position_untilPosition (Nat.le_add_right p length) hrun
    obtain ⟨used, rest, rfl, rfl, hother, -⟩ := hitems _ _ _ _ _ hok
    have hused : used.length = length := Nat.add_left_cancel hend
    refine ⟨used, rest, rfl, rfl, fun other => ?_, fun kept missing hcut hmissing => ?_⟩
    · have hall : hasAtLeast length (used ++ other) = true := by
        rw [hasAtLeast_iff, List.length_append]
        omega
      rw [readItems, run_get, hall, Bool.not_true, if_neg Bool.false_ne_true]
      exact hother other
    · have hkept : kept.length < length := by
        have hsum := congrArg List.length hcut
        have hpos := List.length_pos_iff.2 hmissing
        rw [List.length_append] at hsum
        omega
      have hfew : hasAtLeast length kept = false := by
        rw [Bool.eq_false_iff, ne_eq, hasAtLeast_iff]
        omega
      refine ⟨p, length, kept.length, ⟨order, p, kept⟩, ?_, hkept, rfl⟩
      rw [readItems, run_get, hfew, Bool.not_false, if_pos rfl]
      rfl

theorem exacting_measured {step : Decoder α} (h : Exacting step) (alignment : Nat) (collect : List α → Value) :
    Exacting (readMeasured alignment step collect) := by
  refine (exacting_word 4).bind fun length => ?_
  split_ifs
  · exact exacting_throw _
  · exact (exacting_align alignment).bind fun _ => exacting_items h collect length

/-! ## Values -/

/-- **Values are read off exactly their own bytes**, at any depth, since all steps are. -/
theorem stepwise_exacting : Decoder.Stepwise Exacting where
  pure := exacting_pure
  throw _ := exacting_throw _
  lift _ := exacting_lift _
  bind := .bind
  align _ := exacting_align _
  word _ := exacting_word _
  terminated := exacting_terminated
  measured _ _ hstep collect := exacting_measured hstep _ collect

/-- **Decoding goes by the bytes that it consumes, and misses each of them.** An argument list that is read off the first
`n` of some bytes is read off the same `n` bytes whatever follows them; and when the bytes end anywhere before that, they
are refused as truncated, with an error that says where they end. -/
theorem decodeAll_cut {types : List Ty} {order : ByteOrder} {start : Nat} {data : List UInt8} {values : List Value}
    {r : Reader} (h : (decodeAll types).run ⟨order, start, data⟩ = (.ok values, r)) :
    ∃ n ≤ data.length, r = ⟨order, start + n, data.drop n⟩ ∧
      (∀ other, other.take n = data.take n →
        (decodeAll types).run ⟨order, start, other⟩ = (.ok values, ⟨order, start + n, other.drop n⟩)) ∧
      ∀ m < n, ∃ offset needed available r',
        (decodeAll types).run ⟨order, start, data.take m⟩ = (.error (.truncated offset needed available), r') ∧
          available < needed ∧ offset + available = start + m := by
  have hexacting : Exacting (decodeAll types) := stepwise_exacting.decodeAll types
  obtain ⟨used, rest, rfl, rfl, hother, hshort⟩ := hexacting _ _ _ _ _ h
  refine ⟨used.length, by simp, by rw [List.drop_left], fun other hsame => ?_, fun m hm => ?_⟩
  · rw [List.take_left] at hsame
    have hsplit : used ++ other.drop used.length = other := by
      conv_rhs => rw [← List.take_append_drop used.length other, hsame]
    have hrun := hother (other.drop used.length)
    rwa [hsplit] at hrun
  · have hmissing : used.drop m ≠ [] := by simpa using hm
    obtain ⟨offset, needed, available, r', hrun, hlt, hend⟩ :=
      hshort (used.take m) (used.drop m) (List.take_append_drop m used) hmissing
    have hlen : (used.take m).length = m := List.length_take_of_le hm.le
    refine ⟨offset, needed, available, r', ?_, hlt, by rw [hend, hlen]⟩
    rw [List.take_append_of_le_length hm.le]
    exact hrun

/-- a dict from a number to one in a variant, from position 3 on with a byte of padding in front: it is the same with one
byte behind it as with two, and wherever it is cut, be it within the padding, its length, the type of the variant or the
last number, that is missed -/
theorem decodeAll_cut_dict :
    let types : List Ty := [.array (.dictEntry (.basic (.int .byte)) .variant)]
    let values : List Value := [.dict [(.byte 7, .variant (.basic (.int .uint16)) (.scalar (.int .uint16 258)))]]
    let bytes : List UInt8 := [9, 0, 0, 0, 6, 7, 1, 113, 0, 1, 2]
    (decodeAll types).run ⟨.big, 3, bytes ++ [5, 6]⟩ = (.ok values, ⟨.big, 14, [5, 6]⟩) ∧
      (decodeAll types).run ⟨.big, 3, bytes ++ [7]⟩ = (.ok values, ⟨.big, 14, [7]⟩) ∧
      ∀ m < 11, ∃ offset needed available r',
        (decodeAll types).run ⟨.big, 3, bytes.take m⟩ = (.error (.truncated offset needed available), r') ∧
          available < needed ∧ offset + available = 3 + m := by
  intro types values bytes
  have hrun : (decodeAll types).run ⟨.big, 3, bytes ++ [5, 6]⟩ = (.ok values, ⟨.big, 14, [5, 6]⟩) := by cbv
  obtain ⟨n, -, hend, hother, hshort⟩ := decodeAll_cut hrun
  obtain rfl : n = 11 := by
    have hposition : 14 = 3 + n := congrArg Reader.position hend
    omega
  refine ⟨hrun, hother (bytes ++ [7]) rfl, fun m hm => ?_⟩
  have hcut := hshort m hm
  rwa [List.take_append_of_le_length hm.le] at hcut

end MessageBus.Wire
