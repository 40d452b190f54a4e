/-
What decoders read.

`Reads d R` says all there is to say about a successful run of a decoder: it returns a value exactly when bytes that
stand for segments which `R` relates to the value, with anything as padding, are next, and then it has passed over these
bytes and nothing else. Values of a type are read off just the layouts of exact values (`decodeWithin_reads`).
-/
import MessageBus.Proofs.Text
import MessageBus.Proofs.Wire.Encode
import MessageBus.Wire.Decode

namespace MessageBus.Wire

/-- a decoder returns `a` exactly when segments that `R` relates to `a` are next, and then leaves what follows them -/
def Reads {α : Type} (d : Decoder α) (R : Nat → α → List Segment → Prop) : Prop :=
  ∀ order p data a r, d.run ⟨order, p, data⟩ = (.ok a, r) ↔
    ∃ segments bytes rest, R p a segments ∧ Matches order segments bytes ∧ data = bytes ++ rest ∧
      r = ⟨order, p + size segments, rest⟩

/-- the layout of a value that is as it should be -/
def AsLaid {α : Type} (E : α → Prop) (place : α → Piece) (p : Nat) (a : α) (segments : List Segment) : Prop :=
  E a ∧ AllFit segments ∧ segments = place a p

section Steps

variable {α β : Type} {d : Decoder α} {f : α → Decoder β} {R S : Nat → α → List Segment → Prop}

theorem Reads.congr (h : Reads d R) (hRS : ∀ p a segments, R p a segments ↔ S p a segments) : Reads d S := by
  intro order p data a r
  rw [h order p data a r]
  simp only [hRS]

theorem reads_pure (a : α) : Reads (pure a) fun _ b segments => b = a ∧ segments = [] := by
  intro order p data b r
  constructor
  · intro h
    cases h
    exact ⟨[], [], data, ⟨rfl, rfl⟩, rfl, rfl, rfl⟩
  · intro h
    rcases h with ⟨_, _, _, ⟨rfl, rfl⟩, rfl, rfl, rfl⟩
    rfl

theorem reads_throw (error : Error) (h : ∀ p a segments, ¬R p a segments) : Reads (throw error) R := by
  intro order p data b r
  constructor
  · intro hrun
    cases hrun
  · intro h
    rcases h with ⟨_, _, _, hR, -⟩
    exact absurd hR (h _ _ _)

theorem reads_lift (x : Except Error α) : Reads (liftM x) fun _ a segments => x = .ok a ∧ segments = [] := by
  intro order p data a r
  constructor
  · intro h
    cases h
    exact ⟨[], [], data, ⟨rfl, rfl⟩, rfl, rfl, rfl⟩
  · intro h
    rcases h with ⟨_, _, _, ⟨rfl, rfl⟩, rfl, rfl, rfl⟩
    rfl

theorem Reads.bind {S : α → Nat → β → List Segment → Prop} (hd : Reads d R) (hf : ∀ a, Reads (f a) (S a)) :
    Reads (d >>= f) fun p b segments => ∃ a s t, R p a s ∧ S a (p + size s) b t ∧ segments = s ++ t := by
  intro order p data b r
  rw [run_bind_eq_ok]
  constructor
  · intro h
    rcases h with ⟨a, r₁, h₁, h₂⟩
    obtain ⟨s, bs, rest, hR, hs, rfl, rfl⟩ := (hd _ _ _ _ _).1 h₁
    obtain ⟨t, bt, rest, hS, ht, rfl, rfl⟩ := (hf _ _ _ _ _ _).1 h₂
    exact ⟨s ++ t, bs ++ bt, rest, ⟨a, s, t, hR, hS, rfl⟩, matches_append.2 ⟨bs, bt, rfl, hs, ht⟩,
      (List.append_assoc ..).symm, by rw [size_append, Nat.add_assoc]⟩
  · intro h
    rcases h with ⟨_, _, rest, ⟨a, s, t, hR, hS, rfl⟩, hm, rfl, rfl⟩
    obtain ⟨bs, bt, rfl, hs, ht⟩ := matches_append.1 hm
    refine ⟨a, ⟨order, p + size s, bt ++ rest⟩, (hd _ _ _ _ _).2 ⟨s, bs, _, hR, hs, List.append_assoc .., rfl⟩,
      (hf _ _ _ _ _ _).2 ⟨t, bt, rest, hS, ht, rfl, by rw [size_append, Nat.add_assoc]⟩⟩

theorem reads_get {f : Reader → Decoder α} {S : Nat → Nat → α → List Segment → Prop}
    (h : ∀ r : Reader, Reads (f r) (S r.position)) : Reads (get >>= f) fun p => S p p :=
  fun order p data => h ⟨order, p, data⟩ order p data

theorem run_read (n : Nat) (r : Reader) :
    (Decoder.read n).run r = if hasAtLeast n r.rest then
      (.ok (r.rest.take n), { r with position := r.position + n, rest := r.rest.drop n })
      else (.error (r.shortage n), r) := by
  rw [Decoder.read, run_get]
  split_ifs <;> rfl

theorem reads_read (n : Nat) :
    Reads (Decoder.read n) fun _ bytes segments => bytes.length = n ∧ segments = [.raw bytes] := by
  intro order p data bytes r
  rw [run_read]
  constructor
  · intro h
    split_ifs at h with hlen
    · cases h
      rw [hasAtLeast_iff] at hlen
      refine ⟨_, data.take n, data.drop n, ⟨by simpa using hlen, rfl⟩, matches_singleton.2 rfl,
        (List.take_append_drop n data).symm, ?_⟩
      simp [Segment.size, hlen]
    · cases h
  · intro h
    rcases h with ⟨_, front, rest, ⟨rfl, rfl⟩, hm, rfl, rfl⟩
    obtain rfl : front = bytes := matches_singleton.1 hm
    have hlen : hasAtLeast front.length (front ++ rest) = true := (hasAtLeast_iff _ _).2 (by simp)
    simp [Segment.size, hlen]

theorem reads_align (alignment : Nat) :
    Reads (Decoder.align alignment) fun p _ segments => segments = [.padding (padding p alignment)] := by
  have hskip (r : Reader) : Reads (do let _ ← Decoder.read (padding r.position alignment))
      fun _ _ segments => segments = [.padding (padding r.position alignment)] := by
    intro order p data u r'
    rw [(reads_read _).bind (fun _ => reads_pure ()) order p data u r']
    constructor
    · intro h
      rcases h with ⟨_, _, rest, ⟨bytes, _, _, ⟨hlen, rfl⟩, ⟨rfl, rfl⟩, rfl⟩, hm, rfl, rfl⟩
      obtain rfl := matches_singleton.1 hm
      exact ⟨_, _, rest, rfl, matches_singleton.2 hlen, rfl, by simp [Segment.size, hlen]⟩
    · intro h
      rcases h with ⟨_, bytes, rest, rfl, hm, rfl, rfl⟩
      have hlen : bytes.length = _ := matches_singleton.1 hm
      exact ⟨_, bytes, rest, ⟨bytes, _, _, ⟨hlen, rfl⟩, ⟨rfl, rfl⟩, rfl⟩, matches_singleton.2 rfl, rfl,
        by simp [Segment.size, hlen]⟩
  exact reads_get (S := fun q _ _ segments => segments = [.padding (padding q alignment)]) hskip

/-- a number is read off any segment that spells it in so many bytes -/
theorem reads_spelled (size : Nat) (segment : Nat → Segment) (hsize : ∀ n, (segment n).size = size)
    (hspell : ∀ n order bytes, (segment n).Matches order bytes ↔ bytes = order.bytes size n) :
    Reads (Decoder.word size) fun p n segments =>
      n < 1 <<< (8 * size) ∧ segments = [.padding (padding p size), segment n] := by
  have hnumber : Reads (do return (← get).order.number (← Decoder.read size)) fun _ n segments =>
      n < 1 <<< (8 * size) ∧ segments = [segment n] := by
    intro order p data n r
    have hrun : (do return (← get).order.number (← Decoder.read size) : Decoder Nat).run ⟨order, p, data⟩
        = (Decoder.read size >>= fun bytes => pure (order.number bytes) : Decoder Nat).run ⟨order, p, data⟩ := rfl
    rw [hrun, (reads_read size).bind (fun bytes => reads_pure (order.number bytes)) order p data n r]
    constructor
    · intro h
      rcases h with ⟨_, front, rest, ⟨bytes, _, _, ⟨rfl, rfl⟩, ⟨rfl, rfl⟩, rfl⟩, hm, rfl, rfl⟩
      obtain rfl : front = bytes := matches_singleton.1 hm
      refine ⟨_, front, rest, ⟨ByteOrder.number_lt order front, rfl⟩, matches_singleton.2 ?_, rfl, ?_⟩
      · rw [hspell, ByteOrder.bytes_number]
      · rw [List.append_nil, size_singleton, size_singleton, hsize]
        rfl
    · intro h
      rcases h with ⟨_, bytes, rest, ⟨hn, rfl⟩, hm, rfl, rfl⟩
      obtain rfl := (hspell _ _ _).1 (matches_singleton.1 hm)
      have hnum : n = order.number (order.bytes size n) := by rw [ByteOrder.number_bytes, Nat.mod_eq_of_lt hn]
      refine ⟨_, _, rest, ⟨_, _, _, ⟨ByteOrder.length_bytes .., rfl⟩, ⟨hnum, rfl⟩, rfl⟩, matches_singleton.2 rfl, rfl, ?_⟩
      rw [List.append_nil, size_singleton, size_singleton, hsize, Segment.size, ByteOrder.length_bytes]
  refine ((reads_align size).bind fun _ => hnumber).congr fun p n segments => ?_
  constructor
  · intro h
    rcases h with ⟨_, _, _, rfl, ⟨hn, rfl⟩, rfl⟩
    exact ⟨hn, rfl⟩
  · intro h
    rcases h with ⟨hn, rfl⟩
    exact ⟨(), _, _, rfl, ⟨hn, rfl⟩, rfl⟩

theorem reads_word (size : Nat) :
    Reads (Decoder.word size) fun p n segments =>
      n < 1 <<< (8 * size) ∧ segments = [.padding (padding p size), .word size n] :=
  reads_spelled size (.word size) (fun _ => rfl) fun _ _ _ => Iff.rfl

/-- the last step in reading a text, which is the only one that looks at its bytes, and at the NUL behind them -/
def closeText (stop : Nat) (bytes nul : List UInt8) : Except Error String :=
  if nul ≠ [0] then .error (.unterminatedText stop)
  else if bytes.contains 0 then .error .embeddedNul
  else match Text.ofUtf8? bytes with
    | some text => .ok text
    | none => .error .invalidUtf8

theorem terminated_eq (length : Nat) : Decoder.terminated length = (do
    let bytes ← Decoder.read length
    let r ← get
    let nul ← Decoder.read 1
    liftM (closeText r.position bytes nul)) := by
  unfold Decoder.terminated
  congr! with bytes r nul
  unfold closeText
  by_cases hnul : nul = [0]
  · by_cases hzero : bytes.contains 0 = true
    · simp only [hnul, hzero, ne_eq, not_true_eq_false, if_false, if_true]
      rfl
    · simp only [hnul, hzero, ne_eq, not_true_eq_false, if_false]
      rcases Text.ofUtf8? bytes with _ | text <;> rfl
  · simp only [hnul, ne_eq, not_false_eq_true, if_true]
    rfl

theorem closeText_eq_ok_iff {stop : Nat} {bytes nul : List UInt8} {text : String} :
    closeText stop bytes nul = .ok text ↔ nul = [0] ∧ bytes = Text.utf8 text ∧ text.contains '\x00' = false := by
  unfold closeText
  constructor
  · intro h
    split_ifs at h with hnul hzero
    rcases hutf8 : Text.ofUtf8? bytes with _ | text'
    · rw [hutf8] at h
      cases h
    · rw [hutf8] at h
      cases h
      have hbytes : Text.utf8 text = bytes := Text.utf8_of_ofUtf8? hutf8
      refine ⟨not_not.1 hnul, hbytes.symm, ?_⟩
      rwa [Text.contains_nul, hbytes, ← Bool.not_eq_true]
  · rintro ⟨rfl, rfl, htext⟩
    rw [Text.contains_nul] at htext
    rw [if_neg (not_not.2 rfl), htext, if_neg Bool.false_ne_true, Text.ofUtf8?_utf8]

theorem reads_terminated (n : Nat) :
    Reads (Decoder.terminated n) fun _ text segments =>
      text.utf8ByteSize = n ∧ text.contains '\x00' = false ∧ segments = [.raw (Text.utf8 text), .raw [0]] := by
  rw [terminated_eq]
  refine ((reads_read n).bind fun bytes => reads_get (S := fun _ => _) fun r => (reads_read 1).bind
    (S := fun nul _ text segments => (nul = [0] ∧ bytes = Text.utf8 text ∧ text.contains '\x00' = false) ∧ segments = [])
    fun nul => (reads_lift _).congr fun p text segments => ?_).congr fun p text segments => ?_
  · rw [closeText_eq_ok_iff]
  constructor
  · intro h
    rcases h with ⟨_, _, _, ⟨rfl, rfl⟩, ⟨_, _, _, ⟨-, rfl⟩, ⟨⟨rfl, rfl, hnul⟩, rfl⟩, rfl⟩, rfl⟩
    exact ⟨(Text.length_utf8 text).symm, hnul, rfl⟩
  · intro h
    rcases h with ⟨rfl, hnul, rfl⟩
    exact ⟨Text.utf8 text, _, _, ⟨Text.length_utf8 text, rfl⟩, ⟨_, _, _, ⟨rfl, rfl⟩, ⟨⟨rfl, rfl, hnul⟩, rfl⟩, rfl⟩, rfl⟩

/-- the bytes of a text behind a word with their number, and a NUL -/
theorem reads_text (kind : TextKind) :
    Reads (Decoder.word kind.alignment >>= Decoder.terminated)
      (AsLaid (·.contains '\x00' = false) fun text => (Scalar.text kind text).layout) := by
  refine ((reads_word kind.alignment).bind reads_terminated).congr fun p text segments => ?_
  constructor
  · intro h
    rcases h with ⟨_, _, _, ⟨hn, rfl⟩, ⟨rfl, hnul, rfl⟩, rfl⟩
    exact ⟨hnul, by simp [Segment.Fits, hn], rfl⟩
  · intro h
    rcases h with ⟨hnul, hfit, rfl⟩
    have hn : text.utf8ByteSize < 1 <<< (8 * kind.alignment) := by
      simpa [Scalar.layout, aligned, Segment.Fits] using hfit
    exact ⟨_, _, _, ⟨hn, rfl⟩, ⟨rfl, hnul, rfl⟩, rfl⟩

end Steps

/-! ## Scalars -/

theorem reads_bits (size : Nat) (mk : BitVec (8 * size) → Scalar) {E : Scalar → Prop}
    (hE : ∀ s, E s ↔ ∃ bits, s = mk bits)
    (hlayout : ∀ bits, (mk bits).layout = aligned size fun _ => [.word size bits.toNat]) :
    Reads (do return mk (BitVec.ofNat (8 * size) (← Decoder.word size))) (AsLaid E Scalar.layout) := by
  refine ((reads_word size).bind fun n => reads_pure _).congr fun p s segments => ?_
  constructor
  · intro h
    rcases h with ⟨n, _, _, ⟨hn, rfl⟩, ⟨rfl, rfl⟩, rfl⟩
    have hbits : (BitVec.ofNat (8 * size) n).toNat = n := by
      rw [BitVec.toNat_ofNat, ← Nat.one_shiftLeft, Nat.mod_eq_of_lt hn]
    exact ⟨(hE _).2 ⟨_, rfl⟩, by simp [Segment.Fits, hn], by simp [hlayout, aligned, hbits]⟩
  · intro h
    rcases h with ⟨hs, hfit, rfl⟩
    obtain ⟨bits, rfl⟩ := (hE s).1 hs
    refine ⟨bits.toNat, _, _, ⟨?_, rfl⟩, ⟨by simp, rfl⟩, by simp [hlayout, aligned]⟩
    simpa [hlayout, aligned, Segment.Fits] using hfit

theorem reads_boolean :
    Reads (decodeBasic .boolean) (AsLaid (fun s => s.type = .boolean ∧ s.Valid) Scalar.layout) := by
  have hcheck (n : Nat) : Reads (if n = 0 then pure (Scalar.boolean false) else if n = 1 then pure (.boolean true)
      else throw (.invalidBoolean n)) fun _ s segments => ∃ b, n = b.toNat ∧ s = Scalar.boolean b ∧ segments = [] := by
    split_ifs with h₀ h₁
    · refine (reads_pure _).congr fun p s segments => ?_
      simp [h₀]
    · refine (reads_pure _).congr fun p s segments => ?_
      simp [h₁]
    · refine reads_throw _ ?_
      intro p s segments h
      rcases h with ⟨_ | _, rfl, -⟩
      · exact h₀ rfl
      · exact h₁ rfl
  refine ((reads_word 4).bind hcheck).congr fun p s segments => ?_
  constructor
  · intro h
    rcases h with ⟨_, _, _, ⟨hn, rfl⟩, ⟨b, rfl, rfl, rfl⟩, rfl⟩
    exact ⟨⟨rfl, trivial⟩, by simpa [Segment.Fits] using hn, rfl⟩
  · intro h
    rcases h with ⟨⟨htype, -⟩, -, rfl⟩
    cases s <;> cases htype
    rename_i b
    exact ⟨_, _, _, ⟨by cases b <;> decide, rfl⟩, ⟨b, rfl, rfl, rfl⟩, rfl⟩

/-- a text is read and checked by the rules of its kind -/
theorem reads_checked {α : Type} (kind : TextKind) (check : String → Except Error α)
    (hcheck : ∀ text, text.contains '\x00' = false → ((∃ a, check text = .ok a) ↔ kind.Admits text)) :
    Reads (do
        let text ← Decoder.terminated (← Decoder.word kind.alignment)
        let _ ← check text
        return .text kind text)
      (AsLaid (fun s => s.type = .text kind ∧ s.Valid) Scalar.layout) := by
  have h (text : String) := (reads_lift (check text)).bind fun _ => reads_pure (Scalar.text kind text)
  rw [← bind_assoc]
  refine ((reads_text kind).bind h).congr fun p s segments => ?_
  constructor
  · intro h
    rcases h with ⟨text, _, _, ⟨hnul, hfit, rfl⟩, ⟨a, _, _, ⟨ha, rfl⟩, ⟨rfl, rfl⟩, rfl⟩, rfl⟩
    exact ⟨⟨rfl, (hcheck text hnul).1 ⟨a, ha⟩⟩, by simpa using hfit, by simp⟩
  · intro h
    rcases h with ⟨⟨htype, hvalid⟩, hfit, rfl⟩
    cases s <;> cases htype
    rename_i text
    have hnul := TextKind.Admits.contains_nul hvalid
    obtain ⟨a, ha⟩ := (hcheck text hnul).2 hvalid
    exact ⟨text, _, _, ⟨hnul, hfit, rfl⟩, ⟨a, _, _, ⟨ha, rfl⟩, ⟨rfl, rfl⟩, rfl⟩, by simp⟩

theorem decodeBasic_reads (type : Basic) :
    Reads (decodeBasic type) (AsLaid (fun s => s.type = type ∧ s.Valid) Scalar.layout) := by
  cases type with
  | int kind =>
    refine reads_bits kind.size (.int kind) (fun s => ⟨?_, ?_⟩) fun bits => rfl
    · intro h
      rcases h with ⟨htype, -⟩
      cases s <;> cases htype
      exact ⟨_, rfl⟩
    · intro h
      rcases h with ⟨bits, rfl⟩
      exact ⟨rfl, trivial⟩
  | boolean => exact reads_boolean
  | double =>
    refine reads_bits 8 .double (fun s => ⟨?_, ?_⟩) fun bits => rfl
    · intro h
      rcases h with ⟨htype, -⟩
      cases s <;> cases htype
      exact ⟨_, rfl⟩
    · intro h
      rcases h with ⟨bits, rfl⟩
      exact ⟨rfl, trivial⟩
  | text kind =>
    cases kind with
    | string => exact reads_checked .string (fun _ => .ok ()) fun text hnul => by simp [TextKind.Admits, hnul]
    | objectPath =>
      refine reads_checked .objectPath NameKind.objectPath.check fun text _ => ?_
      by_cases h : NameKind.objectPath.accepts text = true <;> simp [NameKind.check, TextKind.Admits, h]
    | signature => exact reads_checked .signature Ty.parse fun text _ => Iff.rfl

/-! ## Arrays -/

section Arrays

variable {α : Type} {step : Decoder α} {E : α → Prop} {place : α → Piece}

/-- the loop of a decoder, one turn taken -/
theorem run_untilPosition_eq (step : Decoder α) (stop steps : Nat) (r : Reader) :
    (Decoder.untilPosition stop step (steps + 1)).run r = if r.position < stop then
      match step.run r with
      | (.error e, next) => (.error e, next)
      | (.ok item, next) =>
        if stop < next.position then (.error (.arrayOverrun next.position stop), next)
        else ((Decoder.untilPosition stop step steps).run next).map (Except.map (item :: ·)) id
      else (.ok [], r) := by
  rw [Decoder.untilPosition, run_get]
  split_ifs
  · rw [run_bind]
    rcases step.run r with ⟨e | item, next⟩
    · rfl
    · dsimp only
      rw [run_get]
      split_ifs
      · rfl
      · rw [run_bind]
        rcases (Decoder.untilPosition stop step steps).run next with ⟨e | items, last⟩ <;> rfl
  · rfl

theorem run_untilPosition_done {stop steps : Nat} {r r' : Reader} {items : List α} (h : stop ≤ r.position) :
    (Decoder.untilPosition stop step steps).run r = (.ok items, r') ↔ items = [] ∧ r' = r := by
  have hdone : (Decoder.untilPosition stop step steps).run r = (.ok [], r) := by
    cases steps with
    | zero =>
      rw [Decoder.untilPosition, run_get, if_neg (not_lt.2 h)]
      rfl
    | succ steps => rw [run_untilPosition_eq, if_neg (not_lt.2 h)]
  rw [hdone, outcome_eq_iff, Except.ok.injEq, eq_comm, @eq_comm _ r]

theorem run_untilPosition_succ {stop steps : Nat} {r r' : Reader} {items : List α} (h : r.position < stop) :
    (Decoder.untilPosition stop step (steps + 1)).run r = (.ok items, r') ↔
      ∃ item rest next, step.run r = (.ok item, next) ∧ next.position ≤ stop ∧
        (Decoder.untilPosition stop step steps).run next = (.ok rest, r') ∧ items = item :: rest := by
  rw [run_untilPosition_eq, if_pos h]
  constructor
  · intro hrun
    rcases hstep : step.run r with ⟨e | item, next⟩
    · rw [hstep] at hrun
      cases hrun
    · rw [hstep] at hrun
      dsimp only at hrun
      split_ifs at hrun with hover
      · cases hrun
      · rcases hrest : (Decoder.untilPosition stop step steps).run next with ⟨e | rest, last⟩
        · rw [hrest] at hrun
          cases hrun
        · rw [hrest] at hrun
          cases hrun
          exact ⟨item, rest, next, rfl, not_lt.1 hover, hrest, rfl⟩
  · rintro ⟨item, rest, next, hstep, hle, hrest, rfl⟩
    rw [hstep]
    dsimp only
    rw [if_neg (not_lt.2 hle), hrest]
    rfl

/-- what items laid out one after another look like to a loop that is to stop at some position -/
def FillsUpTo (E : α → Prop) (place : α → Piece) (order : ByteOrder) (p stop : Nat) (items : List α)
    (bytes : List UInt8) : Prop :=
  (∀ a ∈ items, E a) ∧ AllFit (consecutive (items.map place) p) ∧ Matches order (consecutive (items.map place) p) bytes ∧
    p + size (consecutive (items.map place) p) = stop

theorem fillsUpTo_nil {order : ByteOrder} {p : Nat} {items : List α} {bytes : List UInt8}
    (hpos : ∀ a p, E a → 0 < size (place a p)) : FillsUpTo E place order p p items bytes ↔ items = [] ∧ bytes = [] := by
  constructor
  · intro h
    rcases h with ⟨hE, -, hm, hsize⟩
    cases items with
    | nil => exact ⟨rfl, hm⟩
    | cons a items =>
      have := hpos a p (hE a List.mem_cons_self)
      rw [List.map_cons, consecutive_cons, size_append] at hsize
      omega
  · intro h
    rcases h with ⟨rfl, rfl⟩
    exact ⟨by simp, by simp, rfl, rfl⟩

theorem fillsUpTo_cons {order : ByteOrder} {p stop : Nat} {a : α} {items : List α} {bytes : List UInt8} :
    FillsUpTo E place order p stop (a :: items) bytes ↔
      ∃ front back, bytes = front ++ back ∧ E a ∧ AllFit (place a p) ∧ Matches order (place a p) front ∧
        FillsUpTo E place order (p + size (place a p)) stop items back := by
  simp only [FillsUpTo, List.map_cons, consecutive_cons, allFit_append, matches_append, size_append, Nat.add_assoc,
    List.forall_mem_cons]
  constructor
  · intro h
    rcases h with ⟨⟨ha, hE⟩, ⟨hfit, hfits⟩, ⟨front, back, rfl, hm, hms⟩, hsize⟩
    exact ⟨front, back, rfl, ha, hfit, hm, hE, hfits, hms, hsize⟩
  · intro h
    rcases h with ⟨front, back, rfl, ha, hfit, hm, hE, hfits, hms, hsize⟩
    exact ⟨⟨ha, hE⟩, ⟨hfit, hfits⟩, ⟨front, back, rfl, hm, hms⟩, hsize⟩

/-- **Items are read just up to the stop**, each of them being at least one byte long. -/
theorem run_untilPosition (hstep : Reads step (AsLaid E place)) (hpos : ∀ a p, E a → 0 < size (place a p))
    {order : ByteOrder} {p stop steps : Nat} {data : List UInt8} {items : List α} {r : Reader} (hle : p ≤ stop)
    (hsteps : stop ≤ p + steps) :
    (Decoder.untilPosition stop step steps).run ⟨order, p, data⟩ = (.ok items, r) ↔
      ∃ bytes rest, FillsUpTo E place order p stop items bytes ∧ data = bytes ++ rest ∧ r = ⟨order, stop, rest⟩ := by
  induction steps generalizing p data items with
  | zero =>
    obtain rfl : p = stop := by omega
    rw [run_untilPosition_done (le_refl p)]
    simp [fillsUpTo_nil hpos]
  | succ steps ih =>
    obtain rfl | hlt := Nat.eq_or_lt_of_le hle
    · rw [run_untilPosition_done (le_refl p)]
      simp [fillsUpTo_nil hpos]
    · rw [run_untilPosition_succ hlt]
      constructor
      · intro h
        rcases h with ⟨a, items, next, ha, hnext, hrun, rfl⟩
        obtain ⟨_, front, data, ⟨hE, hfit, rfl⟩, hm, rfl, rfl⟩ := (hstep _ _ _ _ _).1 ha
        have := hpos a p hE
        have hle' : p + size (place a p) ≤ stop := hnext
        obtain ⟨back, rest, hfills, rfl, rfl⟩ := (ih hle' (by omega)).1 hrun
        exact ⟨front ++ back, rest, fillsUpTo_cons.2 ⟨front, back, rfl, hE, hfit, hm, hfills⟩,
          (List.append_assoc ..).symm, rfl⟩
      · intro h
        rcases h with ⟨bytes, rest, hfills, rfl, rfl⟩
        cases items with
        | nil => exact absurd hfills.2.2.2 (by simp; omega)
        | cons a items =>
          obtain ⟨front, back, rfl, hE, hfit, hm, hfills⟩ := fillsUpTo_cons.1 hfills
          have := hpos a p hE
          have hnext : p + size (place a p) ≤ stop := by
            have := hfills.2.2.2
            omega
          refine ⟨a, items, ⟨order, p + size (place a p), back ++ rest⟩, ?_, hnext, ?_, rfl⟩
          · exact (hstep _ _ _ _ _).2 ⟨_, front, back ++ rest, ⟨hE, hfit, rfl⟩, hm, List.append_assoc .., rfl⟩
          · exact (ih hnext (by omega)).2 ⟨back, rest, hfills, rfl, rfl⟩

/-- read a length, and items up to where they end by it -/
def readMeasured (alignment : Nat) (step : Decoder α) (collect : List α → Value) : Decoder Value := do
  let length ← Decoder.word 4
  if maxArrayLength < length then throw (.arrayTooLong length)
  Decoder.align alignment
  let r ← get
  if !hasAtLeast length r.rest then throw (r.shortage length)
  let stop := r.position + length
  return collect (← Decoder.untilPosition stop step length)

/-- the length of an array, and the padding in front of its first element -/
def readLength (alignment : Nat) : Decoder Nat := do
  let length ← Decoder.word 4
  if maxArrayLength < length then throw (.arrayTooLong length)
  Decoder.align alignment
  return length

/-- the elements of an array behind its length -/
def readItems (step : Decoder α) (collect : List α → Value) (length : Nat) : Decoder Value := do
  let r ← get
  if !hasAtLeast length r.rest then throw (r.shortage length)
  return collect (← Decoder.untilPosition (r.position + length) step length)

theorem readMeasured_eq (alignment : Nat) (step : Decoder α) (collect : List α → Value) :
    readMeasured alignment step collect = readLength alignment >>= readItems step collect := by
  unfold readMeasured readLength
  rw [bind_assoc]
  refine congrArg (Decoder.word 4 >>= ·) (funext fun length => ?_)
  split_ifs
  · rfl
  · simp only [bind_assoc, pure_bind]
    rfl

theorem reads_items (hstep : Reads step (AsLaid E place)) (hpos : ∀ a p, E a → 0 < size (place a p))
    (collect : List α → Value) (length : Nat) :
    Reads (readItems step collect length) fun p v segments => ∃ items, v = collect items ∧ size segments = length ∧
        AsLaid (fun items => ∀ a ∈ items, E a) (fun items => consecutive (items.map place)) p items segments := by
  intro order p data v r
  rw [readItems, run_get]
  constructor
  · intro hrun
    split_ifs at hrun with hlen
    · cases hrun
    · obtain ⟨items, last, hitems, hpure⟩ := run_bind_eq_ok.1 hrun
      cases hpure
      obtain ⟨bytes, rest, ⟨hE, hfit, hm, hsize⟩, rfl, rfl⟩ :=
        (run_untilPosition hstep hpos (Nat.le_add_right _ _) (le_refl _)).1 hitems
      exact ⟨_, bytes, rest, ⟨items, rfl, by omega, hE, hfit, rfl⟩, hm, rfl, by rw [hsize]⟩
  · intro h
    rcases h with ⟨_, bytes, rest, ⟨items, rfl, hsize, hE, hfit, rfl⟩, hm, rfl, rfl⟩
    have hlen : hasAtLeast length (bytes ++ rest) = true := by
      rw [hasAtLeast_iff, List.length_append, hm.length_eq]
      omega
    rw [hlen, Bool.not_true, if_neg Bool.false_ne_true]
    refine run_bind_eq_ok.2 ⟨items, _, ?_, rfl⟩
    exact (run_untilPosition hstep hpos (Nat.le_add_right _ _) (le_refl _)).2
      ⟨bytes, rest, ⟨hE, hfit, hm, by rw [hsize]⟩, rfl, by rw [hsize]⟩

/-- the length of an array that is not too long, up to its first element -/
theorem reads_length (alignment : Nat) :
    Reads (readLength alignment) fun p length segments => length ≤ maxArrayLength ∧
      segments = [.padding (padding p 4), .length length, .padding (padding (p + padding p 4 + 4) alignment)] := by
  have hword := reads_spelled 4 .length (fun _ => rfl) fun _ _ _ => Iff.rfl
  have hchecked (length : Nat) : Reads (do
        if maxArrayLength < length then throw (.arrayTooLong length)
        Decoder.align alignment
        return length)
      fun p n segments => length ≤ maxArrayLength ∧ n = length ∧ segments = [.padding (padding p alignment)] := by
    by_cases hlong : maxArrayLength < length
    · rw [if_pos hlong]
      exact reads_throw _ fun _ _ _ h => absurd h.1 (not_le.2 hlong)
    · rw [if_neg hlong]
      refine ((reads_align alignment).bind fun _ => reads_pure length).congr fun p n segments => ?_
      constructor
      · rintro ⟨_, _, _, rfl, ⟨rfl, rfl⟩, rfl⟩
        exact ⟨not_lt.1 hlong, rfl, rfl⟩
      · rintro ⟨-, rfl, rfl⟩
        exact ⟨(), _, _, rfl, ⟨rfl, rfl⟩, rfl⟩
  refine (hword.bind hchecked).congr fun p length segments => ?_
  have hstart (n : Nat) : p + size [.padding (padding p 4), .length n] = p + padding p 4 + 4 := by
    simp [Segment.size, Nat.add_assoc]
  constructor
  · rintro ⟨_, _, _, ⟨-, rfl⟩, ⟨hle, rfl, rfl⟩, rfl⟩
    refine ⟨hle, ?_⟩
    rw [hstart]
    rfl
  · rintro ⟨hle, rfl⟩
    refine ⟨length, _, _, ⟨lt_of_le_of_lt hle (by decide), rfl⟩, ⟨hle, rfl, rfl⟩, ?_⟩
    rw [hstart]
    rfl

theorem reads_measured (alignment : Nat) (hstep : Reads step (AsLaid E place))
    (hpos : ∀ a p, E a → 0 < size (place a p)) (collect : List α → Value) :
    Reads (readMeasured alignment step collect) fun p v segments =>
      ∃ items, v = collect items ∧
        AsLaid (fun items => ∀ a ∈ items, E a) (fun items => measured alignment (consecutive (items.map place))) p items
          segments := by
  rw [readMeasured_eq]
  refine ((reads_length alignment).bind fun length => reads_items hstep hpos collect length).congr fun p v segments => ?_
  have hstart (n m : Nat) : p + size [.padding (padding p 4), .length n, .padding m] = p + padding p 4 + 4 + m := by
    simp [Segment.size, Nat.add_assoc]
  constructor
  · rintro ⟨_, _, content, ⟨hle, rfl⟩, ⟨items, rfl, rfl, hE, hfit, hcontent⟩, rfl⟩
    rw [hstart] at hcontent
    refine ⟨items, rfl, hE, ?_, ?_⟩
    · exact (allFit_append _ _).2 ⟨(allFit_cons _ _).2 ⟨trivial, (allFit_cons _ _).2 ⟨hle, (allFit_cons _ _).2
        ⟨trivial, allFit_nil⟩⟩⟩, hfit⟩
    · dsimp only at hcontent ⊢
      rw [measured_eq rfl, ← hcontent]
  · rintro ⟨items, rfl, hE, hfit, rfl⟩
    dsimp only at hfit ⊢
    rw [measured_eq rfl] at hfit ⊢
    obtain ⟨hfront, hfits⟩ := (allFit_append _ _).1 hfit
    have hle := hfront _ (List.mem_cons_of_mem _ List.mem_cons_self)
    refine ⟨_, _, _, ⟨hle, rfl⟩, ⟨items, rfl, rfl, hE, hfits, ?_⟩, rfl⟩
    rw [hstart]

end Arrays

/-! ## Values -/

open Value (Exact)

section Values

variable {α β : Type} {d : Decoder α} {e : Decoder β} {E : α → Prop} {F : β → Prop} {place : α → Piece}
  {place' : β → Piece}

theorem Reads.asLaid {x : Decoder β} {g : α → β}
    (h : Reads x fun p b segments => ∃ a, b = g a ∧ AsLaid E place p a segments) (hF : ∀ b, F b ↔ ∃ a, b = g a ∧ E a)
    (hplace : ∀ a, place' (g a) = place a) : Reads x (AsLaid F place') := by
  refine h.congr fun p b segments => ?_
  constructor
  · intro h
    rcases h with ⟨a, rfl, ha, hfit, rfl⟩
    exact ⟨(hF _).2 ⟨a, rfl, ha⟩, hfit, by rw [hplace]⟩
  · intro h
    rcases h with ⟨hb, hfit, rfl⟩
    obtain ⟨a, rfl, ha⟩ := (hF b).1 hb
    exact ⟨a, rfl, ha, hfit, by rw [hplace]⟩

/-- the same value in another form -/
theorem Reads.map (h : Reads d (AsLaid E place)) (g : α → β) (hF : ∀ b, F b ↔ ∃ a, b = g a ∧ E a)
    (hplace : ∀ a, place' (g a) = place a) : Reads (do return g (← d)) (AsLaid F place') := by
  refine Reads.asLaid ((h.bind fun a => reads_pure (g a)).congr fun p b segments => ?_) hF hplace
  constructor
  · intro h
    rcases h with ⟨a, s, _, ha, ⟨rfl, rfl⟩, rfl⟩
    exact ⟨a, rfl, by simpa using ha⟩
  · intro h
    rcases h with ⟨a, rfl, ha⟩
    exact ⟨a, segments, [], ha, ⟨rfl, rfl⟩, (List.append_nil _).symm⟩

theorem Reads.behindAlign (h : Reads d (AsLaid E place)) (alignment : Nat) :
    Reads (do Decoder.align alignment; d) (AsLaid E fun a => aligned alignment (place a)) := by
  refine ((reads_align alignment).bind fun _ => h).congr fun p a segments => ?_
  have hpos : p + size [.padding (padding p alignment)] = p + padding p alignment := by simp [Segment.size]
  constructor
  · intro h
    rcases h with ⟨_, _, _, rfl, ⟨ha, hfit, rfl⟩, rfl⟩
    rw [hpos] at hfit ⊢
    exact ⟨ha, (allFit_cons _ _).2 ⟨trivial, hfit⟩, rfl⟩
  · intro h
    rcases h with ⟨ha, hfit, rfl⟩
    refine ⟨(), _, _, rfl, ⟨ha, ((allFit_cons _ _).1 hfit).2, ?_⟩, rfl⟩
    rw [hpos]

theorem Reads.pair (hd : Reads d (AsLaid E place)) (he : Reads e (AsLaid F place')) :
    Reads (do
        let a ← d
        return (a, ← e))
      (AsLaid (fun x => E x.1 ∧ F x.2) fun x => consecutive [place x.1, place' x.2]) := by
  refine (hd.bind fun a => he.bind fun b => reads_pure (a, b)).congr fun p x segments => ?_
  constructor
  · intro h
    rcases h with ⟨a, _, _, ⟨ha, hfit, rfl⟩, ⟨b, _, _, ⟨hb, hfit', rfl⟩, ⟨rfl, rfl⟩, rfl⟩, rfl⟩
    exact ⟨⟨ha, hb⟩, by simp [hfit, hfit'], by simp [consecutive_pair]⟩
  · intro h
    rcases h with ⟨⟨ha, hb⟩, hfit, rfl⟩
    dsimp only at hfit
    rw [consecutive_pair, allFit_append] at hfit
    exact ⟨x.1, _, _, ⟨ha, hfit.1, rfl⟩, ⟨x.2, _, _, ⟨hb, hfit.2, rfl⟩, ⟨rfl, rfl⟩, rfl⟩, by simp [consecutive_pair]⟩

theorem Reads.lift_bind {x : Except Error α} {f : α → Decoder β} {R : Nat → β → List Segment → Prop}
    (hok : ∀ a, x = .ok a → Reads (f a) R) (herr : ∀ error, x = .error error → ∀ p b segments, ¬R p b segments) :
    Reads (liftM x >>= f) R := by
  cases x with
  | error error => exact reads_throw error (herr error rfl)
  | ok a => exact hok a rfl

/-- a value for each type, wherever single values are read off the layouts of exact ones -/
theorem reads_mapM {levels : Nat} {types : List Ty} {f : Ty → Decoder Value}
    (h : ∀ type ∈ types, Reads (f type) (AsLaid (Exact levels type) (layout type))) :
    Reads (types.mapM f) (AsLaid (List.Forall₂ (Exact levels) types) (layoutAll types)) := by
  induction types with
  | nil =>
    refine (reads_pure []).congr fun p vs segments => ?_
    constructor
    · intro h
      rcases h with ⟨rfl, rfl⟩
      exact ⟨.nil, allFit_nil, rfl⟩
    · intro h
      rcases h with ⟨hvs, -, rfl⟩
      cases hvs
      exact ⟨rfl, rfl⟩
  | cons type types ih =>
    have htail := ih fun t ht => h t (List.mem_cons_of_mem _ ht)
    rw [List.mapM_cons]
    refine ((h type List.mem_cons_self).bind fun v => htail.bind fun vs => reads_pure (v :: vs)).congr fun p vs segments => ?_
    constructor
    · intro h
      rcases h with ⟨v, _, _, ⟨hv, hfit, rfl⟩, ⟨vs, _, _, ⟨hvs, hfits, rfl⟩, ⟨rfl, rfl⟩, rfl⟩, rfl⟩
      exact ⟨.cons hv hvs, by simp [hfit, hfits], by simp [layoutAll, consecutive_pair]⟩
    · intro h
      rcases h with ⟨hvs, hfit, rfl⟩
      cases hvs with
      | cons hv hvs =>
        rw [layoutAll, consecutive_pair, allFit_append] at hfit
        exact ⟨_, _, _, ⟨hv, hfit.1, rfl⟩, ⟨_, _, _, ⟨hvs, hfit.2, rfl⟩, ⟨rfl, rfl⟩, rfl⟩,
          by simp [layoutAll, consecutive_pair]⟩

theorem decodeWithin_array {levels : Nat} {element : Ty} (h : element.Shaped) :
    decodeWithin (levels + 1) (.array element)
      = readMeasured element.alignment (decodeWithin levels element) .array := by
  cases h <;> rfl

theorem decodeWithin_dict (levels : Nat) (key value : Ty) :
    decodeWithin (levels + 1) (.array (.dictEntry key value))
      = readMeasured 8 (do
          Decoder.align 8
          let key ← decodeWithin levels key
          return (key, ← decodeWithin levels value)) .dict := rfl

/-- a variant is read off the text of its type and the layout of its content -/
theorem decodeVariant_reads {levels : Nat}
    (ih : ∀ {type}, type.Shaped → Reads (decodeWithin levels type) (AsLaid (Exact levels type) (layout type))) :
    Reads (decodeWithin (levels + 1) .variant) (AsLaid (Exact (levels + 1) .variant) (layout .variant)) := by
  have hcontent (text : String) : Reads (do
        let type ← Ty.parseSingle text
        return Value.variant type (← decodeWithin levels type))
      fun p v segments => ∃ type u, text = type.text ∧ v = .variant type u ∧ Ty.parse type.text = .ok [type] ∧
        AsLaid (Exact levels type) (layout type) p u segments := by
    refine .lift_bind (fun type hp => ?_) fun error hp => ?_
    · rw [Ty.parseSingle_eq_ok_iff] at hp
      obtain rfl : type.text = text := (Ty.textAll_singleton type).symm.trans (Ty.parse_sound hp).2.1
      refine ((ih (Value.shaped_of_parse hp)).bind fun u => reads_pure (Value.variant type u)).congr fun p v segments => ?_
      constructor
      · intro h
        rcases h with ⟨u, s, _, hu, ⟨rfl, rfl⟩, rfl⟩
        exact ⟨type, u, rfl, rfl, hp, by simpa using hu⟩
      · intro h
        rcases h with ⟨type', u, htext, rfl, hp', hu⟩
        obtain rfl : type' = type := by
          rw [htext, hp'] at hp
          cases hp
          rfl
        exact ⟨u, segments, [], hu, ⟨rfl, rfl⟩, (List.append_nil _).symm⟩
    · intro p v segments h
      rcases h with ⟨type, u, rfl, -, hp', -⟩
      rw [Ty.parseSingle_eq_ok_iff.2 hp'] at hp
      cases hp
  have h := (reads_text .signature).bind hcontent
  rw [bind_assoc] at h
  refine h.congr fun p v segments => ?_
  constructor
  · intro h
    rcases h with ⟨_, _, _, ⟨-, hfit, rfl⟩, ⟨type, u, rfl, rfl, hp, hu, hfits, rfl⟩, rfl⟩
    exact ⟨⟨hp, hu⟩, (allFit_append _ _).2 ⟨hfit, hfits⟩, by rw [layout, consecutive_pair]⟩
  · intro h
    rcases h with ⟨hv, hfit, rfl⟩
    obtain ⟨type, u, rfl, hp, hu⟩ := Value.exact_variant.1 hv
    rw [layout, consecutive_pair, allFit_append] at hfit
    have hnul := TextKind.Admits.contains_nul (show TextKind.signature.Admits type.text from ⟨_, hp⟩)
    exact ⟨_, _, _, ⟨hnul, hfit.1, rfl⟩, ⟨type, u, rfl, rfl, hp, hu, hfit.2, rfl⟩, by rw [layout, consecutive_pair]⟩

/-- **A value of a type is read off the layouts of exact values**, which are those of the type's own kinds. -/
theorem decodeWithin_reads {levels : Nat} {type : Ty} (hs : type.Shaped) :
    Reads (decodeWithin levels type) (AsLaid (Exact levels type) (layout type)) := by
  induction levels generalizing type with
  | zero => exact reads_throw _ fun _ _ _ h => h.1
  | succ levels ih =>
    cases hs with
    | basic type => exact (decodeBasic_reads type).map Value.scalar (fun v => Value.exact_basic) fun s => rfl
    | variant => exact decodeVariant_reads ih
    | @array element hs =>
      rw [decodeWithin_array hs]
      exact (reads_measured _ (ih hs) (fun _ p h => size_layout_pos hs h p) .array).asLaid
        (fun v => Value.exact_array hs) (layout_array hs)
    | @dict key value hs =>
      rw [decodeWithin_dict]
      have hentry := ((ih (.basic key)).pair (ih hs)).behindAlign 8
      refine (reads_measured _ hentry (fun x p h => ?_) .dict).asLaid (fun v => Value.exact_dict) fun entries => ?_
      · have := size_layout_pos (.basic key) h.1 (p + padding p 8)
        rw [size_aligned, consecutive_pair, size_append]
        omega
      · rw [layout, layoutEntries_eq]
    | @struct types hne hs =>
      have hfields := (reads_mapM fun type ht => ih (hs type ht)).behindAlign 8
      have h : Reads _ (AsLaid (Exact (levels + 1) (.struct types)) (layout (.struct types))) :=
        hfields.map Value.struct (fun v => Value.exact_struct) fun vs => rfl
      rw [bind_assoc] at h
      exact h

end Values

end MessageBus.Wire
