/-
Lengths that are filled in later, in any order.

A length word is reserved before its number is known. A program may hold many such words at once, move the start of what they
measure, copy them, and fill them in at any time and more than once, with anything written in between. `Draft` is a writer
with the tokens that are held for it, and `Edit` is what can be done with them.

Whatever is done, the words lie apart, each in the buffer behind which its measured bytes start (`Draft.Inv`), and bytes that
are no reserved word stay as they are (`run_grows`). What an encoder does, even one that fails, is a run of such edits on
tokens of its own (`stepwise_traced`). So filling in a length is safe at any time, and tells the number of bytes since the
measured ones began (`backfill_safe`).
-/
import Mathlib
import MessageBus.Proofs.Wire.Refusals

namespace MessageBus.Wire

/-! ## Bytes that stay -/

theorem getElem?_overwrite_outside {data : Array UInt8} {index k : Nat} {bytes : List UInt8}
    (h : k < index ∨ index + bytes.length ≤ k) : (overwrite data index bytes)[k]? = data[k]? := by
  induction bytes generalizing data index with
  | nil => rfl
  | cons byte bytes ih =>
    rw [List.length_cons] at h
    rw [overwrite, ih (by omega), Array.getElem?_setIfInBounds_ne (by omega)]

theorem getElem?_overwrite_inside {data : Array UInt8} {index i : Nat} {bytes : List UInt8} (hi : i < bytes.length)
    (h : index + bytes.length ≤ data.size) : (overwrite data index bytes)[index + i]? = bytes[i]? := by
  induction bytes generalizing data index i with
  | nil => cases hi
  | cons byte bytes ih =>
    rw [List.length_cons] at hi h
    rw [overwrite]
    cases i with
    | zero =>
      rw [getElem?_overwrite_outside (by omega), Nat.add_zero, Array.getElem?_setIfInBounds_self_of_lt (by omega)]
      rfl
    | succ i =>
      have hstep : index + (i + 1) = index + 1 + i := by omega
      rw [hstep, ih (by omega) (by rw [Array.size_setIfInBounds]; omega), List.getElem?_cons_succ]

/-- a writer has gone on: no byte is gone, and none has changed but spared ones -/
structure Writer.Grows (spared : Nat → Prop) (w w' : Writer) : Prop where
  order : w'.order = w.order
  size_le : w.data.size ≤ w'.data.size
  kept : ∀ k < w.data.size, ¬spared k → w'.data[k]? = w.data[k]?

namespace Writer.Grows

variable {spared spared' : Nat → Prop} {w w' w'' : Writer}

theorem refl (w : Writer) : Grows spared w w := ⟨rfl, le_rfl, fun _ _ _ => rfl⟩

theorem append (w : Writer) (bytes : List UInt8) : Grows spared w (w.append bytes) where
  order := rfl
  size_le := by simp
  kept k hk _ := by
    rw [← Array.getElem?_toList, ← Array.getElem?_toList, Writer.toList_append, List.getElem?_append_left (by simpa)]

/-- what is spared in the second part may be spared in all, as far as it was there before -/
theorem trans (h : Grows spared w w') (h' : Grows spared' w' w'') (hspared : ∀ k < w.data.size, spared' k → spared k) :
    Grows spared w w'' where
  order := h'.order.trans h.order
  size_le := h.size_le.trans h'.size_le
  kept k hk hno := by rw [h'.kept k (by have := h.size_le; omega) fun hs => hno (hspared k hk hs), h.kept k hk hno]

theorem mono (h : Grows spared w w') (hspared : ∀ k, spared k → spared' k) : Grows spared' w w' :=
  ⟨h.order, h.size_le, fun k hk hno => h.kept k hk fun hs => hno (hspared k hs)⟩

end Writer.Grows

/-! ## What encoders leave -/

/-- an encoder only writes behind what was written before, whether it succeeds or fails -/
def Appends {α : Type} (e : Encoder α) : Prop := ∀ w, ∃ bytes, (e.run w).2 = w.append bytes

section Appends

variable {α β : Type} {e : Encoder α} {f : α → Encoder β}

theorem appends_same (h : ∀ w, (e.run w).2 = w) : Appends e := fun w => ⟨[], by rw [h, Writer.append_nil]⟩

theorem Appends.bind (he : Appends e) (hf : ∀ a, Appends (f a)) : Appends (e >>= f) := by
  intro w
  obtain ⟨bytes, hbytes⟩ := he w
  rw [run_bind]
  rcases hrun : e.run w with ⟨error | a, next⟩
  · exact ⟨bytes, by rw [← hbytes, hrun]⟩
  · obtain ⟨more, hmore⟩ := hf a next
    refine ⟨bytes ++ more, ?_⟩
    rw [← Writer.append_append, ← hbytes, hrun]
    exact hmore

/-- what is left of an array: its length is filled in only when the body was written -/
theorem run_writeMeasured_snd (alignment : Nat) (body : Encoder Unit) (w : Writer) :
    let start := ((w.align 4).append [0, 0, 0, 0]).align alignment
    ((writeMeasured alignment body).run w).2 = match body.run start with
      | (.ok _, done) => (done.finishLength ⟨(w.align 4).data.size, start.data.size⟩).2
      | (.error _, done) => done := by
  intro start
  simp only [writeMeasured, run_bind, Encoder.run_startLength, Encoder.run_align, Encoder.run_beginLength,
    Encoder.run_finishLength]
  have hslot : start.beginLength w.startLength.1 = ⟨(w.align 4).data.size, start.data.size⟩ := rfl
  rw [show w.startLength.2.align alignment = start from rfl, hslot]
  rcases body.run start with ⟨error | _, done⟩
  · rfl
  · dsimp only
    split_ifs <;> rfl

theorem appends_measured (alignment : Nat) {body : Encoder Unit} (h : Appends body) :
    Appends (writeMeasured alignment body) := by
  intro w
  obtain ⟨pad, hpad⟩ : ∃ pad, ((w.align 4).append [0, 0, 0, 0]).align alignment = (w.align 4).append ([0, 0, 0, 0] ++ pad) :=
    ⟨_, Writer.append_append ..⟩
  obtain ⟨content, hcontent⟩ := h ((w.align 4).append ([0, 0, 0, 0] ++ pad))
  rw [run_writeMeasured_snd, hpad]
  rcases hrun : body.run ((w.align 4).append ([0, 0, 0, 0] ++ pad)) with ⟨error | _, done⟩
  · rw [hrun] at hcontent
    dsimp only at hcontent ⊢
    rw [hcontent, Writer.append_append]
    exact ⟨_, Writer.append_append ..⟩
  · rw [hrun] at hcontent
    have hfilled := congrArg Prod.snd (finishLength_append (w.align 4) pad content)
    dsimp only at hcontent hfilled ⊢
    rw [hcontent, hfilled]
    exact ⟨_, Writer.append_append ..⟩

theorem stepwise_appends : Encoder.Stepwise Appends where
  pure _ := appends_same fun _ => rfl
  throw _ := appends_same fun _ => rfl
  lift _ := appends_same fun _ => rfl
  bind := .bind
  append bytes _ := ⟨bytes, rfl⟩
  align _ _ := ⟨_, rfl⟩
  put _ _ _ := ⟨_, Writer.append_append ..⟩
  measured _ _ hbody := appends_measured _ hbody

/-- **An encoder leaves what was written before as it is**, also when it fails. -/
theorem encode_appends (type : Ty) (value : Value) : Appends (encode type value) := stepwise_appends.encodeWithin _ type value

theorem encode_grows {spared : Nat → Prop} (type : Ty) (value : Value) (w : Writer) :
    w.Grows spared ((encode type value).run w).2 := by
  obtain ⟨bytes, hbytes⟩ := encode_appends type value w
  exact hbytes ▸ .append w bytes

end Appends

/-! ## Programs that hold reserved words -/

/-- a reserved word that a program holds; a clone has everything from the token that it was made of -/
structure Token where
  slot : LengthSlot
  /-- which of all reservations it comes from -/
  origin : Nat
  /-- the writer when the measured bytes began -/
  begun : Writer
  deriving DecidableEq, Repr

/-- a writer and the tokens held for it, with all words that were ever reserved, in order -/
structure Draft where
  writer : Writer
  tokens : List Token
  words : List Nat
  deriving DecidableEq, Repr

/-- what can be done next, where tokens are told by their number among those held -/
inductive Edit where
  | align (alignment : Nat)
  | append (bytes : List UInt8)
  | encode (type : Ty) (value : Value)
  | startLength
  | beginLength (token : Nat)
  | clone (token : Nat)
  | finishLength (token : Nat)

namespace Draft

def new (order : ByteOrder) (base : Nat) : Draft := ⟨.new order base, [], []⟩

/-- one action; no token is used up, as one that is finished may have been a clone -/
def act (d : Draft) : Edit → Draft
  | .align alignment => { d with writer := d.writer.align alignment }
  | .append bytes => { d with writer := d.writer.append bytes }
  | .encode type value => { d with writer := ((encode type value).run d.writer).2 }
  | .startLength =>
    let (slot, writer) := d.writer.startLength
    ⟨writer, d.tokens ++ [⟨slot, d.words.length, writer⟩], d.words ++ [slot.word]⟩
  | .beginLength i =>
    match d.tokens[i]? with
    | some token =>
      { d with tokens := d.tokens.set i { token with slot := d.writer.beginLength token.slot, begun := d.writer } }
    | none => d
  | .clone i => { d with tokens := d.tokens ++ d.tokens[i]?.toList }
  | .finishLength i =>
    match d.tokens[i]? with
    | some token => { d with writer := (d.writer.finishLength token.slot).2 }
    | none => d

def run (d : Draft) (edits : List Edit) : Draft := edits.foldl act d

@[simp] theorem run_nil (d : Draft) : d.run [] = d := rfl

@[simp] theorem run_cons (d : Draft) (a : Edit) (edits : List Edit) : d.run (a :: edits) = (d.act a).run edits := rfl

theorem run_append (d : Draft) (before after : List Edit) : d.run (before ++ after) = (d.run before).run after :=
  List.foldl_append

/-- a byte of a word that was reserved -/
def Reserves (d : Draft) (k : Nat) : Prop := ∃ word ∈ d.words, word ≤ k ∧ k < word + 4

/-- a token knows its word and where its bytes began, and all that was written before is still there -/
structure Holds (d : Draft) (token : Token) : Prop where
  origin : d.words[token.origin]? = some token.slot.word
  start : token.slot.start = token.begun.data.size
  begun : token.begun.Grows d.Reserves d.writer

/-- the words that were reserved lie apart and in the buffer -/
structure Inv (d : Draft) : Prop where
  apart : d.words.Pairwise fun word later => word + 4 ≤ later
  within : ∀ word ∈ d.words, word + 4 ≤ d.writer.data.size
  holds : ∀ token ∈ d.tokens, d.Holds token

theorem inv_new (order : ByteOrder) (base : Nat) : (new order base).Inv := by
  constructor <;> simp [new]

/-! ## Every action keeps them -/

variable {d : Draft} {k : Nat}

theorem word_le_startLength (w : Writer) : w.data.size ≤ w.startLength.1.word := by
  simp [Writer.startLength, Writer.align]

theorem startLength_word (w : Writer) : w.startLength.1.word + 4 = w.startLength.2.data.size := by
  simp [Writer.startLength]

theorem startLength_grows {spared : Nat → Prop} (w : Writer) : w.Grows spared w.startLength.2 :=
  (Writer.Grows.append w _).trans (.append _ _) fun _ _ => id

theorem finishLength_grows (w : Writer) (slot : LengthSlot) :
    w.Grows (fun k => slot.word ≤ k ∧ k < slot.word + 4) (w.finishLength slot).2 where
  order := rfl
  size_le := (size_overwrite ..).ge
  kept k _ hno := getElem?_overwrite_outside (by rw [ByteOrder.length_bytes]; omega)

/-- the bytes of new words lie behind all there was -/
theorem act_reserves (a : Edit) (hk : k < d.writer.data.size) (h : (d.act a).Reserves k) : d.Reserves k := by
  cases a with
  | startLength =>
    obtain ⟨word, hword, hle, hlt⟩ := h
    obtain hword | hword := List.mem_append.1 hword
    · exact ⟨word, hword, hle, hlt⟩
    · have hnew : word = d.writer.startLength.1.word := List.mem_singleton.1 hword
      have hbehind := word_le_startLength d.writer
      omega
  | beginLength i | finishLength i =>
    simp only [act] at h
    split at h <;> exact h
  | _ => exact h

/-- an action leaves all bytes but those of reserved words as they are -/
theorem act_grows (h : d.Inv) (a : Edit) : d.writer.Grows d.Reserves (d.act a).writer := by
  cases a with
  | align | append => exact .append _ _
  | encode type value => exact encode_grows type value d.writer
  | startLength => exact startLength_grows d.writer
  | beginLength i =>
    simp only [act]
    split <;> exact .refl _
  | clone => exact .refl _
  | finishLength i =>
    simp only [act]
    split
    · rename_i token htoken
      have hword := List.mem_of_getElem? (h.holds token (List.mem_of_getElem? htoken)).origin
      exact (finishLength_grows d.writer token.slot).mono fun k hk => ⟨_, hword, hk⟩
    · exact .refl _

/-- a token of a draft that has gone on -/
theorem Holds.mono {d' : Draft} {token : Token} (h : d.Holds token) (hwords : d.words <+: d'.words)
    (hgrows : d.writer.Grows d.Reserves d'.writer) : d'.Holds token where
  origin := by
    obtain ⟨more, hmore⟩ := hwords
    rw [← hmore, List.getElem?_append_left (List.getElem?_eq_some_iff.1 h.origin).1, h.origin]
  start := h.start
  begun := (h.begun.trans hgrows fun _ _ => id).mono fun k hk => by
    obtain ⟨word, hword, hbyte⟩ := hk
    exact ⟨word, hwords.subset hword, hbyte⟩

/-- the same words, and tokens for which it can be said where their bytes began -/
theorem Inv.next {d' : Draft} (h : d.Inv) (hwords : d'.words = d.words) (hgrows : d.writer.Grows d.Reserves d'.writer)
    (htokens : ∀ token ∈ d'.tokens, d.Holds token ∨ d'.Holds token) : d'.Inv where
  apart := hwords ▸ h.apart
  within word hword := (h.within word (hwords ▸ hword)).trans hgrows.size_le
  holds token htoken := (htokens token htoken).elim (fun hold => hold.mono (by rw [hwords]) hgrows) id

theorem Inv.startLength (h : d.Inv) : (d.act .startLength).Inv where
  apart := by
    refine List.pairwise_append.2 ⟨h.apart, List.pairwise_singleton _ _, fun word hword later hlater => ?_⟩
    rw [List.mem_singleton.1 hlater]
    exact (h.within word hword).trans (word_le_startLength d.writer)
  within word hword := by
    obtain hword | hword := List.mem_append.1 hword
    · have hgrows : d.writer.Grows d.Reserves d.writer.startLength.2 := startLength_grows d.writer
      exact (h.within word hword).trans hgrows.size_le
    · rw [List.mem_singleton.1 hword]
      exact (startLength_word d.writer).le
  holds token htoken := by
    obtain htoken | htoken := List.mem_append.1 htoken
    · exact (h.holds token htoken).mono (List.prefix_append _ _) (startLength_grows d.writer)
    · rw [List.mem_singleton.1 htoken]
      exact ⟨List.getElem?_concat_length, startLength_word d.writer, .refl _⟩

theorem act_inv (h : d.Inv) (a : Edit) : (d.act a).Inv := by
  have hgrows := act_grows h a
  cases a with
  | align | append | encode => exact h.next rfl hgrows fun token htoken => .inl (h.holds token htoken)
  | startLength => exact h.startLength
  | beginLength i =>
    simp only [act] at hgrows ⊢
    split
    · rename_i old hold
      refine h.next rfl (.refl _) fun token htoken => ?_
      obtain htoken | rfl := List.mem_or_eq_of_mem_set htoken
      · exact .inl (h.holds token htoken)
      · exact .inr ⟨(h.holds old (List.mem_of_getElem? hold)).origin, rfl, .refl _⟩
    · exact h
  | clone i =>
    refine h.next rfl hgrows fun token htoken => .inl ?_
    obtain htoken | htoken := List.mem_append.1 htoken
    · exact h.holds token htoken
    · exact h.holds token (List.mem_of_getElem? (Option.mem_toList.1 htoken))
  | finishLength i =>
    simp only [act] at hgrows ⊢
    split
    · rename_i old hold
      simp only [hold] at hgrows
      exact h.next rfl hgrows fun token htoken => .inl (h.holds token htoken)
    · exact h

theorem run_inv (h : d.Inv) (edits : List Edit) : (d.run edits).Inv := by
  induction edits generalizing d with
  | nil => exact h
  | cons a edits ih => exact ih (act_inv h a)

/-- **Bytes stay**: whatever is done, nothing that was written is removed, and but for reserved words nothing changes. -/
theorem run_grows (h : d.Inv) (edits : List Edit) : d.writer.Grows d.Reserves (d.run edits).writer := by
  induction edits generalizing d with
  | nil => exact .refl _
  | cons a edits ih => exact (act_grows h a).trans (ih (act_inv h a)) fun _ hk => act_reserves a hk

end Draft

/-! ## What encoders do -/

/-- an edit that is no encode, and leaves alone the first tokens held -/
def Edit.Own (held : Nat) : Edit → Prop
  | encode _ _ => False
  | beginLength i | clone i | finishLength i => held ≤ i
  | align _ | append _ | startLength => True

/-- what comes before the body of something measured, where so many tokens are held already -/
def Edit.opening (alignment held : Nat) : List Edit := [.startLength, .align alignment, .beginLength held]

theorem Edit.opening_own {alignment held : Nat} : ∀ a ∈ Edit.opening alignment held, a.Own held := by
  simp [opening, Own]

theorem Edit.Own.mono {held more : Nat} (hle : held ≤ more) {a : Edit} (h : a.Own more) : a.Own held := by
  cases a with
  | beginLength | clone | finishLength => exact hle.trans h
  | encode => exact h
  | _ => trivial

namespace Draft

variable {d : Draft} {held : Nat}

theorem act_tokens {a : Edit} (hown : a.Own held) (hheld : held ≤ d.tokens.length) :
    held ≤ (d.act a).tokens.length ∧ ∀ i < held, (d.act a).tokens[i]? = d.tokens[i]? := by
  have happend (more : List Token) : held ≤ (d.tokens ++ more).length ∧ ∀ i < held, (d.tokens ++ more)[i]? = d.tokens[i]? := by
    refine ⟨by rw [List.length_append]; omega, fun i hi => List.getElem?_append_left (by omega)⟩
  cases a with
  | encode => exact hown.elim
  | startLength | clone => exact happend _
  | beginLength j =>
    have hj : held ≤ j := hown
    simp only [act]
    split
    · exact ⟨by rwa [List.length_set], fun i hi => List.getElem?_set_ne (by omega)⟩
    · exact ⟨hheld, fun _ _ => rfl⟩
  | finishLength j =>
    simp only [act]
    split <;> exact ⟨hheld, fun _ _ => rfl⟩
  | _ => exact ⟨hheld, fun _ _ => rfl⟩

/-- edits of other tokens leave the first ones as they are -/
theorem run_tokens {edits : List Edit} (hown : ∀ a ∈ edits, a.Own held) (hheld : held ≤ d.tokens.length) :
    held ≤ (d.run edits).tokens.length ∧ ∀ i < held, (d.run edits).tokens[i]? = d.tokens[i]? := by
  induction edits generalizing d with
  | nil => exact ⟨hheld, fun _ _ => rfl⟩
  | cons a edits ih =>
    obtain ⟨hfirst, hrest⟩ := List.forall_mem_cons.1 hown
    obtain ⟨hlength, hsame⟩ := act_tokens hfirst hheld
    obtain ⟨hlength', hsame'⟩ := ih hrest hlength
    exact ⟨hlength', fun i hi => (hsame' i hi).trans (hsame i hi)⟩

/-- a length is reserved and begun behind the alignment: its token is held behind all others -/
theorem run_opening (d : Draft) (alignment : Nat) :
    let start := ((d.writer.align 4).append [0, 0, 0, 0]).align alignment
    d.run (Edit.opening alignment d.tokens.length) =
      ⟨start, d.tokens ++ [⟨⟨(d.writer.align 4).data.size, start.data.size⟩, d.words.length, start⟩],
        d.words ++ [(d.writer.align 4).data.size]⟩ := by
  simp [Edit.opening, act, Writer.startLength, Writer.beginLength]

end Draft

/-- whatever it is that an encoder writes, it is the outcome of edits on tokens of its own, up to where it ends or fails -/
def Traced {α : Type} (e : Encoder α) : Prop :=
  ∀ d : Draft, ∃ edits, (∀ a ∈ edits, a.Own d.tokens.length) ∧ (d.run edits).writer = (e.run d.writer).2

section Traced

variable {α β : Type} {e : Encoder α} {f : α → Encoder β}

theorem traced_same (h : ∀ w, (e.run w).2 = w) : Traced e := fun d => ⟨[], by simp, (h d.writer).symm⟩

theorem Traced.bind (he : Traced e) (hf : ∀ a, Traced (f a)) : Traced (e >>= f) := by
  intro d
  obtain ⟨edits, hown, hwriter⟩ := he d
  rw [run_bind]
  rcases hrun : e.run d.writer with ⟨error | a, next⟩
  · exact ⟨edits, hown, by rw [hwriter, hrun]⟩
  · obtain ⟨more, hmore, hnext⟩ := hf a (d.run edits)
    have hheld := (Draft.run_tokens hown le_rfl).1
    refine ⟨edits ++ more, List.forall_mem_append.2 ⟨hown, fun a ha => (hmore a ha).mono hheld⟩, ?_⟩
    rw [Draft.run_append, hnext, hwriter, hrun]

theorem traced_measured (alignment : Nat) {body : Encoder Unit} (h : Traced body) : Traced (writeMeasured alignment body) := by
  intro d
  obtain ⟨start, hstart⟩ : ∃ start, start = ((d.writer.align 4).append [0, 0, 0, 0]).align alignment := ⟨_, rfl⟩
  have hopened := d.run_opening alignment
  rw [← hstart] at hopened
  obtain ⟨edits, hown, hwriter⟩ := h (d.run (Edit.opening alignment d.tokens.length))
  -- the token of the length is held behind all others, and the body does not touch it
  obtain ⟨-, hsame⟩ := Draft.run_tokens hown le_rfl
  rw [hopened] at hown hwriter hsame
  have htoken := hsame d.tokens.length (by simp)
  have hedits : ∀ a ∈ Edit.opening alignment d.tokens.length ++ edits, a.Own d.tokens.length :=
    List.forall_mem_append.2 ⟨Edit.opening_own, fun a ha => (hown a ha).mono (by simp)⟩
  rw [run_writeMeasured_snd, ← hstart]
  rcases hrun : body.run start with ⟨error | _, done⟩
  · exact ⟨_, hedits, by rw [Draft.run_append, hopened, hwriter, hrun]⟩
  · have hfinish : ∀ a ∈ [Edit.finishLength d.tokens.length], a.Own d.tokens.length := by simp [Edit.Own]
    refine ⟨_, List.forall_mem_append.2 ⟨hedits, hfinish⟩, ?_⟩
    rw [Draft.run_append, Draft.run_append, hopened, Draft.run_cons, Draft.run_nil]
    simp [Draft.act, htoken, hwriter, hrun]

theorem stepwise_traced : Encoder.Stepwise Traced where
  pure _ := traced_same fun _ => rfl
  throw _ := traced_same fun _ => rfl
  lift _ := traced_same fun _ => rfl
  bind := .bind
  append bytes _ := ⟨[.append bytes], by simp [Edit.Own], rfl⟩
  align {alignment} _ _ := ⟨[.align alignment], by simp [Edit.Own], rfl⟩
  put {size} _ n d := ⟨[.align size, .append (d.writer.order.bytes size n)], by simp [Edit.Own], rfl⟩
  measured _ _ hbody := traced_measured _ hbody

end Traced

/-! ## Filling in -/

/-- a length can be filled in now: that reads and writes nothing out of range, tells how many bytes there are more than when
the measured ones began, and changes the four bytes of the word alone, which then hold this number -/
structure Writer.Fills (w : Writer) (token : Token) : Prop where
  start_le : token.slot.start ≤ w.data.size
  word_le : token.slot.word + 4 ≤ w.data.size
  length : token.begun.data.size + (w.finishLength token.slot).1 = w.data.size
  size : (w.finishLength token.slot).2.data.size = w.data.size
  inside : ∀ i < 4, (w.finishLength token.slot).2.data[token.slot.word + i]?
    = (w.order.bytes 4 (w.finishLength token.slot).1)[i]?
  outside : ∀ k, k < token.slot.word ∨ token.slot.word + 4 ≤ k → (w.finishLength token.slot).2.data[k]? = w.data[k]?

namespace Draft

variable {d : Draft} {token other : Token}

theorem Inv.fills (h : d.Inv) (htoken : token ∈ d.tokens) : d.writer.Fills token := by
  have hholds := h.holds token htoken
  have hstart := hholds.start
  have hbegun := hholds.begun.size_le
  have hword := h.within _ (List.mem_of_getElem? hholds.origin)
  refine ⟨by omega, hword, ?_, size_overwrite .., fun i hi => ?_, fun k hk => ?_⟩
  · simp only [Writer.finishLength]
    omega
  · exact getElem?_overwrite_inside (by simpa using hi) (by simpa using hword)
  · exact getElem?_overwrite_outside (by simpa using hk)

/-- words of different reservations lie apart, and those of the same are the same -/
theorem Inv.words_apart (h : d.Inv) (htoken : token ∈ d.tokens) (hother : other ∈ d.tokens) :
    if token.origin = other.origin then token.slot.word = other.slot.word
    else token.slot.word + 4 ≤ other.slot.word ∨ other.slot.word + 4 ≤ token.slot.word := by
  have hword := (h.holds token htoken).origin
  have hword' := (h.holds other hother).origin
  split_ifs with heq
  · rw [heq, hword'] at hword
    exact (Option.some.inj hword).symm
  · obtain ⟨hlt, hget⟩ := List.getElem?_eq_some_iff.1 hword
    obtain ⟨hlt', hget'⟩ := List.getElem?_eq_some_iff.1 hword'
    have hpairs := List.pairwise_iff_getElem.1 h.apart
    obtain hless | hmore := Nat.lt_or_gt_of_ne heq
    · exact .inl (hget ▸ hget' ▸ hpairs _ _ hlt hlt' hless)
    · exact .inr (hget ▸ hget' ▸ hpairs _ _ hlt' hlt hmore)

/-- **Filling in lengths is safe in any order.** After any edits of a new writer, of either byte order and with any position to
start at, every token that is held can be finished, now and again; the words of different reservations lie apart; whatever is
done later, no byte is removed, and none changed but those of reserved words. Encoding only writes behind what is there, and
wherever it ends or fails, it is such edits too, on tokens of its own. -/
theorem backfill_safe (order : ByteOrder) (base : Nat) (history : List Edit) :
    let d := (new order base).run history
    (∀ token ∈ d.tokens, d.writer.Fills token) ∧
    (∀ token ∈ d.tokens, ∀ other ∈ d.tokens, if token.origin = other.origin then token.slot.word = other.slot.word
      else token.slot.word + 4 ≤ other.slot.word ∨ other.slot.word + 4 ≤ token.slot.word) ∧
    (∀ later, d.writer.Grows d.Reserves (d.run later).writer) ∧
    ∀ type value, (∃ bytes, ((encode type value).run d.writer).2 = d.writer.append bytes) ∧
      ∃ edits, (∀ a ∈ edits, a.Own d.tokens.length) ∧ (d.run edits).writer = ((encode type value).run d.writer).2 := by
  intro d
  have hinv : d.Inv := run_inv (inv_new order base) history
  exact ⟨fun token => hinv.fills, fun token htoken other => hinv.words_apart htoken, run_grows hinv,
    fun type value => ⟨encode_appends type value d.writer, stepwise_traced.encodeWithin _ type value d⟩⟩

/-- a length is cloned before its start is moved, an array is written that fails at its second item, another length is left
open, and the first one is filled in twice: by the token as moved, and later by its clone -/
theorem backfill_safe_cloned :
    let history : List Edit := [.startLength, .align 8, .clone 0, .beginLength 0,
      .encode (.array (.basic (.int .byte))) (.array [.byte 1, .string "x"]), .startLength, .append [7], .finishLength 0,
      .append [9]]
    let d := (new .big 5).run history
    let clone : Token := ⟨⟨3, 7⟩, 0, ⟨.big, 5, #[0, 0, 0, 0, 0, 0, 0]⟩⟩
    d.writer.data = #[0, 0, 0, 0, 0, 0, 13, 0, 0, 0, 0, 0, 0, 0, 0, 1, 0, 0, 0, 0, 0, 0, 0, 7, 9] ∧ d.words = [3, 19] ∧
      clone ∈ d.tokens ∧ d.writer.Fills clone ∧ (d.writer.finishLength clone.slot).1 = 18 ∧
      d.writer.Grows d.Reserves (d.run [.finishLength 1]).writer ∧
      (d.run [.finishLength 1]).writer.data = #[0, 0, 0, 0, 0, 0, 18, 0, 0, 0, 0, 0, 0, 0, 0, 1, 0, 0, 0, 0, 0, 0, 0, 7, 9] := by
  intro history d clone
  have hdata : d.writer.data = #[0, 0, 0, 0, 0, 0, 13, 0, 0, 0, 0, 0, 0, 0, 0, 1, 0, 0, 0, 0, 0, 0, 0, 7, 9] := by cbv
  have hwords : d.words = [3, 19] := by cbv
  have hclone : d.tokens[1]? = some clone := by cbv
  have hlength : (d.writer.finishLength clone.slot).1 = 18 := by cbv
  have hlater : (d.run [.finishLength 1]).writer.data
      = #[0, 0, 0, 0, 0, 0, 18, 0, 0, 0, 0, 0, 0, 0, 0, 1, 0, 0, 0, 0, 0, 0, 0, 7, 9] := by cbv
  obtain ⟨hfills, -, hgrows, -⟩ := backfill_safe .big 5 history
  have hmem : clone ∈ d.tokens := List.mem_of_getElem? hclone
  exact ⟨hdata, hwords, hmem, hfills clone hmem, hlength, hgrows [.finishLength 1], hlater⟩

end Draft

end MessageBus.Wire
