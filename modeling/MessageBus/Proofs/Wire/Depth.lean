/-
The depth of values without variants.

A value may nest 64 levels deep, and so may a type that a signature can name, if there are no variants in it: the limits of
signatures are never wider than the one of values. So the levels do not run out before the type does, in neither form of a
dict, and with more of them nothing would be different (`Indifferent`). A signature is called too complex only for the text
of a signature among the values, never for one that is a type of them (`depth_indifferent`).
-/
import Mathlib
import MessageBus.Proofs.Wire.Stepwise

namespace MessageBus

open Ty (Shallow)

namespace Wire

variable {σ α β : Type}

/-! ## Steps that do not count levels -/

/-- two steps are the same, and call no signature too complex but one that is -/
structure Indifferent (x y : ExceptT Error (StateM σ) α) : Prop where
  same : x = y
  justified : ∀ s error, (x.run s).1 = .error error → error.Justified

section Steps

variable {x y : ExceptT Error (StateM σ) α} {f g : α → ExceptT Error (StateM σ) β}

theorem Indifferent.of_ok (h : ∀ s, ∃ a, (x.run s).1 = .ok a) : Indifferent x x := by
  refine ⟨rfl, fun s error herror => ?_⟩
  obtain ⟨a, ha⟩ := h s
  cases ha.symm.trans herror

theorem indifferent_pure (a : α) : Indifferent (pure a : ExceptT Error (StateM σ) α) (pure a) := .of_ok fun _ => ⟨a, rfl⟩

theorem indifferent_lift {r : Except Error α} (h : ∀ error, r = .error error → error.Justified) :
    Indifferent (liftM r : ExceptT Error (StateM σ) α) (liftM r) := ⟨rfl, fun _ => h⟩

theorem indifferent_throw {error : Error} (h : error.Justified) :
    Indifferent (throw error : ExceptT Error (StateM σ) α) (throw error) := by
  refine ⟨rfl, fun s e he => ?_⟩
  cases he
  exact h

theorem Indifferent.bind (h : Indifferent x y) (hf : ∀ a, Indifferent (f a) (g a)) : Indifferent (x >>= f) (y >>= g) := by
  obtain rfl := h.same
  obtain rfl : f = g := funext fun a => (hf a).same
  refine ⟨rfl, fun s error herror => ?_⟩
  rw [run_bind] at herror
  rcases hrun : x.run s with ⟨e | a, next⟩
  · rw [hrun] at herror
    apply h.justified s error
    rw [hrun]
    exact congrArg Except.error (Except.error.inj herror)
  · rw [hrun] at herror
    exact (hf a).justified next error herror

theorem indifferent_get {f g : σ → ExceptT Error (StateM σ) α} (h : ∀ s, Indifferent (f s) (g s)) :
    Indifferent (get >>= f) (get >>= g) := Indifferent.bind (.of_ok fun s => ⟨s, rfl⟩) h

theorem indifferent_ite {p : Prop} [Decidable p] {x' y' : ExceptT Error (StateM σ) α} (h : Indifferent x y)
    (h' : Indifferent x' y') : Indifferent (if p then x else x') (if p then y else y') := by
  split_ifs
  · exact h
  · exact h'

theorem indifferent_mapM {γ : Type} {f g : γ → ExceptT Error (StateM σ) α} {xs : List γ}
    (h : ∀ x ∈ xs, Indifferent (f x) (g x)) : Indifferent (xs.mapM f) (xs.mapM g) := by
  induction xs with
  | nil => exact indifferent_pure []
  | cons x xs ih =>
    rw [List.forall_mem_cons] at h
    rw [List.mapM_cons, List.mapM_cons]
    exact h.1.bind fun _ => (ih h.2).bind fun _ => indifferent_pure _

end Steps

/-! ## Writing -/

theorem indifferent_forM {γ : Type} {f g : γ → Encoder Unit} {xs : List γ} (h : ∀ x ∈ xs, Indifferent (f x) (g x)) :
    Indifferent (xs.forM f) (xs.forM g) := by
  induction xs with
  | nil => exact indifferent_pure ()
  | cons x xs ih =>
    rw [List.forall_mem_cons] at h
    exact h.1.bind fun _ => ih h.2

theorem indifferent_writeMeasured (alignment : Nat) {body body' : Encoder Unit} (h : Indifferent body body') :
    Indifferent (writeMeasured alignment body) (writeMeasured alignment body') := by
  refine Indifferent.bind (.of_ok fun _ => ⟨_, rfl⟩) fun slot => Indifferent.bind (.of_ok fun _ => ⟨_, rfl⟩) fun _ => ?_
  refine Indifferent.bind (.of_ok fun _ => ⟨_, rfl⟩) fun slot => h.bind fun _ => ?_
  refine Indifferent.bind (.of_ok fun _ => ⟨_, rfl⟩) fun length => ?_
  exact indifferent_ite (indifferent_throw trivial) (indifferent_pure ())

theorem steps_indifferent_encoder : Encoder.Steps Error.Justified fun e => Indifferent e e where
  admits _ _ h := h
  pure := indifferent_pure
  throw := indifferent_throw
  lift := indifferent_lift
  bind := .bind
  append _ := .of_ok fun _ => ⟨_, rfl⟩
  put _ _ := .of_ok fun _ => ⟨_, rfl⟩

theorem indifferent_mismatch (type : Ty) (value : Value) :
    Indifferent (throw (mismatch type value) : Encoder Unit) (throw (mismatch type value)) := indifferent_throw trivial

/-- **More levels do not change how a value is written** that has enough of them, in any form. -/
theorem encodeWithin_indifferent {levels : Nat} {type : Ty} (h : type.Shallow levels) (more : Nat) (value : Value) :
    Indifferent (encodeWithin (levels + more) type value) (encodeWithin levels type value) := by
  induction levels generalizing type value with
  | zero => cases h
  | succ levels ih =>
    rw [Nat.add_right_comm]
    have height {e e' : Encoder Unit} (he : Indifferent e e') :
        Indifferent (do Encoder.align 8; e) (do Encoder.align 8; e') :=
      Indifferent.bind (.of_ok fun _ => ⟨_, rfl⟩) fun _ => he
    cases h with
    | basic type => exact steps_indifferent_encoder.encodeBasic type value
    | @array _ element helement =>
      cases value with
      | array items =>
        rw [encodeWithin_array, encodeWithin_array]
        exact indifferent_writeMeasured _ (indifferent_forM fun item _ => ih helement item)
      | dict entries =>
        cases helement with
        | @dictEntry _ key value hkey hvalue =>
          rw [encodeWithin_dict, encodeWithin_dict]
          refine indifferent_writeMeasured _ (indifferent_forM fun entry _ => height ?_)
          -- the keys and values of a dict have one level more than those of the pairs
          exact (ih hkey.succ entry.1).bind fun _ => ih hvalue.succ entry.2
        | _ => exact indifferent_writeMeasured _ (indifferent_mismatch _ _)
      | _ => cases element <;> exact indifferent_writeMeasured _ (indifferent_mismatch _ _)
    | @struct _ types htypes =>
      cases value with
      | struct fields =>
        refine indifferent_ite (height (indifferent_forM fun field hfield => ?_)) (indifferent_mismatch _ _)
        exact ih (htypes _ (List.of_mem_zip hfield).1) field.2
      | _ => exact indifferent_mismatch _ _
    | dictEntry hkey hvalue =>
      cases value with
      | struct fields =>
        rcases fields with _ | ⟨first, _ | ⟨second, _ | ⟨third, rest⟩⟩⟩
        case cons.cons.nil => exact height ((ih hkey first).bind fun _ => ih hvalue second)
        all_goals exact indifferent_mismatch _ _
      | _ => exact indifferent_mismatch _ _

/-! ## Reading -/

theorem indifferent_read (n : Nat) : Indifferent (Decoder.read n) (Decoder.read n) := by
  refine ⟨rfl, fun r error herror => ?_⟩
  rw [run_read] at herror
  split_ifs at herror
  cases herror
  trivial

theorem indifferent_align (alignment : Nat) : Indifferent (Decoder.align alignment) (Decoder.align alignment) :=
  indifferent_get fun _ => (indifferent_read _).bind fun _ => indifferent_pure ()

theorem indifferent_word (size : Nat) : Indifferent (Decoder.word size) (Decoder.word size) :=
  (indifferent_align size).bind fun _ => indifferent_get fun _ => (indifferent_read size).bind fun _ => indifferent_pure _

theorem indifferent_terminated (length : Nat) : Indifferent (Decoder.terminated length) (Decoder.terminated length) := by
  rw [terminated_eq]
  refine (indifferent_read length).bind fun bytes => indifferent_get fun r => (indifferent_read 1).bind fun nul => ?_
  refine indifferent_lift fun error herror => ?_
  unfold closeText at herror
  split_ifs at herror
  · cases herror
    trivial
  · cases herror
    trivial
  · split at herror <;> cases herror
    trivial

theorem steps_indifferent_decoder : Decoder.Steps Error.Justified fun d => Indifferent d d where
  admits _ _ h := h
  pure := indifferent_pure
  throw := indifferent_throw
  lift := indifferent_lift
  bind := .bind
  word _ := indifferent_word _
  terminated := indifferent_terminated

section Items

variable {step step' : Decoder α}

theorem indifferent_untilPosition (h : Indifferent step step') (stop steps : Nat) :
    Indifferent (Decoder.untilPosition stop step steps) (Decoder.untilPosition stop step' steps) := by
  induction steps with
  | zero => exact indifferent_get fun r => indifferent_ite (indifferent_throw trivial) (indifferent_pure [])
  | succ steps ih =>
    refine indifferent_get fun r => indifferent_ite (h.bind fun item => indifferent_get fun reached => ?_)
      (indifferent_pure [])
    exact indifferent_ite (indifferent_throw trivial) (ih.bind fun _ => indifferent_pure _)

theorem indifferent_readMeasured (h : Indifferent step step') (alignment : Nat) (collect : List α → Value) :
    Indifferent (readMeasured alignment step collect) (readMeasured alignment step' collect) := by
  refine (indifferent_word 4).bind fun length => indifferent_ite (indifferent_throw trivial) ?_
  refine (indifferent_align alignment).bind fun _ => indifferent_get fun r => indifferent_ite (indifferent_throw trivial) ?_
  exact (indifferent_untilPosition h _ length).bind fun _ => indifferent_pure _

end Items

/-- **More levels do not change how a value is read** that has enough of them. -/
theorem decodeWithin_indifferent {levels : Nat} {type : Ty} (h : type.Shallow levels) (more : Nat) :
    Indifferent (decodeWithin (levels + more) type) (decodeWithin levels type) := by
  induction levels generalizing type with
  | zero => cases h
  | succ levels ih =>
    rw [Nat.add_right_comm]
    have hpair {γ : Type} {key value : Ty} (hkey : key.Shallow levels) (hvalue : value.Shallow levels)
        (collect : Value → Value → γ) : Indifferent
        (do
          Decoder.align 8
          let key ← decodeWithin (levels + more) key
          return collect key (← decodeWithin (levels + more) value))
        (do
          Decoder.align 8
          let key ← decodeWithin levels key
          return collect key (← decodeWithin levels value)) :=
      (indifferent_align 8).bind fun _ => (ih hkey).bind fun _ => (ih hvalue).bind fun _ => indifferent_pure _
    cases h with
    | basic type => exact (steps_indifferent_decoder.decodeBasic type).bind fun _ => indifferent_pure _
    | @array _ element helement =>
      have hitems := indifferent_readMeasured (ih helement) element.alignment .array
      cases helement with
      | dictEntry hkey hvalue => exact indifferent_readMeasured (hpair hkey.succ hvalue.succ Prod.mk) 8 .dict
      | _ => exact hitems
    | struct htypes =>
      refine (indifferent_align 8).bind fun _ => Indifferent.bind (indifferent_mapM fun type ht => ih (htypes type ht)) ?_
      exact fun _ => indifferent_pure _
    | dictEntry hkey hvalue => exact hpair hkey hvalue fun first second => Value.struct [first, second]

/-! ## Signatures -/

section Signatures

variable {signature : String} {types : List Ty} {type : Ty}

theorem shallow_of_parse (hsig : Ty.parse signature = .ok types) (hv : ∀ type ∈ types, .variant ∉ type.parts)
    (ht : type ∈ types) : type.Shallow (maxDepth + 1) := ((Ty.parse_sound hsig).2.2 type ht).shallow (hv type ht)

theorem indifferent_encodeAll (h : ∀ type ∈ types, type.Shallow (maxDepth + 1)) (values : List Value) :
    Indifferent (encodeAll types values) (encodeAll types values) := by
  refine indifferent_ite (indifferent_forM fun argument hargument => ?_) (indifferent_throw trivial)
  exact encodeWithin_indifferent (h _ (List.of_mem_zip hargument).1) 0 argument.2

theorem indifferent_decodeAll (h : ∀ type ∈ types, type.Shallow (maxDepth + 1)) :
    Indifferent (decodeAll types) (decodeAll types) :=
  indifferent_mapM fun type ht => decodeWithin_indifferent (h type ht) 0

theorem marshal_justified (h : ∀ type ∈ types, type.Shallow (maxDepth + 1)) {order : ByteOrder} {values : List Value}
    {error : Error} (hfails : marshal order types values = .error error) : error.Justified := by
  apply (indifferent_encodeAll h values).justified (Writer.new order 0)
  unfold marshal at hfails
  split at hfails
  · cases hfails
  · next hrun =>
    cases hfails
    rw [hrun]

theorem unmarshal_justified (h : ∀ type ∈ types, type.Shallow (maxDepth + 1)) {order : ByteOrder} {data : List UInt8}
    {error : Error} (hfails : unmarshal order types data = .error error) : error.Justified := by
  unfold unmarshal at hfails
  split at hfails
  · split_ifs at hfails
    cases hfails
    trivial
  · next hrun =>
    cases hfails
    apply (indifferent_decodeAll h).justified ⟨order, 0, data⟩
    rw [hrun]

/-- **Without variants, levels do not run out.** For the types of a signature that no variant is part of, writing and
reading are the same with any more levels. When they call a signature too complex, in whatever form the values are given
and whatever bytes are read, the parser calls it so, and it is none that the types are made of. -/
theorem depth_indifferent (hsig : Ty.parse signature = .ok types) (hv : ∀ type ∈ types, .variant ∉ type.parts) :
    (∀ type ∈ types, ∀ more,
      (∀ value, encodeWithin (maxDepth + 1 + more) type value = encode type value) ∧
        decodeWithin (maxDepth + 1 + more) type = decode type) ∧
    ∀ order text,
      ((∃ values, marshal order types values = .error (.signatureTooComplex text)) ∨
        ∃ data, unmarshal order types data = .error (.signatureTooComplex text)) →
      Ty.TooComplex text ∧ ∀ type ∈ types, ∀ part ∈ type.parts, text ≠ part.text := by
  have hshallow : ∀ type ∈ types, type.Shallow (maxDepth + 1) := fun type ht => shallow_of_parse hsig hv ht
  constructor
  · intro type ht more
    exact ⟨fun value => (encodeWithin_indifferent (hshallow type ht) more value).same,
      (decodeWithin_indifferent (hshallow type ht) more).same⟩
  · intro order text hfails
    have hcomplex : Ty.TooComplex text := by
      obtain ⟨values, hmarshal⟩ | ⟨data, hunmarshal⟩ := hfails
      · exact marshal_justified hshallow hmarshal
      · exact unmarshal_justified hshallow hunmarshal
    refine ⟨hcomplex, fun type ht part hpart => ?_⟩
    rintro rfl
    exact ((Ty.parse_sound hsig).2.2 type ht).simple_part hpart hcomplex

end Signatures

/-! ## The deepest type -/

/-- as many arrays around as many structs as a signature can nest, around the type of signatures -/
def deepest : Ty := Nat.iterate Ty.array 32 (Nat.iterate (fun type => .struct [type]) 32 (.basic (.text .signature)))

def deepestText : String := "aaaaaaaaaaaaaaaaaaaaaaaaaaaaaaaa((((((((((((((((((((((((((((((((g))))))))))))))))))))))))))))))))"

/-- a text in a value of the deepest type -/
def deepestOf (text : String) : Value :=
  Nat.iterate (fun value => .array [value]) 32
    (Nat.iterate (fun value => .struct [value]) 32 (.scalar (.text .signature text)))

/-- one array more than a signature can nest -/
def tooManyArrays : String := "aaaaaaaaaaaaaaaaaaaaaaaaaaaaaaaaay"

set_option maxRecDepth 20000 in
theorem marshal_deepest : marshal .little [deepest] [deepestOf tooManyArrays]
    = .error (.signatureTooComplex tooManyArrays) := by cbv

/-- below 64 containers a text is still looked at: it is for itself that it is refused, and one level more is no different -/
theorem depth_indifferent_deepest :
    Ty.parse deepestText = .ok [deepest] ∧ (∀ type ∈ [deepest], .variant ∉ type.parts) ∧
      marshal .little [deepest] [deepestOf tooManyArrays] = .error (.signatureTooComplex tooManyArrays) ∧
      Ty.TooComplex tooManyArrays ∧ (∀ part ∈ deepest.parts, tooManyArrays ≠ part.text) ∧
      encodeWithin (maxDepth + 2) deepest (deepestOf tooManyArrays) = encode deepest (deepestOf tooManyArrays) := by
  have hsig : Ty.parse deepestText = .ok [deepest] := by decide
  have hv : ∀ type ∈ [deepest], .variant ∉ type.parts := List.forall_mem_singleton.2 (by decide)
  obtain ⟨hmore, hfails⟩ := depth_indifferent hsig hv
  obtain ⟨hcomplex, hother⟩ := hfails .little tooManyArrays (.inl ⟨_, marshal_deepest⟩)
  have hdeepest := List.mem_singleton_self deepest
  exact ⟨hsig, hv, marshal_deepest, hcomplex, hother deepest hdeepest, (hmore deepest hdeepest 1).1 _⟩

end Wire

end MessageBus
