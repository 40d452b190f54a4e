/-
What an encoder refuses.

An encoder that fails does so with an error of a few kinds, all about the value or the type at hand (`Error.IsRefusal`).
Such an error is fatal only if a message is too long, and its text holds no NUL: what is foreign in it is quoted
(`Error.IsRefusal.tellable`). So the failure to write one message can always be told in another.

`Refuses e` says that of an encoder, whatever was written before, and is kept by all ways of putting encoders together.
-/
import MessageBus.Proofs.Text
import MessageBus.Proofs.Ty.Depth
import MessageBus.Proofs.Wire.Encode

namespace MessageBus

open Text (NulFree)

/-! ## The errors -/

/-- an error of a writer, in which only quoted texts are foreign -/
def Error.IsRefusal : Error → Prop
  | malformedSignature _ _ | signatureTooComplex _ | embeddedNul | arrayTooLong _ | invalidName _ _ | messageTooLong _ =>
    True
  | reservedCode code | outOfRange _ code => code ≠ '\x00'
  | typeMismatch _ found => NulFree found
  | _ => False

/-- a stream is sound after the error, and its text can be sent -/
structure Error.Tellable (e : Error) : Prop where
  isFatal : e.isFatal = false
  nulFree : NulFree e.message

@[simp] theorem SignatureFault.message_nulFree (fault : SignatureFault) : NulFree fault.message := by
  cases fault <;> decide

@[simp] theorem NameKind.title_nulFree (kind : NameKind) : NulFree kind.title := by
  cases kind <;> decide

theorem Error.IsRefusal.tellable {e : Error} (h : e.IsRefusal) : (∃ n, e = .messageTooLong n) ∨ e.Tellable := by
  cases e with
  | messageTooLong n => exact .inl ⟨n, rfl⟩
  | malformedSignature text fault =>
    refine .inr ⟨rfl, ?_⟩
    change NulFree ("malformed signature " ++ Text.quoted text ++ ": " ++ fault.message)
    simp +decide
  | signatureTooComplex text =>
    refine .inr ⟨rfl, ?_⟩
    change NulFree ("signature " ++ Text.quoted text ++ " nests containers deeper than the protocol allows")
    simp +decide
  | reservedCode code =>
    refine .inr ⟨rfl, ?_⟩
    change NulFree ("unsupported type code '" ++ String.singleton code ++ "'")
    have hcode : code ≠ '\x00' := h
    simp +decide [hcode]
  | outOfRange value code =>
    refine .inr ⟨rfl, ?_⟩
    change NulFree ("value " ++ toString value ++ " does not fit in DBus type '" ++ String.singleton code ++ "'")
    have hcode : code ≠ '\x00' := h
    simp +decide [hcode]
  | typeMismatch expected found =>
    refine .inr ⟨rfl, ?_⟩
    change NulFree ("value of kind " ++ found ++ " does not conform to signature " ++ Text.quoted expected)
    have hfound : NulFree found := h
    simp +decide [hfound]
  | embeddedNul =>
    refine .inr ⟨rfl, ?_⟩
    change NulFree "string contains an embedded nul byte"
    decide
  | arrayTooLong length =>
    refine .inr ⟨rfl, ?_⟩
    change NulFree ("array of " ++ toString length ++ " bytes exceeds the maximum array length")
    simp +decide
  | invalidName kind name =>
    refine .inr ⟨rfl, ?_⟩
    change NulFree ("invalid " ++ kind.title ++ " " ++ Text.quoted name)
    simp +decide
  | _ => cases h

/-! ## Encoders -/

namespace Wire

variable {α β : Type} {e : Encoder α} {f : α → Encoder β} {error : Error}

/-- an encoder fails only by a refusal -/
def Refuses (e : Encoder α) : Prop := ∀ w error, (e.run w).1 = .error error → error.IsRefusal

/-- a step that always goes well -/
theorem Refuses.of_ok (h : ∀ w, ∃ a, (e.run w).1 = .ok a) : Refuses e := by
  intro w error herror
  obtain ⟨a, ha⟩ := h w
  rw [ha] at herror
  cases herror

theorem refuses_throw (error : Error) (h : error.IsRefusal) : Refuses (throw error : Encoder α) := by
  intro w e' he
  cases he
  exact h

theorem Refuses.bind (he : Refuses e) (hf : ∀ a, Refuses (f a)) : Refuses (e >>= f) := by
  intro w error herror
  rw [run_bind] at herror
  rcases hrun : e.run w with ⟨_ | a, w'⟩
  · rw [hrun] at herror
    apply he w error
    rw [hrun]
    exact congrArg Except.error (Except.error.inj herror)
  · rw [hrun] at herror
    exact hf a w' error herror

theorem Refuses.lift {x : Except Error α} (h : ∀ error, x = .error error → error.IsRefusal) :
    Refuses (liftM x : Encoder α) := fun _ error herror => h error herror

/-! ## Signatures, names and numbers -/

end Wire

namespace Ty

theorem parse_refusal {text : String} {error : Error} (h : parse text = .error error) : error.IsRefusal := by
  have hblames := parse_blames h
  cases error with
  | malformedSignature => trivial
  | signatureTooComplex => trivial
  | reservedCode c =>
    have hreserved : Scan.isReserved c = true := hblames
    change c ≠ '\x00'
    rintro rfl
    exact absurd hreserved (by decide)
  | _ => exact hblames.elim

end Ty

theorem NameKind.check_refusal {kind : NameKind} {name : String} {error : Error} (h : kind.check name = .error error) :
    error.IsRefusal := by
  unfold NameKind.check at h
  split_ifs at h
  cases h
  trivial

theorem NameKind.check_justified {kind : NameKind} {name : String} {error : Error} (h : kind.check name = .error error) :
    error.Justified := by
  unfold NameKind.check at h
  split_ifs at h
  cases h
  trivial

theorem Value.kindName_nulFree (value : Value) : NulFree value.kindName := by
  cases value with
  | scalar value =>
    cases value with
    | int kind =>
      change NulFree kind.name
      cases kind <;> decide
    | text kind =>
      change NulFree kind.name
      cases kind <;> decide
    | _ =>
      rw [Value.kindName, Scalar.kindName]
      decide
  | _ =>
    rw [Value.kindName]
    decide

theorem Value.toWord_refusal {kind : IntKind} {value : Value} {error : Error} (h : value.toWord kind = .error error) :
    error.IsRefusal := by
  unfold Value.toWord at h
  split at h
  · cases h
    exact value.kindName_nulFree
  · split at h
    · cases h
    · cases h
      change kind.code ≠ '\x00'
      cases kind <;> decide

theorem Value.toWord_justified {kind : IntKind} {value : Value} {error : Error} (h : value.toWord kind = .error error) :
    error.Justified := by
  unfold Value.toWord at h
  split at h
  · cases h
    trivial
  · split at h <;> cases h
    trivial

/-! ## Step by step -/

namespace Wire

/-- a property that the steps of an encoder have that do not look at the position, when they fail only by an error of some
sort, and that is kept when steps are put together -/
structure Encoder.Steps (Q : Error → Prop) (P : ∀ {α : Type}, Encoder α → Prop) : Prop where
  /-- a refusal that blames no signature without a reason is of the sort -/
  admits (error : Error) (h : error.IsRefusal) (hj : error.Justified) : Q error
  pure {α : Type} (a : α) : P (pure a)
  throw {α : Type} {error : Error} (h : Q error) : P (throw error : Encoder α)
  lift {α : Type} {x : Except Error α} (h : ∀ error, x = .error error → Q error) : P (liftM x)
  bind {α β : Type} {e : Encoder α} {f : α → Encoder β} (he : P e) (hf : ∀ a, P (f a)) : P (e >>= f)
  append (bytes : List UInt8) : P (Encoder.append bytes)
  put {size : Nat} (h : size ∣ 8) (n : Nat) : P (Encoder.put size n)

/-- a property that all steps of an encoder have, when they fail only by a refusal and align only to divisors of eight, and
that is kept when steps are put together -/
structure Encoder.Stepwise (P : ∀ {α : Type}, Encoder α → Prop) : Prop extends Encoder.Steps Error.IsRefusal P where
  admits := fun _ h _ => h
  align {alignment : Nat} (h : alignment ∣ 8) : P (Encoder.align alignment)
  measured {alignment : Nat} (h : alignment ∣ 8) {body : Encoder Unit} (hbody : P body) : P (writeMeasured alignment body)

namespace Encoder.Steps

variable {Q : Error → Prop} {P : ∀ {α : Type}, Encoder α → Prop}

theorem forM (h : Steps Q P) {α : Type} {f : α → Encoder Unit} (xs : List α) (hf : ∀ x ∈ xs, P (f x)) : P (xs.forM f) := by
  induction xs with
  | nil => exact h.pure ()
  | cons x xs ih =>
    rw [List.forall_mem_cons] at hf
    exact h.bind hf.1 fun _ => ih hf.2

theorem mismatch (h : Steps Q P) (type : Ty) (value : Value) : P (MonadExcept.throw (mismatch type value) : Encoder Unit) :=
  h.throw (h.admits _ value.kindName_nulFree trivial)

theorem sized (h : Steps Q P) {size : Nat} (hsize : size ∣ 8) (n : Nat) (bytes : List UInt8) :
    P (do Encoder.put size n; Encoder.append bytes; Encoder.append [0]) :=
  h.bind (h.put hsize n) fun _ => h.bind (h.append bytes) fun _ => h.append [0]

theorem putText (h : Steps Q P) (text : String) : P (putText text) := by
  unfold Wire.putText
  by_cases hnul : text.contains '\x00' = true
  · rw [if_pos hnul]
    exact h.throw (h.admits _ trivial trivial)
  · rw [if_neg hnul]
    by_cases hlen : UInt32.size ≤ text.utf8ByteSize
    · rw [if_pos hlen]
      exact h.throw (h.admits _ trivial trivial)
    · rw [if_neg hlen]
      exact h.sized (by decide) _ _

theorem putSignature (h : Steps Q P) (text : String) : P (putSignature text) :=
  h.bind (h.lift fun _ he => h.admits _ (Ty.parse_refusal he) (Ty.parse_justified he)) fun _ => h.sized (by decide) _ _

theorem putPath (h : Steps Q P) (path : String) : P (do NameKind.objectPath.check path; Wire.putText path) :=
  h.bind (h.lift fun _ he => h.admits _ (NameKind.check_refusal he) (NameKind.check_justified he)) fun _ => h.putText path

theorem encodeBasic (h : Steps Q P) (type : Basic) (value : Value) : P (encodeBasic type value) := by
  cases type with
  | int kind =>
    apply h.bind (h.lift fun _ he => h.admits _ (Value.toWord_refusal he) (Value.toWord_justified he))
    exact fun _ => h.put (IntKind.size_dvd kind) _
  | boolean =>
    have hput (n : Nat) : P (Encoder.put 4 n) := h.put (by decide) n
    unfold Wire.encodeBasic
    dsimp only
    split
    · exact hput _
    · split_ifs
      · exact hput _
      · exact hput _
      · exact h.mismatch _ _
  | double =>
    unfold Wire.encodeBasic
    dsimp only
    split
    · exact h.put (by decide) _
    · exact h.mismatch _ _
  | text kind =>
    unfold Wire.encodeBasic
    cases kind with
    | string =>
      dsimp only
      split
      · exact h.putText _
      · exact h.mismatch _ _
    | objectPath =>
      dsimp only
      split
      · exact h.putPath _
      · exact h.putPath _
      · exact h.mismatch _ _
    | signature =>
      dsimp only
      split
      · exact h.putSignature _
      · exact h.putSignature _
      · exact h.mismatch _ _

end Encoder.Steps

namespace Encoder.Stepwise

variable {P : ∀ {α : Type}, Encoder α → Prop}

/-- **What all steps have, writing a value has**, of any type and at any depth. -/
theorem encodeWithin (h : Stepwise P) (levels : Nat) (type : Ty) (value : Value) : P (encodeWithin levels type value) := by
  induction levels generalizing type value with
  | zero => exact h.throw trivial
  | succ levels ih =>
    have height {e : Encoder Unit} (he : P e) : P (do Encoder.align 8; e) := h.bind (h.align (by decide)) fun _ => he
    cases type with
    | basic type => exact h.encodeBasic type value
    | variant =>
      cases value with
      | variant type value => exact h.bind (h.putSignature _) fun _ => ih type value
      | _ => exact h.mismatch _ _
    | array element =>
      cases value with
      | array items =>
        rw [encodeWithin_array]
        exact h.measured (alignment_dvd element) (h.forM items fun item _ => ih element item)
      | dict entries =>
        cases element with
        | dictEntry key value =>
          rw [encodeWithin_dict]
          exact h.measured (by decide) (h.forM entries fun entry _ =>
            height (h.bind (ih key entry.1) fun _ => ih value entry.2))
        | _ => exact h.measured (alignment_dvd _) (h.mismatch _ _)
      | _ => cases element <;> exact h.measured (alignment_dvd _) (h.mismatch _ _)
    | struct types =>
      cases value with
      | struct fields =>
        by_cases hlen : types.length = fields.length
        · rw [show Wire.encodeWithin (levels + 1) (.struct types) (.struct fields) = _ from if_pos hlen]
          exact height (h.forM _ fun field _ => ih field.1 field.2)
        · rw [show Wire.encodeWithin (levels + 1) (.struct types) (.struct fields) = _ from if_neg hlen]
          exact h.mismatch _ _
      | _ => exact h.mismatch _ _
    | dictEntry key value =>
      rename_i given
      cases given with
      | struct fields =>
        rcases fields with _ | ⟨first, _ | ⟨second, _ | ⟨third, rest⟩⟩⟩
        case cons.cons.nil => exact height (h.bind (ih key first) fun _ => ih value second)
        all_goals exact h.mismatch _ _
      | _ => exact h.mismatch _ _

theorem encodeAll (h : Stepwise P) (types : List Ty) (values : List Value) : P (encodeAll types values) := by
  have hfound : NulFree "argument list of a different length" := by decide
  unfold Wire.encodeAll
  split
  · exact h.forM _ fun argument _ => h.encodeWithin _ argument.1 argument.2
  · exact h.throw hfound

end Encoder.Stepwise

/-! ## Values -/

theorem refuses_put (size n : Nat) : Refuses (Encoder.put size n) := .of_ok fun _ => ⟨_, rfl⟩

theorem refuses_align (alignment : Nat) : Refuses (Encoder.align alignment) := .of_ok fun _ => ⟨_, rfl⟩

theorem refuses_append (bytes : List UInt8) : Refuses (Encoder.append bytes) := .of_ok fun _ => ⟨_, rfl⟩

theorem refuses_measured {alignment : Nat} {body : Encoder Unit} (h : Refuses body) :
    Refuses (writeMeasured alignment body) := by
  have hlast (length : Nat) :
      Refuses (if maxArrayLength < length then throw (.arrayTooLong length) else pure () : Encoder Unit) := by
    split
    · exact refuses_throw (.arrayTooLong length) trivial
    · exact .of_ok fun _ => ⟨_, rfl⟩
  refine Refuses.bind (.of_ok fun _ => ⟨_, rfl⟩) fun slot => (refuses_align alignment).bind fun _ => ?_
  refine Refuses.bind (.of_ok fun _ => ⟨_, rfl⟩) fun slot => h.bind fun _ => ?_
  exact Refuses.bind (.of_ok fun _ => ⟨_, rfl⟩) hlast

theorem stepwise_refuses : Encoder.Stepwise Refuses where
  pure _ := .of_ok fun _ => ⟨_, rfl⟩
  throw h := refuses_throw _ h
  lift h := .lift h
  bind := .bind
  append := refuses_append
  align _ := refuses_align _
  put _ n := refuses_put _ n
  measured _ _ hbody := refuses_measured hbody

theorem refuses_encodeWithin (levels : Nat) (type : Ty) (value : Value) : Refuses (encodeWithin levels type value) :=
  stepwise_refuses.encodeWithin levels type value

theorem refuses_encodeAll (types : List Ty) (values : List Value) : Refuses (encodeAll types values) :=
  stepwise_refuses.encodeAll types values

end Wire

end MessageBus
