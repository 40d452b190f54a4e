/-
Reading signatures, against their grammar.

`Scan.Inv` is what a scan knows after every letter: the open containers and the complete types spell out the letters
read, the two counters count the containers on the stack, a dict entry is open only inside of an array, and whatever
has been collected fits where it stands. Every letter preserves it (`step_inv`), so every accepted text is the text of
well-formed types (`parse_sound`). The other way, a type that fits is read off the front of any letters as one complete
type (`run_letters`), so the text of well-formed types is accepted when it is short enough (`parse_textAll`). Any other
text is refused for what is wrong with it as a whole, or for a letter in it that is set aside (`parse_blames`).
-/
import MessageBus.Proofs.Ty.Grammar

namespace MessageBus.Ty

/-! ## What a stack of open containers stands for -/

namespace Frame

/-- the letters since a container was opened -/
def letters : Frame → List Char
  | array => ['a']
  | struct fields => '(' :: lettersAll fields
  | dictEntry fields => '\x7b' :: lettersAll fields

def isArray : Frame → Bool
  | array => true
  | struct _ | dictEntry _ => false

end Frame

namespace Scan

/-- the letters of open containers, from the outermost one inwards -/
def stackLetters : List Frame → List Char
  | [] => []
  | frame :: outer => stackLetters outer ++ frame.letters

/-- the letters that a scan has read -/
def letters (scan : Scan) : List Char := lettersAll scan.complete ++ stackLetters scan.stack

def openArrays (stack : List Frame) : Nat := stack.countP (·.isArray)

def openStructs (stack : List Frame) : Nat := stack.countP (!·.isArray)

variable {outer : List Frame} {fields : List Ty}

@[simp] theorem openArrays_array : openArrays (.array :: outer) = openArrays outer + 1 := by
  simp [openArrays, Frame.isArray]

@[simp] theorem openArrays_struct : openArrays (.struct fields :: outer) = openArrays outer := by
  simp [openArrays, Frame.isArray]

@[simp] theorem openArrays_dictEntry : openArrays (.dictEntry fields :: outer) = openArrays outer := by
  simp [openArrays, Frame.isArray]

@[simp] theorem openStructs_array : openStructs (.array :: outer) = openStructs outer := by
  simp [openStructs, Frame.isArray]

@[simp] theorem openStructs_struct : openStructs (.struct fields :: outer) = openStructs outer + 1 := by
  simp [openStructs, Frame.isArray]

@[simp] theorem openStructs_dictEntry : openStructs (.dictEntry fields :: outer) = openStructs outer + 1 := by
  simp [openStructs, Frame.isArray]

/-- the fields of an open dict entry: a basic key comes first, then a value -/
inductive Entry (arrays structs : Nat) : List Ty → Prop where
  | none : Entry arrays structs []
  | key (key : Basic) : Entry arrays structs [basic key]
  | full (key : Basic) {value : Ty} (h : value.Fits arrays structs) : Entry arrays structs [basic key, value]

/-- open containers whose fields fit where they stand, with dict entries only inside of arrays -/
inductive Nested : List Frame → Prop where
  | nil : Nested []
  | array {outer : List Frame} (h : Nested outer) : Nested (.array :: outer)
  | struct {outer : List Frame} {fields : List Ty} (h : Nested outer)
      (hf : ∀ field ∈ fields, field.Fits (openArrays outer) (openStructs outer + 1)) : Nested (.struct fields :: outer)
  | dictEntry {outer : List Frame} {fields : List Ty} (h : Nested outer)
      (hf : Entry (openArrays outer + 1) (openStructs outer + 1) fields) : Nested (.dictEntry fields :: .array :: outer)

/-- what holds of a scan that has read some letters -/
structure Inv (read : List Char) (scan : Scan) : Prop where
  letters : scan.letters = read
  arrays : scan.arrays = openArrays scan.stack
  structs : scan.structs = openStructs scan.stack
  arrays_le : scan.arrays ≤ maxArrayDepth
  structs_le : scan.structs ≤ maxStructDepth
  stack : Nested scan.stack
  complete : ∀ type ∈ scan.complete, type.Fits 0 0

theorem inv_start : Inv [] start :=
  ⟨rfl, rfl, rfl, Nat.zero_le _, Nat.zero_le _, .nil, by simp [start]⟩

/-! ## Every letter preserves the invariant -/

/-- a type placed where an array waits for it ends the array -/
theorem place_array (text : String) (outer : List Frame) (complete : List Ty) (arrays structs : Nat) (type : Ty) :
    place text ⟨.array :: outer, complete, arrays, structs⟩ type
      = place text ⟨outer, complete, arrays - 1, structs⟩ (array type) := rfl

theorem lettersAll_snoc (types : List Ty) (type : Ty) : lettersAll (types ++ [type]) = lettersAll types ++ type.letters := by
  rw [lettersAll_append]
  simp [lettersAll]

theorem place_inv {text : String} {stack : List Frame} {complete : List Ty} {arrays structs : Nat} {type : Ty}
    {scan : Scan} {read : List Char} (hi : Inv read ⟨stack, complete, arrays, structs⟩)
    (hf : type.Fits arrays structs) (h : place text ⟨stack, complete, arrays, structs⟩ type = .ok scan) :
    Inv (read ++ type.letters) scan := by
  obtain ⟨hl, ha, hs, hale, hsle, hst, hc⟩ := hi
  simp only [letters] at hl ha hs hale hsle hst hc
  -- along the arrays that the type ends
  induction stack generalizing type arrays read with
  | nil =>
    cases h
    refine ⟨?_, ha, hs, hale, hsle, hst, ?_⟩
    · simp [letters, ← hl, lettersAll_snoc, stackLetters]
    · intro t ht
      rcases List.mem_append.1 ht with ht | ht
      · exact hc t ht
      · rw [List.mem_singleton.1 ht]
        rw [ha, hs] at hf
        exact hf
  | cons frame outer ih =>
    cases frame with
    | array =>
      rw [place_array] at h
      have ha' : arrays = openArrays outer + 1 := by simpa using ha
      have hs' : structs = openStructs outer := by simpa using hs
      have hstack : Nested outer := by
        cases hst
        assumption
      have hf' : (array type).Fits (arrays - 1) structs := by
        rw [fits_array hf.shaped, ha', Nat.add_sub_cancel]
        exact ha' ▸ hf
      have := ih hf' h rfl (by omega) hs' (by omega) hstack
      simpa [← hl, stackLetters, Frame.letters, letters, Ty.letters] using this
    | struct fields =>
      cases h
      cases hst with
      | struct hst hfs =>
        refine ⟨?_, ha, hs, hale, hsle, .struct hst ?_, hc⟩
        · simp [letters, ← hl, lettersAll_snoc, stackLetters, Frame.letters]
        · intro t ht
          rcases List.mem_append.1 ht with ht | ht
          · exact hfs t ht
          · rw [List.mem_singleton.1 ht]
            have ha' : arrays = openArrays outer := by simpa using ha
            have hs' : structs = openStructs outer + 1 := by simpa using hs
            exact ha' ▸ hs' ▸ hf
    | dictEntry fields =>
      cases hst with
      | @dictEntry outer _ hst hfs =>
        have ha' : arrays = openArrays outer + 1 := by simpa using ha
        have hs' : structs = openStructs outer + 1 := by simpa using hs
        have hl' : lettersAll complete ++ stackLetters (.dictEntry (fields ++ [type]) :: .array :: outer)
            = read ++ type.letters := by
          simp [← hl, lettersAll_snoc, stackLetters, Frame.letters]
        cases hfs with
        | none =>
          obtain ⟨key, rfl⟩ : ∃ key, type = basic key := by
            cases type with
            | basic key => exact ⟨key, rfl⟩
            | _ => cases h
          cases h
          exact ⟨hl', ha, hs, hale, hsle, .dictEntry hst (.key key), hc⟩
        | key key =>
          cases h
          exact ⟨hl', ha, hs, hale, hsle, .dictEntry hst (.full key (ha' ▸ hs' ▸ hf)), hc⟩
        | full => cases h

theorem openArray_inv {text : String} {scan scan' : Scan} {read : List Char} (hi : Inv read scan)
    (h : scan.openArray text = .ok scan') : Inv (read ++ ['a']) scan' := by
  unfold openArray at h
  split_ifs at h with hlt
  cases h
  refine ⟨?_, ?_, ?_, by simp only; omega, hi.structs_le, .array hi.stack, hi.complete⟩
  · simp [letters, ← hi.letters, stackLetters, Frame.letters]
  · simpa using hi.arrays
  · simpa using hi.structs

theorem openStruct_inv {text : String} {scan scan' : Scan} {read : List Char} (hi : Inv read scan)
    (h : scan.openStruct text = .ok scan') : Inv (read ++ ['(']) scan' := by
  unfold openStruct at h
  split_ifs at h with hlt
  cases h
  refine ⟨?_, ?_, ?_, hi.arrays_le, by simp only; omega, .struct hi.stack (by simp), hi.complete⟩
  · simp [letters, ← hi.letters, stackLetters, Frame.letters, lettersAll]
  · simpa using hi.arrays
  · simpa using hi.structs

theorem openEntry_inv {text : String} {scan scan' : Scan} {read : List Char} (hi : Inv read scan)
    (h : scan.openEntry text = .ok scan') : Inv (read ++ ['\x7b']) scan' := by
  obtain ⟨stack, complete, arrays, structs⟩ := scan
  unfold openEntry at h
  split at h
  · rename_i outer heq
    obtain rfl : stack = .array :: outer := heq
    split_ifs at h with hlt
    cases h
    have hst : Nested outer := by
      cases hi.stack
      assumption
    refine ⟨?_, ?_, ?_, hi.arrays_le, by simp only at hlt ⊢; omega, .dictEntry hst .none, hi.complete⟩
    · simp [letters, ← hi.letters, stackLetters, Frame.letters, lettersAll]
    · simpa using hi.arrays
    · simpa using hi.structs
  · cases h

theorem closeStruct_inv {text : String} {scan scan' : Scan} {read : List Char} (hi : Inv read scan)
    (h : scan.closeStruct text = .ok scan') : Inv (read ++ [')']) scan' := by
  obtain ⟨stack, complete, arrays, structs⟩ := scan
  obtain ⟨hl, ha, hs, hale, hsle, hst, hc⟩ := hi
  simp only [letters] at hl ha hs hale hsle hst hc
  unfold closeStruct at h
  split at h
  · cases h
  · rename_i fields outer hne heq
    obtain rfl : stack = .struct fields :: outer := heq
    cases hst with
    | struct hst hfs =>
      have ha' : arrays = openArrays outer := by simpa using ha
      have hs' : structs = openStructs outer + 1 := by simpa using hs
      have hf : (struct fields).Fits arrays (structs - 1) := by
        rw [fits_struct, ha', hs']
        exact ⟨fun h0 => hne (by rw [h0]), hfs⟩
      have := place_inv ⟨rfl, ha', by simp only; omega, hale, by simp only; omega, hst, hc⟩ hf h
      simpa [← hl, letters, stackLetters, Frame.letters, Ty.letters] using this
  · cases h

theorem closeEntry_inv {text : String} {scan scan' : Scan} {read : List Char} (hi : Inv read scan)
    (h : scan.closeEntry text = .ok scan') : Inv (read ++ ['\x7d']) scan' := by
  obtain ⟨stack, complete, arrays, structs⟩ := scan
  obtain ⟨hl, ha, hs, hale, hsle, hst, hc⟩ := hi
  simp only [letters] at hl ha hs hale hsle hst hc
  unfold closeEntry at h
  split at h
  · rename_i key value outer heq
    obtain rfl : stack = .dictEntry [key, value] :: outer := heq
    cases hst with
    | @dictEntry outer _ hst hfs =>
      cases hfs with
      | full key hv =>
        have ha' : arrays = openArrays outer + 1 := by simpa using ha
        have hs' : structs = openStructs outer + 1 := by simpa using hs
        -- the entry ends the array around it, and only the two together are a type
        rw [place_array] at h
        have hf : (array (dictEntry (basic key) value)).Fits (arrays - 1) (structs - 1) := by
          rw [fits_dict, ha', hs']
          exact hv
        have := place_inv ⟨rfl, by simp only; omega, by simp only; omega, by simp only; omega, by simp only; omega,
          hst, hc⟩ hf h
        simpa [← hl, letters, stackLetters, Frame.letters, Ty.letters, lettersAll] using this
  · cases h
  · cases h

theorem code_of_ofCode? {c : Char} {type : Basic} (h : Basic.ofCode? c = some type) : type.code = c := by
  unfold Basic.ofCode? at h
  split at h <;> cases h <;> rfl

/-- a step reads one letter more -/
theorem step_inv {text : String} {scan scan' : Scan} {read : List Char} {c : Char} (hi : Inv read scan)
    (h : scan.step text c = .ok scan') : Inv (read ++ [c]) scan' := by
  unfold step at h
  split at h
  next hc => exact hc ▸ openArray_inv hi h
  split at h
  next hc => exact hc ▸ openStruct_inv hi h
  split at h
  next hc => exact hc ▸ openEntry_inv hi h
  split at h
  next hc => exact hc ▸ closeStruct_inv hi h
  split at h
  next hc => exact hc ▸ closeEntry_inv hi h
  split at h
  next hc => exact hc ▸ place_inv hi (fits_variant.2 ⟨hi.arrays_le, hi.structs_le⟩) h
  split at h
  next type hcode =>
    have := place_inv hi (fits_basic.2 ⟨hi.arrays_le, hi.structs_le⟩) h
    rwa [Ty.letters, code_of_ofCode? hcode] at this
  split at h <;> cases h

theorem run_inv {text : String} {scan scan' : Scan} {read cs : List Char} (hi : Inv read scan)
    (h : run text scan cs = .ok scan') : Inv (read ++ cs) scan' := by
  induction cs generalizing scan read with
  | nil =>
    cases h
    simpa using hi
  | cons c cs ih =>
    rw [run] at h
    cases hstep : scan.step text c with
    | error e =>
      rw [hstep] at h
      cases h
    | ok next =>
      rw [hstep] at h
      simpa using ih (step_inv hi hstep) h

/-! ## A type that fits is read as one complete type -/

theorem run_cons {text : String} {scan next : Scan} {c : Char} (h : scan.step text c = .ok next) (cs : List Char) :
    run text scan (c :: cs) = run text next cs := by
  rw [run, h]
  rfl

/-- types collected one after another, wherever it is that a type is simply added to those before it -/
theorem run_lettersAll (text : String) {place : List Ty → Scan} {arrays structs : Nat} {types : List Ty}
    (hplace : ∀ done type, Scan.place text (place done) type = .ok (place (done ++ [type])))
    (ha : ∀ done, (place done).arrays = arrays) (hs : ∀ done, (place done).structs = structs)
    (hrun : ∀ type ∈ types, ∀ scan cs, type.Fits scan.arrays scan.structs →
      run text scan (type.letters ++ cs) = Scan.place text scan type >>= fun next => run text next cs)
    (hfit : ∀ type ∈ types, type.Fits arrays structs) (done : List Ty) (cs : List Char) :
    run text (place done) (lettersAll types ++ cs) = run text (place (done ++ types)) cs := by
  induction types generalizing done with
  | nil => simp [lettersAll]
  | cons type types ih =>
    have hf : type.Fits (place done).arrays (place done).structs := by
      rw [ha, hs]
      exact hfit type List.mem_cons_self
    rw [lettersAll, List.append_assoc, hrun type List.mem_cons_self _ _ hf, hplace]
    have := ih (fun t ht => hrun t (List.mem_cons_of_mem _ ht)) (fun t ht => hfit t (List.mem_cons_of_mem _ ht))
      (done ++ [type])
    rw [List.append_assoc, List.singleton_append] at this
    exact this

theorem step_array {text : String} {stack : List Frame} {complete : List Ty} {arrays structs : Nat}
    (h : arrays + 1 ≤ maxArrayDepth) :
    step text ⟨stack, complete, arrays, structs⟩ 'a' = .ok ⟨.array :: stack, complete, arrays + 1, structs⟩ := by
  simp only [step, openArray, if_true]
  rw [if_neg (by omega)]

theorem step_struct {text : String} {stack : List Frame} {complete : List Ty} {arrays structs : Nat}
    (h : structs + 1 ≤ maxStructDepth) :
    step text ⟨stack, complete, arrays, structs⟩ '(' = .ok ⟨.struct [] :: stack, complete, arrays, structs + 1⟩ := by
  simp only [step, openStruct, if_true]
  rw [if_neg (by decide), if_neg (by omega)]

theorem step_entry {text : String} {stack : List Frame} {complete : List Ty} {arrays structs : Nat}
    (h : structs + 1 ≤ maxStructDepth) :
    step text ⟨.array :: stack, complete, arrays, structs⟩ '\x7b'
      = .ok ⟨.dictEntry [] :: .array :: stack, complete, arrays, structs + 1⟩ := by
  simp only [step, openEntry, if_true]
  rw [if_neg (by decide), if_neg (by decide), if_neg (by omega)]

theorem step_basic (text : String) (scan : Scan) (type : Basic) :
    scan.step text type.code = scan.place text (basic type) := by
  have hcode := Basic.ofCode?_code type
  unfold step
  rw [if_neg (code_basic_ne type rfl), if_neg (code_basic_ne type rfl), if_neg (code_basic_ne type rfl),
    if_neg (code_basic_ne type rfl), if_neg (code_basic_ne type rfl), if_neg (code_basic_ne type rfl), hcode]

/-- **A type that fits is read off the front of any letters**, and placed where the scan stands. -/
theorem run_letters {text : String} {type : Ty} (hshape : type.Shaped) :
    ∀ (scan : Scan) (cs : List Char), type.Fits scan.arrays scan.structs →
      run text scan (type.letters ++ cs) = scan.place text type >>= fun next => run text next cs := by
  induction hshape with
  | basic type =>
    intro scan cs _
    rw [Ty.letters, List.singleton_append, run, step_basic]
  | variant =>
    intro scan cs _
    rfl
  | @array element hs ih =>
    rintro ⟨stack, complete, arrays, structs⟩ cs hf
    rw [fits_array hs] at hf
    rw [Ty.letters, List.cons_append, run_cons (step_array (hf.arrays.depth_le hs)), ih _ _ hf, place_array,
      Nat.add_sub_cancel]
  | @dict key value hs ih =>
    rintro ⟨stack, complete, arrays, structs⟩ cs hf
    rw [fits_dict] at hf
    have ha := hf.arrays.depth_le hs
    have hn := hf.structs.depth_le hs
    have hletters : (array (dictEntry (basic key) value)).letters ++ cs
        = 'a' :: '\x7b' :: key.code :: (value.letters ++ '\x7d' :: cs) := by
      simp [Ty.letters]
    have hkey : step text ⟨.dictEntry [] :: .array :: stack, complete, arrays + 1, structs + 1⟩ key.code
        = .ok ⟨.dictEntry [basic key] :: .array :: stack, complete, arrays + 1, structs + 1⟩ := by
      rw [step_basic]
      rfl
    rw [hletters, run_cons (step_array ha), run_cons (step_entry hn), run_cons hkey, ih _ _ hf]
    rfl
  | @struct fields hne hs ih =>
    rintro ⟨stack, complete, arrays, structs⟩ cs hf
    obtain ⟨-, hfs⟩ := fits_struct.1 hf
    obtain ⟨f, fs, hcons⟩ := List.exists_cons_of_ne_nil hne
    have hn : structs + 1 ≤ maxStructDepth := (hfs f (by simp [hcons])).structs.depth_le (hs f (by simp [hcons]))
    have hletters : (struct fields).letters ++ cs = '(' :: (lettersAll fields ++ ')' :: cs) := by simp [Ty.letters]
    have hfields := run_lettersAll text
      (fun done type => (rfl : Scan.place text ⟨.struct done :: stack, complete, arrays, structs + 1⟩ type = _))
      (fun _ => rfl) (fun _ => rfl) ih hfs [] (')' :: cs)
    rw [hletters, run_cons (step_struct hn), hfields, List.nil_append, hcons]
    rfl

end Scan

/-! ## The parser -/

theorem parse_sound {text : String} {types : List Ty} (h : parse text = .ok types) :
    text.utf8ByteSize ≤ maxTextLength ∧ textAll types = text ∧ ∀ type ∈ types, type.WellFormed := by
  unfold parse at h
  split_ifs at h with hlen
  cases hrun : Scan.start.run text text.toList with
  | error e =>
    rw [hrun] at h
    cases h
  | ok scan =>
    have hi := Scan.run_inv Scan.inv_start hrun
    obtain ⟨stack, complete, arrays, structs⟩ := scan
    have hfin : Scan.finish text ⟨stack, complete, arrays, structs⟩ = .ok types := by
      rw [hrun] at h
      exact h
    cases stack with
    | cons => cases hfin
    | nil =>
      cases hfin
      have hl := hi.letters
      simp only [Scan.letters, Scan.stackLetters, List.append_nil, List.nil_append] at hl
      exact ⟨by omega, textAll_eq_iff.2 hl, fun t ht => (wellFormed_iff_fits t).2 (hi.complete t ht)⟩

theorem parse_textAll {types : List Ty} (hlen : (textAll types).utf8ByteSize ≤ maxTextLength)
    (h : ∀ type ∈ types, type.WellFormed) : parse (textAll types) = .ok types := by
  have hfit : ∀ type ∈ types, type.Fits 0 0 := fun t ht => (wellFormed_iff_fits t).1 (h t ht)
  have hrun := Scan.run_lettersAll (textAll types)
    (fun done type => (rfl : Scan.place (textAll types) ⟨[], done, 0, 0⟩ type = _))
    (fun _ => rfl) (fun _ => rfl) (fun t ht => Scan.run_letters (h t ht).shaped) hfit [] []
  have htext : (textAll types).toList = lettersAll types := by simp [textAll]
  rw [List.append_nil, List.nil_append] at hrun
  unfold parse
  rw [if_neg (by omega), Scan.start, htext, hrun]
  rfl

/-- a text that a tree was written as is read as no other tree, be it well formed or not -/
theorem eq_of_parse_text {type : Ty} {types : List Ty} (h : parse type.text = .ok types) : types = [type] :=
  textAll_injective ((parse_sound h).2.1.trans (textAll_singleton type).symm)

theorem parseSingle_eq_ok_iff {text : String} {type : Ty} : parseSingle text = .ok type ↔ parse text = .ok [type] := by
  unfold parseSingle
  constructor
  · intro h
    cases hp : parse text with
    | error e =>
      rw [hp] at h
      cases h
    | ok types =>
      rw [hp] at h
      match types with
      | [t] =>
        cases h
        rfl
      | [] => cases h
      | _ :: _ :: _ => cases h
  · intro h
    rw [h]
    rfl

/-- **The parser accepts exactly the grammar**: a text of at most 255 bytes is read as the one list of well-formed
types that it is the text of. The text of any such list that is short enough is read back as that list, and no two
lists of trees have one text. -/
theorem parse_eq_ok_iff :
    (∀ (text : String) (types : List Ty), parse text = .ok types ↔
      text.utf8ByteSize ≤ maxTextLength ∧ textAll types = text ∧ ∀ type ∈ types, type.WellFormed) ∧
    (∀ types : List Ty, (∀ type ∈ types, type.WellFormed) → (textAll types).utf8ByteSize ≤ maxTextLength →
      parse (textAll types) = .ok types) ∧
    (∀ types types' : List Ty, types ≠ types' → textAll types ≠ textAll types') := by
  refine ⟨fun text types => ⟨parse_sound, ?_⟩, fun types h hlen => parse_textAll hlen h, fun types types' hne h => ?_⟩
  · intro h
    rcases h with ⟨hlen, rfl, h⟩
    exact parse_textAll hlen h
  · exact hne (textAll_injective h)

/-- a dict of variants and a struct behind it, and the same letters with the struct inside of the dict -/
theorem parse_eq_ok_iff_dict :
    let types : List Ty := [array (dictEntry (basic (.text .string)) variant), struct [basic (.int .int32)]]
    parse "a\x7bsv\x7d(i)" = .ok types ∧ (∀ type ∈ types, type.WellFormed) ∧
      (textAll types).utf8ByteSize ≤ maxTextLength ∧ parse (textAll types) = .ok types ∧
      textAll types ≠ textAll [array (dictEntry (basic (.text .string)) (struct [basic (.int .int32)]))] := by
  intro types
  have hparse : parse "a\x7bsv\x7d(i)" = .ok types := by decide
  obtain ⟨-, -, hwf⟩ := (parse_eq_ok_iff.1 _ _).1 hparse
  have hlen : (textAll types).utf8ByteSize ≤ maxTextLength := by decide
  exact ⟨hparse, hwf, hlen, parse_eq_ok_iff.2.1 types hwf hlen, parse_eq_ok_iff.2.2 _ _ (by decide)⟩

/-! ## What is wrong with a text -/

/-- an error about a text that is no signature, be it the whole of it or a letter that is set aside -/
def Blames (text : String) : Error → Prop
  | .malformedSignature named _ | .signatureTooComplex named => named = text
  | .reservedCode c => Scan.isReserved c
  | _ => False

section Blame

variable {text : String} {scan : Scan} {error : Error}

theorem Scan.place_blames {type : Ty} (h : scan.place text type = .error error) : Blames text error := by
  unfold Scan.place at h
  dsimp only at h
  split at h
  · cases h
  · split_ifs at h <;> cases h <;> rfl
  · cases h

theorem Scan.openArray_blames (h : scan.openArray text = .error error) : Blames text error := by
  unfold Scan.openArray at h
  split_ifs at h
  cases h
  rfl

theorem Scan.openStruct_blames (h : scan.openStruct text = .error error) : Blames text error := by
  unfold Scan.openStruct at h
  split_ifs at h
  cases h
  rfl

theorem Scan.openEntry_blames (h : scan.openEntry text = .error error) : Blames text error := by
  unfold Scan.openEntry at h
  split at h
  · split_ifs at h
    cases h
    rfl
  · cases h
    rfl

theorem Scan.closeStruct_blames (h : scan.closeStruct text = .error error) : Blames text error := by
  unfold Scan.closeStruct at h
  split at h
  · cases h
    rfl
  · exact place_blames h
  · cases h
    rfl

theorem Scan.closeEntry_blames (h : scan.closeEntry text = .error error) : Blames text error := by
  unfold Scan.closeEntry at h
  split at h
  · exact place_blames h
  · cases h
    rfl
  · cases h
    rfl

theorem Scan.step_blames {c : Char} (h : scan.step text c = .error error) : Blames text error := by
  revert h
  fun_cases Scan.step text scan c with
  | case1 => exact openArray_blames
  | case2 => exact openStruct_blames
  | case3 => exact openEntry_blames
  | case4 => exact closeStruct_blames
  | case5 => exact closeEntry_blames
  | case6 => exact place_blames
  | case7 => exact place_blames
  | case8 _ _ _ _ _ _ _ hreserved =>
    intro h
    cases h
    exact hreserved
  | case9 =>
    intro h
    cases h
    rfl

theorem Scan.run_blames {cs : List Char} (h : scan.run text cs = .error error) : Blames text error := by
  induction cs generalizing scan with
  | nil => cases h
  | cons c cs ih =>
    rw [Scan.run] at h
    cases hstep : scan.step text c with
    | error e =>
      rw [hstep] at h
      cases h
      exact step_blames hstep
    | ok next =>
      rw [hstep] at h
      exact ih h

theorem parse_blames (h : parse text = .error error) : Blames text error := by
  unfold parse at h
  split_ifs at h
  · cases h
    rfl
  · cases hrun : Scan.start.run text text.toList with
    | error e =>
      rw [hrun] at h
      cases h
      exact Scan.run_blames hrun
    | ok scan =>
      rw [hrun] at h
      change scan.finish text = .error error at h
      unfold Scan.finish at h
      split_ifs at h
      cases h
      rfl

end Blame

end MessageBus.Ty
