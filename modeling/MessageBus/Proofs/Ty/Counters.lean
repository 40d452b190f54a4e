/-
The counters of the signature scan.

A scan counts its open containers while it keeps them on a stack: a counter is raised where a bracket or an array opens, and
lowered where a bracket closes and, once for every array that waited, where a complete type is placed. `Scan.Mirrors` says
that the counters are those of the stack, within their limits, and that the stack and all that was collected is in order.

It holds after every letter of every text, as long as the scan has not failed (`run_mirrors`). So no counter is ever lowered
that is zero already, the stack holds no more than 64 containers, and no array is left waiting behind a complete type.
-/
import MessageBus.Proofs.Ty.Depth

namespace MessageBus.Ty

/-- the types collected in an open container -/
def Frame.fields : Frame → List Ty
  | array => []
  | struct fields | dictEntry fields => fields

namespace Scan

/-! ## Counters that may not fall below zero -/

/-- `closeArrays` for a counter that cannot be lowered once it is zero -/
def closeArrays? : Ty → List Frame → Nat → Option (Ty × List Frame × Nat)
  | type, .array :: outer, arrays + 1 => closeArrays? (.array type) outer arrays
  | _, .array :: _, 0 => none
  | type, stack, arrays => some (type, stack, arrays)

/-- wherever a letter lowers a counter, it is not zero: a closing bracket takes a container off the stack and its counter
down by one, and what is complete then ends the arrays on the stack, or on what is left of it -/
structure Lowerable (scan : Scan) : Prop where
  structs : ∀ frame outer, scan.stack = frame :: outer → frame.isArray = false → 0 < scan.structs
  arrays : ∀ type outer, outer <:+ scan.stack →
    closeArrays? type outer scan.arrays = some (closeArrays type outer scan.arrays)

theorem closeArrays?_eq {outer : List Frame} {arrays : Nat} (h : openArrays outer ≤ arrays) (type : Ty) :
    closeArrays? type outer arrays = some (closeArrays type outer arrays) := by
  induction outer generalizing arrays type with
  | nil => rfl
  | cons frame outer ih =>
    cases frame with
    | array =>
      rw [openArrays_array] at h
      obtain ⟨arrays, rfl⟩ : ∃ fewer, arrays = fewer + 1 := ⟨arrays - 1, by omega⟩
      exact ih (by omega) (.array type)
    | struct fields => rfl
    | dictEntry fields => rfl

theorem openArrays_add_openStructs (stack : List Frame) : openArrays stack + openStructs stack = stack.length := by
  rw [openArrays, openStructs, List.length_eq_countP_add_countP (·.isArray)]
  simp

/-! ## Stacks in order -/

theorem Nested.tail {frame : Frame} {outer : List Frame} (h : Nested (frame :: outer)) : Nested outer := by
  cases h with
  | array h => exact h
  | struct h _ => exact h
  | dictEntry h _ => exact .array h

theorem Nested.suffix {stack outer : List Frame} (h : Nested stack) (hsuffix : outer <:+ stack) : Nested outer := by
  induction stack with
  | nil => exact List.suffix_nil.1 hsuffix ▸ h
  | cons frame stack ih =>
    obtain rfl | hinside := List.suffix_cons_iff.1 hsuffix
    · exact h
    · exact ih h.tail hinside

/-- the types in an open dict entry are a basic key and a value -/
theorem Entry.in_order {arrays structs : Nat} {fields : List Ty} (h : Entry arrays structs fields) :
    fields.length ≤ 2 ∧ (∀ key ∈ fields.head?, key.isBasic = true) ∧ ∀ type ∈ fields, type.WellFormed := by
  have hkey (key : Basic) : (basic key).WellFormed := Fits.wellFormed (fits_basic.2 ⟨Nat.zero_le _, Nat.zero_le _⟩)
  cases h with
  | none => simp
  | key key => simp [isBasic, hkey]
  | full key hvalue => simp [isBasic, hkey, hvalue.wellFormed]

theorem Nested.entry {fields : List Ty} {outer : List Frame} (h : Nested (.dictEntry fields :: outer)) :
    (∃ rest, outer = .array :: rest) ∧ fields.length ≤ 2 ∧ ∀ key ∈ fields.head?, key.isBasic = true := by
  cases h with
  | dictEntry _ hfields => exact ⟨⟨_, rfl⟩, hfields.in_order.1, hfields.in_order.2.1⟩

theorem Nested.fields_wellFormed {stack : List Frame} (h : Nested stack) {frame : Frame} (hframe : frame ∈ stack) {type : Ty}
    (htype : type ∈ frame.fields) : type.WellFormed := by
  obtain ⟨inner, outer, rfl⟩ := List.append_of_mem hframe
  cases h.suffix (List.suffix_append inner (frame :: outer)) with
  | array => cases htype
  | struct _ hfields => exact (hfields type htype).wellFormed
  | dictEntry _ hfields => exact hfields.in_order.2.2 type htype

/-! ## Behind a complete type -/

theorem closeArrays_top (type : Ty) (stack : List Frame) (arrays : Nat) :
    (closeArrays type stack arrays).2.1.head? ≠ some .array := by
  induction stack generalizing type arrays with
  | nil => simp [closeArrays]
  | cons frame outer ih =>
    cases frame with
    | array => exact ih (.array type) (arrays - 1)
    | _ => simp [closeArrays]

variable {text : String} {scan next : Scan}

theorem place_top {type : Ty} (h : place text scan type = .ok next) : next.stack.head? ≠ some .array := by
  have htop := closeArrays_top type scan.stack scan.arrays
  unfold place at h
  dsimp only at h
  split at h
  · cases h
    simp
  · split_ifs at h
    cases h
    simp
  · cases h
    exact htop

/-- the letters that open a container -/
def Opens (c : Char) : Prop := c = 'a' ∨ c = '(' ∨ c = '\x7b'

/-- every letter that opens nothing completes a type -/
theorem step_top {c : Char} (hc : ¬Opens c) (h : scan.step text c = .ok next) : next.stack.head? ≠ some .array := by
  revert h
  fun_cases step text scan c with
  | case1 ha => exact absurd (.inl ha) hc
  | case2 _ hparenthesis => exact absurd (.inr (.inl hparenthesis)) hc
  | case3 _ _ hbrace => exact absurd (.inr (.inr hbrace)) hc
  | case4 =>
    intro h
    unfold closeStruct at h
    split at h
    · cases h
    · exact place_top h
    · cases h
  | case5 =>
    intro h
    unfold closeEntry at h
    split at h
    · exact place_top h
    · cases h
    · cases h
  | case6 => exact place_top
  | case7 => exact place_top
  | case8 =>
    intro h
    cases h
  | case9 =>
    intro h
    cases h

/-! ## After every letter -/

/-- the counters are those of the stack, within their limits, and all that is on the stack or was collected is in order -/
structure Mirrors (scan : Scan) : Prop where
  arrays : scan.arrays = scan.stack.countP (·.isArray)
  structs : scan.structs = scan.stack.countP (!·.isArray)
  arrays_le : scan.arrays ≤ 32
  structs_le : scan.structs ≤ 32
  /-- a dict entry is open right inside of an array, with at most two types, of which the first is basic -/
  entries : ∀ fields outer, .dictEntry fields :: outer <:+ scan.stack →
    (∃ rest, outer = .array :: rest) ∧ fields.length ≤ 2 ∧ ∀ key ∈ fields.head?, key.isBasic = true
  fields : ∀ frame ∈ scan.stack, ∀ type ∈ frame.fields, type.WellFormed
  complete : ∀ type ∈ scan.complete, type.WellFormed

theorem Inv.mirrors {read : List Char} (h : Inv read scan) : scan.Mirrors where
  arrays := h.arrays
  structs := h.structs
  arrays_le := h.arrays_le
  structs_le := h.structs_le
  entries _ _ hsuffix := (h.stack.suffix hsuffix).entry
  fields _ hframe _ htype := h.stack.fields_wellFormed hframe htype
  complete type htype := (h.complete type htype).wellFormed

theorem Mirrors.length_le (h : scan.Mirrors) : scan.stack.length ≤ 64 := by
  have hsum : scan.arrays + scan.structs = scan.stack.length := by
    rw [h.arrays, h.structs]
    exact openArrays_add_openStructs scan.stack
  have harrays := h.arrays_le
  have hstructs := h.structs_le
  omega

theorem Mirrors.lowerable (h : scan.Mirrors) : scan.Lowerable where
  structs frame outer hstack hframe := by
    rw [h.structs, hstack, List.countP_cons, hframe]
    exact Nat.succ_pos _
  arrays type outer hsuffix := by
    apply closeArrays?_eq
    rw [h.arrays]
    exact hsuffix.sublist.countP_le

/-- **The counters mirror the stack after every letter** of any text that the scan has read without failing. So the next
letter lowers no counter that is zero, whether the scan fails there or not, the stack holds no more than 64 containers, and
behind a complete type no array is on top of it. -/
theorem run_mirrors {text : String} {read : List Char} {scan : Scan} (h : run text start read = .ok scan) :
    scan.Mirrors ∧ scan.Lowerable ∧ scan.stack.length ≤ 64 ∧
      ∀ c next, ¬Opens c → scan.step text c = .ok next → next.stack.head? ≠ some .array := by
  have hmirrors : scan.Mirrors := (run_inv inv_start h).mirrors
  exact ⟨hmirrors, hmirrors.lowerable, hmirrors.length_le, fun _ _ => step_top⟩

/-- inside of a dict of arrays, between its key and its value, where the next letter ends two arrays and no dict -/
theorem run_mirrors_dict :
    let scan : Scan := ⟨[.array, .array, .dictEntry [basic (.text .string)], .array, .struct [variant]], [], 3, 2⟩
    run "(va\x7bsaay\x7d)" start "(va\x7bsaa".toList = .ok scan ∧ scan.Mirrors ∧ scan.Lowerable ∧ scan.stack.length ≤ 64 ∧
      ∀ next, scan.step "(va\x7bsaay\x7d)" 'y' = .ok next → next.stack.head? ≠ some .array := by
  intro scan
  have hrun : run "(va\x7bsaay\x7d)" start "(va\x7bsaa".toList = .ok scan := by decide
  obtain ⟨hmirrors, hlowerable, hlength, htop⟩ := run_mirrors hrun
  exact ⟨hrun, hmirrors, hlowerable, hlength, fun next => htop 'y' next (by unfold Opens; decide)⟩

end Scan

end MessageBus.Ty
