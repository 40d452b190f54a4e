/-
How deep types nest.

A type that a signature can name opens at most 32 arrays on any way down, and at most 32 structs and dict entries, so that
the values of a type without variants need no more than 64 levels below the first (`WellFormed.shallow`). The text of such
a type, or of anything inside of it, is never one that the parser calls too complex (`WellFormed.simple_part`); and what the
parser calls so is the very text that it was given (`parse_justified`).
-/
import MessageBus.Proofs.Ty.Scan

namespace MessageBus

/-- the parser itself calls a text too complex -/
def Ty.TooComplex (text : String) : Prop := parse text = .error (.signatureTooComplex text)

/-- an error calls only those signatures too complex that the parser calls so -/
def Error.Justified : Error → Prop
  | signatureTooComplex text => Ty.TooComplex text
  | _ => True

namespace Ty

/-! ## The types inside of a type -/

mutual
/-- a type and all types inside of it -/
def parts : Ty → List Ty
  | basic type => [basic type]
  | variant => [variant]
  | array element => array element :: element.parts
  | struct fields => struct fields :: partsAll fields
  | dictEntry key value => dictEntry key value :: (key.parts ++ value.parts)
def partsAll : List Ty → List Ty
  | [] => []
  | type :: types => type.parts ++ partsAll types
end

theorem partsAll_eq (types : List Ty) : partsAll types = types.flatMap parts := by
  induction types with
  | nil => rfl
  | cons type types ih => rw [partsAll, ih, List.flatMap_cons]

theorem mem_parts {type part : Ty} : part ∈ type.parts ↔ part = type ∨ ∃ child ∈ type.children, part ∈ child.parts := by
  cases type <;> simp [parts, children, partsAll_eq]

theorem self_mem_parts (type : Ty) : type ∈ type.parts := mem_parts.2 (.inl rfl)

theorem mem_parts_of_child {type child part : Ty} (hchild : child ∈ type.children) (h : part ∈ child.parts) :
    part ∈ type.parts := mem_parts.2 (.inr ⟨child, hchild, h⟩)

/-! ## Levels -/

/-- a type without variants, for whose values so many levels are enough, a scalar being one -/
inductive Shallow : Nat → Ty → Prop where
  | basic {levels : Nat} (type : Basic) : Shallow (levels + 1) (basic type)
  | array {levels : Nat} {element : Ty} (h : Shallow levels element) : Shallow (levels + 1) (array element)
  | struct {levels : Nat} {fields : List Ty} (h : ∀ field ∈ fields, Shallow levels field) :
      Shallow (levels + 1) (struct fields)
  | dictEntry {levels : Nat} {key value : Ty} (hkey : Shallow levels key) (hvalue : Shallow levels value) :
      Shallow (levels + 1) (dictEntry key value)

theorem Shallow.succ {levels : Nat} {type : Ty} (h : type.Shallow levels) : type.Shallow (levels + 1) := by
  induction h with
  | basic type => exact .basic type
  | array _ ih => exact .array ih
  | struct _ ih => exact .struct ih
  | dictEntry _ _ ihkey ihvalue => exact .dictEntry ihkey ihvalue

variable {levels arrays structs : Nat} {type : Ty}

/-- what is left of both limits is enough for the levels of a type that stands inside of so many containers -/
theorem Fits.shallow (h : type.Fits arrays structs) (hv : variant ∉ type.parts)
    (hlevels : maxArrayDepth + maxStructDepth < arrays + structs + levels) : type.Shallow levels := by
  have hshaped := h.shaped
  induction hshaped generalizing arrays structs levels with
  | basic type =>
    obtain ⟨harrays, hstructs⟩ := fits_basic.1 h
    obtain ⟨rest, rfl⟩ : ∃ rest, levels = rest + 1 := ⟨levels - 1, by omega⟩
    exact .basic type
  | variant => exact absurd (self_mem_parts variant) hv
  | @array element hs ih =>
    have helement := (fits_array hs).1 h
    have harrays := helement.arrays.depth_le hs
    have hstructs := helement.structs.depth_le hs
    obtain ⟨rest, rfl⟩ : ∃ rest, levels = rest + 1 := ⟨levels - 1, by omega⟩
    refine .array (ih helement (fun hmem => hv (mem_parts_of_child (List.mem_singleton_self _) hmem)) ?_)
    omega
  | @dict key value hs ih =>
    have hvalue := fits_dict.1 h
    have harrays := hvalue.arrays.depth_le hs
    have hstructs := hvalue.structs.depth_le hs
    obtain ⟨rest, rfl⟩ : ∃ rest, levels = rest + 3 := ⟨levels - 3, by omega⟩
    have hinside : value ∈ (dictEntry (basic key) value).children := by simp [children]
    refine .array (.dictEntry (.basic key) (ih hvalue (fun hmem => hv ?_) ?_))
    · exact mem_parts_of_child (List.mem_singleton_self _) (mem_parts_of_child hinside hmem)
    · omega
  | @struct fields hne hs ih =>
    obtain ⟨-, hfields⟩ := fits_struct.1 h
    obtain ⟨first, rest, rfl⟩ := List.exists_cons_of_ne_nil hne
    have hfirst := hfields first List.mem_cons_self
    have harrays := hfirst.arrays.depth_le hfirst.shaped
    have hstructs := hfirst.structs.depth_le hfirst.shaped
    obtain ⟨rest, rfl⟩ : ∃ rest, levels = rest + 1 := ⟨levels - 1, by omega⟩
    refine .struct fun field hfield => ih field hfield (hfields field hfield) (fun hmem => hv ?_) ?_
    · exact mem_parts_of_child hfield hmem
    · omega

/-- **The limits of signatures bound the levels of values.** -/
theorem WellFormed.shallow (h : type.WellFormed) (hv : variant ∉ type.parts) :
    type.Shallow (maxArrayDepth + maxStructDepth + 1) := by
  refine ((wellFormed_iff_fits type).1 h).shallow hv ?_
  omega

/-! ## Signatures that are too complex -/

/-- the parser calls none too complex but the text that it was given -/
theorem parse_justified {text : String} {error : Error} (h : parse text = .error error) : error.Justified := by
  cases error with
  | signatureTooComplex named =>
    obtain rfl : named = text := parse_blames h
    exact h
  | _ => trivial

/-- what may stand inside of containers may stand alone -/
theorem Nests.outside {sort : Ty → Bool} {limit depth : Nat} (h : type.Nests sort limit depth) :
    type.Nests sort limit 0 := by
  intro path hpath
  have := h path hpath
  omega

theorem Fits.wellFormed (h : type.Fits arrays structs) : type.WellFormed :=
  (wellFormed_iff_fits type).2 ⟨h.shaped, h.arrays.outside, h.structs.outside⟩

/-- a type inside of one that a signature can name is one itself, or a dict entry -/
theorem Fits.part {part : Ty} (h : type.Fits arrays structs) (hp : part ∈ type.parts) :
    part.WellFormed ∨ ∃ key value, part = dictEntry key value := by
  have hshaped := h.shaped
  induction hshaped generalizing arrays structs with
  | basic type =>
    obtain rfl : part = basic type := by simpa [parts] using hp
    exact .inl h.wellFormed
  | variant =>
    obtain rfl : part = variant := by simpa [parts] using hp
    exact .inl h.wellFormed
  | @array element hs ih =>
    obtain rfl | hinside : part = array element ∨ part ∈ element.parts := by simpa [parts] using hp
    · exact .inl h.wellFormed
    · exact ih ((fits_array hs).1 h) hinside
  | @dict key value hs ih =>
    have hcases : part = array (dictEntry (basic key) value) ∨ part = dictEntry (basic key) value ∨ part = basic key ∨
        part ∈ value.parts := by simpa [parts] using hp
    obtain rfl | rfl | rfl | hinside := hcases
    · exact .inl h.wellFormed
    · exact .inr ⟨_, _, rfl⟩
    · exact .inl (Fits.wellFormed (fits_basic.2 ⟨Nat.zero_le _, Nat.zero_le _⟩))
    · exact ih (fits_dict.1 h) hinside
  | @struct fields hne hs ih =>
    have hcases : part = struct fields ∨ ∃ field ∈ fields, part ∈ field.parts := by simpa [parts, partsAll_eq] using hp
    obtain rfl | ⟨field, hfield, hinside⟩ := hcases
    · exact .inl h.wellFormed
    · exact ih field hfield ((fits_struct.1 h).2 field hfield) hinside

/-- **What a type of a signature is made of is never called too complex.** -/
theorem WellFormed.simple_part {part : Ty} (h : type.WellFormed) (hp : part ∈ type.parts) : ¬TooComplex part.text := by
  intro hcomplex
  unfold TooComplex at hcomplex
  obtain hpart | ⟨key, value, rfl⟩ := ((wellFormed_iff_fits type).1 h).part hp
  · by_cases hlen : part.text.utf8ByteSize ≤ maxTextLength
    · have hparse : parse (textAll [part]) = .ok [part] :=
        parse_textAll (by rwa [textAll_singleton]) (by simpa using hpart)
      rw [textAll_singleton] at hparse
      rw [hparse] at hcomplex
      cases hcomplex
    · rw [parse, if_pos (by omega)] at hcomplex
      cases hcomplex
  · -- a dict entry has no text of its own: the brace stands where only an array may open it
    have hfirst : (dictEntry key value).text.toList = '\x7b' :: (key.letters ++ value.letters ++ ['\x7d']) := by
      simp [text, letters]
    unfold parse at hcomplex
    rw [hfirst] at hcomplex
    split_ifs at hcomplex
    · cases hcomplex
    · cases hcomplex

end Ty

end MessageBus
