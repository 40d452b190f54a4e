/-
The grammars of names, as languages.

`NameKind.grammar` says what the names of each kind look like, by the operations of regular expressions: one character of
a class (`one`), words that start in one class and go on in another (`word`), and words with a mark between them
(`joined`, and `dotted` where there are two or more). A check cuts the text at its marks and looks at the segments, which
is the same: all segments are words of a language just when the text is joined from words of it (`mem_joined_iff`).

So a name is accepted exactly when it is in the grammar of its kind and, unless it is a path, no longer than 255 bytes
(`accepts_exactly`).
-/
import Mathlib
import MessageBus.Proofs.Name

namespace MessageBus

open Computability

/-! ## Languages of characters -/

namespace Name

/-- a single character of a class -/
def one (p : Char → Prop) : Language Char := {text | ∃ c, p c ∧ text = [c]}

/-- one character of the first class, and any number of the second behind it -/
def word (p q : Char → Prop) : Language Char := one p * (one q)∗

/-- one word or more, with a mark between any two -/
def joined (mark : Char) (words : Language Char) : Language Char := words * ({[mark]} * words)∗

/-- two words or more, with a dot between any two -/
def dotted (words : Language Char) : Language Char := words * ({['.']} * words) * ({['.']} * words)∗

theorem cons_mem_one_mul {p : Char → Prop} {l : Language Char} {c : Char} {cs : List Char} :
    c :: cs ∈ one p * l ↔ p c ∧ cs ∈ l := by
  rw [Language.mem_mul]
  constructor
  · rintro ⟨_, ⟨d, hd, rfl⟩, b, hb, heq⟩
    obtain ⟨rfl, rfl⟩ := List.cons.inj heq
    exact ⟨hd, hb⟩
  · rintro ⟨hc, hcs⟩
    exact ⟨[c], ⟨c, hc, rfl⟩, cs, hcs, rfl⟩

theorem nil_notMem_one_mul {p : Char → Prop} {l : Language Char} : [] ∉ one p * l := by
  rw [Language.mem_mul]
  rintro ⟨_, ⟨d, -, rfl⟩, b, -, heq⟩
  cases heq

theorem mem_kstar_one {p : Char → Prop} {cs : List Char} : cs ∈ (one p)∗ ↔ ∀ c ∈ cs, p c := by
  induction cs with
  | nil => simp [Language.nil_mem_kstar]
  | cons c cs ih =>
    rw [← Language.one_add_self_mul_kstar_eq_kstar, Language.mem_add, Language.mem_one, cons_mem_one_mul, ih]
    simp

theorem cons_mem_word {p q : Char → Prop} {c : Char} {cs : List Char} : c :: cs ∈ word p q ↔ p c ∧ ∀ d ∈ cs, q d := by
  rw [word, cons_mem_one_mul, mem_kstar_one]

theorem nil_notMem_word {p q : Char → Prop} : [] ∉ word p q := nil_notMem_one_mul

theorem mem_mark_mul {mark : Char} {l : Language Char} {cs : List Char} :
    cs ∈ ({[mark]} : Language Char) * l ↔ ∃ rest ∈ l, cs = mark :: rest := by
  rw [Language.mem_mul]
  constructor
  · rintro ⟨_, rfl, rest, hrest, rfl⟩
    exact ⟨rest, hrest, rfl⟩
  · rintro ⟨rest, hrest, rfl⟩
    exact ⟨[mark], rfl, rest, hrest, rfl⟩

/-- what is joined is a single word, or a word, the mark and what is joined behind it -/
theorem joined_eq (mark : Char) (words : Language Char) :
    joined mark words = words + words * ({[mark]} * joined mark words) := by
  conv_lhs => rw [joined, ← Language.one_add_self_mul_kstar_eq_kstar]
  rw [mul_add, mul_one, joined, mul_assoc {[mark]} words]

theorem dotted_eq (words : Language Char) : dotted words = words * ({['.']} * joined '.' words) := by
  rw [dotted, joined, mul_assoc, mul_assoc]

theorem mem_word_mark {mark : Char} {words l : Language Char} {cs : List Char} :
    cs ∈ words * ({[mark]} * l) ↔ ∃ first ∈ words, ∃ rest ∈ l, cs = first ++ mark :: rest := by
  rw [Language.mem_mul]
  constructor
  · rintro ⟨first, hfirst, behind, hbehind, rfl⟩
    obtain ⟨rest, hrest, rfl⟩ := mem_mark_mul.1 hbehind
    exact ⟨first, hfirst, rest, hrest, rfl⟩
  · rintro ⟨first, hfirst, rest, hrest, rfl⟩
    exact ⟨first, hfirst, mark :: rest, mem_mark_mul.2 ⟨rest, hrest, rfl⟩, rfl⟩

/-! ## Segments -/

theorem segments_eq_splitOn (mark : Char) (cs : List Char) : segments mark cs = cs.splitOn mark := by
  induction cs with
  | nil => simp [segments, List.splitOn_nil]
  | cons c cs ih =>
    obtain ⟨first, rest, heq⟩ := List.exists_cons_of_ne_nil (segments_ne_nil mark cs)
    rw [segments, List.splitOn_cons_eq_if_modifyHead, ← ih, heq]
    simp

/-- a text is cut at its first mark in one way only -/
theorem cut_unique {mark : Char} {first first' rest rest' : List Char} (h : mark ∉ first) (h' : mark ∉ first')
    (heq : first ++ mark :: rest = first' ++ mark :: rest') : first = first' ∧ rest = rest' := by
  have hsplit := congrArg (List.splitOn mark) heq
  rw [List.splitOn_append_cons_self_of_not_mem h, List.splitOn_append_cons_self_of_not_mem h'] at hsplit
  obtain ⟨rfl, -⟩ := List.cons.inj hsplit
  exact ⟨rfl, (List.cons.inj (List.append_cancel_left heq)).2⟩

section Segments

variable {mark : Char} {words : Language Char}

/-- words without the mark, of which the first ends where the mark is met first -/
theorem mem_word_mark_iff (hmark : ∀ w ∈ words, mark ∉ w) {l : Language Char} {first rest : List Char}
    (hfirst : mark ∉ first) : first ++ mark :: rest ∈ words * ({[mark]} * l) ↔ first ∈ words ∧ rest ∈ l := by
  rw [mem_word_mark]
  constructor
  · rintro ⟨first', hw, rest', hl, heq⟩
    obtain ⟨rfl, rfl⟩ := cut_unique hfirst (hmark first' hw) heq
    exact ⟨hw, hl⟩
  · rintro ⟨hw, hl⟩
    exact ⟨first, hw, rest, hl, rfl⟩

/-- **Segments and joined words**: a text is joined from words without the mark just when all its segments are words. -/
theorem mem_joined_iff (hmark : ∀ w ∈ words, mark ∉ w) (cs : List Char) :
    cs ∈ joined mark words ↔ ∀ segment ∈ segments mark cs, segment ∈ words := by
  -- by the length of the text, since what is left behind the first mark is shorter
  induction hlen : cs.length using Nat.strong_induction_on generalizing cs with
  | _ n ih =>
    rw [joined_eq, Language.mem_add, segments_eq_splitOn]
    by_cases hc : mark ∈ cs
    · obtain ⟨first, rest, rfl, hfirst⟩ := List.eq_append_cons_of_mem hc
      have hshorter : rest.length < n := by
        rw [List.length_append, List.length_cons] at hlen
        omega
      have hword : first ++ mark :: rest ∉ words := fun h => hmark _ h hc
      rw [mem_word_mark_iff hmark hfirst, List.splitOn_append_cons_self_of_not_mem hfirst, List.forall_mem_cons,
        ih _ hshorter rest rfl, segments_eq_splitOn]
      simp only [hword, false_or]
    · have hbehind : cs ∉ words * ({[mark]} * joined mark words) := by
        intro h
        obtain ⟨first, -, rest, -, rfl⟩ := mem_word_mark.1 h
        exact hc (by simp)
      rw [List.splitOn_eq_singleton hc, List.forall_mem_singleton]
      simp only [hbehind, or_false]

theorem mem_dotted_iff (hdot : ∀ w ∈ words, '.' ∉ w) (cs : List Char) :
    cs ∈ dotted words ↔ '.' ∈ cs ∧ ∀ segment ∈ segments '.' cs, segment ∈ words := by
  rw [dotted_eq]
  by_cases hc : '.' ∈ cs
  · obtain ⟨first, rest, rfl, hfirst⟩ := List.eq_append_cons_of_mem hc
    rw [mem_word_mark_iff hdot hfirst, mem_joined_iff hdot, segments_eq_splitOn, segments_eq_splitOn,
      List.splitOn_append_cons_self_of_not_mem hfirst, List.forall_mem_cons]
    simp only [hc, true_and]
  · simp only [hc, false_and, iff_false]
    intro h
    obtain ⟨first, -, rest, -, rfl⟩ := mem_word_mark.1 h
    exact hc (by simp)

end Segments

/-! ## The grammars -/

def Letter (c : Char) : Prop := ('A' ≤ c ∧ c ≤ 'Z') ∨ ('a' ≤ c ∧ c ≤ 'z')

def Digit (c : Char) : Prop := '0' ≤ c ∧ c ≤ '9'

def Element (c : Char) : Prop := Letter c ∨ Digit c ∨ c = '_'

def BusElement (c : Char) : Prop := Element c ∨ c = '-'

/-- elements, at least one -/
def elements : Language Char := word Element Element

/-- elements that do not start with a digit, at least one -/
def identifiers : Language Char := word (fun c => Letter c ∨ c = '_') Element

/-- a segment of a bus name, which may start with a digit in a unique name only -/
def busSegments (unique : Bool) : Language Char := word (fun c => BusElement c ∧ (unique = true ∨ ¬Digit c)) BusElement

end Name

open Name in
/-- what the names of a kind look like, whatever their length -/
def NameKind.grammar : NameKind → Language Char
  | .objectPath => {['/']} + ({['/']} * elements) * ({['/']} * elements)∗
  | .interface | .error => dotted identifiers
  | .member => identifiers
  | .bus => {[':']} * dotted (busSegments true) + dotted (busSegments false)

/-- a name is in the grammar of its kind and, unless it is a path, no longer than 255 bytes -/
def NameKind.Permits (kind : NameKind) (name : String) : Prop :=
  name.toList ∈ kind.grammar ∧ (kind ≠ .objectPath → name.utf8ByteSize ≤ 255)

namespace Name

/-! ## The checks of single segments -/

variable {c : Char} {cs : List Char}

theorem isDigit_iff : c.isDigit = true ↔ Digit c := by
  simp [Char.isDigit, Digit, Char.le_def]

theorem isAlpha_iff : c.isAlpha = true ↔ Letter c := by
  simp [Char.isAlpha, Char.isUpper, Char.isLower, Letter, Char.le_def]

theorem isElement_iff : isElement c = true ↔ Element c := by
  simp [isElement, Char.isAlphanum, isAlpha_iff, isDigit_iff, Element, or_assoc]

theorem isIdentifier_iff : isIdentifier cs = true ↔ cs ∈ identifiers := by
  cases cs with
  | nil => simp [isIdentifier, identifiers, nil_notMem_word]
  | cons c cs => simp [isIdentifier, identifiers, cons_mem_word, isAlpha_iff, isElement_iff]

theorem isElements_iff : (!cs.isEmpty && cs.all isElement) = true ↔ cs ∈ elements := by
  cases cs with
  | nil => simp [elements, nil_notMem_word]
  | cons c cs => simp [elements, cons_mem_word, isElement_iff]

theorem isBusSegment_iff {unique : Bool} : isBusSegment unique cs = true ↔ cs ∈ busSegments unique := by
  cases cs with
  | nil => simp [isBusSegment, busSegments, nil_notMem_word]
  | cons c cs =>
    simp only [isBusSegment, busSegments, cons_mem_word, List.all_cons, Bool.and_eq_true, Bool.or_eq_true,
      List.all_eq_true, isElement_iff, decide_eq_true_eq, BusElement, Bool.not_eq_true', ← isDigit_iff,
      Bool.not_eq_true]
    tauto

/-- words of elements hold no mark -/
theorem mark_notMem_word {mark : Char} {p q : Char → Prop} (hp : ¬p mark) (hq : ¬q mark) :
    ∀ w ∈ word p q, mark ∉ w := by
  intro w hw hmark
  cases w with
  | nil => exact nil_notMem_word hw
  | cons c cs =>
    obtain ⟨hc, hcs⟩ := cons_mem_word.1 hw
    obtain rfl | hmem := List.mem_cons.1 hmark
    · exact hp hc
    · exact hq (hcs mark hmem)

theorem not_element_of_isElement {mark : Char} (h : isElement mark = false) : ¬Element mark := by
  rw [← isElement_iff, h]
  exact Bool.false_ne_true

theorem dot_notMem_identifiers : ∀ w ∈ identifiers, '.' ∉ w := by
  have hdot : ¬Element '.' := not_element_of_isElement (by decide)
  exact mark_notMem_word (fun h => hdot (h.imp id .inr)) hdot

theorem not_busElement {mark : Char} (h : isElement mark = false) (hdash : mark ≠ '-') : ¬BusElement mark := by
  rintro (helement | rfl)
  · exact not_element_of_isElement h helement
  · exact hdash rfl

theorem mark_notMem_busSegments {mark : Char} (h : isElement mark = false) (hdash : mark ≠ '-') (unique : Bool) :
    ∀ w ∈ busSegments unique, mark ∉ w :=
  mark_notMem_word (fun hmark => not_busElement h hdash hmark.1) (not_busElement h hdash)

/-! ## The checks of whole names -/

theorem isDotted_iff : isDotted cs = true ↔ cs ∈ dotted identifiers := by
  rw [mem_dotted_iff dot_notMem_identifiers]
  simp [isDotted, isIdentifier_iff]

theorem busSegments_iff {unique : Bool} :
    (cs.contains '.' && (segments '.' cs).all (isBusSegment unique)) = true ↔ cs ∈ dotted (busSegments unique) := by
  rw [mem_dotted_iff (mark_notMem_busSegments (by decide) (by decide) unique)]
  simp [isBusSegment_iff]

/-- a name that starts with a colon is no name of segments alone -/
theorem colon_notMem_dotted : ':' :: cs ∉ dotted (busSegments false) := by
  intro h
  rw [dotted_eq, mem_word_mark] at h
  obtain ⟨first, hfirst, rest, -, heq⟩ := h
  cases first with
  | nil => exact nil_notMem_word hfirst
  | cons c first =>
    obtain ⟨rfl, -⟩ := List.cons.inj heq
    exact mark_notMem_busSegments (by decide) (by decide) false _ hfirst List.mem_cons_self

theorem isBusName_iff : isBusName cs = true ↔ cs ∈ NameKind.bus.grammar := by
  rw [NameKind.grammar, Language.mem_add]
  unfold isBusName
  split
  · rename_i rest
    rw [busSegments_iff, mem_mark_mul]
    simp [colon_notMem_dotted]
  · rename_i hcolon
    rw [busSegments_iff, mem_mark_mul]
    constructor
    · exact .inr
    · rintro (⟨rest, -, rfl⟩ | h)
      · exact absurd rfl (hcolon rest)
      · exact h

theorem isObjectPath_iff : isObjectPath cs = true ↔ cs ∈ NameKind.objectPath.grammar := by
  have hslash : ∀ w ∈ elements, '/' ∉ w :=
    mark_notMem_word (not_element_of_isElement (by decide)) (not_element_of_isElement (by decide))
  have hgrammar : NameKind.objectPath.grammar = {['/']} + {['/']} * joined '/' elements := by
    rw [NameKind.grammar, joined, mul_assoc]
  rw [hgrammar, Language.mem_add, mem_mark_mul]
  unfold isObjectPath
  split
  · simp only [true_iff]
    exact .inl rfl
  · rename_i rest hroot
    have hne : '/' :: rest ∉ ({['/']} : Language Char) := fun h => hroot (List.cons.inj h).2
    simp only [hne, false_or, List.cons.injEq, true_and, exists_eq_right', mem_joined_iff hslash, List.all_eq_true,
      isElements_iff]
  · rename_i hroot hrest
    simp only [Bool.false_eq_true, false_iff, not_or, not_exists, not_and]
    refine ⟨fun h => hroot h, ?_⟩
    rintro rest - rfl
    exact hrest rest rfl

end Name

namespace NameKind

open Name

theorem accepts_iff {kind : NameKind} {name : String} : kind.accepts name = true ↔ kind.Permits name := by
  cases kind with
  | objectPath => simp [accepts, Permits, isObjectPath_iff]
  | interface | error =>
    rw [accepts, Bool.and_eq_true, decide_eq_true_eq, isDotted_iff, and_comm]
    simp [Permits, grammar, maxLength]
  | member =>
    rw [accepts, Bool.and_eq_true, decide_eq_true_eq, isIdentifier_iff, and_comm]
    simp [Permits, grammar, maxLength]
  | bus =>
    rw [accepts, Bool.and_eq_true, decide_eq_true_eq, isBusName_iff, and_comm]
    simp [Permits, maxLength]

/-- **The checks of names accept exactly their grammars**, whatever characters the text holds: it is a name of a kind when
the language of the kind has it and, of all kinds but paths, when it is no longer than 255 bytes; any other text is
refused as what it is. So no name holds a NUL. -/
theorem accepts_exactly (kind : NameKind) (name : String) :
    (kind.accepts name = true ↔ kind.Permits name) ∧ (kind.check name = .ok () ↔ kind.Permits name) ∧
      (kind.check name = .error (.invalidName kind name) ↔ ¬kind.Permits name) ∧
      (kind.Permits name → '\x00' ∉ name.toList) := by
  refine ⟨accepts_iff, check_eq_ok_iff.trans accepts_iff, ?_, fun h => nul_not_mem_of_accepts (accepts_iff.2 h)⟩
  rw [← accepts_iff, check]
  split_ifs with h <;> simp [h]

/-- a unique name with segments that start with a digit and with a dash -/
theorem accepts_exactly_unique : NameKind.bus.Permits ":1.-x_2" ∧ NameKind.bus.check ":1.-x_2" = .ok () ∧
    '\x00' ∉ ":1.-x_2".toList := by
  obtain ⟨haccepts, hcheck, -, hnul⟩ := accepts_exactly .bus ":1.-x_2"
  have hpermits : NameKind.bus.Permits ":1.-x_2" := haccepts.1 (by decide)
  exact ⟨hpermits, hcheck.2 hpermits, hnul hpermits⟩

end NameKind

end MessageBus
