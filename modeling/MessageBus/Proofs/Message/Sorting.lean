/-
Sorting header fields.

The array of header fields may hold any values. Those that are pairs of a code and a variant are its entries; all else is
passed over. An entry of a known code has to be of the type of the field (`Typed`), and the first one that is not is the
error. Otherwise every field is that of the last entry with its code, and the entries of unknown codes are kept in order
(`SortedFrom`). One more entry changes just its own field (`insert_typed`), from which all of the array is sorted out
(`ofWire_sorts`): in any order of the entries that keeps those of one code, and those of unknown codes, in their order.
-/
import MessageBus.Proofs.Message.Fields

namespace MessageBus

/-- the type of a header field; one of an unknown code may be of any -/
def FieldCode.type? : FieldCode → Option Basic
  | path => some (.text .objectPath)
  | interface | member | errorName | destination | sender => some (.text .string)
  | replySerial | unixFds => some (.int .uint32)
  | signature => some (.text .signature)
  | unknown _ => none

namespace Fields

/-! ## Entries and what is made of them -/

/-- code, type and content of a pair in the array -/
abbrev Entry := UInt8 × Ty × Value

namespace Entry

def code (entry : Entry) : FieldCode := .ofCode entry.1

def content (entry : Entry) : Value := entry.2.2

/-- the field has a type, and the entry is of it: by the type of the variant, and by what is in it -/
def Typed (entry : Entry) : Prop :=
  ∀ type, entry.code.type? = some type → entry.2.1 = .basic type ∧ ∃ value : Scalar, value.type = type ∧
    entry.content = .scalar value

end Entry

/-- the field of a known code, if it is set -/
def Sorted.held (sorted : Sorted) : FieldCode → Option Scalar
  | .path => sorted.fields.path.map (.text .objectPath)
  | .interface => sorted.fields.interface.map (.text .string)
  | .member => sorted.fields.member.map (.text .string)
  | .errorName => sorted.fields.errorName.map (.text .string)
  | .replySerial => sorted.fields.replySerial.map fun serial => .int .uint32 serial.toBitVec
  | .destination => sorted.fields.destination.map (.text .string)
  | .sender => sorted.fields.sender.map (.text .string)
  | .signature => sorted.signature.map (.text .signature)
  | .unixFds => sorted.fields.unixFds.map fun count => .int .uint32 count.toBitVec
  | .unknown _ => none

/-- the entries with a code, in order -/
def withCode (code : FieldCode) (entries : List Entry) : List Entry := entries.filter fun entry => entry.code = code

def lastOf? (code : FieldCode) (entries : List Entry) : Option Entry := (withCode code entries).getLast?

/-- the entries of unknown codes, in order -/
def unknowns (entries : List Entry) : List Entry := entries.filter fun entry => entry.code.type? = none

/-- what some entries are sorted into -/
structure SortedFrom (entries : List Entry) (sorted : Sorted) : Prop where
  typed : ∀ entry ∈ entries, entry.Typed
  held : ∀ code, code.type? ≠ none → (sorted.held code).map Value.scalar = (lastOf? code entries).map Entry.content
  unknown : sorted.fields.unknown = unknowns entries

/-! ## One entry -/

variable {sorted : Sorted} {entry : Entry} {entries before after : List Entry}

theorem insert_mistyped (h : ¬entry.Typed) : sorted.insert entry = .error (.invalidField entry.1 entry.2.1.text) := by
  obtain ⟨code, type, value⟩ := entry
  have htext (kind : TextKind) (hcode : (FieldCode.ofCode code).type? = some (.text kind)) :
      textOf? kind type value = none := by
    rw [Option.eq_none_iff_forall_ne_some]
    intro text htext
    obtain ⟨rfl, rfl⟩ := textOf?_eq_some htext
    refine h fun _ h => ?_
    obtain rfl := Option.some.inj (hcode.symm.trans h)
    exact ⟨rfl, _, rfl, rfl⟩
  have hnumber (hcode : (FieldCode.ofCode code).type? = some (.int .uint32)) : numberOf? type value = none := by
    rw [Option.eq_none_iff_forall_ne_some]
    intro n hn
    obtain ⟨rfl, rfl⟩ := numberOf?_eq_some hn
    refine h fun _ h => ?_
    obtain rfl := Option.some.inj (hcode.symm.trans h)
    exact ⟨rfl, _, rfl, rfl⟩
  cases hcode : FieldCode.ofCode code <;> rw [hcode] at htext hnumber
  case unknown => exact absurd (fun _ h => by simp [Entry.code, hcode, FieldCode.type?] at h) h
  case replySerial | unixFds => simp [Sorted.insert, hcode, hnumber rfl]
  all_goals simp [Sorted.insert, hcode, htext _ rfl]

/-- an entry that is of the type of its field takes its place, or goes behind the others of unknown codes -/
structure Sorted.Takes (sorted : Sorted) (entry : Entry) (next : Sorted) : Prop where
  held : ∀ code, code.type? ≠ none → (next.held code).map Value.scalar
    = if entry.code = code then some entry.content else (sorted.held code).map Value.scalar
  unknown : next.fields.unknown = sorted.fields.unknown ++ unknowns [entry]

theorem insert_typed (sorted : Sorted) (h : entry.Typed) :
    ∃ next, sorted.insert entry = .ok next ∧ sorted.Takes entry next := by
  obtain ⟨code, type, value⟩ := entry
  have hentry : Entry.code (code, type, value) = FieldCode.ofCode code := rfl
  cases hcode : FieldCode.ofCode code <;> rw [hcode] at hentry
  case unknown given =>
    obtain rfl : given = code := by simpa [hcode, FieldCode.code] using ofCode_code code
    refine ⟨_, by simp only [Sorted.insert, hcode]; rfl, ?_, ?_⟩
    · intro code' hcode'
      rw [if_neg]
      · cases code' <;> rfl
      · rintro rfl
        exact hcode' (by rw [hentry]; rfl)
    · rw [unknowns, List.filter_cons_of_pos (by simp [hentry, FieldCode.type?]), List.filter_nil]
  all_goals
    obtain ⟨htype, given, hgiven, hcontent⟩ := h _ (by rw [hentry]; rfl)
    cases given <;> cases hgiven
    change type = _ at htype
    change value = _ at hcontent
    subst htype hcontent
    refine ⟨_, by simp only [Sorted.insert, hcode]; rfl, ?_, ?_⟩
    · intro code' hcode'
      rw [hentry]
      cases code' <;> rfl
    · rw [unknowns, List.filter_cons_of_neg (by simp [hentry, FieldCode.type?])]
      simp

/-! ## All entries, one after the other -/

theorem lastOf?_snoc (code : FieldCode) (entries : List Entry) (entry : Entry) :
    lastOf? code (entries ++ [entry]) = if entry.code = code then some entry else lastOf? code entries := by
  rw [lastOf?, withCode, List.filter_append]
  split_ifs with h
  · rw [List.filter_cons_of_pos (by simpa using h), List.filter_nil, List.getLast?_concat]
  · rw [List.filter_cons_of_neg (by simpa using h), List.filter_nil, List.append_nil]
    rfl

theorem SortedFrom.snoc {next : Sorted} (hs : SortedFrom entries sorted) (h : entry.Typed) (hn : sorted.Takes entry next) :
    SortedFrom (entries ++ [entry]) next where
  typed := List.forall_mem_append.2 ⟨hs.typed, by simpa using h⟩
  held code hcode := by
    rw [hn.held code hcode, hs.held code hcode, lastOf?_snoc]
    split_ifs <;> rfl
  unknown := by rw [hn.unknown, hs.unknown, unknowns, unknowns, unknowns, List.filter_append]

theorem SortedFrom.nil : SortedFrom [] {} where
  typed := by simp
  held code _ := by cases code <;> rfl
  unknown := rfl

/-- all that was sorted out is what is held and what is unknown -/
theorem Sorted.ext_held {other : Sorted} (h : ∀ code, sorted.held code = other.held code)
    (hunknown : sorted.fields.unknown = other.fields.unknown) : sorted = other := by
  have htext {kind : TextKind} : Function.Injective (Scalar.text kind) := fun _ _ h => (Scalar.text.inj h).2
  have hnumber : Function.Injective fun n : UInt32 => Scalar.int .uint32 n.toBitVec :=
    fun _ _ h => UInt32.toBitVec_inj.1 (eq_of_heq (Scalar.int.inj h).2)
  obtain ⟨⟨path, interface, member, errorName, replySerial, destination, sender, unixFds, unknown⟩, signature⟩ := sorted
  obtain ⟨⟨path', interface', member', errorName', replySerial', destination', sender', unixFds', unknown'⟩,
    signature'⟩ := other
  obtain rfl := Option.map_injective htext (h .path)
  obtain rfl := Option.map_injective htext (h .interface)
  obtain rfl := Option.map_injective htext (h .member)
  obtain rfl := Option.map_injective htext (h .errorName)
  obtain rfl := Option.map_injective hnumber (h .replySerial)
  obtain rfl := Option.map_injective htext (h .destination)
  obtain rfl := Option.map_injective htext (h .sender)
  obtain rfl := Option.map_injective htext (h .signature)
  obtain rfl := Option.map_injective hnumber (h .unixFds)
  obtain rfl := hunknown
  rfl

theorem SortedFrom.unique {other : Sorted} (hs : SortedFrom entries sorted) (ho : SortedFrom entries other) :
    sorted = other := by
  refine Sorted.ext_held (fun code => ?_) (hs.unknown.trans ho.unknown.symm)
  by_cases hcode : code.type? = none
  · cases code <;> first | rfl | cases hcode
  · exact Option.map_injective (fun _ _ => Value.scalar.inj) ((hs.held code hcode).trans (ho.held code hcode).symm)

/-- the first of the entries that is not of the type of its field -/
def FirstMistyped (entries : List Entry) (entry : Entry) : Prop :=
  ¬entry.Typed ∧ ∃ before after, entries = before ++ entry :: after ∧ ∀ earlier ∈ before, earlier.Typed

/-- entries are sorted up to the first that is not of the type of its field -/
theorem sort_cases (entries : List Entry) :
    (∃ sorted, entries.foldlM Sorted.insert {} = .ok sorted ∧ SortedFrom entries sorted) ∨
    ∃ entry, FirstMistyped entries entry ∧
      entries.foldlM Sorted.insert {} = .error (.invalidField entry.1 entry.2.1.text) := by
  induction entries using List.reverseRecOn with
  | nil => exact .inl ⟨{}, rfl, .nil⟩
  | append_singleton entries entry ih =>
    rw [List.foldlM_append]
    obtain ⟨sorted, hrun, hs⟩ | ⟨first, ⟨hfirst, before, after, rfl, hbefore⟩, hrun⟩ := ih
    · by_cases h : entry.Typed
      · obtain ⟨next, hnext, htakes⟩ := insert_typed sorted h
        refine .inl ⟨next, ?_, hs.snoc h htakes⟩
        simp [hrun, hnext, Except.bind, bind, pure, Except.pure]
      · refine .inr ⟨entry, ⟨h, entries, [], rfl, hs.typed⟩, ?_⟩
        simp [hrun, insert_mistyped h, Except.bind, bind]
    · refine .inr ⟨first, ⟨hfirst, before, after ++ [entry], by simp, hbefore⟩, ?_⟩
      rw [hrun]
      rfl

/-! ## The array -/

theorem entry?_eq_some_iff {item : Value} : entry? item = some entry ↔ item = wirePair entry :=
  ⟨fun h => (entry?_eq_some h).symm, by rintro rfl; rfl⟩

/-- two orders of the same entries, in which those of one code and those of unknown codes are in the same order -/
structure Reordered (entries others : List Entry) : Prop where
  withCode : ∀ code, withCode code entries = withCode code others
  unknowns : unknowns entries = unknowns others

theorem SortedFrom.reorder {others : List Entry} (hs : SortedFrom entries sorted) (h : Reordered entries others) :
    SortedFrom others sorted where
  typed entry hentry := by
    have hmem : entry ∈ withCode entry.code others := by simpa [withCode] using hentry
    rw [← h.withCode] at hmem
    exact hs.typed entry (List.mem_filter.1 hmem).1
  held code hcode := by rw [hs.held code hcode, lastOf?, lastOf?, h.withCode]
  unknown := hs.unknown.trans h.unknowns

theorem ofWire_eq_ok_iff {items : List Value} :
    ofWire (.array items) = .ok sorted ↔ SortedFrom (items.filterMap entry?) sorted := by
  obtain ⟨found, hrun, hfound⟩ | ⟨entry, ⟨hentry, before, after, hsplit, -⟩, hrun⟩ := sort_cases (items.filterMap entry?)
  · rw [ofWire, hrun, Except.ok.injEq]
    exact ⟨fun h => h ▸ hfound, hfound.unique⟩
  · rw [ofWire, hrun]
    refine ⟨nofun, fun h => absurd (h.typed entry ?_) hentry⟩
    simp [hsplit]

theorem ofWire_eq_error_iff {items : List Value} {e : Error} : ofWire (.array items) = .error e ↔
    ∃ entry, FirstMistyped (items.filterMap entry?) entry ∧ e = .invalidField entry.1 entry.2.1.text := by
  constructor
  · intro h
    obtain ⟨sorted, hrun, -⟩ | ⟨entry, hfirst, hrun⟩ := sort_cases (items.filterMap entry?)
    · cases h.symm.trans hrun
    · exact ⟨entry, hfirst, Except.error.inj (h.symm.trans hrun)⟩
  · rintro ⟨entry, ⟨hentry, before, after, hsplit, hbefore⟩, rfl⟩
    obtain ⟨sorted, hrun, -⟩ | ⟨earlier, ⟨hearlier, front, rest, rfl, -⟩, -⟩ := sort_cases before
    · rw [ofWire, hsplit, List.foldlM_append, hrun]
      change sorted.insert entry >>= _ = _
      rw [insert_mistyped hentry]
      rfl
    · exact absurd (hbefore earlier (by simp)) hearlier

/-- **Any array is sorted out right.** It is refused just for the first of its entries that is not of the type of its
field. Otherwise each field is that of the last entry with its code, entries of unknown codes are kept in order, and what
is no entry is passed over; so the order of entries of different codes does not matter. What was listed of fields is
sorted back into them, but for those of unknown codes. -/
theorem ofWire_sorts (items : List Value) :
    (∀ e, ofWire (.array items) = .error e ↔
      ∃ entry, FirstMistyped (items.filterMap entry?) entry ∧ e = .invalidField entry.1 entry.2.1.text) ∧
    (∀ sorted, ofWire (.array items) = .ok sorted ↔ SortedFrom (items.filterMap entry?) sorted) ∧
    (∀ before item after, items = before ++ item :: after → (∀ entry, item ≠ wirePair entry) →
      ofWire (.array items) = ofWire (.array (before ++ after))) ∧
    (∀ others sorted, Reordered (items.filterMap entry?) (others.filterMap entry?) → ofWire (.array items) = .ok sorted →
      ofWire (.array others) = .ok sorted) ∧
    ∀ (fields : Fields) (body : Body), ofWire (.array (fields.toWire body))
      = .ok ⟨{ fields with unknown := [] }, if body.isEmpty then none else some body.signature⟩ := by
  refine ⟨fun e => ofWire_eq_error_iff, fun sorted => ofWire_eq_ok_iff, ?_, ?_, ofWire_toWire⟩
  · rintro before item after rfl hitem
    have hnone : entry? item = none :=
      Option.eq_none_iff_forall_ne_some.2 fun entry h => hitem entry (entry?_eq_some_iff.1 h)
    rw [ofWire, ofWire, List.filterMap_append, List.filterMap_append, List.filterMap_cons_none hnone]
  · intro others sorted hreordered hsorted
    exact ofWire_eq_ok_iff.2 ((ofWire_eq_ok_iff.1 hsorted).reorder hreordered)

/-- the last sender counts, a code without a meaning is kept, and a byte on its own is passed over; so it is when the code
without a meaning comes first, but not when a serial that is no number follows -/
theorem ofWire_sorts_mixed :
    let first := wireEntry .sender (.text .string ":1.1")
    let last := wireEntry .sender (.text .string ":1.2")
    let strange : Entry := (10, .basic .boolean, .scalar (.boolean true))
    let mistyped : Entry := (5, .basic (.text .string), .string "1")
    let sorted : Sorted := ⟨{ sender := some ":1.2", unknown := [strange] }, none⟩
    ofWire (.array [first, .byte 7, wirePair strange, last]) = .ok sorted ∧
      Reordered ([first, .byte 7, wirePair strange, last].filterMap entry?)
        ([wirePair strange, first, last].filterMap entry?) ∧
      ofWire (.array [wirePair strange, first, last]) = .ok sorted ∧
      ofWire (.array [first, wirePair mistyped, last]) = .error (.invalidField 5 "s") := by
  intro first last strange mistyped sorted
  have hsorted : ofWire (.array [first, .byte 7, wirePair strange, last]) = .ok sorted := rfl
  have hreordered : Reordered ([first, .byte 7, wirePair strange, last].filterMap entry?)
      ([wirePair strange, first, last].filterMap entry?) := by
    refine ⟨fun code => ?_, rfl⟩
    change withCode code [(7, _, _), strange, (7, _, _)] = withCode code [strange, (7, _, _), (7, _, _)]
    by_cases hcode : strange.code = code
    · subst hcode
      rfl
    · simp only [withCode, List.filter_cons, hcode, decide_false, Bool.false_eq_true, if_false]
  refine ⟨hsorted, hreordered, (ofWire_sorts _).2.2.2.1 _ sorted hreordered hsorted, ?_⟩
  refine ((ofWire_sorts _).1 _).2 ⟨mistyped, ⟨fun h => ?_, [(7, .basic (.text .string), .string ":1.1")],
    [(7, .basic (.text .string), .string ":1.2")], rfl, ?_⟩, rfl⟩
  · obtain ⟨htype, -⟩ := h (.int .uint32) rfl
    cases htype
  · refine List.forall_mem_singleton.2 fun type htype => ?_
    cases htype
    exact ⟨rfl, _, rfl, rfl⟩

end Fields

end MessageBus
