/-
Header fields, there and back.

The entries of a message's header fields are exact values of the type a(yv), so they stay as they are when they are
normalized (`normalize_toWire`). Sorting them gives back the fields that they were made of, without those of unknown
codes, and the signature of a body that has one (`ofWire_toWire`). In the other direction nothing is added: what is
listed of fields that were sorted is among the entries that they were sorted from, each at most once
(`toWire_subperm`).
-/
import MessageBus.Proofs.Value.Typing
import MessageBus.Message.Fields

namespace MessageBus.Fields

/-! ## Entries -/

/-- the signature that goes along with a body -/
def signature? (body : Body) : Option String := if body.isEmpty then none else some body.signature

theorem signature_entry (body : Body) :
    (if body.isEmpty then none else some (wireEntry .signature (.text .signature body.signature)))
      = (signature? body).map fun text => wireEntry .signature (.text .signature text) := by
  unfold signature?
  split <;> rfl

theorem mem_toWire {fields : Fields} {body : Body} {entry : Value} (h : entry ∈ fields.toWire body) :
    ∃ code value, entry = wireEntry code value := by
  have hmap {α : Type} {o : Option α} {code : FieldCode} {value : α → Scalar}
      (hsome : o.map (fun a => wireEntry code (value a)) = some entry) : ∃ code value, entry = wireEntry code value := by
    obtain ⟨a, -, rfl⟩ := Option.map_eq_some_iff.1 hsome
    exact ⟨code, value a, rfl⟩
  obtain ⟨o, ho, hsome⟩ := List.mem_filterMap.1 h
  rw [signature_entry] at ho
  simp only [List.mem_cons, List.not_mem_nil, or_false] at ho
  obtain rfl | rfl | rfl | rfl | rfl | rfl | rfl | rfl | rfl := ho <;> exact hmap hsome

theorem signature_mem_toWire (fields : Fields) {body : Body} {text : String} (h : signature? body = some text) :
    wireEntry .signature (.text .signature text) ∈ fields.toWire body := by
  refine List.mem_filterMap.2 ⟨some (wireEntry .signature (.text .signature text)), ?_, rfl⟩
  rw [signature_entry, h]
  simp

/-- what is written along with a body as its signature can be read as one, and only as the types of the body -/
theorem parse_signature {levels : Nat} {fields : Fields} {body : Body} {text : String}
    (h : Value.Writable (levels + 4) wireType (.array (fields.toWire body))) (ht : signature? body = some text) :
    Ty.parse text = .ok body.types := by
  have hentry := Value.writable_array.1 h _ (signature_mem_toWire fields ht)
  obtain _ | ⟨-, _ | ⟨⟨-, result, hresult, hvalid⟩, -⟩⟩ := hentry
  cases hresult
  obtain ⟨types, hp⟩ : ∃ types, Ty.parse text = .ok types := hvalid
  obtain rfl : body.types = types := by
    refine Ty.textAll_injective (Eq.trans ?_ (Ty.parse_sound hp).2.1.symm)
    unfold signature? at ht
    split_ifs at ht
    exact Option.some.inj ht
  exact hp

theorem types_of_signature?_none {body : Body} (h : signature? body = none) : body.types = [] := by
  unfold signature? at h
  split_ifs at h with hempty
  apply List.eq_nil_of_length_eq_zero
  rw [body.arity, List.isEmpty_iff.1 hempty, List.length_nil]

theorem normalize_wireEntry (code : FieldCode) (value : Scalar) :
    Value.normalize (.struct [.basic (.int .byte), .variant]) (wireEntry code value) = wireEntry code value := by
  have hcode := Basic.coerce?_type (.int .byte code.code.toBitVec)
  simp only [Scalar.type] at hcode
  simp only [wireEntry, Value.normalize, Value.normalizeAll, hcode, Basic.coerce?_type, Option.getD_some]

theorem shaped_entry : Ty.Shaped (.struct [.basic (.int .byte), .variant]) := by
  refine .struct (by simp) fun field hf => ?_
  obtain rfl | rfl : field = .basic (.int .byte) ∨ field = .variant := by simpa using hf
  · exact .basic _
  · exact .variant

theorem shaped_wireType : wireType.Shaped := .array shaped_entry

theorem normalize_toWire (fields : Fields) (body : Body) :
    Value.normalize wireType (.array (fields.toWire body)) = .array (fields.toWire body) := by
  have hentry : ∀ entry ∈ fields.toWire body,
      Value.normalize (.struct [.basic (.int .byte), .variant]) entry = entry := fun entry he => by
    obtain ⟨code, value, rfl⟩ := mem_toWire he
    exact normalize_wireEntry code value
  rw [wireType, Value.normalize_array shaped_entry, List.map_congr_left hentry, List.map_id']

/-! ## Sorting -/

/-- sort the entries that are there -/
def sort (entries : List (Option Value)) (sorted : Sorted) : Except Error Sorted :=
  ((entries.filterMap id).filterMap entry?).foldlM Sorted.insert sorted

/-- an entry that may be missing sets one field, or leaves it as it was -/
theorem sort_cons {α : Type} {entry : α → Value} {sorted : Sorted} (set : Option α → Sorted)
    (hnone : set none = sorted) (hsome : ∀ a, sort [some (entry a)] sorted = .ok (set (some a))) (o : Option α)
    (rest : List (Option Value)) : sort (o.map entry :: rest) sorted = sort rest (set o) := by
  cases o with
  | none =>
    rw [hnone]
    rfl
  | some a =>
    have happ : sort (some (entry a) :: rest) sorted = sort [some (entry a)] sorted >>= sort rest := by
      rw [sort, ← List.singleton_append, List.filterMap_append, List.filterMap_append, List.foldlM_append]
      rfl
    rw [Option.map_some, happ, hsome]
    rfl

/-- **Sorting undoes listing**, but for fields of unknown codes, which are not listed. -/
theorem ofWire_toWire (fields : Fields) (body : Body) :
    ofWire (.array (fields.toWire body)) = .ok ⟨{ fields with unknown := [] }, signature? body⟩ := by
  obtain ⟨path, interface, member, errorName, replySerial, destination, sender, unixFds, unknown⟩ := fields
  change sort _ {} = _
  rw [signature_entry,
    sort_cons (fun path => ⟨{ path }, none⟩) rfl (fun _ => rfl),
    sort_cons (fun interface => ⟨{ path, interface }, none⟩) rfl (fun _ => rfl),
    sort_cons (fun member => ⟨{ path, interface, member }, none⟩) rfl (fun _ => rfl),
    sort_cons (fun errorName => ⟨{ path, interface, member, errorName }, none⟩) rfl (fun _ => rfl),
    sort_cons (fun replySerial => ⟨{ path, interface, member, errorName, replySerial }, none⟩) rfl (fun _ => rfl),
    sort_cons (fun destination => ⟨{ path, interface, member, errorName, replySerial, destination }, none⟩) rfl
      (fun _ => rfl),
    sort_cons (fun sender => ⟨{ path, interface, member, errorName, replySerial, destination, sender }, none⟩) rfl
      (fun _ => rfl),
    sort_cons (fun text => ⟨{ path, interface, member, errorName, replySerial, destination, sender }, text⟩) rfl
      (fun _ => rfl),
    sort_cons (fun unixFds => ⟨{ path, interface, member, errorName, replySerial, destination, sender, unixFds },
      signature? body⟩) rfl (fun _ => rfl)]
  rfl

/-! ## Listing what was sorted -/

/-- the scalars that are set, by the codes of their fields -/
def Sorted.scalars (sorted : Sorted) : List (FieldCode × Option Scalar) :=
  let fields := sorted.fields
  [ (.path, fields.path.map (.text .objectPath)),
    (.interface, fields.interface.map (.text .string)),
    (.member, fields.member.map (.text .string)),
    (.errorName, fields.errorName.map (.text .string)),
    (.replySerial, fields.replySerial.map fun serial => .int .uint32 serial.toBitVec),
    (.destination, fields.destination.map (.text .string)),
    (.sender, fields.sender.map (.text .string)),
    (.signature, sorted.signature.map (.text .signature)),
    (.unixFds, fields.unixFds.map fun count => .int .uint32 count.toBitVec) ]

/-- the entries of what is set -/
def Sorted.entries (sorted : Sorted) : List Value :=
  sorted.scalars.filterMap fun field => field.2.map (wireEntry field.1)

theorem toWire_eq (fields : Fields) (body : Body) : fields.toWire body = (Sorted.mk fields (signature? body)).entries := by
  simp only [toWire, signature_entry, Sorted.entries, Sorted.scalars, List.filterMap_cons, List.filterMap_nil,
    Option.map_map, Function.comp_def, id_eq]

theorem ofCode_code (code : UInt8) : (FieldCode.ofCode code).code = code := by
  unfold FieldCode.ofCode
  split <;> rfl

theorem Sorted.mem_entries {sorted : Sorted} {entry : Value} :
    entry ∈ sorted.entries ↔ ∃ code value, (code, some value) ∈ sorted.scalars ∧ wireEntry code value = entry := by
  simp only [entries, List.mem_filterMap, Prod.exists, Option.map_eq_some_iff]
  constructor
  · intro h
    rcases h with ⟨code, _, hmem, value, rfl, rfl⟩
    exact ⟨code, value, hmem, rfl⟩
  · intro h
    rcases h with ⟨code, value, hmem, rfl⟩
    exact ⟨code, _, hmem, value, rfl, rfl⟩

theorem wireEntry_code {code code' : FieldCode} {value value' : Scalar}
    (h : wireEntry code value = wireEntry code' value') : code.code = code'.code := by
  rw [wireEntry, wireEntry, Value.struct.injEq, List.cons.injEq, Value.scalar.injEq] at h
  exact UInt8.toBitVec_inj.1 (eq_of_heq (Scalar.int.inj h.1).2)

/-- no two entries are of the same code -/
theorem Sorted.nodup_entries (sorted : Sorted) : sorted.entries.Nodup := by
  have hcodes : (sorted.scalars.map (·.1.code)).Nodup := by
    change ([1, 2, 3, 4, 5, 6, 7, 8, 9] : List UInt8).Nodup
    decide
  refine List.pairwise_filterMap.2 ((List.pairwise_map.1 hcodes).imp ?_)
  intro a b hne entry he entry' he' heq
  obtain ⟨value, -, rfl⟩ := Option.map_eq_some_iff.1 he
  obtain ⟨value', -, rfl⟩ := Option.map_eq_some_iff.1 he'
  exact hne (wireEntry_code heq)

/-- the entry of a code, as it stands on the wire -/
def wirePair (entry : UInt8 × Ty × Value) : Value := .struct [.byte entry.1.toBitVec, .variant entry.2.1 entry.2.2]

theorem entry?_eq_some {value : Value} {entry : UInt8 × Ty × Value} (h : entry? value = some entry) :
    wirePair entry = value := by
  unfold entry? at h
  split at h
  · cases h
    rfl
  · cases h

theorem textOf?_eq_some {kind : TextKind} {type : Ty} {value : Value} {text : String}
    (h : textOf? kind type value = some text) : type = .basic (.text kind) ∧ value = .scalar (.text kind text) := by
  unfold textOf? at h
  split at h
  · split_ifs at h with hkind
    cases h
    obtain ⟨rfl, rfl⟩ := hkind
    exact ⟨rfl, rfl⟩
  · cases h

theorem numberOf?_eq_some {type : Ty} {value : Value} {n : UInt32} (h : numberOf? type value = some n) :
    type = .basic (.int .uint32) ∧ value = .scalar (.int .uint32 n.toBitVec) := by
  unfold numberOf? at h
  split at h
  · cases h
    exact ⟨rfl, rfl⟩
  · cases h

/-- an entry of a known code takes the place of the field of that code -/
theorem Sorted.insert_scalars {sorted sorted' : Sorted} {code : UInt8} {type : Ty} {value : Value}
    (h : sorted.insert (code, type, value) = .ok sorted') :
    sorted'.scalars = sorted.scalars ∨ ∃ (place : Nat) (s : Scalar),
      sorted'.scalars = sorted.scalars.set place (.ofCode code, some s) ∧ type = .basic s.type ∧ value = .scalar s := by
  simp only [insert] at h
  split at h
  case h_2 => cases h
  case h_1 inserted hinserted =>
    cases h
    cases hcode : FieldCode.ofCode code <;>
      simp only [hcode, Option.map_eq_some_iff, Option.some.injEq] at hinserted
    case unknown =>
      subst hinserted
      exact .inl rfl
    all_goals
      obtain ⟨given, hgiven, rfl⟩ := hinserted
      right
    case replySerial =>
      obtain ⟨rfl, rfl⟩ := numberOf?_eq_some hgiven
      exact ⟨4, .int .uint32 given.toBitVec, rfl, rfl, rfl⟩
    case unixFds =>
      obtain ⟨rfl, rfl⟩ := numberOf?_eq_some hgiven
      exact ⟨8, .int .uint32 given.toBitVec, rfl, rfl, rfl⟩
    all_goals obtain ⟨rfl, rfl⟩ := textOf?_eq_some hgiven
    case path => exact ⟨0, .text .objectPath given, rfl, rfl, rfl⟩
    case interface => exact ⟨1, .text .string given, rfl, rfl, rfl⟩
    case member => exact ⟨2, .text .string given, rfl, rfl, rfl⟩
    case errorName => exact ⟨3, .text .string given, rfl, rfl, rfl⟩
    case destination => exact ⟨5, .text .string given, rfl, rfl, rfl⟩
    case sender => exact ⟨6, .text .string given, rfl, rfl, rfl⟩
    case signature => exact ⟨7, .text .signature given, rfl, rfl, rfl⟩

/-- an entry adds nothing but itself -/
theorem Sorted.insert_entries {sorted sorted' : Sorted} {given : UInt8 × Ty × Value}
    (h : sorted.insert given = .ok sorted') {entry : Value} (he : entry ∈ sorted'.entries) :
    entry ∈ sorted.entries ∨ entry = wirePair given := by
  obtain ⟨code, type, value⟩ := given
  rw [mem_entries] at he ⊢
  obtain ⟨known, s, hmem, rfl⟩ := he
  obtain hsame | ⟨place, s', hset, rfl, rfl⟩ := insert_scalars h
  · exact .inl ⟨known, s, hsame ▸ hmem, rfl⟩
  · rw [hset] at hmem
    obtain hmem | heq := List.mem_or_eq_of_mem_set hmem
    · exact .inl ⟨known, s, hmem, rfl⟩
    · cases heq
      right
      rw [wireEntry, ofCode_code, wirePair]

/-- **Nothing is listed that was not there**: the entries of what was sorted are among those it was sorted from. -/
theorem entries_subset {items : List Value} {sorted : Sorted} (h : ofWire (.array items) = .ok sorted) :
    sorted.entries ⊆ items := by
  have hfold (given : List (UInt8 × Ty × Value)) (before : Sorted) (h : given.foldlM Sorted.insert before = .ok sorted) :
      ∀ entry ∈ sorted.entries, entry ∈ before.entries ∨ entry ∈ given.map wirePair := by
    induction given generalizing before with
    | nil =>
      cases h
      exact fun entry he => .inl he
    | cons first given ih =>
      intro entry he
      rw [List.foldlM_cons] at h
      cases hinsert : before.insert first with
      | error e =>
        rw [hinsert] at h
        cases h
      | ok after =>
        rw [hinsert] at h
        obtain hafter | hgiven := ih after h entry he
        · exact (Sorted.insert_entries hinsert hafter).imp id fun heq => by simp [heq]
        · exact .inr (List.mem_cons_of_mem _ hgiven)
  intro entry he
  obtain hnone | hgiven := hfold _ _ h entry he
  · simp [Sorted.entries, Sorted.scalars] at hnone
  · obtain ⟨given, hmem, rfl⟩ := List.mem_map.1 hgiven
    obtain ⟨value, hvalue, hentry⟩ := List.mem_filterMap.1 hmem
    rwa [entry?_eq_some hentry]

/-- what is listed of the fields of a message, wherever its signature is the one that was sorted out -/
theorem toWire_subperm {items : List Value} {fields : Fields} {signature : Option String} {body : Body}
    (h : ofWire (.array items) = .ok ⟨fields, signature⟩) (hbody : ∀ text, signature? body = some text → signature = some text) :
    (fields.toWire body).Subperm items := by
  rw [toWire_eq]
  refine (Sorted.nodup_entries _).subperm fun entry he => entries_subset h ?_
  rw [Sorted.mem_entries] at he ⊢
  obtain ⟨code, s, hmem, rfl⟩ := he
  refine ⟨code, s, ?_, rfl⟩
  cases hsig : signature? body with
  | some text => rwa [hbody text hsig, ← hsig]
  | none =>
    rw [hsig] at hmem
    have hset : (Sorted.mk fields none).scalars = (Sorted.mk fields signature).scalars.set 7 (.signature, none) := rfl
    rw [hset] at hmem
    exact (List.mem_or_eq_of_mem_set hmem).resolve_right (by simp)

end MessageBus.Fields
