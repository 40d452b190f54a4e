/-
Where the values inside of a value stand.

`Place.here` is where a value starts that is laid out at some position: behind the padding to the alignment of its type.
`inner` and `placesAll` list the places of all values at any level of nesting, by recursion on the type along with the
layout. At each place there is the layout of the value that stands there (`inner_in`), and the place is a multiple of the
alignment. So what encoders write is the layout of the whole, and every value in it starts where it should
(`encodeAll_placed`).
-/
import MessageBus.Proofs.Wire.RoundTrip

namespace MessageBus.Wire

open Value (Exact Writable normalizeAll)

/-- a value of a type, and the position of its first byte -/
structure Place where
  type : Ty
  value : Value
  start : Nat

/-- the place of a value that is laid out at a position -/
def Place.here (type : Ty) (value : Value) (p : Nat) : Place := ⟨type, value, p + padding p type.alignment⟩

/-- the position of the first element of an array that is laid out at a position, or where it would be -/
def firstElement (alignment p : Nat) : Nat :=
  let start := p + padding p 4 + 4
  start + padding start alignment

mutual
/-- the places of all values inside of a value that is laid out at a position -/
def inner : Ty → Value → Nat → List Place
  | .variant, .variant type value, p =>
    let behind := p + size ((Scalar.text .signature type.text).layout p)
    .here type value behind :: inner type value behind
  | .array (.dictEntry key value), .dict entries, p => placesEntries key value entries (firstElement 8 p)
  | .array element, .array items, p => placesEach element items (firstElement element.alignment p)
  | .struct types, .struct fields, p => placesAll types fields (p + padding p 8)
  | .dictEntry key value, .struct fields, p => placesAll [key, value] fields (p + padding p 8)
  | _, _, _ => []
/-- the places of values of one type, one after another, and of all values inside of them -/
def placesEach (type : Ty) : List Value → Nat → List Place
  | [], _ => []
  | value :: values, p =>
    .here type value p :: inner type value p ++ placesEach type values (p + size (layout type value p))
/-- the places of an argument list, and of all values inside of it -/
def placesAll : List Ty → List Value → Nat → List Place
  | type :: types, value :: values, p =>
    .here type value p :: inner type value p ++ placesAll types values (p + size (layout type value p))
  | _, _, _ => []
def placesEntries (key value : Ty) : List (Value × Value) → Nat → List Place
  | [], _ => []
  | (k, v) :: entries, p =>
    let start := p + padding p 8
    let behind := start + size (layout key k start)
    .here (.dictEntry key value) (.struct [k, v]) p ::
      (.here key k start :: inner key k start ++ .here value v behind :: inner value v behind) ++
      placesEntries key value entries (behind + size (layout value v behind))
end

/-- among some segments at a position the layout of a value stands at its place, which is a multiple of the alignment -/
structure Place.In (place : Place) (order : ByteOrder) (segments : List Segment) (p : Nat) : Prop where
  aligned : place.type.alignment ∣ place.start
  found : ∃ before after, render order segments = before ++ render order (layout place.type place.value place.start) ++ after ∧
    p + before.length = place.start

section Places

variable {place : Place} {order : ByteOrder} {s t : List Segment} {a b : Piece} {p alignment levels : Nat}

theorem Place.In.left (h : place.In order s p) (t : List Segment) : place.In order (s ++ t) p := by
  obtain ⟨before, after, hs, hstart⟩ := h.found
  exact ⟨h.aligned, before, after ++ render order t, by rw [render_append, hs]; simp, hstart⟩

theorem Place.In.right (h : place.In order t (p + size s)) : place.In order (s ++ t) p := by
  obtain ⟨before, after, ht, hstart⟩ := h.found
  refine ⟨h.aligned, render order s ++ before, after, by rw [render_append, ht]; simp, ?_⟩
  rw [List.length_append, length_render, ← Nat.add_assoc, hstart]

theorem Place.In.first (h : place.In order (a p) p) (b : Piece) : place.In order (consecutive [a, b] p) p := by
  rw [consecutive_pair]
  exact h.left _

theorem Place.In.second (h : place.In order (b (p + size (a p))) (p + size (a p))) :
    place.In order (consecutive [a, b] p) p := by
  rw [consecutive_pair]
  exact h.right

theorem Place.In.behind (h : place.In order (a (p + padding p alignment)) (p + padding p alignment)) :
    place.In order (Wire.aligned alignment a p) p :=
  Place.In.right (s := [.padding (padding p alignment)]) h

theorem Place.In.element (h : place.In order (a (firstElement alignment p)) (firstElement alignment p)) :
    place.In order (measured alignment a p) p := by
  rw [measured_eq rfl]
  refine Place.In.right ?_
  have hstart : p + size [.padding (padding p 4), .length (size (a (firstElement alignment p))),
      .padding (padding (p + padding p 4 + 4) alignment)] = firstElement alignment p := by
    simp [Segment.size, firstElement]
    omega
  rw [firstElement] at hstart
  rw [hstart]
  exact h

/-! ## Where a value starts -/

theorem padding_self (h : 0 < alignment) (p : Nat) : padding (p + padding p alignment) alignment = 0 := by
  have hdvd := dvd_add_padding p h
  rw [padding, Nat.mod_eq_zero_of_dvd hdvd, Nat.sub_zero, Nat.mod_self]

theorem alignment_pos (type : Ty) : 0 < type.alignment := Nat.pos_of_dvd_of_pos (alignment_dvd type) (by decide)

theorem render_aligned (h : 0 < alignment) (order : ByteOrder) (a : Piece) (p : Nat) :
    render order (aligned alignment a p)
      = List.replicate (padding p alignment) 0 ++ render order (aligned alignment a (p + padding p alignment)) := by
  simp [aligned, padding_self h, Segment.bytes]

theorem render_measured (order : ByteOrder) (a : Piece) (p : Nat) :
    render order (measured alignment a p)
      = List.replicate (padding p 4) 0 ++ render order (measured alignment a (p + padding p 4)) := by
  simp [measured, padding_self (show 0 < 4 by decide), Segment.bytes]

theorem render_scalar (order : ByteOrder) (value : Scalar) (p : Nat) :
    render order (value.layout p) = List.replicate (padding p value.type.alignment) 0
      ++ render order (value.layout (p + padding p value.type.alignment)) := by
  have hpos : 0 < value.type.alignment := alignment_pos (.basic value.type)
  cases value with
  | int kind bits => exact render_aligned hpos order (fun _ => [.word kind.size bits.toNat]) p
  | boolean b => exact render_aligned hpos order (fun _ => [.word 4 b.toNat]) p
  | double bits => exact render_aligned hpos order (fun _ => [.word 8 bits.toNat]) p
  | text kind text =>
    exact render_aligned hpos order
      (fun _ => [.word kind.alignment text.utf8ByteSize, .raw (Text.utf8 text), .raw [0]]) p

variable {type : Ty} {value : Value}

/-- the layout of a value is padding to the alignment of its type, and then its layout where it starts -/
theorem render_layout (hs : type.Shaped) (h : Exact levels type value) (order : ByteOrder) (p : Nat) :
    render order (layout type value p) = List.replicate (padding p type.alignment) 0
      ++ render order (layout type value (p + padding p type.alignment)) := by
  cases levels with
  | zero => cases h
  | succ levels =>
    cases hs with
    | basic type =>
      obtain ⟨s, rfl, rfl, -⟩ := Value.exact_basic.1 h
      exact render_scalar order s p
    | variant =>
      have hnone : padding p 1 = 0 := by simp [padding, Nat.mod_one]
      simp [Ty.alignment, hnone]
    | array hs =>
      obtain ⟨items, rfl, -⟩ := (Value.exact_array hs).1 h
      rw [layout_array hs]
      exact render_measured order _ p
    | dict key hs =>
      obtain ⟨entries, rfl, -⟩ := Value.exact_dict.1 h
      rw [layout]
      exact render_measured order _ p
    | struct hne hs =>
      obtain ⟨fields, rfl, -⟩ := Value.exact_struct.1 h
      rw [layout]
      exact render_aligned (by decide) order _ p

theorem here_in (hrender : render order (layout type value p) = List.replicate (padding p type.alignment) 0
      ++ render order (layout type value (p + padding p type.alignment))) :
    (Place.here type value p).In order (layout type value p) p :=
  ⟨dvd_add_padding p (alignment_pos type), _, [], by rw [List.append_nil]; exact hrender, by rw [List.length_replicate]; rfl⟩

/-- a value, and all values inside of it, stand at their places -/
def Placed (order : ByteOrder) (type : Ty) (value : Value) : Prop :=
  ∀ p, ∀ place ∈ Place.here type value p :: inner type value p, place.In order (layout type value p) p

theorem placesEach_in {values : List Value} (h : ∀ value ∈ values, Placed order type value) :
    ∀ place ∈ placesEach type values p, place.In order (layoutEach type values p) p := by
  induction values generalizing p with
  | nil => simp [placesEach]
  | cons value values ih =>
    rw [List.forall_mem_cons] at h
    rw [placesEach, layoutEach]
    exact List.forall_mem_append.2 ⟨fun place hplace => (h.1 p place hplace).first _, fun place hplace => (ih h.2 place hplace).second⟩

/-- a value for each type, wherever a single value stands at its place -/
theorem placed_fields {types : List Ty} {values : List Value} (hs : ∀ type ∈ types, type.Shaped)
    (hone : ∀ {type value}, type.Shaped → Exact levels type value → Placed order type value)
    (h : List.Forall₂ (Exact levels) types values) : List.Forall₂ (Placed order) types values := by
  induction h with
  | nil => exact .nil
  | cons hv _ ih =>
    exact .cons (hone (hs _ List.mem_cons_self) hv) (ih fun type ht => hs type (List.mem_cons_of_mem _ ht))

theorem placesAll_in {types : List Ty} {values : List Value} (h : List.Forall₂ (Placed order) types values) :
    ∀ place ∈ placesAll types values p, place.In order (layoutAll types values p) p := by
  induction h generalizing p with
  | nil => simp [placesAll]
  | cons hv _ ih =>
    rw [placesAll, layoutAll]
    exact List.forall_mem_append.2 ⟨fun place hplace => (hv p place hplace).first _, fun place hplace => (ih place hplace).second⟩

/-- an entry of a dict is laid out like a pair -/
theorem layout_entry (key value : Ty) (k v : Value) :
    layout (.dictEntry key value) (.struct [k, v]) = aligned 8 (consecutive [layout key k, layout value v]) := by
  simp only [layout, layoutAll]
  congr 1
  funext p
  simp [consecutive_pair]

theorem placesEntries_in {key : Ty} {entries : List (Value × Value)}
    (h : ∀ entry ∈ entries, Placed order key entry.1 ∧ Placed order type entry.2) :
    ∀ place ∈ placesEntries key type entries p, place.In order (layoutEntries key type entries p) p := by
  induction entries generalizing p with
  | nil => simp [placesEntries]
  | cons entry entries ih =>
    obtain ⟨k, v⟩ := entry
    rw [List.forall_mem_cons] at h
    obtain ⟨⟨hk, hv⟩, hrest⟩ := h
    have hentry : (Place.here (.dictEntry key type) (.struct [k, v]) p).In order
        (aligned 8 (consecutive [layout key k, layout type v]) p) p := by
      rw [← layout_entry]
      refine here_in ?_
      rw [layout_entry]
      exact render_aligned (by decide) order _ p
    have hsize : p + size (aligned 8 (consecutive [layout key k, layout type v]) p) = p + padding p 8
        + size (layout key k (p + padding p 8))
        + size (layout type v (p + padding p 8 + size (layout key k (p + padding p 8)))) := by
      rw [size_aligned, consecutive_pair, size_append]
      omega
    rw [placesEntries, layoutEntries, consecutive_pair]
    refine List.forall_mem_append.2 ⟨List.forall_mem_cons.2 ⟨hentry.left _, fun place hplace => ?_⟩, fun place hplace => ?_⟩
    · refine Place.In.left (.behind ?_) _
      obtain hplace | hplace := List.mem_append.1 hplace
      · exact (hk _ place hplace).first _
      · exact (hv _ place hplace).second
    · refine Place.In.right ?_
      rw [hsize]
      exact ih hrest place hplace

/-- **A value, and every value inside of it at any level of nesting, stands at its place.** -/
theorem placed (hs : type.Shaped) (h : Exact levels type value) (order : ByteOrder) : Placed order type value := by
  induction levels generalizing type value with
  | zero => cases h
  | succ levels ih =>
    intro p
    refine List.forall_mem_cons.2 ⟨here_in (render_layout hs h order p), ?_⟩
    cases hs with
    | basic type =>
      obtain ⟨s, rfl, -⟩ := Value.exact_basic.1 h
      simp [inner]
    | variant =>
      obtain ⟨type, v, rfl, hp, hv⟩ := Value.exact_variant.1 h
      rw [inner, layout]
      exact fun place hplace => (ih (Value.shaped_of_parse hp) hv _ place hplace).second
    | array hs =>
      obtain ⟨items, rfl, hi⟩ := (Value.exact_array hs).1 h
      rw [inner, layout]
      refine fun place hplace => .element ?_
      exact placesEach_in (fun item hitem => ih hs (hi item hitem)) place hplace
    | @dict key value hs =>
      obtain ⟨entries, rfl, he⟩ := Value.exact_dict.1 h
      rw [inner, layout]
      refine fun place hplace => .element ?_
      exact placesEntries_in (fun entry hentry => ⟨ih (.basic key) (he entry hentry).1, ih hs (he entry hentry).2⟩) place hplace
    | @struct types hne hs =>
      obtain ⟨fields, rfl, hf⟩ := Value.exact_struct.1 h
      rw [inner, layout]
      refine fun place hplace => .behind ?_
      exact placesAll_in (placed_fields hs ih hf) place hplace

/-- **What is written is the layout of the values, and every value stands where it should.** Writing an argument list
appends the layout of what its values stand for, at the position that the writer is at. At any level of nesting a value
starts at a multiple of the alignment of its type, and there is its own layout. -/
theorem encodeAll_placed {signature : String} {types : List Ty} {values : List Value} {w w' : Writer}
    (hsig : Ty.parse signature = .ok types) (hrun : (encodeAll types values).run w = (.ok (), w')) :
    w'.order = w.order ∧ w'.base = w.base ∧
      w'.data.toList = w.data.toList ++ render w.order (layoutAll types (normalizeAll types values) w.position) ∧
      AllFit (layoutAll types (normalizeAll types values) w.position) ∧
      List.Forall₂ (Exact (maxDepth + 1)) types (normalizeAll types values) ∧
      ∀ place ∈ placesAll types (normalizeAll types values) w.position, place.type.alignment ∣ place.start ∧
        ∃ before after, w'.data.toList = before ++ render w.order (layout place.type place.value place.start) ++ after ∧
          w.base + before.length = place.start := by
  have hs := shaped_of_mem hsig
  obtain ⟨hw, hfit, rfl⟩ := (encodeAll_emits types values w w').1 hrun
  have hexact := exact_normalized hs hw
  refine ⟨rfl, rfl, Writer.toList_append w _, hfit, hexact, fun place hplace => ?_⟩
  have hin := placesAll_in (placed_fields hs (fun hs h => placed hs h w.order) hexact) place hplace
  obtain ⟨before, after, hbytes, hstart⟩ := hin.found
  refine ⟨hin.aligned, w.data.toList ++ before, after, ?_, ?_⟩
  · rw [Writer.toList_append, hbytes]
    simp
  · rw [List.length_append, ← Nat.add_assoc, Array.length_toList]
    exact hstart

end Places

/-- an array of structs with an empty array and one with a variant inside, and an empty array of doubles, from position
3 on -/
theorem encodeAll_placed_nested :
    let types : List Ty := [.basic (.int .byte), .array (.struct [.basic (.int .byte), .array .variant]), .array (.basic .double)]
    let values : List Value :=
      [.uint32 7, .array [.struct [.byte 1, .array []], .struct [.byte 2, .array [.variant (.basic (.int .uint32)) (.uint32 9)]]],
        .array []]
    let bytes : List UInt8 :=
      [7, 0, 0, 0, 24, 1, 0, 0, 0, 0, 0, 0, 0, 2, 0, 0, 0, 0, 0, 0, 8, 1, 117, 0, 0, 0, 0, 0, 9, 0, 0, 0, 0, 0, 0, 0, 0]
    Ty.parse "ya(yav)ad" = .ok types ∧
      (encodeAll types values).run (Writer.new .big 3) = (.ok (), ⟨.big, 3, bytes.toArray⟩) ∧
      bytes = render .big (layoutAll types (normalizeAll types values) 3) ∧
      (placesAll types (normalizeAll types values) 3).map (fun place => (place.type.text, place.start)) =
        [("y", 3), ("a(yav)", 4), ("(yav)", 8), ("y", 8), ("av", 12), ("(yav)", 16), ("y", 16), ("av", 20), ("v", 24),
          ("u", 28), ("ad", 32)] ∧
      ∀ place ∈ placesAll types (normalizeAll types values) 3, place.type.alignment ∣ place.start := by
  intro types values bytes
  have hsig : Ty.parse "ya(yav)ad" = .ok types := by decide
  have hrun : (encodeAll types values).run (Writer.new .big 3) = (.ok (), ⟨.big, 3, bytes.toArray⟩) := rfl
  obtain ⟨-, -, hbytes, -, -, hplaces⟩ := encodeAll_placed hsig hrun
  exact ⟨hsig, hrun, hbytes, by rfl, fun place hplace => (hplaces place hplace).1⟩

end MessageBus.Wire
