/-
The layout of values.

`layout type value` says what stands at which place when a value of a type is written: a word or a text behind padding
to its alignment, an array behind its length, a variant behind the text of its type. Values of one type follow one
another, and so do the values of an argument list (`layoutAll`). Nothing that a signature can name takes up no bytes
(`size_layout_pos`), which is why an array of so many bytes has at most as many elements. No alignment is greater than
eight, so that a layout is the same at positions that differ by a multiple of eight (`periodic_layouts`).
-/
import MessageBus.Proofs.Value.Typing
import MessageBus.Proofs.Wire.Segment

namespace MessageBus

open Wire

/-- a word, or the bytes of a text between a word with their number and a NUL -/
def Scalar.layout : Scalar → Piece
  | int kind bits => aligned kind.size fun _ => [.word kind.size bits.toNat]
  | boolean value => aligned 4 fun _ => [.word 4 value.toNat]
  | double bits => aligned 8 fun _ => [.word 8 bits.toNat]
  | text kind value =>
    aligned kind.alignment fun _ =>
      [.word kind.alignment value.utf8ByteSize, .raw (Text.utf8 value), .raw [0]]

namespace Wire

open Value (Exact)
open Function (Periodic)

mutual
/-- the layout of a value of a type -/
def layout : Ty → Value → Piece
  | .variant, .variant type value => consecutive [(Scalar.text .signature type.text).layout, layout type value]
  | .basic _, .scalar value => value.layout
  | .array (.dictEntry key value), .dict entries => measured 8 (layoutEntries key value entries)
  | .array element, .array items => measured element.alignment (layoutEach element items)
  | .struct types, .struct fields => aligned 8 (layoutAll types fields)
  | .dictEntry key value, .struct fields => aligned 8 (layoutAll [key, value] fields)
  | _, _ => consecutive []
/-- the layout of values of one type, one after another -/
def layoutEach (type : Ty) : List Value → Piece
  | [] => consecutive []
  | value :: values => consecutive [layout type value, layoutEach type values]
/-- the layout of an argument list, a value for each type -/
def layoutAll : List Ty → List Value → Piece
  | [], _ | _ :: _, [] => consecutive []
  | type :: types, value :: values => consecutive [layout type value, layoutAll types values]
def layoutEntries (key value : Ty) : List (Value × Value) → Piece
  | [] => consecutive []
  | (k, v) :: entries =>
    consecutive [aligned 8 (consecutive [layout key k, layout value v]), layoutEntries key value entries]
end

theorem layoutEach_eq (type : Ty) (values : List Value) :
    layoutEach type values = consecutive (values.map (layout type)) := by
  induction values with
  | nil => rfl
  | cons v vs ih =>
    funext p
    rw [layoutEach, ih, List.map_cons, consecutive_pair, consecutive_cons]

theorem layoutEntries_eq (key value : Ty) (entries : List (Value × Value)) :
    layoutEntries key value entries
      = consecutive (entries.map fun entry => aligned 8 (consecutive [layout key entry.1, layout value entry.2])) := by
  induction entries with
  | nil => rfl
  | cons e es ih =>
    funext p
    rw [layoutEntries, ih, List.map_cons, consecutive_pair, consecutive_cons]

theorem layout_array {element : Ty} (h : element.Shaped) (items : List Value) :
    layout (.array element) (.array items) = measured element.alignment (consecutive (items.map (layout element))) := by
  cases h <;> simp [layout, layoutEach_eq]

/-! ## Values take up bytes -/

theorem size_aligned (alignment : Nat) (piece : Piece) (p : Nat) :
    size (aligned alignment piece p) = padding p alignment + size (piece (p + padding p alignment)) := rfl

theorem IntKind.size_pos (kind : IntKind) : 0 < kind.size := by
  cases kind <;> decide

theorem size_scalar_pos (value : Scalar) (p : Nat) : 0 < size (value.layout p) := by
  cases value with
  | int kind bits =>
    have := IntKind.size_pos kind
    simp [Scalar.layout, size_aligned, Segment.size, this]
  | boolean b => simp [Scalar.layout, size_aligned, Segment.size]
  | double bits => simp [Scalar.layout, size_aligned, Segment.size]
  | text kind value => simp [Scalar.layout, size_aligned, Segment.size]

/-- a value of a type that a signature can name is not empty -/
theorem size_layout_pos {levels : Nat} {type : Ty} {value : Value} (hs : type.Shaped) (h : Exact levels type value)
    (p : Nat) : 0 < size (layout type value p) := by
  induction levels generalizing type value p with
  | zero => cases h
  | succ levels ih =>
    cases hs with
    | basic type =>
      obtain ⟨s, rfl, -⟩ := Value.exact_basic.1 h
      exact size_scalar_pos s p
    | variant =>
      obtain ⟨type, v, rfl, -⟩ := Value.exact_variant.1 h
      have := size_scalar_pos (.text .signature type.text) p
      rw [layout, consecutive_pair, size_append]
      omega
    | array hs =>
      obtain ⟨items, rfl, -⟩ := (Value.exact_array hs).1 h
      rw [layout_array hs]
      simp [measured, Segment.size]
    | dict key hs =>
      obtain ⟨entries, rfl, -⟩ := Value.exact_dict.1 h
      simp [layout, measured, Segment.size]
    | struct hne hs =>
      obtain ⟨fields, rfl, hf⟩ := Value.exact_struct.1 h
      cases hf with
      | nil => exact absurd rfl hne
      | cons hv hf =>
        rw [layout, layoutAll, size_aligned, consecutive_pair, size_append]
        have := ih (hs _ List.mem_cons_self) hv (p + padding p 8)
        omega

/-! ## Positions count modulo eight -/

theorem padding_add_eight {alignment : Nat} (h : alignment ∣ 8) (p : Nat) :
    padding (p + 8) alignment = padding p alignment := by
  rw [padding, Nat.add_mod, Nat.mod_eq_zero_of_dvd h, Nat.add_zero, Nat.mod_mod, padding]

theorem periodic_const (segments : List Segment) : Periodic (fun _ : Nat => segments) 8 := fun _ => rfl

theorem periodic_pair {a b : Piece} (ha : Periodic a 8) (hb : Periodic b 8) : Periodic (consecutive [a, b]) 8 := by
  intro p
  rw [consecutive_pair, consecutive_pair, ha, Nat.add_right_comm, hb]

theorem periodic_aligned {alignment : Nat} {piece : Piece} (ha : alignment ∣ 8) (h : Periodic piece 8) :
    Periodic (aligned alignment piece) 8 := by
  intro p
  rw [aligned, padding_add_eight ha, Nat.add_right_comm, h, aligned]

theorem periodic_measured {alignment : Nat} {body : Piece} (ha : alignment ∣ 8) (h : Periodic body 8) :
    Periodic (measured alignment body) 8 := by
  intro p
  have hstart : p + 8 + padding (p + 8) 4 + 4 = p + padding p 4 + 4 + 8 := by
    rw [padding_add_eight (by decide)]
    omega
  rw [measured_eq rfl, measured_eq rfl, hstart, padding_add_eight ha, padding_add_eight (by decide), Nat.add_right_comm, h]

theorem IntKind.size_dvd (kind : IntKind) : kind.size ∣ 8 := by
  cases kind <;> decide

theorem TextKind.alignment_dvd (kind : TextKind) : kind.alignment ∣ 8 := by
  cases kind <;> decide

theorem alignment_dvd (type : Ty) : type.alignment ∣ 8 := by
  cases type with
  | basic type =>
    cases type with
    | int kind => exact IntKind.size_dvd kind
    | text kind => exact TextKind.alignment_dvd kind
    | _ => decide
  | _ => simp [Ty.alignment]

theorem periodic_scalar (value : Scalar) : Periodic value.layout 8 := by
  cases value with
  | int kind bits => exact periodic_aligned (IntKind.size_dvd kind) (periodic_const _)
  | boolean b => exact periodic_aligned (by decide) (periodic_const _)
  | double bits => exact periodic_aligned (by decide) (periodic_const _)
  | text kind value => exact periodic_aligned (TextKind.alignment_dvd kind) (periodic_const _)

/-- **A layout does not tell positions apart that differ by eight.** -/
theorem periodic_layouts :
    (∀ type value, Periodic (layout type value) 8) ∧ (∀ types values, Periodic (layoutAll types values) 8) ∧
      (∀ type values, Periodic (layoutEach type values) 8) ∧
      ∀ key value entries, Periodic (layoutEntries key value entries) 8 := by
  apply layout.mutual_induct
  case case1 =>
    intro type value ih
    rw [layout]
    exact periodic_pair (periodic_scalar _) ih
  case case2 =>
    intro type value
    rw [layout]
    exact periodic_scalar value
  case case3 =>
    intro key value entries ih
    rw [layout]
    exact periodic_measured (by decide) ih
  case case4 =>
    intro element items ih
    rw [layout]
    exact periodic_measured (alignment_dvd element) ih
  case case5 =>
    intro types fields ih
    rw [layout]
    exact periodic_aligned (by decide) ih
  case case6 =>
    intro key value fields ih
    rw [layout]
    exact periodic_aligned (by decide) ih
  case case7 =>
    intro value type h₁ h₂ h₃ h₄ h₅ h₆
    rw [layout]
    · exact periodic_const _
    all_goals assumption
  case case8 =>
    intro values
    rw [layoutAll]
    exact periodic_const _
  case case9 =>
    intro type types
    rw [layoutAll]
    exact periodic_const _
  case case10 =>
    intro type types value values ih ihs
    rw [layoutAll]
    exact periodic_pair ih ihs
  case case11 =>
    intro type
    exact periodic_const _
  case case12 =>
    intro type value values ih ihs
    rw [layoutEach]
    exact periodic_pair ih ihs
  case case13 =>
    intro key value
    exact periodic_const _
  case case14 =>
    intro key value k v entries ihk ihv ihs
    rw [layoutEntries]
    exact periodic_pair (periodic_aligned (by decide) (periodic_pair ihk ihv)) ihs

end Wire

end MessageBus
