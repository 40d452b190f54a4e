/-
How large a value some bytes can make.

Whoever sends a variant chooses the type of its content, so that types say nothing of how deep a value nests or how much it
holds. Depth is bounded by the levels that are counted down while reading. What a value holds is bounded by the bytes that
it was read from: at each level, a scalar, an array, a dict and a variant have at least a byte of their own in the layout
(`nodes_le_size`), and a struct, which may have none, has a field. So no message makes a value that is larger than it is
itself (`decodeAll_bounded`).
-/
import Mathlib
import MessageBus.Proofs.Value.Conforming
import MessageBus.Proofs.Wire.RoundTrip

namespace MessageBus

namespace Value

mutual
/-- the scalars, arrays, dicts and variants in a value, at all levels; a struct counts as its fields -/
def nodes : Value → Nat
  | scalar _ => 1
  | array items => 1 + nodesAll items
  | dict entries => 1 + nodesEntries entries
  | struct fields => nodesAll fields
  | variant _ value => 1 + nodes value
def nodesAll : List Value → Nat
  | [] => 0
  | value :: values => nodes value + nodesAll values
def nodesEntries : List (Value × Value) → Nat
  | [] => 0
  | (key, value) :: entries => nodes key + nodes value + nodesEntries entries
end

end Value

namespace Wire

open Value (Exact nodes nodesAll nodesEntries)

/-! ## Values in a row -/

theorem nodesAll_le_consecutive {place : Value → Piece} {items : List Value}
    (h : ∀ item ∈ items, ∀ p, item.nodes ≤ size (place item p)) (p : Nat) :
    nodesAll items ≤ size (consecutive (items.map place) p) := by
  induction items generalizing p with
  | nil => exact Nat.zero_le _
  | cons item items ih =>
    rw [List.map_cons, consecutive_cons, size_append, nodesAll]
    exact Nat.add_le_add (h item List.mem_cons_self p) (ih (fun i hi => h i (List.mem_cons_of_mem _ hi)) _)

theorem nodesEntries_le_size {key value : Ty} {entries : List (Value × Value)}
    (hkey : ∀ entry ∈ entries, ∀ p, entry.1.nodes ≤ size (layout key entry.1 p))
    (hvalue : ∀ entry ∈ entries, ∀ p, entry.2.nodes ≤ size (layout value entry.2 p)) (p : Nat) :
    nodesEntries entries ≤ size (layoutEntries key value entries p) := by
  induction entries generalizing p with
  | nil => exact Nat.zero_le _
  | cons entry entries ih =>
    obtain ⟨k, v⟩ := entry
    have hentry : k.nodes + v.nodes ≤ size (aligned 8 (consecutive [layout key k, layout value v]) p) := by
      have hk := hkey _ List.mem_cons_self (p + padding p 8)
      have hv := hvalue _ List.mem_cons_self (p + padding p 8 + size (layout key k (p + padding p 8)))
      rw [size_aligned, consecutive_pair, size_append]
      dsimp only at hk hv
      omega
    rw [layoutEntries, consecutive_pair, size_append, nodesEntries]
    exact Nat.add_le_add hentry
      (ih (fun e he => hkey e (List.mem_cons_of_mem _ he)) (fun e he => hvalue e (List.mem_cons_of_mem _ he)) _)

/-- a value for each type, wherever one value holds no more than it takes up -/
theorem nodesAll_le_layoutAll {levels : Nat} {types : List Ty} {values : List Value} (hs : ∀ type ∈ types, type.Shaped)
    (hone : ∀ {type value}, type.Shaped → Exact levels type value → ∀ p, value.nodes ≤ size (layout type value p))
    (h : List.Forall₂ (Exact levels) types values) (p : Nat) : nodesAll values ≤ size (layoutAll types values p) := by
  induction h generalizing p with
  | nil => exact Nat.zero_le _
  | cons hv _ ih =>
    rw [layoutAll, consecutive_pair, size_append, nodesAll]
    exact Nat.add_le_add (hone (hs _ List.mem_cons_self) hv p) (ih (fun type ht => hs type (List.mem_cons_of_mem _ ht)) _)

/-! ## Values -/

theorem size_measured (alignment : Nat) (body : Piece) (p : Nat) :
    ∃ start, size (body start) < size (measured alignment body p) := by
  refine ⟨p + padding p 4 + 4 + padding (p + padding p 4 + 4) alignment, ?_⟩
  rw [measured_eq rfl, size_append]
  simp only [size_cons, size_nil, Segment.size]
  omega

/-- **A value holds no more than it takes up.** -/
theorem nodes_le_size {levels : Nat} {type : Ty} {value : Value} (hs : type.Shaped) (h : Exact levels type value)
    (p : Nat) : value.nodes ≤ size (layout type value p) := by
  induction levels generalizing type value p with
  | zero => cases h
  | succ levels ih =>
    cases hs with
    | basic type =>
      obtain ⟨s, rfl, -⟩ := Value.exact_basic.1 h
      exact size_scalar_pos s p
    | variant =>
      obtain ⟨type, v, rfl, hparse, hv⟩ := Value.exact_variant.1 h
      have hsignature := size_scalar_pos (.text .signature type.text) p
      have hcontent := ih (Value.shaped_of_parse hparse) hv (p + size ((Scalar.text .signature type.text).layout p))
      rw [layout, consecutive_pair, size_append, nodes]
      omega
    | @array element hs =>
      obtain ⟨items, rfl, hitems⟩ := (Value.exact_array hs).1 h
      obtain ⟨start, hstart⟩ := size_measured element.alignment (consecutive (items.map (layout element))) p
      have hall := nodesAll_le_consecutive (fun item hi p => ih hs (hitems item hi) p) start
      rw [layout_array hs, nodes]
      omega
    | @dict key value hs =>
      obtain ⟨entries, rfl, hentries⟩ := Value.exact_dict.1 h
      obtain ⟨start, hstart⟩ := size_measured 8 (layoutEntries (.basic key) value entries) p
      have hall := nodesEntries_le_size (fun e he p => ih (.basic key) (hentries e he).1 p)
        (fun e he p => ih hs (hentries e he).2 p) start
      rw [layout, nodes]
      omega
    | struct hne hs =>
      obtain ⟨fields, rfl, hfields⟩ := Value.exact_struct.1 h
      rw [layout, size_aligned, nodes]
      exact (nodesAll_le_layoutAll hs ih hfields _).trans (Nat.le_add_left ..)

/-! ## Bytes -/

/-- **Bytes make no value that is larger than they are.** What is read, from any bytes at any position, nests at most 64
levels deep, and its scalars, arrays, dicts and variants are no more than the bytes that were read. -/
theorem decodeAll_bounded {signature : String} {types : List Ty} {order : ByteOrder} {offset : Nat} {data : List UInt8}
    {values : List Value} {r : Reader} (hsig : Ty.parse signature = .ok types)
    (hrun : (decodeAll types).run ⟨order, offset, data⟩ = (.ok values, r)) :
    (∀ value ∈ values, ∀ n part, value.Below n part → n ≤ 64) ∧
      ∃ used, data = used ++ r.rest ∧ r.position = offset + used.length ∧ nodesAll values ≤ used.length := by
  have hs := shaped_of_mem hsig
  obtain ⟨_, used, rest, ⟨hexact, -, rfl⟩, hm, rfl, rfl⟩ := (decodeAll_reads hs order offset data values r).1 hrun
  constructor
  · intro value hvalue n part hpart
    obtain ⟨-, hwithin⟩ := Value.conforms_fields Value.Writable.conforms (hexact.imp fun _ _ h => h.writable)
    exact Nat.le_of_lt_succ (hwithin value hvalue n part hpart)
  · refine ⟨used, rfl, by rw [hm.length_eq], ?_⟩
    rw [hm.length_eq]
    exact nodesAll_le_layoutAll hs nodes_le_size hexact offset

/-- a dict, a byte, a variant and a number inside of it are read from eleven bytes at position 3, and one byte is left -/
theorem decodeAll_bounded_dict :
    let types : List Ty := [.array (.dictEntry (.basic (.int .byte)) .variant)]
    let value : Value := .dict [(.byte 7, .variant (.basic (.int .uint16)) (.scalar (.int .uint16 258)))]
    let bytes : List UInt8 := [0, 0, 0, 0, 6, 7, 1, 113, 0, 1, 2]
    Ty.parse "a\x7byv\x7d" = .ok types ∧
      (decodeAll types).run ⟨.big, 3, bytes ++ [5]⟩ = (.ok [value], ⟨.big, 14, [5]⟩) ∧
      (∀ n part, value.Below n part → n ≤ 64) ∧ nodesAll [value] = 4 ∧
      ∃ used, bytes ++ [5] = used ++ [5] ∧ 14 = 3 + used.length ∧ nodesAll [value] ≤ used.length := by
  intro types value bytes
  have hsig : Ty.parse "a\x7byv\x7d" = .ok types := by decide
  have hrun : (decodeAll types).run ⟨.big, 3, bytes ++ [5]⟩ = (.ok [value], ⟨.big, 14, [5]⟩) := by cbv
  obtain ⟨hdepth, hextent⟩ := decodeAll_bounded hsig hrun
  exact ⟨hsig, hrun, hdepth value (List.mem_singleton_self _), rfl, hextent⟩

end Wire

end MessageBus
