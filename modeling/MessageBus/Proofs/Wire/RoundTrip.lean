/-
Writing and reading back.

Both directions go by the layout: an argument list is written as the layout of what it normalizes to
(`marshal_eq_ok_iff`), and whatever bytes stand for the layout of an exact argument list are read as that list
(`unmarshal_eq_ok_iff`). So what is written is read back normalized, at any position and with any bytes behind it
(`decodeAll_encodeAll`), and what is read can be written again, with the same bytes but for zeros as padding
(`marshal_unmarshal`).
-/
import MessageBus.Proofs.Wire.Decode

namespace MessageBus.Wire

open Value (Writable Exact normalizeAll)

theorem shaped_of_mem {signature : String} {types : List Ty} (h : Ty.parse signature = .ok types) :
    ∀ type ∈ types, type.Shaped :=
  fun type ht => ((Ty.parse_sound h).2.2 type ht).shaped

section Lists

variable {order : ByteOrder} {types : List Ty} {values : List Value} {data : List UInt8}

theorem exact_normalized (hs : ∀ type ∈ types, type.Shaped) (h : List.Forall₂ (Writable (maxDepth + 1)) types values) :
    List.Forall₂ (Exact (maxDepth + 1)) types (normalizeAll types values) :=
  Value.exact_normalizeAll hs (fun hs hw => hw.exact_normalize hs) h

theorem normalizeAll_exact (hs : ∀ type ∈ types, type.Shaped) (h : List.Forall₂ (Exact (maxDepth + 1)) types values) :
    normalizeAll types values = values :=
  Value.normalizeAll_eq hs (fun hs he => he.normalize_eq hs) h

/-- an argument list is read off the layouts of exact values, one after another -/
theorem decodeAll_reads (hs : ∀ type ∈ types, type.Shaped) :
    Reads (decodeAll types) (AsLaid (List.Forall₂ (Exact (maxDepth + 1)) types) (layoutAll types)) :=
  reads_mapM fun type ht => decodeWithin_reads (hs type ht)

/-- the bytes of an argument list are those of the layout of what it normalizes to -/
theorem marshal_eq_ok_iff : marshal order types values = .ok data ↔
    List.Forall₂ (Writable (maxDepth + 1)) types values ∧ AllFit (layoutAll types (normalizeAll types values) 0) ∧
      data = render order (layoutAll types (normalizeAll types values) 0) := by
  have hnew (bytes : List UInt8) : ((Writer.new order 0).append bytes).data.toList = bytes := by simp [Writer.new]
  have h := encodeAll_emits types values (Writer.new order 0)
  unfold marshal
  constructor
  · intro hm
    split at hm
    · rename_i w hrun
      cases hm
      obtain ⟨hw, hfit, rfl⟩ := (h w).1 hrun
      exact ⟨hw, hfit, hnew _⟩
    · cases hm
  · intro h
    rcases h with ⟨hw, hfit, rfl⟩
    rw [(h _).2 ⟨hw, hfit, rfl⟩]
    exact congrArg Except.ok (hnew _)

/-- an argument list is what its bytes are read as when they stand for its layout, and it is exact -/
theorem unmarshal_eq_ok_iff (hs : ∀ type ∈ types, type.Shaped) : unmarshal order types data = .ok values ↔
    List.Forall₂ (Exact (maxDepth + 1)) types values ∧ AllFit (layoutAll types values 0) ∧
      Matches order (layoutAll types values 0) data := by
  have h := decodeAll_reads hs order 0 data
  unfold unmarshal
  constructor
  · intro hu
    split at hu
    · rename_i vs r hrun
      split_ifs at hu with hempty
      cases hu
      obtain ⟨_, bytes, rest, ⟨he, hfit, rfl⟩, hm, rfl, rfl⟩ := (h _ r).1 hrun
      obtain rfl : rest = [] := List.isEmpty_iff.1 hempty
      exact ⟨he, hfit, by simpa using hm⟩
    · cases hu
  · intro h
    rcases h with ⟨he, hfit, hm⟩
    rw [(h values _).2 ⟨_, data, [], ⟨he, hfit, rfl⟩, hm, (List.append_nil _).symm, rfl⟩]
    rfl

end Lists

/-- **What is written is read back**, normalized, in either byte order, from wherever it starts in a message, and
without a look at what follows. -/
theorem decodeAll_encodeAll {signature : String} {types : List Ty} {order : ByteOrder} {start : Nat} {values : List Value}
    {w : Writer} (hsig : Ty.parse signature = .ok types)
    (henc : (encodeAll types values).run (Writer.new order start) = (.ok (), w)) (rest : List UInt8) :
    (decodeAll types).run ⟨order, start, w.data.toList ++ rest⟩
      = (.ok (normalizeAll types values), ⟨order, start + w.data.size, rest⟩) := by
  have hs := shaped_of_mem hsig
  have hpos : (Writer.new order start).position = start := rfl
  obtain ⟨hw, hfit, rfl⟩ := (encodeAll_emits types values _ w).1 henc
  rw [hpos] at hfit ⊢
  refine (decodeAll_reads hs order start _ _ _).2 ⟨_, _, rest, ⟨exact_normalized hs hw, hfit, rfl⟩, matches_render .., ?_, ?_⟩
  · simp [Writer.new]
  · simp [Writer.new]

/-- a dict given as an array of pairs, with an integer for a boolean inside of a variant, from position 3 on -/
theorem decodeAll_encodeAll_pairs :
    let types : List Ty := [.array (.dictEntry (.basic (.int .byte)) .variant)]
    let values : List Value := [.array [.struct [.uint32 7, .variant (.basic .boolean) (.byte 1)]]]
    let bytes : List UInt8 := [0, 0, 0, 0, 8, 7, 1, 98, 0, 0, 0, 0, 1]
    Ty.parse "a\x7byv\x7d" = .ok types ∧
      (encodeAll types values).run (Writer.new .big 3) = (.ok (), ⟨.big, 3, bytes.toArray⟩) ∧
      (decodeAll types).run ⟨.big, 3, bytes ++ [1, 2]⟩
        = (.ok [.dict [(.byte 7, .variant (.basic .boolean) (.scalar (.boolean true)))]], ⟨.big, 16, [1, 2]⟩) := by
  intro types values bytes
  have hsig : Ty.parse "a\x7byv\x7d" = .ok types := by decide
  have henc : (encodeAll types values).run (Writer.new .big 3) = (.ok (), ⟨.big, 3, bytes.toArray⟩) := rfl
  exact ⟨hsig, henc, decodeAll_encodeAll hsig henc [1, 2]⟩

/-- **What is read can be written**: in the same order, with the same bytes where they mean anything and with zeros as
padding, and is read back from there. -/
theorem marshal_unmarshal {signature : String} {types : List Ty} {order : ByteOrder} {bytes : List UInt8}
    {values : List Value} (hsig : Ty.parse signature = .ok types) (hread : unmarshal order types bytes = .ok values) :
    ∃ written, marshal order types values = .ok written ∧ written.length = bytes.length ∧
      (mask (layoutAll types values 0)).length = bytes.length ∧ written = blank (mask (layoutAll types values 0)) bytes ∧
      unmarshal order types written = .ok values := by
  have hs := shaped_of_mem hsig
  obtain ⟨he, hfit, hm⟩ := (unmarshal_eq_ok_iff hs).1 hread
  have hlayout : layoutAll types (normalizeAll types values) 0 = layoutAll types values 0 := by
    rw [normalizeAll_exact hs he]
  refine ⟨render order (layoutAll types values 0), marshal_eq_ok_iff.2 ⟨?_, ?_, ?_⟩, ?_, ?_, hm.render_eq_blank, ?_⟩
  · exact he.imp fun _ _ h => h.writable
  · rwa [hlayout]
  · rw [hlayout]
  · rw [length_render, hm.length_eq]
  · rw [length_mask, hm.length_eq]
  · exact (unmarshal_eq_ok_iff hs).2 ⟨he, hfit, matches_render ..⟩

/-- a struct with something else than zeros between its fields -/
theorem marshal_unmarshal_padding :
    let types : List Ty := [.struct [.basic (.int .byte), .basic (.text .string)]]
    let values : List Value := [.struct [.byte 7, .string "A"]]
    Ty.parse "(ys)" = .ok types ∧ unmarshal .little types [7, 1, 2, 3, 1, 0, 0, 0, 65, 0] = .ok values ∧
      marshal .little types values = .ok [7, 0, 0, 0, 1, 0, 0, 0, 65, 0] ∧
      unmarshal .little types [7, 0, 0, 0, 1, 0, 0, 0, 65, 0] = .ok values := by
  intro types values
  have hsig : Ty.parse "(ys)" = .ok types := by decide
  have hread : unmarshal .little types [7, 1, 2, 3, 1, 0, 0, 0, 65, 0] = .ok values := rfl
  obtain ⟨written, hwritten, -, -, hbytes, hagain⟩ := marshal_unmarshal hsig hread
  obtain rfl : written = [7, 0, 0, 0, 1, 0, 0, 0, 65, 0] := hbytes
  exact ⟨hsig, hread, hwritten, hagain⟩

end MessageBus.Wire
