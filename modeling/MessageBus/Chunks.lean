/-
Cutting a list into pieces of one size.
-/

namespace MessageBus

/-- consecutive pieces of `size` elements, at least one, of which the last may be shorter -/
def chunks {α : Type} (size : Nat) (list : List α) : List (List α) :=
  if list.isEmpty then []
  else list.take (max size 1) :: chunks size (list.drop (max size 1))
termination_by list.length
decreasing_by
  rename_i h
  rw [List.isEmpty_iff] at h
  have := List.length_pos_iff.mpr h
  simp only [List.length_drop]
  omega

theorem flatten_chunks {α : Type} (size : Nat) (list : List α) : (chunks size list).flatten = list := by
  fun_induction chunks size list with
  | case1 list h => simpa using h
  | case2 list h ih => simp [ih]

end MessageBus
