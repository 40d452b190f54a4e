/-
The letters that names are made of.

Every name that is accepted for some use consists of letters, digits, `_`, `-` and the marks between its segments; in
particular it holds no NUL (`nul_not_mem_of_accepts`). All names but object paths are short (`length_of_accepts`).
-/
import Mathlib.Tactic
import MessageBus.Error

namespace MessageBus.Name

theorem segments_ne_nil (mark : Char) (cs : List Char) : segments mark cs ≠ [] := by
  cases cs with
  | nil => simp [segments]
  | cons c cs =>
    rw [segments]
    split_ifs
    · simp
    · split <;> simp

/-- whatever is no mark is in one of the segments -/
theorem mem_segments {mark c : Char} {cs : List Char} (hc : c ∈ cs) (hm : c ≠ mark) :
    ∃ segment ∈ segments mark cs, c ∈ segment := by
  induction cs with
  | nil => cases hc
  | cons d cs ih =>
    rw [segments]
    split_ifs with hd
    · obtain rfl | hc := List.mem_cons.1 hc
      · exact absurd hd hm
      · obtain ⟨s, hs, hcs⟩ := ih hc
        exact ⟨s, List.mem_cons_of_mem _ hs, hcs⟩
    · obtain ⟨first, rest, hseg⟩ := List.exists_cons_of_ne_nil (segments_ne_nil mark cs)
      rw [hseg] at ih ⊢
      obtain rfl | hc := List.mem_cons.1 hc
      · exact ⟨c :: first, List.mem_cons_self, List.mem_cons_self⟩
      · obtain ⟨s, hs, hcs⟩ := ih hc
        obtain rfl | hs := List.mem_cons.1 hs
        · exact ⟨d :: s, List.mem_cons_self, List.mem_cons_of_mem _ hcs⟩
        · exact ⟨s, List.mem_cons_of_mem _ hs, hcs⟩

theorem nul_not_mem_of_segments {mark : Char} {cs : List Char} {ok : List Char → Bool} (hm : mark ≠ '\x00')
    (hok : ∀ segment, ok segment = true → '\x00' ∉ segment) (h : (segments mark cs).all ok = true) : '\x00' ∉ cs := by
  intro hc
  obtain ⟨s, hs, hcs⟩ := mem_segments hc hm.symm
  exact hok s (List.all_eq_true.1 h s hs) hcs

theorem nul_not_mem_of_isIdentifier (cs : List Char) (h : isIdentifier cs = true) : '\x00' ∉ cs := by
  cases cs with
  | nil => simp
  | cons c cs =>
    simp only [isIdentifier, Bool.and_eq_true, List.all_eq_true] at h
    intro hc
    obtain rfl | hc := List.mem_cons.1 hc
    · exact absurd h.1 (by decide)
    · exact absurd (h.2 _ hc) (by decide)

theorem nul_not_mem_of_isBusSegment (unique : Bool) (cs : List Char) (h : isBusSegment unique cs = true) :
    '\x00' ∉ cs := by
  cases cs with
  | nil => simp
  | cons c cs =>
    simp only [isBusSegment, Bool.and_eq_true] at h
    intro hc
    exact absurd (List.all_eq_true.1 h.2 _ hc) (by decide)

theorem nul_not_mem_of_isObjectPath (cs : List Char) (h : isObjectPath cs = true) : '\x00' ∉ cs := by
  unfold isObjectPath at h
  split at h
  · decide
  · rename_i rest _
    have hrest : '\x00' ∉ rest := by
      refine nul_not_mem_of_segments (by decide) (fun s hs hc => ?_) h
      simp only [Bool.and_eq_true, List.all_eq_true] at hs
      exact absurd (hs.2 _ hc) (by decide)
    simpa using hrest
  · cases h

theorem nul_not_mem_of_isDotted (cs : List Char) (h : isDotted cs = true) : '\x00' ∉ cs := by
  simp only [isDotted, Bool.and_eq_true] at h
  exact nul_not_mem_of_segments (by decide) nul_not_mem_of_isIdentifier h.2

theorem nul_not_mem_of_isBusName (cs : List Char) (h : isBusName cs = true) : '\x00' ∉ cs := by
  unfold isBusName at h
  split at h
  · rename_i rest
    simp only [Bool.and_eq_true] at h
    have hrest := nul_not_mem_of_segments (by decide) (nul_not_mem_of_isBusSegment true) h.2
    simpa using hrest
  · simp only [Bool.and_eq_true] at h
    exact nul_not_mem_of_segments (by decide) (nul_not_mem_of_isBusSegment false) h.2

/-- no accepted name holds a NUL -/
theorem nul_not_mem_of_accepts {kind : NameKind} {name : String} (h : kind.accepts name = true) :
    '\x00' ∉ name.toList := by
  cases kind with
  | objectPath => exact nul_not_mem_of_isObjectPath _ h
  | interface =>
    simp only [NameKind.accepts, Bool.and_eq_true] at h
    exact nul_not_mem_of_isDotted _ h.2
  | member =>
    simp only [NameKind.accepts, Bool.and_eq_true] at h
    exact nul_not_mem_of_isIdentifier _ h.2
  | error =>
    simp only [NameKind.accepts, Bool.and_eq_true] at h
    exact nul_not_mem_of_isDotted _ h.2
  | bus =>
    simp only [NameKind.accepts, Bool.and_eq_true] at h
    exact nul_not_mem_of_isBusName _ h.2

theorem length_of_accepts {kind : NameKind} {name : String} (h : kind.accepts name = true) (hkind : kind ≠ .objectPath) :
    name.utf8ByteSize ≤ maxLength := by
  cases kind with
  | objectPath => exact absurd rfl hkind
  | _ =>
    simp only [NameKind.accepts, Bool.and_eq_true, decide_eq_true_eq] at h
    exact h.1

end MessageBus.Name

namespace MessageBus

theorem NameKind.check_eq_ok_iff {kind : NameKind} {name : String} :
    kind.check name = .ok () ↔ kind.accepts name = true := by
  unfold check
  split_ifs with h
  · simp [h]
  · simp [h]

end MessageBus
