/-
Texts without a NUL.

A text holds a NUL exactly when its bytes do, since every byte of a longer code is at least 128. Numbers and quoted
texts hold none (`nulFree_nat`, `nulFree_quoted`).
-/
import Mathlib.Tactic
import MessageBus.Text.Quoted
import MessageBus.Text.Utf8

namespace MessageBus.Text

theorem utf8_eq_flatMap (text : String) : utf8 text = text.toList.flatMap String.utf8EncodeChar := by
  have h : text.toByteArray = text.toList.utf8Encode := String.utf8Encode_toList.symm
  simp [utf8, String.toUTF8, h, List.utf8Encode]

theorem ofNat_eq_zero_iff {n : Nat} (h : n < 256) : 0 = UInt8.ofNat n ↔ n = 0 := by
  rw [eq_comm, ← UInt8.toNat_inj, UInt8.toNat_ofNat', Nat.mod_eq_of_lt (by omega)]
  rfl

theorem zero_mem_utf8EncodeChar (c : Char) : 0 ∈ String.utf8EncodeChar c ↔ c = '\x00' := by
  have hc : c = '\x00' ↔ c.val.toNat = 0 := by
    rw [← Char.toNat_inj]
    rfl
  rw [hc]
  fun_cases String.utf8EncodeChar c
  all_goals simp (disch := omega) only [List.mem_cons, List.not_mem_nil, or_false, ofNat_eq_zero_iff]
  all_goals omega

theorem zero_mem_utf8 (text : String) : 0 ∈ utf8 text ↔ '\x00' ∈ text.toList := by
  simp [utf8_eq_flatMap, zero_mem_utf8EncodeChar]

theorem contains_nul (text : String) : text.contains '\x00' = (utf8 text).contains 0 := by
  rw [Bool.eq_iff_iff, String.contains_char_eq, decide_eq_true_eq, List.contains_iff_mem, zero_mem_utf8]

/-- no character of a text is a NUL -/
def NulFree (text : String) : Prop := '\x00' ∉ text.toList

instance (text : String) : Decidable (NulFree text) := inferInstanceAs (Decidable ('\x00' ∉ text.toList))

theorem nulFree_iff (text : String) : NulFree text ↔ text.contains '\x00' = false := by
  rw [NulFree, String.contains_char_eq, decide_eq_false_iff_not]

@[simp] theorem nulFree_append {a b : String} : NulFree (a ++ b) ↔ NulFree a ∧ NulFree b := by
  simp [NulFree, not_or]

theorem nul_not_mem_toDigits {base : Nat} (hbase : 1 < base) (n : Nat) : '\x00' ∉ Nat.toDigits base n := by
  have hdigit (d : Nat) : '\x00' ≠ Nat.digitChar d := by
    fun_cases Nat.digitChar d <;> decide
  induction n using Nat.strongRecOn with
  | ind n ih =>
    by_cases hn : n < base
    · rw [Nat.toDigits_of_lt_base hn, List.mem_singleton]
      exact hdigit n
    · rw [Nat.toDigits_of_base_le hbase (not_lt.1 hn), List.mem_append, List.mem_singleton, not_or]
      exact ⟨ih (n / base) (Nat.div_lt_self (by omega) hbase), hdigit _⟩

@[simp] theorem nulFree_nat (n : Nat) : NulFree n.repr := by
  rw [NulFree, Nat.toList_repr]
  exact nul_not_mem_toDigits (by decide) n

@[simp] theorem nulFree_int (n : Int) : NulFree n.repr := by
  cases n with
  | ofNat n => exact nulFree_nat n
  | negSucc n => exact nulFree_append.2 ⟨by decide, nulFree_nat (n + 1)⟩

theorem nul_not_mem_quotedChar (c : Char) : '\x00' ∉ quotedChar c := by
  fun_cases quotedChar c with
  | case7 h₁ h₂ h₃ h₄ h₅ hnul => simpa using Ne.symm hnul
  | case8 => simp [hex, nul_not_mem_toDigits]
  | _ => decide

@[simp] theorem nulFree_push {text : String} {c : Char} : NulFree (text.push c) ↔ NulFree text ∧ c ≠ '\x00' := by
  simp [NulFree, eq_comm]

/-- quotes hide every NUL -/
@[simp] theorem nulFree_quoted (text : String) : NulFree (quoted text) := by
  simp [NulFree, quoted, nul_not_mem_quotedChar]

end MessageBus.Text
