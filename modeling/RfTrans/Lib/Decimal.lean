import Mathlib.Data.Nat.Digits.Lemmas

/-!
# Decimal numerals

Natural numbers as the bytes of their decimal digits.

## Main definitions

* `Decimal.isDigit`, `Decimal.value` — reading digits.
* `Decimal.text` — writing them, without leading zeros.
* `Decimal.value_text`
-/

namespace Decimal

/-- `DIGIT` -/
def isDigit (c : UInt8) : Bool := 48 ≤ c ∧ c ≤ 57

/-- The number that digits denote. -/
def value (ds : List UInt8) : ℕ := Nat.ofDigits 10 (ds.reverse.map fun c => c.toNat - 48)

/-- The digits of a number. -/
def text (n : ℕ) : List UInt8 :=
  if n = 0 then [48] else (Nat.digits 10 n).reverse.map fun d => UInt8.ofNat (48 + d)

variable {n d : ℕ}

@[simp] theorem value_nil : value [] = 0 := rfl

/-- One more digit. -/
theorem value_concat (ds : List UInt8) (c : UInt8) :
    value (ds ++ [c]) = 10 * value ds + (c.toNat - 48) := by
  simp [value, Nat.ofDigits_cons, add_comm]

theorem toNat_digit (h : d < 10) : (UInt8.ofNat (48 + d)).toNat = 48 + d := by
  simp only [UInt8.toNat_ofNat']
  omega

theorem isDigit_digit (h : d < 10) : isDigit (UInt8.ofNat (48 + d)) = true := by
  have hd := toNat_digit h
  simp only [isDigit, decide_eq_true_eq, UInt8.le_iff_toNat_le, hd]
  exact ⟨Nat.le_add_right 48 d, by show 48 + d ≤ 57; omega⟩

theorem isDigit_lt {c : UInt8} (h : isDigit c = true) : c < 0x80 := by
  have hrange : 48 ≤ c ∧ c ≤ 57 := by simpa [isDigit] using h
  exact UInt8.lt_of_le_of_lt hrange.2 (by decide)

theorem isDigit_of_mem_text {c : UInt8} (h : c ∈ text n) : isDigit c = true := by
  rw [text] at h
  split at h
  case isTrue =>
    rw [List.mem_singleton.mp h]
    decide
  case isFalse =>
    obtain ⟨d, hd, rfl⟩ := List.mem_map.mp h
    exact isDigit_digit (Nat.digits_lt_base (by decide) (List.mem_reverse.mp hd))

/-- **Reading what was written.** -/
@[simp] theorem value_text (n : ℕ) : value (text n) = n := by
  rw [text]
  split
  case isTrue h =>
    rw [h]
    decide
  case isFalse h =>
    have hdigits : ((Nat.digits 10 n).map fun d => UInt8.ofNat (48 + d)).map
        (fun c => c.toNat - 48) = Nat.digits 10 n := by
      rw [List.map_map]
      refine (List.map_congr_left fun d hd => ?_).trans (List.map_id _)
      have := toNat_digit (Nat.digits_lt_base (by decide : 1 < 10) hd)
      simp only [Function.comp, this, Nat.add_sub_cancel_left, id]
    rw [value, ← List.map_reverse, List.reverse_reverse, hdigits, Nat.ofDigits_digits]

/-- A numeral starts with a digit, and with a zero only if it is nothing else. -/
theorem exists_text_eq (n : ℕ) :
    ∃ c ds, text n = c :: ds ∧ isDigit c = true ∧ (c = 48 → ds = []) := by
  by_cases h : n = 0
  · exact ⟨48, [], by rw [h, text, if_pos rfl], by decide, fun _ => rfl⟩
  · have hne : Nat.digits 10 n ≠ [] := Nat.digits_ne_nil_iff_ne_zero.mpr h
    have hlast := Nat.getLast_digit_ne_zero 10 h
    have hmem := List.getLast_mem hne
    have hlt := Nat.digits_lt_base (by decide : 1 < 10) hmem
    refine ⟨UInt8.ofNat (48 + (Nat.digits 10 n).getLast hne),
      ((Nat.digits 10 n).dropLast).reverse.map fun d => UInt8.ofNat (48 + d), ?_,
      isDigit_digit hlt, ?_⟩
    · rw [text, if_neg h]
      conv_lhs => rw [← List.dropLast_append_getLast hne]
      simp
    · intro hzero
      have htoNat := congrArg UInt8.toNat hzero
      rw [toNat_digit hlt] at htoNat
      exact absurd (Nat.add_left_cancel (k := 0) htoNat) hlast

end Decimal
