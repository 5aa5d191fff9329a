import RfTrans.Lib.Json
import RfTrans.Lib.Rounding

/-!
# Numbers with decimals

Rational numbers with a fixed number of decimals: the nearest one, and of two at the same
distance the even one.

## Main definitions

* `Decimal.padded` — so many digits.
* `Decimal.fixed` — the digits before the point and after it.
* `Json.reads_fixed`
-/

namespace Decimal

/-- The last `p` digits of a number. -/
def padded : ℕ → ℕ → List UInt8
  | 0, _ => []
  | p + 1, n => padded p (n / 10) ++ [UInt8.ofNat (48 + n % 10)]

/-- A number that is not negative, in units of the last decimal. -/
def units (p : ℕ) (q : ℚ) : ℕ := (Rounding.nearestEven (q * 10 ^ p)).toNat

/-- A number that is not negative, with `p` decimals. -/
def fixed (p : ℕ) (q : ℚ) : List UInt8 :=
  text (units p q / 10 ^ p) ++ 0x2E :: padded p (units p q)

variable {p n : ℕ} {q : ℚ}

@[simp] theorem length_padded (p n : ℕ) : (padded p n).length = p := by
  induction p generalizing n with
  | zero => rfl
  | succ p ih => rw [padded, List.length_append, ih, List.length_singleton]

theorem isDigit_of_mem_padded {c : UInt8} (h : c ∈ padded p n) : isDigit c = true := by
  induction p generalizing n with
  | zero => cases h
  | succ p ih =>
      rcases List.mem_append.mp h with h | h
      · exact ih h
      · rw [List.mem_singleton.mp h]
        exact isDigit_digit (Nat.mod_lt n (by decide))

theorem value_padded (p n : ℕ) : value (padded p n) = n % 10 ^ p := by
  induction p generalizing n with
  | zero => rw [padded, value_nil, pow_zero, Nat.mod_one]
  | succ p ih =>
      have hdigit := toNat_digit (Nat.mod_lt n (by decide : 0 < 10))
      rw [padded, value_concat, ih, hdigit, Nat.add_sub_cancel_left, pow_succ', Nat.mod_mul,
        Nat.add_comm]

/-- **What has so many decimals is exact.** -/
theorem units_div (h : q * 10 ^ p = n) : (units p q : ℚ) / 10 ^ p = q := by
  have hint : q * 10 ^ p = ((n : ℤ) : ℚ) := by exact_mod_cast h
  rw [units, hint, Rounding.nearestEven_intCast, Int.toNat_natCast, ← h,
    mul_div_cancel_right₀ _ (by positivity)]

theorem fixed_lt {c : UInt8} (h : c ∈ fixed p q) : c < 0x80 := by
  rcases List.mem_append.mp h with h | h
  · exact isDigit_lt (isDigit_of_mem_text h)
  · rcases List.mem_cons.mp h with rfl | h
    · decide
    · exact isDigit_lt (isDigit_of_mem_padded h)

theorem newline_notMem_fixed : 0x0A ∉ fixed p q := by
  intro h
  rcases List.mem_append.mp h with h | h
  · exact absurd (isDigit_of_mem_text h) (by decide)
  · rcases List.mem_cons.mp h with h | h
    · cases h
    · exact absurd (isDigit_of_mem_padded h) (by decide)

end Decimal

namespace Json

open Decimal

variable {p n : ℕ} {q : ℚ} {rest : List UInt8}

/-- Digits up to something else. -/
theorem digits_of_not_isDigit {ds : List UInt8} (hds : ∀ c ∈ ds, isDigit c = true) {c : UInt8}
    (hc : isDigit c = false) : digits (ds ++ c :: rest) = (ds, c :: rest) := by
  rw [digits, List.takeWhile_append_of_pos hds, List.dropWhile_append_of_pos hds]
  simp [hc]

theorem unsigned_decimals (hp : 0 < p) (n : ℕ) (h : Ends rest) :
    unsigned (text (n / 10 ^ p) ++ 0x2E :: padded p n ++ rest) =
      some ((n : ℚ) / 10 ^ p, rest) := by
  obtain ⟨c, ds, htext, -, hzero⟩ := exists_text_eq (n / 10 ^ p)
  have hint : int (text (n / 10 ^ p) ++ 0x2E :: (padded p n ++ rest)) =
      some (n / 10 ^ p, 0x2E :: (padded p n ++ rest)) := by
    rw [int, digits_of_not_isDigit (fun c hc => isDigit_of_mem_text hc) (by decide), htext]
    have hvalue : value (c :: ds) = n / 10 ^ p := by rw [← htext, value_text]
    simp only [hvalue]
    rw [if_neg]
    intro hboth
    exact hboth.2 (hzero hboth.1)
  have hfrac : frac (0x2E :: (padded p n ++ rest)) =
      some (((n % 10 ^ p : ℕ) : ℚ) / 10 ^ p, rest) := by
    have hdigits := digits_append (fun c hc => isDigit_of_mem_padded (n := n) (p := p) hc) h
    have hvalue := value_padded p n
    have hlength := length_padded p n
    rw [frac, hdigits]
    generalize padded p n = ds at hvalue hlength
    cases ds with
    | nil => exact absurd hlength.symm hp.ne'
    | cons d ds => simp only [hvalue, hlength]
  have hsum : ((n / 10 ^ p : ℕ) : ℚ) + ((n % 10 ^ p : ℕ) : ℚ) / 10 ^ p = (n : ℚ) / 10 ^ p := by
    have hdiv : ((10 ^ p * (n / 10 ^ p) + n % 10 ^ p : ℕ) : ℚ) = n :=
      congrArg Nat.cast (Nat.div_add_mod n (10 ^ p))
    push_cast at hdiv
    rw [← hdiv]
    field_simp
  rw [List.append_assoc, List.cons_append]
  simp [unsigned, hint, hfrac, exp_of_ends h, hsum]

/-- **A number with decimals is read** as it was rounded. -/
theorem reads_fixed (hp : 0 < p) (q : ℚ) :
    Reads (fixed p q) (.number ((units p q : ℚ) / 10 ^ p)) := by
  obtain ⟨c, ds, htext, hdigit, -⟩ := exists_text_eq (units p q / 10 ^ p)
  have hread : ∀ rest, Ends rest → unsigned (fixed p q ++ rest) =
      some ((units p q : ℚ) / 10 ^ p, rest) := fun rest => unsigned_decimals hp (units p q)
  rw [fixed, htext, List.cons_append] at hread ⊢
  exact reads_unsigned hdigit hread

end Json
