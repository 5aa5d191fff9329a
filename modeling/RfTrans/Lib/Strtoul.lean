import RfTrans.Lib.Decimal
import Mathlib.Data.List.TakeWhile

/-!
# The conversion of strings to unsigned numbers

`strtoul` to the base ten, with numbers of 64 bits.  White space and a sign may come before
the digits, and what follows the digits is left over.  After a minus sign the number is
negated, modulo 2 ^ 64.

## Main definitions

* `Strtoul.convert`
* `Strtoul.Numeral` — a string that is a numeral to its end.
* `Strtoul.convert_of_numeral`, `Strtoul.exists_numeral`
-/

namespace Strtoul

/-- `isspace` -/
def isSpace (c : UInt8) : Bool := c = 0x20 ∨ 0x09 ≤ c ∧ c ≤ 0x0D

/-- What may stand before the digits. -/
inductive Sign
  | none
  | plus
  | minus
  deriving DecidableEq

/-- How it is written. -/
def Sign.text : Sign → List UInt8
  | none => []
  | plus => [0x2B]
  | minus => [0x2D]

/-- The number that a sign makes of digits. -/
def Sign.apply : Sign → ℕ → UInt64
  | none, m => UInt64.ofNat m
  | plus, m => UInt64.ofNat m
  | minus, m => -UInt64.ofNat m

/-- The sign, and what follows it. -/
def splitSign (cs : List UInt8) : Sign × List UInt8 :=
  match cs with
  | 0x2D :: cs => (.minus, cs)
  | 0x2B :: cs => (.plus, cs)
  | cs => (.none, cs)

/-- The number, how many bytes it was read from, and whether it was out of range. -/
structure Result where
  value : UInt64
  consumed : ℕ
  overflow : Bool
  deriving DecidableEq

/-- `strtoul` -/
def convert (s : List UInt8) : Result :=
  let (sign, cs) := splitSign (s.dropWhile isSpace)
  let ds := cs.takeWhile Decimal.isDigit
  if ds = [] then { value := 0, consumed := 0, overflow := false }
  else
    let consumed := s.length - (cs.dropWhile Decimal.isDigit).length
    if Decimal.value ds < 2 ^ 64 then
      { value := sign.apply (Decimal.value ds), consumed := consumed, overflow := false }
    else { value := 0xFFFFFFFFFFFFFFFF, consumed := consumed, overflow := true }

/-- White space, a sign and digits, and nothing else. -/
structure Numeral (s : List UInt8) (sign : Sign) (ds : List UInt8) : Prop where
  ne_nil : ds ≠ []
  digits : ∀ c ∈ ds, Decimal.isDigit c = true
  exists_spaces : ∃ spaces, (∀ c ∈ spaces, isSpace c = true) ∧ s = spaces ++ (sign.text ++ ds)

variable {s ds : List UInt8} {sign : Sign}

theorem text_append_splitSign (cs : List UInt8) :
    (splitSign cs).1.text ++ (splitSign cs).2 = cs := by
  unfold splitSign
  split <;> rfl

theorem splitSign_text (h : ∀ c ∈ ds, Decimal.isDigit c = true) :
    splitSign (sign.text ++ ds) = (sign, ds) := by
  cases sign with
  | minus => rfl
  | plus => rfl
  | none =>
      cases ds with
      | nil => rfl
      | cons c ds =>
          have hc := h c List.mem_cons_self
          have hminus : c ≠ 0x2D := by
            intro heq
            rw [heq] at hc
            cases hc
          have hplus : c ≠ 0x2B := by
            intro heq
            rw [heq] at hc
            cases hc
          simp [splitSign, Sign.text, hminus, hplus]

theorem isSpace_of_isDigit {c : UInt8} (h : Decimal.isDigit c = true) : isSpace c = false := by
  have hrange : 48 ≤ c ∧ c ≤ 57 := by simpa [Decimal.isDigit] using h
  have hne : c ≠ 0x20 := by
    intro heq
    rw [heq] at h
    cases h
  have hlt : ¬ c ≤ 0x0D := UInt8.not_le.mpr (UInt8.lt_of_lt_of_le (by decide) hrange.1)
  simp [isSpace, hne, hlt]

theorem dropWhile_isSpace (h : Numeral s sign ds) : s.dropWhile isSpace = sign.text ++ ds := by
  obtain ⟨spaces, hspaces, rfl⟩ := h.exists_spaces
  rw [List.dropWhile_append_of_pos hspaces]
  cases sign with
  | minus => rfl
  | plus => rfl
  | none =>
      cases ds with
      | nil => rfl
      | cons c ds =>
          have hc := isSpace_of_isDigit (h.digits c List.mem_cons_self)
          simp [Sign.text, hc]

/-- **A numeral is read to its end.** -/
theorem convert_of_numeral (h : Numeral s sign ds) :
    convert s =
      if Decimal.value ds < 2 ^ 64 then
        { value := sign.apply (Decimal.value ds), consumed := s.length, overflow := false }
      else { value := 0xFFFFFFFFFFFFFFFF, consumed := s.length, overflow := true } := by
  have htake : ds.takeWhile Decimal.isDigit = ds := List.takeWhile_eq_self_iff.mpr h.digits
  have hdrop : ds.dropWhile Decimal.isDigit = [] := List.dropWhile_eq_nil_iff.mpr h.digits
  simp [convert, dropWhile_isSpace h, splitSign_text h.digits, htake, hdrop, h.ne_nil]

theorem consumed_le (s : List UInt8) : (convert s).consumed ≤ s.length := by
  simp only [convert]
  split
  case isTrue => exact Nat.zero_le _
  case isFalse => split <;> exact Nat.sub_le _ _

/-- **What is read to its end is a numeral.** -/
theorem exists_numeral (hne : (convert s).consumed ≠ 0) (h : (convert s).consumed = s.length) :
    ∃ sign ds, Numeral s sign ds := by
  have hsign := text_append_splitSign (s.dropWhile isSpace)
  have hdigits : ((splitSign (s.dropWhile isSpace)).2.takeWhile Decimal.isDigit) ≠ [] := by
    intro hnil
    exact hne (by simp [convert, hnil])
  have hconsumed : (convert s).consumed =
      s.length - ((splitSign (s.dropWhile isSpace)).2.dropWhile Decimal.isDigit).length := by
    simp only [convert, if_neg hdigits]
    split <;> rfl
  have hend : (splitSign (s.dropWhile isSpace)).2.dropWhile Decimal.isDigit = [] := by
    rw [← List.length_eq_zero_iff]
    omega
  refine ⟨(splitSign (s.dropWhile isSpace)).1, (splitSign (s.dropWhile isSpace)).2, ?_⟩
  have hall : ∀ c ∈ (splitSign (s.dropWhile isSpace)).2, Decimal.isDigit c = true :=
    List.dropWhile_eq_nil_iff.mp hend
  refine ⟨fun hnil => hdigits (by rw [hnil, List.takeWhile_nil]), hall, s.takeWhile isSpace, ?_, ?_⟩
  · intro c hc
    exact List.mem_takeWhile_imp hc
  · rw [hsign, List.takeWhile_append_dropWhile]

/-- A string is a numeral in one way. -/
theorem Numeral.unique {sign' : Sign} {ds' : List UInt8} (h : Numeral s sign ds)
    (h' : Numeral s sign' ds') : sign = sign' ∧ ds = ds' := by
  have hsplit : splitSign (sign.text ++ ds) = (sign, ds) := splitSign_text h.digits
  rw [← dropWhile_isSpace h, dropWhile_isSpace h', splitSign_text h'.digits] at hsplit
  exact ⟨(congrArg Prod.fst hsplit).symm, (congrArg Prod.snd hsplit).symm⟩

theorem toNat_apply_none {m : ℕ} (h : m < 2 ^ 64) : (Sign.none.apply m).toNat = m :=
  UInt64.toNat_ofNat_of_lt' h

theorem toNat_apply_plus {m : ℕ} (h : m < 2 ^ 64) : (Sign.plus.apply m).toNat = m :=
  UInt64.toNat_ofNat_of_lt' h

/-- **After a minus sign** the number is what is missing to 2 ^ 64. -/
theorem toNat_apply_minus {m k : ℕ} (h : m < 2 ^ 64) (hk : m + k = 2 ^ 64) :
    (Sign.minus.apply m).toNat = k % 2 ^ 64 := by
  have hsize : UInt64.size - m = k := Nat.sub_eq_of_eq_add (by rw [add_comm, hk]; rfl)
  rw [Sign.apply, UInt64.toNat_neg, UInt64.toNat_ofNat_of_lt' h, hsize]
  rfl

end Strtoul
