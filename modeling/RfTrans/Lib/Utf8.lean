import Mathlib.Data.List.Basic

/-!
# Bytes in UTF-8

Which sequences of bytes are text, and what may be done to the bytes below 0x80.

## Main definitions

* `Utf8.encode`, `Utf8.Valid`
* `Utf8.Valid.flatMap` — bytes below 0x80 may be replaced by some of their kind.
-/

namespace Utf8

/-- Characters in UTF-8. -/
def encode (cs : List Char) : List UInt8 := cs.flatMap String.utf8EncodeChar

/-- The bytes are text. -/
def Valid (s : List UInt8) : Prop := s.toByteArray.IsValidUTF8

instance (s : List UInt8) : Decidable (Valid s) :=
  inferInstanceAs (Decidable (ByteArray.IsValidUTF8 _))

variable {s t : List UInt8}

theorem valid_iff : Valid s ↔ ∃ cs, encode cs = s := by
  constructor
  · intro h
    obtain ⟨cs, hcs⟩ := h
    exact ⟨cs, (List.toByteArray_inj.mp hcs).symm⟩
  · intro h
    obtain ⟨cs, rfl⟩ := h
    exact ⟨cs, rfl⟩

theorem valid_encode (cs : List Char) : Valid (encode cs) := valid_iff.mpr ⟨cs, rfl⟩

@[simp] theorem valid_nil : Valid [] := valid_encode []

theorem Valid.append (hs : Valid s) (ht : Valid t) : Valid (s ++ t) := by
  obtain ⟨cs, rfl⟩ := valid_iff.mp hs
  obtain ⟨ds, rfl⟩ := valid_iff.mp ht
  exact valid_iff.mpr ⟨cs ++ ds, List.flatMap_append⟩

/-- A byte below 0x80 is a character of its own. -/
theorem utf8EncodeChar_ofNat {c : UInt8} (h : c < 0x80) :
    String.utf8EncodeChar (Char.ofNat c.toNat) = [c] := by
  have hle : c.toNat ≤ 0x7f := Nat.le_of_lt_succ (UInt8.lt_iff_toNat_lt.mp h)
  have hval : (Char.ofNat c.toNat).val.toNat = c.toNat := by
    have hvalid : c.toNat.isValidChar := .inl (by omega)
    rw [Char.ofNat, dif_pos hvalid]
    rfl
  simp [String.utf8EncodeChar, hval, hle]

theorem valid_singleton {c : UInt8} (h : c < 0x80) : Valid [c] :=
  valid_iff.mpr ⟨[Char.ofNat c.toNat], by rw [encode, List.flatMap_singleton,
    utf8EncodeChar_ofNat h]⟩

theorem Valid.cons {c : UInt8} (h : c < 0x80) (hs : Valid s) : Valid (c :: s) :=
  (valid_singleton h).append hs

/-- Bytes below 0x80 are text. -/
theorem valid_of_forall_lt (h : ∀ c ∈ s, c < 0x80) : Valid s := by
  induction s with
  | nil => exact valid_nil
  | cons c s ih =>
      exact (ih fun d hd => h d (List.mem_cons_of_mem c hd)).cons (h c List.mem_cons_self)

theorem le_ofNat {n : ℕ} (h : 0x80 ≤ n) (h' : n < 0x100) : 0x80 ≤ UInt8.ofNat n := by
  rw [UInt8.le_iff_toNat_le, UInt8.toNat_ofNat', Nat.mod_eq_of_lt h']
  exact h

/-- A character is one byte below 0x80, or bytes from there on. -/
theorem utf8EncodeChar_cases (c : Char) :
    (∃ b, String.utf8EncodeChar c = [b] ∧ b < 0x80) ∨
      ∀ b ∈ String.utf8EncodeChar c, 0x80 ≤ b := by
  simp only [String.utf8EncodeChar]
  generalize c.val.toNat = v
  split
  case isTrue h =>
    refine .inl ⟨_, rfl, ?_⟩
    rw [UInt8.lt_iff_toNat_lt, UInt8.toNat_ofNat']
    exact Nat.lt_of_le_of_lt (Nat.mod_le v _) (Nat.lt_succ_of_le h)
  case isFalse =>
    refine .inr fun b hb => ?_
    split at hb
    case isTrue =>
      simp only [List.mem_cons, List.not_mem_nil, or_false] at hb
      rcases hb with rfl | rfl <;> exact le_ofNat (by omega) (by omega)
    case isFalse =>
      split at hb
      case isTrue =>
        simp only [List.mem_cons, List.not_mem_nil, or_false] at hb
        rcases hb with rfl | rfl | rfl <;> exact le_ofNat (by omega) (by omega)
      case isFalse =>
        simp only [List.mem_cons, List.not_mem_nil, or_false] at hb
        rcases hb with rfl | rfl | rfl | rfl <;> exact le_ofNat (by omega) (by omega)

/-- **Replacing bytes below 0x80** by some of their kind leaves a text. -/
theorem Valid.flatMap {f : UInt8 → List UInt8} (hs : Valid s)
    (hlow : ∀ c < 0x80, ∀ d ∈ f c, d < 0x80) (hhigh : ∀ c, 0x80 ≤ c → f c = [c]) :
    Valid (s.flatMap f) := by
  obtain ⟨cs, rfl⟩ := valid_iff.mp hs
  rw [encode, List.flatMap_assoc]
  induction cs with
  | nil => exact valid_nil
  | cons c cs ih =>
      rw [List.flatMap_cons]
      refine Valid.append ?_ (ih (valid_encode cs))
      rcases utf8EncodeChar_cases c with h | h
      · obtain ⟨b, hb, hlt⟩ := h
        rw [hb, List.flatMap_singleton]
        exact valid_of_forall_lt (hlow b hlt)
      · have hsame : (String.utf8EncodeChar c).flatMap f = String.utf8EncodeChar c := by
          rw [List.flatMap_congr fun b hb => hhigh b (h b hb), List.flatMap_singleton']
        rw [hsame, ← List.flatMap_singleton (f := String.utf8EncodeChar)]
        exact valid_encode [c]

end Utf8
