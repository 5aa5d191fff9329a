import Mathlib

/-!
# Strings and maps

A `std::string` is its list of bytes.  A `std::map` or `std::unordered_map` with
string keys is a search tree ordered by the bytes, so maps with equal contents are
equal and look-ups evaluate.
-/

namespace RfTrans

open Std

/-- `std::string` -/
abbrev Str := List UInt8

/-- Strings are compared byte by byte. -/
instance : LawfulBEq Str := inferInstance

/-- A string literal of the source. -/
def str (s : String) : Str := s.toList.map fun c => c.toNat.toUInt8

/-- What a string is through `c_str()`: everything before its first NUL. -/
def cStr (s : Str) : Str := s.takeWhile (· ≠ 0)

/-- The number in lower-case hexadecimal, as `std::hex` prints it. -/
def hex (n : ℕ) : Str := (Nat.toDigits 16 n).map fun c => c.toNat.toUInt8

/-- `std::map<std::string, α>`, also for the unordered maps of the code. -/
abbrev StrMap (α : Type) := ExtTreeMap Str α compare

namespace StrMap

variable {α : Type} (m : StrMap α) {k k' : Str}

theorem getElem?_insert_of_ne (h : k' ≠ k) (v : α) : (m.insert k v)[k']? = m[k']? := by
  simp [ExtTreeMap.getElem?_insert, h.symm]

theorem getElem?_erase_of_ne (h : k' ≠ k) : (m.erase k)[k']? = m[k']? := by
  simp [ExtTreeMap.getElem?_erase, h.symm]

/-- What an erased map still maps was mapped before. -/
theorem getElem?_of_erase {v : α} (h : (m.erase k)[k']? = some v) : k' ≠ k ∧ m[k']? = some v := by
  by_cases hk : k' = k
  · subst hk
    simp at h
  · exact ⟨hk, by rwa [getElem?_erase_of_ne m hk] at h⟩

/-- What an extended map maps is the new value or was mapped before. -/
theorem getElem?_of_insert {v w : α} (h : (m.insert k w)[k']? = some v) :
    k' = k ∧ v = w ∨ k' ≠ k ∧ m[k']? = some v := by
  by_cases hk : k' = k
  · subst hk
    rw [ExtTreeMap.getElem?_insert_self] at h
    exact .inl ⟨rfl, (Option.some.inj h).symm⟩
  · exact .inr ⟨hk, by rwa [getElem?_insert_of_ne m hk] at h⟩

end StrMap
end RfTrans
