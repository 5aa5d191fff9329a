import Mathlib.Data.Nat.Digits.Lemmas

/-!
# Bytes in memory

Runs of bytes and what they lie in, arrays of records at equal distances, numbers
stored with their lowest byte first, and stores into memory.

## Main definitions

* `Layout.Extent`, `Layout.Extent.Inside`
* `Layout.fromLE`, `Layout.toLE`, `Layout.load`
* `Layout.store`, `Layout.bytesAt`
-/

namespace Layout

/-- A run of bytes. The size may come from a signed type; a negative size is the size of
no run and lies nowhere. -/
structure Extent where
  offset : ℕ
  size : ℤ
  deriving DecidableEq

/-- The bytes lie between two offsets, the second excluded. -/
structure Extent.Inside (e : Extent) (lo hi : ℕ) : Prop where
  lo_le : lo ≤ e.offset
  size_nonneg : 0 ≤ e.size
  end_le : e.offset + e.size ≤ hi

namespace Extent

variable {e : Extent} {lo hi lo' hi' : ℕ}

theorem inside_iff : e.Inside lo hi ↔ lo ≤ e.offset ∧ 0 ≤ e.size ∧ e.offset + e.size ≤ hi :=
  ⟨fun h => ⟨h.lo_le, h.size_nonneg, h.end_le⟩, fun h => ⟨h.1, h.2.1, h.2.2⟩⟩

instance : Decidable (e.Inside lo hi) := decidable_of_iff' _ inside_iff

/-- A run lies in everything around what it lies in. -/
theorem Inside.mono (h : e.Inside lo hi) (hlo : lo' ≤ lo) (hhi : hi ≤ hi') : e.Inside lo' hi' where
  lo_le := hlo.trans h.lo_le
  size_nonneg := h.size_nonneg
  end_le := h.end_le.trans (by exact_mod_cast hhi)

end Extent

/-- A record of an array ends before the array does. -/
theorem record_end_le (start stride : ℕ) {count i : ℕ} (hi : i < count) :
    start + i * stride + stride ≤ start + count * stride := by
  have h : (i + 1) * stride ≤ count * stride := Nat.mul_le_mul_right stride hi
  rw [Nat.add_mul, Nat.one_mul] at h
  omega

/-- Of two records of an array, one ends before the other begins. -/
theorem record_disjoint (start stride : ℕ) {i j : ℕ} (h : i ≠ j) :
    start + i * stride + stride ≤ start + j * stride ∨
      start + j * stride + stride ≤ start + i * stride := by
  rcases lt_or_gt_of_ne h with hlt | hlt
  · exact .inl (record_end_le start stride hlt)
  · exact .inr (record_end_le start stride hlt)

/-! ## Numbers -/

/-- The number that the bytes hold. -/
def fromLE (bs : List UInt8) : ℕ := Nat.ofDigits 256 (bs.map UInt8.toNat)

/-- The lowest `k` bytes of a number. -/
def toLE : ℕ → ℕ → List UInt8
  | _, 0 => []
  | n, k + 1 => (n % 256).toUInt8 :: toLE (n / 256) k

@[simp] theorem length_toLE (n k : ℕ) : (toLE n k).length = k := by
  induction k generalizing n with
  | zero => rfl
  | succ k ih => simp [toLE, ih]

theorem fromLE_cons (b : UInt8) (bs : List UInt8) :
    fromLE (b :: bs) = b.toNat + 256 * fromLE bs := by
  simp [fromLE, Nat.ofDigits_cons]

theorem fromLE_lt (bs : List UInt8) : fromLE bs < 256 ^ bs.length := by
  induction bs with
  | nil => simp [fromLE]
  | cons b bs ih =>
      rw [fromLE_cons, List.length_cons, Nat.pow_succ]
      have hb := b.toNat_lt
      omega

/-- A number that fits comes back. -/
theorem fromLE_toLE {n k : ℕ} (h : n < 256 ^ k) : fromLE (toLE n k) = n := by
  induction k generalizing n with
  | zero =>
      rw [Nat.pow_zero] at h
      simp [toLE, fromLE]
      omega
  | succ k ih =>
      have hdiv : n / 256 < 256 ^ k := by
        rw [Nat.pow_succ] at h
        exact Nat.div_lt_of_lt_mul (by omega)
      rw [toLE, fromLE_cons, ih hdiv]
      have hlow : (n % 256).toUInt8.toNat = n % 256 := by
        simp [Nat.toUInt8]
      rw [hlow]
      exact Nat.mod_add_div n 256

/-- The number in the `k` bytes from an offset on. -/
def load (mem : ℕ → UInt8) (offset k : ℕ) : ℕ :=
  fromLE ((List.range k).map fun i => mem (offset + i))

theorem load_lt (mem : ℕ → UInt8) (offset k : ℕ) : load mem offset k < 256 ^ k := by
  have h := fromLE_lt ((List.range k).map fun i => mem (offset + i))
  rwa [List.length_map, List.length_range] at h

theorem load_eq_zero {mem : ℕ → UInt8} {offset k : ℕ} (h : ∀ i < k, mem (offset + i) = 0) :
    load mem offset k = 0 := by
  have hbytes : (List.range k).map (fun i => mem (offset + i)) = List.replicate k 0 := by
    rw [List.eq_replicate_iff]
    simpa using h
  rw [load, hbytes]
  clear hbytes h
  induction k with
  | zero => rfl
  | succ k ih =>
      rw [List.replicate_succ, fromLE_cons, ih]
      rfl

/-- Bytes in the middle of a run. -/
theorem map_range_add (mem : ℕ → UInt8) {offset k n : ℕ} (h : offset + k ≤ n) :
    (List.range k).map (fun i => mem (offset + i)) =
      (((List.range n).map mem).drop offset).take k := by
  apply List.ext_getElem
  · simp
    omega
  · intro i hi hi'
    simp

/-- A number that is stored after `before` in a run from 0 on is loaded from there. -/
theorem load_of_run {mem : ℕ → UInt8} (before after : List UInt8) {n k offset length : ℕ}
    (hmem : (List.range length).map mem = before ++ toLE n k ++ after) (hn : n < 256 ^ k)
    (hoffset : before.length = offset) : load mem offset k = n := by
  have hlength := congrArg List.length hmem
  simp only [List.length_map, List.length_range, List.length_append, length_toLE] at hlength
  have hle : offset + k ≤ length := by omega
  rw [load, map_range_add mem hle, hmem, List.append_assoc, List.drop_left' hoffset,
    List.take_left' (length_toLE n k), fromLE_toLE hn]

/-! ## Stores -/

/-- The bytes are stored from an offset on. -/
def store (mem : ℕ → UInt8) (offset : ℕ) (bs : List UInt8) : ℕ → UInt8 := fun i =>
  if offset ≤ i then (bs[i - offset]?).getD (mem i) else mem i

/-- The bytes of a run. -/
def bytesAt (mem : ℕ → UInt8) (offset k : ℕ) : List UInt8 :=
  (List.range k).map fun i => mem (offset + i)

theorem load_eq (mem : ℕ → UInt8) (offset k : ℕ) :
    load mem offset k = fromLE (bytesAt mem offset k) := rfl

theorem bytesAt_zero (mem : ℕ → UInt8) (k : ℕ) : bytesAt mem 0 k = (List.range k).map mem := by
  simp [bytesAt]

@[simp] theorem length_bytesAt (mem : ℕ → UInt8) (offset k : ℕ) :
    (bytesAt mem offset k).length = k := by
  simp [bytesAt]

/-- Bytes beside a store stay as they are. -/
theorem store_of_disjoint {mem : ℕ → UInt8} {offset i : ℕ} {bs : List UInt8}
    (h : i < offset ∨ offset + bs.length ≤ i) : store mem offset bs i = mem i := by
  unfold store
  split
  case isTrue hle =>
    rw [List.getElem?_eq_none (by omega), Option.getD_none]
  case isFalse => rfl

theorem store_add {mem : ℕ → UInt8} {offset i : ℕ} {bs : List UInt8} (h : i < bs.length) :
    store mem offset bs (offset + i) = bs[i] := by
  unfold store
  rw [if_pos (Nat.le_add_right offset i), Nat.add_sub_cancel_left, List.getElem?_eq_getElem h,
    Option.getD_some]

variable {mem : ℕ → UInt8} {offset o k : ℕ} {bs : List UInt8}

/-- What was stored is there. -/
theorem bytesAt_store_self : bytesAt (store mem offset bs) offset bs.length = bs := by
  apply List.ext_getElem
  · simp
  · intro i hi hi'
    simp [bytesAt, store_add hi']

/-- A run beside a store stays as it is. -/
theorem bytesAt_store_of_disjoint (h : o + k ≤ offset ∨ offset + bs.length ≤ o) :
    bytesAt (store mem offset bs) o k = bytesAt mem o k := by
  apply List.map_congr_left
  intro i hi
  have hlt := List.mem_range.mp hi
  exact store_of_disjoint (by omega)

theorem load_store_of_disjoint (h : o + k ≤ offset ∨ offset + bs.length ≤ o) :
    load (store mem offset bs) o k = load mem o k := by
  rw [load_eq, load_eq, bytesAt_store_of_disjoint h]

theorem load_store_toLE {n : ℕ} (hn : n < 256 ^ k) :
    load (store mem offset (toLE n k)) offset k = n := by
  have h : bytesAt (store mem offset (toLE n k)) offset (toLE n k).length = toLE n k :=
    bytesAt_store_self
  rw [length_toLE] at h
  rw [load_eq, h, fromLE_toLE hn]

end Layout
