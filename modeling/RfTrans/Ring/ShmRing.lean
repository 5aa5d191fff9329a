import Mathlib.Algebra.Group.Nat.Defs
import Mathlib.Logic.Function.Basic

/-!
# The shared-memory ring

`ShmRing` is a ring of fixed-size slots in a POSIX shared-memory segment.  Each
slot is guarded by a sequence word: the writer stores an odd value before it
copies a payload in and the next even value once the slot is published.  A handle
names the slot and the even value; a reader compares it before and after it
consumes the payload.

The functions below follow `shm_ring.cc`.  They are built from the single stores
of the code, so that the interleaved machine of `RfTrans.SharedRing` can perform
the same stores one at a time.  Sequence words are 64 bits wide, slot indices and
sizes 32; the conversions are written out.
-/

namespace RfTrans

/-- Conversion to `uint32_t`. -/
def u32 (x : ℕ) : ℕ := x % 2 ^ 32

/-- Conversion to `uint64_t`. -/
def u64 (x : ℕ) : ℕ := x % 2 ^ 64

theorem u64_of_lt {x : ℕ} (h : x < 2 ^ 64) : u64 x = x := Nat.mod_eq_of_lt h

theorem u32_of_lt {x : ℕ} (h : x < 2 ^ 32) : u32 x = x := Nat.mod_eq_of_lt h

/-- `ShmRing::SlotHandle`: where a committed message landed. -/
structure SlotHandle where
  slotIndex : ℕ := 0
  seq : ℕ := 0
  size : ℕ := 0
  deriving DecidableEq, Repr

/-- `ShmRing::ReservedSlot`: a slot marked mid-write. A failed reservation, whose
payload pointer is null in the code, is `none`. -/
structure ReservedSlot where
  slotIndex : ℕ
  beginSeq : ℕ
  deriving DecidableEq, Repr

/-- `ShmRing::PeekedSlot`: the slot whose payload the reader may consume and the
number of bytes the handle gives it. A null payload is `none`. -/
structure PeekedSlot where
  slotIndex : ℕ
  size : ℕ
  deriving DecidableEq, Repr

/-- One slot: `SlotHeader` and the payload bytes behind it. -/
structure Slot where
  seq : ℕ := 0
  size : ℕ := 0
  payload : ℕ → UInt8 := fun _ => 0

/-- A ring: its geometry, the writer's cursor and the slots of its segment. -/
structure ShmRing where
  slotSize : ℕ
  slotCount : ℕ
  writeCursor : ℕ := 0
  slots : ℕ → Slot := fun _ => {}

namespace ShmRing

/-- `kDefaultSlotCount` -/
def kDefaultSlotCount : ℕ := 4

/-- `kShmGranularity` -/
def kShmGranularity : ℕ := 4 * 1024

/-- The slot that a cursor value selects. -/
def indexOf (r : ShmRing) (cursor : ℕ) : ℕ := u32 (cursor % r.slotCount)

/-- Change one slot and no other. -/
def setSlot (r : ShmRing) (i : ℕ) (f : Slot → Slot) : ShmRing :=
  { r with slots := Function.update r.slots i (f (r.slots i)) }

/-- `write_cursor_.fetch_add(1)`, without the value it returns. -/
def fetchAdd (r : ShmRing) : ShmRing := { r with writeCursor := u64 (r.writeCursor + 1) }

/-- `slot->seq.store(v)` -/
def storeSeq (r : ShmRing) (i v : ℕ) : ShmRing := r.setSlot i fun s => { s with seq := v }

/-- `slot->size = v` -/
def storeSize (r : ShmRing) (i v : ℕ) : ShmRing := r.setSlot i fun s => { s with size := v }

/-- One byte of a payload. -/
def storeByte (r : ShmRing) (i off : ℕ) (b : UInt8) : ShmRing :=
  r.setSlot i fun s => { s with payload := Function.update s.payload off b }

/-- What `reserveWrite` hands out for a cursor value. -/
def reservation (r : ShmRing) (cursor : ℕ) : ReservedSlot :=
  ⟨r.indexOf cursor, u64 (2 * cursor + 1)⟩

/-- Reserve the next slot and mark it mid-write. -/
def reserveWrite (r : ShmRing) (size : ℕ) : ShmRing × Option ReservedSlot :=
  if r.slotSize < size then (r, none) else
    let reserved := r.reservation r.writeCursor
    (r.fetchAdd.storeSeq reserved.slotIndex reserved.beginSeq, some reserved)

/-- The handle that `commitWrite` returns. -/
def handleOf (reserved : ReservedSlot) (size : ℕ) : SlotHandle :=
  ⟨reserved.slotIndex, u64 (reserved.beginSeq + 1), u32 size⟩

/-- Publish a reserved slot. -/
def commitWrite (r : ShmRing) (reserved : ReservedSlot) (size : ℕ) : ShmRing × SlotHandle :=
  let handle := handleOf reserved size
  ((r.storeSize handle.slotIndex handle.size).storeSeq handle.slotIndex handle.seq, handle)

/-- The slot of the handle, unless it was overwritten or is mid-write. -/
def beginRead (r : ShmRing) (handle : SlotHandle) : Option PeekedSlot :=
  let seq := (r.slots handle.slotIndex).seq
  if seq ≠ handle.seq ∨ seq % 2 ≠ 0 then none else some ⟨handle.slotIndex, handle.size⟩

/-- Whether the slot still carries the handle's sequence value. -/
def finishRead (r : ShmRing) (handle : SlotHandle) : Bool :=
  (r.slots handle.slotIndex).seq = handle.seq

variable (r : ShmRing)

@[simp] theorem slotSize_setSlot (i : ℕ) (f : Slot → Slot) :
    (r.setSlot i f).slotSize = r.slotSize := rfl
@[simp] theorem slotCount_setSlot (i : ℕ) (f : Slot → Slot) :
    (r.setSlot i f).slotCount = r.slotCount := rfl
@[simp] theorem writeCursor_setSlot (i : ℕ) (f : Slot → Slot) :
    (r.setSlot i f).writeCursor = r.writeCursor := rfl
@[simp] theorem indexOf_setSlot (i : ℕ) (f : Slot → Slot) (c : ℕ) :
    (r.setSlot i f).indexOf c = r.indexOf c := rfl
@[simp] theorem slots_setSlot_self (i : ℕ) (f : Slot → Slot) :
    (r.setSlot i f).slots i = f (r.slots i) := Function.update_self ..
@[simp] theorem slots_setSlot_of_ne {i j : ℕ} (h : j ≠ i) (f : Slot → Slot) :
    (r.setSlot i f).slots j = r.slots j := Function.update_of_ne h ..

@[simp] theorem slotSize_fetchAdd : r.fetchAdd.slotSize = r.slotSize := rfl
@[simp] theorem slotCount_fetchAdd : r.fetchAdd.slotCount = r.slotCount := rfl
@[simp] theorem slots_fetchAdd : r.fetchAdd.slots = r.slots := rfl
@[simp] theorem indexOf_fetchAdd (c : ℕ) : r.fetchAdd.indexOf c = r.indexOf c := rfl
@[simp] theorem writeCursor_fetchAdd : r.fetchAdd.writeCursor = u64 (r.writeCursor + 1) := rfl

/-- A non-null peek says that the slot carries the handle's even sequence value. -/
theorem beginRead_isSome {r : ShmRing} {h : SlotHandle} :
    (r.beginRead h).isSome ↔ (r.slots h.slotIndex).seq = h.seq ∧ h.seq % 2 = 0 := by
  unfold beginRead
  by_cases hs : (r.slots h.slotIndex).seq = h.seq <;> by_cases he : h.seq % 2 = 0 <;>
    simp [hs, he]

end ShmRing
end RfTrans
