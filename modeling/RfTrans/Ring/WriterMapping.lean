import RfTrans.Ring.Region

/-!
# The writer's operations on the bytes

`reserveWrite`, `commitWrite`, `write` and `read` of `shm_ring.cc` over the bytes of the
segment, with the offsets of `RfTrans.Geometry`.  What they do to the bytes is what the
functions of `RfTrans.ShmRing` do to slots: `WriterMapping.Shows` is the simulation, with
one lemma for each store and each operation.

## Main definitions

* `WriterMapping` — a ring that `createAsWriter` set up.
* `WriterMapping.reserveWrite`, `WriterMapping.commitWrite`, `WriterMapping.write`
* `Geometry.read`, `MappedRing.read`
* `WriterMapping.Shows`
-/

namespace RfTrans

open Layout

namespace Geometry

variable (g : Geometry)

/-- `slot->seq.load()` -/
def loadSeq (mem : Bytes) (index : ℕ) : ℕ := load mem (g.slotHeader index) 8

/-- `beginRead` -/
def beginRead (mem : Bytes) (handle : SlotHandle) : Option PeekedBytes :=
  let seq := g.loadSeq mem handle.slotIndex
  if seq ≠ handle.seq ∨ seq % 2 ≠ 0 then none
  else some ⟨g.slotPayload handle.slotIndex, handle.size⟩

/-- `finishRead` -/
def finishRead (mem : Bytes) (handle : SlotHandle) : Bool :=
  g.loadSeq mem handle.slotIndex = handle.seq

/-- `read`; the result is what `out` holds if it returns true. -/
def read (mem : Bytes) (handle : SlotHandle) : Option Str :=
  match g.beginRead mem handle with
  | none => none
  | some peeked =>
    let out := bytesAt mem peeked.payload peeked.size
    if g.finishRead mem handle then some out else none

variable {g}

/-- The second look sees what the first one saw. -/
theorem read_eq (mem : Bytes) (handle : SlotHandle) : g.read mem handle =
    if g.loadSeq mem handle.slotIndex = handle.seq ∧ handle.seq % 2 = 0 then
      some (bytesAt mem (g.slotPayload handle.slotIndex) handle.size)
    else none := by
  by_cases hs : g.loadSeq mem handle.slotIndex = handle.seq <;>
    by_cases he : handle.seq % 2 = 0 <;> simp [read, beginRead, finishRead, hs, he]

end Geometry

/-- `read` of a reader. -/
def MappedRing.read (r : MappedRing) (mem : Bytes) (handle : SlotHandle) : Option Str :=
  match (r.beginRead mem handle).1 with
  | none => none
  | some peeked =>
    let out := bytesAt mem peeked.payload peeked.size
    if (r.finishRead mem handle).1 then some out else none

/-- A reader that has the layout of the writer reads what the writer reads. -/
theorem Geometry.LayoutAgrees.read_eq {g : Geometry} {r : MappedRing} (h : g.LayoutAgrees r)
    (mem : Bytes) (handle : SlotHandle) : r.read mem handle = g.read mem handle := by
  have hseq : r.loadSeq mem handle.slotIndex = g.loadSeq mem handle.slotIndex := by
    rw [MappedRing.loadSeq, Geometry.loadSeq, h.slotHeader]
  unfold MappedRing.read Geometry.read MappedRing.beginRead Geometry.beginRead
    MappedRing.finishRead Geometry.finishRead
  rw [hseq, h.slotPayload]

/-- The writer's side of a ring: its two sizes, the cursor and the bytes of the segment. -/
structure WriterMapping extends Geometry where
  writeCursor : ℕ := 0
  mem : Bytes

namespace WriterMapping

variable (w : WriterMapping)

/-- Bytes are stored. -/
def storeAt (offset : ℕ) (bs : Str) : WriterMapping := { w with mem := store w.mem offset bs }

/-- `write_cursor_.fetch_add(1)`, without the value it returns. -/
def fetchAdd : WriterMapping := { w with writeCursor := u64 (w.writeCursor + 1) }

/-- `slot->seq.store(v)` -/
def storeSeq (i v : ℕ) : WriterMapping := w.storeAt (w.slotHeader i) (toLE v 8)

/-- `slot->size = v` -/
def storeSize (i v : ℕ) : WriterMapping := w.storeAt (u64 (w.slotHeader i + 8)) (toLE v 4)

/-- Bytes are copied into a reserved payload. -/
def storePayload (i offset : ℕ) (bs : Str) : WriterMapping :=
  w.storeAt (u64 (w.slotPayload i + offset)) bs

/-- `reserveWrite`. A null reservation is the inner `none`; the outer one is the division
by a `slot_count_` of zero. -/
def reserveWrite (size : ℕ) : Option (WriterMapping × Option ReservedSlot) :=
  if w.slotSize < size then some (w, none)
  else if w.slotCount = 0 then none
  else
    let cursor := w.writeCursor
    let reserved : ReservedSlot := ⟨u32 (cursor % w.slotCount), u64 (2 * cursor + 1)⟩
    some (w.fetchAdd.storeSeq reserved.slotIndex reserved.beginSeq, some reserved)

/-- `commitWrite` -/
def commitWrite (reserved : ReservedSlot) (size : ℕ) : WriterMapping × SlotHandle :=
  let handle := ShmRing.handleOf reserved size
  ((w.storeSize handle.slotIndex handle.size).storeSeq handle.slotIndex handle.seq, handle)

/-- `write` -/
def write (data : Str) : Option (WriterMapping × SlotHandle) :=
  match w.reserveWrite data.length with
  | none => none
  | some (w, none) => some (w, {})
  | some (w, some reserved) =>
    some ((w.storePayload reserved.slotIndex 0 data).commitWrite reserved data.length)

/-- `read` through the mapping of the writer. -/
def read (handle : SlotHandle) : Option Str := w.toGeometry.read w.mem handle

@[simp] theorem toGeometry_storeAt (offset : ℕ) (bs : Str) :
    (w.storeAt offset bs).toGeometry = w.toGeometry := rfl
@[simp] theorem writeCursor_storeAt (offset : ℕ) (bs : Str) :
    (w.storeAt offset bs).writeCursor = w.writeCursor := rfl
@[simp] theorem mem_storeAt (offset : ℕ) (bs : Str) :
    (w.storeAt offset bs).mem = store w.mem offset bs := rfl
@[simp] theorem toGeometry_fetchAdd : w.fetchAdd.toGeometry = w.toGeometry := rfl
@[simp] theorem mem_fetchAdd : w.fetchAdd.mem = w.mem := rfl
@[simp] theorem toGeometry_storeSeq (i v : ℕ) : (w.storeSeq i v).toGeometry = w.toGeometry := rfl
@[simp] theorem toGeometry_storePayload (i offset : ℕ) (bs : Str) :
    (w.storePayload i offset bs).toGeometry = w.toGeometry := rfl
@[simp] theorem toGeometry_commitWrite (reserved : ReservedSlot) (size : ℕ) :
    (w.commitWrite reserved size).1.toGeometry = w.toGeometry := rfl

end WriterMapping

/-! ## The slots behind the bytes -/

/-- Bytes are copied into the payload of a slot. -/
def ShmRing.storePayload (r : ShmRing) (i offset : ℕ) (bs : Str) : ShmRing :=
  r.setSlot i fun s => { s with payload := store s.payload offset bs }

namespace WriterMapping

/-- The bytes are the header of the ring and these slots. -/
structure Shows (w : WriterMapping) (r : ShmRing) : Prop where
  header : (List.range sizeofRingHeader).map w.mem = ringHeader w.slotSize w.slotCount
  slotSize : r.slotSize = w.slotSize
  slotCount : r.slotCount = w.slotCount
  writeCursor : r.writeCursor = w.writeCursor
  seq : ∀ i < w.slotCount, w.loadSeq w.mem i = (r.slots i).seq
  size : ∀ i < w.slotCount, load w.mem (w.slotHeader i + 8) 4 = (r.slots i).size
  payload : ∀ i < w.slotCount, ∀ offset < w.slotSize,
    w.mem (w.slotPayload i + offset) = (r.slots i).payload offset

variable {w : WriterMapping} {r : ShmRing} {i offset v : ℕ} {bs : Str}

/-- The ring that `createAsWriter` sets up. -/
def create (g : Geometry) (mem : Bytes) : WriterMapping := { g with mem := mem }

theorem shows_create {g : Geometry} {mem : Bytes} (h : g.Created mem) (happ : g.SlotsApart) :
    Shows (create g mem) { slotSize := g.slotSize, slotCount := g.slotCount } := by
  have hzero := (h.mem_eq happ).2
  have hload : ∀ o k, sizeofRingHeader ≤ o → load mem o k = 0 := by
    intro o k ho
    apply load_eq_zero
    intro i hi
    exact hzero _ (by omega)
  constructor
  · exact (h.mem_eq happ).1
  · rfl
  · rfl
  · rfl
  · intro i hi
    exact hload _ _ (happ.header_le i hi)
  · intro i hi
    exact hload _ _ (Nat.le_add_right_of_le (happ.header_le i hi))
  · intro i hi o ho
    have hle := happ.header_le i hi
    have hp := happ.payload_eq i hi
    change mem (g.slotPayload i + o) = 0
    exact hzero _ (by omega)

/-- A store inside a slot changes that slot and no other. -/
theorem Shows.storeAt (h : Shows w r) (happ : w.SlotsApart) (hi : i < w.slotCount)
    (hlo : w.slotHeader i ≤ offset) (hhi : offset + bs.length ≤ w.slotPayload i + w.slotSize)
    {f : Slot → Slot}
    (hseq : load (store w.mem offset bs) (w.slotHeader i) 8 = (f (r.slots i)).seq)
    (hsize : load (store w.mem offset bs) (w.slotHeader i + 8) 4 = (f (r.slots i)).size)
    (hpayload : ∀ o < w.slotSize,
      store w.mem offset bs (w.slotPayload i + o) = (f (r.slots i)).payload o) :
    Shows (w.storeAt offset bs) (r.setSlot i f) := by
  have hapart : ∀ j < w.slotCount, j ≠ i → w.slotPayload j + w.slotSize ≤ offset ∨
      offset + bs.length ≤ w.slotHeader j := by
    intro j hj hji
    have := happ.apart i hi j hj (Ne.symm hji)
    omega
  constructor
  · have hle := happ.header_le i hi
    rw [mem_storeAt, ← bytesAt_zero, bytesAt_store_of_disjoint (by omega), bytesAt_zero]
    exact h.header
  · exact h.slotSize
  · exact h.slotCount
  · exact h.writeCursor
  · intro j (hj : j < w.slotCount)
    change load (store w.mem offset bs) (w.slotHeader j) 8 = _
    by_cases hji : j = i
    · subst hji
      rw [ShmRing.slots_setSlot_self]
      exact hseq
    · have hp := happ.payload_eq j hj
      have hd := hapart j hj hji
      unfold sizeofSlotHeader at hp
      rw [ShmRing.slots_setSlot_of_ne r hji, ← h.seq j hj, load_store_of_disjoint (by omega)]
      rfl
  · intro j (hj : j < w.slotCount)
    change load (store w.mem offset bs) (w.slotHeader j + 8) 4 = _
    by_cases hji : j = i
    · subst hji
      rw [ShmRing.slots_setSlot_self]
      exact hsize
    · have hp := happ.payload_eq j hj
      have hd := hapart j hj hji
      unfold sizeofSlotHeader at hp
      rw [ShmRing.slots_setSlot_of_ne r hji, ← h.size j hj, load_store_of_disjoint (by omega)]
  · intro j (hj : j < w.slotCount) o (ho : o < w.slotSize)
    change store w.mem offset bs (w.slotPayload j + o) = _
    by_cases hji : j = i
    · subst hji
      rw [ShmRing.slots_setSlot_self]
      exact hpayload o ho
    · have hp := happ.payload_eq j hj
      have hd := hapart j hj hji
      rw [ShmRing.slots_setSlot_of_ne r hji, ← h.payload j hj o ho, store_of_disjoint (by omega)]

theorem Shows.storeSeq (h : Shows w r) (happ : w.SlotsApart) (hi : i < w.slotCount)
    (hv : v < 2 ^ 64) : Shows (w.storeSeq i v) (r.storeSeq i v) := by
  have hp := happ.payload_eq i hi
  unfold sizeofSlotHeader at hp
  refine h.storeAt happ hi le_rfl ?_ (load_store_toLE hv) ?_ ?_
  · rw [length_toLE]
    omega
  · rw [load_store_of_disjoint (by rw [length_toLE]; omega)]
    exact h.size i hi
  · intro o ho
    rw [store_of_disjoint (by rw [length_toLE]; omega)]
    exact h.payload i hi o ho

theorem Shows.storeSize (h : Shows w r) (happ : w.SlotsApart) (hi : i < w.slotCount)
    (hv : v < 2 ^ 32) : Shows (w.storeSize i v) (r.storeSize i v) := by
  have hp := happ.payload_eq i hi
  have hend := happ.end_le i hi
  have hregion : w.regionSize < 2 ^ 64 := Nat.mod_lt _ (by norm_num)
  unfold sizeofSlotHeader at hp
  rw [WriterMapping.storeSize, u64_of_lt (by omega)]
  refine h.storeAt happ hi (by omega) ?_ ?_ (load_store_toLE hv) ?_
  · rw [length_toLE]
    omega
  · rw [load_store_of_disjoint (by omega)]
    exact h.seq i hi
  · intro o ho
    rw [store_of_disjoint (by rw [length_toLE]; omega)]
    exact h.payload i hi o ho

theorem Shows.storePayload (h : Shows w r) (happ : w.SlotsApart) (hi : i < w.slotCount)
    (hfit : offset + bs.length ≤ w.slotSize) :
    Shows (w.storePayload i offset bs) (r.storePayload i offset bs) := by
  have hp := happ.payload_eq i hi
  have hend := happ.end_le i hi
  have hregion : w.regionSize < 2 ^ 64 := Nat.mod_lt _ (by norm_num)
  unfold sizeofSlotHeader at hp
  rw [WriterMapping.storePayload, u64_of_lt (by omega)]
  refine h.storeAt happ hi (by omega) (by omega) ?_ ?_ ?_
  · rw [load_store_of_disjoint (by omega)]
    exact h.seq i hi
  · rw [load_store_of_disjoint (by omega)]
    exact h.size i hi
  · intro o ho
    have hbyte := h.payload i hi o ho
    dsimp only
    by_cases hin : offset ≤ o ∧ o < offset + bs.length
    · obtain ⟨d, rfl⟩ := Nat.exists_eq_add_of_le hin.1
      rw [← Nat.add_assoc, store_add (by omega), store_add (by omega)]
    · rw [store_of_disjoint (by omega), store_of_disjoint (by omega)]
      exact hbyte

theorem Shows.fetchAdd (h : Shows w r) : Shows w.fetchAdd r.fetchAdd where
  header := h.header
  slotSize := h.slotSize
  slotCount := h.slotCount
  writeCursor := by rw [ShmRing.writeCursor_fetchAdd, h.writeCursor]; rfl
  seq := h.seq
  size := h.size
  payload := h.payload

/-- What `reserveWrite` does to the slots. -/
theorem Shows.reserveWrite (h : Shows w r) (happ : w.SlotsApart) (hcount : 0 < w.slotCount)
    (size : ℕ) :
    ∃ w', w.reserveWrite size = some (w', (r.reserveWrite size).2) ∧
      w'.toGeometry = w.toGeometry ∧ Shows w' (r.reserveWrite size).1 := by
  unfold WriterMapping.reserveWrite ShmRing.reserveWrite
  rw [h.slotSize]
  split
  case isTrue => exact ⟨w, rfl, rfl, h⟩
  case isFalse =>
    rw [if_neg hcount.ne']
    have hreserved : r.reservation r.writeCursor =
        ⟨u32 (w.writeCursor % w.slotCount), u64 (2 * w.writeCursor + 1)⟩ := by
      rw [ShmRing.reservation, ShmRing.indexOf, h.slotCount, h.writeCursor]
    have hindex : u32 (w.writeCursor % w.slotCount) < w.slotCount :=
      (Nat.mod_le ..).trans_lt (Nat.mod_lt _ hcount)
    rw [hreserved]
    refine ⟨_, rfl, rfl, ?_⟩
    exact h.fetchAdd.storeSeq happ hindex (Nat.mod_lt _ (by norm_num))

/-- What `commitWrite` does to the slots. -/
theorem Shows.commitWrite {reserved : ReservedSlot} {size : ℕ} (h : Shows w r) (happ : w.SlotsApart)
    (hi : reserved.slotIndex < w.slotCount) :
    Shows (w.commitWrite reserved size).1 (r.commitWrite reserved size).1 :=
  (h.storeSize happ hi (Nat.mod_lt _ (by norm_num))).storeSeq happ hi
    (Nat.mod_lt _ (by norm_num))

/-- A reader that opens the segment has the layout of the writer. -/
theorem Shows.layoutAgrees {reader : MappedRing} (h : Shows w r) (hsize : w.slotSize < 2 ^ 32)
    (hcount : w.slotCount < 2 ^ 32) (hreader : MappedRing.openAsReader w.mem true = some reader) :
    w.LayoutAgrees reader := by
  obtain ⟨r', hr', hslotSize, hslotCount⟩ := MappedRing.openAsReader_ringHeader h.header
  rw [hreader] at hr'
  obtain rfl := Option.some.inj hr'
  rw [u32_of_lt hsize] at hslotSize
  rw [u32_of_lt hcount] at hslotCount
  exact Geometry.layoutAgrees_of_sizes hslotCount hslotSize

theorem Shows.bytesAt_payload {size : ℕ} (h : Shows w r) (hi : i < w.slotCount)
    (hsize : size ≤ w.slotSize) :
    bytesAt w.mem (w.slotPayload i) size = bytesAt (r.slots i).payload 0 size := by
  apply List.map_congr_left
  intro o ho
  have hlt := List.mem_range.mp ho
  rw [Nat.zero_add]
  exact h.payload i hi o (by omega)

/-- What `read` sees of the slots. -/
theorem Shows.read_eq {handle : SlotHandle} (h : Shows w r)
    (hi : handle.slotIndex < w.slotCount) (hsize : handle.size ≤ w.slotSize) :
    w.read handle =
      if (r.slots handle.slotIndex).seq = handle.seq ∧ handle.seq % 2 = 0 then
        some (bytesAt (r.slots handle.slotIndex).payload 0 handle.size)
      else none := by
  rw [WriterMapping.read, Geometry.read_eq, h.seq _ hi, h.bytesAt_payload hi hsize]

end WriterMapping
end RfTrans
