import RfTrans.Lib.Layout
import RfTrans.Ring.Transport

/-!
# Where a descriptor makes a reader look

A reader maps a segment whose geometry it takes from the header of the segment, and looks
where descriptors from the network point it.  This module has the ring as bytes: the
functions of `shm_ring.cc` with their pointer arithmetic, and for each the runs of bytes
that it accesses, counted from `base_`.  A `size_t` has 64 bits.

`ParseFromArray` takes its length as an `int` and looks at no byte outside the run it is
given, so the whole run counts as accessed.

## Main definitions

* `MappedRing` — a ring that `openAsReader` opened.
* `MappedRing.readFrame` — what a frame makes the reader access.
* `MappedRing.Reads.InBounds`, `MappedRing.Fits`
* `MappedRing.stays_in_bounds_iff`
-/

namespace RfTrans

open Layout

/-! ## The descriptor on the wire -/

/-- `sizeof(ShmDescriptor)` -/
def sizeofShmDescriptor : ℕ := 88

namespace ShmDescriptor

/-- The frame that `publishRemoteShm` sends. -/
def bytes (d : ShmDescriptor) : Str :=
  let name := d.shmName.take kShmNameRoom
  name ++ List.replicate (64 - name.length) 0 ++ toLE d.slotIndex 4 ++ List.replicate 4 0 ++
    toLE d.seq 8 ++ toLE d.size 4 ++ List.replicate 4 0

/-- What `remoteDispatchLoop` copies out of a frame. -/
def ofBytes (data : Str) : ShmDescriptor where
  shmName := cStr (data.take kShmNameRoom)
  slotIndex := fromLE ((data.drop 64).take 4)
  seq := fromLE ((data.drop 72).take 8)
  size := fromLE ((data.drop 80).take 4)

theorem length_name (d : ShmDescriptor) :
    (d.shmName.take kShmNameRoom).length ≤ kShmNameRoom := List.length_take_le ..

theorem length_bytes (d : ShmDescriptor) : d.bytes.length = sizeofShmDescriptor := by
  have h := d.length_name
  simp only [bytes, List.length_append, List.length_replicate, length_toLE, sizeofShmDescriptor]
  unfold kShmNameRoom at h ⊢
  omega

/-- The number in a field of a frame that has `before` in front of it. -/
theorem fromLE_field (before after : Str) {n k offset : ℕ} (hn : n < 256 ^ k)
    (hoffset : before.length = offset) :
    fromLE (((before ++ toLE n k ++ after).drop offset).take k) = n := by
  rw [List.append_assoc, List.drop_left' hoffset, List.take_left' (length_toLE n k),
    fromLE_toLE hn]

/-- What is read up to the first NUL is not changed by NULs behind it. -/
theorem cStr_append_replicate (s : Str) (n : ℕ) : cStr (s ++ List.replicate n 0) = cStr s := by
  induction s with
  | nil => cases n <;> rfl
  | cons b s ih =>
      simp only [cStr, List.cons_append, List.takeWhile_cons] at ih ⊢
      rw [ih]

/-- Every descriptor whose numbers fit their fields can be sent. -/
theorem ofBytes_bytes {d : ShmDescriptor} (hname : cStr (d.shmName.take kShmNameRoom) = d.shmName)
    (hindex : d.slotIndex < 2 ^ 32) (hseq : d.seq < 2 ^ 64) (hsize : d.size < 2 ^ 32) :
    ofBytes d.bytes = d := by
  have hlength := d.length_name
  unfold ofBytes bytes
  generalize hn : d.shmName.take kShmNameRoom = name at hlength hname ⊢
  dsimp only
  have hpad : (name ++ List.replicate (64 - name.length) 0).length = 64 := by
    rw [List.length_append, List.length_replicate]
    unfold kShmNameRoom at hlength
    omega
  generalize hp : name ++ List.replicate (64 - name.length) 0 = pad at hpad ⊢
  have hfirst : cStr (pad.take kShmNameRoom) = d.shmName := by
    rw [← hp, List.take_append, List.take_of_length_le hlength, List.take_replicate,
      cStr_append_replicate, hname]
  have hslot := fromLE_field (k := 4) pad
    (List.replicate 4 0 ++ toLE d.seq 8 ++ toLE d.size 4 ++ List.replicate 4 0) hindex hpad
  have hbefore : (pad ++ toLE d.slotIndex 4 ++ List.replicate 4 0).length = 72 := by simp [hpad]
  have hword := fromLE_field (k := 8) _ (toLE d.size 4 ++ List.replicate 4 0) hseq hbefore
  have hbefore' :
      (pad ++ toLE d.slotIndex 4 ++ List.replicate 4 0 ++ toLE d.seq 8).length = 80 := by
    simp [hpad]
  have hlen := fromLE_field (k := 4) _ (List.replicate 4 0) hsize hbefore'
  have htake : ∀ rest, (pad ++ rest).take kShmNameRoom = pad.take kShmNameRoom := by
    intro rest
    exact List.take_append_of_le_length (by simp [hpad, kShmNameRoom])
  -- Each field behind the name is found past everything before it.
  simp only [List.append_assoc] at hslot hword hlen ⊢
  rw [hslot, hword, hlen, htake, hfirst]

end ShmDescriptor

/-! ## The mapping -/

/-- The bytes of a segment, or of the memory from `base_` on. -/
abbrev Bytes := ℕ → UInt8

/-- `kMagic` -/
def kMagic : ℕ := 0x52465348

/-- `sizeof(RingHeader)` -/
def sizeofRingHeader : ℕ := 16

/-- `sizeof(SlotHeader)` -/
def sizeofSlotHeader : ℕ := 16

/-- A ring that `openAsReader` opened: the geometry is two numbers of 32 bits. -/
structure MappedRing where
  slotSize : ℕ
  slotCount : ℕ
  slotSize_lt : slotSize < 2 ^ 32
  slotCount_lt : slotCount < 2 ^ 32
  deriving DecidableEq

/-- The `RingHeader` that `createAsWriter` writes. -/
def ringHeader (slotSize slotCount : ℕ) : Str :=
  toLE kMagic 4 ++ toLE (u32 slotCount) 4 ++ toLE (u32 slotSize) 4 ++ toLE 0 4

/-- `PeekedSlot`, with the payload as an offset. -/
structure PeekedBytes where
  payload : ℕ
  size : ℕ
  deriving DecidableEq

/-- Conversion to `int`. -/
def int32 (n : ℕ) : ℤ := if u32 n < 2 ^ 31 then u32 n else u32 n - 2 ^ 32

/-- What `createMsg` hands to `ParseFromArray`. -/
def PeekedBytes.parsed (p : PeekedBytes) : Extent := ⟨p.payload, int32 p.size⟩

namespace MappedRing

/-- `openAsReader`; `mapped` says whether the system maps the segment. -/
def openAsReader (segment : Bytes) (mapped : Bool) : Option MappedRing :=
  if load segment 0 4 ≠ kMagic then none
  else if mapped then
    some
      { slotSize := load segment 8 4
        slotCount := load segment 4 4
        slotSize_lt := load_lt segment 8 4
        slotCount_lt := load_lt segment 4 4 }
  else none

variable (r : MappedRing)

/-- `slotStride` -/
def slotStride : ℕ := u64 (sizeofSlotHeader + r.slotSize)

/-- `region_size_` -/
def regionSize : ℕ := u64 (sizeofRingHeader + u64 (r.slotCount * r.slotStride))

/-- `slotHeader` -/
def slotHeader (index : ℕ) : ℕ := u64 (sizeofRingHeader + u64 (index * r.slotStride))

/-- `slotPayload` -/
def slotPayload (index : ℕ) : ℕ := u64 (r.slotHeader index + sizeofSlotHeader)

/-- The sequence word of a slot. -/
def seqExtent (index : ℕ) : Extent := ⟨r.slotHeader index, 8⟩

/-- `slot->seq.load()` -/
def loadSeq (mem : Bytes) (index : ℕ) : ℕ := load mem (r.slotHeader index) 8

/-- `beginRead`, with its accesses. -/
def beginRead (mem : Bytes) (handle : SlotHandle) : Option PeekedBytes × List Extent :=
  let seq := r.loadSeq mem handle.slotIndex
  (if seq ≠ handle.seq ∨ seq % 2 ≠ 0 then none
    else some ⟨r.slotPayload handle.slotIndex, handle.size⟩,
    [r.seqExtent handle.slotIndex])

/-- `finishRead`, with its accesses. -/
def finishRead (mem : Bytes) (handle : SlotHandle) : Bool × List Extent :=
  (r.loadSeq mem handle.slotIndex = handle.seq, [r.seqExtent handle.slotIndex])

/-- What a descriptor makes `remoteDispatchLoop` access, and the run that is parsed. -/
structure Reads where
  accesses : List Extent
  parsed : Option Extent

/-- The reads for a descriptor that meets a handler of its type. The segment may change
between the two looks at the sequence word. -/
def readDescriptor (before after : Bytes) (d : ShmDescriptor) : Reads :=
  let handle := Transport.handleOf d
  match r.beginRead before handle with
  | (none, accesses) => ⟨accesses, none⟩
  | (some peeked, accesses) =>
    ⟨accesses ++ peeked.parsed :: (r.finishRead after handle).2, some peeked.parsed⟩

/-- The reads for a frame: one of the wrong length is turned down. -/
def readFrame (before after : Bytes) (data : Str) : Reads :=
  if data.length ≠ sizeofShmDescriptor then ⟨[], none⟩
  else r.readDescriptor before after (ShmDescriptor.ofBytes data)

/-- Accesses stay in the mapping, the parse stays in the payload of a slot, and a
descriptor that points elsewhere is turned down before any access. -/
structure Reads.InBounds (d : ShmDescriptor) (reads : Reads) : Prop where
  mapped : ∀ e ∈ reads.accesses, e.Inside 0 r.regionSize
  slot : ∀ e, reads.parsed = some e →
    ∃ i < r.slotCount, e.Inside (r.slotPayload i) (r.slotPayload i + r.slotSize)
  rejected : ¬ (d.slotIndex < r.slotCount ∧ d.size ≤ r.slotSize) → reads.accesses = []

/-- The slot that the descriptor names carries its sequence value, and the value is even. -/
def Carries (mem : Bytes) (d : ShmDescriptor) : Prop :=
  r.loadSeq mem d.slotIndex = d.seq ∧ d.seq % 2 = 0

instance (mem : Bytes) (d : ShmDescriptor) : Decidable (r.Carries mem d) :=
  inferInstanceAs (Decidable (_ ∧ _))

/-- The ring is longer than a `size_t` can say, so that the mapping is shorter. -/
def Overflows : Prop := 2 ^ 64 ≤ sizeofRingHeader + r.slotCount * (sizeofSlotHeader + r.slotSize)

/-- How far into its slot a descriptor reaches. -/
def reach (mem : Bytes) (d : ShmDescriptor) : ℕ :=
  if r.Carries mem d then sizeofSlotHeader + d.size else 8

/-- The descriptor names a slot and a size that the ring has. -/
structure Fits (before : Bytes) (d : ShmDescriptor) : Prop where
  slotIndex_lt : d.slotIndex < r.slotCount
  size_le : d.size ≤ r.slotSize
  size_lt : r.Carries before d → d.size < 2 ^ 31
  reach_le : r.Overflows → r.slotHeader d.slotIndex + r.reach before d ≤ r.regionSize

/-! ## Offsets without wrap-around -/

section

variable {r : MappedRing} {d : ShmDescriptor} {before after : Bytes} {i : ℕ}

theorem slotStride_eq : r.slotStride = sizeofSlotHeader + r.slotSize := by
  have h := r.slotSize_lt
  refine u64_of_lt ?_
  unfold sizeofSlotHeader
  omega

theorem regionSize_eq (h : ¬ r.Overflows) :
    r.regionSize = sizeofRingHeader + r.slotCount * (sizeofSlotHeader + r.slotSize) := by
  have hlt := not_le.mp h
  rw [regionSize, slotStride_eq, u64_of_lt (x := r.slotCount * _), u64_of_lt hlt]
  exact lt_of_le_of_lt (Nat.le_add_left ..) hlt

/-- A slot of the ring lies in front of the end of the mapping. -/
theorem slotHeader_eq (h : ¬ r.Overflows) (hi : i < r.slotCount) :
    r.slotHeader i = sizeofRingHeader + i * (sizeofSlotHeader + r.slotSize) ∧
      r.slotHeader i + sizeofSlotHeader + r.slotSize ≤ r.regionSize := by
  have hlt := not_le.mp h
  have hend := record_end_le sizeofRingHeader (sizeofSlotHeader + r.slotSize) hi
  have heq : r.slotHeader i = sizeofRingHeader + i * (sizeofSlotHeader + r.slotSize) := by
    rw [slotHeader, slotStride_eq, u64_of_lt (x := i * _), u64_of_lt]
    all_goals omega
  refine ⟨heq, ?_⟩
  rw [heq, regionSize_eq h]
  omega

theorem regionSize_lt : r.regionSize < 2 ^ 64 := Nat.mod_lt _ (by norm_num)

/-- A payload lies right behind a header that lies in the mapping. -/
theorem slotPayload_eq (h : r.slotHeader i + 16 ≤ r.regionSize) :
    r.slotPayload i = r.slotHeader i + sizeofSlotHeader := by
  have hlt := r.regionSize_lt
  refine u64_of_lt ?_
  unfold sizeofSlotHeader
  omega

/-- A mapping that is too short is much too short: its end is far from the last addresses. -/
theorem regionSize_of_overflows (h : r.Overflows) : r.regionSize < 2 ^ 37 := by
  have hsize := r.slotSize_lt
  have hcount := r.slotCount_lt
  have hlong : r.slotCount * (sizeofSlotHeader + r.slotSize) ≤ (2 ^ 32 - 1) * (2 ^ 32 + 15) := by
    refine Nat.mul_le_mul (by omega) ?_
    unfold sizeofSlotHeader
    omega
  unfold Overflows sizeofRingHeader at h
  rw [regionSize, slotStride_eq]
  unfold u64 sizeofRingHeader
  omega

/-- A slot reaches at least as far as its sequence word. -/
theorem reach_ge : 8 ≤ r.reach before d := by
  unfold reach sizeofSlotHeader
  split <;> omega

theorem reach_le_regionSize (h : ¬ r.Overflows) (hi : d.slotIndex < r.slotCount)
    (hsize : d.size ≤ r.slotSize) :
    r.slotHeader d.slotIndex + r.reach before d ≤ r.regionSize := by
  have hend := (slotHeader_eq h hi).2
  unfold reach sizeofSlotHeader at *
  split <;> omega

/-! ## The reads of a descriptor -/

/-- The run that a descriptor makes the parser look at. -/
def parsedOf (r : MappedRing) (d : ShmDescriptor) : Extent :=
  PeekedBytes.parsed ⟨r.slotPayload d.slotIndex, d.size⟩

theorem beginRead_of_carries (h : r.Carries before d) :
    r.beginRead before (Transport.handleOf d) =
      (some ⟨r.slotPayload d.slotIndex, d.size⟩, [r.seqExtent d.slotIndex]) := by
  simp [beginRead, Transport.handleOf, h.1, h.2]

theorem beginRead_of_not_carries (h : ¬ r.Carries before d) :
    r.beginRead before (Transport.handleOf d) = (none, [r.seqExtent d.slotIndex]) := by
  by_cases hseq : r.loadSeq before d.slotIndex = d.seq
  · have hodd : ¬ d.seq % 2 = 0 := fun heven => h ⟨hseq, heven⟩
    simp [beginRead, Transport.handleOf, hseq, hodd]
  · simp [beginRead, Transport.handleOf, hseq]

theorem readDescriptor_of_carries (h : r.Carries before d) :
    r.readDescriptor before after d =
      ⟨[r.seqExtent d.slotIndex, r.parsedOf d, r.seqExtent d.slotIndex], some (r.parsedOf d)⟩ := by
  simp only [readDescriptor, beginRead_of_carries h]
  rfl

theorem readDescriptor_of_not_carries (h : ¬ r.Carries before d) :
    r.readDescriptor before after d = ⟨[r.seqExtent d.slotIndex], none⟩ := by
  simp only [readDescriptor, beginRead_of_not_carries h]

/-- The sequence word is looked at for whatever slot a descriptor names. -/
theorem seqExtent_mem (r : MappedRing) (d : ShmDescriptor) (before after : Bytes) :
    r.seqExtent d.slotIndex ∈ (r.readDescriptor before after d).accesses := by
  by_cases h : r.Carries before d
  · simp [readDescriptor_of_carries h]
  · simp [readDescriptor_of_not_carries h]

theorem seqExtent_inside : (r.seqExtent i).Inside 0 r.regionSize ↔
    r.slotHeader i + 8 ≤ r.regionSize := by
  rw [Extent.inside_iff]
  simp only [seqExtent]
  omega

/-- A length that an `int` can hold is the length that the parser is given. -/
theorem parsedOf_eq (h : d.size < 2 ^ 31) : r.parsedOf d = ⟨r.slotPayload d.slotIndex, d.size⟩ := by
  have hu : u32 d.size = d.size := u32_of_lt (by omega)
  unfold parsedOf PeekedBytes.parsed int32
  dsimp only
  rw [hu, if_pos h]

/-- Any other length comes out negative. -/
theorem size_lt_of_nonneg (hd : d.size < 2 ^ 32) (h : 0 ≤ (r.parsedOf d).size) :
    d.size < 2 ^ 31 := by
  simp only [parsedOf, PeekedBytes.parsed, int32, u32_of_lt hd] at h
  split at h <;> omega

/-! ## Bounds -/

/-- What fits is read in bounds. -/
theorem Fits.inBounds (h : r.Fits before d) :
    Reads.InBounds r d (r.readDescriptor before after d) := by
  have hreach : r.slotHeader d.slotIndex + r.reach before d ≤ r.regionSize := by
    by_cases ho : r.Overflows
    · exact h.reach_le ho
    · exact reach_le_regionSize ho h.slotIndex_lt h.size_le
  have hge : 8 ≤ r.reach before d := reach_ge
  have hseq : (r.seqExtent d.slotIndex).Inside 0 r.regionSize := by
    apply seqExtent_inside.mpr
    omega
  have hfits : d.slotIndex < r.slotCount ∧ d.size ≤ r.slotSize := ⟨h.slotIndex_lt, h.size_le⟩
  by_cases hc : r.Carries before d
  · have hsize := h.size_le
    rw [reach, if_pos hc] at hreach
    have hpayload : r.slotPayload d.slotIndex = r.slotHeader d.slotIndex + sizeofSlotHeader := by
      apply slotPayload_eq
      unfold sizeofSlotHeader at hreach
      omega
    have hparsed := parsedOf_eq (r := r) (h.size_lt hc)
    have hslot : (r.parsedOf d).Inside (r.slotPayload d.slotIndex)
        (r.slotPayload d.slotIndex + r.slotSize) := by
      rw [hparsed, Extent.inside_iff]
      dsimp only
      omega
    have hmapped : (r.parsedOf d).Inside 0 r.regionSize := by
      rw [hparsed, Extent.inside_iff]
      dsimp only
      omega
    constructor
    · intro e he
      simp only [readDescriptor_of_carries hc, List.mem_cons, List.not_mem_nil, or_false] at he
      rcases he with rfl | rfl | rfl
      · exact hseq
      · exact hmapped
      · exact hseq
    · intro e he
      rw [readDescriptor_of_carries hc] at he
      obtain rfl := Option.some.inj he
      exact ⟨d.slotIndex, h.slotIndex_lt, hslot⟩
    · exact fun hout => absurd hfits hout
  · constructor
    · intro e he
      simp only [readDescriptor_of_not_carries hc, List.mem_singleton] at he
      exact he ▸ hseq
    · intro e he
      simp [readDescriptor_of_not_carries hc] at he
    · exact fun hout => absurd hfits hout

/-- Every descriptor is looked at, so what stays in bounds fits. -/
theorem Reads.InBounds.fits (h : Reads.InBounds r d (r.readDescriptor before after d)) :
    r.Fits before d := by
  have hseq := seqExtent_inside.mp (h.mapped _ (seqExtent_mem ..))
  have hin : d.slotIndex < r.slotCount ∧ d.size ≤ r.slotSize := by
    by_contra hout
    have hnone := h.rejected hout
    have hmem := seqExtent_mem r d before after
    rw [hnone] at hmem
    cases hmem
  have hsize : r.Carries before d → d.size < 2 ^ 31 := by
    intro hc
    obtain ⟨i, -, hi⟩ := h.slot (r.parsedOf d) (by rw [readDescriptor_of_carries hc])
    have hlt := r.slotSize_lt
    exact size_lt_of_nonneg (by omega) hi.size_nonneg
  refine ⟨hin.1, hin.2, hsize, ?_⟩
  intro ho
  have hshort := regionSize_of_overflows ho
  unfold reach
  split
  case isTrue hc =>
    have hparsed := h.mapped (r.parsedOf d) (by simp [readDescriptor_of_carries hc])
    have hend := hparsed.end_le
    rw [parsedOf_eq (hsize hc)] at hend
    have hpayload : r.slotPayload d.slotIndex = r.slotHeader d.slotIndex + sizeofSlotHeader := by
      refine u64_of_lt ?_
      unfold sizeofSlotHeader
      omega
    rw [hpayload] at hend
    dsimp only at hend
    omega
  case isFalse => exact hseq

/-- **Exactly the descriptors that fit are read in bounds.**  For every ring, every frame of
the right length and every content that the memory has at the two looks. -/
theorem stays_in_bounds_iff (r : MappedRing) (data : Str) (before after : Bytes) :
    Reads.InBounds r (ShmDescriptor.ofBytes data) (r.readFrame before after data) ↔
      (data.length = sizeofShmDescriptor → r.Fits before (ShmDescriptor.ofBytes data)) := by
  by_cases hdata : data.length = sizeofShmDescriptor
  · rw [readFrame, if_neg (not_not.mpr hdata)]
    exact ⟨fun h _ => h.fits, fun h => (h hdata).inBounds⟩
  · rw [readFrame, if_pos hdata]
    refine ⟨fun _ h => absurd h hdata, fun _ => ?_⟩
    exact ⟨by simp, by simp, fun _ => rfl⟩

end

/-! ## Rings and their readers -/

/-- The mapping as slots: what `ShmRing` is to the writer. -/
def toShmRing (r : MappedRing) (mem : Bytes) : ShmRing where
  slotSize := r.slotSize
  slotCount := r.slotCount
  slots i :=
    { seq := r.loadSeq mem i
      size := load mem (r.slotHeader i + 8) 4
      payload := fun off => mem (r.slotPayload i + off) }

theorem seq_toShmRing (r : MappedRing) (mem : Bytes) (i : ℕ) :
    ((r.toShmRing mem).slots i).seq = r.loadSeq mem i := rfl

theorem isSome_beginRead (r : MappedRing) (mem : Bytes) (handle : SlotHandle) :
    (r.beginRead mem handle).1.isSome ↔ ((r.toShmRing mem).beginRead handle).isSome := by
  rw [ShmRing.beginRead_isSome, seq_toShmRing]
  by_cases hs : r.loadSeq mem handle.slotIndex = handle.seq <;>
    by_cases he : handle.seq % 2 = 0 <;> simp [beginRead, hs, he]

theorem finishRead_toShmRing (r : MappedRing) (mem : Bytes) (handle : SlotHandle) :
    (r.finishRead mem handle).1 = true ↔ (r.toShmRing mem).finishRead handle = true := by
  by_cases hs : r.loadSeq mem handle.slotIndex = handle.seq <;>
    simp [finishRead, ShmRing.finishRead, seq_toShmRing, hs]

/-- A reader sees the geometry that the header has room for. -/
theorem openAsReader_ringHeader {segment : Bytes} {slotSize slotCount : ℕ}
    (h : (List.range 16).map segment = ringHeader slotSize slotCount) :
    ∃ r, openAsReader segment true = some r ∧ r.slotSize = u32 slotSize ∧
      r.slotCount = u32 slotCount := by
  have hu32 : ∀ x, u32 x < 256 ^ 4 := fun x => Nat.mod_lt x (by norm_num)
  have hmagic : load segment 0 4 = kMagic := by
    unfold ringHeader at h
    simp only [List.append_assoc] at h
    exact load_of_run [] _ h (by decide) rfl
  have hcount : load segment 4 4 = u32 slotCount := by
    unfold ringHeader at h
    rw [List.append_assoc] at h
    exact load_of_run _ _ h (hu32 slotCount) (length_toLE kMagic 4)
  have hsize : load segment 8 4 = u32 slotSize := by
    refine load_of_run _ _ h (hu32 slotSize) ?_
    simp
  refine ⟨⟨load segment 8 4, load segment 4 4, load_lt .., load_lt ..⟩, ?_, hsize, hcount⟩
  rw [openAsReader, if_neg (not_not.mpr hmagic), if_pos rfl]

/-- **The ring's own descriptors are read in bounds** by everyone who has its geometry. -/
theorem fits_of_commitWrite {r : MappedRing} {w w' w'' : ShmRing} {size : ℕ}
    {reserved : ReservedSlot} (hslotSize : w.slotSize = r.slotSize)
    (hslotCount : w.slotCount = r.slotCount) (hpos : 0 < r.slotCount) (hover : ¬ r.Overflows)
    (hsize : size < 2 ^ 31) (hreserve : w.reserveWrite size = (w', some reserved))
    (ring : WriterRing) (mem : Bytes) :
    r.Fits mem (Transport.descriptorOf ring (w''.commitWrite reserved size).2) := by
  unfold ShmRing.reserveWrite at hreserve
  split at hreserve
  case isTrue => cases hreserve
  case isFalse hle =>
    obtain rfl := Option.some.inj (Prod.mk.inj hreserve).2
    have hbound : size ≤ r.slotSize := hslotSize ▸ not_lt.mp hle
    have hindex : w.indexOf w.writeCursor < r.slotCount := by
      have hmod := Nat.mod_lt w.writeCursor hpos
      rw [← hslotCount] at hmod ⊢
      exact (Nat.mod_le _ _).trans_lt hmod
    have hlength : u32 size = size := u32_of_lt (by omega)
    constructor
    · exact hindex
    · exact hlength.trans_le hbound
    · exact fun _ => hlength.trans_lt hsize
    · exact fun ho => absurd ho hover

/-! ## A reader of an earlier ring -/

/-- A ring of four slots of one page. -/
def pageRing : MappedRing := ⟨4096, 4, by norm_num, by norm_num⟩

/-- The segment of the page ring after the first publish. -/
def pageSegment : Bytes := fun i => ((ringHeader 4096 4 ++ toLE 2 8)[i]?).getD 0

/-- **A descriptor of a later ring is parsed past the slot.**  The topic was advertised anew
with larger messages; the reader still has the first ring, under the same name. -/
theorem later_ring_out_of_bounds :
    openAsReader pageSegment true = some pageRing ∧
      ∃ d : ShmDescriptor, d.bytes.length = sizeofShmDescriptor ∧
        (pageRing.readFrame pageSegment pageSegment d.bytes).parsed = some ⟨32, 5000⟩ ∧
        ¬ Reads.InBounds pageRing (ShmDescriptor.ofBytes d.bytes)
          (pageRing.readFrame pageSegment pageSegment d.bytes) := by
  refine ⟨by decide, ⟨str "/rf_shm_7_4a", 0, 2, 5000⟩, by decide, by decide, ?_⟩
  intro h
  obtain ⟨i, hi, hslot⟩ := h.slot ⟨32, 5000⟩ (by decide)
  revert hslot
  decide +revert

end MappedRing
end RfTrans
