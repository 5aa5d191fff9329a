import RfTrans.Ring.Bounds

/-!
# The ring of a writer as bytes

`createAsWriter` computes where the slots are from two `size_t`s and writes 32 bits of each
into the header of the segment; `openAsReader` computes it again from these.  This module
has the writer's side of `shm_ring.cc` with its pointer arithmetic, over the bytes of the
segment, and compares it with the reader's side of `RfTrans.MappedRing`.

## Main definitions

* `Geometry` — the two sizes, and what is computed from them.
* `Geometry.createAsWriter`, `Geometry.Created`
* `Geometry.SlotsApart`, `Geometry.LayoutAgrees`
* `Geometry.layout_agrees_iff`
-/

namespace RfTrans

open Layout

/-- `slot_size_` and `slot_count_`. -/
structure Geometry where
  slotSize : ℕ
  slotCount : ℕ
  slotSize_lt : slotSize < 2 ^ 64
  slotCount_lt : slotCount < 2 ^ 64
  deriving DecidableEq

namespace Geometry

variable (g : Geometry)

/-- `slotStride` -/
def slotStride : ℕ := u64 (sizeofSlotHeader + g.slotSize)

/-- `region_size_` -/
def regionSize : ℕ := u64 (sizeofRingHeader + u64 (g.slotCount * g.slotStride))

/-- `slotHeader` -/
def slotHeader (index : ℕ) : ℕ := u64 (sizeofRingHeader + u64 (index * g.slotStride))

/-- `slotPayload` -/
def slotPayload (index : ℕ) : ℕ := u64 (g.slotHeader index + sizeofSlotHeader)

/-- The system maps whole pages. -/
def mappedSize : ℕ := (g.regionSize + 4095) / 4096 * 4096

/-- A store of `createAsWriter`; beside the mapped pages it faults. -/
def storeMapped (mem : Bytes) (offset : ℕ) (bs : Str) : Option Bytes :=
  if offset + bs.length ≤ g.mappedSize then some (store mem offset bs) else none

/-- The loop over the slots. Its counter is a `uint32_t`. -/
def clearSlots : ℕ → ℕ → Bytes → Option Bytes
  | 0, _, _ => none
  | fuel + 1, i, mem =>
    if i < g.slotCount then
      match g.storeMapped mem (g.slotHeader i) (List.replicate sizeofSlotHeader 0) with
      | none => none
      | some mem => clearSlots fuel (u32 (i + 1)) mem
    else some mem

/-- The bytes that the addresses of a process can name. -/
def kAddressSpace : ℕ := 2 ^ 57

/-- `createAsWriter`; `opened` says whether the system opens and maps a segment, which is
zero at first. It maps none that the address space has no room for. The inner `none` is
the result false; the outer one is a fault, or a loop of more than `fuel` passes. -/
def createAsWriter (opened : Bool) (fuel : ℕ) : Option (Option Bytes) :=
  if opened = false ∨ kAddressSpace < g.regionSize then some none
  else
    match g.storeMapped (fun _ => 0) 0 (ringHeader g.slotSize g.slotCount) with
    | none => none
    | some mem => (g.clearSlots fuel 0 mem).map some

/-- `createAsWriter` returns true and leaves these bytes. -/
def Created (mem : Bytes) : Prop := ∃ fuel, g.createAsWriter true fuel = some (some mem)

/-- No offset of the ring goes past what a `size_t` can say. -/
def NoWrap : Prop := sizeofRingHeader + g.slotCount * (sizeofSlotHeader + g.slotSize) < 2 ^ 64

/-! ## Offsets -/

variable {g} {i j : ℕ}

theorem NoWrap.slotStride_eq (h : g.NoWrap) (hi : i < g.slotCount) :
    g.slotStride = sizeofSlotHeader + g.slotSize := by
  have hend := record_end_le sizeofRingHeader (sizeofSlotHeader + g.slotSize) hi
  refine u64_of_lt ?_
  unfold NoWrap at h
  omega

theorem NoWrap.regionSize_eq (h : g.NoWrap) (hi : i < g.slotCount) :
    g.regionSize = sizeofRingHeader + g.slotCount * (sizeofSlotHeader + g.slotSize) := by
  have hcount := h
  unfold NoWrap at hcount
  rw [regionSize, h.slotStride_eq hi, u64_of_lt (x := g.slotCount * _), u64_of_lt hcount]
  exact lt_of_le_of_lt (Nat.le_add_left ..) hcount

theorem NoWrap.slotHeader_eq (h : g.NoWrap) (hi : i < g.slotCount) :
    g.slotHeader i = sizeofRingHeader + i * (sizeofSlotHeader + g.slotSize) := by
  have hend := record_end_le sizeofRingHeader (sizeofSlotHeader + g.slotSize) hi
  unfold NoWrap at h
  rw [slotHeader, NoWrap.slotStride_eq h hi, u64_of_lt (x := i * _), u64_of_lt]
  all_goals omega

theorem NoWrap.slotPayload_eq (h : g.NoWrap) (hi : i < g.slotCount) :
    g.slotPayload i = g.slotHeader i + sizeofSlotHeader := by
  have hend := record_end_le sizeofRingHeader (sizeofSlotHeader + g.slotSize) hi
  rw [slotPayload, h.slotHeader_eq hi]
  unfold NoWrap at h
  refine u64_of_lt ?_
  omega

/-- Where the slots are: behind the header of the ring, inside the region, and apart. -/
structure SlotsApart (g : Geometry) : Prop where
  header_le : ∀ i < g.slotCount, sizeofRingHeader ≤ g.slotHeader i
  payload_eq : ∀ i < g.slotCount, g.slotPayload i = g.slotHeader i + sizeofSlotHeader
  end_le : ∀ i < g.slotCount, g.slotPayload i + g.slotSize ≤ g.regionSize
  apart : ∀ i < g.slotCount, ∀ j < g.slotCount, i ≠ j →
    g.slotPayload i + g.slotSize ≤ g.slotHeader j ∨ g.slotPayload j + g.slotSize ≤ g.slotHeader i

theorem NoWrap.slotsApart (h : g.NoWrap) : g.SlotsApart where
  header_le i hi := by
    rw [h.slotHeader_eq hi]
    exact Nat.le_add_right ..
  payload_eq i hi := h.slotPayload_eq hi
  end_le i hi := by
    have hend := record_end_le sizeofRingHeader (sizeofSlotHeader + g.slotSize) hi
    rw [h.slotPayload_eq hi, h.slotHeader_eq hi, h.regionSize_eq hi]
    omega
  apart i hi j hj hij := by
    have hrecords := record_disjoint sizeofRingHeader (sizeofSlotHeader + g.slotSize) hij
    rw [h.slotPayload_eq hi, h.slotPayload_eq hj, h.slotHeader_eq hi, h.slotHeader_eq hj]
    omega

/-! ## What `createAsWriter` leaves -/

variable {mem mem' : Bytes} {fuel : ℕ}

theorem storeMapped_eq_some {offset : ℕ} {bs : Str} :
    g.storeMapped mem offset bs = some mem' ↔
      offset + bs.length ≤ g.mappedSize ∧ store mem offset bs = mem' := by
  unfold storeMapped
  split
  case isTrue h => simp [h]
  case isFalse h => simp [h]

/-- A pass of the loop. -/
theorem clearSlots_succ (hi : i < g.slotCount)
    (h : g.clearSlots (fuel + 1) i mem = some mem') :
    g.slotHeader i + sizeofSlotHeader ≤ g.mappedSize ∧
      g.clearSlots fuel (u32 (i + 1))
        (store mem (g.slotHeader i) (List.replicate sizeofSlotHeader 0)) = some mem' := by
  rw [clearSlots, if_pos hi] at h
  split at h
  case h_1 => cases h
  case h_2 hstore =>
    obtain ⟨hle, rfl⟩ := storeMapped_eq_some.mp hstore
    rw [List.length_replicate] at hle
    exact ⟨hle, h⟩

/-- The counter never reaches a count of more than 32 bits: the loop does not end. -/
theorem clearSlots_of_le (hcount : 2 ^ 32 ≤ g.slotCount) (hi : i < 2 ^ 32) :
    g.clearSlots fuel i mem = none := by
  induction fuel generalizing i mem with
  | zero => rfl
  | succ fuel ih =>
      cases h : g.clearSlots (fuel + 1) i mem with
      | none => rfl
      | some mem' =>
          have hnext := (clearSlots_succ (by omega) h).2
          have hlt : u32 (i + 1) < 2 ^ 32 := Nat.mod_lt _ (by norm_num)
          rw [ih hlt] at hnext
          cases hnext

/-- All slots that the loop passes have their header in the mapped pages. -/
theorem header_end_le_of_clearSlots (hcount : g.slotCount < 2 ^ 32)
    (h : g.clearSlots fuel i mem = some mem') (hij : i ≤ j) (hj : j < g.slotCount) :
    g.slotHeader j + sizeofSlotHeader ≤ g.mappedSize := by
  induction fuel generalizing i mem with
  | zero => cases h
  | succ fuel ih =>
      obtain ⟨hle, hrest⟩ := clearSlots_succ (by omega) h
      rw [u32_of_lt (by omega)] at hrest
      rcases Nat.eq_or_lt_of_le hij with rfl | hlt
      · exact hle
      · exact ih hrest hlt

/-- The loop stores zeros into the headers of slots. -/
theorem clearSlots_eq_some (happ : g.SlotsApart) (h : g.clearSlots fuel i mem = some mem') :
    (∀ o < sizeofRingHeader, mem' o = mem o) ∧ ∀ o, mem o = 0 → mem' o = 0 := by
  induction fuel generalizing i mem with
  | zero => cases h
  | succ fuel ih =>
      by_cases hi : i < g.slotCount
      · obtain ⟨-, hrest⟩ := clearSlots_succ hi h
        obtain ⟨hheader, hzero⟩ := ih hrest
        have hle := happ.header_le i hi
        constructor
        · intro o ho
          rw [hheader o ho]
          exact store_of_disjoint (.inl (by omega))
        · intro o ho
          refine hzero o ?_
          by_cases hin : g.slotHeader i ≤ o ∧ o < g.slotHeader i + sizeofSlotHeader
          · obtain ⟨d, rfl⟩ := Nat.exists_eq_add_of_le hin.1
            rw [store_add (by rw [List.length_replicate]; omega)]
            exact List.getElem_replicate ..
          · rw [store_of_disjoint (by rw [List.length_replicate]; omega)]
            exact ho
      · rw [clearSlots, if_neg hi] at h
        obtain rfl := Option.some.inj h
        exact ⟨fun _ _ => rfl, fun _ => id⟩

/-- The calls of `createAsWriter` that succeed. -/
theorem Created.cases (h : g.Created mem) : g.regionSize ≤ kAddressSpace ∧
    ∃ fuel, g.clearSlots fuel 0
      (store (fun _ => 0) 0 (ringHeader g.slotSize g.slotCount)) = some mem := by
  obtain ⟨fuel, h⟩ := h
  unfold createAsWriter at h
  split at h
  case isTrue => cases h
  case isFalse hlen =>
    split at h
    case h_1 => cases h
    case h_2 hstore =>
      obtain ⟨-, rfl⟩ := storeMapped_eq_some.mp hstore
      obtain ⟨mem', hclear, hmem⟩ := Option.map_eq_some_iff.mp h
      obtain rfl := Option.some.inj hmem
      exact ⟨by omega, fuel, hclear⟩

theorem Created.slotCount_lt (h : g.Created mem) : g.slotCount < 2 ^ 32 := by
  obtain ⟨-, fuel, hclear⟩ := h.cases
  by_contra hle
  rw [clearSlots_of_le (by omega) (by norm_num)] at hclear
  cases hclear

theorem Created.header_end_le (h : g.Created mem) (hi : i < g.slotCount) :
    g.slotHeader i + sizeofSlotHeader ≤ g.mappedSize := by
  obtain ⟨-, fuel, hclear⟩ := h.cases
  exact header_end_le_of_clearSlots h.slotCount_lt hclear (Nat.zero_le i) hi

/-- A ring that has wrapped around has a slot so far up that it is not mapped. No object
is longer than a `ptrdiff_t` can say, so no slot has to be. -/
theorem Created.noWrap (h : g.Created mem) (hsize : g.slotSize < 2 ^ 63) : g.NoWrap := by
  have hregion := h.cases.1
  have hstride : g.slotStride = sizeofSlotHeader + g.slotSize := by
    refine u64_of_lt ?_
    unfold sizeofSlotHeader
    omega
  unfold NoWrap
  by_contra hwrap
  -- The last slot that begins before the end of the addresses.
  generalize hs : sizeofSlotHeader + g.slotSize = stride at hstride hwrap
  have hpos : 0 < stride := by
    unfold sizeofSlotHeader at hs
    omega
  have hle := Nat.div_mul_le_self (2 ^ 64 - 17) stride
  have hlt := Nat.lt_div_mul_add hpos (a := 2 ^ 64 - 17)
  generalize (2 ^ 64 - 17) / stride = i at hle hlt
  have hi : i < g.slotCount := by
    refine Nat.lt_of_mul_lt_mul_right (a := stride) ?_
    unfold sizeofRingHeader at hwrap
    omega
  have hmapped := h.header_end_le hi
  have hheader : g.slotHeader i = sizeofRingHeader + i * stride := by
    unfold sizeofRingHeader
    rw [slotHeader, hstride, u64_of_lt (x := i * stride) (by omega), u64_of_lt]
    · rfl
    · unfold sizeofRingHeader
      omega
  rw [hheader] at hmapped
  unfold mappedSize at hmapped
  unfold kAddressSpace at hregion
  unfold sizeofRingHeader sizeofSlotHeader at *
  omega

/-- What `createAsWriter` leaves is the header of the ring, and zeros behind it. -/
theorem Created.mem_eq (h : g.Created mem) (happ : g.SlotsApart) :
    (List.range sizeofRingHeader).map mem = ringHeader g.slotSize g.slotCount ∧
      ∀ o, sizeofRingHeader ≤ o → mem o = 0 := by
  obtain ⟨-, fuel, hclear⟩ := h.cases
  obtain ⟨hheader, hzero⟩ := clearSlots_eq_some happ hclear
  have hlength : (ringHeader g.slotSize g.slotCount).length = sizeofRingHeader := by
    simp [ringHeader, sizeofRingHeader]
  constructor
  · have hself : bytesAt (store (fun _ => 0) 0 (ringHeader g.slotSize g.slotCount)) 0
        (ringHeader g.slotSize g.slotCount).length = ringHeader g.slotSize g.slotCount :=
      bytesAt_store_self
    rw [hlength] at hself
    rw [← hself]
    apply List.map_congr_left
    intro o ho
    rw [Nat.zero_add]
    exact hheader o (List.mem_range.mp ho)
  · intro o ho
    refine hzero o ?_
    rw [store_of_disjoint (.inr (by omega))]

/-! ## Both sides -/

/-- A reader has the same sizes and looks for every slot where the writer has it. -/
structure LayoutAgrees (g : Geometry) (r : MappedRing) : Prop where
  slotCount : r.slotCount = g.slotCount
  slotSize : r.slotSize = g.slotSize
  slotStride : r.slotStride = g.slotStride
  regionSize : r.regionSize = g.regionSize
  slotHeader : ∀ i, r.slotHeader i = g.slotHeader i
  slotPayload : ∀ i, r.slotPayload i = g.slotPayload i

/-- The two sizes decide about the rest. -/
theorem layoutAgrees_of_sizes {r : MappedRing} (hcount : r.slotCount = g.slotCount)
    (hsize : r.slotSize = g.slotSize) : g.LayoutAgrees r := by
  have hstride : r.slotStride = g.slotStride := by
    rw [MappedRing.slotStride, slotStride, hsize]
  have hheader : ∀ i, r.slotHeader i = g.slotHeader i := by
    intro i
    rw [MappedRing.slotHeader, slotHeader, hstride]
  constructor
  · exact hcount
  · exact hsize
  · exact hstride
  · rw [MappedRing.regionSize, regionSize, hcount, hstride]
  · exact hheader
  · intro i
    rw [MappedRing.slotPayload, slotPayload, hheader]

/-- A segment whose first bytes are those that `createAsWriter` left. -/
def SameHeader (mem mem' : Bytes) : Prop := ∀ o < sizeofRingHeader, mem' o = mem o

/-- What a reader gets from the header. -/
theorem openAsReader_of_header
    (h : (List.range sizeofRingHeader).map mem = ringHeader g.slotSize g.slotCount)
    (hsame : SameHeader mem mem') :
    ∃ r, MappedRing.openAsReader mem' true = some r ∧ r.slotSize = u32 g.slotSize ∧
      r.slotCount = u32 g.slotCount := by
  refine MappedRing.openAsReader_ringHeader ?_
  rw [← h]
  apply List.map_congr_left
  intro o ho
  exact hsame o (List.mem_range.mp ho)

theorem Created.slotsApart (h : g.Created mem) (hsize : g.slotSize < 2 ^ 63) : g.SlotsApart :=
  (h.noWrap hsize).slotsApart

theorem Created.openAsReader (h : g.Created mem) (hsize : g.slotSize < 2 ^ 32)
    (hsame : SameHeader mem mem') :
    ∃ r, MappedRing.openAsReader mem' true = some r ∧ g.LayoutAgrees r := by
  obtain ⟨r, hr, hslotSize, hslotCount⟩ :=
    openAsReader_of_header (h.mem_eq (h.slotsApart (by omega))).1 hsame
  rw [u32_of_lt hsize] at hslotSize
  rw [u32_of_lt h.slotCount_lt] at hslotCount
  exact ⟨r, hr, layoutAgrees_of_sizes hslotCount hslotSize⟩

/-- **Both sides agree exactly on slots of less than 2³² bytes.**  The header has no room for
a longer slot, and `createAsWriter` does not look. -/
theorem layout_agrees_iff (g : Geometry) {mem mem' : Bytes} (h : g.Created mem)
    (hsame : SameHeader mem mem') :
    ((∃ r, MappedRing.openAsReader mem' true = some r ∧ g.LayoutAgrees r) ∧ g.SlotsApart) ↔
      g.slotSize < 2 ^ 32 := by
  constructor
  · intro hagree
    obtain ⟨⟨r, -, hr⟩, -⟩ := hagree
    have hlt := r.slotSize_lt
    rw [hr.slotSize] at hlt
    exact hlt
  · intro hsize
    exact ⟨h.openAsReader hsize hsame, h.slotsApart (by omega)⟩

theorem exists_created (g : Geometry) (fuel : ℕ)
    (h : (g.createAsWriter true fuel).join.isSome) : ∃ mem, g.Created mem := by
  obtain ⟨mem, hmem⟩ := Option.isSome_iff_exists.mp h
  exact ⟨mem, fuel, Option.join_eq_some_iff.mp hmem⟩

/-- A ring of four slots of one page. -/
def pageRing : Geometry := ⟨4096, 4, by norm_num, by norm_num⟩

theorem pageRing_created : ∃ mem, pageRing.Created mem :=
  exists_created pageRing 5 (by decide)

theorem layout_agrees_iff_page : ∃ mem, pageRing.Created mem ∧
    (((∃ r, MappedRing.openAsReader mem true = some r ∧ pageRing.LayoutAgrees r) ∧
      pageRing.SlotsApart) ↔ pageRing.slotSize < 2 ^ 32) := by
  obtain ⟨mem, h⟩ := pageRing_created
  exact ⟨mem, h, layout_agrees_iff pageRing h fun _ _ => rfl⟩

/-- The ring that `writerRingFor` makes for a first message of 4 GiB. -/
def largeRing : Geometry :=
  ⟨Transport.slotSizeFor (2 ^ 32), ShmRing.kDefaultSlotCount, by decide, by decide⟩

/-- **A reader of a ring of long slots looks for them elsewhere**, and finds no fault with
the segment. -/
theorem large_ring_disagrees : ∃ mem, largeRing.Created mem ∧
    ∃ r, MappedRing.openAsReader mem true = some r ∧ r.slotSize = 0 ∧
      r.slotHeader 1 = 32 ∧ largeRing.slotHeader 1 = 2 ^ 32 + 32 ∧ ¬ largeRing.LayoutAgrees r := by
  obtain ⟨mem, h⟩ := exists_created largeRing 5 (by decide)
  have happ := h.slotsApart (by decide)
  obtain ⟨r, hr, hsize, -⟩ := openAsReader_of_header (h.mem_eq happ).1 fun _ _ => rfl
  have hzero : r.slotSize = 0 := hsize
  refine ⟨mem, h, r, hr, hzero, ?_, by decide, ?_⟩
  · rw [MappedRing.slotHeader, MappedRing.slotStride, hzero]
    rfl
  · intro hagree
    have hsame := hagree.slotSize
    rw [hzero] at hsame
    exact absurd hsame (by decide)

end Geometry
end RfTrans
