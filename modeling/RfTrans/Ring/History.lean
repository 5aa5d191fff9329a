import RfTrans.Lib.Exec
import RfTrans.Ring.WriterMapping

/-!
# Everything that one thread does to a ring

A writer that is used by one thread: writes, reservations that are committed before the next
one, reservations that are given up, and requests that are too long.  A reservation is
numbered by when it was started.  What the bytes of a slot are is a matter of the latest
reservation that got it, and so is what a handle reads.

## Main definitions

* `RingOp`, `WriterRun` — what is done, and what came out of it.
* `ShmRing.Holds` — what the slots hold after a history.
* `WriterRun.retention_window`, `WriterRun.failed_write_unreadable_iff`
-/

namespace RfTrans

open Exec Layout

/-- What a caller stores into a payload of which it has reserved a part. -/
structure Filling (reserved : ℕ) where
  stores : List (ℕ × Str)
  inside : ∀ x ∈ stores, x.1 + x.2.length ≤ reserved

/-- An operation on a writer. -/
inductive RingOp
  | write (data : Str)
  /-- `reserveWrite` and, unless it failed, stores and `commitWrite`. -/
  | commit (reserved : ℕ) (filling : Filling reserved) (size : ℕ) (hsize : size ≤ reserved)
  /-- `reserveWrite` and perhaps stores, but no commit. -/
  | abandon (reserved : ℕ) (filling : Filling reserved)

/-- What an operation asks `reserveWrite` for. -/
def RingOp.size : RingOp → ℕ
  | .write data => data.length
  | .commit reserved .. => reserved
  | .abandon reserved _ => reserved

/-- A handle that was returned, and the payload that was committed. -/
structure Committed where
  handle : SlotHandle
  bytes : Str
  deriving DecidableEq

/-- A writer, and for each reservation that was started what it committed. -/
structure WriterRun where
  ring : WriterMapping
  started : List (Option Committed) := []

/-- Stores into the payload of a slot. -/
def WriterMapping.storeAll (w : WriterMapping) (i : ℕ) (stores : List (ℕ × Str)) : WriterMapping :=
  stores.foldl (fun w x => w.storePayload i x.1 x.2) w

/-- One operation. There is none on a ring without slots, except one that is turned down. -/
def WriterRun.perform (s : WriterRun) : RingOp → Option WriterRun
  | .write data =>
    match s.ring.write data with
    | none => none
    | some (ring, handle) =>
      if s.ring.slotSize < data.length then some { s with ring := ring }
      else some ⟨ring, s.started ++ [some ⟨handle, data⟩]⟩
  | .commit reserved filling size _ =>
    match s.ring.reserveWrite reserved with
    | none => none
    | some (ring, none) => some { s with ring := ring }
    | some (ring, some slot) =>
      let filled := ring.storeAll slot.slotIndex filling.stores
      let payload := bytesAt filled.mem (filled.slotPayload slot.slotIndex) size
      let (ring, handle) := filled.commitWrite slot size
      some ⟨ring, s.started ++ [some ⟨handle, payload⟩]⟩
  | .abandon reserved filling =>
    match s.ring.reserveWrite reserved with
    | none => none
    | some (ring, none) => some { s with ring := ring }
    | some (ring, some slot) =>
      some ⟨ring.storeAll slot.slotIndex filling.stores, s.started ++ [none]⟩

/-- A writer right after `createAsWriter`. -/
def WriterRun.create (g : Geometry) (mem : Bytes) : WriterRun where
  ring := .create g mem

/-! ## Reservations -/

/-- The reservation with this number. -/
def reservationOf (slotCount k : ℕ) : ReservedSlot :=
  ⟨u32 (u64 k % slotCount), u64 (2 * u64 k + 1)⟩

/-- No reservation after this one got the same slot. -/
def IsLatest (slotCount started k : ℕ) : Prop :=
  ∀ m, k < m → m < started →
    (reservationOf slotCount m).slotIndex ≠ (reservationOf slotCount k).slotIndex

/-- A slot after a reservation. -/
def Slot.Holds (s : Slot) (reserved : ReservedSlot) : Option Committed → Prop
  | none => s.seq = reserved.beginSeq
  | some c => s.seq = c.handle.seq ∧ bytesAt s.payload 0 c.bytes.length = c.bytes

theorem beginSeq_reservationOf {slotCount k : ℕ} (h : k < 2 ^ 63 - 1) :
    (reservationOf slotCount k).beginSeq = 2 * k + 1 := by
  simp only [reservationOf, u64]
  omega

theorem slotIndex_reservationOf {slotCount k : ℕ} (hcount : 0 < slotCount)
    (hlt : slotCount < 2 ^ 32) (h : k < 2 ^ 63 - 1) :
    (reservationOf slotCount k).slotIndex = k % slotCount := by
  have hmod := Nat.mod_lt k hcount
  simp only [reservationOf]
  rw [u64_of_lt (by omega), u32_of_lt (by omega)]

/-- The slot of a reservation is given away again by the `slotCount`th one after it. -/
theorem isLatest_iff {slotCount started k : ℕ} (hcount : 0 < slotCount)
    (hlt : slotCount < 2 ^ 32) (hcursor : started < 2 ^ 63 - 1) (hk : k < started) :
    IsLatest slotCount started k ↔ started - (k + 1) < slotCount := by
  have hindex : ∀ m < started, (reservationOf slotCount m).slotIndex = m % slotCount :=
    fun m hm => slotIndex_reservationOf hcount hlt (by omega)
  constructor
  · intro h
    by_contra hle
    apply h (k + slotCount) (by omega) (by omega)
    rw [hindex _ (by omega), hindex k hk, Nat.add_mod_right]
  · intro h m hkm hm
    rw [hindex m hm, hindex k hk]
    intro hmod
    have hdvd := (Nat.modEq_iff_dvd' hkm.le).mp (Eq.symm hmod)
    have hle := Nat.le_of_dvd (by omega) hdvd
    omega

theorem exists_isLatest {slotCount started i : ℕ}
    (h : ∃ k < started, (reservationOf slotCount k).slotIndex = i) :
    ∃ k < started, (reservationOf slotCount k).slotIndex = i ∧ IsLatest slotCount started k := by
  induction started with
  | zero =>
      obtain ⟨k, hk, -⟩ := h
      omega
  | succ started ih =>
      by_cases hlast : (reservationOf slotCount started).slotIndex = i
      · refine ⟨started, by omega, hlast, ?_⟩
        intro m hm hlt
        omega
      · obtain ⟨k, hk, hi⟩ := h
        have hne : k ≠ started := by
          rintro rfl
          exact hlast hi
        obtain ⟨k, hk, hi, hlatest⟩ := ih ⟨k, by omega, hi⟩
        refine ⟨k, by omega, hi, ?_⟩
        intro m hkm hm
        rcases Nat.lt_succ_iff_lt_or_eq.mp hm with hlt | rfl
        · exact hlatest m hkm hlt
        · rw [hi]
          exact hlast

namespace ShmRing

/-- Stores into the payload of a slot. -/
def storeAll (r : ShmRing) (i : ℕ) (stores : List (ℕ × Str)) : ShmRing :=
  r.setSlot i fun s =>
    { s with payload := stores.foldl (fun p x => store p x.1 x.2) s.payload }

variable {r r' : ShmRing} {e : Option Committed} {started : List (Option Committed)}

theorem storeAll_cons (i : ℕ) (x : ℕ × Str) (stores : List (ℕ × Str)) :
    r.storeAll i (x :: stores) = (r.storePayload i x.1 x.2).storeAll i stores := by
  simp [storeAll, storePayload, setSlot]

/-- What one reservation does: its slot holds what became of it. -/
structure Advance (r r' : ShmRing) (reserved : ReservedSlot) (e : Option Committed) : Prop where
  slotSize : r'.slotSize = r.slotSize
  slotCount : r'.slotCount = r.slotCount
  writeCursor : r'.writeCursor = u64 (r.writeCursor + 1)
  others : ∀ j, j ≠ reserved.slotIndex → r'.slots j = r.slots j
  holds : (r'.slots reserved.slotIndex).Holds reserved e
  entry : ∀ c, e = some c →
    c.handle = handleOf reserved c.bytes.length ∧ c.bytes.length ≤ r.slotSize

theorem reserveWrite_of_le {size : ℕ} (hle : ¬ r.slotSize < size) : r.reserveWrite size =
    (r.fetchAdd.storeSeq (r.reservation r.writeCursor).slotIndex
      (r.reservation r.writeCursor).beginSeq, some (r.reservation r.writeCursor)) := by
  rw [reserveWrite, if_neg hle]

theorem advance_abandon (r : ShmRing) (stores : List (ℕ × Str)) :
    Advance r ((r.fetchAdd.storeSeq (r.reservation r.writeCursor).slotIndex
      (r.reservation r.writeCursor).beginSeq).storeAll (r.reservation r.writeCursor).slotIndex
        stores) (r.reservation r.writeCursor) none where
  slotSize := rfl
  slotCount := rfl
  writeCursor := rfl
  others j hj := by
    rw [storeAll, slots_setSlot_of_ne _ hj, storeSeq, slots_setSlot_of_ne _ hj, slots_fetchAdd]
  holds := by
    rw [storeAll, slots_setSlot_self, storeSeq, slots_setSlot_self]
    rfl
  entry c hc := by cases hc

theorem slotIndex_handleOf (reserved : ReservedSlot) (size : ℕ) :
    (handleOf reserved size).slotIndex = reserved.slotIndex := rfl

theorem advance_commit {r' : ShmRing} {reserved : ReservedSlot} {size : ℕ}
    (h : Advance r r' reserved none) (hsize : size ≤ r.slotSize) :
    Advance r (r'.commitWrite reserved size).1 reserved
      (some ⟨handleOf reserved size, bytesAt (r'.slots reserved.slotIndex).payload 0 size⟩) where
  slotSize := h.slotSize
  slotCount := h.slotCount
  writeCursor := h.writeCursor
  others j hj := by
    simp only [commitWrite, slotIndex_handleOf]
    rw [storeSeq, slots_setSlot_of_ne _ hj, storeSize, slots_setSlot_of_ne _ hj, h.others j hj]
  holds := by
    simp only [commitWrite, slotIndex_handleOf]
    rw [storeSeq, slots_setSlot_self, storeSize, slots_setSlot_self]
    constructor
    · rfl
    · rw [length_bytesAt]
  entry c hc := by
    obtain rfl := Option.some.inj hc
    rw [length_bytesAt]
    exact ⟨rfl, hsize⟩

/-- What the slots hold after a history of reservations. -/
structure Holds (r : ShmRing) (started : List (Option Committed)) : Prop where
  writeCursor : r.writeCursor = u64 started.length
  untouched : ∀ i, (∀ k < started.length, (reservationOf r.slotCount k).slotIndex ≠ i) →
    (r.slots i).seq = 0
  latest : ∀ k e, started[k]? = some e → IsLatest r.slotCount started.length k →
    (r.slots (reservationOf r.slotCount k).slotIndex).Holds (reservationOf r.slotCount k) e
  entry : ∀ k c, started[k]? = some (some c) →
    c.handle = handleOf (reservationOf r.slotCount k) c.bytes.length ∧
      c.bytes.length ≤ r.slotSize

/-- What the sequence word of a slot is, by the latest reservation that got the slot. -/
theorem Holds.seq_eq (h : Holds r started) {k : ℕ} (hk : started[k]? = some e)
    (hlatest : IsLatest r.slotCount started.length k) :
    (r.slots (reservationOf r.slotCount k).slotIndex).seq =
      if e.isSome then u64 ((reservationOf r.slotCount k).beginSeq + 1)
      else (reservationOf r.slotCount k).beginSeq := by
  have hslot := h.latest k e hk hlatest
  cases e with
  | none => exact hslot
  | some c =>
      rw [hslot.1, (h.entry k c hk).1]
      rfl

theorem Holds.reservation_eq (h : Holds r started) :
    r.reservation r.writeCursor = reservationOf r.slotCount started.length := by
  rw [reservation, indexOf, h.writeCursor, reservationOf]

theorem holds_create (slotSize slotCount : ℕ) :
    Holds { slotSize := slotSize, slotCount := slotCount } [] where
  writeCursor := rfl
  untouched i hi := rfl
  latest k e hk := by simp at hk
  entry k c hk := by simp at hk

/-- An entry is the new one or was there before. -/
theorem getElem?_append_singleton {k : ℕ} {e' : Option Committed}
    (h : (started ++ [e])[k]? = some e') :
    k < started.length ∧ started[k]? = some e' ∨ k = started.length ∧ e = e' := by
  rcases Nat.lt_trichotomy k started.length with hlt | rfl | hgt
  · rw [List.getElem?_append_left hlt] at h
    exact .inl ⟨hlt, h⟩
  · rw [List.getElem?_concat_length] at h
    exact .inr ⟨rfl, Option.some.inj h⟩
  · rw [List.getElem?_eq_none (by rw [List.length_append, List.length_singleton]; omega)] at h
    cases h

/-- One more reservation. -/
theorem Holds.advance (h : Holds r started)
    (ha : Advance r r' (r.reservation r.writeCursor) e) : Holds r' (started ++ [e]) := by
  rw [h.reservation_eq] at ha
  constructor
  · rw [ha.writeCursor, h.writeCursor, List.length_append, List.length_singleton]
    unfold u64
    omega
  · intro i hi
    rw [ha.slotCount, List.length_append, List.length_singleton] at hi
    rw [ha.others i (hi started.length (by omega)).symm]
    apply h.untouched
    intro k hk
    exact hi k (by omega)
  · intro k e' hk hlatest
    rw [ha.slotCount] at hlatest ⊢
    rw [List.length_append, List.length_singleton] at hlatest
    rcases getElem?_append_singleton hk with ⟨hlt, hold⟩ | ⟨rfl, rfl⟩
    · rw [ha.others _ (hlatest started.length hlt (by omega)).symm]
      apply h.latest k e' hold
      intro m hkm hm
      exact hlatest m hkm (by omega)
    · exact ha.holds
  · intro k c hk
    rw [ha.slotCount, ha.slotSize]
    rcases getElem?_append_singleton hk with ⟨-, hold⟩ | ⟨rfl, rfl⟩
    · exact h.entry k c hold
    · exact ha.entry c rfl

end ShmRing

/-! ## Runs -/

namespace WriterMapping

variable {w : WriterMapping} {r : ShmRing} {i : ℕ} {stores : List (ℕ × Str)}

@[simp] theorem toGeometry_storeAll : (w.storeAll i stores).toGeometry = w.toGeometry := by
  induction stores generalizing w with
  | nil => rfl
  | cons x stores ih => exact ih

theorem Shows.storeAll (h : Shows w r) (happ : w.SlotsApart) (hi : i < w.slotCount)
    (hfit : ∀ x ∈ stores, x.1 + x.2.length ≤ w.slotSize) :
    Shows (w.storeAll i stores) (r.storeAll i stores) := by
  induction stores generalizing w r with
  | nil =>
      have hsame : r.storeAll i [] = r := by simp [ShmRing.storeAll, ShmRing.setSlot]
      rw [hsame]
      exact h
  | cons x stores ih =>
      rw [ShmRing.storeAll_cons]
      have hfirst := h.storePayload happ hi (hfit x List.mem_cons_self)
      exact ih hfirst happ hi fun y hy => hfit y (List.mem_cons_of_mem _ hy)

theorem bytesAt_storePayload_zero (w : WriterMapping) (i : ℕ) (data : Str) :
    bytesAt (w.storePayload i 0 data).mem (w.slotPayload i) data.length = data := by
  have hlt : w.slotPayload i < 2 ^ 64 := Nat.mod_lt _ (by norm_num)
  rw [storePayload, Nat.add_zero, u64_of_lt hlt, mem_storeAt, bytesAt_store_self]

end WriterMapping

namespace WriterRun

variable {s t : WriterRun} {r : ShmRing} {op : RingOp} {ops : List RingOp}

/-- `write` is a reservation that is filled and committed. -/
theorem perform_write (s : WriterRun) (data : Str) : s.perform (.write data) =
    s.perform (.commit data.length ⟨[(0, data)], by simp⟩ data.length le_rfl) := by
  simp only [perform, WriterMapping.write, WriterMapping.reserveWrite]
  by_cases hsize : s.ring.slotSize < data.length
  · rw [if_pos hsize]
    simp [hsize]
  · rw [if_neg hsize]
    by_cases hcount : s.ring.slotCount = 0
    · rw [if_pos hcount]
    · rw [if_neg hcount]
      simp only [WriterMapping.storeAll, List.foldl_cons, List.foldl_nil, if_neg hsize,
        WriterMapping.toGeometry_storePayload, WriterMapping.bytesAt_storePayload_zero]

/-- A request that is too long changes nothing, on any ring. -/
theorem perform_of_lt (h : s.ring.slotSize < op.size) : s.perform op = some s := by
  have hreserve : s.ring.reserveWrite op.size = some (s.ring, none) := by
    rw [WriterMapping.reserveWrite, if_pos h]
  cases op with
  | write data =>
      simp only [RingOp.size] at h hreserve
      simp [perform, WriterMapping.write, hreserve, h]
  | commit reserved filling size hsize =>
      simp only [RingOp.size] at hreserve
      simp only [perform, hreserve]
  | abandon reserved filling =>
      simp only [RingOp.size] at hreserve
      simp only [perform, hreserve]

/-- A reservation of which a caller fills a part. -/
theorem reserve_storeAll (h : s.ring.Shows r) (happ : s.ring.SlotsApart)
    (hcount : 0 < s.ring.slotCount) {reserved : ℕ} (hsize : reserved ≤ s.ring.slotSize)
    (filling : Filling reserved) : ∃ ring,
      s.ring.reserveWrite reserved = some (ring, some (r.reservation r.writeCursor)) ∧
      (r.reservation r.writeCursor).slotIndex < s.ring.slotCount ∧
      ring.toGeometry = s.ring.toGeometry ∧
      ∃ r', (ring.storeAll (r.reservation r.writeCursor).slotIndex filling.stores).Shows r' ∧
        r.Advance r' (r.reservation r.writeCursor) none := by
  obtain ⟨ring, hring, hgeometry, hshows⟩ := h.reserveWrite happ hcount reserved
  have hle : ¬ r.slotSize < reserved := by
    rw [h.slotSize]
    exact not_lt.mpr hsize
  rw [ShmRing.reserveWrite_of_le hle] at hring hshows
  have hindex : (r.reservation r.writeCursor).slotIndex < s.ring.slotCount := by
    rw [← h.slotCount] at hcount ⊢
    exact (Nat.mod_le ..).trans_lt (Nat.mod_lt _ hcount)
  refine ⟨ring, hring, hindex, hgeometry, _, ?_, r.advance_abandon filling.stores⟩
  refine hshows.storeAll (hgeometry ▸ happ) (hgeometry ▸ hindex) ?_
  intro x hx
  rw [hgeometry]
  exact (filling.inside x hx).trans hsize

/-- A request that a slot has room for starts a reservation. -/
theorem perform_of_le (h : s.ring.Shows r) (happ : s.ring.SlotsApart)
    (hcount : 0 < s.ring.slotCount) (hsize : op.size ≤ s.ring.slotSize) :
    ∃ ring r' e, s.perform op = some ⟨ring, s.started ++ [e]⟩ ∧
      ring.toGeometry = s.ring.toGeometry ∧ ring.Shows r' ∧
      r.Advance r' (r.reservation r.writeCursor) e := by
  have hcommit : ∀ (reserved : ℕ) (filling : Filling reserved) (size : ℕ) (hle : size ≤ reserved),
      reserved ≤ s.ring.slotSize → ∃ ring r' e,
      s.perform (.commit reserved filling size hle) = some ⟨ring, s.started ++ [e]⟩ ∧
        ring.toGeometry = s.ring.toGeometry ∧ ring.Shows r' ∧
        r.Advance r' (r.reservation r.writeCursor) e := by
    intro reserved filling size hle hreserved
    obtain ⟨ring, hring, hindex, hgeometry, r', hshows, hadvance⟩ :=
      reserve_storeAll h happ hcount hreserved filling
    have hfit : size ≤ s.ring.slotSize := hle.trans hreserved
    have hsame : (ring.storeAll (r.reservation r.writeCursor).slotIndex
        filling.stores).toGeometry = s.ring.toGeometry := by
      rw [WriterMapping.toGeometry_storeAll, hgeometry]
    have hbytes := hshows.bytesAt_payload (hsame ▸ hindex) (hsame ▸ hfit)
    simp only [perform, hring]
    refine ⟨_, _, _, rfl, hsame, hshows.commitWrite (hsame ▸ happ) (hsame ▸ hindex), ?_⟩
    rw [hbytes]
    exact ShmRing.advance_commit hadvance (h.slotSize ▸ hfit)
  cases op with
  | write data =>
      rw [perform_write]
      exact hcommit _ _ _ _ hsize
  | commit reserved filling size hle => exact hcommit _ _ _ _ hsize
  | abandon reserved filling =>
      obtain ⟨ring, hring, -, hgeometry, r', hshows, hadvance⟩ :=
        reserve_storeAll h happ hcount (show reserved ≤ s.ring.slotSize from hsize) filling
      simp only [perform, hring]
      refine ⟨_, _, _, rfl, ?_, hshows, hadvance⟩
      rw [WriterMapping.toGeometry_storeAll, hgeometry]

/-- The bytes are those of a ring that had this history. -/
structure Sound (g : Geometry) (s : WriterRun) : Prop where
  toGeometry : s.ring.toGeometry = g
  slots : ∃ r, s.ring.Shows r ∧ r.Holds s.started

variable {g : Geometry} {mem : Bytes} {k : ℕ} {c : Committed}

theorem sound_create (h : g.Created mem) (happ : g.SlotsApart) : Sound g (create g mem) where
  toGeometry := rfl
  slots := ⟨_, WriterMapping.shows_create h happ, ShmRing.holds_create ..⟩

/-- An operation can be performed, and starts a reservation unless its request is too long. -/
theorem Sound.perform (h : Sound g s) (happ : g.SlotsApart) (hcount : 0 < g.slotCount)
    (op : RingOp) : ∃ t, s.perform op = some t ∧ Sound g t ∧
      t.started.length = s.started.length + if op.size ≤ g.slotSize then 1 else 0 := by
  obtain ⟨rfl, r, hshows, hholds⟩ := h
  by_cases hsize : op.size ≤ s.ring.slotSize
  · obtain ⟨ring, r', e, hperform, hgeometry, hshows', hadvance⟩ :=
      perform_of_le hshows happ hcount hsize
    refine ⟨_, hperform, ⟨hgeometry, r', hshows', hholds.advance hadvance⟩, ?_⟩
    rw [if_pos hsize, List.length_append, List.length_singleton]
  · refine ⟨s, perform_of_lt (not_le.mp hsize), ⟨rfl, r, hshows, hholds⟩, ?_⟩
    rw [if_neg hsize, Nat.add_zero]

/-- The operations that start a reservation. -/
def starts (g : Geometry) (ops : List RingOp) : ℕ := ops.countP fun op => op.size ≤ g.slotSize

theorem Sound.exec (h : Sound g s) (happ : g.SlotsApart) (hcount : 0 < g.slotCount)
    (ops : List RingOp) : ∃ t, exec WriterRun.perform s ops = some t ∧ Sound g t ∧
      t.started.length = s.started.length + starts g ops := by
  induction ops generalizing s with
  | nil => exact ⟨s, rfl, h, rfl⟩
  | cons op ops ih =>
      obtain ⟨u, hu, hsound, hlength⟩ := h.perform happ hcount op
      obtain ⟨t, ht, hsound', hlength'⟩ := ih hsound
      refine ⟨t, ?_, hsound', ?_⟩
      · rw [exec_cons, hu, Option.bind_some, ht]
      · rw [hlength', hlength, starts, starts, List.countP_cons]
        simp only [decide_eq_true_eq]
        omega

/-- Which handles are still good. -/
theorem Sound.read_eq (h : Sound g s) (hcount : 0 < g.slotCount) (hlt : g.slotCount < 2 ^ 32)
    (hsize : g.slotSize < 2 ^ 32) (hcursor : s.started.length < 2 ^ 63 - 1)
    (hk : s.started[k]? = some (some c)) :
    s.ring.read c.handle =
      if s.started.length - (k + 1) < g.slotCount then some c.bytes else none := by
  obtain ⟨rfl, r, hshows, hholds⟩ := h
  have hlen := (List.getElem?_eq_some_iff.mp hk).1
  obtain ⟨hhandle, hfit⟩ := hholds.entry k c hk
  rw [hshows.slotSize] at hfit
  have hslots := hshows.slotCount
  have hseq : c.handle.seq = 2 * k + 2 := by
    rw [hhandle]
    simp only [ShmRing.handleOf]
    rw [beginSeq_reservationOf (by omega), u64_of_lt (by omega)]
  have hindex : c.handle.slotIndex = (reservationOf r.slotCount k).slotIndex := by
    rw [hhandle]
    rfl
  have hbytes : c.handle.size = c.bytes.length := by
    rw [hhandle]
    exact u32_of_lt (by omega)
  have hin : c.handle.slotIndex < s.ring.slotCount := by
    rw [hindex, slotIndex_reservationOf (by omega) (by omega) (by omega), hslots]
    exact Nat.mod_lt _ hcount
  rw [hshows.read_eq hin (by omega)]
  have hlatest := isLatest_iff (k := k) (hslots ▸ hcount) (hslots ▸ hlt) hcursor hlen
  by_cases hwindow : s.started.length - (k + 1) < s.ring.slotCount
  · have hslot := hholds.latest k _ hk (hlatest.mpr (by omega))
    rw [← hindex] at hslot
    rw [if_pos ⟨hslot.1, by omega⟩, if_pos hwindow, hbytes, hslot.2]
  · -- The slot has been given away, to a reservation with another number.
    obtain ⟨m, hm, hslot, hmlatest⟩ := exists_isLatest (i := c.handle.slotIndex)
      ⟨k, hlen, hindex.symm⟩
    have hmk : m ≠ k := by
      rintro rfl
      have := hlatest.mp hmlatest
      omega
    have hmseq := hholds.seq_eq (List.getElem?_eq_getElem hm) hmlatest
    rw [hslot, beginSeq_reservationOf (by omega), u64_of_lt (by omega)] at hmseq
    have hne : (r.slots c.handle.slotIndex).seq ≠ c.handle.seq := by
      rw [hmseq, hseq]
      split <;> omega
    rw [if_neg fun hand => hne hand.1, if_neg hwindow]

/-- **The retention window.**  On every ring, after every sequence of operations, a handle
that was returned by a commit reads what was committed until `slotCount` more reservations
have been started, and nothing from then on; through the writer, and for every reader
whenever it opened the segment. A request that is too long counts for nothing, and a
reservation that was given up counts. -/
theorem retention_window (g : Geometry) (mem : Bytes) (hcreated : g.Created mem)
    (hcount : 1 ≤ g.slotCount) (hsize : g.slotSize < 2 ^ 32) (before after : List RingOp)
    (hcursor : starts g (before ++ after) < 2 ^ 63 - 1) :
    ∃ s t, exec perform (create g mem) before = some s ∧ exec perform s after = some t ∧
      t.ring.writeCursor = starts g (before ++ after) ∧
      t.started.length = t.ring.writeCursor ∧
      ∀ k c, t.started[k]? = some (some c) →
        (t.ring.read c.handle =
          if t.started.length - (k + 1) < g.slotCount then some c.bytes else none) ∧
        ∀ reader, MappedRing.openAsReader s.ring.mem true = some reader →
          reader.read t.ring.mem c.handle =
            if t.started.length - (k + 1) < g.slotCount then some c.bytes else none := by
  have happ := hcreated.slotsApart (by omega)
  have hlt := hcreated.slotCount_lt
  obtain ⟨s, hs, hsound, hlength⟩ := (sound_create hcreated happ).exec happ hcount before
  obtain ⟨t, ht, hsound', hlength'⟩ := hsound.exec happ hcount after
  have hstarted : t.started.length = starts g (before ++ after) := by
    rw [hlength', hlength, starts, starts, starts, List.countP_append]
    exact congrArg (· + _) (Nat.zero_add _)
  have hwriteCursor : t.ring.writeCursor = t.started.length := by
    obtain ⟨r, hshows, hholds⟩ := hsound'.slots
    rw [← hshows.writeCursor, hholds.writeCursor, u64_of_lt (by omega)]
  refine ⟨s, t, hs, ht, by omega, hwriteCursor.symm, ?_⟩
  intro k c hk
  have hread := hsound'.read_eq hcount hlt hsize (by omega) hk
  refine ⟨hread, ?_⟩
  intro reader hreader
  obtain ⟨r, hshows, -⟩ := hsound.slots
  have hagree := hshows.layoutAgrees (hsound.toGeometry ▸ hsize) (hsound.toGeometry ▸ hlt) hreader
  have hsame : g.read t.ring.mem c.handle = t.ring.read c.handle := by
    rw [WriterMapping.read, hsound'.toGeometry]
  rw [hagree.read_eq, hsound.toGeometry, hsame]
  exact hread

/-- Two writes, a reservation that is given up and a request that is too long. -/
def someOps : List RingOp :=
  [.write [7, 8], .abandon 5 ⟨[(1, [9])], by decide⟩, .abandon 4097 ⟨[], by decide⟩, .write [1]]

theorem retention_window_page : ∃ mem, ∃ s t,
    exec perform (create .pageRing mem) [] = some s ∧ exec perform s someOps = some t ∧
      t.ring.writeCursor = starts .pageRing someOps ∧
      t.started.length = t.ring.writeCursor ∧
      ∀ k c, t.started[k]? = some (some c) →
        (t.ring.read c.handle =
          if t.started.length - (k + 1) < 4 then some c.bytes else none) ∧
        ∀ reader, MappedRing.openAsReader s.ring.mem true = some reader →
          reader.read t.ring.mem c.handle =
            if t.started.length - (k + 1) < 4 then some c.bytes else none := by
  obtain ⟨mem, h⟩ := Geometry.pageRing_created
  exact ⟨mem, retention_window .pageRing mem h (by decide) (by decide) [] someOps (by decide)⟩

/-! ## A write that failed -/

/-- On a ring without slots nothing happens. -/
theorem eq_of_no_slots (hcount : s.ring.slotCount = 0) (h : exec perform s ops = some t) :
    t = s := by
  have hreserve : ∀ size, ¬ s.ring.slotSize < size → s.ring.reserveWrite size = none := by
    intro size hle
    rw [WriterMapping.reserveWrite, if_neg hle, if_pos hcount]
  induction ops with
  | nil => exact (Option.some.inj h).symm
  | cons op ops ih =>
      obtain ⟨u, hu, hut⟩ := Option.bind_eq_some_iff.mp h
      by_cases hlong : s.ring.slotSize < op.size
      · rw [perform_of_lt hlong] at hu
        obtain rfl := Option.some.inj hu
        exact ih hut
      · have hnone := hreserve op.size hlong
        cases op with
        | write data =>
            simp only [RingOp.size] at hnone
            simp [perform, WriterMapping.write, hnone] at hu
        | commit reserved filling size hsize =>
            simp only [RingOp.size] at hnone
            simp [perform, hnone] at hu
        | abandon reserved filling =>
            simp only [RingOp.size] at hnone
            simp [perform, hnone] at hu

theorem seq_eq_zero_iff (slotCount k : ℕ) :
    u64 ((reservationOf slotCount k).beginSeq + 1) = 0 ↔ 2 ^ 63 ∣ k + 1 := by
  simp only [reservationOf, u64]
  omega

/-- Slot 0 has another sequence value than 0 once it was given away, unless the commit that
it holds has come round to 0. -/
theorem seq_ne_zero_iff {r : ShmRing} {started : List (Option Committed)}
    (hholds : r.Holds started) : (r.slots 0).seq ≠ 0 ↔
      ∃ k e, started[k]? = some e ∧ IsLatest r.slotCount started.length k ∧
        (reservationOf r.slotCount k).slotIndex = 0 ∧ (e.isSome → ¬ 2 ^ 63 ∣ k + 1) := by
  constructor
  · intro hne
    have htaken : ∃ k < started.length, (reservationOf r.slotCount k).slotIndex = 0 := by
      by_contra hnone
      apply hne
      apply hholds.untouched
      intro k hk hzero
      exact hnone ⟨k, hk, hzero⟩
    obtain ⟨k, hk, hzero, hlatest⟩ := exists_isLatest htaken
    have hget := List.getElem?_eq_getElem hk
    refine ⟨k, _, hget, hlatest, hzero, ?_⟩
    intro hsome hdvd
    have hseq := hholds.seq_eq hget hlatest
    rw [hzero, if_pos hsome, (seq_eq_zero_iff _ k).mpr hdvd] at hseq
    exact hne hseq
  · intro hex
    obtain ⟨k, e, hk, hlatest, hzero, hcommit⟩ := hex
    have hseq := hholds.seq_eq hk hlatest
    rw [hzero] at hseq
    rw [hseq]
    split
    case isTrue hsome =>
      intro h
      exact hcommit hsome ((seq_eq_zero_iff _ k).mp h)
    case isFalse =>
      simp only [reservationOf, u64]
      omega

/-- The handle of a failed write reads nothing if slot 0 has another sequence value than 0. -/
theorem read_null_eq_none_iff (w : WriterMapping) :
    w.read {} = none ↔ w.loadSeq w.mem 0 ≠ 0 := by
  rw [WriterMapping.read, Geometry.read_eq]
  by_cases h : w.loadSeq w.mem 0 = 0 <;> simp [h]

/-- **Which failed writes cannot be read.**  The handle of a failed write names slot 0 and
the sequence value 0, and that is the value of a slot that was never given away. -/
theorem failed_write_unreadable_iff (g : Geometry) (mem : Bytes) (hcreated : g.Created mem)
    (ops : List RingOp) (s : WriterRun) (hs : exec perform (create g mem) ops = some s)
    (data : Str) (hlong : g.slotSize < data.length) (hobject : data.length < 2 ^ 63) :
    ∃ ring handle, s.ring.write data = some (ring, handle) ∧
      (ring.read handle = none ↔
        ∃ k e, s.started[k]? = some e ∧ IsLatest g.slotCount s.started.length k ∧
          (reservationOf g.slotCount k).slotIndex = 0 ∧ (e.isSome → ¬ 2 ^ 63 ∣ k + 1)) := by
  have happ := hcreated.slotsApart (by omega)
  have hwrite : s.ring.slotSize = g.slotSize → s.ring.write data = some (s.ring, {}) := by
    intro hsize
    rw [WriterMapping.write, WriterMapping.reserveWrite, if_pos (by omega)]
  by_cases hcount : g.slotCount = 0
  · obtain rfl := eq_of_no_slots (s := create g mem) hcount hs
    refine ⟨_, _, hwrite rfl, ?_⟩
    rw [read_null_eq_none_iff]
    constructor
    · intro hne
      exfalso
      apply hne
      apply load_eq_zero
      intro i hi
      apply (hcreated.mem_eq happ).2
      change sizeofRingHeader ≤ g.slotHeader 0 + i
      rw [Geometry.slotHeader, Nat.zero_mul]
      exact Nat.le_add_right_of_le (by decide)
    · intro hex
      obtain ⟨k, e, hk, -⟩ := hex
      cases hk
  · have hpos := Nat.pos_of_ne_zero hcount
    obtain ⟨t, ht, hsound, -⟩ := (sound_create hcreated happ).exec happ hpos ops
    rw [hs] at ht
    obtain rfl := Option.some.inj ht
    obtain ⟨rfl, r, hshows, hholds⟩ := hsound
    refine ⟨_, _, hwrite rfl, ?_⟩
    rw [read_null_eq_none_iff, hshows.seq 0 hpos, ← hshows.slotCount]
    exact seq_ne_zero_iff hholds

theorem failed_write_unreadable_iff_page : ∃ mem s, ∃ ring handle,
    exec perform (create .pageRing mem) someOps = some s ∧
      s.ring.write (List.replicate 4097 0) = some (ring, handle) ∧
      (ring.read handle = none ↔
        ∃ k e, s.started[k]? = some e ∧ IsLatest 4 s.started.length k ∧
          (reservationOf 4 k).slotIndex = 0 ∧ (e.isSome → ¬ 2 ^ 63 ∣ k + 1)) := by
  obtain ⟨mem, h⟩ := Geometry.pageRing_created
  obtain ⟨s, hs, -⟩ := (sound_create h (h.slotsApart (by decide))).exec
    (h.slotsApart (by decide)) (by decide) someOps
  obtain ⟨ring, handle, hwrite⟩ := failed_write_unreadable_iff .pageRing mem h someOps s hs
    (List.replicate 4097 0) (by rw [List.length_replicate]; decide)
    (by rw [List.length_replicate]; norm_num)
  exact ⟨mem, s, ring, handle, hs, hwrite⟩

/-- **A failed write that is read.**  Nothing was ever written to the ring. -/
theorem failed_write_readable : ∃ mem, Geometry.pageRing.Created mem ∧
    ∃ ring handle,
      (create .pageRing mem).ring.write (List.replicate 4097 0) = some (ring, handle) ∧
      ring.read handle = some [] := by
  obtain ⟨mem, h⟩ := Geometry.pageRing_created
  have happ := h.slotsApart (by decide)
  have hwrite : (create .pageRing mem).ring.write (List.replicate 4097 0) =
      some (.create .pageRing mem, {}) := by
    rw [WriterMapping.write, WriterMapping.reserveWrite, if_pos]
    · rfl
    · rw [List.length_replicate]
      exact Nat.lt_succ_self 4096
  refine ⟨mem, h, _, _, hwrite, ?_⟩
  have hseq := (WriterMapping.shows_create h happ).seq 0 (Nat.succ_pos 3)
  rw [WriterMapping.read, Geometry.read_eq]
  exact if_pos ⟨hseq, rfl⟩

end WriterRun
end RfTrans
