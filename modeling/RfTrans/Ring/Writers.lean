import Mathlib.Data.Fintype.Basic
import RfTrans.Lib.Exec
import RfTrans.Lib.Interleaving
import RfTrans.Ring.SharedRing

/-!
# Threads publishing through one ring

`fetch_add` makes cursor values unique but not slots: a thread that stalls while
the others go once round the ring meets another reservation in its slot.  The
condition under which that does not happen is `NoLap`, and it is exact: a run in
which the cursor does not wrap keeps its writers apart if and only if every
reservation is made without a lap.

## Main definitions

* `SharedRing.Holds` — a thread has an uncommitted reservation of a slot.
* `SharedRing.NoLap` — a reservation is made only while no thread holds the slot
  that the cursor selects.
* `SharedRing.WriterInv` — how reservations and sequence words belong together.
* `SharedRing.WritersNeverShare` — the property of a whole run.
-/

namespace RfTrans
namespace SharedRing

open Exec

variable {ω ρ : Type}

/-- The thread holds an uncommitted reservation of slot `i`. -/
def Holds (s : SharedRing ω ρ) (w : ω) (i : ℕ) : Prop :=
  match s.writers w with
  | .idle => False
  | .claimed cursor _ => i = s.ring.indexOf cursor
  | .writing reserved _ => i = reserved.slotIndex
  | .sized reserved _ => i = reserved.slotIndex

/-- The thread is writing the payload of slot `i`. -/
def WritesPayload (s : SharedRing ω ρ) (w : ω) (i : ℕ) : Prop :=
  match s.writers w with
  | .writing reserved _ => i = reserved.slotIndex
  | _ => False

/-- A `fetch_add` is taken only while no thread holds the slot that the cursor
selects: the reservation one lap earlier has ended. -/
def NoLap (s : SharedRing ω ρ) : Action ω ρ → Prop
  | .fetchAdd w size => s.writers w = .idle → size ≤ s.ring.slotSize →
      ∀ w', ¬ s.Holds w' (s.ring.indexOf s.ring.writeCursor)
  | _ => True

/-- The write cursor stays below `2 ^ 63 - 1`, so no sequence value wraps. -/
def CursorBounded (s : SharedRing ω ρ) : Action ω ρ → Prop
  | .fetchAdd _ _ => s.ring.writeCursor < 2 ^ 63 - 1
  | _ => True

/-- What the sequence word of a held slot says about the reservation: older than
the cursor value before the odd store, the odd value of the cursor after it. -/
def Marked (s : SharedRing ω ρ) (w : ω) : Prop :=
  match s.writers w with
  | .idle => True
  | .claimed c _ => c < s.ring.writeCursor ∧ s.seqOf (s.ring.indexOf c) ≤ 2 * c
  | .writing v _ => ∃ c < s.ring.writeCursor,
      v = ⟨s.ring.indexOf c, 2 * c + 1⟩ ∧ s.seqOf v.slotIndex = 2 * c + 1
  | .sized v _ => ∃ c < s.ring.writeCursor,
      v = ⟨s.ring.indexOf c, 2 * c + 1⟩ ∧ s.seqOf v.slotIndex = 2 * c + 1

instance (s : SharedRing ω ρ) (w : ω) (i : ℕ) : Decidable (s.Holds w i) := by
  unfold Holds
  split <;> infer_instance

instance [Fintype ω] (s : SharedRing ω ρ) : ∀ a, Decidable (NoLap s a)
  | .fetchAdd _ _ => inferInstanceAs (Decidable (_ → _ → ∀ _, ¬ _))
  | .storeOdd _ | .writeByte _ _ _ | .storeSize _ _ | .storeEven _ | .abandon _
  | .beginRead _ _ | .copyByte _ _ | .finishRead _ => isTrue trivial

instance (s : SharedRing ω ρ) : ∀ a, Decidable (CursorBounded s a)
  | .fetchAdd _ _ => inferInstanceAs (Decidable (_ < _))
  | .storeOdd _ | .writeByte _ _ _ | .storeSize _ _ | .storeEven _ | .abandon _
  | .beginRead _ _ | .copyByte _ _ | .finishRead _ => isTrue trivial

/-- How cursor, sequence words and reservations belong together in every state of
a run without laps. -/
structure WriterInv (s : SharedRing ω ρ) : Prop where
  cursor_lt : s.ring.writeCursor < 2 ^ 63
  seq_le : ∀ i, s.seqOf i ≤ 2 * s.ring.writeCursor
  marked : ∀ w, s.Marked w
  apart : ∀ w w' i, s.Holds w i → s.Holds w' i → w = w'

theorem writerInv_create (slotSize slotCount : ℕ) :
    WriterInv (create slotSize slotCount : SharedRing ω ρ) where
  cursor_lt := by simp [create]
  seq_le := by intro i; simp [create, seqOf]
  marked := by intro w; simp [create, Marked]
  apart := by intro w w' i h; simp [create, Holds] at h

theorem reservation_eq (r : ShmRing) {c : ℕ} (h : c < 2 ^ 63) :
    r.reservation c = ⟨r.indexOf c, 2 * c + 1⟩ := by
  unfold ShmRing.reservation
  rw [u64_of_lt (by omega)]

theorem handleOf_seq {i c n : ℕ} (h : c + 1 < 2 ^ 63) :
    (ShmRing.handleOf ⟨i, 2 * c + 1⟩ n).seq = 2 * c + 2 := by
  change u64 (2 * c + 1 + 1) = 2 * c + 2
  rw [u64_of_lt (by omega)]

/-- A step of one thread leaves what the other threads hold alone. -/
theorem holds_congr {s t : SharedRing ω ρ} {w : ω} {i : ℕ} (hw : t.writers w = s.writers w)
    (hr : t.ring.slotCount = s.ring.slotCount) : t.Holds w i ↔ s.Holds w i := by
  unfold Holds ShmRing.indexOf
  rw [hw, hr]

/-- The invariant of a thread that the step does not move, in a slot that the step
does not mark. -/
theorem marked_congr {s t : SharedRing ω ρ} {w : ω} (hw : t.writers w = s.writers w)
    (hr : t.ring.slotCount = s.ring.slotCount)
    (hcur : s.ring.writeCursor ≤ t.ring.writeCursor)
    (hseq : ∀ i, s.Holds w i → t.seqOf i = s.seqOf i) (h : s.Marked w) : t.Marked w := by
  have hidx : ∀ c, t.ring.indexOf c = s.ring.indexOf c := by
    intro c
    unfold ShmRing.indexOf
    rw [hr]
  unfold Marked at h ⊢
  rw [hw]
  cases hpc : s.writers w with
  | idle => trivial
  | claimed c n =>
      rw [hpc] at h
      have hs : t.seqOf (s.ring.indexOf c) = s.seqOf (s.ring.indexOf c) :=
        hseq _ (by simp [Holds, hpc])
      exact ⟨Nat.lt_of_lt_of_le h.1 hcur, by rw [hidx, hs]; exact h.2⟩
  | writing v n =>
      rw [hpc] at h
      obtain ⟨c, hc, hv, hs⟩ := h
      have hs' : t.seqOf v.slotIndex = s.seqOf v.slotIndex := hseq _ (by simp [Holds, hpc])
      exact ⟨c, Nat.lt_of_lt_of_le hc hcur, by rw [hidx, hv], by rw [hs', hs]⟩
  | sized v n =>
      rw [hpc] at h
      obtain ⟨c, hc, hv, hs⟩ := h
      have hs' : t.seqOf v.slotIndex = s.seqOf v.slotIndex := hseq _ (by simp [Holds, hpc])
      exact ⟨c, Nat.lt_of_lt_of_le hc hcur, by rw [hidx, hv], by rw [hs', hs]⟩

theorem WriterInv.of_claimed {s : SharedRing ω ρ} (hi : WriterInv s) {w : ω} {c n : ℕ}
    (hw : s.writers w = .claimed c n) :
    c < s.ring.writeCursor ∧ s.seqOf (s.ring.indexOf c) ≤ 2 * c := by
  simpa [Marked, hw] using hi.marked w

theorem WriterInv.of_writing {s : SharedRing ω ρ} (hi : WriterInv s) {w : ω}
    {v : ReservedSlot} {n : ℕ} (hw : s.writers w = .writing v n ∨ s.writers w = .sized v n) :
    ∃ c < s.ring.writeCursor, v = ⟨s.ring.indexOf c, 2 * c + 1⟩ ∧
      s.seqOf v.slotIndex = 2 * c + 1 := by
  have h := hi.marked w
  unfold Marked at h
  rcases hw with hw | hw <;> rw [hw] at h <;> exact h

/-- Threads that give up or keep the slots they hold stay apart. -/
theorem WriterInv.apart_of_holds {s t : SharedRing ω ρ} (hi : WriterInv s)
    (h : ∀ w i, t.Holds w i → s.Holds w i) (w w' : ω) (i : ℕ) (hw : t.Holds w i)
    (hw' : t.Holds w' i) : w = w' :=
  hi.apart w w' i (h w i hw) (h w' i hw')

/-- A step in which thread `w` moves on and only slot `j`, which it holds, is
changed. What remains to be shown is about `w` and slot `j`. -/
theorem WriterInv.of_own_slot {s t : SharedRing ω ρ} (hi : WriterInv s) {w : ω} {j : ℕ}
    (hheld : s.Holds w j) (hcount : t.ring.slotCount = s.ring.slotCount)
    (hcur : t.ring.writeCursor = s.ring.writeCursor)
    (hwriters : ∀ w', w' ≠ w → t.writers w' = s.writers w')
    (hslots : ∀ i, i ≠ j → t.seqOf i = s.seqOf i) (hj : t.seqOf j ≤ 2 * s.ring.writeCursor)
    (hmarked : t.Marked w) (hholds : ∀ i, t.Holds w i → s.Holds w i) : WriterInv t where
  cursor_lt := hcur ▸ hi.cursor_lt
  seq_le := by
    intro i
    rw [hcur]
    by_cases h : i = j
    · exact h ▸ hj
    · exact hslots i h ▸ hi.seq_le i
  marked := by
    intro w'
    by_cases hw : w' = w
    · exact hw ▸ hmarked
    · refine marked_congr (hwriters w' hw) hcount (Nat.le_of_eq hcur.symm) ?_ (hi.marked w')
      rintro i hh
      refine hslots i ?_
      rintro rfl
      exact hw (hi.apart w' w i hh hheld)
  apart := by
    refine hi.apart_of_holds ?_
    intro w' i h
    by_cases hw : w' = w
    · exact hw ▸ hholds i (hw ▸ h)
    · exact (holds_congr (hwriters w' hw) hcount).mp h

variable [DecidableEq ω] [DecidableEq ρ]

/-- **Every atomic step is stable.**  A store of a sequence word moves it forwards,
and a payload byte is written only under an odd one. -/
theorem stable_step {s t : SharedRing ω ρ} {a : Action ω ρ} (hi : WriterInv s)
    (hs : Step s a t) : Seqlock.Stable seqOf payloadOf s t := by
  cases hs with
  | reject hw hsize => exact Seqlock.Stable.refl s
  | claim hw hsize => exact Seqlock.Stable.of_eq rfl rfl
  | @storeOdd w c size hw =>
      obtain ⟨hc, hseq⟩ := hi.of_claimed hw
      have hcur := hi.cursor_lt
      rw [reservation_eq s.ring (by omega)]
      intro i
      by_cases h : i = s.ring.indexOf c
      · subst h
        simp only [seqOf, ring_setWriter, ring_setRing, ShmRing.storeSeq,
          ShmRing.slots_setSlot_self] at hseq ⊢
        exact ⟨by omega, fun _ h => by omega⟩
      · simp [seqOf, payloadOf, ShmRing.storeSeq, h]
  | @writeByte w off b v size hw hoff =>
      obtain ⟨c, hc, rfl, hseq⟩ := hi.of_writing (.inl hw)
      intro i
      by_cases h : i = s.ring.indexOf c
      · subst h
        simp only [seqOf, ring_setRing, ShmRing.storeByte, ShmRing.slots_setSlot_self] at hseq ⊢
        exact ⟨Nat.le_refl _, fun heven => by omega⟩
      · simp [seqOf, payloadOf, ShmRing.storeByte, h]
  | @storeSize w n v size hw hn =>
      intro i
      by_cases h : i = v.slotIndex
      · subst h
        simp [seqOf, payloadOf, ShmRing.storeSize]
      · simp [seqOf, payloadOf, ShmRing.storeSize, h]
  | @storeEven w n v hw =>
      obtain ⟨c, hc, rfl, hseq⟩ := hi.of_writing (.inr hw)
      have hcur := hi.cursor_lt
      rw [handleOf_seq (by omega)]
      intro i
      by_cases h : i = s.ring.indexOf c
      · subst h
        simp only [seqOf, ring_addCommit, ring_setWriter, ring_setRing, ShmRing.storeSeq,
          ShmRing.slots_setSlot_self] at hseq ⊢
        exact ⟨by omega, fun heven => by omega⟩
      · simp [seqOf, payloadOf, ShmRing.storeSeq, h]
  | abandon hw => exact Seqlock.Stable.of_eq rfl rfl
  | beginFails hr hb => exact Seqlock.Stable.of_eq rfl rfl
  | beginRead hr hb => exact Seqlock.Stable.of_eq rfl rfl
  | copyByte hr hoff => exact Seqlock.Stable.of_eq rfl rfl
  | finishRead hr => exact Seqlock.Stable.of_eq rfl rfl

omit [DecidableEq ω] in
/-- A step of a reader. -/
theorem WriterInv.of_reader {s : SharedRing ω ρ} (hi : WriterInv s) (r : ρ) (pc : ReaderPc) :
    WriterInv (s.setReader r pc) :=
  ⟨hi.cursor_lt, hi.seq_le, hi.marked, hi.apart⟩

omit [DecidableEq ρ] in
/-- A new reservation of a slot that nobody holds. -/
theorem WriterInv.claim {s : SharedRing ω ρ} (hi : WriterInv s) {w : ω} {size : ℕ}
    (hbound : s.ring.writeCursor < 2 ^ 63 - 1)
    (hfree : ∀ w', ¬ s.Holds w' (s.ring.indexOf s.ring.writeCursor)) :
    WriterInv ((s.setRing s.ring.fetchAdd).setWriter w (.claimed s.ring.writeCursor size)) := by
  have hcur : u64 (s.ring.writeCursor + 1) = s.ring.writeCursor + 1 := u64_of_lt (by omega)
  have hother : ∀ w' i, w' ≠ w →
      (((s.setRing s.ring.fetchAdd).setWriter w (.claimed s.ring.writeCursor size)).Holds w' i ↔
        s.Holds w' i) := by
    intro w' i hw
    exact holds_congr (by simp [hw]) rfl
  have hself : ∀ i, ((s.setRing s.ring.fetchAdd).setWriter w
      (.claimed s.ring.writeCursor size)).Holds w i ↔
        i = s.ring.indexOf s.ring.writeCursor := by
    intro i
    simp [Holds]
  refine ⟨?_, ?_, ?_, ?_⟩
  · simp only [ring_setWriter, ring_setRing, ShmRing.writeCursor_fetchAdd, hcur]
    omega
  · intro i
    have h := hi.seq_le i
    simp only [seqOf, ring_setWriter, ring_setRing, ShmRing.writeCursor_fetchAdd,
      ShmRing.slots_fetchAdd, hcur] at h ⊢
    omega
  · intro w'
    by_cases hw : w' = w
    · subst hw
      simp only [Marked, writers_setWriter_self, ring_setWriter, ring_setRing,
        ShmRing.writeCursor_fetchAdd, hcur]
      exact ⟨by omega, hi.seq_le _⟩
    · refine marked_congr (s := s) (by simp [hw]) rfl ?_ (fun i _ => rfl) (hi.marked w')
      simp only [ring_setWriter, ring_setRing, ShmRing.writeCursor_fetchAdd, hcur]
      omega
  · intro w₁ w₂ i h₁ h₂
    by_cases e₁ : w₁ = w <;> by_cases e₂ : w₂ = w
    · rw [e₁, e₂]
    · subst e₁
      exact absurd ((hother w₂ i e₂).mp h₂) ((hself i).mp h₁ ▸ hfree w₂)
    · subst e₂
      exact absurd ((hother w₁ i e₁).mp h₁) ((hself i).mp h₂ ▸ hfree w₁)
    · exact hi.apart w₁ w₂ i ((hother w₁ i e₁).mp h₁) ((hother w₂ i e₂).mp h₂)

/-- **Without laps the invariant of the writers is kept.** -/
theorem WriterInv.step {s t : SharedRing ω ρ} {a : Action ω ρ} (hi : WriterInv s)
    (hlap : NoLap s a) (hbound : CursorBounded s a) (hs : Step s a t) : WriterInv t := by
  have hcur := hi.cursor_lt
  cases hs with
  | reject hw hsize => exact hi
  | claim hw hsize => exact hi.claim hbound (hlap hw hsize)
  | @storeOdd w c size hw =>
      obtain ⟨hc, hseq⟩ := hi.of_claimed hw
      rw [reservation_eq s.ring (by omega)]
      refine hi.of_own_slot (w := w) (j := s.ring.indexOf c) ?_ rfl rfl ?_ ?_ ?_ ?_ ?_
      · simp [Holds, hw]
      · intro w' hne; simp [hne]
      · intro i hne; simp [seqOf, ShmRing.storeSeq, hne]
      · simp only [seqOf, ring_setWriter, ring_setRing, ShmRing.storeSeq,
          ShmRing.slots_setSlot_self]
        omega
      · simp only [Marked, writers_setWriter_self]
        exact ⟨c, hc, rfl, by simp [seqOf, ShmRing.storeSeq]⟩
      · intro i h; simpa [Holds, hw] using h
  | @writeByte w off b v size hw hoff =>
      obtain ⟨c, hc, hv, hseq⟩ := hi.of_writing (.inl hw)
      have hsame : ∀ i, (s.setRing (s.ring.storeByte v.slotIndex off b)).seqOf i = s.seqOf i := by
        intro i
        by_cases h : i = v.slotIndex
        · subst h; simp [seqOf, ShmRing.storeByte]
        · simp [seqOf, ShmRing.storeByte, h]
      refine hi.of_own_slot (w := w) (j := v.slotIndex) ?_ rfl rfl (fun w' _ => rfl)
        (fun i _ => hsame i) ?_ ?_ (fun i h => h)
      · simp [Holds, hw]
      · rw [hsame]; exact hi.seq_le _
      · exact marked_congr (s := s) rfl rfl (Nat.le_refl _) (fun i _ => hsame i) (hi.marked w)
  | @storeSize w n v size hw hn =>
      obtain ⟨c, hc, hv, hseq⟩ := hi.of_writing (.inl hw)
      have hsame : ∀ i, ((s.setRing (s.ring.storeSize v.slotIndex (u32 n))).setWriter w
          (.sized v n)).seqOf i = s.seqOf i := by
        intro i
        by_cases h : i = v.slotIndex
        · subst h; simp [seqOf, ShmRing.storeSize]
        · simp [seqOf, ShmRing.storeSize, h]
      refine hi.of_own_slot (w := w) (j := v.slotIndex) ?_ rfl rfl ?_ (fun i _ => hsame i) ?_ ?_ ?_
      · simp [Holds, hw]
      · intro w' hne; simp [hne]
      · rw [hsame]; exact hi.seq_le _
      · simp only [Marked, writers_setWriter_self, hsame]
        exact ⟨c, hc, hv, hseq⟩
      · intro i h; simpa [Holds, hw] using h
  | @storeEven w n v hw =>
      obtain ⟨c, hc, rfl, hseq⟩ := hi.of_writing (.inr hw)
      rw [handleOf_seq (by omega)]
      refine hi.of_own_slot (w := w) (j := s.ring.indexOf c) ?_ rfl rfl ?_ ?_ ?_ ?_ ?_
      · simp [Holds, hw]
      · intro w' hne; simp [hne]
      · intro i hne; simp [seqOf, ShmRing.storeSeq, hne]
      · simp only [seqOf, ring_addCommit, ring_setWriter, ring_setRing, ShmRing.storeSeq,
          ShmRing.slots_setSlot_self]
        omega
      · simp [Marked]
      · intro i h; simp [Holds] at h
  | @abandon w v size hw =>
      refine hi.of_own_slot (w := w) (j := v.slotIndex) ?_ rfl rfl ?_ (fun i _ => rfl)
        (hi.seq_le _) ?_ ?_
      · simp [Holds, hw]
      · intro w' hne; simp [hne]
      · simp [Marked]
      · intro i h; simp [Holds] at h
  | beginFails hr hb => exact hi.of_reader _ _
  | beginRead hr hb => exact hi.of_reader _ _
  | copyByte hr hoff => exact hi.of_reader _ _
  | finishRead hr => exact hi.of_reader _ _

/-! ## Whole runs -/

/-- No two uncommitted reservations refer to one slot. -/
def ReservationsApart (s : SharedRing ω ρ) : Prop :=
  ∀ w w' i, s.Holds w i → s.Holds w' i → w = w'

/-- Nobody is writing the payload of a slot whose sequence word is even. -/
def EvenUnwritten (s : SharedRing ω ρ) : Prop :=
  ∀ w i, s.seqOf i % 2 = 0 → ¬ s.WritesPayload w i

/-- The step decreases no sequence word. -/
def SeqMonotone (s : SharedRing ω ρ) (a : Action ω ρ) : Prop :=
  ∀ t, next s a = some t → ∀ i, s.seqOf i ≤ t.seqOf i

/-- The threads of a run never share a slot: reservations stay apart, sequence
words do not decrease and payloads are written under odd ones only. -/
def WritersNeverShare (s : SharedRing ω ρ) (as : List (Action ω ρ)) : Prop :=
  Always next (fun t => t.ReservationsApart ∧ t.EvenUnwritten) s as ∧
    Guarded next SeqMonotone s as

omit [DecidableEq ω] [DecidableEq ρ] in
theorem WriterInv.evenUnwritten {s : SharedRing ω ρ} (hi : WriterInv s) : s.EvenUnwritten := by
  intro w i heven hw
  unfold WritesPayload at hw
  split at hw
  case h_1 v n hpc =>
    obtain ⟨c, _, _, hseq⟩ := hi.of_writing (.inl hpc)
    rw [hw] at heven
    omega
  case h_2 => exact hw

/-- A lap puts two reservations into one slot. -/
theorem noLap_of_apart {s : SharedRing ω ρ} {a : Action ω ρ}
    (h : ∀ t, next s a = some t → t.ReservationsApart) : NoLap s a := by
  cases a with
  | fetchAdd w size =>
      intro hw hsize w' hw'
      have hne : w' ≠ w := by
        rintro rfl
        simp [Holds, hw] at hw'
      let t := (s.setRing s.ring.fetchAdd).setWriter w (.claimed s.ring.writeCursor size)
      have ht : next s (.fetchAdd w size) = some t := by
        simp only [next, hw, Nat.not_lt.mpr hsize, if_false]
        rfl
      have hself : t.Holds w (s.ring.indexOf s.ring.writeCursor) := by simp [t, Holds]
      have hother : t.Holds w' (s.ring.indexOf s.ring.writeCursor) :=
        (holds_congr (s := s) (t := t) (by simp [t, hne]) rfl).mpr hw'
      exact hne (h t ht w' w _ hother hself)
  | _ => trivial

/-- **When threads share no slot.**  As long as the cursor does not wrap, the
threads of a run keep apart exactly if every reservation is made without a lap. -/
theorem writersNeverShare_iff (slotSize slotCount : ℕ) (as : List (Action ω ρ))
    (hbound : Guarded next CursorBounded (create slotSize slotCount) as) :
    WritersNeverShare (create slotSize slotCount) as ↔
      Guarded next NoLap (create slotSize slotCount) as := by
  constructor
  · intro h
    exact h.1.guarded fun s a _ hnext => noLap_of_apart fun t ht => (hnext t ht).1
  · intro hlap
    have hguard := hlap.and hbound
    have hstep : ∀ (s : SharedRing ω ρ) a t, WriterInv s → NoLap s a ∧ CursorBounded s a →
        next s a = some t → WriterInv t :=
      fun s a t hi hg ht => hi.step hg.1 hg.2 (step_of_next ht)
    have hinit := writerInv_create (ω := ω) (ρ := ρ) slotSize slotCount
    refine ⟨always_of_invariant hstep (fun s hi => ⟨hi.apart, hi.evenUnwritten⟩) hinit hguard, ?_⟩
    refine guarded_of_invariant hstep ?_ hinit hguard
    intro s a hi _ t ht i
    exact (stable_step hi (step_of_next ht) i).1

/-- Two threads are inside a ring of two slots together, and one of them comes round
to its first slot again. -/
theorem writersNeverShare_iff_two_slots :
    WritersNeverShare (create 4096 2 : SharedRing (Fin 2) Unit)
      [.fetchAdd 0 8, .fetchAdd 1 8, .storeOdd 1, .storeOdd 0, .writeByte 0 0 7,
        .storeSize 0 8, .storeEven 0, .fetchAdd 0 8] :=
  (writersNeverShare_iff 4096 2 _ (by decide)).mpr (by decide)

/-- Five threads and the default four slots: thread 4 reserves the slot of thread
0, which has stalled after its `fetch_add`, and commits while thread 0 is writing. -/
def lapRun : List (Action (Fin 5) Unit) :=
  [.fetchAdd 0 8, .fetchAdd 1 8, .fetchAdd 2 8, .fetchAdd 3 8, .fetchAdd 4 8,
    .storeOdd 4, .storeOdd 0, .storeSize 4 8, .storeEven 4]

/-- Reservations of one slot meet, its sequence word decreases, and it is even
while its payload is being written. -/
theorem lapRun_shares :
    ¬ WritersNeverShare (create 4096 ShmRing.kDefaultSlotCount) lapRun := by
  intro h
  have hend := h.1.end_of_exec (t := _) rfl
  exact hend.2 0 0 rfl rfl

end SharedRing
end RfTrans
