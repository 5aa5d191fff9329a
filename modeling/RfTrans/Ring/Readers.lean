import RfTrans.Ring.Writers

/-!
# Readers of a ring

A reader that finds the sequence word of its handle both before and after it
consumed the payload has consumed what was committed under that handle.  The
argument has two halves.  A slot whose sequence word is even and stays the same is
not changed (`stable_step`), and no sequence value recurs in a slot, so a handle
never comes to name a second commit.

## Main definitions

* `SharedRing.Copied` — the copied bytes are those of a payload.
* `SharedRing.ReaderInv` — what commits and readers remember of their slot.
* `SharedRing.ReadsCommitted` — reads that succeed returned committed bytes.
-/

namespace RfTrans
namespace SharedRing

open Exec

variable {ω ρ : Type}

/-- The copied bytes are bytes of the payload `p`. -/
def Copied (copied : List (ℕ × UInt8)) (p : ℕ → UInt8) : Prop := ∀ x ∈ copied, x.2 = p x.1

/-- What commits and readers remember: a commit its payload, a reader that began a
read the bytes it has seen, a reader whose read succeeded that they were the
committed ones. -/
structure ReaderInv (s : SharedRing ω ρ) : Prop where
  committed : ∀ k ∈ s.commits, Seqlock.Pinned seqOf payloadOf (fun p => p = k.payload) s
    k.handle.slotIndex k.handle.seq
  reading : ∀ r h cs, s.readers r = .reading h cs →
    Seqlock.Pinned seqOf payloadOf (Copied cs) s h.slotIndex h.seq
  finished : ∀ r h cs, s.readers r = .finished h cs true →
    h.seq ≤ s.seqOf h.slotIndex ∧ ∀ k ∈ s.commits, k.handle = h → Copied cs k.payload

theorem readerInv_create (slotSize slotCount : ℕ) :
    ReaderInv (create slotSize slotCount : SharedRing ω ρ) where
  committed := by intro k hk; simp [create] at hk
  reading := by intro r h cs hr; simp [create] at hr
  finished := by intro r h cs hr; simp [create] at hr

/-- A stable step that neither commits nor moves a reader. -/
theorem ReaderInv.of_stable {s t : SharedRing ω ρ} (hi : ReaderInv s)
    (hst : Seqlock.Stable seqOf payloadOf s t) (hc : t.commits = s.commits)
    (hr : t.readers = s.readers) : ReaderInv t where
  committed := by intro k hk; rw [hc] at hk; exact (hi.committed k hk).step hst
  reading := by intro r h cs hr'; rw [hr] at hr'; exact (hi.reading r h cs hr').step hst
  finished := by
    intro r h cs hr'
    rw [hr] at hr'
    rw [hc]
    obtain ⟨hle, hk⟩ := hi.finished r h cs hr'
    exact ⟨Nat.le_trans hle (hst h.slotIndex).1, hk⟩

variable [DecidableEq ω] [DecidableEq ρ]

/-- A commit. Its sequence value is newer than every handle that a reader can have
finished with in this slot. -/
theorem ReaderInv.storeEven {s : SharedRing ω ρ} (hw : WriterInv s) (hi : ReaderInv s)
    {w : ω} {v : ReservedSlot} {n : ℕ} (hpc : s.writers w = .sized v n) :
    ReaderInv (((s.setRing (s.ring.storeSeq v.slotIndex (ShmRing.handleOf v n).seq)).setWriter w
      .idle).addCommit ⟨ShmRing.handleOf v n, (s.ring.slots v.slotIndex).payload⟩) := by
  have hst := stable_step hw (Step.storeEven hpc)
  obtain ⟨c, hc, rfl, hseq⟩ := hw.of_writing (.inr hpc)
  have hcur := hw.cursor_lt
  have hnew : (ShmRing.handleOf ⟨s.ring.indexOf c, 2 * c + 1⟩ n).seq = 2 * c + 2 :=
    handleOf_seq (by omega)
  refine ⟨?_, ?_, ?_⟩
  · intro k hk
    rcases List.mem_cons.mp hk with rfl | hk
    · refine ⟨by simp only [hnew]; omega, ?_, ?_⟩
      · simp [seqOf, ShmRing.storeSeq, ShmRing.handleOf]
      · intro _
        simp [payloadOf, ShmRing.storeSeq, ShmRing.handleOf]
    · exact (hi.committed k hk).step hst
  · intro r h cs hr
    exact (hi.reading r h cs hr).step hst
  · intro r h cs hr
    obtain ⟨hle, hold⟩ := hi.finished r h cs hr
    refine ⟨Nat.le_trans hle (hst h.slotIndex).1, ?_⟩
    intro k hk hkh
    rcases List.mem_cons.mp hk with rfl | hk
    · -- The new handle cannot be an old one: `h.seq` is at most the odd value.
      exfalso
      subst hkh
      rw [hnew] at hle
      change _ ≤ s.seqOf (s.ring.indexOf c) at hle
      change s.seqOf (s.ring.indexOf c) = 2 * c + 1 at hseq
      omega
    · exact hold k hk hkh

omit [DecidableEq ω] in
/-- A reader moves to a position about which the invariant can be shown. -/
theorem ReaderInv.setReader {s : SharedRing ω ρ} (hi : ReaderInv s) {r : ρ} {pc : ReaderPc}
    (hreading : ∀ h cs, pc = .reading h cs →
      Seqlock.Pinned seqOf payloadOf (Copied cs) s h.slotIndex h.seq)
    (hfinished : ∀ h cs, pc = .finished h cs true →
      h.seq ≤ s.seqOf h.slotIndex ∧ ∀ k ∈ s.commits, k.handle = h → Copied cs k.payload) :
    ReaderInv (s.setReader r pc) := by
  have hst : Seqlock.Stable seqOf payloadOf s (s.setReader r pc) := Seqlock.Stable.of_eq rfl rfl
  refine ⟨fun k hk => (hi.committed k hk).step hst, ?_, ?_⟩
  · intro r' h cs hr
    by_cases hrr : r' = r
    · subst hrr
      exact (hreading h cs (by simpa using hr)).step hst
    · exact (hi.reading r' h cs (by simpa [hrr] using hr)).step hst
  · intro r' h cs hr
    by_cases hrr : r' = r
    · subst hrr
      exact hfinished h cs (by simpa using hr)
    · exact hi.finished r' h cs (by simpa [hrr] using hr)

/-- **Every step keeps what commits and readers remember.** -/
theorem ReaderInv.step {s t : SharedRing ω ρ} {a : Action ω ρ} (hw : WriterInv s)
    (hi : ReaderInv s) (hs : Step s a t) : ReaderInv t := by
  have hst := stable_step hw hs
  cases hs with
  | reject hpc hsize => exact hi
  | claim hpc hsize => exact hi.of_stable hst rfl rfl
  | storeOdd hpc => exact hi.of_stable hst rfl rfl
  | writeByte hpc hoff => exact hi.of_stable hst rfl rfl
  | storeSize hpc hn => exact hi.of_stable hst rfl rfl
  | storeEven hpc => exact hi.storeEven hw hpc
  | abandon hpc => exact hi.of_stable hst rfl rfl
  | beginFails hr hb =>
      exact hi.setReader (fun h cs e => nomatch e) (fun h cs e => nomatch e)
  | @beginRead r handle hr hb =>
      obtain ⟨hseq, heven⟩ := ShmRing.beginRead_isSome.mp hb
      refine hi.setReader ?_ (fun h cs e => nomatch e)
      intro h cs e
      obtain ⟨rfl, rfl⟩ := ReaderPc.reading.inj e
      exact ⟨heven, Nat.le_of_eq hseq.symm, fun _ x hx => nomatch hx⟩
  | @copyByte r off handle copied hr hoff =>
      have hp := hi.reading r handle copied hr
      refine hi.setReader ?_ (fun h cs e => nomatch e)
      intro h cs e
      obtain ⟨rfl, rfl⟩ := ReaderPc.reading.inj e
      refine ⟨hp.even, hp.le, ?_⟩
      intro hseq x hx
      rcases List.mem_cons.mp hx with rfl | hx
      · rfl
      · exact hp.holds hseq x hx
  | @finishRead r handle copied hr =>
      have hp := hi.reading r handle copied hr
      refine hi.setReader (fun h cs e => nomatch e) ?_
      intro h cs e
      obtain ⟨rfl, rfl, hok⟩ := ReaderPc.finished.inj e
      have hseq : s.seqOf handle.slotIndex = handle.seq := by
        simpa [ShmRing.finishRead, seqOf] using hok
      refine ⟨hp.le, ?_⟩
      rintro k hk rfl
      obtain ⟨p, hp, rfl⟩ := hp.both (hi.committed k hk) hseq
      exact hp

/-- Reads that succeeded under a committed handle returned the committed bytes. -/
def ReadsCommitted (s : SharedRing ω ρ) : Prop :=
  ∀ r h copied, s.readers r = .finished h copied true →
    ∀ k ∈ s.commits, k.handle = h → Copied copied k.payload

/-- In a run without laps every successful read is genuine, however many threads
publish. -/
theorem readsCommitted_of_noLap (slotSize slotCount : ℕ) {as : List (Action ω ρ)}
    {s : SharedRing ω ρ} (hlap : Guarded next NoLap (create slotSize slotCount) as)
    (hbound : Guarded next CursorBounded (create slotSize slotCount) as)
    (he : exec next (create slotSize slotCount) as = some s) :
    WriterInv s ∧ ReaderInv s := by
  refine invariant (P := fun s : SharedRing ω ρ => WriterInv s ∧ ReaderInv s) ?_
    ⟨writerInv_create _ _, readerInv_create _ _⟩ (hlap.and hbound) he
  intro s a t hi hg ht
  have hs := step_of_next ht
  exact ⟨hi.1.step hg.1 hg.2 hs, hi.2.step hi.1 hs⟩

omit [DecidableEq ρ] in
/-- A single thread cannot lap itself: it reserves only when it holds nothing. -/
theorem noLap_single (s : SharedRing Unit ρ) (a : Action Unit ρ) : NoLap s a := by
  cases a with
  | fetchAdd w size =>
      intro hw _ w' hw'
      simp [Holds, hw] at hw'
  | _ => trivial

/-- **The seqlock is correct for one writer.**  Whatever the interleaving of one
publishing thread with any number of readers, a read that passes both sequence
checks with a committed handle has copied bytes of that commit only. -/
theorem read_genuine (slotSize slotCount : ℕ) (as : List (Action Unit ρ))
    (s : SharedRing Unit ρ) (hbound : Guarded next CursorBounded (create slotSize slotCount) as)
    (he : exec next (create slotSize slotCount) as = some s) : s.ReadsCommitted := by
  have hlap : Guarded next NoLap (create slotSize slotCount) as :=
    hbound.mono fun s a _ => noLap_single s a
  intro r h copied hr
  exact ((readsCommitted_of_noLap slotSize slotCount hlap hbound he).2.finished r h copied hr).2

/-- One thread commits a byte, is already writing the next slot, and a reader reads
the first one back. -/
def oneByteRun : List (Action Unit Unit) :=
  [.fetchAdd () 1, .storeOdd (), .writeByte () 0 42, .storeSize () 1, .storeEven (),
    .beginRead () ⟨0, 2, 1⟩, .fetchAdd () 1, .storeOdd (), .copyByte () 0, .writeByte () 0 43,
    .finishRead ()]

theorem read_genuine_one_byte :
    ∃ s : SharedRing Unit Unit, exec next (create 4096 2) oneByteRun = some s ∧
      s.readers () = .finished ⟨0, 2, 1⟩ [(0, 42)] true ∧ s.ReadsCommitted :=
  ⟨_, rfl, rfl, read_genuine 4096 2 oneByteRun _ (by decide) rfl⟩

end SharedRing
end RfTrans
