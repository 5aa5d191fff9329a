import RfTrans.Ring.Transport

/-!
# What a subscriber parses out of shared memory

Sequence values start from zero in every new segment, so a handle means something
only together with the segment it was committed in.  A descriptor carries the name
of the ring instead.  Delivery is faithful as long as every name that is still in
use somewhere (a ring of the publisher, a mapping of the subscriber, a descriptor
in flight) means one segment; the condition on the steps is that a ring is created
only under a name that nobody uses.

## Main definitions

* `Transport.SafeStep` — rings are created under unused names only.
* `Transport.NamesAgree` — a name in use means one segment.
* `Transport.Committed` — a descriptor's slot has its bytes, or has moved on.
* `Transport.Inv` — the invariant of runs of safe steps.
-/

namespace RfTrans
namespace Transport

open Exec

variable {platform : ShmPlatform} {processUuid : Str} {s t : Transport}

/-- Nobody uses the name: the subscriber has not mapped it, no descriptor carries
it and no other ring of the publisher has it. -/
def NameUnused (s : Transport) (name : Str) : Prop :=
  s.readerRings[name]? = none ∧ (∀ d ∈ s.wire, d.descriptor.shmName ≠ name) ∧
    ∀ x ∈ s.writerRings.toList, cStr x.2.name ≠ name

instance (s : Transport) (name : Str) : Decidable (s.NameUnused name) :=
  inferInstanceAs (Decidable (_ ∧ _ ∧ _))

/-- A ring is created under an unused name and with slots whose size fits the
header, and no sequence value wraps. -/
def SafeStep (platform : ShmPlatform) (processUuid : Str) (s : Transport) : Action → Prop
  | .publish topic bytes _ => s.writerRings[topic]? = none →
      s.NameUnused (cStr (makeShmName platform.hash topic processUuid)) ∧
        slotSizeFor bytes.length < 2 ^ 32
  | .fetchAdd => match s.publishing with
      | some p => (s.segs p.ring.seg).ring.writeCursor < 2 ^ 63 - 1
      | none => True
  | _ => True

instance (s : Transport) : ∀ a, Decidable (SafeStep platform processUuid s a)
  | .publish _ _ _ => inferInstanceAs (Decidable (_ → _ ∧ _))
  | .fetchAdd => by
      simp only [SafeStep]
      cases s.publishing with
      | none => exact isTrue trivial
      | some p => exact inferInstanceAs (Decidable (_ < _))
  | .advertise _ | .unadvertise _ | .storeOdd | .writeByte _ | .storeSize | .commit _ | .abandon
  | .skip | .receive _ | .beginRead | .copyByte _ | .finishRead => isTrue trivial

/-! ## The invariant -/

/-- The sequence word of a slot of a segment. -/
def seqAt (s : Transport) (cell : ℕ × ℕ) : ℕ := (s.segs cell.1).seqOf cell.2

/-- The payload of a slot of a segment. -/
def payloadAt (s : Transport) (cell : ℕ × ℕ) : ℕ → UInt8 := (s.segs cell.1).payloadOf cell.2

/-- The step keeps to the rules of versioned cells, in every segment. -/
abbrev Stable (s t : Transport) : Prop := Seqlock.Stable seqAt payloadAt s t

/-- The payload starts with the bytes. -/
def Carries (bytes : List UInt8) (payload : ℕ → UInt8) : Prop :=
  ∀ off b, bytes[off]? = some b → payload off = b

/-- The slot of the descriptor. -/
def cellOf (d : Sent) : ℕ × ℕ := (d.seg, d.descriptor.slotIndex)

/-- The slot of a descriptor has the published bytes, or has moved on. -/
structure Committed (s : Transport) (d : Sent) : Prop where
  pinned : Seqlock.Pinned seqAt payloadAt (Carries d.published) s (cellOf d) d.descriptor.seq
  size : d.descriptor.size = d.published.length

/-- What holds of every segment. -/
structure SegsInv (s : Transport) : Prop where
  writer : ∀ k, (s.segs k).WriterInv
  reader : ∀ k, (s.segs k).ReaderInv
  small : ∀ k, (s.segs k).ring.slotSize < 2 ^ 32
  fresh : ∀ k, s.created ≤ k → s.segs k = SharedRing.create 0 0

/-- The name means the segment wherever it is known. -/
structure Means (s : Transport) (name : Str) (seg : ℕ) : Prop where
  shm : ∀ k, s.shm[name]? = some k → k = seg
  mapped : ∀ k, s.readerRings[name]? = some k → k = seg

/-- A name in use means one segment. -/
structure NamesAgree (s : Transport) : Prop where
  bound : ∀ (topic : Str) (ring : WriterRing), s.writerRings[topic]? = some ring →
    s.shm[cStr ring.name]? = some ring.seg
  mapped : ∀ (topic : Str) (ring : WriterRing), s.writerRings[topic]? = some ring →
    ∀ k, s.readerRings[cStr ring.name]? = some k → k = ring.seg
  apart : ∀ (topic topic' : Str) (ring ring' : WriterRing), s.writerRings[topic]? = some ring →
    s.writerRings[topic']? = some ring' → cStr ring.name = cStr ring'.name → topic = topic'
  fits : ∀ (topic : Str) (ring : WriterRing), s.writerRings[topic]? = some ring →
    ring.name.take kShmNameRoom = ring.name
  born : ∀ (topic : Str) (ring : WriterRing),
    s.writerRings[topic]? = some ring → ring.seg < s.created
  sent : ∀ d ∈ s.wire, Means s d.descriptor.shmName d.seg

/-- How far the publish in progress has come with the payload. -/
def Written (s : Transport) (p : Publishing) : Prop :=
  match (s.segs p.ring.seg).writers () with
  | .idle => p.written = []
  | .claimed _ _ => p.written = []
  | .writing v _ => ∀ off ∈ p.written, ∀ b, p.bytes[off]? = some b →
      s.payloadAt (p.ring.seg, v.slotIndex) off = b
  | .sized v n => n = p.bytes.length ∧ serializable p.bytes ∧
      Carries p.bytes (s.payloadAt (p.ring.seg, v.slotIndex))

/-- A publish in progress writes into a ring of the table; other segments are left
alone. -/
structure PublishInv (s : Transport) : Prop where
  written : ∀ p, s.publishing = some p → s.Written p
  live : ∀ p, s.publishing = some p → ∃ topic : Str, s.writerRings[topic]? = some p.ring
  idle : ∀ k, (∀ p, s.publishing = some p → p.ring.seg ≠ k) → (s.segs k).writers () = .idle

/-- The receiver has mapped the segment that its descriptor was committed in, and
the bytes it has looked at are those of the slot. -/
def ReceiverOk (s : Transport) : Prop :=
  match s.receiver with
  | .idle => True
  | .attached seg d => seg = d.seg ∧ s.Committed d
  | .reading seg d copied => seg = d.seg ∧ s.Committed d ∧
      (∀ x ∈ copied, x.1 < d.descriptor.size) ∧
      Seqlock.Pinned seqAt payloadAt (SharedRing.Copied copied) s (cellOf d) d.descriptor.seq

/-- What is in flight, being read, or was read. -/
structure ContentInv (s : Transport) : Prop where
  wire : ∀ d ∈ s.wire, s.Committed d
  receiver : s.ReceiverOk
  parsed : ∀ q ∈ s.parsed, q.Genuine

/-- The invariant of runs of safe steps. -/
structure Inv (s : Transport) : Prop where
  segs : s.SegsInv
  names : s.NamesAgree
  publish : s.PublishInv
  content : s.ContentInv

theorem inv_init : Inv {} where
  segs := ⟨fun _ => SharedRing.writerInv_create 0 0, fun _ => SharedRing.readerInv_create 0 0,
    fun _ => by simp [SharedRing.create], fun _ _ => rfl⟩
  names := by constructor <;> simp
  publish := by constructor <;> simp [SharedRing.create]
  content := ⟨by simp, trivial, by simp⟩

/-! ## Steps in one segment -/

theorem stable_of_segs (h : t.segs = s.segs) : Stable s t :=
  Seqlock.Stable.of_eq (by funext c; simp only [seqAt, h]) (by funext c; simp only [payloadAt, h])

theorem Committed.step {d : Sent} (h : s.Committed d) (hst : Stable s t) : t.Committed d :=
  ⟨h.pinned.step hst, h.size⟩

/-- A stable step keeps what the receiver knows. -/
theorem ReceiverOk.step (h : s.ReceiverOk) (hst : Stable s t) (hr : t.receiver = s.receiver) :
    t.ReceiverOk := by
  simp only [ReceiverOk] at h ⊢
  rw [hr]
  cases hpos : s.receiver with
  | idle => trivial
  | attached seg d =>
      rw [hpos] at h
      exact ⟨h.1, h.2.step hst⟩
  | reading seg d copied =>
      rw [hpos] at h
      exact ⟨h.1, h.2.1.step hst, h.2.2.1, h.2.2.2.step hst⟩

/-- A stable step of the publisher that sends nothing. -/
theorem ContentInv.step (h : s.ContentInv) (hst : Stable s t) (hw : t.wire = s.wire)
    (hr : t.receiver = s.receiver) (hp : t.parsed = s.parsed) : t.ContentInv where
  wire := by
    rw [hw]
    exact fun d hd => (h.wire d hd).step hst
  receiver := h.receiver.step hst hr
  parsed := hp ▸ h.parsed

/-- An atomic step changes neither the slot size nor the slot count. -/
theorem slotSize_of_step {r r' : Segment} {a : SharedRing.Action Unit Empty}
    (h : SharedRing.Step r a r') : r'.ring.slotSize = r.ring.slotSize := by
  cases h <;> rfl

/-- An atomic step in the segment of the publish in progress. -/
theorem SegsInv.setSeg (hi : s.SegsInv) {k : ℕ} {a : SharedRing.Action Unit Empty} {r : Segment}
    (hk : k < s.created) (hb : SharedRing.CursorBounded (s.segs k) a)
    (hs : SharedRing.Step (s.segs k) a r) :
    (s.setSeg k r).SegsInv ∧ Stable s (s.setSeg k r) := by
  refine ⟨⟨?_, ?_, ?_, ?_⟩, ?_⟩
  · intro k'
    by_cases h : k' = k
    · subst h
      simpa [Transport.setSeg] using
        (hi.writer k').step (SharedRing.noLap_single _ _) hb hs
    · simpa [Transport.setSeg, h] using hi.writer k'
  · intro k'
    by_cases h : k' = k
    · subst h
      simpa [Transport.setSeg] using (hi.reader k').step (hi.writer k') hs
    · simpa [Transport.setSeg, h] using hi.reader k'
  · intro k'
    by_cases h : k' = k
    · subst h
      simpa [Transport.setSeg, slotSize_of_step hs] using hi.small k'
    · simpa [Transport.setSeg, h] using hi.small k'
  · intro k' hk'
    have h : k' ≠ k := by
      change s.created ≤ k' at hk'
      omega
    simpa [Transport.setSeg, h] using hi.fresh k' hk'
  · rintro ⟨k', i⟩
    by_cases h : k' = k
    · subst h
      simpa [seqAt, payloadAt, Transport.setSeg] using SharedRing.stable_step (hi.writer k') hs i
    · simp [seqAt, payloadAt, Transport.setSeg, h]

@[simp] theorem segs_setSeg_self (s : Transport) (k : ℕ) (r : Segment) :
    (s.setSeg k r).segs k = r := Function.update_self ..

theorem segs_setSeg_of_ne (s : Transport) {k k' : ℕ} (h : k' ≠ k) (r : Segment) :
    (s.setSeg k r).segs k' = s.segs k' := Function.update_of_ne h ..

/-- The publish in progress moves on in its segment. What remains to be shown is how
far it has come with the payload. -/
theorem PublishInv.setSeg (hi : s.PublishInv) {p p' : Publishing} (hp : s.publishing = some p)
    (hring : p'.ring = p.ring) (r : Segment)
    (hw : ({ s.setSeg p.ring.seg r with publishing := some p' } : Transport).Written p') :
    PublishInv { s.setSeg p.ring.seg r with publishing := some p' } where
  written := by
    intro q hq
    rw [← Option.some.inj hq]
    exact hw
  live := by
    intro q hq
    rw [← Option.some.inj hq, hring]
    exact hi.live p hp
  idle := by
    intro k hk
    have hne : k ≠ p.ring.seg := by
      rw [← hring]
      exact (hk p' rfl).symm
    have := hi.idle k fun q hq => by
      rw [hp] at hq
      rw [← Option.some.inj hq]
      exact hne.symm
    rw [← this]
    exact congrArg (fun q : Segment => q.writers ()) (segs_setSeg_of_ne s hne r)

/-- The publish in progress ends with its thread outside the ring. -/
theorem PublishInv.endPublish (hi : s.PublishInv) {p : Publishing} (hp : s.publishing = some p)
    {r : Segment} (hr : r.writers () = .idle) (ht : t.segs = (s.setSeg p.ring.seg r).segs)
    (hnone : t.publishing = none) : t.PublishInv where
  written := by simp [hnone]
  live := by simp [hnone]
  idle := by
    intro k _
    rw [ht]
    by_cases hk : k = p.ring.seg
    · subst hk
      simpa using hr
    · rw [segs_setSeg_of_ne s hk]
      refine hi.idle k fun q hq => ?_
      rw [hp] at hq
      rw [← Option.some.inj hq]
      exact Ne.symm hk

theorem SegsInv.of_eq (hi : s.SegsInv) (hsegs : t.segs = s.segs) (hc : t.created = s.created) :
    t.SegsInv where
  writer := hsegs ▸ hi.writer
  reader := hsegs ▸ hi.reader
  small := hsegs ▸ hi.small
  fresh := by
    rw [hsegs, hc]
    exact hi.fresh

/-- A step that leaves the name tables alone and sends nothing. -/
theorem NamesAgree.of_eq (hi : s.NamesAgree) (hshm : t.shm = s.shm)
    (hr : t.readerRings = s.readerRings) (hw : t.writerRings = s.writerRings)
    (hc : t.created = s.created) (hwire : t.wire ⊆ s.wire) : t.NamesAgree where
  bound := by
    rw [hw, hshm]
    exact hi.bound
  mapped := by
    rw [hw, hr]
    exact hi.mapped
  apart := hw ▸ hi.apart
  fits := hw ▸ hi.fits
  born := by
    rw [hw, hc]
    exact hi.born
  sent := by
    intro d hd
    have h := hi.sent d (hwire hd)
    exact ⟨hshm ▸ h.shm, hr ▸ h.mapped⟩

/-- A step in the segment of the publish in progress keeps the invariant, given how
far the publish has come with the payload. -/
theorem Inv.ringStep (hi : s.Inv) {p p' : Publishing} {a : SharedRing.Action Unit Empty}
    {r : Segment} (hp : s.publishing = some p) (hring : p'.ring = p.ring)
    (hs : SharedRing.Step (s.segs p.ring.seg) a r)
    (hb : SharedRing.CursorBounded (s.segs p.ring.seg) a)
    (hw : ({ s.setSeg p.ring.seg r with publishing := some p' } : Transport).Written p') :
    Inv { s.setSeg p.ring.seg r with publishing := some p' } := by
  obtain ⟨topic, hlive⟩ := hi.publish.live p hp
  obtain ⟨hsegs, hst⟩ := hi.segs.setSeg (hi.names.born topic _ hlive) hb hs
  exact ⟨⟨hsegs.writer, hsegs.reader, hsegs.small, hsegs.fresh⟩,
    hi.names.of_eq rfl rfl rfl rfl (List.Subset.refl _), hi.publish.setSeg hp hring r hw,
    hi.content.step hst rfl rfl rfl⟩

theorem ringStep_eq_some {k : ℕ} {a : SharedRing.Action Unit Empty}
    (h : s.ringStep k a = some t) :
    ∃ r, SharedRing.Step (s.segs k) a r ∧ t = s.setSeg k r := by
  obtain ⟨r, hr, ht⟩ := Option.map_eq_some_iff.mp h
  exact ⟨r, SharedRing.step_of_next hr, ht.symm⟩

theorem setSeg_publishing {p : Publishing} (hp : s.publishing = some p) (k : ℕ) (r : Segment) :
    ({ s.setSeg k r with publishing := some p } : Transport) = s.setSeg k r := by
  cases s
  subst hp
  rfl

/-! ## The steps of a publish -/

/-- `fetch_add` of a publish that has a ring. -/
theorem Inv.fetchAdd (hi : s.Inv) {p : Publishing} (hp : s.publishing = some p) {r : Segment}
    (hpc : (s.segs p.ring.seg).writers () = .idle)
    (hfit : p.bytes.length ≤ (s.segs p.ring.seg).ring.slotSize)
    (hbound : (s.segs p.ring.seg).ring.writeCursor < 2 ^ 63 - 1)
    (hs : SharedRing.Step (s.segs p.ring.seg) (.fetchAdd () p.bytes.length) r) :
    (s.setSeg p.ring.seg r).Inv := by
  have hw := hi.publish.written p hp
  simp only [Written, hpc] at hw
  rw [← setSeg_publishing hp]
  refine hi.ringStep hp rfl hs hbound ?_
  cases hs with
  | reject hidle hsize => omega
  | claim hidle hsize => simpa [Written] using hw

/-- The store of the odd sequence value. -/
theorem Inv.storeOdd (hi : s.Inv) {p : Publishing} (hp : s.publishing = some p) {r : Segment}
    (hs : SharedRing.Step (s.segs p.ring.seg) (.storeOdd ()) r) :
    (s.setSeg p.ring.seg r).Inv := by
  have hw := hi.publish.written p hp
  rw [← setSeg_publishing hp]
  refine hi.ringStep hp rfl hs trivial ?_
  cases hs with
  | storeOdd hpc =>
      simp only [Written, hpc] at hw
      simp [Written, hw]

/-- `SerializeToArray` writes one byte. -/
theorem Inv.writeByte (hi : s.Inv) {p : Publishing} (hp : s.publishing = some p) {r : Segment}
    {off : ℕ} {b : UInt8} (hb : p.bytes[off]? = some b)
    (hs : SharedRing.Step (s.segs p.ring.seg) (.writeByte () off b) r) :
    Inv { s.setSeg p.ring.seg r with
      publishing := some { p with written := off :: p.written } } := by
  have hw := hi.publish.written p hp
  refine hi.ringStep hp rfl hs trivial ?_
  cases hs with
  | @writeByte _ _ _ v n hpc hoff =>
      simp only [Written, hpc] at hw
      simp only [Written, segs_setSeg_self, SharedRing.writers_setRing, hpc]
      intro off' hoff' b' hb'
      simp only [payloadAt, SharedRing.payloadOf, segs_setSeg_self, SharedRing.ring_setRing,
        ShmRing.storeByte, ShmRing.slots_setSlot_self]
      by_cases h : off' = off
      · subst h
        rw [hb] at hb'
        simpa using Option.some.inj hb'
      · rw [Function.update_of_ne h]
        exact hw off' (List.mem_of_ne_of_mem h hoff') b' hb'

/-- The store of the size, once all bytes are written. -/
theorem Inv.storeSize (hi : s.Inv) {p : Publishing} (hp : s.publishing = some p) {r : Segment}
    (hser : serializable p.bytes) (hall : ∀ off < p.bytes.length, off ∈ p.written)
    (hs : SharedRing.Step (s.segs p.ring.seg) (.storeSize () p.bytes.length) r) :
    (s.setSeg p.ring.seg r).Inv := by
  have hw := hi.publish.written p hp
  rw [← setSeg_publishing hp]
  refine hi.ringStep hp rfl hs trivial ?_
  cases hs with
  | @storeSize _ _ v n hpc hn =>
      simp only [Written, hpc] at hw
      simp only [Written, segs_setSeg_self, SharedRing.writers_setWriter_self, true_and]
      refine ⟨hser, ?_⟩
      intro off b hb
      have hlt : off < p.bytes.length := (List.getElem?_eq_some_iff.mp hb).1
      simpa [payloadAt, SharedRing.payloadOf, ShmRing.storeSize] using hw off (hall off hlt) b hb

/-- What an observer remembers about a slot of one segment. -/
theorem pinned_of_seg {k i n : ℕ} {P Q : (ℕ → UInt8) → Prop}
    (h : Seqlock.Pinned SharedRing.seqOf SharedRing.payloadOf P (s.segs k) i n)
    (hPQ : ∀ x, P x → Q x) : Seqlock.Pinned seqAt payloadAt Q s (k, i) n :=
  ⟨h.even, h.le, fun e => hPQ _ (h.holds e)⟩

@[simp] theorem segs_send (s : Transport) (d : Sent) (sent : Bool) :
    (s.send d sent).segs = s.segs := by
  cases sent <;> rfl

@[simp] theorem created_send (s : Transport) (d : Sent) (sent : Bool) :
    (s.send d sent).created = s.created := by
  cases sent <;> rfl

theorem ContentInv.send (h : s.ContentInv) {d : Sent} (hd : s.Committed d) (sent : Bool) :
    (s.send d sent).ContentInv := by
  cases sent with
  | false => exact h
  | true =>
      refine ⟨?_, h.receiver.step (stable_of_segs rfl) rfl, h.parsed⟩
      intro d' hd'
      rcases List.mem_append.mp hd' with hd' | hd'
      · exact (h.wire d' hd').step (stable_of_segs rfl)
      · rw [List.mem_singleton.mp hd']
        exact hd.step (stable_of_segs rfl)

theorem NamesAgree.send (h : s.NamesAgree) {d : Sent}
    (hd : s.Means d.descriptor.shmName d.seg) (sent : Bool) : (s.send d sent).NamesAgree := by
  cases sent with
  | false => exact h
  | true =>
      refine ⟨h.bound, h.mapped, h.apart, h.fits, h.born, ?_⟩
      intro d' hd'
      rcases List.mem_append.mp hd' with hd' | hd'
      · exact ⟨(h.sent d' hd').shm, (h.sent d' hd').mapped⟩
      · rw [List.mem_singleton.mp hd']
        exact ⟨hd.shm, hd.mapped⟩

/-- The name in a descriptor means the segment of the ring. -/
theorem NamesAgree.means (h : s.NamesAgree) {topic : Str} {ring : WriterRing}
    (hr : s.writerRings[topic]? = some ring) (handle : SlotHandle) :
    s.Means (descriptorOf ring handle).shmName ring.seg := by
  have hname : (descriptorOf ring handle).shmName = cStr ring.name :=
    congrArg cStr (h.fits topic ring hr)
  rw [hname]
  refine ⟨?_, h.mapped topic ring hr⟩
  intro k hk
  rw [h.bound topic ring hr] at hk
  exact (Option.some.inj hk).symm

/-- `commitWrite` leaves the thread outside the ring and the payload committed. -/
theorem commit_of_storeEven {q r : Segment} {v : ReservedSlot} {n : ℕ}
    (hpc : q.writers () = .sized v n) (hs : SharedRing.Step q (.storeEven ()) r) :
    r.writers () = .idle ∧
      ⟨ShmRing.handleOf v n, (q.ring.slots v.slotIndex).payload⟩ ∈ r.commits := by
  cases hs with
  | storeEven hpc' =>
      obtain ⟨rfl, rfl⟩ := WriterPc.sized.inj (hpc.symm.trans hpc')
      refine ⟨?_, List.mem_cons_self⟩
      rw [SharedRing.writers_addCommit]
      exact SharedRing.writers_setWriter_self _ _ _

/-- The even store and the send. -/
theorem Inv.commit (hi : s.Inv) {p : Publishing} (hp : s.publishing = some p) {r : Segment}
    {v : ReservedSlot} {n : ℕ} (sent : Bool)
    (hpc : (s.segs p.ring.seg).writers () = .sized v n)
    (hs : SharedRing.Step (s.segs p.ring.seg) (.storeEven ()) r) :
    (((s.setSeg p.ring.seg r).send
      ⟨descriptorOf p.ring (ShmRing.handleOf v n), p.ring.seg, p.bytes⟩ sent).endPublish).Inv := by
  obtain ⟨topic, hlive⟩ := hi.publish.live p hp
  have hw := hi.publish.written p hp
  simp only [Written, hpc] at hw
  obtain ⟨rfl, hser, hcarries⟩ := hw
  have hb : SharedRing.CursorBounded (s.segs p.ring.seg) (.storeEven ()) := trivial
  obtain ⟨hsegs, hst⟩ := hi.segs.setSeg (hi.names.born topic _ hlive) hb hs
  have hcontent : (s.setSeg p.ring.seg r).ContentInv := hi.content.step hst rfl rfl rfl
  have hnames : (s.setSeg p.ring.seg r).NamesAgree :=
    hi.names.of_eq rfl rfl rfl rfl (List.Subset.refl _)
  obtain ⟨hidle, hcommit⟩ := commit_of_storeEven hpc hs
  let d : Sent := ⟨descriptorOf p.ring (ShmRing.handleOf v p.bytes.length), p.ring.seg, p.bytes⟩
  have hcommitted : (s.setSeg p.ring.seg r).Committed d := by
    have hreader := hsegs.reader p.ring.seg
    rw [segs_setSeg_self] at hreader
    have hpinned := hreader.committed _ hcommit
    rw [← segs_setSeg_self s p.ring.seg r] at hpinned
    refine ⟨pinned_of_seg hpinned ?_, ?_⟩
    · intro x hx
      rw [hx]
      exact hcarries
    · simp only [serializable] at hser
      exact u32_of_lt (by omega)
  have hmeans := hnames.means hlive (ShmRing.handleOf v p.bytes.length)
  refine ⟨hsegs.of_eq (segs_send _ d sent) (created_send _ d sent), ?_, ?_, ?_⟩
  · exact (hnames.send (d := d) hmeans sent).of_eq rfl rfl rfl rfl (List.Subset.refl _)
  · exact hi.publish.endPublish hp hidle (segs_send _ d sent) rfl
  · exact (hcontent.send hcommitted sent).step (stable_of_segs rfl) rfl rfl rfl

/-- `publishRemoteShm` returns without a commit. -/
theorem Inv.abandon (hi : s.Inv) {p : Publishing} (hp : s.publishing = some p) {r : Segment}
    (hs : SharedRing.Step (s.segs p.ring.seg) (.abandon ()) r) :
    ((s.setSeg p.ring.seg r).endPublish).Inv := by
  obtain ⟨topic, hlive⟩ := hi.publish.live p hp
  have hb : SharedRing.CursorBounded (s.segs p.ring.seg) (.abandon ()) := trivial
  obtain ⟨hsegs, hst⟩ := hi.segs.setSeg (hi.names.born topic _ hlive) hb hs
  have hidle : r.writers () = .idle := by
    cases hs with
    | abandon hpc => exact SharedRing.writers_setWriter_self _ _ _
  exact ⟨hsegs.of_eq rfl rfl, hi.names.of_eq rfl rfl rfl rfl (List.Subset.refl _),
    hi.publish.endPublish hp hidle rfl rfl, hi.content.step hst rfl rfl rfl⟩

/-- A null reservation ends the publish. -/
theorem Inv.reject (hi : s.Inv) {p : Publishing} (hp : s.publishing = some p)
    (hpc : (s.segs p.ring.seg).writers () = .idle) : s.endPublish.Inv := by
  refine ⟨hi.segs.of_eq rfl rfl, hi.names.of_eq rfl rfl rfl rfl (List.Subset.refl _), ?_,
    hi.content.step (stable_of_segs rfl) rfl rfl rfl⟩
  exact hi.publish.endPublish hp hpc (Function.update_eq_self _ _).symm rfl

/-! ## Rings come and go -/

/-- Unlinking a name and forgetting rings of that name. -/
theorem NamesAgree.erase (h : s.NamesAgree) {name : Str} (hshm : t.shm = s.shm.erase name)
    (hr : t.readerRings = s.readerRings) (hc : t.created = s.created) (hwire : t.wire = s.wire)
    (hw : ∀ (topic : Str) (ring : WriterRing), t.writerRings[topic]? = some ring →
      s.writerRings[topic]? = some ring ∧ cStr ring.name ≠ name) : t.NamesAgree where
  bound := by
    intro topic ring hring
    obtain ⟨hring, hne⟩ := hw topic ring hring
    rw [hshm, StrMap.getElem?_erase_of_ne _ hne]
    exact h.bound topic ring hring
  mapped := by
    intro topic ring hring
    rw [hr]
    exact h.mapped topic ring (hw topic ring hring).1
  apart := by
    intro topic topic' ring ring' hring hring'
    exact h.apart topic topic' ring ring' (hw topic ring hring).1 (hw topic' ring' hring').1
  fits := fun topic ring hring => h.fits topic ring (hw topic ring hring).1
  born := by
    intro topic ring hring
    rw [hc]
    exact h.born topic ring (hw topic ring hring).1
  sent := by
    intro d hd
    rw [hwire] at hd
    refine ⟨?_, hr ▸ (h.sent d hd).mapped⟩
    intro k hk
    rw [hshm] at hk
    exact (h.sent d hd).shm k (StrMap.getElem?_of_erase _ hk).2

/-- With no publish in progress the invariant of publishes is about segments only. -/
theorem PublishInv.of_none (hi : s.PublishInv) (hp : s.publishing = none)
    (hsegs : t.segs = s.segs) (hp' : t.publishing = none) : t.PublishInv where
  written := by simp [hp']
  live := by simp [hp']
  idle := by
    intro k _
    rw [hsegs]
    exact hi.idle k (by simp [hp])

theorem Inv.removeWriterRing (hi : s.Inv) (hp : s.publishing = none) (topic : Str) :
    (s.removeWriterRing topic).Inv := by
  simp only [Transport.removeWriterRing]
  split
  case h_1 => exact hi
  case h_2 ring hring =>
    refine ⟨hi.segs.of_eq rfl rfl, hi.names.erase rfl rfl rfl rfl ?_,
      hi.publish.of_none hp rfl hp, hi.content.step (stable_of_segs rfl) rfl rfl rfl⟩
    intro topic' ring' hring'
    obtain ⟨hne, hring'⟩ := StrMap.getElem?_of_erase _ hring'
    refine ⟨hring', ?_⟩
    intro hname
    exact hne (hi.names.apart topic' topic ring' ring hring' hring hname)

/-- A publish that found its ring in the table. -/
theorem Inv.beginPublish (hi : s.Inv) (hp : s.publishing = none) {topic : Str}
    {ring : WriterRing} (hring : s.writerRings[topic]? = some ring) (bytes : List UInt8) :
    Inv { s with publishing := some { ring := ring, bytes := bytes } } := by
  have hidle : ∀ k, (s.segs k).writers () = .idle := fun k => hi.publish.idle k (by simp [hp])
  refine ⟨hi.segs.of_eq rfl rfl, hi.names.of_eq rfl rfl rfl rfl (List.Subset.refl _), ?_,
    hi.content.step (stable_of_segs rfl) rfl rfl rfl⟩
  refine ⟨?_, ?_, fun k _ => hidle k⟩
  · intro p hp
    rw [← Option.some.inj hp]
    simp only [Written, hidle]
  · intro p hp
    rw [← Option.some.inj hp]
    exact ⟨topic, hring⟩

/-- A segment that nobody has used yet looks like a new one. -/
theorem SegsInv.stable_create (hi : s.SegsInv) (slotSize slotCount : ℕ) :
    Stable s (s.setSeg s.created (SharedRing.create slotSize slotCount)) := by
  have hfresh := hi.fresh s.created (Nat.le_refl _)
  refine Seqlock.Stable.of_eq ?_ ?_
  · ext ⟨k, i⟩
    by_cases h : k = s.created
    · subst h
      simp [seqAt, SharedRing.seqOf, hfresh, SharedRing.create]
    · simp [seqAt, segs_setSeg_of_ne s h]
  · ext1 ⟨k, i⟩
    by_cases h : k = s.created
    · subst h
      simp [payloadAt, SharedRing.payloadOf, hfresh, SharedRing.create]
    · simp [payloadAt, segs_setSeg_of_ne s h]

theorem SegsInv.create (hi : s.SegsInv) (topic name : Str) {slotSize : ℕ}
    (hsmall : slotSize < 2 ^ 32) : (s.createAsWriter topic name slotSize).1.SegsInv := by
  have hsegs : (s.createAsWriter topic name slotSize).1.segs =
      (s.setSeg s.created (SharedRing.create slotSize ShmRing.kDefaultSlotCount)).segs := rfl
  refine ⟨?_, ?_, ?_, ?_⟩
  all_goals
    intro k
    rw [hsegs]
    by_cases h : k = s.created
  · rw [h, segs_setSeg_self]
    exact SharedRing.writerInv_create _ _
  · rw [segs_setSeg_of_ne s h]
    exact hi.writer k
  · rw [h, segs_setSeg_self]
    exact SharedRing.readerInv_create _ _
  · rw [segs_setSeg_of_ne s h]
    exact hi.reader k
  · rw [h, segs_setSeg_self]
    exact hsmall
  · rw [segs_setSeg_of_ne s h]
    exact hi.small k
  · intro hk
    change s.created + 1 ≤ k at hk
    omega
  · intro hk
    change s.created + 1 ≤ k at hk
    rw [segs_setSeg_of_ne s h]
    exact hi.fresh k (by omega)

/-- A ring of an unused name that fits a descriptor. -/
theorem NamesAgree.create (h : s.NamesAgree) (topic name : Str) (slotSize : ℕ)
    (hfits : name.take kShmNameRoom = name) (hunused : s.NameUnused (cStr name)) :
    (s.createAsWriter topic name slotSize).1.NamesAgree := by
  obtain ⟨hmapped, hwire, hrings⟩ := hunused
  have hother : ∀ (topic' : Str) (ring' : WriterRing), s.writerRings[topic']? = some ring' →
      cStr ring'.name ≠ cStr name := by
    intro topic' ring' hring'
    exact hrings (topic', ring') (Std.ExtTreeMap.mem_toList_iff_getElem?_eq_some.mpr hring')
  refine ⟨?_, ?_, ?_, ?_, ?_, ?_⟩
  · intro topic' ring' hring'
    obtain ⟨-, rfl⟩ | ⟨-, hring'⟩ := StrMap.getElem?_of_insert _ hring'
    · exact Std.ExtTreeMap.getElem?_insert_self
    · exact (StrMap.getElem?_insert_of_ne _ (hother topic' ring' hring') _).trans
        (h.bound topic' ring' hring')
  · intro topic' ring' hring' k hk
    obtain ⟨-, rfl⟩ | ⟨-, hring'⟩ := StrMap.getElem?_of_insert _ hring'
    · exact nomatch hmapped.symm.trans hk
    · exact h.mapped topic' ring' hring' k hk
  · intro topic₁ topic₂ ring₁ ring₂ h₁ h₂ hname
    obtain ⟨rfl, rfl⟩ | ⟨-, h₁⟩ := StrMap.getElem?_of_insert _ h₁
    · obtain ⟨rfl, -⟩ | ⟨-, h₂⟩ := StrMap.getElem?_of_insert _ h₂
      · rfl
      · exact absurd hname.symm (hother topic₂ ring₂ h₂)
    · obtain ⟨-, rfl⟩ | ⟨-, h₂⟩ := StrMap.getElem?_of_insert _ h₂
      · exact absurd hname (hother topic₁ ring₁ h₁)
      · exact h.apart topic₁ topic₂ ring₁ ring₂ h₁ h₂ hname
  · intro topic' ring' hring'
    obtain ⟨-, rfl⟩ | ⟨-, hring'⟩ := StrMap.getElem?_of_insert _ hring'
    · exact hfits
    · exact h.fits topic' ring' hring'
  · intro topic' ring' hring'
    obtain ⟨-, rfl⟩ | ⟨-, hring'⟩ := StrMap.getElem?_of_insert _ hring'
    · exact Nat.lt_succ_self _
    · exact Nat.lt_succ_of_lt (h.born topic' ring' hring')
  · intro d hd
    refine ⟨?_, (h.sent d hd).mapped⟩
    intro k hk
    exact (h.sent d hd).shm k
      ((StrMap.getElem?_insert_of_ne _ (hwire d hd) _).symm.trans hk)

/-- A new ring of an unused name, before it is used. -/
theorem Inv.create (hi : s.Inv) (hp : s.publishing = none) (topic name : Str) {slotSize : ℕ}
    (hfits : name.take kShmNameRoom = name) (hunused : s.NameUnused (cStr name))
    (hsmall : slotSize < 2 ^ 32) : (s.createAsWriter topic name slotSize).1.Inv := by
  refine ⟨hi.segs.create topic name hsmall, hi.names.create topic name slotSize hfits hunused, ?_,
    hi.content.step (hi.segs.stable_create _ _) rfl rfl rfl⟩
  have hnone : (s.createAsWriter topic name slotSize).1.publishing = none := hp
  refine ⟨by simp [hnone], by simp [hnone], ?_⟩
  intro k _
  change ((s.setSeg s.created _).segs k).writers () = .idle
  by_cases h : k = s.created
  · rw [h, segs_setSeg_self]
    rfl
  · rw [segs_setSeg_of_ne s h]
    exact hi.publish.idle k (by simp [hp])

/-! ## The receiver -/

/-- A step of the receiver with a descriptor that is no longer in flight. -/
theorem Inv.receiver (hi : s.Inv) {rest : List Sent} (hwire : rest ⊆ s.wire) {r : Receiver}
    {ps : List Parsed} (hr : ({ s with receiver := r } : Transport).ReceiverOk)
    (hps : ∀ q ∈ ps, q.Genuine) :
    Inv { s with wire := rest, receiver := r, parsed := ps } where
  segs := hi.segs.of_eq rfl rfl
  names := hi.names.of_eq rfl rfl rfl rfl hwire
  publish := ⟨hi.publish.written, hi.publish.live, hi.publish.idle⟩
  content := ⟨fun d hd => (hi.content.wire d (hwire hd)).step (stable_of_segs rfl),
    hr.step (stable_of_segs rfl) rfl, hps⟩

/-- The subscriber maps what the name of a descriptor means. -/
theorem NamesAgree.map (h : s.NamesAgree) {name : Str} {seg : ℕ}
    (hshm : s.shm[name]? = some seg) :
    NamesAgree { s with readerRings := s.readerRings.insert name seg } where
  bound := h.bound
  mapped := by
    intro topic ring hring k hk
    obtain ⟨hname, rfl⟩ | ⟨-, hk⟩ := StrMap.getElem?_of_insert _ hk
    · rw [← hname, h.bound topic ring hring] at hshm
      exact (Option.some.inj hshm).symm
    · exact h.mapped topic ring hring k hk
  apart := h.apart
  fits := h.fits
  born := h.born
  sent := by
    intro d hd
    refine ⟨(h.sent d hd).shm, ?_⟩
    intro k hk
    obtain ⟨hname, rfl⟩ | ⟨-, hk⟩ := StrMap.getElem?_of_insert _ hk
    · exact (h.sent d hd).shm k (hname ▸ hshm)
    · exact (h.sent d hd).mapped k hk

theorem segs_readerRingFor (s : Transport) (name : Str) (opened : Bool) :
    (s.readerRingFor name opened).1.segs = s.segs := by
  simp only [Transport.readerRingFor]
  split
  case h_1 => rfl
  case h_2 =>
    split
    case h_1 => rfl
    case h_2 => rfl

/-- `readerRingFor` gives the segment that the name means. -/
theorem Inv.readerRingFor (hi : s.Inv) {name : Str} {seg : ℕ} (hm : s.Means name seg)
    (opened : Bool) :
    (s.readerRingFor name opened).1.Inv ∧
      ∀ k, (s.readerRingFor name opened).2 = some k → k = seg := by
  simp only [Transport.readerRingFor]
  split
  case h_1 k hk =>
    refine ⟨hi, ?_⟩
    intro k' hk'
    rw [← Option.some.inj hk']
    exact hm.mapped k hk
  case h_2 =>
    split
    case h_1 k hk =>
      refine ⟨⟨hi.segs.of_eq rfl rfl, hi.names.map hk, ?_, ?_⟩, ?_⟩
      · exact ⟨hi.publish.written, hi.publish.live, hi.publish.idle⟩
      · exact hi.content.step (stable_of_segs rfl) rfl rfl rfl
      · intro k' hk'
        rw [← Option.some.inj hk']
        exact hm.shm k hk
    case h_2 => exact ⟨hi, fun k hk => nomatch hk⟩

/-- The slots are where the reader looks for them. -/
theorem SegsInv.openAsReader (hi : s.SegsInv) (platform : ShmPlatform) (k : ℕ) :
    (s.segs k).ring.openAsReader platform = (s.segs k).ring := by
  simp only [ShmRing.openAsReader, u32_of_lt (hi.small k), if_true]

theorem ReceiverOk.beginRead {seg : ℕ} {d : Sent} (h : s.ReceiverOk)
    (hr : s.receiver = .attached seg d)
    (hb : ((s.segs seg).ring.beginRead (handleOf d.descriptor)).isSome) :
    ({ s with receiver := .reading seg d [] } : Transport).ReceiverOk := by
  simp only [ReceiverOk, hr] at h
  obtain ⟨rfl, hd⟩ := h
  obtain ⟨hseq, heven⟩ := ShmRing.beginRead_isSome.mp hb
  refine ⟨rfl, hd.step (stable_of_segs rfl), by simp, heven, Nat.le_of_eq hseq.symm, ?_⟩
  intro _ x hx
  exact nomatch hx

theorem ReceiverOk.copyByte {seg off : ℕ} {d : Sent} {copied : List (ℕ × UInt8)}
    {b : UInt8} (h : s.ReceiverOk) (hr : s.receiver = .reading seg d copied)
    (hoff : off < d.descriptor.size)
    (hb : b = ((s.segs seg).ring.slots d.descriptor.slotIndex).payload off) :
    ({ s with receiver := .reading seg d ((off, b) :: copied) } : Transport).ReceiverOk := by
  simp only [ReceiverOk, hr] at h
  obtain ⟨rfl, hd, hlt, hcopied⟩ := h
  refine ⟨rfl, hd.step (stable_of_segs rfl), ?_, hcopied.even, hcopied.le, ?_⟩
  · intro x hx
    rcases List.mem_cons.mp hx with rfl | hx
    · exact hoff
    · exact hlt x hx
  · intro hseq x hx
    rcases List.mem_cons.mp hx with rfl | hx
    · exact hb
    · exact hcopied.holds hseq x hx

/-- The sequence value is still that of the descriptor: what was looked at is the
payload, and the payload is what was published. -/
theorem ReceiverOk.finishRead {seg : ℕ} {d : Sent} {copied : List (ℕ × UInt8)}
    (h : s.ReceiverOk) (hr : s.receiver = .reading seg d copied)
    (hf : (s.segs seg).ring.finishRead (handleOf d.descriptor)) : Parsed.Genuine ⟨d, copied⟩ := by
  simp only [ReceiverOk, hr] at h
  obtain ⟨rfl, hd, hlt, hcopied⟩ := h
  have hseq : s.seqAt (cellOf d) = d.descriptor.seq := of_decide_eq_true hf
  obtain ⟨payload, hpayload, hcarries⟩ := hcopied.both hd.pinned hseq
  refine ⟨hd.size, ?_⟩
  intro x hx
  have hx' : x.1 < d.published.length := by
    rw [← hd.size]
    exact hlt x hx
  rw [List.getElem?_eq_getElem hx', hpayload x hx,
    hcarries x.1 _ (List.getElem?_eq_getElem hx')]

/-! ## Runs -/

/-- A step of the publishing process. -/
theorem Inv.publishStep (hi : s.Inv) (hp : s.publishing = none) {topic : Str}
    {bytes : List UInt8} {mapped : Bool}
    (hsafe : SafeStep platform processUuid s (.publish topic bytes mapped))
    (h : next platform processUuid s (.publish topic bytes mapped) = some t) : t.Inv := by
  have hfits := take_makeShmName platform.hash topic processUuid
  simp only [next, hp, Transport.writerRingFor] at h
  cases hring : s.writerRings[topic]? with
  | some ring =>
      simp only [hring] at h
      by_cases hbig : (s.segs ring.seg).ring.slotSize < bytes.length
      · simp only [hbig, if_true] at h
        exact Option.some.inj h ▸ hi
      · simp only [hbig, if_false] at h
        exact Option.some.inj h ▸ hi.beginPublish hp hring bytes
  | none =>
      obtain ⟨hunused, hsmall⟩ := hsafe hring
      simp only [hring] at h
      cases mapped with
      | true =>
          have hcreate := hi.create hp topic _ hfits hunused hsmall
          rw [← Option.some.inj h]
          exact hcreate.beginPublish hp Std.ExtTreeMap.getElem?_insert_self bytes
      | false =>
          rw [← Option.some.inj h]
          refine ⟨hi.segs.of_eq rfl rfl, hi.names.erase rfl rfl rfl rfl ?_,
            hi.publish.of_none hp rfl rfl, hi.content.step (stable_of_segs rfl) rfl rfl rfl⟩
          intro topic' ring' hring'
          exact ⟨hring', hunused.2.2 (topic', ring')
            (Std.ExtTreeMap.mem_toList_iff_getElem?_eq_some.mpr hring')⟩

/-- **Safe steps keep the invariant.** -/
theorem Inv.step {a : Action} (hi : s.Inv) (hsafe : SafeStep platform processUuid s a)
    (h : next platform processUuid s a = some t) : t.Inv := by
  cases a with
  | advertise topic =>
      simp only [next] at h
      split at h
      case h_1 => exact Option.some.inj h ▸ hi
      case h_2 => cases h
  | unadvertise topic =>
      simp only [next] at h
      split at h
      case h_1 hp => exact Option.some.inj h ▸ hi.removeWriterRing hp topic
      case h_2 => cases h
  | publish topic bytes mapped =>
      cases hp : s.publishing with
      | none => exact hi.publishStep hp hsafe h
      | some p => simp [next, hp] at h
  | fetchAdd =>
      simp only [next] at h
      split at h
      case h_2 => cases h
      case h_1 p hp =>
        simp only [SafeStep, hp] at hsafe
        split at h
        case h_2 => cases h
        case h_1 hpc =>
          split at h
          case isTrue => exact Option.some.inj h ▸ hi.reject hp hpc
          case isFalse hfit =>
            obtain ⟨r, hs, rfl⟩ := ringStep_eq_some h
            exact hi.fetchAdd hp hpc (Nat.le_of_not_lt hfit) hsafe hs
  | storeOdd =>
      simp only [next] at h
      split at h
      case h_2 => cases h
      case h_1 p hp =>
        obtain ⟨r, hs, rfl⟩ := ringStep_eq_some h
        exact hi.storeOdd hp hs
  | writeByte off =>
      simp only [next] at h
      split at h
      case h_2 => cases h
      case h_1 p hp =>
        split at h
        case h_2 => cases h
        case h_1 b hb =>
          split at h
          case isFalse => cases h
          case isTrue =>
            obtain ⟨u, hu, rfl⟩ := Option.map_eq_some_iff.mp h
            obtain ⟨r, hs, rfl⟩ := ringStep_eq_some hu
            exact hi.writeByte hp hb hs
  | storeSize =>
      simp only [next] at h
      split at h
      case h_2 => cases h
      case h_1 p hp =>
        split at h
        case isFalse => cases h
        case isTrue hall =>
          obtain ⟨r, hs, rfl⟩ := ringStep_eq_some h
          exact hi.storeSize hp hall.1 hall.2 hs
  | commit sent =>
      simp only [next] at h
      split at h
      case h_2 => cases h
      case h_1 p hp =>
        split at h
        case h_2 => cases h
        case h_1 v n hpc =>
          obtain ⟨u, hu, rfl⟩ := Option.map_eq_some_iff.mp h
          obtain ⟨r, hs, rfl⟩ := ringStep_eq_some hu
          exact hi.commit hp sent hpc hs
  | abandon =>
      simp only [next] at h
      split at h
      case h_2 => cases h
      case h_1 p hp =>
        split at h
        case isTrue => cases h
        case isFalse =>
          obtain ⟨u, hu, rfl⟩ := Option.map_eq_some_iff.mp h
          obtain ⟨r, hs, rfl⟩ := ringStep_eq_some hu
          exact hi.abandon hp hs
  | skip =>
      simp only [next] at h
      split at h
      case h_2 => cases h
      case h_1 d rest hr hwire =>
        rw [← Option.some.inj h]
        exact hi.receiver (hwire ▸ List.subset_cons_self d rest) hi.content.receiver
          hi.content.parsed
  | receive opened =>
      simp only [next] at h
      split at h
      case h_2 => cases h
      case h_1 d rest hr hwire =>
        have hd : d ∈ s.wire := hwire ▸ List.mem_cons_self
        have hrest : Inv { s with wire := rest } :=
          hi.receiver (hwire ▸ List.subset_cons_self d rest) hi.content.receiver hi.content.parsed
        have hmeans : Means { s with wire := rest } d.descriptor.shmName d.seg :=
          ⟨(hi.names.sent d hd).shm, (hi.names.sent d hd).mapped⟩
        obtain ⟨hring, hseg⟩ := hrest.readerRingFor hmeans opened
        split at h
        case h_1 u hu =>
          rw [hu] at hring
          exact Option.some.inj h ▸ hring
        case h_2 u seg hu =>
          rw [hu] at hring hseg
          rw [← Option.some.inj h]
          refine hring.receiver (List.Subset.refl _) ⟨hseg seg rfl, ?_⟩ hring.content.parsed
          have hsegs : u.segs = s.segs := by
            have hkept := segs_readerRingFor { s with wire := rest } d.descriptor.shmName opened
            rw [hu] at hkept
            exact hkept
          exact (hi.content.wire d hd).step (stable_of_segs hsegs)
  | beginRead =>
      simp only [next] at h
      split at h
      case h_2 => cases h
      case h_1 seg d hr =>
        rw [hi.segs.openAsReader] at h
        split at h
        case isTrue hb =>
          rw [← Option.some.inj h]
          exact hi.receiver (List.Subset.refl _) (hi.content.receiver.beginRead hr hb)
            hi.content.parsed
        case isFalse =>
          rw [← Option.some.inj h]
          exact hi.receiver (List.Subset.refl _) trivial hi.content.parsed
  | copyByte off =>
      simp only [next] at h
      split at h
      case h_2 => cases h
      case h_1 seg d copied hr =>
        rw [hi.segs.openAsReader] at h
        split at h
        case isFalse => cases h
        case isTrue hoff =>
          rw [← Option.some.inj h]
          exact hi.receiver (List.Subset.refl _) (hi.content.receiver.copyByte hr hoff rfl)
            hi.content.parsed
  | finishRead =>
      simp only [next] at h
      split at h
      case h_2 => cases h
      case h_1 seg d copied hr =>
        rw [hi.segs.openAsReader] at h
        split at h
        case isTrue hf =>
          rw [← Option.some.inj h]
          refine hi.receiver (List.Subset.refl _) trivial ?_
          intro q hq
          rcases List.mem_cons.mp hq with rfl | hq
          · exact hi.content.receiver.finishRead hr hf
          · exact hi.content.parsed q hq
        case isFalse =>
          rw [← Option.some.inj h]
          exact hi.receiver (List.Subset.refl _) trivial hi.content.parsed

/-- **Delivery through shared memory is faithful** in every run whose rings are
created under unused names. -/
theorem parsed_genuine (platform : ShmPlatform) (processUuid : Str) (as : List Action)
    (s : Transport)
    (hsafe : Guarded (next platform processUuid) (SafeStep platform processUuid) {} as)
    (he : exec (next platform processUuid) {} as = some s) : ∀ q ∈ s.parsed, q.Genuine :=
  (invariant (fun _ _ _ hi hg ht => hi.step hg ht) inv_init hsafe he).content.parsed

/-- A platform for examples. -/
def examplePlatform : ShmPlatform where
  hash topic := topic.foldl (fun h b => h * 31 + b.toUInt64) 7
  stray r := r.slots

/-- Publish one byte into the ring of a topic. -/
def publishRun (topic : Str) (b : UInt8) : List Action :=
  [.publish topic [b] true, .fetchAdd, .storeOdd, .writeByte 0, .storeSize, .commit true]

/-- Receive the next descriptor and parse its byte. -/
def receiveRun : List Action := [.receive true, .beginRead, .copyByte 0, .finishRead]

/-- Two topics, of which the first is not advertised again. -/
def twoTopicsRun : List Action :=
  .advertise (str "a") :: publishRun (str "a") 1 ++ receiveRun ++
    [.unadvertise (str "a"), .advertise (str "b")] ++ publishRun (str "b") 2 ++ receiveRun

theorem parsed_genuine_two_topics :
    ∃ s, exec (next examplePlatform (str "4f0c")) {} twoTopicsRun = some s ∧
      s.parsed.map (·.copied) = [[(0, 2)], [(0, 1)]] ∧ ∀ q ∈ s.parsed, q.Genuine :=
  ⟨_, rfl, rfl, parsed_genuine examplePlatform (str "4f0c") twoTopicsRun _ (by decide) rfl⟩

/-- The topic is advertised again and its ring created afresh under the old name. -/
def readvertiseRun : List Action :=
  .advertise (str "a") :: publishRun (str "a") 1 ++ receiveRun ++
    [.unadvertise (str "a"), .advertise (str "a")] ++ publishRun (str "a") 2 ++ receiveRun

/-- The subscriber still maps the removed segment, whose first slot has the sequence
value that the new ring starts with: the second publish is parsed as the first. -/
theorem readvertiseRun_not_genuine :
    ∃ s, exec (next examplePlatform (str "4f0c")) {} readvertiseRun = some s ∧
      ¬ ∀ q ∈ s.parsed, q.Genuine := by
  refine ⟨_, rfl, ?_⟩
  intro h
  have hq := (h _ List.mem_cons_self).2 _ List.mem_cons_self
  exact absurd hq (by decide)

end Transport
end RfTrans
