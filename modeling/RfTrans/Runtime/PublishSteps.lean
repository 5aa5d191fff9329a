import RfTrans.Runtime.Effects
import RfTrans.Runtime.Publish

/-!
# A publish is a run of the interleaved machine

`Transport.publishRemoteShm` performs a publish in one go.  The machine of
`RfTrans.Transport` performs the same stores one at a time, and between any two of them the
receiver may take a step.  What is known of all the runs of that machine is thereby known of
publishes.

## Main definitions

* `Transport.Follows` — a machine at rest with the rings of a process.
* `Transport.publishSteps` — the steps of a publish.
* `Transport.Follows.publishRemoteShm`, `PubProcess.follows_step`
-/

namespace RfTrans

open Layout Exec

/-! ## Byte by byte -/

/-- One more byte of a run. -/
theorem store_take_succ (mem : ℕ → UInt8) (bytes : Str) {k : ℕ} {b : UInt8}
    (hb : bytes[k]? = some b) :
    store mem 0 (bytes.take (k + 1)) = Function.update (store mem 0 (bytes.take k)) k b := by
  funext i
  by_cases hi : i = k
  · subst hi
    simp [store, hb]
  · rw [Function.update_of_ne hi]
    simp only [store, Nat.zero_le, if_true, Nat.sub_zero, List.getElem?_take]
    by_cases hlt : i < k
    · rw [if_pos hlt, if_pos (by omega)]
    · rw [if_neg hlt, if_neg (by omega)]

namespace ShmRing

variable (r : ShmRing) (i : ℕ)

theorem setSlot_setSlot (f g : Slot → Slot) :
    (r.setSlot i f).setSlot i g = r.setSlot i fun s => g (f s) := by
  simp [setSlot]

theorem storePayload_nil : r.storePayload i 0 [] = r := by
  have hsame : store (r.slots i).payload 0 [] = (r.slots i).payload := by
    ext o
    simp [store]
  simp [storePayload, setSlot, hsame]

theorem storePayload_take_succ (bytes : Str) {k : ℕ} {b : UInt8} (hb : bytes[k]? = some b) :
    r.storePayload i 0 (bytes.take (k + 1)) =
      (r.storePayload i 0 (bytes.take k)).storeByte i k b := by
  simp only [storePayload, storeByte, setSlot_setSlot, store_take_succ _ bytes hb]

end ShmRing

namespace Transport

variable {platform : ShmPlatform} {processUuid : Str} {s m : Transport}

/-! ## The steps of a publish -/

section Steps
variable (m) (ring : WriterRing) (bytes : Str)

/-- A publish in progress: what it has written, and the ring and the place of its thread. -/
def inside (written : List ℕ) (r : ShmRing) (pc : WriterPc) : Transport :=
  { m.setSeg ring.seg (((m.segs ring.seg).setRing r).setWriter () pc) with
    publishing := some ⟨ring, bytes, written⟩ }

@[simp] theorem publishing_inside (written : List ℕ) (r : ShmRing) (pc : WriterPc) :
    (m.inside ring bytes written r pc).publishing = some ⟨ring, bytes, written⟩ := rfl

@[simp] theorem ring_inside (written : List ℕ) (r : ShmRing) (pc : WriterPc) :
    ((m.inside ring bytes written r pc).segs ring.seg).ring = r := by
  simp [inside, setSeg, SharedRing.setWriter, SharedRing.setRing]

@[simp] theorem writer_inside (written : List ℕ) (r : ShmRing) (pc : WriterPc) :
    ((m.inside ring bytes written r pc).segs ring.seg).writers () = pc := by
  simp [inside, setSeg, SharedRing.setWriter]

/-- The ring and the thread move on. -/
theorem inside_moves (written written' : List ℕ) (r r' : ShmRing) (pc pc' : WriterPc) :
    { (m.inside ring bytes written r pc).setSeg ring.seg
        ((((m.inside ring bytes written r pc).segs ring.seg).setRing r').setWriter () pc') with
      publishing := some ⟨ring, bytes, written'⟩ } = m.inside ring bytes written' r' pc' := by
  simp [inside, setSeg, SharedRing.setWriter, SharedRing.setRing]

variable {m ring bytes} {written : List ℕ} {r : ShmRing}

theorem next_storeOdd (cursor n : ℕ) :
    next platform processUuid (m.inside ring bytes written r (.claimed cursor n)) .storeOdd =
      some (m.inside ring bytes written
        (r.storeSeq (r.reservation cursor).slotIndex (r.reservation cursor).beginSeq)
        (.writing (r.reservation cursor) n)) := by
  simp only [next, publishing_inside, ringStep, SharedRing.next, writer_inside, ring_inside,
    Option.map_some]
  exact congrArg some (m.inside_moves ring bytes written written ..)

theorem next_writeByte {v : ReservedSlot} {n off : ℕ} {b : UInt8} (hb : bytes[off]? = some b)
    (hser : serializable bytes) (hoff : off < r.slotSize) :
    next platform processUuid (m.inside ring bytes written r (.writing v n)) (.writeByte off) =
      some (m.inside ring bytes (off :: written) (r.storeByte v.slotIndex off b)
        (.writing v n)) := by
  simp only [next, publishing_inside, hb, if_pos hser, ringStep, SharedRing.next, writer_inside,
    ring_inside, if_pos hoff, Option.map_some]
  refine (congrArg some ?_).trans
    (congrArg some (m.inside_moves ring bytes written (off :: written) r _ (.writing v n) _))
  simp [inside, setSeg, SharedRing.setRing, SharedRing.setWriter]

theorem next_storeSize {v : ReservedSlot} {n : ℕ} (hn : bytes.length ≤ n)
    (hser : serializable bytes) (hall : ∀ off < bytes.length, off ∈ written) :
    next platform processUuid (m.inside ring bytes written r (.writing v n)) .storeSize =
      some (m.inside ring bytes written (r.storeSize v.slotIndex (u32 bytes.length))
        (.sized v bytes.length)) := by
  simp only [next, publishing_inside, if_pos (And.intro hser hall), ringStep, SharedRing.next,
    writer_inside, ring_inside, if_pos hn, Option.map_some]
  exact congrArg some (m.inside_moves ring bytes written written ..)

/-- The bytes of a message, from the first one on. -/
theorem exec_writeBytes {v : ReservedSlot} {n : ℕ} (hser : serializable bytes)
    (hsize : bytes.length ≤ r.slotSize) {k : ℕ} (hk : k ≤ bytes.length) :
    exec (next platform processUuid) (m.inside ring bytes [] r (.writing v n))
        ((List.range k).map .writeByte) =
      some (m.inside ring bytes (List.range k).reverse (r.storePayload v.slotIndex 0 (bytes.take k))
        (.writing v n)) := by
  induction k with
  | zero => simp [ShmRing.storePayload_nil]
  | succ k ih =>
      have hb : bytes[k]? = some bytes[k] := List.getElem?_eq_getElem hk
      rw [List.range_succ, List.map_append, exec_append, ih (Nat.le_of_succ_le hk),
        Option.bind_some, ShmRing.storePayload_take_succ r _ bytes hb]
      simp only [List.map_singleton, exec_cons, exec_nil, List.reverse_append,
        List.reverse_singleton, List.singleton_append]
      have hoff : k < (r.storePayload v.slotIndex 0 (bytes.take k)).slotSize := hk.trans hsize
      rw [next_writeByte hb hser hoff, Option.bind_some]

/-- What is left when a publish is over: its thread is at rest, the ring has changed, and
the descriptor is sent. -/
structure Ended (m : Transport) (seg : ℕ) (r : ShmRing) (sent : List Sent) (m' : Transport) :
    Prop where
  publishing : m'.publishing = none
  writers : (∀ k, k ≠ seg → (m.segs k).writers () = .idle) → ∀ k, (m'.segs k).writers () = .idle
  rings : ∀ k, (m'.segs k).ring = ((m.setRing seg r).segs k).ring
  created : m'.created = m.created
  shm : m'.shm = m.shm
  writerRings : m'.writerRings = m.writerRings
  wire : m'.wire = m.wire ++ sent

variable (platform processUuid m ring bytes) in
theorem next_commit (written : List ℕ) (r : ShmRing) (v : ReservedSlot) (n : ℕ) :
    ∃ m', next platform processUuid (m.inside ring bytes written r (.sized v n)) (.commit true) =
        some m' ∧
      Ended m ring.seg (r.storeSeq v.slotIndex (ShmRing.handleOf v n).seq)
        [⟨descriptorOf ring (ShmRing.handleOf v n), ring.seg, bytes⟩] m' := by
  simp only [next, publishing_inside, ringStep, SharedRing.next, writer_inside, ring_inside,
    Option.map_some]
  refine ⟨_, rfl, rfl, ?_, ?_, rfl, rfl, rfl, rfl⟩
  · intro hidle k
    by_cases hk : k = ring.seg
    · subst hk
      simp [send, endPublish, setSeg, SharedRing.addCommit, SharedRing.setWriter]
    · simpa [send, endPublish, setSeg, inside, hk] using hidle k hk
  · intro k
    by_cases hk : k = ring.seg
    · subst hk
      simp [send, endPublish, setSeg, SharedRing.addCommit, SharedRing.setWriter,
        SharedRing.setRing, ShmRing.handleOf]
    · simp [send, endPublish, setSeg, inside, hk, ring_setRing_of_ne _ hk]

variable (platform processUuid m ring) in
theorem next_abandon (written : List ℕ) (r : ShmRing) (v : ReservedSlot) (n : ℕ)
    (hser : ¬ serializable bytes) :
    ∃ m', next platform processUuid (m.inside ring bytes written r (.writing v n)) .abandon =
        some m' ∧ Ended m ring.seg r [] m' := by
  simp only [next, publishing_inside, if_neg hser, ringStep, SharedRing.next, writer_inside,
    Option.map_some]
  refine ⟨_, rfl, rfl, ?_, ?_, rfl, rfl, rfl, ?_⟩
  · intro hidle k
    by_cases hk : k = ring.seg
    · subst hk
      simp [endPublish, setSeg, SharedRing.setWriter]
    · simpa [endPublish, setSeg, inside, hk] using hidle k hk
  · intro k
    by_cases hk : k = ring.seg
    · subst hk
      simp [endPublish, setSeg, SharedRing.setWriter, inside, SharedRing.setRing]
    · simp [endPublish, setSeg, inside, hk, ring_setRing_of_ne _ hk]
  · simp [endPublish, inside, setSeg]

/-- The beginning of a publish, up to the return of `reserveWrite`. -/
theorem exec_reserve {t : Transport} (hpc : (t.segs ring.seg).writers () = .idle)
    (hsize : bytes.length ≤ (t.segs ring.seg).ring.slotSize) :
    exec (next platform processUuid) { t with publishing := some ⟨ring, bytes, []⟩ }
        [.fetchAdd, .storeOdd] =
      some (t.inside ring bytes [] ((t.segs ring.seg).ring.reserveWrite bytes.length).1
        (.writing ((t.segs ring.seg).ring.reservation (t.segs ring.seg).ring.writeCursor)
          bytes.length)) := by
  have hfetch : next platform processUuid { t with publishing := some ⟨ring, bytes, []⟩ }
      .fetchAdd = some (t.inside ring bytes [] (t.segs ring.seg).ring.fetchAdd
        (.claimed (t.segs ring.seg).ring.writeCursor bytes.length)) := by
    simp only [next, hpc, if_neg (Nat.not_lt.mpr hsize), ringStep, SharedRing.next,
      Option.map_some]
    rfl
  have hreserved : ((t.segs ring.seg).ring.reserveWrite bytes.length).1 =
      (t.segs ring.seg).ring.fetchAdd.storeSeq
        ((t.segs ring.seg).ring.reservation (t.segs ring.seg).ring.writeCursor).slotIndex
        ((t.segs ring.seg).ring.reservation (t.segs ring.seg).ring.writeCursor).beginSeq := by
    rw [ShmRing.reserveWrite, if_neg (Nat.not_lt.mpr hsize)]
  rw [exec_cons, hfetch, Option.bind_some, exec_cons, next_storeOdd, hreserved]
  rfl

variable (platform processUuid m ring) in
/-- **A publish that goes through.** -/
theorem exec_written (v : ReservedSlot) (hser : serializable bytes)
    (hsize : bytes.length ≤ r.slotSize) :
    ∃ m', exec (next platform processUuid) (m.inside ring bytes [] r (.writing v bytes.length))
        ((List.range bytes.length).map .writeByte ++ [.storeSize, .commit true]) = some m' ∧
      Ended m ring.seg (r.writeReserved bytes v).1
        [⟨descriptorOf ring (r.writeReserved bytes v).2, ring.seg, bytes⟩] m' := by
  have hall : ∀ off < bytes.length, off ∈ (List.range bytes.length).reverse := by
    intro off hoff
    rw [List.mem_reverse, List.mem_range]
    exact hoff
  have hrun : exec (next platform processUuid)
      (m.inside ring bytes [] r (.writing v bytes.length))
        ((List.range bytes.length).map .writeByte ++ [.storeSize, .commit true]) =
      next platform processUuid (m.inside ring bytes (List.range bytes.length).reverse
        ((r.storePayload v.slotIndex 0 bytes).storeSize v.slotIndex (u32 bytes.length))
        (.sized v bytes.length)) (.commit true) := by
    rw [exec_append, exec_writeBytes hser hsize le_rfl, Option.bind_some, List.take_length,
      exec_cons, next_storeSize le_rfl hser hall, Option.bind_some, exec_cons]
    simp only [exec_nil, Option.bind_fun_some]
  rw [hrun]
  exact next_commit platform processUuid m ring bytes ..

end Steps

/-! ## The rings of a process -/

/-- The machine is at rest, with the rings of a process. -/
structure Follows (s m : Transport) : Prop where
  publishing : m.publishing = none
  writers : ∀ k, (m.segs k).writers () = .idle
  rings : ∀ k, (m.segs k).ring = (s.segs k).ring
  created : m.created = s.created
  shm : m.shm = s.shm
  writerRings : m.writerRings = s.writerRings

theorem follows_init : Follows {} {} := ⟨rfl, fun _ => rfl, fun _ => rfl, rfl, rfl, rfl⟩

theorem Follows.removeWriterRing (h : Follows s m) (topic : Str) :
    Follows (s.removeWriterRing topic) (m.removeWriterRing topic) := by
  unfold Transport.removeWriterRing
  rw [h.writerRings]
  cases s.writerRings[topic]? with
  | none => exact h
  | some ring =>
      exact ⟨h.publishing, h.writers, h.rings, h.created,
        congrArg (fun shm => shm.erase (cStr ring.name)) h.shm, rfl⟩

variable (platform processUuid) in
/-- Both look up or create the same ring. -/
theorem Follows.writerRingFor (h : Follows s m) (topic : Str) (size : ℕ) (mapped : Bool) :
    (m.writerRingFor platform processUuid topic size mapped).2 =
        (s.writerRingFor platform processUuid topic size mapped).2 ∧
      (m.writerRingFor platform processUuid topic size mapped).1.wire = m.wire ∧
      Follows (s.writerRingFor platform processUuid topic size mapped).1
        (m.writerRingFor platform processUuid topic size mapped).1 := by
  unfold Transport.writerRingFor
  rw [h.writerRings]
  cases s.writerRings[topic]? with
  | some ring =>
      simp only [h.rings]
      split <;> exact ⟨rfl, rfl, h⟩
  | none =>
      cases mapped with
      | false =>
          simp only [if_neg Bool.false_ne_true]
          refine ⟨trivial, trivial, h.publishing, h.writers, h.rings, h.created, ?_, rfl⟩
          rw [h.shm]
      | true =>
          simp only [if_true, createAsWriter, h.created]
          refine ⟨trivial, rfl, h.publishing, ?_, ?_, rfl, ?_, ?_⟩
          · intro k
            by_cases hk : k = s.created
            · subst hk
              simp [setSeg, SharedRing.create]
            · simpa [setSeg, Function.update_of_ne hk] using h.writers k
          · intro k
            by_cases hk : k = s.created
            · subst hk
              simp [setSeg]
            · simpa [setSeg, Function.update_of_ne hk] using h.rings k
          · simp [h.shm]
          · simp [h.writerRings]

theorem Ended.follows {t u m' : Transport} {seg : ℕ} {r : ShmRing} {sent : List Sent}
    (he : Ended u seg r sent m') (h : Follows t u) : Follows (t.setRing seg r) m' where
  publishing := he.publishing
  writers := he.writers fun k _ => h.writers k
  rings k := by
    rw [he.rings]
    by_cases hk : k = seg
    · subst hk
      rw [ring_setRing_self, ring_setRing_self]
    · rw [ring_setRing_of_ne _ hk, ring_setRing_of_ne _ hk]
      exact h.rings k
  created := he.created.trans h.created
  shm := he.shm.trans h.shm
  writerRings := he.writerRings.trans h.writerRings

variable (platform processUuid) in
/-- **A publish is a run of the machine**, which sends what the publish sends. -/
theorem Follows.publishRemoteShm (h : Follows s m) (hi : s.RingsInv)
    (topic address msgType bytes : Str) (mapped : Bool) :
    let o := s.publishRemoteShm platform processUuid topic address msgType bytes mapped
    ∃ steps sent m',
      exec (next platform processUuid) m (.publish topic bytes mapped :: steps) = some m' ∧
        Follows o.1 m' ∧ m'.wire = m.wire ++ sent ∧
        o.2.1 = sent.map fun d =>
          ⟨topic, address, d.descriptor.bytes, kShmMsgTypeMarker :: msgType⟩ := by
  obtain ⟨hfound, hwire, hfollow⟩ :=
    h.writerRingFor platform processUuid topic bytes.length mapped
  have hlook := hi.writerRingFor platform processUuid topic bytes.length mapped
  rcases hw : s.writerRingFor platform processUuid topic bytes.length mapped with ⟨t, found⟩
  rcases hm : m.writerRingFor platform processUuid topic bytes.length mapped with ⟨u, found'⟩
  rw [hw] at hlook hfollow hfound
  rw [hm] at hfollow hfound hwire
  simp only at hfound hfollow hwire
  subst hfound
  cases found' with
  | none =>
      rw [publishRemoteShm_none hw]
      refine ⟨[], [], u, ?_, hfollow, by simp [hwire], rfl⟩
      simp only [exec_cons, exec_nil, next, h.publishing, hm, Option.bind_some]
  | some ring =>
      obtain ⟨-, hfits⟩ := hlook.ring ring rfl
      have hsame := hfollow.rings ring.seg
      obtain ⟨r, hr, hkept, -⟩ := (t.segs ring.seg).ring.exists_reserveWrite hfits
      have hsize : bytes.length ≤ r.slotSize := hkept.symm ▸ hfits
      rw [publishRemoteShm_some hw hr]
      have hstart : ∀ steps, exec (next platform processUuid) m
          (.publish topic bytes mapped :: ([.fetchAdd, .storeOdd] ++ steps)) =
            exec (next platform processUuid) (u.inside ring bytes [] r
              (.writing ((t.segs ring.seg).ring.reservation (t.segs ring.seg).ring.writeCursor)
                bytes.length)) steps := by
        intro steps
        have hpublish : next platform processUuid m (.publish topic bytes mapped) =
            some { u with publishing := some ⟨ring, bytes, []⟩ } := by
          simp only [next, h.publishing, hm]
        rw [exec_cons, hpublish, Option.bind_some, exec_append,
          exec_reserve (hfollow.writers _) (hsame ▸ hfits), Option.bind_some, hsame, hr]
      by_cases hser : serializable bytes
      · rw [if_pos hser]
        obtain ⟨m', hm', hended⟩ := exec_written platform processUuid u ring
          ((t.segs ring.seg).ring.reservation (t.segs ring.seg).ring.writeCursor) hser hsize
        refine ⟨_, _, m', (hstart _).trans hm', ?_, hwire ▸ hended.wire, rfl⟩
        rw [setRing_setRing]
        exact hended.follows hfollow
      · rw [if_neg hser]
        obtain ⟨m', hm', hended⟩ := next_abandon platform processUuid u ring [] r
          ((t.segs ring.seg).ring.reservation (t.segs ring.seg).ring.writeCursor) bytes.length hser
        refine ⟨_, [], m', (hstart [.abandon]).trans ?_, hended.follows hfollow,
          hwire ▸ hended.wire, rfl⟩
        rw [exec_cons, hm', Option.bind_some, exec_nil]

end Transport

/-! ## Runs of a process -/

namespace PubProcess

variable {platform : ShmPlatform} {processUuid : Str} {s t : PubProcess}

/-- The process runs under its uuid, and a run of the machine has led to its rings. -/
structure Followed (platform : ShmPlatform) (processUuid : Str) (s : PubProcess) : Prop where
  running : s.runtime.Running
  uuid : s.runtime.processUuid = processUuid
  rings : s.transport.RingsInv
  machine : ∃ steps m, exec (Transport.next platform processUuid) {} steps = some m ∧
    Transport.Follows s.transport m

variable (platform) in
theorem runtime_publish (s : PubProcess) (publisher : MessagePublisherInfo) (bytes : Str)
    (mapped : Bool) : (s.publish platform publisher bytes mapped).1.runtime = s.runtime := by
  simp only [publish]
  by_cases hremote : s.runtime.haveRemote publisher.topic publisher.msgType = true
  · rw [if_pos hremote]
    generalize (if (publisher.msgOpts.useShm && publisher.msgOpts.scope = .host) = true then
      s.transport.publishRemoteShm platform s.runtime.processUuid publisher.topic s.runtime.address
        publisher.msgType bytes mapped
      else (s.transport, [], false)) = o
    split
    case isTrue => rfl
    case isFalse => split <;> rfl
  · rw [if_neg hremote]

/-- **One step.** -/
theorem Followed.step (h : s.Followed platform processUuid) {a : Action}
    (hs : PubProcess.step platform s a = some t) : t.Followed platform processUuid := by
  obtain ⟨steps, m, hrun, hfollow⟩ := h.machine
  have hrings := (step_rings h.rings hs).1
  cases a with
  | publish publisher bytes mapped =>
      obtain rfl := Option.some.inj hs
      have hruntime := s.runtime_publish platform publisher bytes mapped
      refine ⟨hruntime ▸ h.running, hruntime ▸ h.uuid, hrings, ?_⟩
      rcases s.transport_publish platform publisher bytes mapped with hsame | hsame
      · exact ⟨steps, m, hrun, hsame ▸ hfollow⟩
      · obtain ⟨more, -, m', hmore, hfollow', -⟩ := hfollow.publishRemoteShm platform
          s.runtime.processUuid h.rings publisher.topic s.runtime.address publisher.msgType bytes
          mapped
        rw [h.uuid] at hmore
        exact ⟨_, m', exec_trans hrun hmore, hsame ▸ hfollow'⟩
  | perform a =>
      obtain ⟨x, hx, rfl⟩ := Option.map_eq_some_iff.mp hs
      have hkept := MessageRuntime.kept_perform h.running hx
      refine ⟨hkept.running h.running, hkept.processUuid.trans h.uuid, hrings, ?_⟩
      cases a with
      | unadvertise topic nodeUuid =>
          have hremove : exec (Transport.next platform processUuid) m [.unadvertise topic] =
              some (m.removeWriterRing topic) := by
            simp only [exec_cons, exec_nil, Transport.next, hfollow.publishing, Option.bind_some]
          exact ⟨_, _, exec_trans hrun hremove, hfollow.removeWriterRing topic⟩
      | _ => exact ⟨steps, m, hrun, hfollow⟩

/-- **Every run of a process is a run of the interleaved machine** as far as rings go. -/
theorem followed_of_exec (processName hostAddr address : Str) {run : List Action}
    (h : exec (PubProcess.step platform) (init processUuid processName hostAddr address) run =
      some s) : s.Followed platform processUuid :=
  stable (P := Followed platform processUuid) (fun _ _ _ hs ha => hs.step ha)
    ⟨MessageRuntime.running_init .., rfl, Transport.ringsInv_init, [], {}, rfl,
      Transport.follows_init⟩ h

end PubProcess
end RfTrans
