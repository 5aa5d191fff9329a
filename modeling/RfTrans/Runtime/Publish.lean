import RfTrans.Ring.Delivery
import RfTrans.Ring.WriterMapping
import RfTrans.Runtime.RemoteMsg

/-!
# What a publish sends

`publish` tries shared memory first, for a publisher of this host that asks for it, and
sends the message inline when `publishRemoteShm` gives up: the ring of the topic is too
small, it cannot be created, or the message cannot be serialized.  The ring is sized by the
first message after the topic was advertised.

## Main definitions

* `Frames` — a message on the PUB socket.
* `Transport.publishRemoteShm` — the fast path.
* `PubProcess` — the runtime with its rings, `PubProcess.publish`, `PubProcess.step`.
* `PubProcess.SendsOne` — what a publish sends.
* `PubProcess.publish_sends_one`
-/

namespace RfTrans

open Layout Exec

/-- The four frames of a message on the PUB socket. -/
structure Frames where
  topic : Str
  address : Str
  data : Str
  msgType : Str
  deriving DecidableEq

/-- The frames of a message, with what its third one holds. -/
def PubMessage.frames (m : PubMessage) (data : Str) : Frames :=
  ⟨m.topic, m.address, data, if m.isShm then kShmMsgTypeMarker :: m.msgType else m.msgType⟩

/-! ## One slot -/

namespace ShmRing

variable (r : ShmRing) (bytes : Str)

/-- A message is serialized into a reserved slot, and the slot committed. -/
def writeReserved (reserved : ReservedSlot) : ShmRing × SlotHandle :=
  (r.storePayload reserved.slotIndex 0 bytes).commitWrite reserved bytes.length

@[simp] theorem slotSize_writeReserved (reserved : ReservedSlot) :
    (r.writeReserved bytes reserved).1.slotSize = r.slotSize := rfl

@[simp] theorem slotCount_writeReserved (reserved : ReservedSlot) :
    (r.writeReserved bytes reserved).1.slotCount = r.slotCount := rfl

/-- A size that fits the slots is not turned down, and the ring keeps its sizes. -/
theorem exists_reserveWrite {size : ℕ} (h : size ≤ r.slotSize) :
    ∃ r', r.reserveWrite size = (r', some (r.reservation r.writeCursor)) ∧
      r'.slotSize = r.slotSize ∧ r'.slotCount = r.slotCount := by
  rw [reserveWrite, if_neg (by omega)]
  exact ⟨_, rfl, rfl, rfl⟩

theorem slotIndex_lt (cursor : ℕ) (h : 0 < r.slotCount) :
    (r.reservation cursor).slotIndex < r.slotCount :=
  (Nat.mod_le ..).trans_lt (Nat.mod_lt _ h)

/-- What is handed out depends on the number of slots only. -/
theorem reservation_congr {r r' : ShmRing} (h : r'.slotCount = r.slotCount) (cursor : ℕ) :
    r'.reservation cursor = r.reservation cursor := by
  rw [reservation, reservation, indexOf, indexOf, h]

/-- The sequence value of a commit is even. -/
theorem handleOf_even (cursor size : ℕ) : (handleOf (r.reservation cursor) size).seq % 2 = 0 := by
  simp only [handleOf, reservation, u64]
  omega

/-- **A committed slot holds the message.** -/
theorem writeReserved_spec (cursor : ℕ) (hsize : bytes.length < 2 ^ 32) :
    let (r', handle) := r.writeReserved bytes (r.reservation cursor)
    r'.beginRead handle = some ⟨(r.reservation cursor).slotIndex, bytes.length⟩ ∧
      bytesAt (r'.slots handle.slotIndex).payload 0 bytes.length = bytes := by
  have heven := r.handleOf_even cursor bytes.length
  have hlen : u32 bytes.length = bytes.length := u32_of_lt hsize
  constructor
  · have hseq : ((r.writeReserved bytes (r.reservation cursor)).1.slots
        (r.reservation cursor).slotIndex).seq =
          (handleOf (r.reservation cursor) bytes.length).seq := by
      simp [writeReserved, commitWrite, storeSeq, handleOf]
    have hread : beginRead (r.writeReserved bytes (r.reservation cursor)).1
        (handleOf (r.reservation cursor) bytes.length) =
          some ⟨(r.reservation cursor).slotIndex, u32 bytes.length⟩ := by
      refine if_neg (not_or.mpr ⟨not_not.mpr hseq, not_not.mpr ?_⟩)
      exact (congrArg (· % 2) hseq).trans heven
    rwa [hlen] at hread
  · have hstored : bytesAt (store (r.slots (r.reservation cursor).slotIndex).payload 0 bytes) 0
        bytes.length = bytes := bytesAt_store_self
    simpa [writeReserved, commitWrite, storeSeq, storeSize, storePayload, handleOf] using hstored

end ShmRing

/-! ## The fast path -/

namespace Transport

variable (platform : ShmPlatform) (processUuid : Str)

/-- The ring in a segment changes. -/
def setRing (s : Transport) (seg : ℕ) (r : ShmRing) : Transport :=
  s.setSeg seg ((s.segs seg).setRing r)

@[simp] theorem ring_setRing_self (s : Transport) (seg : ℕ) (r : ShmRing) :
    ((s.setRing seg r).segs seg).ring = r := by
  simp [setRing, setSeg, SharedRing.setRing]

theorem ring_setRing_of_ne (s : Transport) {seg k : ℕ} (h : k ≠ seg) (r : ShmRing) :
    ((s.setRing seg r).segs k).ring = (s.segs k).ring := by
  simp [setRing, setSeg, Function.update_of_ne h]

theorem setRing_setRing (s : Transport) (seg : ℕ) (r r' : ShmRing) :
    (s.setRing seg r).setRing seg r' = s.setRing seg r' := by
  simp [setRing, setSeg, SharedRing.setRing]

/-- `publishRemoteShm`: what it sends and what it returns, when the socket takes everything.
A message that cannot be serialized leaves its slot mid-write. -/
def publishRemoteShm (s : Transport) (topic address msgType bytes : Str) (mapped : Bool) :
    Transport × List Frames × Bool :=
  match s.writerRingFor platform processUuid topic bytes.length mapped with
  | (s, none) => (s, [], false)
  | (s, some ring) =>
    let (r, reserved) := (s.segs ring.seg).ring.reserveWrite bytes.length
    let s := s.setRing ring.seg r
    match reserved with
    | none => (s, [], false)
    | some reserved =>
      if serializable bytes then
        let (r, handle) := r.writeReserved bytes reserved
        let message : PubMessage := ⟨topic, address, true, msgType⟩
        (s.setRing ring.seg r, [message.frames (descriptorOf ring handle).bytes], true)
      else (s, [], false)

/-- There is room for a message: in the ring of the topic, or else in a new one. -/
def HasRoom (s : Transport) (topic : Str) (size : ℕ) (mapped : Bool) : Prop :=
  match s.writerRings[topic]? with
  | some ring => size ≤ (s.segs ring.seg).ring.slotSize
  | none => mapped = true

/-- The data is the descriptor of a committed slot of the topic's ring that holds the bytes. -/
def InSlot (s : Transport) (topic bytes data : Str) : Prop :=
  ∃ ring, s.writerRings[topic]? = some ring ∧
    let r := (s.segs ring.seg).ring
    let d := ShmDescriptor.ofBytes data
    data.length = sizeofShmDescriptor ∧ d.shmName = cStr (ring.name.take kShmNameRoom) ∧
      d.slotIndex < r.slotCount ∧
      r.beginRead (handleOf d) = some ⟨d.slotIndex, bytes.length⟩ ∧
      bytesAt (r.slots d.slotIndex).payload 0 bytes.length = bytes

/-- What holds of the rings of the table. -/
structure RingsInv (s : Transport) : Prop where
  born : ∀ (topic : Str) (ring : WriterRing), s.writerRings[topic]? = some ring →
    ring.seg < s.created
  count : ∀ (topic : Str) (ring : WriterRing), s.writerRings[topic]? = some ring →
    (s.segs ring.seg).ring.slotCount = ShmRing.kDefaultSlotCount

variable {platform processUuid} {s t : Transport} {topic : Str} {size : ℕ} {mapped : Bool}

/-- Whole pages are enough for the message. -/
theorem le_slotSizeFor (size : ℕ) : size ≤ slotSizeFor size := by
  unfold slotSizeFor ShmRing.kShmGranularity
  omega

theorem ringsInv_init : RingsInv {} where
  born := by simp
  count := by simp

/-- Rings are removed, the others stay. -/
theorem getElem?_removeWriterRing (s : Transport) (topic topic' : Str) :
    (s.removeWriterRing topic).writerRings[topic']? =
      if topic' = topic then none else s.writerRings[topic']? := by
  unfold removeWriterRing
  by_cases h : topic' = topic
  · subst h
    rw [if_pos rfl]
    cases hring : s.writerRings[topic']? with
    | none => exact hring
    | some ring => simp
  · rw [if_neg h]
    cases hring : s.writerRings[topic]? with
    | none => rfl
    | some ring => exact StrMap.getElem?_erase_of_ne _ h

theorem segs_removeWriterRing (s : Transport) (topic : Str) :
    (s.removeWriterRing topic).segs = s.segs := by
  unfold removeWriterRing
  split <;> rfl

theorem created_removeWriterRing (s : Transport) (topic : Str) :
    (s.removeWriterRing topic).created = s.created := by
  unfold removeWriterRing
  split <;> rfl

theorem RingsInv.removeWriterRing (hi : s.RingsInv) (topic : Str) :
    (s.removeWriterRing topic).RingsInv where
  born topic' ring h := by
    rw [getElem?_removeWriterRing] at h
    rw [created_removeWriterRing]
    split at h
    case isTrue => cases h
    case isFalse => exact hi.born topic' ring h
  count topic' ring h := by
    rw [getElem?_removeWriterRing] at h
    rw [segs_removeWriterRing]
    split at h
    case isTrue => cases h
    case isFalse => exact hi.count topic' ring h

/-- What `writerRingFor` does: the ring it returns is the topic's and has room, it returns
one when there is room, and the rings that there were are as before. -/
structure Looked (s : Transport) (topic : Str) (size : ℕ) (mapped : Bool) (t : Transport)
    (found : Option WriterRing) : Prop where
  inv : t.RingsInv
  room : found.isSome = true ↔ s.HasRoom topic size mapped
  ring : ∀ ring, found = some ring → t.writerRings[topic]? = some ring ∧
    size ≤ (t.segs ring.seg).ring.slotSize
  kept : ∀ (topic' : Str) (ring : WriterRing), s.writerRings[topic']? = some ring →
    t.writerRings[topic']? = some ring ∧ (t.segs ring.seg).ring = (s.segs ring.seg).ring

variable (platform processUuid) in
theorem RingsInv.writerRingFor (hi : s.RingsInv) (topic : Str) (size : ℕ) (mapped : Bool) :
    Looked s topic size mapped (s.writerRingFor platform processUuid topic size mapped).1
      (s.writerRingFor platform processUuid topic size mapped).2 := by
  unfold Transport.writerRingFor
  cases hring : s.writerRings[topic]? with
  | some ring =>
      by_cases hsmall : (s.segs ring.seg).ring.slotSize < size
      · simp only [if_pos hsmall]
        refine ⟨hi, ?_, nofun, fun _ _ h => ⟨h, rfl⟩⟩
        simp [HasRoom, hring, hsmall]
      · simp only [if_neg hsmall]
        refine ⟨hi, ?_, ?_, fun _ _ h => ⟨h, rfl⟩⟩
        · simp only [HasRoom, hring, Option.isSome_some, true_iff]
          omega
        · intro ring' h
          obtain rfl := Option.some.inj h
          exact ⟨hring, by omega⟩
  | none =>
      cases mapped with
      | false =>
          refine ⟨⟨hi.born, hi.count⟩, ?_, nofun, fun _ _ h => ⟨h, rfl⟩⟩
          simp [HasRoom, hring]
      | true =>
          have hnew : ∀ (topic' : Str) (ring : WriterRing), s.writerRings[topic']? = some ring →
              topic' ≠ topic ∧ ring.seg ≠ s.created := by
            intro topic' ring h
            refine ⟨?_, (hi.born topic' ring h).ne⟩
            rintro rfl
            rw [hring] at h
            cases h
          simp only [if_true]
          constructor
          · constructor
            · intro topic' ring h
              rcases StrMap.getElem?_of_insert _ h with ⟨-, rfl⟩ | ⟨-, h⟩
              · exact Nat.lt_succ_self _
              · exact (hi.born topic' ring h).trans (Nat.lt_succ_self _)
            · intro topic' ring h
              rcases StrMap.getElem?_of_insert _ h with ⟨-, rfl⟩ | ⟨-, h⟩
              · simp [createAsWriter, setSeg, SharedRing.create]
              · simp only [createAsWriter, setSeg, Function.update_of_ne (hnew topic' ring h).2]
                exact hi.count topic' ring h
          · simp [HasRoom, hring]
          · intro ring h
            obtain rfl := Option.some.inj h
            refine ⟨by simp [createAsWriter], ?_⟩
            simpa [createAsWriter, setSeg, SharedRing.create] using le_slotSizeFor size
          · intro topic' ring h
            obtain ⟨hne, hseg⟩ := hnew topic' ring h
            simp only [createAsWriter, setSeg, Function.update_of_ne hseg]
            exact ⟨(StrMap.getElem?_insert_of_ne _ hne _).trans h, trivial⟩

/-- A change of a ring that keeps its sizes. -/
theorem RingsInv.setRing (hi : s.RingsInv) {seg : ℕ} {r : ShmRing}
    (hcount : r.slotCount = (s.segs seg).ring.slotCount) : (s.setRing seg r).RingsInv where
  born := hi.born
  count topic ring h := by
    by_cases hseg : ring.seg = seg
    · rw [hseg, ring_setRing_self, hcount, ← hseg]
      exact hi.count topic ring h
    · rw [ring_setRing_of_ne _ hseg]
      exact hi.count topic ring h

theorem slotSize_setRing {seg : ℕ} {r : ShmRing}
    (h : r.slotSize = (s.segs seg).ring.slotSize) (k : ℕ) :
    ((s.setRing seg r).segs k).ring.slotSize = (s.segs k).ring.slotSize := by
  by_cases hk : k = seg
  · rw [hk, ring_setRing_self, h]
  · rw [ring_setRing_of_ne _ hk]

/-- A name that is cut off at its first NUL stays as it is. -/
theorem cStr_cStr (name : Str) : cStr (cStr name) = cStr name :=
  List.takeWhile_idem ..

theorem length_cStr_le (name : Str) : (cStr name).length ≤ name.length :=
  (List.takeWhile_sublist _).length_le

/-- The descriptor of a commit is read back from its bytes. -/
theorem ofBytes_descriptorOf (ring : WriterRing) (r : ShmRing) (cursor size : ℕ) :
    ShmDescriptor.ofBytes
        (descriptorOf ring (ShmRing.handleOf (r.reservation cursor) size)).bytes =
      descriptorOf ring (ShmRing.handleOf (r.reservation cursor) size) := by
  have hshort : (cStr (ring.name.take kShmNameRoom)).length ≤ kShmNameRoom :=
    (length_cStr_le _).trans (List.length_take_le ..)
  apply ShmDescriptor.ofBytes_bytes
  · rw [descriptorOf, List.take_of_length_le hshort, cStr_cStr]
  · exact Nat.mod_lt _ (by norm_num)
  · exact Nat.mod_lt _ (by norm_num)
  · exact Nat.mod_lt _ (by norm_num)

section Equations
variable {address msgType bytes : Str} {ring : WriterRing}

theorem publishRemoteShm_none
    (h : s.writerRingFor platform processUuid topic bytes.length mapped = (t, none)) :
    s.publishRemoteShm platform processUuid topic address msgType bytes mapped =
      (t, [], false) := by
  simp only [Transport.publishRemoteShm, h]

theorem publishRemoteShm_some {r : ShmRing} {reserved : ReservedSlot}
    (h : s.writerRingFor platform processUuid topic bytes.length mapped = (t, some ring))
    (hr : (t.segs ring.seg).ring.reserveWrite bytes.length = (r, some reserved)) :
    s.publishRemoteShm platform processUuid topic address msgType bytes mapped =
      if serializable bytes then
        ((t.setRing ring.seg r).setRing ring.seg (r.writeReserved bytes reserved).1,
          [⟨topic, address, (descriptorOf ring (r.writeReserved bytes reserved).2).bytes,
            kShmMsgTypeMarker :: msgType⟩], true)
      else (t.setRing ring.seg r, [], false) := by
  simp only [Transport.publishRemoteShm, h, hr]
  rfl

end Equations

/-- The slot that a publish commits. -/
theorem inSlot_writeReserved {bytes : Str} {ring : WriterRing} {r : ShmRing} {cursor : ℕ}
    (hring : t.writerRings[topic]? = some ring) (hslots : 0 < r.slotCount)
    (hlen : bytes.length < 2 ^ 32) :
    InSlot (t.setRing ring.seg (r.writeReserved bytes (r.reservation cursor)).1) topic bytes
      (descriptorOf ring (r.writeReserved bytes (r.reservation cursor)).2).bytes := by
  obtain ⟨hread, hbytes⟩ := r.writeReserved_spec bytes cursor hlen
  have hback : ShmDescriptor.ofBytes
      (descriptorOf ring (r.writeReserved bytes (r.reservation cursor)).2).bytes =
        descriptorOf ring (r.writeReserved bytes (r.reservation cursor)).2 :=
    ofBytes_descriptorOf ring r cursor bytes.length
  refine ⟨ring, hring, ?_⟩
  simp only [ring_setRing_self, hback]
  exact ⟨ShmDescriptor.length_bytes _, rfl, r.slotIndex_lt cursor hslots, hread, hbytes⟩

/-- What `publishRemoteShm` does. -/
structure SentViaShm (s : Transport) (topic address msgType bytes : Str) (mapped : Bool)
    (t : Transport) (sent : List Frames) (ok : Bool) : Prop where
  inv : t.RingsInv
  ok_iff : ok = true ↔ s.HasRoom topic bytes.length mapped ∧ serializable bytes
  failed : ok = false → sent = []
  sent : ok = true → ∃ data, sent = [⟨topic, address, data, kShmMsgTypeMarker :: msgType⟩] ∧
    t.InSlot topic bytes data
  kept : ∀ (topic' : Str) (ring : WriterRing), s.writerRings[topic']? = some ring →
    t.writerRings[topic']? = some ring ∧
      (t.segs ring.seg).ring.slotSize = (s.segs ring.seg).ring.slotSize

variable (platform processUuid) in
/-- **The fast path.** -/
theorem RingsInv.publishRemoteShm (hi : s.RingsInv) (topic address msgType bytes : Str)
    (mapped : Bool) :
    let o := s.publishRemoteShm platform processUuid topic address msgType bytes mapped
    SentViaShm s topic address msgType bytes mapped o.1 o.2.1 o.2.2 := by
  have hlook := hi.writerRingFor platform processUuid topic bytes.length mapped
  rcases hw : s.writerRingFor platform processUuid topic bytes.length mapped with ⟨t, found⟩
  rw [hw] at hlook
  cases found with
  | none =>
      have hroom : ¬ s.HasRoom topic bytes.length mapped := fun h => by
        cases hlook.room.mpr h
      simp only [publishRemoteShm_none hw]
      refine ⟨hlook.inv, by simp [hroom], fun _ => rfl, nofun, fun topic' ring h => ?_⟩
      obtain ⟨hkept, hsame⟩ := hlook.kept topic' ring h
      exact ⟨hkept, congrArg ShmRing.slotSize hsame⟩
  | some ring =>
      obtain ⟨hring, hfits⟩ := hlook.ring ring rfl
      have hroom : s.HasRoom topic bytes.length mapped := hlook.room.mp rfl
      have hslots : 0 < (t.segs ring.seg).ring.slotCount := by
        rw [hlook.inv.count topic ring hring]
        decide
      obtain ⟨r, hr, hsize, hcount⟩ := (t.segs ring.seg).ring.exists_reserveWrite hfits
      have hkept : ∀ (r' : ShmRing), r'.slotSize = (t.segs ring.seg).ring.slotSize →
          ∀ (topic' : Str) (ring' : WriterRing), s.writerRings[topic']? = some ring' →
            t.writerRings[topic']? = some ring' ∧
              ((t.setRing ring.seg r').segs ring'.seg).ring.slotSize =
                (s.segs ring'.seg).ring.slotSize := by
        intro r' hr' topic' ring' h
        obtain ⟨hin, hsame⟩ := hlook.kept topic' ring' h
        exact ⟨hin, (slotSize_setRing hr' _).trans (congrArg ShmRing.slotSize hsame)⟩
      generalize (t.segs ring.seg).ring.writeCursor = cursor at hr
      rw [← ShmRing.reservation_congr hcount] at hr
      simp only [publishRemoteShm_some hw hr]
      by_cases hser : serializable bytes
      · simp only [if_pos hser]
        have hlen : bytes.length < 2 ^ 32 := by
          unfold serializable at hser
          omega
        rw [setRing_setRing]
        refine ⟨hlook.inv.setRing hcount, by simp [hroom, hser], nofun, fun _ => ?_, ?_⟩
        · exact ⟨_, rfl, inSlot_writeReserved hring (hcount ▸ hslots) hlen⟩
        · exact hkept _ hsize
      · simp only [if_neg hser]
        exact ⟨hlook.inv.setRing hcount, by simp [hser], fun _ => rfl, nofun, hkept r hsize⟩

end Transport

/-! ## Publishing -/

/-- A process with the segments of its host. -/
structure PubProcess where
  runtime : MessageRuntime
  transport : Transport := {}

namespace PubProcess

variable (platform : ShmPlatform)

/-- The remote part of `publish`, when the sockets take everything: what it sends and what it
returns. -/
def publish (s : PubProcess) (publisher : MessagePublisherInfo) (bytes : Str) (mapped : Bool) :
    PubProcess × List Frames × Bool :=
  let topic := publisher.topic
  let msgType := publisher.msgType
  if s.runtime.haveRemote topic msgType then
    let useShm := publisher.msgOpts.useShm && publisher.msgOpts.scope = .host
    let (transport, shmSent, sentViaShm) :=
      if useShm then
        s.transport.publishRemoteShm platform s.runtime.processUuid topic s.runtime.address msgType
          bytes mapped
      else (s.transport, [], false)
    let s := { s with transport := transport }
    if sentViaShm then (s, shmSent, true)
    else if serializable bytes then
      let message : PubMessage := ⟨topic, s.runtime.address, false, msgType⟩
      (s, shmSent ++ [message.frames bytes], true)
    else (s, shmSent, false)
  else (s, [], true)

/-- A publish of the process, or another call or step of its runtime. -/
inductive Action
  | publish (publisher : MessagePublisherInfo) (bytes : Str) (mapped : Bool)
  | perform (a : MessageRuntime.Action)

/-- What becomes of the rings: `unadvertise` removes that of its topic. -/
def ringsAfter (s : Transport) : MessageRuntime.Action → Transport
  | .unadvertise topic _ => s.removeWriterRing topic
  | _ => s

/-- One action of the process. -/
def step (s : PubProcess) : Action → Option PubProcess
  | .publish publisher bytes mapped => some (s.publish platform publisher bytes mapped).1
  | .perform a => (s.runtime.perform a).map fun x =>
    { runtime := x.1, transport := ringsAfter s.transport a }

/-- A process after `initialize` and `start`. -/
def init (processUuid processName hostAddr address : Str) : PubProcess where
  runtime := MessageRuntime.init processUuid processName hostAddr address

/-- The publisher sends through shared memory, and to another process. -/
def ViaShm (s : PubProcess) (publisher : MessagePublisherInfo) : Prop :=
  s.runtime.haveRemote publisher.topic publisher.msgType = true ∧
    publisher.msgOpts.useShm = true ∧ publisher.msgOpts.scope = .host

/-- A publish that returns true sends one message, with the descriptor of a slot if there is
room and with the bytes if not; a publish that returns false sends none. -/
def SendsOne (s : PubProcess) : Action → Prop
  | .publish publisher bytes mapped => s.ViaShm publisher →
    let (t, sent, ok) := s.publish platform publisher bytes mapped
    (ok = true ↔ serializable bytes) ∧ (ok = false → sent = []) ∧
      (ok = true → ∃ data,
        (s.transport.HasRoom publisher.topic bytes.length mapped ∧
          t.transport.InSlot publisher.topic bytes data ∧
          sent = [⟨publisher.topic, s.runtime.address, data,
            kShmMsgTypeMarker :: publisher.msgType⟩]) ∨
        (¬ s.transport.HasRoom publisher.topic bytes.length mapped ∧ data = bytes ∧
          sent = [⟨publisher.topic, s.runtime.address, data, publisher.msgType⟩]))
  | .perform _ => True

/-- The ring of a topic is removed. -/
def Removes (topic : Str) : Action → Prop
  | .perform (.unadvertise topic' _) => topic' = topic
  | _ => False

variable {platform} {s t : PubProcess}

/-- **One publish.** -/
theorem sendsOne (hi : s.transport.RingsInv) (a : Action) : s.SendsOne platform a := by
  cases a with
  | perform a => trivial
  | publish publisher bytes mapped =>
      intro hvia
      obtain ⟨hremote, hshm, hscope⟩ := hvia
      have hsent := hi.publishRemoteShm platform s.runtime.processUuid publisher.topic
        s.runtime.address publisher.msgType bytes mapped
      simp only [publish, hremote, hshm, hscope, if_true, decide_true, Bool.and_self]
      generalize s.transport.publishRemoteShm platform s.runtime.processUuid publisher.topic
        s.runtime.address publisher.msgType bytes mapped = o at hsent ⊢
      obtain ⟨transport, shmSent, sentViaShm⟩ := o
      cases sentViaShm with
      | true =>
          obtain ⟨data, hone, hslot⟩ := hsent.sent rfl
          obtain ⟨hroom, hser⟩ := hsent.ok_iff.mp rfl
          simp only [if_true]
          exact ⟨iff_of_true trivial hser, nofun, fun _ => ⟨data, .inl ⟨hroom, hslot, hone⟩⟩⟩
      | false =>
          have hnone : shmSent = [] := hsent.failed rfl
          have hgave : ¬ (s.transport.HasRoom publisher.topic bytes.length mapped ∧
              serializable bytes) := fun h => Bool.noConfusion (hsent.ok_iff.mpr h)
          subst hnone
          rw [if_neg Bool.false_ne_true]
          by_cases hser : serializable bytes
          · simp only [if_pos hser]
            refine ⟨iff_of_true trivial hser, nofun, fun _ => ⟨bytes, .inr ⟨?_, rfl, rfl⟩⟩⟩
            exact fun hroom => hgave ⟨hroom, hser⟩
          · simp only [if_neg hser]
            exact ⟨iff_of_false nofun hser, fun _ => trivial, nofun⟩

variable (platform) in
/-- The messages of the runtime's `publish`, told what shared memory made of it, are those
that are sent here. -/
theorem publish_eq_runtime (hi : s.transport.RingsInv) (publisher : MessagePublisherInfo)
    (bytes : Str) (mapped : Bool) :
    ∃ (shmSent : Bool) (data : Bool → Str),
      (s.publish platform publisher bytes mapped).2 =
        let o := s.runtime.publish publisher shmSent (decide (serializable bytes))
        (o.1.map fun m => m.frames (data m.isShm), o.2) := by
  have hsent := hi.publishRemoteShm platform s.runtime.processUuid publisher.topic
    s.runtime.address publisher.msgType bytes mapped
  simp only [publish, MessageRuntime.publish]
  generalize s.transport.publishRemoteShm platform s.runtime.processUuid publisher.topic
    s.runtime.address publisher.msgType bytes mapped = o at hsent ⊢
  obtain ⟨transport, frames, sentViaShm⟩ := o
  -- what the third frame holds, of a message of either kind
  have hframes : ∃ data : Bool → Str, data false = bytes ∧ (sentViaShm = true →
      frames = [PubMessage.frames ⟨publisher.topic, s.runtime.address, true, publisher.msgType⟩
        (data true)]) := by
    by_cases hok : sentViaShm = true
    · obtain ⟨d, hd, -⟩ := hsent.sent hok
      exact ⟨fun isShm => if isShm then d else bytes, rfl, fun _ => hd⟩
    · exact ⟨fun _ => bytes, rfl, fun h => absurd h hok⟩
  obtain ⟨data, hinline, hshm⟩ := hframes
  refine ⟨sentViaShm, data, ?_⟩
  by_cases hremote : s.runtime.haveRemote publisher.topic publisher.msgType = true
  · by_cases huse : (publisher.msgOpts.useShm && publisher.msgOpts.scope = .host) = true
    · cases sentViaShm with
      | true => simp [hremote, huse, hshm rfl]
      | false =>
          have hnone : frames = [] := hsent.failed rfl
          by_cases hser : serializable bytes
          · simp [hremote, huse, hser, hnone, hinline]
          · simp [hremote, huse, hser, hnone]
    · by_cases hser : serializable bytes
      · simp [hremote, huse, hser, hinline]
      · simp [hremote, huse, hser]
  · simp [hremote]

/-- The rings and their slot sizes are kept, that of an unadvertised topic excepted. -/
def KeepsRings (a : Action) (s t : Transport) : Prop :=
  ∀ (topic : Str) (ring : WriterRing), s.writerRings[topic]? = some ring → ¬ Removes topic a →
    t.writerRings[topic]? = some ring ∧
      (t.segs ring.seg).ring.slotSize = (s.segs ring.seg).ring.slotSize

variable (platform) in
/-- A publish leaves the rings to `publishRemoteShm`. -/
theorem transport_publish (s : PubProcess) (publisher : MessagePublisherInfo) (bytes : Str)
    (mapped : Bool) :
    (s.publish platform publisher bytes mapped).1.transport = s.transport ∨
      (s.publish platform publisher bytes mapped).1.transport =
        (s.transport.publishRemoteShm platform s.runtime.processUuid publisher.topic
          s.runtime.address publisher.msgType bytes mapped).1 := by
  unfold publish
  by_cases hremote : s.runtime.haveRemote publisher.topic publisher.msgType = true
  · simp only [if_pos hremote]
    by_cases hshm : (publisher.msgOpts.useShm && publisher.msgOpts.scope = .host) = true
    · simp only [if_pos hshm]
      refine .inr ?_
      split
      case isTrue => rfl
      case isFalse => split <;> rfl
    · simp only [if_neg hshm, if_neg Bool.false_ne_true]
      refine .inl ?_
      split <;> rfl
  · simp [if_neg hremote]

/-- **One step.** -/
theorem step_rings (hi : s.transport.RingsInv) {a : Action} (h : step platform s a = some t) :
    t.transport.RingsInv ∧ KeepsRings a s.transport t.transport := by
  cases a with
  | publish publisher bytes mapped =>
      obtain rfl := Option.some.inj h
      rcases s.transport_publish platform publisher bytes mapped with hsame | hsame
      · rw [hsame]
        exact ⟨hi, fun _ _ h _ => ⟨h, rfl⟩⟩
      · have hsent := hi.publishRemoteShm platform s.runtime.processUuid publisher.topic
          s.runtime.address publisher.msgType bytes mapped
        rw [hsame]
        exact ⟨hsent.inv, fun topic ring h _ => hsent.kept topic ring h⟩
  | perform a =>
      obtain ⟨x, -, rfl⟩ := Option.map_eq_some_iff.mp h
      cases a with
      | unadvertise topic nodeUuid =>
          refine ⟨hi.removeWriterRing topic, fun topic' ring h hnot => ⟨?_, ?_⟩⟩
          · exact (s.transport.getElem?_removeWriterRing topic topic').trans
              ((if_neg fun htopic => hnot htopic.symm).trans h)
          · exact congrArg (fun segs => (segs ring.seg).ring.slotSize)
              (s.transport.segs_removeWriterRing topic)
      | _ => exact ⟨hi, fun _ _ h _ => ⟨h, rfl⟩⟩

/-- **A run** that does not remove a ring keeps its slot size. -/
theorem exec_rings (hi : s.transport.RingsInv) {run : List Action}
    (h : exec (step platform) s run = some t) {topic : Str} {ring : WriterRing}
    (hring : s.transport.writerRings[topic]? = some ring) (hnot : ∀ a ∈ run, ¬ Removes topic a) :
    t.transport.writerRings[topic]? = some ring ∧
      (t.transport.segs ring.seg).ring.slotSize = (s.transport.segs ring.seg).ring.slotSize := by
  induction run generalizing s with
  | nil =>
      obtain rfl := Option.some.inj h
      exact ⟨hring, rfl⟩
  | cons a run ih =>
      obtain ⟨u, hu, hut⟩ := Option.bind_eq_some_iff.mp h
      obtain ⟨hinv, hkeeps⟩ := step_rings hi hu
      obtain ⟨hring', hsize⟩ := hkeeps topic ring hring (hnot a List.mem_cons_self)
      obtain ⟨hend, hsize'⟩ := ih hinv hut hring' fun b hb => hnot b (List.mem_cons_of_mem _ hb)
      exact ⟨hend, hsize'.trans hsize⟩

/-- **One publish, one message.**  In every state that a process reaches: a publish through
shared memory that returns true sends one message, the descriptor of a committed slot if
there is room and the bytes if not; what `writerRingFor` accepts is not turned down by
`reserveWrite`; and a ring keeps its slot size until it is removed. -/
theorem publish_sends_one (platform : ShmPlatform) (processUuid processName hostAddr address : Str)
    (run : List Action)
    (h : exec (step platform) (init processUuid processName hostAddr address) run = some s) :
    (∀ a, s.SendsOne platform a) ∧
      (∀ (topic : Str) (size : ℕ) (mapped : Bool) (t : Transport) (ring : WriterRing),
        s.transport.writerRingFor platform s.runtime.processUuid topic size mapped =
            (t, some ring) →
          ((t.segs ring.seg).ring.reserveWrite size).2.isSome = true) ∧
      ∀ (topic : Str) (ring : WriterRing), s.transport.writerRings[topic]? = some ring →
        ∀ (later : List Action) (t : PubProcess), (∀ a ∈ later, ¬ Removes topic a) →
          exec (step platform) s later = some t →
            t.transport.writerRings[topic]? = some ring ∧
              (t.transport.segs ring.seg).ring.slotSize =
                (s.transport.segs ring.seg).ring.slotSize := by
  have hi : s.transport.RingsInv :=
    stable (P := fun s => s.transport.RingsInv) (fun _ _ _ hi h => (step_rings hi h).1)
      Transport.ringsInv_init h
  refine ⟨sendsOne hi, ?_, ?_⟩
  · intro topic size mapped t ring ht
    have hlook := hi.writerRingFor platform s.runtime.processUuid topic size mapped
    rw [ht] at hlook
    obtain ⟨-, hfits⟩ := hlook.ring ring rfl
    obtain ⟨r, hr, -⟩ := (t.segs ring.seg).ring.exists_reserveWrite hfits
    rw [hr]
    rfl
  · exact fun topic ring hring later t hnot ht => exec_rings hi ht hring hnot

/-! ## A small message -/

/-- A publisher of node n1 of process 4a, for this host and through shared memory. -/
def hostPublisher : MessagePublisherInfo :=
  .make (str "t") (str "tcp://a") (str "unused") (str "4a") (str "n1") (str "M")
    { scope := .host, useShm := true }

/-- Process 5b registers with process 4a. -/
def registrationOf5b : Msgs.Discovery :=
  MessagePublisherInfo.fillDiscovery
    (.make (str "t") (str "tcp://b") (str "4a") (str "5b") (str "n2") (str "M") {})
    { type := .newConnection, processUuid := str "5b" }

/-- A subscriber registers, and a first message creates the ring. -/
def firstMessage : List Action :=
  [.perform (.recv (str "10.0.0.1") registrationOf5b 0), .publish hostPublisher [1, 2] true]

theorem publish_sends_one_example :
    ∃ s, exec (step Transport.examplePlatform)
        (init (str "4a") [] (str "10.0.0.1") (str "tcp://a")) firstMessage = some s ∧
      (∃ data, (s.publish Transport.examplePlatform hostPublisher [3] false).2.1 =
        [⟨str "t", str "tcp://a", data, 1 :: str "M"⟩]) ∧
      ∃ ring t, s.transport.writerRingFor Transport.examplePlatform (str "4a") (str "t") 1 false =
          (s.transport, some ring) ∧
        ((s.transport.segs ring.seg).ring.reserveWrite 1).2.isSome = true ∧
        exec (step Transport.examplePlatform) s [.publish hostPublisher [3] false] = some t ∧
        (t.transport.segs ring.seg).ring.slotSize = 4096 := by
  have hrun := publish_sends_one Transport.examplePlatform (str "4a") [] (str "10.0.0.1")
    (str "tcp://a") firstMessage rfl
  refine ⟨_, rfl, ?_, ⟨_, 0⟩, _, rfl, ?_, rfl, ?_⟩
  · obtain ⟨hok, -, hone⟩ := hrun.1 (.publish hostPublisher [3] false) ⟨rfl, rfl, rfl⟩
    obtain ⟨data, ⟨-, -, hsent⟩ | ⟨hroom, -, -⟩⟩ := hone (hok.mpr (by decide))
    · exact ⟨data, hsent⟩
    · exact absurd (by decide : 1 ≤ 4096) hroom
  · exact hrun.2.1 (str "t") 1 false _ _ rfl
  · exact (hrun.2.2 (str "t") _ rfl [.publish hostPublisher [3] false] _
      (by simp [Removes]) rfl).2.trans rfl

end PubProcess
end RfTrans
