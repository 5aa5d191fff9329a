import RfTrans.Basic
import RfTrans.Ring.Readers

/-!
# Delivery through shared memory

One process publishes topics through shared memory and one process on the same
host subscribes.  The publisher keeps a ring for each topic, under a name derived
from the topic and its process uuid, and drops it whenever a node stops advertising
the topic; the next publish creates a ring of the same name afresh.  The
subscriber maps a ring when it meets its name for the first time and keeps the
mapping for good.

The machine interleaves the atomic steps of `publishRemoteShm` with those of
`remoteDispatchLoop`.  An unlinked segment stays readable through mappings that
already exist.  `createAsWriter` and `openAsReader` are one step each.

## Main definitions

* `Transport` — the shared-memory namespace, both ring tables, the descriptors in
  flight and where both processes are.
* `Transport.next` — one step of either process.
* `Parsed.Genuine` — a parsed message has the bytes that its publish serialized.
-/

namespace RfTrans

/-- `makeShmName`, over the platform's `std::hash<std::string>`. -/
def makeShmName (hash : Str → UInt64) (topic processUuid : Str) : Str :=
  str "/rf_shm_" ++ hex (hash topic).toNat ++ str "_" ++ processUuid.take 8

/-- The longest name that a `ShmDescriptor` holds. -/
def kShmNameRoom : ℕ := 63

theorem length_hex_le (n : UInt64) : (hex n.toNat).length ≤ 16 := by
  have h : n.toNat < 16 ^ 16 := n.toNat_lt
  simpa [hex] using Nat.toDigits_length 16 n.toNat 16 (by decide) h

/-- A derived name fits the descriptor, so it reaches the reader uncut. -/
theorem take_makeShmName (hash : Str → UInt64) (topic processUuid : Str) :
    (makeShmName hash topic processUuid).take kShmNameRoom =
      makeShmName hash topic processUuid := by
  have hhex := length_hex_le (hash topic)
  have htake : (processUuid.take 8).length ≤ 8 := List.length_take_le 8 processUuid
  have hprefix : (str "/rf_shm_").length = 8 := rfl
  have hbar : (str "_").length = 1 := rfl
  refine List.take_of_length_le ?_
  simp only [makeShmName, List.length_append, kShmNameRoom]
  omega

/-- A segment with the single thread that publishes into it. Readers live in
`Transport`. -/
abbrev Segment := SharedRing Unit Empty

/-- An entry of `writer_rings_`: the ring's name and its segment. -/
structure WriterRing where
  name : Str
  seg : ℕ
  deriving DecidableEq

/-- `ShmDescriptor` -/
structure ShmDescriptor where
  shmName : Str
  slotIndex : ℕ
  seq : ℕ
  size : ℕ
  deriving DecidableEq

/-- A descriptor on the control channel. The segment and the bytes are what the
publish that produced it used; the receiver does not see them. -/
structure Sent where
  descriptor : ShmDescriptor
  seg : ℕ
  published : List UInt8
  deriving DecidableEq

/-- `publishRemoteShm` between `writerRingFor` and its return: the ring, the bytes
that `SerializeToArray` writes and the offsets it has written. -/
structure Publishing where
  ring : WriterRing
  bytes : List UInt8
  written : List ℕ := []

/-- Where `remoteDispatchLoop` is with a descriptor. -/
inductive Receiver
  | idle
  /-- `readerRingFor` returned the mapping of a segment. -/
  | attached (seg : ℕ) (sent : Sent)
  /-- `beginRead` returned a payload and `createMsg` is looking at it. -/
  | reading (seg : ℕ) (sent : Sent) (copied : List (ℕ × UInt8))

/-- A message that was parsed out of a ring, with the bytes the parser looked at. -/
structure Parsed where
  sent : Sent
  copied : List (ℕ × UInt8)

/-- The parser was given the published length and saw published bytes only. -/
def Parsed.Genuine (q : Parsed) : Prop :=
  q.sent.descriptor.size = q.sent.published.length ∧
    ∀ x ∈ q.copied, q.sent.published[x.1]? = some x.2

/-- Both processes with the segments of the host. -/
structure Transport where
  /-- The names that `shm_open` finds. -/
  shm : StrMap ℕ := ∅
  segs : ℕ → Segment := fun _ => SharedRing.create 0 0
  /-- The number of segments created so far. -/
  created : ℕ := 0
  writerRings : StrMap WriterRing := ∅
  publishing : Option Publishing := none
  wire : List Sent := []
  readerRings : StrMap ℕ := ∅
  receiver : Receiver := .idle
  parsed : List Parsed := []

/-- What the machine takes from its platform. -/
structure ShmPlatform where
  /-- `std::hash<std::string>` -/
  hash : Str → UInt64
  /-- What a reader finds as slots where its stride is not the writer's. -/
  stray : ShmRing → ℕ → Slot

/-- The slot header stores the slot size in 32 bits: the ring as `openAsReader`
sees it. -/
def ShmRing.openAsReader (platform : ShmPlatform) (r : ShmRing) : ShmRing :=
  if u32 r.slotSize = r.slotSize then r
  else { r with slotSize := u32 r.slotSize, slots := platform.stray r }

/-- `SerializeToArray` refuses messages of more than `INT_MAX` bytes. -/
def serializable (bytes : List UInt8) : Prop := bytes.length ≤ 2 ^ 31 - 1

instance (bytes : List UInt8) : Decidable (serializable bytes) :=
  inferInstanceAs (Decidable (_ ≤ _))

namespace Transport

/-- The steps of the two processes. -/
inductive Action
  /-- `MessageRuntime::advertise`, which touches no ring. -/
  | advertise (topic : Str)
  | unadvertise (topic : Str)
  /-- `publishRemoteShm` up to `reserveWrite`; `mapped` says whether a segment that
  it has to create can be created. -/
  | publish (topic : Str) (bytes : List UInt8) (mapped : Bool)
  | fetchAdd
  | storeOdd
  | writeByte (off : ℕ)
  | storeSize
  /-- The even store and the send; `sent` says whether the socket took it. -/
  | commit (sent : Bool)
  | abandon
  /-- The next descriptor meets no handler, or is dropped by the socket. -/
  | skip
  /-- The next descriptor reaches `readerRingFor`; `opened` says whether a segment
  that has to be mapped can be mapped. -/
  | receive (opened : Bool)
  | beginRead
  | copyByte (off : ℕ)
  | finishRead
  deriving DecidableEq

variable (platform : ShmPlatform) (processUuid : Str)

/-- One segment changes. -/
def setSeg (s : Transport) (seg : ℕ) (r : Segment) : Transport :=
  { s with segs := Function.update s.segs seg r }

/-- `removeWriterRing`: the destructor of the ring unlinks its name. -/
def removeWriterRing (s : Transport) (topic : Str) : Transport :=
  match s.writerRings[topic]? with
  | none => s
  | some ring =>
    { s with
      writerRings := s.writerRings.erase topic
      shm := s.shm.erase (cStr ring.name) }

/-- The slot size of a new ring: the message, rounded up to whole pages. -/
def slotSizeFor (requiredSize : ℕ) : ℕ :=
  (requiredSize + ShmRing.kShmGranularity - 1) / ShmRing.kShmGranularity * ShmRing.kShmGranularity

/-- `createAsWriter` under a name, which it unlinks first. -/
def createAsWriter (s : Transport) (topic name : Str) (slotSize : ℕ) : Transport × WriterRing :=
  let ring : WriterRing := ⟨name, s.created⟩
  ({ s.setSeg s.created (SharedRing.create slotSize ShmRing.kDefaultSlotCount) with
      shm := s.shm.insert (cStr name) s.created
      created := s.created + 1
      writerRings := s.writerRings.insert topic ring }, ring)

/-- `writerRingFor` -/
def writerRingFor (s : Transport) (topic : Str) (requiredSize : ℕ) (mapped : Bool) :
    Transport × Option WriterRing :=
  match s.writerRings[topic]? with
  | some ring =>
    if (s.segs ring.seg).ring.slotSize < requiredSize then (s, none) else (s, some ring)
  | none =>
    let name := makeShmName platform.hash topic processUuid
    if mapped then
      let (t, ring) := s.createAsWriter topic name (slotSizeFor requiredSize)
      (t, some ring)
    else ({ s with shm := s.shm.erase (cStr name) }, none)

/-- `readerRingFor` -/
def readerRingFor (s : Transport) (shmName : Str) (opened : Bool) : Transport × Option ℕ :=
  match s.readerRings[shmName]? with
  | some seg => (s, some seg)
  | none =>
    match s.shm[shmName]?, opened with
    | some seg, true => ({ s with readerRings := s.readerRings.insert shmName seg }, some seg)
    | _, _ => (s, none)

/-- An atomic step of the publishing thread in a segment. -/
def ringStep (s : Transport) (seg : ℕ) (a : SharedRing.Action Unit Empty) : Option Transport :=
  (SharedRing.next (s.segs seg) a).map (s.setSeg seg)

/-- The descriptor that `publishRemoteShm` fills in. -/
def descriptorOf (ring : WriterRing) (handle : SlotHandle) : ShmDescriptor :=
  ⟨cStr (ring.name.take kShmNameRoom), handle.slotIndex, handle.seq, handle.size⟩

/-- `SlotHandle` of a descriptor. -/
def handleOf (d : ShmDescriptor) : SlotHandle := ⟨d.slotIndex, d.seq, d.size⟩

/-- `publishRemoteShm` returns. -/
def endPublish (s : Transport) : Transport := { s with publishing := none }

/-- Append what the socket took. -/
def send (s : Transport) (d : Sent) : Bool → Transport
  | true => { s with wire := s.wire ++ [d] }
  | false => s

/-- One step of one of the processes. -/
def next (s : Transport) : Action → Option Transport
  | .advertise _ =>
    match s.publishing with
    | none => some s
    | some _ => none
  | .unadvertise topic =>
    match s.publishing with
    | none => some (s.removeWriterRing topic)
    | some _ => none
  | .publish topic bytes mapped =>
    match s.publishing with
    | none =>
      match s.writerRingFor platform processUuid topic bytes.length mapped with
      -- The message takes the regular transport.
      | (t, none) => some t
      | (t, some ring) => some { t with publishing := some { ring := ring, bytes := bytes } }
    | some _ => none
  | .fetchAdd =>
    match s.publishing with
    | some p =>
      match (s.segs p.ring.seg).writers () with
      | .idle =>
        -- A null reservation ends the publish.
        if (s.segs p.ring.seg).ring.slotSize < p.bytes.length then some s.endPublish
        else s.ringStep p.ring.seg (.fetchAdd () p.bytes.length)
      | _ => none
    | none => none
  | .storeOdd =>
    match s.publishing with
    | some p => s.ringStep p.ring.seg (.storeOdd ())
    | none => none
  | .writeByte off =>
    match s.publishing with
    | some p =>
      match p.bytes[off]? with
      | some b =>
        if serializable p.bytes then
          (s.ringStep p.ring.seg (.writeByte () off b)).map fun t =>
            { t with publishing := some { p with written := off :: p.written } }
        else none
      | none => none
    | none => none
  | .storeSize =>
    match s.publishing with
    | some p =>
      if serializable p.bytes ∧ ∀ off < p.bytes.length, off ∈ p.written then
        s.ringStep p.ring.seg (.storeSize () p.bytes.length)
      else none
    | none => none
  | .commit sent =>
    match s.publishing with
    | some p =>
      match (s.segs p.ring.seg).writers () with
      | .sized reserved n =>
        let d := descriptorOf p.ring (ShmRing.handleOf reserved n)
        (s.ringStep p.ring.seg (.storeEven ())).map fun t =>
          (t.send ⟨d, p.ring.seg, p.bytes⟩ sent).endPublish
      | _ => none
    | none => none
  | .abandon =>
    match s.publishing with
    | some p =>
      if serializable p.bytes then none
      else (s.ringStep p.ring.seg (.abandon ())).map endPublish
    | none => none
  | .skip =>
    match s.receiver, s.wire with
    | .idle, _ :: rest => some { s with wire := rest }
    | _, _ => none
  | .receive opened =>
    match s.receiver, s.wire with
    | .idle, d :: rest =>
      match { s with wire := rest }.readerRingFor d.descriptor.shmName opened with
      | (t, none) => some t
      | (t, some seg) => some { t with receiver := .attached seg d }
    | _, _ => none
  | .beginRead =>
    match s.receiver with
    | .attached seg d =>
      let ring := (s.segs seg).ring.openAsReader platform
      if (ring.beginRead (handleOf d.descriptor)).isSome then
        some { s with receiver := .reading seg d [] }
      else some { s with receiver := .idle }
    | _ => none
  | .copyByte off =>
    match s.receiver with
    | .reading seg d copied =>
      let ring := (s.segs seg).ring.openAsReader platform
      if off < d.descriptor.size then
        let b := (ring.slots d.descriptor.slotIndex).payload off
        some { s with receiver := .reading seg d ((off, b) :: copied) }
      else none
    | _ => none
  | .finishRead =>
    match s.receiver with
    | .reading seg d copied =>
      let ring := (s.segs seg).ring.openAsReader platform
      if ring.finishRead (handleOf d.descriptor) then
        some { s with receiver := .idle, parsed := ⟨d, copied⟩ :: s.parsed }
      else some { s with receiver := .idle }
    | _ => none

end Transport
end RfTrans
