import RfTrans.Discovery.Sent
import RfTrans.Lib.Exec
import RfTrans.Lib.Replica

/-!
# Does an observer agree with the process?

`advertise`, `unadvertise`, the heartbeat and the answer to a SUBSCRIBE all read or
change the table under the lock and send after they have released it.  Here they run
side by side: any number of application threads and the discovery thread of one
process, an observer on the same host, and between the two a network that neither
loses nor reorders.

## Main definitions

* `Agreement.System`, `Agreement.next` — the process thread by thread, and the observer.
* `Agreement.Timely` — no overtaken datagram is the last word on its endpoint.
* `Agreement.held_eq_offered` — then the observer agrees whenever nothing is under way.
-/

namespace RfTrans

open PubLike TopicStorage Exec Replica

/-- What endpoints are compared by. -/
structure EndpointKey where
  topic : Str
  addr : Str
  nodeUuid : Str
  deriving DecidableEq

/-- The endpoint of a record. -/
def endpointKey {π : Type} [PubLike π] (p : π) : EndpointKey := ⟨topic p, addr p, nodeUuid p⟩

namespace Agreement

variable {τ π : Type} [PubLike π]

/-- A process and an observer on the same host. -/
structure Peers where
  uuid : Str
  name : Str
  address : Str
  hostAddr : Str
  observerUuid : Str
  observerName : Str
  uuid_ne : uuid ≠ []
  distinct : uuid ≠ observerUuid

/-- A publisher of the process as its runtimes make it. -/
structure Peers.Makes (c : Peers) (p : π) : Prop where
  processUuid : processUuid p = c.uuid
  addr : addr p = c.address
  scope : scope p = (base p).opts.scope

instance (c : Peers) (p : π) : Decidable (c.Makes p) :=
  decidable_of_iff (processUuid p = c.uuid ∧ addr p = c.address ∧ scope p = (base p).opts.scope)
    ⟨fun h => ⟨h.1, h.2.1, h.2.2⟩, fun h => ⟨h.1, h.2, h.3⟩⟩

/-- The discovery thread of the process. -/
inductive Worker
  | idle
  /-- The HEARTBEAT is sent, the table is still to be read. -/
  | beating
  /-- The table is read, these datagrams are still to be sent. -/
  | sending (todo : List Msgs.Discovery) (heartbeat : Bool)
  deriving DecidableEq

/-- What it has still to send. -/
def Worker.todo : Worker → List Msgs.Discovery
  | .sending todo _ => todo
  | _ => []

/-- The process, what its application threads have still to send, the datagrams on
their way, and the observer. -/
structure System (τ π : Type) where
  self : Discovery π
  threads : τ → List Msgs.Discovery
  worker : Worker
  chan : List Msgs.Discovery
  observer : Discovery π

/-- What else the observer does. -/
inductive ObserverAction (π : Type)
  | advertise (p : π)
  | unadvertise (topic nodeUuid : Str)
  | recv (fromIp : Str) (m : Msgs.Discovery) (now : ℕ)
  | heartbeat (now later : ℕ)
  | activity (now later : ℕ)

/-- A step. -/
inductive Action (τ π : Type)
  /-- A thread calls `advertise`, up to the release of the lock. -/
  | advertise (i : τ) (p : π)
  /-- A thread calls `unadvertise`, up to the release of the lock. -/
  | unadvertise (i : τ) (topic nodeUuid : Str)
  /-- A thread sends. -/
  | send (i : τ)
  /-- `updateHeartbeat` up to the HEARTBEAT, at a reading of the clock. -/
  | heartbeat (now : ℕ)
  /-- It reads the table. -/
  | copy
  /-- The discovery thread takes a datagram, up to the release of the lock. -/
  | recv (fromIp : Str) (m : Msgs.Discovery) (now : ℕ)
  /-- The discovery thread sends. -/
  | workerSend
  /-- It has sent everything. -/
  | finish (later : ℕ)
  /-- The next datagram reaches the observer. -/
  | deliver (now : ℕ)
  | observe (a : ObserverAction π)

/-- A step of the observer that is not about the process. It does not time it out. -/
def observe (c : Peers) (d : Discovery π) : ObserverAction π → Option (Discovery π)
  | .advertise p => if processUuid p = c.observerUuid then some (d.advertise p).1.self else none
  | .unadvertise topic nodeUuid => some (d.unadvertise topic nodeUuid).1.self
  | .recv fromIp m now =>
    if m.processUuid = c.uuid then none else some (d.dispatchDiscoveryMsg fromIp m now).self
  | .heartbeat now later => some (d.updateHeartbeat now later).self
  | .activity now later =>
    if c.uuid ∈ d.expiredProcesses now then none else some (d.updateActivity now later).self

/-- One step. -/
def next [DecidableEq τ] (c : Peers) (s : System τ π) : Action τ π → Option (System τ π)
  | .advertise i p =>
    if s.threads i = [] ∧ c.Makes p then
      let o := (s.self.advertise p).1
      some { s with self := o.self, threads := Function.update s.threads i o.sent }
    else none
  | .unadvertise i topic nodeUuid =>
    if s.threads i = [] then
      let o := (s.self.unadvertise topic nodeUuid).1
      some { s with self := o.self, threads := Function.update s.threads i o.sent }
    else none
  | .send i =>
    match s.threads i with
    | [] => none
    | m :: rest =>
      some { s with threads := Function.update s.threads i rest, chan := s.chan ++ [m] }
  | .heartbeat now =>
    if s.worker = .idle ∧ ¬ now < s.self.timeNextHeartbeat then
      some { s with worker := .beating, chan := s.chan ++ s.self.sendHeartbeat }
    else none
  | .copy =>
    if s.worker = .beating then some { s with worker := .sending s.self.readvertise true }
    else none
  | .recv fromIp m now =>
    if s.worker = .idle then
      let o := s.self.dispatchDiscoveryMsg fromIp m now
      some { s with self := o.self, worker := .sending o.sent false }
    else none
  | .workerSend =>
    match s.worker with
    | .sending (m :: rest) b =>
      some { s with worker := .sending rest b, chan := s.chan ++ [m] }
    | _ => none
  | .finish later =>
    match s.worker with
    | .sending [] true =>
      some { s with
        worker := .idle
        self := { s.self with
          timeNextHeartbeat := later + s.self.heartbeatInterval * 1000000 } }
    | .sending [] false => some { s with worker := .idle }
    | _ => none
  | .deliver now =>
    match s.chan with
    | [] => none
    | m :: rest =>
      some { s with
        chan := rest, observer := (s.observer.dispatchDiscoveryMsg c.hostAddr m now).self }
  | .observe a => (observe c s.observer a).map fun d => { s with observer := d }

/-- Both have just started. -/
def start (c : Peers) : System τ π where
  self := { processUuid := c.uuid, processName := c.name, hostAddr := c.hostAddr }
  threads _ := []
  worker := .idle
  chan := []
  observer :=
    { processUuid := c.observerUuid, processName := c.observerName, hostAddr := c.hostAddr }

/-- No operation of the process is in progress and nothing is on its way. -/
structure Quiescent (s : System τ π) : Prop where
  threads : ∀ i, s.threads i = []
  worker : s.worker = .idle
  chan : s.chan = []

/-- The entries of the process at the observer. -/
def held (c : Peers) (s : System τ π) : Set EndpointKey :=
  {k | ∃ x ∈ s.observer.knownPublishers.pubsOfProc c.uuid, endpointKey x = k}

/-- The process's own entries whose scope is not PROCESS. -/
def offered (c : Peers) (s : System τ π) : Set EndpointKey :=
  {k | ∃ x ∈ s.self.knownPublishers.pubsOfProc c.uuid, scope x ≠ .process ∧ endpointKey x = k}

/-! ## Undisturbed operations

An operation whose steps follow each other without a break is the member function. -/

section Undisturbed
variable [DecidableEq τ]

theorem exec_send (c : Peers) (s : System τ π) (i : τ) (ms : List Msgs.Discovery) :
    exec (next c) { s with threads := Function.update s.threads i ms }
        (List.replicate ms.length (.send i)) =
      some { s with threads := Function.update s.threads i [], chan := s.chan ++ ms } := by
  induction ms generalizing s with
  | nil => simp
  | cons m ms ih =>
      have hnext : next c { s with threads := Function.update s.threads i (m :: ms) } (.send i) =
          some { s with threads := Function.update s.threads i ms, chan := s.chan ++ [m] } := by
        simp [next]
      rw [List.length_cons, List.replicate_succ, exec_cons, hnext, Option.bind_some]
      refine (ih { s with chan := s.chan ++ [m] }).trans ?_
      simp

theorem exec_workerSend (c : Peers) (s : System τ π) (b : Bool) (ms : List Msgs.Discovery) :
    exec (next c) { s with worker := .sending ms b } (List.replicate ms.length .workerSend) =
      some { s with worker := .sending [] b, chan := s.chan ++ ms } := by
  induction ms generalizing s with
  | nil => simp
  | cons m ms ih =>
      rw [List.length_cons, List.replicate_succ, exec_cons]
      refine (ih { s with chan := s.chan ++ [m] }).trans ?_
      simp

theorem exec_advertise (c : Peers) (s : System τ π) {i : τ} {p : π} (hi : s.threads i = [])
    (hp : c.Makes p) :
    exec (next c) s (.advertise i p ::
        List.replicate (s.self.advertise p).1.sent.length (.send i)) =
      some { s with
        self := (s.self.advertise p).1.self, chan := s.chan ++ (s.self.advertise p).1.sent } := by
  rw [exec_cons, next, if_pos ⟨hi, hp⟩, Option.bind_some]
  refine (exec_send c { s with self := (s.self.advertise p).1.self } i _).trans ?_
  rw [← hi, Function.update_eq_self]

theorem exec_unadvertise (c : Peers) (s : System τ π) {i : τ} {t n : Str}
    (hi : s.threads i = []) :
    exec (next c) s (.unadvertise i t n ::
        List.replicate (s.self.unadvertise t n).1.sent.length (.send i)) =
      some { s with
        self := (s.self.unadvertise t n).1.self
        chan := s.chan ++ (s.self.unadvertise t n).1.sent } := by
  rw [exec_cons, next, if_pos hi, Option.bind_some]
  refine (exec_send c { s with self := (s.self.unadvertise t n).1.self } i _).trans ?_
  rw [← hi, Function.update_eq_self]

theorem exec_heartbeat (c : Peers) (s : System τ π) {now later : ℕ} (hw : s.worker = .idle)
    (hdue : ¬ now < s.self.timeNextHeartbeat) :
    exec (next c) s ([.heartbeat now, .copy] ++
        List.replicate s.self.readvertise.length .workerSend ++ [.finish later]) =
      some { s with
        self := (s.self.updateHeartbeat now later).self
        chan := s.chan ++ (s.self.updateHeartbeat now later).sent } := by
  have hstart : exec (next c) s [.heartbeat now, .copy] = some { s with
      worker := .sending s.self.readvertise true, chan := s.chan ++ s.self.sendHeartbeat } := by
    rw [exec_cons, next, if_pos ⟨hw, hdue⟩, Option.bind_some]
    simp [next]
  rw [exec_append, exec_append, hstart, Option.bind_some,
    exec_workerSend c { s with chan := s.chan ++ s.self.sendHeartbeat } true,
    Discovery.updateHeartbeat, if_neg hdue]
  simp [next, hw]

theorem exec_recv (c : Peers) (s : System τ π) {fromIp : Str} {m : Msgs.Discovery}
    {now later : ℕ} (hw : s.worker = .idle) :
    let o := s.self.dispatchDiscoveryMsg fromIp m now
    exec (next c) s ([.recv fromIp m now] ++ List.replicate o.sent.length .workerSend ++
        [.finish later]) = some { s with self := o.self, chan := s.chan ++ o.sent } := by
  intro o
  have hstart : exec (next c) s [.recv fromIp m now] =
      some { s with self := o.self, worker := .sending o.sent false } := by
    rw [exec_cons, next, if_pos hw]
    rfl
  rw [exec_append, exec_append, hstart, Option.bind_some,
    exec_workerSend c { s with self := o.self } false]
  simp [next, hw]

end Undisturbed

/-! ## When a datagram may be sent -/

/-- What a datagram does to the entries of its sender. -/
def opOf (π : Type) [PubLike π] (m : Msgs.Discovery) : Option (Op EndpointKey) :=
  match m.type with
  | .advertise => some (.put (endpointKey (Discovery.parse m : π)))
  | .unadvertise => some (.drop (endpointKey (Discovery.parse m : π)))
  | _ => none

/-- The operations that are still to be sent, or that a heartbeat will find in the table. -/
inductive Waiting (c : Peers) (s : System τ π) (o : Op EndpointKey) : Prop
  | thread (i : τ) (m : Msgs.Discovery) (hm : m ∈ s.threads i) (ho : opOf π m = some o)
  | worker (m : Msgs.Discovery) (hm : m ∈ s.worker.todo) (ho : opOf π m = some o)
  | beating (hw : s.worker = .beating) (k : EndpointKey) (hk : k ∈ offered c s) (ho : o = .put k)

/-- A datagram that the table contradicts is sent only while another one is still to be
sent that says of the endpoint what the table says. -/
def MaySend (c : Peers) (s s' : System τ π) (m : Msgs.Discovery) : Prop :=
  ∀ o, opOf π m = some o →
    o.Agrees (offered c s) ∨ ∃ o', Waiting c s' o' ∧ o'.key = o.key ∧ o'.Agrees (offered c s)

/-- What a step may do: a publisher that is advertised passes the size check of
`sendMulticast`, and a datagram is not the last word on its endpoint when the table has
overtaken it. -/
def Timely [DecidableEq τ] (c : Peers) (s : System τ π) (a : Action τ π) : Prop :=
  match a with
  | .advertise _ p => scope p ≠ .process → Discovery.fits (s.self.datagram .advertise p) = true
  | .send i => ∀ m ∈ (s.threads i).head?, ∀ s' ∈ next c s a, MaySend c s s' m
  | .workerSend => ∀ m ∈ s.worker.todo.head?, ∀ s' ∈ next c s a, MaySend c s s' m
  | _ => True

/-! ## The invariant -/

variable {c : Peers} {s s' : System τ π}

/-- The process's discovery instance at its start, which says who it is. -/
def Peers.process (c : Peers) : Discovery π :=
  { processUuid := c.uuid, processName := c.name, hostAddr := c.hostAddr }

/-- A datagram of the process. -/
inductive Says (c : Peers) (π : Type) [PubLike π] (m : Msgs.Discovery) : Prop
  | heartbeat (hu : m.processUuid = c.uuid) (ht : m.type = .heartbeat)
  | record (type : Msgs.DiscoveryType) (ht : type = .advertise ∨ type = .unadvertise) (p : π)
    (hp : c.Makes p) (hs : scope p ≠ .process)
    (hm : m = (c.process : Discovery π).datagram type p)

/-- What is true in every state of a run. -/
structure Inv (c : Peers) (s : System τ π) : Prop where
  uuid : s.self.processUuid = c.uuid
  name : s.self.processName = c.name
  enabled : s.self.enabled = true
  wellFormed : s.self.knownPublishers.WellFormed
  observerUuid : s.observer.processUuid = c.observerUuid
  observerHost : s.observer.hostAddr = c.hostAddr
  made : ∀ t, ∀ x ∈ s.self.knownPublishers.pubsOf t c.uuid, c.Makes x ∧ topic x = t ∧
    (scope x ≠ .process → Discovery.fits ((c.process : Discovery π).datagram .advertise x) = true)
  heldThere : ∀ t, ∀ x ∈ s.observer.knownPublishers.pubsOf t c.uuid,
    addr x = c.address ∧ topic x = t
  said : ∀ m, (∃ i, m ∈ s.threads i) ∨ m ∈ s.worker.todo ∨ m ∈ s.chan → Says c π m
  covered : Covered (offered c s) (settle (held c s) (s.chan.filterMap (opOf π))) (Waiting c s)

theorem Inv.datagram (h : Inv c s) (type : Msgs.DiscoveryType) (p : π) :
    s.self.datagram type p = (c.process : Discovery π).datagram type p := by
  rw [Discovery.datagram, h.uuid, h.name]
  rfl

theorem mem_offered {k : EndpointKey} : k ∈ offered c s ↔
    ∃ t, ∃ x ∈ s.self.knownPublishers.pubsOf t c.uuid, scope x ≠ .process ∧ endpointKey x = k :=
  exists_mem_pubsOfProc _

theorem mem_held {k : EndpointKey} : k ∈ held c s ↔
    ∃ t, ∃ x ∈ s.observer.knownPublishers.pubsOf t c.uuid, endpointKey x = k :=
  exists_mem_pubsOfProc _

theorem inv_start (c : Peers) : Inv c (start c : System τ π) := by
  refine ⟨rfl, rfl, rfl, wellFormed_empty, rfl, rfl, fun t x hx => ?_, fun t x hx => ?_, ?_, ?_⟩
  · exact absurd hx (by simp [start])
  · exact absurd hx (by simp [start])
  · rintro m (⟨i, hm⟩ | hm | hm)
    · cases hm
    · cases hm
    · cases hm
  · have hheld : held c (start c : System τ π) = ∅ := by
      ext k
      simp [mem_held, start]
    have hoff : offered c (start c : System τ π) = ∅ := by
      ext k
      simp [mem_offered, start]
    rw [hheld, hoff]
    exact fun k => .inl Iff.rfl

/-! ### The observer receives -/

/-- An ADVERTISE puts its endpoint into the observer's table. -/
theorem held_advertise (h : Inv c s) {p : π} (hp : c.Makes p)
    {known : TopicStorage π} {q : π} (hq : endpointKey q = endpointKey p)
    (hu : processUuid q = c.uuid) (hk : known = (s.observer.knownPublishers.addPublisher q).1) :
    {k | ∃ x ∈ known.pubsOfProc c.uuid, endpointKey x = k} =
        insert (endpointKey p) (held c s) ∧
      ∀ t, ∀ x ∈ known.pubsOf t c.uuid, addr x = c.address ∧ topic x = t := by
  have htopic : topic q = topic p := congrArg EndpointKey.topic hq
  have haddr : addr q = addr p := congrArg EndpointKey.addr hq
  subst hk
  constructor
  · ext k
    rw [Set.mem_insert_iff, mem_held]
    constructor
    · rintro ⟨x, hx, rfl⟩
      obtain ⟨t, hx⟩ := (mem_pubsOfProc _).mp hx
      rcases (mem_pubsOf_addPublisher _).mp hx with hx | ⟨-, -, -, rfl⟩
      · exact .inr ⟨t, x, hx, rfl⟩
      · exact .inl hq
    · rintro (rfl | ⟨t, x, hx, rfl⟩)
      · by_cases hnew : (s.observer.knownPublishers.addPublisher q).2 = true
        · refine ⟨q, (mem_pubsOfProc _).mpr ⟨topic q, (mem_pubsOf_addPublisher _).mpr ?_⟩, hq⟩
          exact .inr ⟨hnew, rfl, hu.symm, rfl⟩
        · rw [addPublisher_snd] at hnew
          push Not at hnew
          obtain ⟨x, hx, hsame⟩ := hnew
          simp only [sameEndpoint, decide_eq_true_eq] at hsame
          rw [hu] at hx
          refine ⟨x, (mem_pubsOfProc _).mpr ⟨topic q, ?_⟩, ?_⟩
          · exact (mem_pubsOf_addPublisher _).mpr (.inl hx)
          rw [← hq, endpointKey, endpointKey, (h.heldThere _ x hx).2, hsame.1, hsame.2]
      · exact ⟨x, (mem_pubsOfProc _).mpr ⟨t, (mem_pubsOf_addPublisher _).mpr (.inl hx)⟩, rfl⟩
  · intro t x hx
    rcases (mem_pubsOf_addPublisher _).mp hx with hx | ⟨-, rfl, -, rfl⟩
    · exact h.heldThere t x hx
    · exact ⟨haddr.trans hp.addr, rfl⟩

/-- An UNADVERTISE drops it. -/
theorem held_unadvertise (h : Inv c s) {p : π} (hp : c.Makes p) {known : TopicStorage π}
    (hk : known =
      (s.observer.knownPublishers.delPublishersByNode (topic p) c.uuid (nodeUuid p)).1) :
    {k | ∃ x ∈ known.pubsOfProc c.uuid, endpointKey x = k} = held c s \ {endpointKey p} ∧
      ∀ t, ∀ x ∈ known.pubsOf t c.uuid, addr x = c.address ∧ topic x = t := by
  subst hk
  constructor
  · ext k
    rw [Set.mem_sdiff, mem_held]
    constructor
    · rintro ⟨x, hx, rfl⟩
      obtain ⟨t, hx⟩ := (mem_pubsOfProc _).mp hx
      obtain ⟨hx, hne⟩ := (mem_pubsOf_delPublishersByNode _).mp hx
      refine ⟨⟨t, x, hx, rfl⟩, fun hkey => hne ?_⟩
      have htopic : topic x = topic p := congrArg EndpointKey.topic hkey
      exact ⟨(h.heldThere t x hx).2.symm.trans htopic, rfl, congrArg EndpointKey.nodeUuid hkey⟩
    · rintro ⟨⟨t, x, hx, rfl⟩, hne⟩
      refine ⟨x, (mem_pubsOfProc _).mpr ⟨t, (mem_pubsOf_delPublishersByNode _).mpr ⟨hx, ?_⟩⟩, rfl⟩
      rintro ⟨rfl, -, hnode⟩
      obtain ⟨haddr, htopic⟩ := h.heldThere _ x hx
      apply hne
      rw [Set.mem_singleton_iff, endpointKey, endpointKey, htopic, haddr, hp.addr, hnode]
  · intro t x hx
    exact h.heldThere t x ((mem_pubsOf_delPublishersByNode _).mp hx).1

section Receives
variable [WirePub π]

/-- The operation in a datagram about a record. -/
theorem opOf_datagram (c : Peers) (p : π) :
    opOf π ((c.process : Discovery π).datagram .advertise p) = some (.put (endpointKey p)) ∧
      opOf π ((c.process : Discovery π).datagram .unadvertise p) =
        some (.drop (endpointKey p)) := by
  have hkey : ∀ type, endpointKey
      (Discovery.parse ((c.process : Discovery π).datagram type p) : π) = endpointKey p := by
    intro type
    rw [endpointKey, Discovery.topic_parse, Discovery.addr_parse, Discovery.nodeUuid_parse]
    rfl
  exact ⟨congrArg (fun k => some (Op.put k)) (hkey .advertise),
    congrArg (fun k => some (Op.drop k)) (hkey .unadvertise)⟩

/-- The observer sees the process's datagrams as local ones that are not its own. -/
theorem Inv.visible (h : Inv c s) (type : Msgs.DiscoveryType) {p : π} (hp : c.Makes p)
    (hs : scope p ≠ .process) :
    let m := (c.process : Discovery π).datagram type p
    m.processUuid ≠ s.observer.processUuid ∧
      Discovery.hidden (Discovery.parse m : π) (s.observer.isSenderLocal c.hostAddr) = false := by
  refine ⟨?_, ?_⟩
  · rw [h.observerUuid]
    exact c.distinct
  · have hlocal : s.observer.isSenderLocal c.hostAddr = true := by
      simp [Discovery.isSenderLocal, h.observerHost]
    have hscope := Discovery.scope_parse (c.process : Discovery π) type p
    rw [← hp.scope] at hscope
    simp [Discovery.hidden, hlocal, hscope, hs]

/-- What the observer makes of a datagram of the process. -/
theorem held_deliver (h : Inv c s) {m : Msgs.Discovery} (hm : Says c π m) (now : ℕ) :
    let s' := { s with
      observer := (s.observer.dispatchDiscoveryMsg c.hostAddr m now).self }
    held c s' = ((opOf π m).map (apply (held c s))).getD (held c s) ∧
      ∀ t, ∀ x ∈ s'.observer.knownPublishers.pubsOf t c.uuid, addr x = c.address ∧ topic x = t := by
  intro s'
  cases hm with
  | heartbeat hu ht =>
      have hknown : s'.observer.knownPublishers = s.observer.knownPublishers :=
        Discovery.known_dispatch_heartbeat ht
      have hop : opOf π m = none := by simp only [opOf, ht]
      rw [held, hknown, hop]
      exact ⟨rfl, h.heldThere⟩
  | record type ht p hp hs hm =>
      obtain ⟨hne, hv⟩ := h.visible type hp hs
      have hkey : endpointKey
          (Discovery.parse ((c.process : Discovery π).datagram type p) : π) = endpointKey p := by
        rw [endpointKey, Discovery.topic_parse, Discovery.addr_parse, Discovery.nodeUuid_parse]
        rfl
      have hu := Discovery.processUuid_parse (c.process : Discovery π) type p
      subst hm
      rcases ht with rfl | rfl
      · rw [(opOf_datagram c p).1]
        exact held_advertise h hp hkey hu (Discovery.known_dispatch_advertise hne rfl hv)
      · rw [(opOf_datagram c p).2]
        refine held_unadvertise h hp ?_
        have hknown : s'.observer.knownPublishers = _ :=
          Discovery.known_dispatch_unadvertise hne rfl hv
        rw [hu, Discovery.topic_parse, Discovery.nodeUuid_parse] at hknown
        exact hknown

end Receives

/-! ### The process changes its table -/

/-- Own endpoints that are the same are of the same record. -/
theorem Inv.eq_of_node (h : Inv c s) {t : Str} {x y : π}
    (hx : x ∈ s.self.knownPublishers.pubsOf t c.uuid)
    (hy : y ∈ s.self.knownPublishers.pubsOf t c.uuid) (hn : nodeUuid x = nodeUuid y) : x = y := by
  refine h.wellFormed.eq_of_sameEndpoint hx hy ?_
  simp only [sameEndpoint, decide_eq_true_eq]
  exact ⟨(h.made t x hx).1.addr.trans (h.made t y hy).1.addr.symm, hn⟩

/-- What it adds to the offered endpoints. -/
theorem Inv.offered_advertise (h : Inv c s) {p : π} (hp : c.Makes p) {s' : System τ π}
    (hs' : s'.self = (s.self.advertise p).1.self) :
    offered c s' = if (s.self.knownPublishers.addPublisher p).2 = true ∧ scope p ≠ .process then
      insert (endpointKey p) (offered c s) else offered c s := by
  have hmem : ∀ k, k ∈ offered c s' ↔ k ∈ offered c s ∨
      ((s.self.knownPublishers.addPublisher p).2 = true ∧ scope p ≠ .process) ∧
        k = endpointKey p := by
    intro k
    rw [mem_offered, mem_offered, hs', Discovery.self_advertise _ _ h.enabled]
    constructor
    · rintro ⟨t, x, hx, hs, rfl⟩
      rcases (mem_pubsOf_addPublisher _).mp hx with hx | ⟨hadd, -, -, rfl⟩
      · exact .inl ⟨t, x, hx, hs, rfl⟩
      · exact .inr ⟨⟨hadd, hs⟩, rfl⟩
    · rintro (⟨t, x, hx, hs, rfl⟩ | ⟨⟨hadd, hs⟩, rfl⟩)
      · exact ⟨t, x, (mem_pubsOf_addPublisher _).mpr (.inl hx), hs, rfl⟩
      · exact ⟨topic p, p, (mem_pubsOf_addPublisher _).mpr
          (.inr ⟨hadd, rfl, hp.processUuid.symm, rfl⟩), hs, rfl⟩
  ext k
  rw [hmem]
  by_cases hadd : (s.self.knownPublishers.addPublisher p).2 = true ∧ scope p ≠ .process
  · rw [if_pos hadd, Set.mem_insert_iff, or_comm]
    exact or_congr_left (and_iff_right hadd)
  · rw [if_neg hadd]
    exact or_iff_left fun hh => hadd hh.1

/-- What waits for a thread that had nothing to send waits elsewhere. -/
theorem Waiting.update [DecidableEq τ] {i : τ} {ms : List Msgs.Discovery} {o : Op EndpointKey}
    (ho : Waiting c s o) (hi : s.threads i = []) (ht : s'.threads = Function.update s.threads i ms)
    (hw : s'.worker = s.worker) (hoff : o.key ∈ offered c s → o.key ∈ offered c s') :
    Waiting c s' o := by
  cases ho with
  | thread j m hm ho =>
      have hj : j ≠ i := by
        rintro rfl
        rw [hi] at hm
        cases hm
      exact .thread j m (by rw [ht, Function.update_of_ne hj]; exact hm) ho
  | worker m hm ho => exact .worker m (by rw [hw]; exact hm) ho
  | beating hb k hk ho =>
      subst ho
      exact .beating (hw.trans hb) k (hoff hk) rfl

/-- What it takes from the offered endpoints. -/
theorem Inv.offered_unadvertise (h : Inv c s) {t n : Str} {x : π}
    (hx : s.self.knownPublishers.getPublisher t c.uuid n = some x)
    (hs' : s'.self = (s.self.unadvertise t n).1.self) :
    offered c s' =
      if scope x ≠ .process then offered c s \ {endpointKey x} else offered c s := by
  have hfind := hx
  rw [getPublisher_eq] at hfind
  have hmem := List.mem_of_find?_eq_some hfind
  have hnode : nodeUuid x = n := by simpa using List.find?_some hfind
  have hknown : s'.self.knownPublishers =
      (s.self.knownPublishers.delPublishersByNode t c.uuid n).1 := by
    rw [← h.uuid] at hx ⊢
    rw [hs', Discovery.self_unadvertise _ _ _ h.enabled, hx]
  have hkey : ∀ t', ∀ y ∈ s.self.knownPublishers.pubsOf t' c.uuid,
      endpointKey y = endpointKey x ↔ t' = t ∧ c.uuid = c.uuid ∧ nodeUuid y = n := by
    intro t' y hy
    obtain ⟨hym, hyt, -⟩ := h.made t' y hy
    obtain ⟨hxm, hxt, -⟩ := h.made t x hmem
    rw [endpointKey, endpointKey, EndpointKey.mk.injEq, hyt, hxt, hym.addr, hxm.addr, hnode]
    exact and_congr_right fun _ => ⟨fun hh => ⟨rfl, hh.2⟩, fun hh => ⟨rfl, hh.2⟩⟩
  ext k
  have hleft : k ∈ offered c s' ↔ k ∈ offered c s ∧ k ≠ endpointKey x := by
    rw [mem_offered, mem_offered, hknown]
    constructor
    · rintro ⟨t', y, hy, hs, rfl⟩
      obtain ⟨hy, hne⟩ := (mem_pubsOf_delPublishersByNode _).mp hy
      exact ⟨⟨t', y, hy, hs, rfl⟩, fun heq => hne ((hkey t' y hy).mp heq)⟩
    · rintro ⟨⟨t', y, hy, hs, rfl⟩, hne⟩
      exact ⟨t', y, (mem_pubsOf_delPublishersByNode _).mpr
        ⟨hy, fun heq => hne ((hkey t' y hy).mpr heq)⟩, hs, rfl⟩
  rw [hleft]
  by_cases hs : scope x ≠ .process
  · rw [if_pos hs, Set.mem_sdiff, Set.mem_singleton_iff]
  · rw [if_neg hs]
    refine and_iff_left_of_imp fun hk heq => ?_
    -- An endpoint of the node that is offered would be another record of the node.
    obtain ⟨t', y, hy, hsy, rfl⟩ := mem_offered.mp hk
    obtain ⟨rfl, -, hyn⟩ := (hkey t' y hy).mp heq
    exact hs (h.eq_of_node hy hmem (hyn.trans hnode.symm) ▸ hsy)

section Changes
variable [WirePub π]

/-- What `advertise` leaves to be sent. -/
theorem Inv.sent_advertise (h : Inv c s) {p : π}
    (hfits : scope p ≠ .process → Discovery.fits (s.self.datagram .advertise p) = true) :
    (s.self.advertise p).1.sent =
      if (s.self.knownPublishers.addPublisher p).2 = true ∧ scope p ≠ .process then
        [(c.process : Discovery π).datagram .advertise p] else [] := by
  simp only [Discovery.advertise, if_pos h.enabled]
  by_cases hadd : (s.self.knownPublishers.addPublisher p).2 = true
  · by_cases hs : scope p ≠ .process
    · simp only [if_pos hadd, if_pos hs, if_pos (And.intro hadd hs)]
      rw [Discovery.sendMsg_datagram _ (.inl rfl), if_pos (hfits hs), h.datagram]
    · simp only [if_pos hadd, if_neg hs, if_neg (fun hh : _ ∧ _ => hs hh.2)]
  · simp only [if_neg hadd, if_neg (fun hh : _ ∧ _ => hadd hh.1)]

theorem Inv.advertise [DecidableEq τ] (h : Inv c s) {i : τ} {p : π} (hi : s.threads i = [])
    (hp : c.Makes p)
    (hfits : scope p ≠ .process → Discovery.fits (s.self.datagram .advertise p) = true)
    (hself : s'.self = (s.self.advertise p).1.self)
    (hthreads : s'.threads = Function.update s.threads i (s.self.advertise p).1.sent)
    (hworker : s'.worker = s.worker) (hchan : s'.chan = s.chan)
    (hobserver : s'.observer = s.observer) : Inv c s' := by
  have hoff := h.offered_advertise hp hself
  rw [h.sent_advertise hfits] at hthreads
  have hheld : held c s' = held c s := by rw [held, hobserver, held]
  rw [Discovery.self_advertise s.self p h.enabled] at hself
  refine ⟨?_, ?_, ?_, ?_, ?_, ?_, ?_, ?_, ?_, ?_⟩
  · rw [hself]
    exact h.uuid
  · rw [hself]
    exact h.name
  · rw [hself]
    exact h.enabled
  · rw [hself]
    exact h.wellFormed.addPublisher p
  · rw [hobserver]
    exact h.observerUuid
  · rw [hobserver]
    exact h.observerHost
  · intro t x hx
    rw [hself] at hx
    rcases (mem_pubsOf_addPublisher _).mp hx with hx | ⟨-, rfl, -, rfl⟩
    · exact h.made t x hx
    · exact ⟨hp, rfl, fun hs => h.datagram .advertise x ▸ hfits hs⟩
  · rw [hobserver]
    exact h.heldThere
  · rw [hworker, hchan, hthreads]
    rintro m (⟨j, hm⟩ | hm)
    · by_cases hj : j = i
      · subst hj
        rw [Function.update_self] at hm
        split at hm
        case isTrue hadd =>
          exact .record .advertise (.inl rfl) p hp hadd.2 (List.mem_singleton.mp hm)
        case isFalse => cases hm
      · rw [Function.update_of_ne hj] at hm
        exact h.said m (.inl ⟨j, hm⟩)
    · exact h.said m (.inr hm)
  · rw [hoff, hheld, hchan]
    by_cases hadd : (s.self.knownPublishers.addPublisher p).2 = true ∧ scope p ≠ .process
    · rw [if_pos hadd] at hoff hthreads ⊢
      refine h.covered.write (fun k hk => ?_) (fun o ho _ => ?_)
        ⟨.put (endpointKey p), ?_, rfl, Set.mem_insert _ _⟩
      · rw [Set.mem_insert_iff]
        exact (or_iff_right hk).symm
      · refine ho.update hi hthreads hworker fun hk => ?_
        rw [hoff]
        exact Set.mem_insert_of_mem _ hk
      · refine .thread i _ ?_ (opOf_datagram c p).1
        rw [hthreads, Function.update_self]
        exact List.mem_singleton_self _
    · rw [if_neg hadd] at hoff hthreads ⊢
      exact h.covered.mono fun o ho => ho.update hi hthreads hworker fun hk => hoff ▸ hk

/-- What `unadvertise` leaves to be sent. -/
theorem Inv.sent_unadvertise (h : Inv c s) {t n : Str} {x : π}
    (hx : s.self.knownPublishers.getPublisher t c.uuid n = some x) :
    (s.self.unadvertise t n).1.sent =
      if scope x ≠ .process then [(c.process : Discovery π).datagram .unadvertise x] else [] := by
  have hmem : x ∈ s.self.knownPublishers.pubsOf t c.uuid := by
    rw [getPublisher_eq] at hx
    exact List.mem_of_find?_eq_some hx
  rw [← h.uuid] at hx
  simp only [Discovery.unadvertise, if_pos h.enabled, hx]
  by_cases hs : scope x ≠ .process
  · rw [if_pos hs, if_pos hs, Discovery.sendMsg_datagram _ (.inr (.inl rfl)), h.datagram, if_pos]
    rw [Discovery.fits_unadvertise]
    exact (h.made t x hmem).2.2 hs
  · rw [if_neg hs, if_neg hs]

theorem Inv.unadvertise [DecidableEq τ] (h : Inv c s) {i : τ} {t n : Str} (hi : s.threads i = [])
    (hself : s'.self = (s.self.unadvertise t n).1.self)
    (hthreads : s'.threads = Function.update s.threads i (s.self.unadvertise t n).1.sent)
    (hworker : s'.worker = s.worker) (hchan : s'.chan = s.chan)
    (hobserver : s'.observer = s.observer) : Inv c s' := by
  have hheld : held c s' = held c s := by rw [held, hobserver, held]
  have hknown : s'.self =
      { s.self with knownPublishers := s'.self.knownPublishers } ∧
      Edited s.self.knownPublishers s'.self.knownPublishers ∧
      ∀ t' x, x ∈ s'.self.knownPublishers.pubsOf t' c.uuid →
        x ∈ s.self.knownPublishers.pubsOf t' c.uuid := by
    rw [hself, Discovery.self_unadvertise _ _ _ h.enabled]
    cases s.self.knownPublishers.getPublisher t s.self.processUuid n with
    | none => exact ⟨rfl, .same, fun _ _ hx => hx⟩
    | some x =>
        exact ⟨rfl, .removedNode _ _ _, fun _ _ hx => ((mem_pubsOf_delPublishersByNode _).mp hx).1⟩
  have hsaid : ∀ m, (∃ j, m ∈ s'.threads j) ∨ m ∈ s'.worker.todo ∨ m ∈ s'.chan →
      m ∈ (s.self.unadvertise t n).1.sent ∨ Says c π m := by
    rw [hthreads, hworker, hchan]
    rintro m (⟨j, hm⟩ | hm)
    · by_cases hj : j = i
      · subst hj
        rw [Function.update_self] at hm
        exact .inl hm
      · rw [Function.update_of_ne hj] at hm
        exact .inr (h.said m (.inl ⟨j, hm⟩))
    · exact .inr (h.said m (.inr hm))
  have hparts : (∀ m ∈ (s.self.unadvertise t n).1.sent, Says c π m) ∧
      Covered (offered c s') (settle (held c s) (s.chan.filterMap (opOf π))) (Waiting c s') := by
    cases hx : s.self.knownPublishers.getPublisher t c.uuid n with
    | none =>
        have hx' : s.self.knownPublishers.getPublisher t s.self.processUuid n = none := by
          rw [h.uuid]
          exact hx
        have hsent : (s.self.unadvertise t n).1.sent = [] := by
          simp only [Discovery.unadvertise, if_pos h.enabled, hx']
        have hoff : offered c s' = offered c s := by
          rw [offered, hself, Discovery.self_unadvertise _ _ _ h.enabled, hx', offered]
        rw [hsent, hoff]
        exact ⟨(fun _ h => by cases h),
          h.covered.mono fun o ho => ho.update hi hthreads hworker fun hk => hoff ▸ hk⟩
    | some x =>
        have hmem : x ∈ s.self.knownPublishers.pubsOf t c.uuid := by
          rw [getPublisher_eq] at hx
          exact List.mem_of_find?_eq_some hx
        have hoff := h.offered_unadvertise hx hself
        rw [h.sent_unadvertise hx] at hthreads ⊢
        rw [hoff]
        by_cases hs : scope x ≠ .process
        · rw [if_pos hs] at hoff hthreads ⊢
          rw [if_pos hs]
          refine ⟨fun m hm => ?_, h.covered.write (fun k hk => ?_) (fun o ho hk => ?_)
            ⟨.drop (endpointKey x), ?_, rfl, fun hk => hk.2 rfl⟩⟩
          · have heq := List.mem_singleton.mp hm
            exact .record .unadvertise (.inr rfl) x (h.made t x hmem).1 hs heq
          · exact (and_iff_left hk).symm
          · refine ho.update hi hthreads hworker fun hkmem => ?_
            rw [hoff]
            exact ⟨hkmem, hk⟩
          · refine .thread i _ ?_ (opOf_datagram c x).2
            rw [hthreads, Function.update_self]
            exact List.mem_singleton_self _
        · rw [if_neg hs] at hoff hthreads ⊢
          rw [if_neg hs]
          exact ⟨(fun _ h => by cases h), h.covered.mono fun o ho =>
            ho.update hi hthreads hworker fun hk => hoff ▸ hk⟩
  refine ⟨?_, ?_, ?_, h.wellFormed.edited hknown.2.1, ?_, ?_, fun t' x hx => ?_, ?_,
    fun m hm => (hsaid m hm).elim (hparts.1 m) id, ?_⟩
  · rw [hknown.1]
    exact h.uuid
  · rw [hknown.1]
    exact h.name
  · rw [hknown.1]
    exact h.enabled
  · rw [hobserver]
    exact h.observerUuid
  · rw [hobserver]
    exact h.observerHost
  · exact h.made t' x (hknown.2.2 t' x hx)
  · rw [hobserver]
    exact h.heldThere
  · rw [hheld, hchan]
    exact hparts.2

end Changes

/-! ### The other steps -/

/-- Steps that leave both tables alone. -/
theorem Inv.of_same (h : Inv c s) {timer : ℕ}
    (hself : s'.self = { s.self with timeNextHeartbeat := timer })
    (hobserver : s'.observer = s.observer)
    (hsaid : ∀ m, (∃ i, m ∈ s'.threads i) ∨ m ∈ s'.worker.todo ∨ m ∈ s'.chan → Says c π m)
    (hcovered : Covered (offered c s) (settle (held c s) (s'.chan.filterMap (opOf π)))
      (Waiting c s')) : Inv c s' := by
  have hheld : held c s' = held c s := by rw [held, hobserver, held]
  have hoff : offered c s' = offered c s := by rw [offered, hself, offered]
  refine ⟨?_, ?_, ?_, ?_, ?_, ?_, ?_, ?_, hsaid, hoff ▸ hheld ▸ hcovered⟩
  · rw [hself]
    exact h.uuid
  · rw [hself]
    exact h.name
  · rw [hself]
    exact h.enabled
  · rw [hself]
    exact h.wellFormed
  · rw [hobserver]
    exact h.observerUuid
  · rw [hobserver]
    exact h.observerHost
  · rw [hself]
    exact h.made
  · rw [hobserver]
    exact h.heldThere

/-- A datagram leaves, in time. -/
theorem Inv.covered_send (h : Inv c s) {m : Msgs.Discovery} (hchan : s'.chan = s.chan ++ [m])
    (hkeep : ∀ o, Waiting c s o → opOf π m = some o ∨ Waiting c s' o) (hmay : MaySend c s s' m) :
    Covered (offered c s) (settle (held c s) (s'.chan.filterMap (opOf π))) (Waiting c s') := by
  rw [hchan, List.filterMap_append, settle_append]
  cases hop : opOf π m with
  | none =>
      rw [List.filterMap_cons_none hop]
      refine h.covered.mono fun o ho => (hkeep o ho).resolve_left fun heq => ?_
      rw [hop] at heq
      cases heq
  | some o =>
      rw [List.filterMap_cons_some hop]
      refine h.covered.send (fun o' ho' => ?_) (hmay o hop)
      refine (hkeep o' ho').imp_left fun heq => ?_
      rw [hop] at heq
      exact (Option.some.inj heq).symm

theorem Inv.send [DecidableEq τ] (h : Inv c s) {i : τ} {m : Msgs.Discovery}
    {rest : List Msgs.Discovery} (hi : s.threads i = m :: rest)
    (hmay : MaySend c s { s with
      threads := Function.update s.threads i rest, chan := s.chan ++ [m] } m) :
    Inv c { s with threads := Function.update s.threads i rest, chan := s.chan ++ [m] } := by
  have hsaid := h.said m (.inl ⟨i, hi ▸ List.mem_cons_self⟩)
  refine h.of_same rfl rfl ?_ (h.covered_send rfl ?_ hmay)
  · rintro m' (⟨j, hm⟩ | hm | hm)
    · by_cases hj : j = i
      · subst hj
        simp only [Function.update_self] at hm
        exact h.said m' (.inl ⟨j, hi ▸ List.mem_cons_of_mem _ hm⟩)
      · simp only [Function.update_of_ne hj] at hm
        exact h.said m' (.inl ⟨j, hm⟩)
    · exact h.said m' (.inr (.inl hm))
    · rcases List.mem_append.mp hm with hm | hm
      · exact h.said m' (.inr (.inr hm))
      · exact List.mem_singleton.mp hm ▸ hsaid
  · intro o ho
    cases ho with
    | thread j m' hm ho =>
        by_cases hj : j = i
        · subst hj
          rw [hi] at hm
          rcases List.mem_cons.mp hm with rfl | hm
          · exact .inl ho
          · exact .inr (.thread j m' (by simpa using hm) ho)
        · exact .inr (.thread j m' (by simpa [hj] using hm) ho)
    | worker m' hm ho => exact .inr (.worker m' hm ho)
    | beating hb k hk ho => exact .inr (.beating hb k hk ho)

theorem Inv.workerSend (h : Inv c s) {m : Msgs.Discovery} {rest : List Msgs.Discovery} {b : Bool}
    (hw : s.worker = .sending (m :: rest) b)
    (hmay : MaySend c s { s with worker := .sending rest b, chan := s.chan ++ [m] } m) :
    Inv c { s with worker := .sending rest b, chan := s.chan ++ [m] } := by
  have htodo : s.worker.todo = m :: rest := by rw [hw, Worker.todo]
  have hsaid := h.said m (.inr (.inl (htodo ▸ List.mem_cons_self)))
  refine h.of_same rfl rfl ?_ (h.covered_send rfl ?_ hmay)
  · rintro m' (hm | hm | hm)
    · exact h.said m' (.inl hm)
    · exact h.said m' (.inr (.inl (htodo ▸ List.mem_cons_of_mem _ hm)))
    · rcases List.mem_append.mp hm with hm | hm
      · exact h.said m' (.inr (.inr hm))
      · exact List.mem_singleton.mp hm ▸ hsaid
  · intro o ho
    cases ho with
    | thread j m' hm ho => exact .inr (.thread j m' hm ho)
    | worker m' hm ho =>
        rw [htodo] at hm
        rcases List.mem_cons.mp hm with rfl | hm
        · exact .inl ho
        · exact .inr (.worker m' hm ho)
    | beating hb k hk ho =>
        rw [hw] at hb
        cases hb

/-- What waits for an idle or finished discovery thread waits elsewhere. -/
theorem Waiting.of_threads {o : Op EndpointKey} (ho : Waiting c s o) (htodo : s.worker.todo = [])
    (hbeat : s.worker ≠ .beating) (ht : s'.threads = s.threads) : Waiting c s' o := by
  cases ho with
  | thread i m hm ho => exact .thread i m (ht ▸ hm) ho
  | worker m hm ho =>
      rw [htodo] at hm
      cases hm
  | beating hb => exact absurd hb hbeat

theorem Inv.heartbeat (h : Inv c s) (hw : s.worker = .idle) :
    Inv c { s with worker := .beating, chan := s.chan ++ s.self.sendHeartbeat } := by
  have hbeat : ∀ m ∈ s.self.sendHeartbeat, m.processUuid = c.uuid ∧ m.type = .heartbeat := by
    intro m hm
    rw [← h.uuid]
    exact Discovery.mem_sendHeartbeat hm
  refine h.of_same rfl rfl ?_ ?_
  · rintro m (hm | hm | hm)
    · exact h.said m (.inl hm)
    · cases hm
    · rcases List.mem_append.mp hm with hm | hm
      · exact h.said m (.inr (.inr hm))
      · exact .heartbeat (hbeat m hm).1 (hbeat m hm).2
  · have hnone : s.self.sendHeartbeat.filterMap (opOf π) = [] := by
      rw [List.filterMap_eq_nil_iff]
      intro m hm
      simp only [opOf, (hbeat m hm).2]
    rw [List.filterMap_append, hnone, List.append_nil]
    refine h.covered.mono fun o ho => ho.of_threads ?_ ?_ rfl
    · rw [hw, Worker.todo]
      exact nofun
    · rw [hw]
      exact nofun

theorem Inv.finish (h : Inv c s) {b : Bool} (hw : s.worker = .sending [] b) (timer : ℕ) :
    Inv c { s with worker := .idle, self := { s.self with timeNextHeartbeat := timer } } := by
  refine h.of_same rfl rfl ?_ (h.covered.mono fun o ho => ho.of_threads ?_ ?_ rfl)
  · rintro m (hm | hm | hm)
    · exact h.said m (.inl hm)
    · cases hm
    · exact h.said m (.inr (.inr hm))
  · rw [hw, Worker.todo]
  · rw [hw]
    exact nofun

/-- What waits is up to the process. -/
theorem Waiting.of_process {o : Op EndpointKey} (ho : Waiting c s o)
    (ht : s'.threads = s.threads) (hw : s'.worker = s.worker) (hself : s'.self = s.self) :
    Waiting c s' o := by
  cases ho with
  | thread i m hm ho => exact .thread i m (ht ▸ hm) ho
  | worker m hm ho => exact .worker m (hw ▸ hm) ho
  | beating hb k hk ho =>
      refine .beating (hw.trans hb) k ?_ ho
      rw [offered, hself]
      exact hk

variable [WirePub π]

/-- The datagrams of a heartbeat are those of the offered endpoints. -/
theorem Inv.mem_readvertise (h : Inv c s) {m : Msgs.Discovery} : m ∈ s.self.readvertise ↔
    ∃ t, ∃ x ∈ s.self.knownPublishers.pubsOf t c.uuid, scope x ≠ .process ∧
      m = (c.process : Discovery π).datagram .advertise x := by
  rw [Discovery.mem_readvertise, h.uuid]
  refine exists_congr fun t => exists_congr fun x => and_congr_right fun hx => and_congr_right
    fun hs => ?_
  rw [Discovery.sendMsg_datagram _ (.inl rfl), h.datagram, if_pos ((h.made t x hx).2.2 hs)]
  exact List.mem_singleton

theorem Inv.copy (h : Inv c s) (hw : s.worker = .beating) :
    Inv c { s with worker := .sending s.self.readvertise true } := by
  refine h.of_same rfl rfl ?_ (h.covered.mono fun o ho => ?_)
  · rintro m (hm | hm | hm)
    · exact h.said m (.inl hm)
    · obtain ⟨t, x, hx, hs, rfl⟩ := h.mem_readvertise.mp hm
      exact .record .advertise (.inl rfl) x (h.made t x hx).1 hs rfl
    · exact h.said m (.inr (.inr hm))
  · cases ho with
    | thread i m hm ho => exact .thread i m hm ho
    | worker m hm ho =>
        rw [hw] at hm
        cases hm
    | beating hb k hk ho =>
        obtain ⟨t, x, hx, hs, rfl⟩ := mem_offered.mp hk
        exact .worker _ (h.mem_readvertise.mpr ⟨t, x, hx, hs, rfl⟩) (ho ▸ (opOf_datagram c x).1)

/-- A datagram leaves the process's own publishers alone. -/
theorem Inv.pubsOf_recv (h : Inv c s) (fromIp : Str) (m : Msgs.Discovery) (now : ℕ) (t : Str) :
    (s.self.dispatchDiscoveryMsg fromIp m now).self.knownPublishers.pubsOf t c.uuid =
      s.self.knownPublishers.pubsOf t c.uuid := by
  by_cases hm : m.processUuid = s.self.processUuid
  · rw [Discovery.dispatchDiscoveryMsg, if_pos hm]
  · rw [h.uuid] at hm
    exact Discovery.pubsOf_dispatch_of_ne hm c.uuid_ne t

theorem Inv.recv (h : Inv c s) (hw : s.worker = .idle) (fromIp : Str) (m : Msgs.Discovery)
    (now : ℕ) : Inv c { s with
      self := (s.self.dispatchDiscoveryMsg fromIp m now).self
      worker := .sending (s.self.dispatchDiscoveryMsg fromIp m now).sent false } := by
  obtain ⟨known, seen, hself⟩ := s.self.self_dispatch fromIp m now
  have hpubs := h.pubsOf_recv fromIp m now
  have hoff : ∀ s' : System τ π, s'.self = (s.self.dispatchDiscoveryMsg fromIp m now).self →
      offered c s' = offered c s := by
    intro s' hs'
    ext k
    rw [mem_offered, mem_offered, hs']
    simp only [hpubs]
  refine ⟨?_, ?_, ?_, h.wellFormed.edited (s.self.edited_dispatch fromIp m now), h.observerUuid,
    h.observerHost, fun t x hx => ?_, h.heldThere, ?_, ?_⟩
  · rw [hself]
    exact h.uuid
  · rw [hself]
    exact h.name
  · rw [hself]
    exact h.enabled
  · rw [hpubs] at hx
    exact h.made t x hx
  · rintro m' (hm | hm | hm)
    · exact h.said m' (.inl hm)
    · obtain ⟨-, -, topic, -, hm⟩ := Discovery.mem_sent_dispatch hm
      obtain ⟨x, hx, hv, hm⟩ := Discovery.mem_answerSubscribe hm
      rw [h.uuid] at hx
      have hs : scope x ≠ .process := by
        intro hs
        simp [Discovery.hidden, hs] at hv
      rw [Discovery.sendMsg_datagram _ (.inl rfl), h.datagram,
        if_pos ((h.made topic x hx).2.2 hs)] at hm
      exact .record .advertise (.inl rfl) x (h.made topic x hx).1 hs (List.mem_singleton.mp hm)
    · exact h.said m' (.inr (.inr hm))
  · rw [hoff _ rfl]
    refine h.covered.mono fun o ho => ho.of_threads ?_ ?_ rfl
    · rw [hw, Worker.todo]
      exact nofun
    · rw [hw]
      exact nofun

/-- The next datagram reaches the observer. -/
theorem Inv.deliver (h : Inv c s) {m : Msgs.Discovery} {rest : List Msgs.Discovery}
    (hchan : s.chan = m :: rest) (now : ℕ) : Inv c { s with
      chan := rest, observer := (s.observer.dispatchDiscoveryMsg c.hostAddr m now).self } := by
  have hsaid := h.said m (.inr (.inr (hchan ▸ List.mem_cons_self)))
  obtain ⟨hheld, hthere⟩ := held_deliver h hsaid now
  obtain ⟨known, seen, hobserver⟩ := s.observer.self_dispatch c.hostAddr m now
  refine ⟨h.uuid, h.name, h.enabled, h.wellFormed, ?_, ?_, h.made, hthere, ?_, ?_⟩
  · rw [hobserver]
    exact h.observerUuid
  · rw [hobserver]
    exact h.observerHost
  · rintro m' (hm | hm | hm)
    · exact h.said m' (.inl hm)
    · exact h.said m' (.inr (.inl hm))
    · exact h.said m' (.inr (.inr (hchan ▸ List.mem_cons_of_mem _ hm)))
  · have hcov : Covered (offered c s) (settle (held c s) (s.chan.filterMap (opOf π)))
        (Waiting c { s with
          chan := rest
          observer := (s.observer.dispatchDiscoveryMsg c.hostAddr m now).self }) :=
      h.covered.mono fun o ho => ho.of_process rfl rfl rfl
    have hsettle : settle (held c s) (s.chan.filterMap (opOf π)) =
        settle (((opOf π m).map (apply (held c s))).getD (held c s))
          (rest.filterMap (opOf π)) := by
      rw [hchan]
      cases hop : opOf π m with
      | none =>
          rw [List.filterMap_cons_none hop]
          rfl
      | some o =>
          rw [List.filterMap_cons_some hop]
          rfl
    rw [hsettle, ← hheld] at hcov
    exact hcov

/-- What else the observer does leaves the process's publishers alone. -/
theorem pubsOf_observe {d d' : Discovery π} {a : ObserverAction π}
    (hu : d.processUuid = c.observerUuid) (h : observe c d a = some d') (t : Str) :
    d'.knownPublishers.pubsOf t c.uuid = d.knownPublishers.pubsOf t c.uuid ∧
      d'.processUuid = d.processUuid ∧ d'.hostAddr = d.hostAddr := by
  cases a with
  | advertise p =>
      simp only [observe] at h
      split at h
      case isFalse => cases h
      case isTrue hp =>
        obtain rfl := Option.some.inj h
        by_cases he : d.enabled = true
        · rw [Discovery.self_advertise d p he]
          exact ⟨(pubsOf_addPublisher _ t c.uuid).trans
            (if_neg fun hh => c.distinct (hh.2.2.trans hp)), rfl, rfl⟩
        · rw [Discovery.advertise, if_neg he]
          exact ⟨rfl, rfl, rfl⟩
  | unadvertise topic nodeUuid =>
      obtain rfl := Option.some.inj h
      by_cases he : d.enabled = true
      · rw [Discovery.self_unadvertise d topic nodeUuid he]
        refine ⟨?_, rfl, rfl⟩
        cases d.knownPublishers.getPublisher topic d.processUuid nodeUuid with
        | none => rfl
        | some p =>
            refine (pubsOf_delPublishersByNode _ _ _ _ t c.uuid).trans (if_neg fun hh => ?_)
            exact c.distinct (hh.2.trans hu)
      · rw [Discovery.unadvertise, if_neg he]
        exact ⟨rfl, rfl, rfl⟩
  | recv fromIp m now =>
      simp only [observe] at h
      split at h
      case isTrue => cases h
      case isFalse hm =>
        obtain rfl := Option.some.inj h
        obtain ⟨known, seen, hself⟩ := d.self_dispatch fromIp m now
        refine ⟨Discovery.pubsOf_dispatch_of_ne hm c.uuid_ne t, ?_, ?_⟩
        · rw [hself]
        · rw [hself]
  | heartbeat now later =>
      obtain rfl := Option.some.inj h
      rw [Discovery.self_updateHeartbeat]
      exact ⟨rfl, rfl, rfl⟩
  | activity now later =>
      simp only [observe] at h
      split at h
      case isTrue => cases h
      case isFalse hgone =>
        obtain rfl := Option.some.inj h
        simp only [Discovery.updateActivity]
        split
        case isTrue => exact ⟨rfl, rfl, rfl⟩
        case isFalse =>
          exact ⟨(pubsOf_foldl_delPublishersByProc _ _ t c.uuid).trans (if_neg hgone), rfl, rfl⟩

theorem Inv.observe (h : Inv c s) {a : ObserverAction π} {d : Discovery π}
    (ha : observe c s.observer a = some d) : Inv c { s with observer := d } := by
  have hpubs := pubsOf_observe h.observerUuid ha
  have hheld : held c { s with observer := d } = held c s := by
    ext k
    rw [mem_held, mem_held]
    simp only [(hpubs _).1]
  refine ⟨h.uuid, h.name, h.enabled, h.wellFormed, (hpubs []).2.1.trans h.observerUuid,
    (hpubs []).2.2.trans h.observerHost, h.made, fun t x hx => ?_, h.said, ?_⟩
  · rw [(hpubs t).1] at hx
    exact h.heldThere t x hx
  · rw [hheld]
    exact h.covered.mono fun o ho => ho.of_process rfl rfl rfl

/-! ## Runs -/

variable [DecidableEq τ]

theorem Inv.step (h : Inv c s) {a : Action τ π} (ha : Timely c s a) (hn : next c s a = some s') :
    Inv c s' := by
  cases a with
  | advertise i p =>
      simp only [next] at hn
      split at hn
      case isFalse => cases hn
      case isTrue hi =>
        obtain rfl := Option.some.inj hn
        exact h.advertise hi.1 hi.2 ha rfl rfl rfl rfl rfl
  | unadvertise i t n =>
      simp only [next] at hn
      split at hn
      case isFalse => cases hn
      case isTrue hi =>
        obtain rfl := Option.some.inj hn
        exact h.unadvertise hi rfl rfl rfl rfl rfl
  | send i =>
      simp only [next] at hn
      split at hn
      case h_1 => cases hn
      case h_2 m rest hi =>
        obtain rfl := Option.some.inj hn
        refine h.send hi (ha m (by rw [hi]; rfl) _ ?_)
        simp only [next, hi]
        rfl
  | heartbeat now =>
      simp only [next] at hn
      split at hn
      case isFalse => cases hn
      case isTrue hw =>
        obtain rfl := Option.some.inj hn
        exact h.heartbeat hw.1
  | copy =>
      simp only [next] at hn
      split at hn
      case isFalse => cases hn
      case isTrue hw =>
        obtain rfl := Option.some.inj hn
        exact h.copy hw
  | recv fromIp m now =>
      simp only [next] at hn
      split at hn
      case isFalse => cases hn
      case isTrue hw =>
        obtain rfl := Option.some.inj hn
        exact h.recv hw fromIp m now
  | workerSend =>
      simp only [next] at hn
      split at hn
      case h_2 => cases hn
      case h_1 m rest b hw =>
        obtain rfl := Option.some.inj hn
        refine h.workerSend hw (ha m (by rw [hw]; rfl) _ ?_)
        simp only [next, hw]
        rfl
  | finish later =>
      simp only [next] at hn
      split at hn
      case h_1 hw =>
        obtain rfl := Option.some.inj hn
        exact h.finish hw _
      case h_2 hw =>
        obtain rfl := Option.some.inj hn
        exact h.finish hw _
      case h_3 => cases hn
  | deliver now =>
      simp only [next] at hn
      split at hn
      case h_1 => cases hn
      case h_2 m rest hchan =>
        obtain rfl := Option.some.inj hn
        exact h.deliver hchan now
  | observe a =>
      obtain ⟨d, hd, rfl⟩ := Option.map_eq_some_iff.mp hn
      exact h.observe hd

/-- **The observer agrees**: if every publisher passes the size check of `sendMulticast` and
no datagram is the last word on its endpoint when the table has overtaken it, the observer
holds exactly what the process offers whenever nothing is under way. -/
theorem held_eq_offered (c : Peers) (as : List (Action τ π)) (s : System τ π)
    (hg : Guarded (next c) (Timely c) (start c) as) (hr : exec (next c) (start c) as = some s)
    (hq : Quiescent s) : held c s = offered c s := by
  have h : Inv c s :=
    invariant (fun _ _ _ h ha hn => h.step ha hn) (inv_start c) hg hr
  have hcov := h.covered
  rw [hq.chan] at hcov
  refine hcov.eq fun o ho => ?_
  cases ho with
  | thread i m hm ho =>
      rw [hq.threads i] at hm
      cases hm
  | worker m hm ho =>
      rw [hq.worker] at hm
      cases hm
  | beating hb k hk ho =>
      rw [hq.worker] at hb
      cases hb

/-- A stronger condition: no datagram that the table has overtaken is sent at all. -/
def Fresh (c : Peers) (s : System τ π) (a : Action τ π) : Prop :=
  match a with
  | .advertise _ p => scope p ≠ .process → Discovery.fits (s.self.datagram .advertise p) = true
  | .send i => ∀ m ∈ (s.threads i).head?, ∀ o ∈ opOf π m, o.Agrees (offered c s)
  | .workerSend => ∀ m ∈ s.worker.todo.head?, ∀ o ∈ opOf π m, o.Agrees (offered c s)
  | _ => True

omit [WirePub π] in
theorem Fresh.timely {a : Action τ π} (h : Fresh c s a) : Timely c s a := by
  cases a with
  | advertise i p => exact h
  | send i => exact fun m hm s' _ o ho => .inl (h m hm o ho)
  | workerSend => exact fun m hm s' _ o ho => .inl (h m hm o ho)
  | unadvertise i t n => trivial
  | heartbeat now => trivial
  | copy => trivial
  | recv fromIp m now => trivial
  | finish later => trivial
  | deliver now => trivial
  | observe a => trivial

instance (c : Peers) (s : System τ π) (k : EndpointKey) : Decidable (k ∈ offered c s) :=
  inferInstanceAs (Decidable (∃ x ∈ s.self.knownPublishers.pubsOfProc c.uuid,
    scope x ≠ .process ∧ endpointKey x = k))

instance (c : Peers) (s : System τ π) (k : EndpointKey) : Decidable (k ∈ held c s) :=
  inferInstanceAs (Decidable (∃ x ∈ s.observer.knownPublishers.pubsOfProc c.uuid,
    endpointKey x = k))

instance (c : Peers) (s : System τ π) : ∀ a : Action τ π, Decidable (Fresh c s a)
  | .advertise _ p => inferInstanceAs (Decidable (scope p ≠ .process → _ = true))
  | .send i => inferInstanceAs (Decidable (∀ m ∈ (s.threads i).head?, ∀ o ∈ opOf π m,
      o.Agrees (offered c s)))
  | .workerSend => inferInstanceAs (Decidable (∀ m ∈ s.worker.todo.head?, ∀ o ∈ opOf π m,
      o.Agrees (offered c s)))
  | .unadvertise .. | .heartbeat .. | .copy | .recv .. | .finish .. | .deliver .. | .observe .. =>
    isTrue trivial

/-! ## Two runs -/

def examplePeers : Peers where
  uuid := str "4a"
  name := str "p"
  address := str "tcp://10.0.0.1:4000"
  hostAddr := str "10.0.0.1"
  observerUuid := str "5b"
  observerName := str "q"
  uuid_ne := by decide
  distinct := by decide

/-- A publisher of the process. -/
def examplePub : MessagePublisherInfo :=
  .make (str "t") (str "tcp://10.0.0.1:4000") (str "unused") (str "4a") (str "n1") (str "A") {}

/-- The publisher is advertised while a heartbeat is under way. -/
def timelyRun : List (Action Unit MessagePublisherInfo) :=
  [.heartbeat 0, .advertise () examplePub, .copy, .workerSend, .send (), .finish 1, .deliver 0,
    .deliver 0, .deliver 0]

/-- A heartbeat reads the table, then the publisher is given up and the UNADVERTISE sent,
and then the heartbeat announces it again. -/
def ghostRun : List (Action Unit MessagePublisherInfo) :=
  [.advertise () examplePub, .send (), .heartbeat 0, .copy, .unadvertise () (str "t") (str "n1"),
    .send (), .workerSend, .finish 1, .deliver 0, .deliver 0, .deliver 0, .deliver 0]

/-- The state that a run leads to. -/
def stateAfter (as : List (Action Unit MessagePublisherInfo)) : System Unit MessagePublisherInfo :=
  (exec (next examplePeers) (start examplePeers) as).getD (start examplePeers)

theorem held_eq_offered_timely :
    held examplePeers (stateAfter timelyRun) = offered examplePeers (stateAfter timelyRun) :=
  held_eq_offered examplePeers timelyRun (stateAfter timelyRun)
    (Guarded.mono (fun _ _ h => Fresh.timely h)
      (by decide : Guarded (next examplePeers) (Fresh examplePeers) (start examplePeers) timelyRun))
    rfl ⟨fun _ => rfl, rfl, rfl⟩

/-- The endpoint that was given up is still there. -/
theorem ghostRun_not_agreed :
    exec (next examplePeers) (start examplePeers) ghostRun = some (stateAfter ghostRun) ∧
      Quiescent (stateAfter ghostRun) ∧
      held examplePeers (stateAfter ghostRun) ≠ offered examplePeers (stateAfter ghostRun) := by
  refine ⟨rfl, ⟨fun _ => rfl, rfl, rfl⟩, fun h => ?_⟩
  have hheld : endpointKey examplePub ∈ held examplePeers (stateAfter ghostRun) := by decide
  rw [h] at hheld
  exact absurd hheld (by decide)

end Agreement
end RfTrans
