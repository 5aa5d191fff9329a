import RfTrans.Network.Containment
import RfTrans.Runtime.Threads

/-!
# Two processes of a network

What a step of one of two processes, or of a datagram between them, does to the two and
to what is in flight between them.

## Main definitions

* `Hosts.datagram` — the datagram of a process about a record.
* `MessageRuntime.Orderly` — the command queue of a process is in order.
* `Net.next_act`, `Net.next_deliver` — the steps.
-/

namespace RfTrans

open Exec TopicStorage

variable {ι : Type} [DecidableEq ι]

/-- The datagram of a process about a record. -/
def Hosts.datagram (c : Hosts ι) (i : ι) (type : Msgs.DiscoveryType) (x : MessagePublisherInfo) :
    Msgs.Discovery :=
  ((Net.start c).proc i).discovery.announcement type x

namespace MessageRuntime

variable {rt rt' : MessageRuntime}

/-- The registrations of a command are for its topic. -/
def QueueSound (rt : MessageRuntime) : Prop :=
  ∀ t regs, .subscribe t regs ∈ rt.subscriberCommands → ∀ r ∈ regs, r.topic = t

/-- What holds of a process whatever it has been through. -/
structure Orderly (rt : MessageRuntime) : Prop where
  sound : rt.Sound
  filled : rt.localSubscribers.Filled
  queue : rt.QueueSound

theorem orderly_init {processUuid : Str} (h : processUuid ≠ [])
    (processName hostAddr address : Str) :
    (init processUuid processName hostAddr address).Orderly :=
  ⟨sound_init h .., HandlerStorage.filled_empty, nofun⟩

theorem topic_of_mem_registrationsFor {pub r : MessagePublisherInfo}
    (h : r ∈ rt.registrationsFor pub) : r.topic = pub.topic := by
  obtain ⟨n, -, rfl⟩ := List.mem_map.mp h
  rfl

theorem Orderly.step (ho : rt.Orderly) {a : Action} {sent : List Msgs.Discovery}
    (h : rt.perform a = some (rt', sent)) : rt'.Orderly where
  sound := ho.sound.step h
  filled := filled_perform ho.filled h
  queue := by
    intro t regs hq r hr
    rcases queued_perform ho.sound.running h hq with hq | hq | ⟨pub, -, -, heq⟩
    · exact ho.queue t regs hq r hr
    · exact absurd rfl (hq t regs)
    · obtain ⟨rfl, rfl⟩ := SubscriberCommand.subscribe.inj heq
      exact topic_of_mem_registrationsFor hr

/-- A heartbeat sets its clock. -/
theorem updateHeartbeat_fst (rt : MessageRuntime) (now later : ℕ) :
    (rt.updateHeartbeat now later).1 =
      { rt with discovery := (rt.discovery.updateHeartbeat now later).self } := by
  simp only [updateHeartbeat, absorb, calls_updateHeartbeat, List.foldl_nil]

theorem known_heartbeat (rt : MessageRuntime) (now later : ℕ) :
    (rt.updateHeartbeat now later).1.discovery.knownPublishers =
      rt.discovery.knownPublishers := by
  rw [updateHeartbeat_fst]
  show (rt.discovery.updateHeartbeat now later).self.knownPublishers = _
  rw [Discovery.self_updateHeartbeat]

theorem mem_sent_heartbeat {now later : ℕ} {m : Msgs.Discovery}
    (hm : m ∈ (rt.updateHeartbeat now later).2) : m.type = .heartbeat ∨
      ∃ t, ∃ x ∈ rt.discovery.knownPublishers.pubsOf t rt.discovery.processUuid,
        m ∈ rt.discovery.sendMsg .advertise x := by
  rcases (Discovery.mem_sent_updateHeartbeat.mp hm).2 with hm | hm
  · exact .inl (Discovery.mem_sendHeartbeat hm).2
  · obtain ⟨t, x, hx, -, hm⟩ := Discovery.mem_readvertise.mp hm
    exact .inr ⟨t, x, hx, hm⟩

/-- A Subscribe command for a topic with subscribers sends its registrations. -/
theorem sent_applyNext {t : Str} {regs : List MessagePublisherInfo} {rest : List SubscriberCommand}
    {sent : List Msgs.Discovery} (hq : rt.subscriberCommands = .subscribe t regs :: rest)
    (hsub : rt.localSubscribers.hasSubscriber t = true)
    (h : rt.perform (.applyCommand true) = some (rt', sent)) :
    sent = regs.flatMap rt.discovery.registerNode := by
  simp only [perform, applyNextCommand, hq, applySubscriberCommand, hsub, Bool.and_true,
    if_true] at h
  exact (fst_snd_of_some h).2.symm

/-- A datagram that is not a SUBSCRIBE is not answered. -/
theorem sent_recv_of_ne {fromIp : Str} {m : Msgs.Discovery} {now : ℕ} (h : m.type ≠ .subscribe) :
    (rt.recvDiscoveryMsg fromIp m now).2 = [] := by
  rw [List.eq_nil_iff_forall_not_mem]
  intro m' hm'
  exact h (Discovery.mem_sent_dispatch hm').2.1

theorem sent_perform_recv {fromIp : Str} {m : Msgs.Discovery} {now : ℕ}
    {sent : List Msgs.Discovery} (h : rt.perform (.recv fromIp m now) = some (rt', sent))
    (ht : m.type ≠ .subscribe) : sent = [] := by
  obtain ⟨-, rfl⟩ := fst_snd_of_some h
  exact sent_recv_of_ne ht

end MessageRuntime

namespace Net

open MessageRuntime

variable {c : Hosts ι} {n n' : Net ι} {i j : ι}

theorem Reachable.orderly (h : Reachable c n) (i : ι) : (n.proc i).Orderly := by
  obtain ⟨as, has⟩ := h
  refine stable (P := fun n : Net ι => (n.proc i).Orderly) (fun n a n' hn hstep => ?_)
    (orderly_init (c.uuid_ne i) ..) has
  rcases proc_next hstep i with ⟨-, heq⟩ | ⟨b, sent, -, hp⟩
  · rwa [heq]
  · exact hn.step hp

omit [DecidableEq ι] in
theorem Healthy.discoveryUuid (hn : Healthy c n) (i : ι) :
    (n.proc i).discovery.processUuid = c.uuid i := by
  rw [(hn.sound i).running.uuid, hn.uuid]

omit [DecidableEq ι] in
theorem Healthy.announcement (hn : Healthy c n) (i : ι) (type : Msgs.DiscoveryType)
    (x : MessagePublisherInfo) :
    (n.proc i).discovery.announcement type x = c.datagram i type x := by
  simp only [Hosts.datagram, Discovery.announcement, hn.discoveryUuid, hn.name]
  rfl

omit [DecidableEq ι] in
theorem Healthy.isSenderLocal (hn : Healthy c n) (i j : ι) :
    (n.proc j).discovery.isSenderLocal (c.hostAddr i) = c.sameHost i j := by
  simp only [Discovery.isSenderLocal, Hosts.sameHost, hn.hostAddr]

omit [DecidableEq ι] in
/-- What a process sends to register a node. -/
theorem Healthy.mem_registerNode (hn : Healthy c n) (i : ι) {r : MessagePublisherInfo}
    {m : Msgs.Discovery} : m ∈ (n.proc i).discovery.sendMsg .newConnection r ↔
      m = c.datagram i .newConnection r ∧
        Discovery.fits (c.datagram i .newConnection r) = true := by
  rw [Discovery.mem_sendMsg _ (.inr (.inr (.inl rfl))), hn.announcement]

omit [DecidableEq ι] in
/-- The record that is read from a datagram of a process. -/
theorem parsed_datagram (c : Hosts ι) (i : ι) (type : Msgs.DiscoveryType)
    (x : MessagePublisherInfo) :
    parsed (c.datagram i type x) = x.received (c.uuid i) (c.name i) :=
  Discovery.setFromDiscovery_announcement ..

/-- A process acts by itself. -/
theorem next_act (hij : i ≠ j) {b : MessageRuntime.Action} (h : next n (.act i b) = some n') :
    ∃ sent, (n.proc i).perform b = some (n'.proc i, sent) ∧ n'.proc j = n.proc j ∧
      n'.chan i j = n.chan i j ++ sent ∧ n'.chan j i = n.chan j i := by
  obtain ⟨-, rt, sent, hp, rfl⟩ := next_act_eq_some h
  refine ⟨sent, ?_, Function.update_of_ne hij.symm _ _, ?_, ?_⟩
  · simpa [emit] using hp
  · simp [emit]
  · simp [emit, hij.symm]

/-- A datagram arrives. -/
theorem next_deliver (hij : i ≠ j) {now : ℕ} (h : next n (.deliver i j now) = some n') :
    ∃ m rest sent, n.chan i j = m :: rest ∧
      (n.proc j).perform (.recv (n.proc i).discovery.hostAddr m now) = some (n'.proc j, sent) ∧
      n'.proc i = n.proc i ∧ n'.chan i j = rest ∧ n'.chan j i = n.chan j i ++ sent := by
  simp only [next] at h
  split at h
  case h_1 => cases h
  case h_2 m rest hm =>
    obtain rfl := Option.some.inj h
    refine ⟨m, rest, ((n.proc j).recvDiscoveryMsg (n.proc i).discovery.hostAddr m now).2, hm, ?_,
      Function.update_of_ne hij _ _, ?_, ?_⟩
    · simp only [emit, Function.update_self]
      rfl
    · simp [emit, setChan, hij]
    · simp [emit, setChan, hij]

end Net
end RfTrans
