import RfTrans.Lib.Replica
import RfTrans.Network.Recovery

/-!
# The tables once everything in flight has arrived

What the datagrams on their way will make of the publishers that their receiver knows,
and of the nodes that it has registered.

## Main definitions

* `MessageRuntime.learnt` — the known publishers after some datagrams.
* `MessageRuntime.registrationOp` — what a datagram does to the registered nodes.
* `Net.registered` — the nodes of one process that another has or will have registered.
* `MessageRuntime.News` — a publisher that some datagrams will make known.
-/

namespace RfTrans

open Exec TopicStorage HandlerWrapper Replica

namespace MessageRuntime

variable {rt rt' : MessageRuntime} {b : Bool} {known : TopicStorage MessagePublisherInfo}

/-! ## Known publishers -/

/-- The known publishers after a datagram of another process. -/
def learn (b : Bool) (known : TopicStorage MessagePublisherInfo) (m : Msgs.Discovery) :
    TopicStorage MessagePublisherInfo :=
  match m.type with
  | .advertise =>
    if Discovery.hidden (parsed m) b then known else (known.addPublisher (parsed m)).1
  | .unadvertise =>
    if Discovery.hidden (parsed m) b then known
    else (known.delPublishersByNode (parsed m).topic (parsed m).processUuid (parsed m).nodeUuid).1
  | _ => known

/-- The known publishers after some datagrams. -/
def learnt (b : Bool) (known : TopicStorage MessagePublisherInfo) (ms : List Msgs.Discovery) :
    TopicStorage MessagePublisherInfo := ms.foldl (learn b) known

theorem learnt_append (ms ms' : List Msgs.Discovery) :
    learnt b known (ms ++ ms') = learnt b (learnt b known ms) ms' :=
  List.foldl_append

/-- The discovery thread learns from what it receives. -/
theorem known_recv {fromIp : Str} {m : Msgs.Discovery} {now : ℕ} (hr : rt.Running)
    (hne : m.processUuid ≠ rt.discovery.processUuid) (hbye : m.type ≠ .bye) :
    (rt.recvDiscoveryMsg fromIp m now).1.discovery.knownPublishers =
      learn (rt.discovery.isSenderLocal fromIp) rt.discovery.knownPublishers m := by
  by_cases hadv : m.type = .advertise
  · simp only [learn, hadv]
    cases hv : Discovery.hidden (parsed m) (rt.discovery.isSenderLocal fromIp) with
    | true =>
        rw [recv_hidden hne (.inl hadv) hv]
        rfl
    | false =>
        cases hadd : (rt.discovery.knownPublishers.addPublisher (parsed m)).2 with
        | true =>
            rw [recv_advertise_new hr hne hadv hv hadd, discovery_onPublisherConnected]
            rfl
        | false =>
            rw [recv_advertise_known hne hadv hv hadd, addPublisher_of_not_added _ hadd]
            rfl
  by_cases hunadv : m.type = .unadvertise
  · simp only [learn, hunadv]
    cases hv : Discovery.hidden (parsed m) (rt.discovery.isSenderLocal fromIp) with
    | true =>
        rw [recv_hidden hne (.inr hunadv) hv]
        rfl
    | false =>
        rw [recv_unadvertise hr hne hunadv hv, discovery_onPublisherDisconnected]
        rfl
  rw [knownPublishers_recv hr (.inr ⟨hadv, hunadv, hbye⟩)]
  simp only [learn]

/-- ADVERTISEs of what is hidden or known change nothing. -/
theorem learnt_known {ms : List Msgs.Discovery}
    (h : ∀ m ∈ ms, m.type = .advertise ∧ (Discovery.hidden (parsed m) b = true ∨
      parsed m ∈ known.pubsOf (parsed m).topic (parsed m).processUuid)) :
    learnt b known ms = known := by
  induction ms with
  | nil => rfl
  | cons m ms ih =>
      obtain ⟨ht, hm⟩ := h m List.mem_cons_self
      have hsame : learn b known m = known := by
        simp only [learn, ht]
        rcases hm with hv | hm
        · rw [if_pos hv]
        · have hadd : (known.addPublisher (parsed m)).2 = false := by
            refine Bool.eq_false_iff.mpr fun hadd => ?_
            exact (addPublisher_snd _).mp hadd (parsed m) hm (by simp [sameEndpoint])
          rw [addPublisher_of_not_added _ hadd, ite_self]
      show learnt b (learn b known m) ms = known
      rw [hsame]
      exact ih fun m' hm' => h m' (List.mem_cons_of_mem _ hm')

/-- One of the datagrams makes a publisher known. -/
def News (b : Bool) (known : TopicStorage MessagePublisherInfo) (ms : List Msgs.Discovery)
    (pub : MessagePublisherInfo) : Prop :=
  ∃ ms₁ m ms₂, ms = ms₁ ++ m :: ms₂ ∧ m.type = .advertise ∧
    Discovery.hidden (parsed m) b = false ∧ parsed m = pub ∧
    ((learnt b known ms₁).addPublisher pub).2 = true

theorem News.append {ms : List Msgs.Discovery} {pub : MessagePublisherInfo}
    (h : News b known ms pub) (ms' : List Msgs.Discovery) : News b known (ms ++ ms') pub := by
  obtain ⟨ms₁, m, ms₂, rfl, hrest⟩ := h
  exact ⟨ms₁, m, ms₂ ++ ms', by simp, hrest⟩

/-- What will be known is known or is news. -/
theorem known_or_news {ms : List Msgs.Discovery} {t q : Str} {x : MessagePublisherInfo}
    (h : x ∈ (learnt b known ms).pubsOf t q) : x ∈ known.pubsOf t q ∨ News b known ms x := by
  induction ms generalizing known with
  | nil => exact .inl h
  | cons m ms ih =>
      rcases ih h with hx | ⟨ms₁, m', ms₂, rfl, hrest⟩
      · simp only [learn] at hx
        split at hx
        case h_1 ht =>
          cases hv : Discovery.hidden (parsed m) b with
          | true => exact .inl (by simpa [hv] using hx)
          | false =>
              rw [hv] at hx
              rcases (mem_pubsOf_addPublisher _).mp hx with hx | ⟨hadd, -, -, rfl⟩
              · exact .inl hx
              · exact .inr ⟨[], m, ms, rfl, ht, hv, rfl, hadd⟩
        case h_2 =>
          split at hx
          case isTrue => exact .inl hx
          case isFalse => exact .inl ((mem_pubsOf_delPublishersByNode _).mp hx).1
        case h_3 => exact .inl hx
      · exact .inr ⟨m :: ms₁, m', ms₂, rfl, hrest⟩

/-- Telling the runtime of a publisher queues the registrations with it. -/
theorem mem_commands_onPublisherConnected {pubs : List MessagePublisherInfo}
    {pub : MessagePublisherInfo} (hpub : pub ∈ pubs) (hne : pub.processUuid ≠ rt.processUuid)
    (hsub : rt.localSubscribers.hasSubscriber pub.topic = true) :
    .subscribe pub.topic (rt.registrationsFor pub) ∈
      ((pubs.map Callback.connection).foldl onCallback rt).subscriberCommands := by
  induction pubs generalizing rt with
  | nil => cases hpub
  | cons pub' pubs ih =>
      have hl := rt.localSubscribers_onPublisherConnected pub'
      have hu := rt.processUuid_onPublisherConnected pub'
      rw [List.map_cons, List.foldl_cons]
      rcases List.mem_cons.mp hpub with rfl | hpub
      · obtain ⟨new, hgrows⟩ := Grows.onCallbacks (pubs.map Callback.connection)
          (rt.onPublisherConnected pub)
        show _ ∈ ((pubs.map Callback.connection).foldl onCallback
          (rt.onPublisherConnected pub)).subscriberCommands
        rw [hgrows.commands, commands_onPublisherConnected]
        exact List.mem_append.mpr
          (.inl (List.mem_append.mpr (.inr (subscribe_mem_reaction hsub hne))))
      · have hrest := @ih (rt.onPublisherConnected pub') hpub (by rwa [hu]) (by rwa [hl])
        rw [registrationsFor_congr hl hu pub] at hrest
        exact hrest

/-- A node that subscribes is registered with the publishers that are known. -/
theorem mem_commands_subscribe (hr : rt.Running) {topic nodeUuid q : Str}
    {handler : SubscriptionHandler} {pub : MessagePublisherInfo}
    (hpub : pub ∈ rt.discovery.knownPublishers.pubsOf topic q)
    (hq : pub.processUuid ≠ rt.processUuid)
    (hsub : (rt.subscribe topic nodeUuid handler).1.localSubscribers.hasSubscriber pub.topic =
      true) :
    .subscribe pub.topic ((rt.subscribe topic nodeUuid handler).1.registrationsFor pub) ∈
      (rt.subscribe topic nodeUuid handler).1.subscriberCommands := by
  obtain ⟨pubs, hcalls, hpubs⟩ := calls_discover_eq hr.enabled hr.connection topic
  let rt₁ := { rt with
    localSubscribers := rt.localSubscribers.addHandler topic nodeUuid handler.handlerUuid handler }
  have hregs : (rt.subscribe topic nodeUuid handler).1.registrationsFor pub =
      rt₁.registrationsFor pub :=
    registrationsFor_congr (localSubscribers_absorb _ _) (processUuid_absorb _ _) pub
  have hlocal : (rt.subscribe topic nodeUuid handler).1.localSubscribers = rt₁.localSubscribers :=
    localSubscribers_absorb _ _
  rw [hlocal] at hsub
  rw [hregs]
  simp only [subscribe, absorb, hcalls]
  exact mem_commands_onPublisherConnected ((hpubs pub).mpr ⟨q, hpub⟩) hq hsub

/-! ## Registered nodes -/

/-- The nodes of a process that are registered for a topic. -/
def registeredNodes (rt : MessageRuntime) (topic processUuid : Str) : List Str :=
  (rt.remoteSubscribers.pubsOf topic processUuid).map (·.nodeUuid)

/-- What a datagram does to the nodes of a process that `uuid` has registered for a
topic. -/
def registrationOp (uuid topic processUuid : Str) (m : Msgs.Discovery) : Option (Op Str) :=
  let pub := parsed m
  match m.type with
  | .newConnection =>
    if pub.ctrl = uuid ∧ pub.topic = topic ∧ pub.processUuid = processUuid then
      some (.put pub.nodeUuid)
    else none
  | .endConnection =>
    if (pub.ctrl = [] ∨ pub.ctrl = uuid) ∧ pub.topic = topic ∧ pub.processUuid = processUuid then
      some (.drop pub.nodeUuid)
    else none
  | _ => none

/-- `addPublisher` registers a node, `delPublishersByNode` removes one. -/
theorem mem_nodes_addPublisher {st : TopicStorage MessagePublisherInfo} {pub : MessagePublisherInfo}
    {t q k : Str} : k ∈ ((st.addPublisher pub).1.pubsOf t q).map (·.nodeUuid) ↔
      k ∈ (st.pubsOf t q).map (·.nodeUuid) ∨
        t = pub.topic ∧ q = pub.processUuid ∧ k = pub.nodeUuid := by
  simp only [List.mem_map, mem_pubsOf_addPublisher]
  constructor
  · rintro ⟨x, hx | ⟨-, ht, hq, rfl⟩, rfl⟩
    · exact .inl ⟨x, hx, rfl⟩
    · exact .inr ⟨ht, hq, rfl⟩
  · rintro (⟨x, hx, rfl⟩ | ⟨rfl, rfl, rfl⟩)
    · exact ⟨x, .inl hx, rfl⟩
    · by_cases hadd : (st.addPublisher pub).2 = true
      · exact ⟨pub, .inr ⟨hadd, rfl, rfl, rfl⟩, rfl⟩
      · -- a record of the same node is there already
        rw [addPublisher_snd] at hadd
        push Not at hadd
        obtain ⟨x, hx, hsame⟩ := hadd
        simp only [sameEndpoint, decide_eq_true_eq] at hsame
        exact ⟨x, .inl hx, hsame.2⟩

theorem mem_nodes_delPublishersByNode {st : TopicStorage MessagePublisherInfo}
    {t q n t' q' k : Str} :
    k ∈ ((st.delPublishersByNode t q n).1.pubsOf t' q').map (·.nodeUuid) ↔
      k ∈ (st.pubsOf t' q').map (·.nodeUuid) ∧ ¬ (t' = t ∧ q' = q ∧ k = n) := by
  simp only [List.mem_map, mem_pubsOf_delPublishersByNode]
  constructor
  · rintro ⟨x, ⟨hx, hne⟩, rfl⟩
    exact ⟨⟨x, hx, rfl⟩, hne⟩
  · rintro ⟨⟨x, hx, rfl⟩, hne⟩
    exact ⟨x, ⟨hx, hne⟩, rfl⟩

/-- The discovery thread registers and removes nodes as the datagrams say. -/
theorem registeredNodes_recv {fromIp : Str} {m : Msgs.Discovery} {now : ℕ} (hr : rt.Running)
    (hne : m.processUuid ≠ rt.discovery.processUuid)
    (ht : m.type = .subscribe ∨ m.type = .newConnection ∨ m.type = .endConnection) (topic q : Str) :
    {k | k ∈ (rt.recvDiscoveryMsg fromIp m now).1.registeredNodes topic q} =
      settle {k | k ∈ rt.registeredNodes topic q}
        (registrationOp rt.processUuid topic q m).toList := by
  ext k
  simp only [registeredNodes, registrationOp, Set.mem_ofPred_eq]
  rcases ht with ht | ht | ht
  · have hafter := registrationsAfter_recv hr fromIp m now topic q
    have hsame : ∀ x, x ∈ (rt.recvDiscoveryMsg fromIp m now).1.remoteSubscribers.pubsOf topic q ↔
        x ∈ rt.remoteSubscribers.pubsOf topic q := by
      intro x
      rw [hafter]
      simp [ends, wipes, registers, ht]
    simp only [List.mem_map, hsame, ht]
    rfl
  · rw [recv_newConnection hr hne ht]
    simp only [ht]
    by_cases hc : (parsed m).ctrl = rt.processUuid
    · rw [onSubscriberRegistered_eq (rt.seen m now) hc, mem_nodes_addPublisher]
      by_cases hop : (parsed m).topic = topic ∧ (parsed m).processUuid = q
      · obtain ⟨rfl, rfl⟩ := hop
        simp [hc, seen, apply, or_comm]
      · rw [if_neg fun h => hop h.2]
        have hno : ¬ (topic = (parsed m).topic ∧ q = (parsed m).processUuid ∧
            k = (parsed m).nodeUuid) := fun h => hop ⟨h.1.symm, h.2.1.symm⟩
        simp [hno, seen]
    · rw [onSubscriberRegistered_of_ne (rt.seen m now) hc, if_neg fun h => hc h.1]
      rfl
  · rw [recv_endConnection hr hne ht]
    simp only [ht]
    by_cases hc : (parsed m).ctrl = [] ∨ (parsed m).ctrl = rt.processUuid
    · rw [onSubscriberUnregistered_eq (rt.seen m now) hc, mem_nodes_delPublishersByNode]
      by_cases hop : (parsed m).topic = topic ∧ (parsed m).processUuid = q
      · obtain ⟨rfl, rfl⟩ := hop
        simp [hc, seen, apply]
      · rw [if_neg fun h => hop h.2]
        have hno : ¬ (topic = (parsed m).topic ∧ q = (parsed m).processUuid ∧
            k = (parsed m).nodeUuid) := fun h => hop ⟨h.1.symm, h.2.1.symm⟩
        simp [hno, seen]
    · rw [onSubscriberUnregistered_of_ne (rt.seen m now) hc, if_neg fun h => hc h.1]
      rfl

end MessageRuntime
end RfTrans
