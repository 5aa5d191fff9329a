import RfTrans.Network.InFlight

/-!
# Registrations without loss

A process `p` whose nodes advertise and a process `s` whose nodes subscribe, with
nothing lost between them.  The registration of a node travels in three ways: a Subscribe
command carries the nodes of the moment it was queued, END_CONNECTION goes to the
publishers that are known when the node unsubscribes, and `unadvertise` leaves the
registrations alone.

## Main definitions

* `Net.Calls` — the calls of the nodes, the command queue, and datagrams that arrive.
* `Net.Tidy` — the calls that leave no node registered without a handler.
* `Net.Linked` — the invariant.
* `Net.entered_iff_wanted`
-/

namespace RfTrans

open Exec TopicStorage MessageRuntime HandlerWrapper Replica

variable {ι : Type}

/-- The registrations that the next command sends. -/
def MessageRuntime.dueRegistrations (rt : MessageRuntime) : List MessagePublisherInfo :=
  match rt.subscriberCommands with
  | .subscribe topic registrations :: _ =>
    if rt.localSubscribers.hasSubscriber topic then registrations else []
  | _ => []

/-- The record that `p` makes for an advertised topic. -/
def Hosts.advertised (c : Hosts ι) (p : ι) (topic nodeUuid msgType : Str)
    (options : AdvertiseMessageOptions) : MessagePublisherInfo :=
  MessagePublisherInfo.make topic (c.address p) (str "unused") (c.uuid p) nodeUuid msgType options

namespace Net

section Defs
variable (c : Hosts ι) (p s : ι) (n : Net ι)

/-- The nodes of `s` that `p` will have registered for a topic once all has arrived. -/
def registered (topic : Str) : List Str :=
  settleList ((n.proc p).registeredNodes topic (c.uuid s))
    ((n.chan s p).filterMap (registrationOp (c.uuid p) topic (c.uuid s)))

/-- A publisher of another node of `p` matches a handler of the node. -/
def WantedBeside (gone topic nodeUuid : Str) : Prop :=
  ∃ x ∈ (n.proc p).discovery.knownPublishers.pubsOf topic (c.uuid p), x.nodeUuid ≠ gone ∧
    Discovery.hidden x (c.sameHost p s) = false ∧
    ∃ h ∈ (n.proc s).localSubscribers.handlersOf topic, h.nodeUuid = nodeUuid ∧
      handles x.msgType h = true

/-- The nodes of `p` advertise and unadvertise, those of `s` subscribe and unsubscribe,
the SUB socket of `s` takes its commands, and nothing is lost or turned down by the size
check of `sendMulticast`. -/
def Calls : Action ι → Prop
  | .act i (.advertise topic nodeUuid msgType options) => i = p ∧
      Discovery.fits (c.datagram p .advertise (c.advertised p topic nodeUuid msgType options)) =
        true
  | .act i (.unadvertise _ _) => i = p
  | .act i (.subscribe _ nodeUuid handler) => i = s ∧ handler.nodeUuid = nodeUuid
  | .act i (.unsubscribe topic nodeUuid) => i = s ∧ Discovery.fits
      (c.datagram s .endConnection ((n.proc s).unregistration topic nodeUuid (c.uuid p))) = true
  | .act i (.applyCommand ok) => i = s ∧ ok = true ∧
      ∀ r ∈ (n.proc s).dueRegistrations, Discovery.fits (c.datagram s .newConnection r) = true
  | .act _ _ => False
  | .deliver i j _ => i = p ∧ j = s ∨ i = s ∧ j = p
  | .lose _ _ => False

/-- No call leaves a node registered for which no publisher matches: `p` takes none down
on whose account a node is registered, `s` knows a publisher of `p` when a registered
node unsubscribes, and a Subscribe command that is applied names nodes that still have a
matching handler. -/
def Tidy : Action ι → Prop
  | .act _ (.unadvertise topic nodeUuid) =>
    ∀ k ∈ registered c p s n topic, WantedBeside c p s n nodeUuid topic k
  | .act _ (.unsubscribe topic nodeUuid) => nodeUuid ∈ registered c p s n topic →
      (n.proc s).discovery.knownPublishers.pubsOf topic (c.uuid p) ≠ []
  | .act _ (.applyCommand _) => ∀ r ∈ (n.proc s).dueRegistrations, r.ctrl = c.uuid p →
      Wanted c p s n r.topic r.nodeUuid
  | _ => True

/-- A command registers a node of `s` with `p`. -/
def Pending (topic nodeUuid : Str) : Prop :=
  ∃ regs, .subscribe topic regs ∈ (n.proc s).subscriberCommands ∧
    ∃ r ∈ regs, r.ctrl = c.uuid p ∧ r.nodeUuid = nodeUuid

/-- The datagrams on their way to `s` tell it of a publisher of `p`. -/
def Announced (x : MessagePublisherInfo) : Prop :=
  News (c.sameHost p s) (n.proc s).discovery.knownPublishers (n.chan p s)
    (x.received (c.uuid p) (c.name p))

/-- What holds in every run of the calls: both are as they must be, and once all datagrams
have arrived `s` knows the publishers that it may see; a node with a matching handler is
registered, or will be; and no other node is. -/
structure Linked [DecidableEq ι] : Prop where
  reachable : Reachable c n
  homed : ∀ t k u h, (n.proc s).localSubscribers.handler? t k u = some h → h.nodeUuid = k
  fits : ∀ t, ∀ x ∈ (n.proc p).discovery.knownPublishers.pubsOf t (c.uuid p),
    Discovery.fits (c.datagram p .advertise x) = true
  toS : ∀ m ∈ n.chan p s, m.processUuid = c.uuid p ∧ (m.type = .advertise ∨ m.type = .unadvertise)
  toP : ∀ m ∈ n.chan s p, m.processUuid = c.uuid s ∧
    (m.type = .subscribe ∨ m.type = .newConnection ∨ m.type = .endConnection)
  view : ∀ t y, y ∈ (learnt (c.sameHost p s) (n.proc s).discovery.knownPublishers
      (n.chan p s)).pubsOf t (c.uuid p) ↔
    ∃ x ∈ (n.proc p).discovery.knownPublishers.pubsOf t (c.uuid p),
      Discovery.hidden x (c.sameHost p s) = false ∧ y = x.received (c.uuid p) (c.name p)
  due : ∀ t, ∀ x ∈ (n.proc p).discovery.knownPublishers.pubsOf t (c.uuid p),
    Discovery.hidden x (c.sameHost p s) = false →
    ∀ h ∈ (n.proc s).localSubscribers.handlersOf t, handles x.msgType h = true →
      h.nodeUuid ∈ registered c p s n t ∨ Pending c p s n t h.nodeUuid ∨ Announced c p s n x
  wanted : ∀ t, ∀ k ∈ registered c p s n t, Wanted c p s n t k

end Defs

variable {c : Hosts ι} {p s : ι} {n n' : Net ι}

theorem mem_registered {t k : Str} : k ∈ registered c p s n t ↔
    k ∈ settle {k | k ∈ (n.proc p).registeredNodes t (c.uuid s)}
      ((n.chan s p).filterMap (registrationOp (c.uuid p) t (c.uuid s))) :=
  mem_settleList

/-- Datagrams to `p` are put into the channel. -/
theorem mem_registered_append {sent : List Msgs.Discovery} (hp : n'.proc p = n.proc p)
    (hchan : n'.chan s p = n.chan s p ++ sent) {t k : Str} : k ∈ registered c p s n' t ↔
      k ∈ settle {k | k ∈ registered c p s n t}
        (sent.filterMap (registrationOp (c.uuid p) t (c.uuid s))) := by
  have hset : {k | k ∈ registered c p s n t} =
      settle {k | k ∈ (n.proc p).registeredNodes t (c.uuid s)}
        ((n.chan s p).filterMap (registrationOp (c.uuid p) t (c.uuid s))) := by
    ext k
    exact mem_registered
  rw [mem_registered, hp, hchan, List.filterMap_append, settle_append, hset]

/-- In the end the registered nodes are those with an entry. -/
theorem mem_registered_done (h : n.chan s p = []) {t k : Str} :
    k ∈ registered c p s n t ↔ Entered c p s n t k := by
  rw [mem_registered, h, List.filterMap_nil, settle_nil]
  exact List.mem_map

/-! ## Own publishers -/

/-- An own publisher of `p`. -/
theorem Healthy.own (hn : Healthy c n) {t : Str} {x : MessagePublisherInfo}
    (hx : x ∈ (n.proc p).discovery.knownPublishers.pubsOf t (c.uuid p)) :
    ∃ k ty o, x = c.advertised p t k ty o := by
  rw [← hn.uuid] at hx
  obtain ⟨k, ty, o, rfl⟩ := (hn.sound p).own hx
  exact ⟨k, ty, o, by rw [hn.address, hn.uuid]; rfl⟩

theorem Healthy.eq_of_node (hn : Healthy c n) {t : Str} {x y : MessagePublisherInfo}
    (hx : x ∈ (n.proc p).discovery.knownPublishers.pubsOf t (c.uuid p))
    (hy : y ∈ (n.proc p).discovery.knownPublishers.pubsOf t (c.uuid p))
    (h : x.nodeUuid = y.nodeUuid) : x = y := by
  refine (hn.sound p).wellFormed.eq_of_sameEndpoint hx hy ?_
  obtain ⟨k, ty, o, rfl⟩ := hn.own hx
  obtain ⟨k', ty', o', rfl⟩ := hn.own hy
  obtain rfl : k = k' := h
  simp [sameEndpoint, Hosts.advertised, MessagePublisherInfo.make, PublisherInfo.make, PubLike.addr,
    PubLike.nodeUuid, PubLike.base]

/-- What `s` learns from an ADVERTISE or an UNADVERTISE of `p`. -/
theorem learn_advertise (b : Bool) (known : TopicStorage MessagePublisherInfo) (t k ty : Str)
    (o : AdvertiseMessageOptions) :
    learn b known (c.datagram p .advertise (c.advertised p t k ty o)) =
      if Discovery.hidden (c.advertised p t k ty o) b then known
      else (known.addPublisher ((c.advertised p t k ty o).received (c.uuid p) (c.name p))).1 := by
  have hparsed := parsed_datagram c p .advertise (c.advertised p t k ty o)
  have ht : (c.datagram p .advertise (c.advertised p t k ty o)).type = .advertise := rfl
  simp only [learn, ht, hparsed]
  rfl

theorem learn_unadvertise (b : Bool) (known : TopicStorage MessagePublisherInfo) (t k ty : Str)
    (o : AdvertiseMessageOptions) :
    learn b known (c.datagram p .unadvertise (c.advertised p t k ty o)) =
      if Discovery.hidden (c.advertised p t k ty o) b then known
      else (known.delPublishersByNode t (c.uuid p) k).1 := by
  have hparsed := parsed_datagram c p .unadvertise (c.advertised p t k ty o)
  have ht : (c.datagram p .unadvertise (c.advertised p t k ty o)).type = .unadvertise := rfl
  simp only [learn, ht, hparsed]
  rfl

/-- An own publisher arrives as what it is. -/
theorem hidden_received (t k ty : Str) (o : AdvertiseMessageOptions) (b : Bool) :
    Discovery.hidden ((c.advertised p t k ty o).received (c.uuid p) (c.name p)) b =
      Discovery.hidden (c.advertised p t k ty o) b := rfl

theorem sameEndpoint_received (x y : MessagePublisherInfo) (u n : Str) :
    sameEndpoint (x.received u n) (y.received u n) = sameEndpoint x y := rfl

theorem registered_congr
    (hp : (n'.proc p).remoteSubscribers = (n.proc p).remoteSubscribers)
    (hchan : n'.chan s p = n.chan s p) (t : Str) :
    registered c p s n' t = registered c p s n t := by
  simp only [registered, registeredNodes, hp, hchan]

theorem pending_congr (hs : n'.proc s = n.proc s) {t k : Str} :
    Pending c p s n' t k ↔ Pending c p s n t k := by
  rw [Pending, hs, Pending]

/-- `p` sends an ADVERTISE for a new publisher that is not for itself. -/
theorem Healthy.sent_advertise (hn : Healthy c n) (t k ty : Str) (o : AdvertiseMessageOptions)
    (hfits : Discovery.fits (c.datagram p .advertise (c.advertised p t k ty o)) = true) :
    ((n.proc p).advertise t k ty o).2.1 =
      if ((n.proc p).discovery.knownPublishers.addPublisher (c.advertised p t k ty o)).2 = true ∧
        PubLike.scope (c.advertised p t k ty o) ≠ .process then
      [c.datagram p .advertise (c.advertised p t k ty o)] else [] := by
  have hpub : MessagePublisherInfo.make t (n.proc p).address (str "unused") (n.proc p).processUuid
      k ty o = c.advertised p t k ty o := by
    rw [hn.address, hn.uuid]
    rfl
  have hsend : (n.proc p).discovery.sendMsg .advertise (c.advertised p t k ty o) =
      [c.datagram p .advertise (c.advertised p t k ty o)] := by
    rw [Discovery.sendMsg_eq _ (.inl rfl), hn.announcement, if_pos hfits]
  have hsent : ((n.proc p).advertise t k ty o).2.1 =
      ((n.proc p).discovery.advertise (c.advertised p t k ty o)).1.sent := by
    rw [← hpub]
    rfl
  rw [hsent]
  simp only [Discovery.advertise, if_pos (hn.sound p).running.enabled]
  by_cases hadd :
      ((n.proc p).discovery.knownPublishers.addPublisher (c.advertised p t k ty o)).2 = true
  · rw [if_pos hadd, hsend]
    simp [hadd]
  · simp [hadd]

variable [DecidableEq ι]

/-- **`p` advertises.** -/
theorem Linked.advertise (hl : Linked c p s n) (hps : p ≠ s) {t k ty : Str}
    {o : AdvertiseMessageOptions}
    (hfits : Discovery.fits (c.datagram p .advertise (c.advertised p t k ty o)) = true)
    (h : next n (.act p (.advertise t k ty o)) = some n') : Linked c p s n' := by
  have hn := hl.reachable.healthy
  obtain ⟨sent, hp, hs, hchan, hback⟩ := next_act hps h
  have hpub : MessagePublisherInfo.make t (n.proc p).address (str "unused") (n.proc p).processUuid
      k ty o = c.advertised p t k ty o := by
    rw [hn.address, hn.uuid]
    rfl
  have hknown : ∀ t' y, y ∈ (n'.proc p).discovery.knownPublishers.pubsOf t' (c.uuid p) ↔
      y ∈ (n.proc p).discovery.knownPublishers.pubsOf t' (c.uuid p) ∨
      ((n.proc p).discovery.knownPublishers.addPublisher (c.advertised p t k ty o)).2 = true ∧
        t' = t ∧ y = c.advertised p t k ty o := by
    intro t' y
    rw [(knownAfter_perform (hn.sound p).running hp).mem]
    simp only [MessageRuntime.adds, MessageRuntime.drops, hpub, and_true]
    refine or_congr Iff.rfl ?_
    constructor
    · rintro ⟨hy, hadd, ht, -⟩
      obtain rfl := Option.some.inj hy
      exact ⟨hadd, ht, rfl⟩
    · rintro ⟨hadd, rfl, rfl⟩
      exact ⟨rfl, hadd, rfl, rfl⟩
  have hsent : sent = if ((n.proc p).discovery.knownPublishers.addPublisher
      (c.advertised p t k ty o)).2 = true ∧ PubLike.scope (c.advertised p t k ty o) ≠ .process then
      [c.datagram p .advertise (c.advertised p t k ty o)] else [] := by
    rw [perform_advertise] at hp
    rw [← hn.sent_advertise t k ty o hfits]
    exact (fst_snd_of_some hp).2.symm
  have hreg : ∀ t', registered c p s n' t' = registered c p s n t' := by
    refine registered_congr ?_ hback
    rw [perform_advertise] at hp
    rw [← (fst_snd_of_some hp).1]
    exact remoteSubscribers_advertise ..
  -- what is added is new to `s`
  have hnew : ((n.proc p).discovery.knownPublishers.addPublisher
        (c.advertised p t k ty o)).2 = true →
      ((learnt (c.sameHost p s) (n.proc s).discovery.knownPublishers (n.chan p s)).addPublisher
        ((c.advertised p t k ty o).received (c.uuid p) (c.name p))).2 = true := by
    intro hadd
    refine (addPublisher_snd _).mpr fun y hy => ?_
    obtain ⟨x, hx, -, rfl⟩ := (hl.view _ _).mp hy
    rw [sameEndpoint_received]
    exact (addPublisher_snd _).mp hadd x hx
  refine ⟨hl.reachable.step h, by rw [hs]; exact hl.homed, ?_, ?_, by rw [hback]; exact hl.toP, ?_,
    ?_, ?_⟩
  · intro t' x hx
    rcases (hknown t' x).mp hx with hx | ⟨-, -, rfl⟩
    · exact hl.fits t' x hx
    · exact hfits
  · intro m hm
    rw [hchan, hsent] at hm
    rcases List.mem_append.mp hm with hm | hm
    · exact hl.toS m hm
    · split at hm
      case isTrue =>
        rw [List.mem_singleton.mp hm]
        exact ⟨rfl, .inl rfl⟩
      case isFalse => cases hm
  · intro t' y
    rw [hs, hchan, learnt_append]
    by_cases hadd :
        ((n.proc p).discovery.knownPublishers.addPublisher (c.advertised p t k ty o)).2 = true
    case neg =>
      rw [if_neg fun h => hadd h.1] at hsent
      rw [hsent]
      refine (hl.view t' y).trans (exists_congr fun x => and_congr_left fun _ => ?_)
      rw [hknown]
      exact ⟨.inl, fun hx => hx.resolve_right fun h => hadd h.1⟩
    by_cases hv : Discovery.hidden (c.advertised p t k ty o) (c.sameHost p s) = true
    case pos =>
      have hsame : learnt (c.sameHost p s) (learnt (c.sameHost p s)
          (n.proc s).discovery.knownPublishers (n.chan p s)) sent =
          learnt (c.sameHost p s) (n.proc s).discovery.knownPublishers (n.chan p s) := by
        rw [hsent]
        split
        case isTrue => exact (learn_advertise ..).trans (if_pos hv)
        case isFalse => rfl
      rw [hsame]
      refine (hl.view t' y).trans (exists_congr fun x => ?_)
      rw [hknown]
      constructor
      · intro hsome
        exact ⟨.inl hsome.1, hsome.2⟩
      · rintro ⟨hx | ⟨-, -, rfl⟩, hvis, hy⟩
        · exact ⟨hx, hvis, hy⟩
        · rw [hv] at hvis
          cases hvis
    case neg =>
      have hscope : PubLike.scope (c.advertised p t k ty o) ≠ .process := by
        intro hscope
        exact hv (by simp [Discovery.hidden, hscope])
      rw [hsent, if_pos ⟨hadd, hscope⟩]
      have hlearn : ∀ known, learnt (c.sameHost p s) known
          [c.datagram p .advertise (c.advertised p t k ty o)] = (known.addPublisher
            ((c.advertised p t k ty o).received (c.uuid p) (c.name p))).1 := fun known =>
        (learn_advertise ..).trans (if_neg hv)
      rw [hlearn, mem_pubsOf_addPublisher, hl.view]
      constructor
      · rintro (⟨x, hx, hvis, rfl⟩ | ⟨-, rfl, -, rfl⟩)
        · exact ⟨x, (hknown _ _).mpr (.inl hx), hvis, rfl⟩
        · exact ⟨_, (hknown _ _).mpr (.inr ⟨hadd, rfl, rfl⟩), by simpa using hv, rfl⟩
      · rintro ⟨x, hx, hvis, rfl⟩
        rcases (hknown _ _).mp hx with hx | ⟨-, rfl, rfl⟩
        · exact .inl ⟨x, hx, hvis, rfl⟩
        · exact .inr ⟨hnew hadd, rfl, rfl, rfl⟩
  · intro t' x hx hvis h' hh hhandles
    rw [hs] at hh
    have hpending : Pending c p s n' t' h'.nodeUuid ↔ Pending c p s n t' h'.nodeUuid := by
      rw [Pending, hs, Pending]
    rw [hreg, hpending]
    rcases (hknown t' x).mp hx with hx | ⟨hadd, rfl, rfl⟩
    · refine (hl.due t' x hx hvis h' hh hhandles).imp_right (Or.imp_right fun hann => ?_)
      rw [Announced, hs, hchan]
      exact hann.append _
    · have hscope : PubLike.scope (c.advertised p t' k ty o) ≠ .process := by
        intro hscope
        simp [Discovery.hidden, hscope] at hvis
      refine .inr (.inr ?_)
      rw [Announced, hs, hchan, hsent, if_pos ⟨hadd, hscope⟩]
      refine ⟨n.chan p s, _, [], rfl, rfl, ?_, parsed_datagram .., hnew hadd⟩
      rw [parsed_datagram]
      exact hvis
  · intro t' k' hk'
    rw [hreg] at hk'
    obtain ⟨x, hx, hrest⟩ := hl.wanted t' k' hk'
    exact ⟨x, (hknown _ _).mpr (.inl hx), by rw [hs]; exact hrest⟩

/-- `p` sends an UNADVERTISE of what it takes down, if that is not for itself. -/
theorem Linked.sent_unadvertise (hl : Linked c p s n) (t k : Str) :
    (((n.proc p).unadvertise t k).2 = [] ∧
      ∀ x ∈ (n.proc p).discovery.knownPublishers.pubsOf t (c.uuid p), x.nodeUuid = k →
        Discovery.hidden x (c.sameHost p s) = true) ∨
    ∃ x ∈ (n.proc p).discovery.knownPublishers.pubsOf t (c.uuid p), x.nodeUuid = k ∧
      ((n.proc p).unadvertise t k).2 = [c.datagram p .unadvertise x] := by
  have hn := hl.reachable.healthy
  have hsent : ((n.proc p).unadvertise t k).2 = ((n.proc p).discovery.unadvertise t k).1.sent := rfl
  simp only [hsent, Discovery.unadvertise, if_pos (hn.sound p).running.enabled, hn.discoveryUuid]
  cases hget : (n.proc p).discovery.knownPublishers.getPublisher t (c.uuid p) k with
  | none =>
      rw [getPublisher_eq, List.find?_eq_none] at hget
      refine .inl ⟨rfl, fun x hx hk => ?_⟩
      have hne : ¬ PubLike.nodeUuid x = k := by simpa using hget x hx
      exact absurd hk hne
  | some x =>
      rw [getPublisher_eq] at hget
      have hx := List.mem_of_find?_eq_some hget
      have hk : PubLike.nodeUuid x = k := by simpa using List.find?_some hget
      by_cases hscope : PubLike.scope x ≠ .process
      · refine .inr ⟨x, hx, hk, ?_⟩
        have hfits : Discovery.fits (c.datagram p .unadvertise x) = true := hl.fits t x hx
        simp only [if_pos hscope]
        rw [Discovery.sendMsg_eq _ (.inr (.inl rfl)), hn.announcement, if_pos hfits]
      · refine .inl ⟨if_neg hscope, fun y hy hyk => ?_⟩
        obtain rfl := hn.eq_of_node hx hy (Eq.trans hk hyk.symm)
        simp [Discovery.hidden, not_not.mp hscope]

/-- **`p` takes a publisher down.** -/
theorem Linked.unadvertise (hl : Linked c p s n) (hps : p ≠ s) {t k : Str}
    (htidy : ∀ k' ∈ registered c p s n t, WantedBeside c p s n k t k')
    (h : next n (.act p (.unadvertise t k)) = some n') : Linked c p s n' := by
  have hn := hl.reachable.healthy
  obtain ⟨sent, hp, hs, hchan, hback⟩ := next_act hps h
  have hknown : ∀ t' y, y ∈ (n'.proc p).discovery.knownPublishers.pubsOf t' (c.uuid p) ↔
      y ∈ (n.proc p).discovery.knownPublishers.pubsOf t' (c.uuid p) ∧
        ¬ (t' = t ∧ y.nodeUuid = k) := by
    intro t' y
    rw [(knownAfter_perform (hn.sound p).running hp).mem]
    simp [MessageRuntime.adds, MessageRuntime.drops, hn.discoveryUuid]
  have hsent : ((n.proc p).unadvertise t k).2 = sent := (fst_snd_of_some hp).2
  have hreg : ∀ t', registered c p s n' t' = registered c p s n t' := by
    refine registered_congr ?_ hback
    rw [← (fst_snd_of_some hp).1]
    exact remoteSubscribers_unadvertise ..
  have hview : ∀ t' y, (∃ x ∈ (n'.proc p).discovery.knownPublishers.pubsOf t' (c.uuid p),
      Discovery.hidden x (c.sameHost p s) = false ∧ y = x.received (c.uuid p) (c.name p)) ↔
      (∃ x ∈ (n.proc p).discovery.knownPublishers.pubsOf t' (c.uuid p),
        Discovery.hidden x (c.sameHost p s) = false ∧ y = x.received (c.uuid p) (c.name p)) ∧
      ¬ (t' = t ∧ y.nodeUuid = k) := by
    intro t' y
    simp only [hknown]
    constructor
    · rintro ⟨x, ⟨hx, hne⟩, hv, rfl⟩
      exact ⟨⟨x, hx, hv, rfl⟩, hne⟩
    · rintro ⟨⟨x, hx, hv, rfl⟩, hne⟩
      exact ⟨x, ⟨hx, hne⟩, hv, rfl⟩
  refine ⟨hl.reachable.step h, by rw [hs]; exact hl.homed,
    fun t' x hx => hl.fits t' x ((hknown t' x).mp hx).1, ?_, by rw [hback]; exact hl.toP,
    ?_, ?_, ?_⟩
  · intro m hm
    rw [hchan] at hm
    rcases List.mem_append.mp hm with hm | hm
    · exact hl.toS m hm
    · rw [← hsent] at hm
      rcases hl.sent_unadvertise t k with ⟨hnone, -⟩ | ⟨x, -, -, hone⟩
      · rw [hnone] at hm
        cases hm
      · rw [hone] at hm
        rw [List.mem_singleton.mp hm]
        exact ⟨rfl, .inr rfl⟩
  · intro t' y
    rw [hs, hchan, learnt_append, ← hsent, hview, ← hl.view]
    -- nothing that `s` may see goes down unheard
    have hquiet : (∀ x ∈ (n.proc p).discovery.knownPublishers.pubsOf t (c.uuid p), x.nodeUuid = k →
        Discovery.hidden x (c.sameHost p s) = true) →
        y ∈ (learnt (c.sameHost p s) (n.proc s).discovery.knownPublishers (n.chan p s)).pubsOf t'
          (c.uuid p) → ¬ (t' = t ∧ y.nodeUuid = k) := by
      rintro hhidden hy ⟨rfl, hk⟩
      obtain ⟨x, hx, hv, rfl⟩ := (hl.view _ _).mp hy
      rw [hhidden x hx hk] at hv
      cases hv
    rcases hl.sent_unadvertise t k with ⟨hnone, hhidden⟩ | ⟨x, hx, hk, hone⟩
    · rw [hnone]
      exact ⟨fun hy => ⟨hy, hquiet hhidden hy⟩, And.left⟩
    · rw [hone]
      obtain ⟨k', ty, o, rfl⟩ := hn.own hx
      obtain rfl : k' = k := hk
      cases hv : Discovery.hidden (c.advertised p t k' ty o) (c.sameHost p s) with
      | true =>
          have hsame : ∀ known, learnt (c.sameHost p s) known
              [c.datagram p .unadvertise (c.advertised p t k' ty o)] = known := fun known =>
            (learn_unadvertise ..).trans (if_pos hv)
          rw [hsame]
          refine ⟨fun hy => ⟨hy, hquiet (fun z hz hzk => ?_) hy⟩, And.left⟩
          rw [hn.eq_of_node hz hx hzk]
          exact hv
      | false =>
          have hlearn : ∀ known, learnt (c.sameHost p s) known
              [c.datagram p .unadvertise (c.advertised p t k' ty o)] =
              (known.delPublishersByNode t (c.uuid p) k').1 := fun known =>
            (learn_unadvertise ..).trans (if_neg (Bool.eq_false_iff.mp hv))
          rw [hlearn, mem_pubsOf_delPublishersByNode]
          simp [PubLike.nodeUuid, PubLike.base]
  · intro t' x hx hv h' hh hhandles
    rw [hs] at hh
    rw [hreg, pending_congr hs]
    refine (hl.due t' x ((hknown t' x).mp hx).1 hv h' hh hhandles).imp_right
      (Or.imp_right fun hann => ?_)
    rw [Announced, hs, hchan]
    exact hann.append _
  · intro t' k' hk'
    rw [hreg] at hk'
    by_cases ht : t' = t
    · subst ht
      obtain ⟨x, hx, hne, hv, hrest⟩ := htidy k' hk'
      exact ⟨x, (hknown _ _).mpr ⟨hx, fun h => hne h.2⟩, hv, by rw [hs]; exact hrest⟩
    · obtain ⟨x, hx, hrest⟩ := hl.wanted t' k' hk'
      exact ⟨x, (hknown _ _).mpr ⟨hx, fun h => ht h.1⟩, by rw [hs]; exact hrest⟩

/-! ## Calls of subscribers -/

/-- A call of a node of `s`, or a command, leaves what `s` knows as it is. -/
theorem Linked.of_subscriber (hl : Linked c p s n) (hps : p ≠ s) {b : MessageRuntime.Action}
    (h : next n (.act s b) = some n')
    (hknown : (n'.proc s).discovery.knownPublishers = (n.proc s).discovery.knownPublishers)
    (htypes : ∀ rt sent, (n.proc s).perform b = some (rt, sent) → ∀ m ∈ sent,
      m.processUuid = c.uuid s ∧
        (m.type = .subscribe ∨ m.type = .newConnection ∨ m.type = .endConnection))
    (homed : ∀ t k u h, (n'.proc s).localSubscribers.handler? t k u = some h → h.nodeUuid = k)
    (due : ∀ t, ∀ x ∈ (n.proc p).discovery.knownPublishers.pubsOf t (c.uuid p),
      Discovery.hidden x (c.sameHost p s) = false →
      ∀ h ∈ (n'.proc s).localSubscribers.handlersOf t, handles x.msgType h = true →
        h.nodeUuid ∈ registered c p s n' t ∨ Pending c p s n' t h.nodeUuid ∨ Announced c p s n x)
    (wanted : ∀ t, ∀ k ∈ registered c p s n' t, Wanted c p s n' t k) : Linked c p s n' := by
  obtain ⟨sent, hs, hp, hchan, hback⟩ := next_act hps.symm h
  refine ⟨hl.reachable.step h, homed, by rw [hp]; exact hl.fits, by rw [hback]; exact hl.toS,
    ?_, ?_,
    ?_, wanted⟩
  · intro m hm
    rw [hchan] at hm
    rcases List.mem_append.mp hm with hm | hm
    · exact hl.toP m hm
    · exact htypes _ _ hs m hm
  · intro t y
    rw [hp, hback, hknown]
    exact hl.view t y
  · intro t x hx hv h' hh hhandles
    rw [hp] at hx
    refine (due t x hx hv h' hh hhandles).imp_right (Or.imp_right fun hann => ?_)
    rwa [Announced, hback, hknown]

omit [DecidableEq ι] in
/-- A node with a handler for a publisher that `s` knows is named by its registrations. -/
theorem pending_of_registrations (hn : Healthy c n') {t : Str} {x : MessagePublisherInfo}
    (hx : x.topic = t) {h : SubscriptionHandler}
    (hh : h ∈ (n'.proc s).localSubscribers.handlersOf t) (hhandles : handles x.msgType h = true)
    (hq : .subscribe t ((n'.proc s).registrationsFor (x.received (c.uuid p) (c.name p))) ∈
      (n'.proc s).subscriberCommands) : Pending c p s n' t h.nodeUuid := by
  subst hx
  exact ⟨_, hq, c.registration p s x h.nodeUuid,
    hn.mem_registrationsFor.mpr ⟨h, hh, hhandles, rfl⟩, rfl, rfl⟩

omit [DecidableEq ι] in
/-- The commands of a process are still in the queue. -/
theorem Pending.mono {new : List SubscriberCommand} {t k : Str} (h : Pending c p s n t k)
    (hq : (n'.proc s).subscriberCommands = (n.proc s).subscriberCommands ++ new) :
    Pending c p s n' t k := by
  obtain ⟨regs, hregs, hrest⟩ := h
  exact ⟨regs, by rw [hq]; exact List.mem_append.mpr (.inl hregs), hrest⟩

/-- **A node of `s` subscribes.** -/
theorem Linked.subscribe (hl : Linked c p s n) (hps : p ≠ s) {t k : Str}
    {handler : SubscriptionHandler} (hhome : handler.nodeUuid = k)
    (h : next n (.act s (.subscribe t k handler)) = some n') : Linked c p s n' := by
  have hn := hl.reachable.healthy
  have hn' := (hl.reachable.step h).healthy
  have hrun := (hn.sound s).running
  obtain ⟨sent, hs, hp, hchan, hback⟩ := next_act hps.symm h
  have hproc : ((n.proc s).subscribe t k handler).1 = n'.proc s := (fst_snd_of_some hs).1
  have hlocal := localSubscribers_perform hs
  simp only [handlersAfter] at hlocal
  have hsent : ∀ rt sent, (n.proc s).perform (.subscribe t k handler) = some (rt, sent) →
      ∀ m ∈ sent, m.processUuid = c.uuid s ∧ m.type = .subscribe := by
    intro rt sent hrt m hm
    have heq : ((n.proc s).discovery.discover t).1.sent = sent := (fst_snd_of_some hrt).2
    rw [← heq] at hm
    obtain ⟨hu, ht⟩ := Discovery.mem_sent_discover hm
    exact ⟨hu.trans (hn.discoveryUuid s), ht⟩
  have hreg : ∀ t' k', k' ∈ registered c p s n' t' ↔ k' ∈ registered c p s n t' := by
    intro t' k'
    rw [mem_registered_append hp hchan]
    have hnone : sent.filterMap (registrationOp (c.uuid p) t' (c.uuid s)) = [] := by
      refine List.filterMap_eq_nil_iff.mpr fun m hm => ?_
      simp [registrationOp, (hsent _ _ hs m hm).2]
    rw [hnone]
    rfl
  obtain ⟨new, hgrows⟩ := Grows.perform hs (by simp)
  refine hl.of_subscriber hps h ?_ (fun rt sent hrt m hm => ?_) ?_ ?_ ?_
  · rw [← hproc]
    simp only [MessageRuntime.subscribe, discovery_absorb, Discovery.self_discover]
  · exact ⟨(hsent _ _ hrt m hm).1, .inl (hsent _ _ hrt m hm).2⟩
  · intro t' k' u h' hh'
    rw [hlocal, HandlerStorage.handler?_addHandler] at hh'
    split at hh'
    case isTrue hcond =>
      obtain rfl := Option.some.inj hh'
      exact hhome.trans hcond.2.1.symm
    case isFalse => exact hl.homed t' k' u h' hh'
  · intro t' x hx hv h' hh hhandles
    rw [hreg]
    have hmem := hh
    rw [hlocal] at hmem
    rcases HandlerStorage.mem_handlersOf_addHandler _ hmem with hold | ⟨rfl, rfl⟩
    · exact (hl.due t' x hx hv h' hold hhandles).imp_right
        (Or.imp_left fun hpend => hpend.mono hgrows.commands)
    · -- what is known of the topic is reported to the runtime
      have hwill : x.received (c.uuid p) (c.name p) ∈ (learnt (c.sameHost p s)
          (n.proc s).discovery.knownPublishers (n.chan p s)).pubsOf t' (c.uuid p) :=
        (hl.view _ _).mpr ⟨x, hx, hv, rfl⟩
      rcases known_or_news hwill with hknown | hnews
      case inr => exact .inr (.inr hnews)
      refine .inr (.inl ?_)
      have htopic : x.topic = t' := ((hn.sound p).wellFormed.filed hx).1
      refine pending_of_registrations hn' htopic hh hhandles ?_
      have hother : (x.received (c.uuid p) (c.name p)).processUuid ≠ (n.proc s).processUuid := by
        rw [hn.uuid]
        exact fun heq => hps (c.uuid_inj heq)
      have hsub : (n'.proc s).localSubscribers.hasSubscriber
          (x.received (c.uuid p) (c.name p)).topic = true := by
        refine (HandlerStorage.hasHandlersForTopic_iff _
          ((hl.reachable.step h).orderly s).filled).mpr ⟨h', ?_⟩
        rw [show (x.received (c.uuid p) (c.name p)).topic = t' from htopic]
        exact hh
      rw [← hproc] at hsub ⊢
      have hcommand := mem_commands_subscribe hrun hknown hother hsub
      rwa [show (x.received (c.uuid p) (c.name p)).topic = t' from htopic] at hcommand
  · intro t' k' hk'
    obtain ⟨x, hx, hv, h', hh, hrest⟩ := hl.wanted t' k' ((hreg t' k').mp hk')
    refine ⟨x, by rw [hp]; exact hx, hv, h', ?_, hrest⟩
    rw [hlocal]
    exact HandlerStorage.mem_handlersOf_addHandler_of_mem _ hh

omit [DecidableEq ι] in
/-- The datagrams of `unsubscribe` are END_CONNECTIONs of the node. -/
theorem Healthy.mem_sent_unsubscribe (hn : Healthy c n) {t k : Str} {m : Msgs.Discovery}
    (hm : m ∈ ((n.proc s).unsubscribe t k).2) :
    ∃ q, m = c.datagram s .endConnection ((n.proc s).unregistration t k q) := by
  rw [sent_unsubscribe] at hm
  obtain ⟨q, -, hm⟩ := List.mem_flatMap.mp hm
  refine ⟨q, ?_⟩
  rw [((Discovery.mem_sendMsg _ (.inr (.inr (.inr rfl)))).mp hm).1, hn.announcement]

omit [DecidableEq ι] in
/-- Where it concerns `p`, it drops the node. -/
theorem registrationOp_unregistration (rt : MessageRuntime) (t k q t' : Str) :
    registrationOp (c.uuid p) t' (c.uuid s)
        (c.datagram s .endConnection (rt.unregistration t k q)) =
      if (q = [] ∨ q = c.uuid p) ∧ t = t' then some (.drop k) else none := by
  have hparsed := parsed_datagram c s .endConnection (rt.unregistration t k q)
  have ht : (c.datagram s .endConnection (rt.unregistration t k q)).type = .endConnection := rfl
  simp only [registrationOp, ht, hparsed]
  simp [unregistration, MessagePublisherInfo.received, MessagePublisherInfo.make,
    PublisherInfo.make]

omit [DecidableEq ι] in
/-- An END_CONNECTION goes to `p` if `s` knows one of its publishers. -/
theorem Healthy.unregistration_sent (hn : Healthy c n) {t k : Str}
    (hfits : Discovery.fits
      (c.datagram s .endConnection ((n.proc s).unregistration t k (c.uuid p))) = true)
    (hknown : (n.proc s).discovery.knownPublishers.pubsOf t (c.uuid p) ≠ []) :
    c.datagram s .endConnection ((n.proc s).unregistration t k (c.uuid p)) ∈
      ((n.proc s).unsubscribe t k).2 := by
  rw [sent_unsubscribe]
  refine List.mem_flatMap.mpr ⟨c.uuid p, ?_, ?_⟩
  · obtain ⟨x, hx⟩ := List.exists_mem_of_ne_nil _ hknown
    simp only [pubsOf] at hx
    simp only [getPublishers]
    cases hd : (n.proc s).discovery.knownPublishers.data[t]? with
    | none => simp [hd] at hx
    | some addresses =>
        have hq : c.uuid p ∈ addresses := by
          rw [Std.ExtTreeMap.mem_iff_isSome_getElem?]
          cases ha : addresses[c.uuid p]? with
          | none => simp [hd, ha] at hx
          | some pubs => rfl
        simpa using hq
  · rw [Discovery.mem_sendMsg _ (.inr (.inr (.inr rfl))), hn.announcement]
    exact ⟨rfl, hfits⟩

/-- **A node of `s` unsubscribes.** -/
theorem Linked.unsubscribe (hl : Linked c p s n) (hps : p ≠ s) {t k : Str}
    (hfits : Discovery.fits
      (c.datagram s .endConnection ((n.proc s).unregistration t k (c.uuid p))) = true)
    (htidy : k ∈ registered c p s n t →
      (n.proc s).discovery.knownPublishers.pubsOf t (c.uuid p) ≠ [])
    (h : next n (.act s (.unsubscribe t k)) = some n') : Linked c p s n' := by
  have hn := hl.reachable.healthy
  obtain ⟨sent, hs, hp, hchan, hback⟩ := next_act hps.symm h
  have hproc : ((n.proc s).unsubscribe t k).1 = n'.proc s := (fst_snd_of_some hs).1
  have hsent : ((n.proc s).unsubscribe t k).2 = sent := (fst_snd_of_some hs).2
  have hlocal := localSubscribers_perform hs
  simp only [handlersAfter] at hlocal
  -- the handlers of the node are gone, the others stay
  have hhandlers : ∀ t' h', h' ∈ (n'.proc s).localSubscribers.handlersOf t' ↔
      h' ∈ (n.proc s).localSubscribers.handlersOf t' ∧ ¬ (t' = t ∧ h'.nodeUuid = k) := by
    intro t' h'
    rw [hlocal, HandlerStorage.mem_handlersOf, HandlerStorage.mem_handlersOf]
    simp only [HandlerStorage.handler?_removeHandlersForNode]
    constructor
    · rintro ⟨k', u, hh⟩
      split at hh
      case isTrue => cases hh
      case isFalse hcond =>
        have hk := hl.homed t' k' u h' hh
        exact ⟨⟨k', u, hh⟩, by rwa [hk]⟩
    · rintro ⟨⟨k', u, hh⟩, hcond⟩
      have hk := hl.homed t' k' u h' hh
      exact ⟨k', u, by rw [if_neg (by rwa [← hk]), hh]⟩
  have hops : ∀ t', ∀ o ∈ sent.filterMap (registrationOp (c.uuid p) t' (c.uuid s)),
      o = .drop k ∧ t' = t := by
    intro t' o ho
    obtain ⟨m, hm, hop⟩ := List.mem_filterMap.mp ho
    rw [← hsent] at hm
    obtain ⟨q, rfl⟩ := hn.mem_sent_unsubscribe hm
    rw [registrationOp_unregistration] at hop
    split at hop
    case isTrue hcond => exact ⟨(Option.some.inj hop).symm, hcond.2.symm⟩
    case isFalse => cases hop
  have hreg : ∀ t' k', ¬ (t' = t ∧ k' = k) →
      (k' ∈ registered c p s n' t' ↔ k' ∈ registered c p s n t') := by
    intro t' k' hne
    rw [mem_registered_append hp hchan, mem_settle_of_ne]
    · rfl
    · intro o ho hkey
      obtain ⟨rfl, ht⟩ := hops t' o ho
      exact hne ⟨ht, hkey.symm⟩
  have hgone : k ∉ registered c p s n' t := by
    rw [mem_registered_append hp hchan, mem_settle_drops fun o ho => (hops t o ho).1]
    rintro ⟨hk, hnone⟩
    have hm := hn.unregistration_sent hfits (htidy hk)
    rw [hsent] at hm
    have hop := List.filterMap_eq_nil_iff.mp hnone _ hm
    rw [registrationOp_unregistration, if_pos ⟨.inr rfl, rfl⟩] at hop
    cases hop
  obtain ⟨new, hgrows⟩ := Grows.perform hs (by simp)
  refine hl.of_subscriber hps h ?_ (fun rt sent' hrt m hm => ?_) ?_ ?_ ?_
  · rw [← hproc]
    simp only [MessageRuntime.unsubscribe]
    split <;> rfl
  · have heq : ((n.proc s).unsubscribe t k).2 = sent' := (fst_snd_of_some hrt).2
    rw [← heq] at hm
    obtain ⟨q, rfl⟩ := hn.mem_sent_unsubscribe hm
    exact ⟨rfl, .inr (.inr rfl)⟩
  · intro t' k' u h' hh'
    rw [hlocal, HandlerStorage.handler?_removeHandlersForNode] at hh'
    split at hh'
    case isTrue => cases hh'
    case isFalse => exact hl.homed t' k' u h' hh'
  · intro t' x hx hv h' hh hhandles
    obtain ⟨hold, hne⟩ := (hhandlers t' h').mp hh
    rw [hreg t' h'.nodeUuid hne]
    exact (hl.due t' x hx hv h' hold hhandles).imp_right
      (Or.imp_left fun hpend => hpend.mono hgrows.commands)
  · intro t' k' hk'
    have hne : ¬ (t' = t ∧ k' = k) := by
      rintro ⟨rfl, rfl⟩
      exact hgone hk'
    obtain ⟨x, hx, hv, h', hh, hnode, hhandles⟩ := hl.wanted t' k' ((hreg t' k' hne).mp hk')
    exact ⟨x, by rw [hp]; exact hx, hv, h', (hhandlers t' h').mpr ⟨hh, by rwa [hnode]⟩, hnode,
      hhandles⟩

/-- Applying a command sends the registrations that are due. -/
theorem sent_applyCommand {rt rt' : MessageRuntime} {sent : List Msgs.Discovery}
    (h : rt.perform (.applyCommand true) = some (rt', sent)) :
    sent = rt.dueRegistrations.flatMap rt.discovery.registerNode := by
  obtain ⟨cmd, rest, hq, -, rfl⟩ := perform_applyCommand _ h
  cases cmd with
  | connect address => simp [applySubscriberCommand, dueRegistrations, hq]
  | subscribe topic regs =>
      by_cases hsub : rt.localSubscribers.hasSubscriber topic = true
      · simp [applySubscriberCommand, dueRegistrations, hq, hsub]
      · simp [applySubscriberCommand, dueRegistrations, hq, hsub]
  | unsubscribe topic =>
      simp only [applySubscriberCommand, dueRegistrations, hq]
      split <;> rfl

omit [DecidableEq ι] in
/-- A NEW_CONNECTION registers its node. -/
theorem registrationOp_registration (r : MessagePublisherInfo) (t : Str) :
    registrationOp (c.uuid p) t (c.uuid s) (c.datagram s .newConnection r) =
      if r.ctrl = c.uuid p ∧ r.topic = t then some (.put r.nodeUuid) else none := by
  have hparsed := parsed_datagram c s .newConnection r
  have ht : (c.datagram s .newConnection r).type = .newConnection := rfl
  simp only [registrationOp, ht, hparsed]
  simp [MessagePublisherInfo.received]

/-- **The receive thread of `s` takes a command.** -/
theorem Linked.applyCommand (hl : Linked c p s n) (hps : p ≠ s)
    (hfits : ∀ r ∈ (n.proc s).dueRegistrations,
      Discovery.fits (c.datagram s .newConnection r) = true)
    (htidy : ∀ r ∈ (n.proc s).dueRegistrations, r.ctrl = c.uuid p →
      Wanted c p s n r.topic r.nodeUuid)
    (h : next n (.act s (.applyCommand true)) = some n') : Linked c p s n' := by
  have hn := hl.reachable.healthy
  obtain ⟨sent, hs, hp, hchan, hback⟩ := next_act hps.symm h
  have hlocal : (n'.proc s).localSubscribers = (n.proc s).localSubscribers :=
    localSubscribers_perform hs
  obtain ⟨cmd, rest, sub, hq, hx⟩ := applyNextCommand_eq (n.proc s) hs
  simp only at hx
  have hsent : ∀ rt sent, (n.proc s).perform (.applyCommand true) = some (rt, sent) →
      ∀ m ∈ sent, ∃ r ∈ (n.proc s).dueRegistrations, m = c.datagram s .newConnection r := by
    intro rt sent hrt m hm
    rw [sent_applyCommand hrt] at hm
    obtain ⟨r, hr, hm⟩ := List.mem_flatMap.mp hm
    exact ⟨r, hr, ((hn.mem_registerNode s).mp hm).1⟩
  have hreg : ∀ t k, k ∈ registered c p s n' t ↔ k ∈ registered c p s n t ∨
      ∃ r ∈ (n.proc s).dueRegistrations, r.ctrl = c.uuid p ∧ r.topic = t ∧ r.nodeUuid = k := by
    intro t k
    have hops : ∀ o, o ∈ sent.filterMap (registrationOp (c.uuid p) t (c.uuid s)) ↔
        ∃ r ∈ (n.proc s).dueRegistrations, r.ctrl = c.uuid p ∧ r.topic = t ∧
          o = .put r.nodeUuid := by
      intro o
      rw [List.mem_filterMap]
      constructor
      · rintro ⟨m, hm, hop⟩
        obtain ⟨r, hr, rfl⟩ := hsent _ _ hs m hm
        rw [registrationOp_registration] at hop
        split at hop
        case isTrue hcond => exact ⟨r, hr, hcond.1, hcond.2, (Option.some.inj hop).symm⟩
        case isFalse => cases hop
      · rintro ⟨r, hr, hctrl, ht, rfl⟩
        refine ⟨c.datagram s .newConnection r, ?_, ?_⟩
        · rw [sent_applyCommand hs]
          exact List.mem_flatMap.mpr ⟨r, hr, (hn.mem_registerNode s).mpr ⟨rfl, hfits r hr⟩⟩
        · rw [registrationOp_registration, if_pos ⟨hctrl, ht⟩]
    rw [mem_registered_append hp hchan, mem_settle_puts]
    · refine or_congr Iff.rfl ((hops _).trans ?_)
      simp only [Op.put.injEq, eq_comm]
    · intro o ho
      obtain ⟨r, -, -, -, rfl⟩ := (hops o).mp ho
      exact ⟨_, rfl⟩
  refine hl.of_subscriber hps h (by rw [hx]) (fun rt sent hrt m hm => ?_)
    (by rw [hlocal]; exact hl.homed)
    ?_ ?_
  · obtain ⟨r, -, rfl⟩ := hsent _ _ hrt m hm
    exact ⟨rfl, .inr (.inl rfl)⟩
  · intro t x hx' hv h' hh hhandles
    rw [hlocal] at hh
    rw [hreg]
    rcases hl.due t x hx' hv h' hh hhandles with hk | ⟨regs, hregs, r, hr, hctrl, hnode⟩ | hann
    · exact .inl (.inl hk)
    · rw [hq] at hregs
      rcases List.mem_cons.mp hregs with hcmd | hregs
      · -- the command is this one, and its topic has a subscriber
        have hsub : (n.proc s).localSubscribers.hasSubscriber t = true :=
          (HandlerStorage.hasHandlersForTopic_iff _ (hl.reachable.orderly s).filled).mpr ⟨h', hh⟩
        have hdue : (n.proc s).dueRegistrations = regs := by
          simp only [dueRegistrations, hq, ← hcmd, if_pos hsub]
        have htopic : r.topic = t :=
          (hl.reachable.orderly s).queue t regs (by rw [hq, hcmd]; exact List.mem_cons_self) r hr
        exact .inl (.inr ⟨r, by rwa [hdue], hctrl, htopic, hnode⟩)
      · refine .inr (.inl ⟨regs, ?_, r, hr, hctrl, hnode⟩)
        rw [hx]
        exact hregs
    · exact .inr (.inr hann)
  · intro t k hk
    have hwanted : Wanted c p s n t k := by
      rcases (hreg t k).mp hk with hk | ⟨r, hr, hctrl, rfl, rfl⟩
      · exact hl.wanted t k hk
      · exact htidy r hr hctrl
    simpa only [Wanted, hp, hlocal] using hwanted

/-! ## Datagrams that arrive -/

/-- **A datagram reaches `p`.** -/
theorem Linked.deliverP (hl : Linked c p s n) (hps : p ≠ s) {now : ℕ}
    (h : next n (.deliver s p now) = some n') : Linked c p s n' := by
  have hn := hl.reachable.healthy
  have hrun := (hn.sound p).running
  obtain ⟨m, rest, sent, hm, hp, hs, hchan, hback⟩ := next_deliver hps.symm h
  obtain ⟨huuid, ht⟩ := hl.toP m (by rw [hm]; exact List.mem_cons_self)
  have hproc : ((n.proc p).recvDiscoveryMsg (n.proc s).discovery.hostAddr m now).1 = n'.proc p :=
    (fst_snd_of_some hp).1
  have hne : m.processUuid ≠ (n.proc p).discovery.processUuid := by
    rw [huuid, hn.discoveryUuid]
    exact fun heq => hps (c.uuid_inj heq).symm
  have hknown : (n'.proc p).discovery.knownPublishers = (n.proc p).discovery.knownPublishers := by
    rw [← hproc]
    refine knownPublishers_recv hrun (.inr ?_)
    rcases ht with ht | ht | ht <;> simp [ht]
  have hreg : ∀ t k, k ∈ registered c p s n' t ↔ k ∈ registered c p s n t := by
    intro t k
    have hnodes :=
      @registeredNodes_recv (n.proc p) (n.proc s).discovery.hostAddr m now hrun hne ht t
      (c.uuid s)
    rw [hproc, hn.uuid] at hnodes
    rw [mem_registered, mem_registered, hchan, hm, hnodes, ← settle_append]
    have hops : (registrationOp (c.uuid p) t (c.uuid s) m).toList ++
        rest.filterMap (registrationOp (c.uuid p) t (c.uuid s)) =
        (m :: rest).filterMap (registrationOp (c.uuid p) t (c.uuid s)) := by
      rw [List.filterMap_cons]
      cases registrationOp (c.uuid p) t (c.uuid s) m with
      | none => rfl
      | some o => rfl
    rw [hops]
  have hsent : ∀ m' ∈ sent, ∃ t, ∃ x ∈ (n.proc p).discovery.knownPublishers.pubsOf t (c.uuid p),
      m' = c.datagram p .advertise x := by
    intro m' hm'
    have heq :
        ((n.proc p).discovery.dispatchDiscoveryMsg (n.proc s).discovery.hostAddr m now).sent =
        sent := (fst_snd_of_some hp).2
    rw [← heq] at hm'
    obtain ⟨-, -, t, -, hm'⟩ := Discovery.mem_sent_dispatch hm'
    obtain ⟨x, hx, -, hm'⟩ := Discovery.mem_answerSubscribe hm'
    rw [hn.discoveryUuid] at hx
    exact ⟨t, x, hx, by rw [((Discovery.mem_sendMsg _ (.inl rfl)).mp hm').1, hn.announcement]⟩
  refine ⟨hl.reachable.step h, by rw [hs]; exact hl.homed, by rw [hknown]; exact hl.fits, ?_,
    ?_, ?_,
    ?_, ?_⟩
  · intro m' hm'
    rw [hback] at hm'
    rcases List.mem_append.mp hm' with hm' | hm'
    · exact hl.toS m' hm'
    · obtain ⟨t, x, -, rfl⟩ := hsent m' hm'
      exact ⟨rfl, .inl rfl⟩
  · intro m' hm'
    rw [hchan] at hm'
    exact hl.toP m' (by rw [hm]; exact List.mem_cons_of_mem _ hm')
  · intro t y
    -- the answers tell `s` nothing new
    have hsame : learnt (c.sameHost p s) (n.proc s).discovery.knownPublishers
        (n.chan p s ++ sent) =
        learnt (c.sameHost p s) (n.proc s).discovery.knownPublishers (n.chan p s) := by
      rw [learnt_append]
      refine learnt_known fun m' hm' => ?_
      obtain ⟨t', x, hx, rfl⟩ := hsent m' hm'
      refine ⟨rfl, ?_⟩
      obtain ⟨k, ty, o, rfl⟩ := hn.own hx
      rw [parsed_datagram, hidden_received]
      cases hv : Discovery.hidden (c.advertised p t' k ty o) (c.sameHost p s) with
      | true => exact .inl rfl
      | false => exact .inr ((hl.view _ _).mpr ⟨_, hx, hv, rfl⟩)
    rw [hs, hback, hsame, hknown]
    exact hl.view t y
  · intro t x hx hv h' hh hhandles
    rw [hknown] at hx
    rw [hs] at hh
    rw [hreg, pending_congr hs]
    refine (hl.due t x hx hv h' hh hhandles).imp_right (Or.imp_right fun hann => ?_)
    rw [Announced, hs, hback]
    exact hann.append _
  · intro t k hk
    have hwanted := hl.wanted t k ((hreg t k).mp hk)
    simpa only [Wanted, hknown, hs] using hwanted

/-- **A datagram reaches `s`.** -/
theorem Linked.deliverS (hl : Linked c p s n) (hps : p ≠ s) {now : ℕ}
    (h : next n (.deliver p s now) = some n') : Linked c p s n' := by
  have hn := hl.reachable.healthy
  have hn' := (hl.reachable.step h).healthy
  have hrun := (hn.sound s).running
  obtain ⟨m, rest, sent, hm, hs, hp, hchan, hback⟩ := next_deliver hps h
  obtain ⟨huuid, ht⟩ := hl.toS m (by rw [hm]; exact List.mem_cons_self)
  have hproc : ((n.proc s).recvDiscoveryMsg (n.proc p).discovery.hostAddr m now).1 = n'.proc s :=
    (fst_snd_of_some hs).1
  have hne : m.processUuid ≠ (n.proc s).discovery.processUuid := by
    rw [huuid, hn.discoveryUuid]
    exact fun heq => hps (c.uuid_inj heq)
  have hsent : sent = [] := by
    apply sent_perform_recv hs
    rcases ht with ht | ht <;> simp [ht]
  rw [hsent, List.append_nil] at hback
  have hlocal : (n'.proc s).localSubscribers = (n.proc s).localSubscribers :=
    localSubscribers_perform hs
  have hlocally : (n.proc s).discovery.isSenderLocal (n.proc p).discovery.hostAddr =
      c.sameHost p s := by
    rw [hn.hostAddr, hn.isSenderLocal]
  have hknown : (n'.proc s).discovery.knownPublishers =
      learn (c.sameHost p s) (n.proc s).discovery.knownPublishers m := by
    rw [← hproc, known_recv hrun hne (by rcases ht with ht | ht <;> simp [ht]), hlocally]
  have hcommands := commands_recv hrun (n.proc p).discovery.hostAddr m now
  rw [hproc] at hcommands
  have hreg : ∀ t, registered c p s n' t = registered c p s n t :=
    registered_congr (by rw [hp]) hback
  refine ⟨hl.reachable.step h, by rw [hlocal]; exact hl.homed, by rw [hp]; exact hl.fits, ?_,
    by rw [hback]; exact hl.toP, ?_, ?_, ?_⟩
  · intro m' hm'
    rw [hchan] at hm'
    exact hl.toS m' (by rw [hm]; exact List.mem_cons_of_mem _ hm')
  · intro t y
    rw [hp, hknown, hchan]
    have hview := hl.view t y
    rw [hm] at hview
    exact hview
  · intro t x hx hv h' hh hhandles
    rw [hp] at hx
    rw [hreg]
    have hold := hh
    rw [hlocal] at hold
    rcases hl.due t x hx hv h' hold hhandles with hk | hpend | ⟨ms₁, m', ms₂, hsplit, hrest⟩
    · exact .inl hk
    · exact .inr (.inl (hpend.mono hcommands))
    · rw [hm] at hsplit
      cases ms₁ with
      | nil =>
          -- it is the datagram that arrives
          obtain ⟨rfl, rfl⟩ := List.cons.inj hsplit
          obtain ⟨hadv, hvis, hparsed, hadd⟩ := hrest
          have hadds : (n.proc s).adds (.recv (n.proc p).discovery.hostAddr m now) =
              some (x.received (c.uuid p) (c.name p)) := by
            simp only [adds]
            rw [if_pos ⟨hne, hadv, by rw [hlocally]; exact hvis⟩, hparsed]
          have htopic : x.topic = t := ((hn.sound p).wellFormed.filed hx).1
          refine .inr (.inl (pending_of_registrations hn' htopic hh hhandles ?_))
          have hsub : (n.proc s).localSubscribers.hasSubscriber
              (x.received (c.uuid p) (c.name p)).topic = true := by
            refine (HandlerStorage.hasHandlersForTopic_iff _ (hl.reachable.orderly s).filled).mpr
              ⟨h', ?_⟩
            rw [show (x.received (c.uuid p) (c.name p)).topic = t from htopic]
            exact hold
          have hother :
              (x.received (c.uuid p) (c.name p)).processUuid ≠ (n.proc s).processUuid := by
            rw [hn.uuid]
            exact fun heq => hps (c.uuid_inj heq)
          have hadd' : ((n.proc s).discovery.knownPublishers.addPublisher
            (x.received (c.uuid p) (c.name p))).2 = true := hadd
          rw [hcommands, hadds, registrationsFor_congr hlocal (by rw [hn'.uuid, hn.uuid])]
          refine List.mem_append.mpr (.inr ?_)
          simp only [Option.map_some, Option.getD_some, if_pos hadd']
          have hreact := subscribe_mem_reaction hsub hother
          rwa [show (x.received (c.uuid p) (c.name p)).topic = t from htopic] at hreact
      | cons m₁ ms₁ =>
          obtain ⟨rfl, rfl⟩ := List.cons.inj hsplit
          refine .inr (.inr ⟨ms₁, m', ms₂, hchan, ?_⟩)
          rw [hknown]
          exact hrest
  · intro t k hk
    rw [hreg] at hk
    have hwanted := hl.wanted t k hk
    simpa only [Wanted, hp, hlocal] using hwanted

/-- Both have just started. -/
theorem linked_start (c : Hosts ι) (p s : ι) : Linked c p s (start c) where
  reachable := ⟨[], rfl⟩
  homed t k u h hh := by simp [start, init, HandlerStorage.handler?] at hh
  fits t x hx := by simp [start, init] at hx
  toS m hm := by cases hm
  toP m hm := by cases hm
  view t y := by simp [start, init, learnt]
  due t x hx := by simp [start, init] at hx
  wanted t k hk := by simp [start, init, registered, registeredNodes, settleList] at hk

/-- **The step lemma.** -/
theorem Linked.step (hl : Linked c p s n) (hps : p ≠ s) {a : Action ι} (ha : Calls c p s n a)
    (ht : Tidy c p s n a) (h : next n a = some n') : Linked c p s n' := by
  cases a with
  | act i b =>
      cases b with
      | advertise topic nodeUuid msgType options =>
          obtain ⟨rfl, hfits⟩ := ha
          exact hl.advertise hps hfits h
      | unadvertise topic nodeUuid =>
          obtain rfl := ha
          exact hl.unadvertise hps ht h
      | subscribe topic nodeUuid handler =>
          obtain ⟨rfl, hhome⟩ := ha
          exact hl.subscribe hps hhome h
      | unsubscribe topic nodeUuid =>
          obtain ⟨rfl, hfits⟩ := ha
          exact hl.unsubscribe hps hfits ht h
      | applyCommand ok =>
          obtain ⟨rfl, rfl, hfits⟩ := ha
          exact hl.applyCommand hps hfits ht h
      | _ => exact ha.elim
  | deliver i j now =>
      rcases ha with ⟨rfl, rfl⟩ | ⟨rfl, rfl⟩
      · exact hl.deliverS hps h
      · exact hl.deliverP hps h
  | lose i j => exact ha.elim

/-- **Registrations agree** in every run of tidy calls, whenever everything has been
delivered and applied. -/
theorem entered_iff_wanted (c : Hosts ι) (p s : ι) (hps : p ≠ s) (as : List (Action ι)) (n : Net ι)
    (hcalls : Guarded next (Calls c p s) (start c) as)
    (htidy : Guarded next (Tidy c p s) (start c) as)
    (h : exec next (start c) as = some n)
    (hdone : n.chan p s = [] ∧ n.chan s p = [] ∧ (n.proc s).subscriberCommands = [])
    (topic nodeUuid : Str) : Entered c p s n topic nodeUuid ↔ Wanted c p s n topic nodeUuid := by
  have hl : Linked c p s n := invariant (P := fun m => Linked c p s m)
    (fun m a m' hm ha hnext => hm.step hps ha.1 ha.2 hnext) (linked_start c p s)
    (hcalls.and htidy) h
  obtain ⟨hp, hs, hq⟩ := hdone
  rw [← mem_registered_done hs]
  constructor
  · exact hl.wanted topic nodeUuid
  · rintro ⟨x, hx, hv, h', hh, rfl, hhandles⟩
    rcases hl.due topic x hx hv h' hh hhandles with hk | ⟨regs, hregs, -⟩ | hann
    · exact hk
    · rw [hq] at hregs
      cases hregs
    · obtain ⟨ms₁, m, ms₂, hsplit, -⟩ := hann
      rw [hp] at hsplit
      cases ms₁ <;> cases hsplit

/-! ## Two runs -/

instance (c : Hosts ι) (p s : ι) (n : Net ι) (topic nodeUuid : Str) :
    Decidable (Wanted c p s n topic nodeUuid) := inferInstanceAs (Decidable (∃ x ∈ _, _ ∧ _))

instance (c : Hosts ι) (p s : ι) (n : Net ι) (gone topic nodeUuid : Str) :
    Decidable (WantedBeside c p s n gone topic nodeUuid) :=
  inferInstanceAs (Decidable (∃ x ∈ _, _ ∧ _))

instance (c : Hosts ι) (p s : ι) (n : Net ι) : ∀ a, Decidable (Calls c p s n a)
  | .act _ (.advertise ..) => inferInstanceAs (Decidable (_ ∧ _))
  | .act i (.unadvertise ..) => inferInstanceAs (Decidable (i = p))
  | .act _ (.subscribe ..) => inferInstanceAs (Decidable (_ ∧ _))
  | .act _ (.unsubscribe ..) => inferInstanceAs (Decidable (_ ∧ _))
  | .act _ (.applyCommand ..) => inferInstanceAs (Decidable (_ ∧ _ ∧ _))
  | .act _ (.recv ..) => isFalse id
  | .act _ (.heartbeat ..) => isFalse id
  | .act _ (.activity ..) => isFalse id
  | .deliver .. => inferInstanceAs (Decidable (_ ∨ _))
  | .lose .. => isFalse id

instance (c : Hosts ι) (p s : ι) (n : Net ι) : ∀ a, Decidable (Tidy c p s n a)
  | .act _ (.unadvertise ..) => inferInstanceAs (Decidable (∀ k ∈ _, _))
  | .act _ (.unsubscribe ..) => inferInstanceAs (Decidable (_ → ¬ _ = []))
  | .act _ (.applyCommand ..) => inferInstanceAs (Decidable (∀ r ∈ _, _ → _))
  | .act _ (.advertise ..) => isTrue trivial
  | .act _ (.subscribe ..) => isTrue trivial
  | .act _ (.recv ..) => isTrue trivial
  | .act _ (.heartbeat ..) => isTrue trivial
  | .act _ (.activity ..) => isTrue trivial
  | .deliver .. => isTrue trivial
  | .lose .. => isTrue trivial

/-- Two nodes of `5b` subscribe to what `4a` advertises. -/
def twoSubscribers : List (Action Bool) :=
  knownRun ++ [.act false (.subscribe (str "t") (str "n2") ⟨str "h2", str "n2", str "A"⟩),
    .act false (.subscribe (str "t") (str "n3") ⟨str "h3", str "n3", str "A"⟩)]

/-- The first node unsubscribes before the queue is drained. -/
def hastyRun : List (Action Bool) :=
  twoSubscribers ++ [.act false (.unsubscribe (str "t") (str "n2"))] ++
    List.replicate 3 (.act false (.applyCommand true)) ++
    List.replicate 6 (.deliver false true 0) ++ List.replicate 2 (.deliver true false 0)

/-- The first node unsubscribes when the queue is drained. -/
def patientRun : List (Action Bool) :=
  twoSubscribers ++ List.replicate 3 (.act false (.applyCommand true)) ++
   [.act false (.unsubscribe (str "t") (str "n2"))] ++
    List.replicate 6 (.deliver false true 0) ++ List.replicate 2 (.deliver true false 0)

theorem entered_iff_wanted_patient :
    let n := stateAfter patientRun
    Entered exampleHosts true false n (str "t") (str "n3") ↔
      Wanted exampleHosts true false n (str "t") (str "n3") :=
  entered_iff_wanted exampleHosts true false (by decide) patientRun (stateAfter patientRun)
    (by decide) (by decide) rfl (by decide) (str "t") (str "n3")

/-- The node that has unsubscribed is registered, and nothing is left to come. -/
theorem hastyRun_stale :
    let n := stateAfter hastyRun
    Guarded next (Calls exampleHosts true false) (start exampleHosts) hastyRun ∧
      exec next (start exampleHosts) hastyRun = some n ∧
      (n.chan true false = [] ∧ n.chan false true = [] ∧ (n.proc false).subscriberCommands = []) ∧
      Entered exampleHosts true false n (str "t") (str "n2") ∧
      ¬ Wanted exampleHosts true false n (str "t") (str "n2") := by
  refine ⟨by decide, rfl, by decide, ?_, by decide⟩
  have hk : str "n2" ∈ registered exampleHosts true false (stateAfter hastyRun) (str "t") := by
    decide
  exact (mem_registered_done rfl).mp hk

end Net
end RfTrans
