import RfTrans.Network.Healing
import RfTrans.Network.Links

/-!
# Which registrations a heartbeat round repairs

In a heartbeat round of two processes nothing is lost and no one is given up.  A
registration can come of it in three ways only: it was there, its command was still in
the queue, or the round tells the subscriber of a publisher that it did not know.  A
NEW_CONNECTION that was lost before is not sent again, because the subscriber knows its
publisher and the publisher's ADVERTISE is no news to it.

## Main definitions

* `Net.InRound` — the steps of a round.
* `Net.Entered`, `Queued`, `Unheard` — the three ways.
* `Net.Due` — one of them, or on the way: the round leaves it as it is.
* `Net.registrations_heal_iff`
-/

namespace RfTrans

open Exec TopicStorage MessageRuntime HandlerWrapper

variable {ι : Type} [DecidableEq ι]

/-- The registration of a node of `s` with a publisher of `p`. -/
def Hosts.registration (c : Hosts ι) (p s : ι) (x : MessagePublisherInfo) (nodeUuid : Str) :
    MessagePublisherInfo :=
  { x.received (c.uuid p) (c.name p) with
    processUuid := c.uuid s, ctrl := c.uuid p, nodeUuid := nodeUuid }

namespace Net

/-- The steps of a heartbeat round of `p` and `s`: heartbeats, what they trigger, and the
command queues; the SUB socket of `s` takes its commands. -/
def InRound (p s : ι) : Action ι → Prop
  | .act i (.heartbeat _ _) => i = p ∨ i = s
  | .act i (.applyCommand ok) => i = p ∨ i = s ∧ ok = true
  | .act _ _ => False
  | .deliver i j _ => i = p ∧ j = s ∨ i = s ∧ j = p
  | .lose _ _ => False

section Defs
variable (c : Hosts ι) (p s : ι) (n : Net ι) (topic nodeUuid : Str)

/-- `p` has an entry for the node of `s`. -/
def Entered : Prop :=
  ∃ e ∈ (n.proc p).remoteSubscribers.pubsOf topic (c.uuid s), e.nodeUuid = nodeUuid

/-- A NEW_CONNECTION for the node is in flight. -/
def Coming : Prop :=
  ∃ m ∈ n.chan s p, m.type = .newConnection ∧ (parsed m).topic = topic ∧
    (parsed m).processUuid = c.uuid s ∧ (parsed m).ctrl = c.uuid p ∧
    (parsed m).nodeUuid = nodeUuid

/-- A Subscribe command of `s` registers it with `p`. -/
def Queued : Prop :=
  ∃ regs, .subscribe topic regs ∈ (n.proc s).subscriberCommands ∧
    ∃ r ∈ regs, r.ctrl = c.uuid p ∧ r.nodeUuid = nodeUuid ∧
      Discovery.fits (c.datagram s .newConnection r) = true

/-- A publisher that `s` may see has an endpoint that `s` does not know, and the node has
a handler for it. -/
def Unheard : Prop :=
  ∃ x ∈ (n.proc p).discovery.knownPublishers.pubsOf topic (c.uuid p),
    Discovery.hidden x (c.sameHost p s) = false ∧
    Discovery.fits (c.datagram p .advertise x) = true ∧
    (∀ y ∈ (n.proc s).discovery.knownPublishers.pubsOf topic (c.uuid p),
      sameEndpoint y x = false) ∧
    ∃ h ∈ (n.proc s).localSubscribers.handlersOf topic, h.nodeUuid = nodeUuid ∧
      handles x.msgType h = true ∧
      Discovery.fits (c.datagram s .newConnection (c.registration p s x nodeUuid)) = true

/-- The node has a handler for a publisher of `p` that `s` may see. -/
def Wanted : Prop :=
  ∃ x ∈ (n.proc p).discovery.knownPublishers.pubsOf topic (c.uuid p),
    Discovery.hidden x (c.sameHost p s) = false ∧
    ∃ h ∈ (n.proc s).localSubscribers.handlersOf topic, h.nodeUuid = nodeUuid ∧
      handles x.msgType h = true

/-- The entry is there or will come. -/
def Due : Prop :=
  Entered c p s n topic nodeUuid ∨ Coming c p s n topic nodeUuid ∨
    Queued c p s n topic nodeUuid ∨ Unheard c p s n topic nodeUuid

end Defs

/-- In the middle of a round: the handlers of `s` and the publishers of `p` are those of
the start, and nothing else is in flight. -/
structure Round (c : Hosts ι) (p s : ι) (n₀ n : Net ι) : Prop where
  reachable : Reachable c n
  handlers : (n.proc s).localSubscribers = (n₀.proc s).localSubscribers
  own : ∀ t x, x ∈ (n.proc p).discovery.knownPublishers.pubsOf t (c.uuid p) ↔
    x ∈ (n₀.proc p).discovery.knownPublishers.pubsOf t (c.uuid p)
  toS : ∀ m ∈ n.chan p s, m.type = .heartbeat ∨ m.type = .newConnection ∨
    ∃ t, ∃ x ∈ (n₀.proc p).discovery.knownPublishers.pubsOf t (c.uuid p),
      m = c.datagram p .advertise x ∧ Discovery.fits m = true
  toP : ∀ m ∈ n.chan s p, m.type = .heartbeat ∨ m.type = .advertise ∨ m.type = .newConnection

section Steps
variable {c : Hosts ι} {p s : ι} {n₀ n n' : Net ι} {topic nodeUuid : Str}

theorem Reachable.step {a : Action ι} (h : Reachable c n) (hn : next n a = some n') :
    Reachable c n' := by
  obtain ⟨as, has⟩ := h
  exact ⟨as ++ [a], exec_trans has (by simpa using hn)⟩

omit [DecidableEq ι] in
/-- What counts for an entry is the same before and after a step. -/
theorem due_congr (hs : ∀ e, e ∈ (n'.proc p).remoteSubscribers.pubsOf topic (c.uuid s) ↔
      e ∈ (n.proc p).remoteSubscribers.pubsOf topic (c.uuid s))
    (hchan : Coming c p s n' topic nodeUuid ↔ Coming c p s n topic nodeUuid)
    (hq : (n'.proc s).subscriberCommands = (n.proc s).subscriberCommands)
    (hown : ∀ x, x ∈ (n'.proc p).discovery.knownPublishers.pubsOf topic (c.uuid p) ↔
      x ∈ (n.proc p).discovery.knownPublishers.pubsOf topic (c.uuid p))
    (hknown : ∀ x, x ∈ (n'.proc s).discovery.knownPublishers.pubsOf topic (c.uuid p) ↔
      x ∈ (n.proc s).discovery.knownPublishers.pubsOf topic (c.uuid p))
    (hl : (n'.proc s).localSubscribers = (n.proc s).localSubscribers) :
    Due c p s n' topic nodeUuid ↔ Due c p s n topic nodeUuid := by
  refine or_congr ?_ (or_congr hchan (or_congr ?_ ?_))
  · simp only [Entered, hs]
  · simp only [Queued, hq]
  · simp only [Unheard, hown, hknown, hl]

omit [DecidableEq ι] in
/-- Datagrams that register no one are put into the channel. -/
theorem coming_append {sent : List Msgs.Discovery} (hchan : n'.chan s p = n.chan s p ++ sent)
    (hsent : ∀ m ∈ sent, m.type ≠ .newConnection) :
    Coming c p s n' topic nodeUuid ↔ Coming c p s n topic nodeUuid := by
  simp only [Coming, hchan]
  constructor
  · rintro ⟨m, hm, hrest⟩
    rcases List.mem_append.mp hm with hm | hm
    · exact ⟨m, hm, hrest⟩
    · exact absurd hrest.1 (hsent m hm)
  · rintro ⟨m, hm, hrest⟩
    exact ⟨m, List.mem_append.mpr (.inl hm), hrest⟩

/-- Where `s` has subscribers, a step leaves what is due as it is. -/
def Keeps (c : Hosts ι) (p s : ι) (n₀ n n' : Net ι) (topic nodeUuid : Str) : Prop :=
  (n₀.proc s).localSubscribers.hasSubscriber topic = true →
    (Due c p s n' topic nodeUuid ↔ Due c p s n topic nodeUuid)

/-- The heartbeat of `p`. -/
theorem Round.beatP (hr : Round c p s n₀ n) (hps : p ≠ s) {now later : ℕ}
    (h : next n (.act p (.heartbeat now later)) = some n') :
    Round c p s n₀ n' ∧ Keeps c p s n₀ n n' topic nodeUuid := by
  have hn := hr.reachable.healthy
  obtain ⟨sent, hp, hs, hchan, hback⟩ := next_act hps h
  have hproc : n'.proc p = ((n.proc p).updateHeartbeat now later).1 :=
    (fst_snd_of_some hp).1.symm
  have hsent : sent = ((n.proc p).updateHeartbeat now later).2 := (fst_snd_of_some hp).2.symm
  have hknown : (n'.proc p).discovery.knownPublishers = (n.proc p).discovery.knownPublishers := by
    rw [hproc]
    exact known_heartbeat ..
  refine ⟨⟨hr.reachable.step h, by rw [hs]; exact hr.handlers, ?_, ?_, ?_⟩, fun _ => ?_⟩
  · intro t x
    rw [hknown]
    exact hr.own t x
  · intro m hm
    rw [hchan] at hm
    rcases List.mem_append.mp hm with hm | hm
    · exact hr.toS m hm
    · rw [hsent] at hm
      rcases mem_sent_heartbeat hm with ht | ⟨t, x, hx, hm⟩
      · exact .inl ht
      · obtain ⟨hmx, hfits⟩ := (Discovery.mem_sendMsg _ (.inl rfl)).mp hm
        rw [hn.announcement] at hmx hfits
        rw [hn.discoveryUuid] at hx
        exact .inr (.inr ⟨t, x, (hr.own t x).mp hx, hmx, hmx ▸ hfits⟩)
  · rw [hback]
    exact hr.toP
  · refine due_congr (fun e => ?_) ?_ (by rw [hs]) (fun x => by rw [hknown])
      (fun x => by rw [hs]) (by rw [hs])
    · rw [hproc, remoteSubscribers_heartbeat]
    · simp only [Coming, hback]

/-- The heartbeat of `s`. -/
theorem Round.beatS (hr : Round c p s n₀ n) (hps : p ≠ s) {now later : ℕ}
    (h : next n (.act s (.heartbeat now later)) = some n') :
    Round c p s n₀ n' ∧ Keeps c p s n₀ n n' topic nodeUuid := by
  obtain ⟨sent, hs, hp, hchan, hback⟩ := next_act hps.symm h
  have hproc : n'.proc s = ((n.proc s).updateHeartbeat now later).1 :=
    (fst_snd_of_some hs).1.symm
  have hsent : sent = ((n.proc s).updateHeartbeat now later).2 := (fst_snd_of_some hs).2.symm
  have hknown : (n'.proc s).discovery.knownPublishers = (n.proc s).discovery.knownPublishers := by
    rw [hproc]
    exact known_heartbeat ..
  have htypes : ∀ m ∈ sent, m.type = .heartbeat ∨ m.type = .advertise := by
    intro m hm
    rw [hsent] at hm
    rcases mem_sent_heartbeat hm with ht | ⟨t, x, -, hm⟩
    · exact .inl ht
    · rw [((Discovery.mem_sendMsg _ (.inl rfl)).mp hm).1]
      exact .inr rfl
  refine ⟨⟨hr.reachable.step h, ?_, ?_, ?_, ?_⟩, fun _ => ?_⟩
  · rw [hproc, updateHeartbeat_fst]
    exact hr.handlers
  · rw [hp]
    exact hr.own
  · rw [hback]
    exact hr.toS
  · intro m hm
    rw [hchan] at hm
    rcases List.mem_append.mp hm with hm | hm
    · exact hr.toP m hm
    · exact (htypes m hm).imp_right .inl
  · refine due_congr (fun e => by rw [hp]) (coming_append hchan fun m hm => ?_) ?_
      (fun x => by rw [hp]) (fun x => by rw [hknown]) ?_
    · rcases htypes m hm with ht | ht <;> simp [ht]
    · rw [hproc, updateHeartbeat_fst]
    · rw [hproc, updateHeartbeat_fst]

/-- `p` takes a command from its own queue. -/
theorem Round.applyP (hr : Round c p s n₀ n) (hps : p ≠ s) {ok : Bool}
    (h : next n (.act p (.applyCommand ok)) = some n') :
    Round c p s n₀ n' ∧ Keeps c p s n₀ n n' topic nodeUuid := by
  obtain ⟨sent, hp, hs, hchan, hback⟩ := next_act hps h
  obtain ⟨cmd, rest, sub, -, hproc⟩ := applyNextCommand_eq _ hp
  replace hproc : n'.proc p = _ := hproc
  refine ⟨⟨hr.reachable.step h, by rw [hs]; exact hr.handlers, ?_, ?_, ?_⟩, fun _ => ?_⟩
  · rw [hproc]
    exact hr.own
  · intro m hm
    rw [hchan] at hm
    rcases List.mem_append.mp hm with hm | hm
    · exact hr.toS m hm
    · obtain ⟨t, regs, rest, -, r, -, hm⟩ := mem_sent_applyNext hp hm
      obtain ⟨rfl, -⟩ := (hr.reachable.healthy.mem_registerNode p).mp hm
      exact .inr (.inl rfl)
  · rw [hback]
    exact hr.toP
  · refine due_congr (fun e => ?_) ?_ (by rw [hs]) (fun x => ?_) (fun x => by rw [hs])
      (by rw [hs])
    · rw [hproc]
    · simp only [Coming, hback]
    · rw [hproc]

/-- `s` takes a command: the registrations of a Subscribe are put into the channel. -/
theorem Round.applyS (hr : Round c p s n₀ n) (hps : p ≠ s)
    (h : next n (.act s (.applyCommand true)) = some n') :
    Round c p s n₀ n' ∧ Keeps c p s n₀ n n' topic nodeUuid := by
  have hn := hr.reachable.healthy
  have hqueue := (hr.reachable.orderly s).queue
  obtain ⟨sent, hs, hp, hchan, hback⟩ := next_act hps.symm h
  obtain ⟨cmd, rest, sub, hq, hproc⟩ := applyNextCommand_eq _ hs
  replace hproc : n'.proc s = _ := hproc
  have hcommands : (n'.proc s).subscriberCommands = rest := by rw [hproc]
  have hunheard : Unheard c p s n' topic nodeUuid ↔ Unheard c p s n topic nodeUuid := by
    simp only [Unheard, hp, hproc]
  refine ⟨⟨hr.reachable.step h, ?_, ?_, ?_, ?_⟩, fun hsub => ?_⟩
  · rw [hproc]
    exact hr.handlers
  · rw [hp]
    exact hr.own
  · rw [hback]
    exact hr.toS
  · intro m hm
    rw [hchan] at hm
    rcases List.mem_append.mp hm with hm | hm
    · exact hr.toP m hm
    · obtain ⟨t, regs, rest, -, r, -, hm⟩ := mem_sent_applyNext hs hm
      obtain ⟨rfl, -⟩ := (hn.mem_registerNode s).mp hm
      exact .inr (.inr rfl)
  constructor
  · rintro (he | ⟨m, hm, ht, htopic, hu, hctrl, hnode⟩ | ⟨regs, hregs, hrest⟩ | hu)
    · exact .inl (by rwa [Entered, hp] at he)
    · rw [hchan] at hm
      rcases List.mem_append.mp hm with hm | hm
      · exact .inr (.inl ⟨m, hm, ht, htopic, hu, hctrl, hnode⟩)
      · -- the registration is one of the command that was taken
        obtain ⟨t, regs, rest', hq', r, hreg, hm⟩ := mem_sent_applyNext hs hm
        obtain ⟨rfl, hfits⟩ := (hn.mem_registerNode s).mp hm
        rw [parsed_datagram] at htopic hctrl hnode
        have hmem : SubscriberCommand.subscribe t regs ∈ (n.proc s).subscriberCommands := by
          rw [hq']
          exact List.mem_cons_self
        obtain rfl : t = topic := (hqueue t regs hmem r hreg).symm.trans htopic
        exact .inr (.inr (.inl ⟨regs, hmem, r, hreg, hctrl, hnode, hfits⟩))
    · rw [hcommands] at hregs
      exact .inr (.inr (.inl ⟨regs, by rw [hq]; exact List.mem_cons_of_mem _ hregs, hrest⟩))
    · exact .inr (.inr (.inr (hunheard.mp hu)))
  · rintro (he | ⟨m, hm, hrest⟩ | ⟨regs, hregs, r, hreg, hctrl, hnode, hfits⟩ | hu)
    · exact .inl (by rwa [Entered, hp])
    · exact .inr (.inl ⟨m, by rw [hchan]; exact List.mem_append.mpr (.inl hm), hrest⟩)
    · rw [hq] at hregs
      rcases List.mem_cons.mp hregs with rfl | hregs
      · have hmem : SubscriberCommand.subscribe topic regs ∈ (n.proc s).subscriberCommands := by
          rw [hq]
          exact List.mem_cons_self
        have hsent := sent_applyNext hq (hr.handlers ▸ hsub) hs
        refine .inr (.inl ⟨c.datagram s .newConnection r, ?_, rfl, ?_, ?_, ?_, ?_⟩)
        · rw [hchan, hsent]
          exact List.mem_append.mpr (.inr (List.mem_flatMap.mpr
            ⟨r, hreg, (hn.mem_registerNode s).mpr ⟨rfl, hfits⟩⟩))
        · rw [parsed_datagram]
          exact hqueue topic regs hmem r hreg
        · rw [parsed_datagram]
          rfl
        · rw [parsed_datagram]
          exact hctrl
        · rw [parsed_datagram]
          exact hnode
      · exact .inr (.inr (.inl ⟨regs, by rwa [hcommands], r, hreg, hctrl, hnode, hfits⟩))
    · exact .inr (.inr (.inr (hunheard.mpr hu)))

/-- A datagram reaches `p`: a NEW_CONNECTION makes the entry, or finds it. -/
theorem Round.deliverP (hr : Round c p s n₀ n) (hps : p ≠ s) {now : ℕ}
    (h : next n (.deliver s p now) = some n') :
    Round c p s n₀ n' ∧ Keeps c p s n₀ n n' topic nodeUuid := by
  have hn := hr.reachable.healthy
  have hsound := hn.sound p
  obtain ⟨m, rest, sent, hm, hp, hs, hchan, hback⟩ := next_deliver hps.symm h
  have htypes := hr.toP m (by rw [hm]; exact List.mem_cons_self)
  have hsent : sent = [] := by
    apply sent_perform_recv hp
    rcases htypes with ht | ht | ht <;> simp [ht]
  rw [hsent, List.append_nil] at hback
  have hdrops : ∀ t q u, (n.proc p).drops (.recv (n.proc s).discovery.hostAddr m now) t q u =
      false := by
    intro t q u
    rcases htypes with ht | ht | ht <;> simp [MessageRuntime.drops, ht]
  have hends : ∀ t q u, (n.proc p).ends (.recv (n.proc s).discovery.hostAddr m now) t q u =
      false := by
    intro t q u
    rcases htypes with ht | ht | ht <;> simp [MessageRuntime.ends, ht]
  have hwipes : ∀ q, (n.proc p).wipes (.recv (n.proc s).discovery.hostAddr m now) q = false := by
    intro q
    rcases htypes with ht | ht | ht <;> simp [MessageRuntime.wipes, ht]
  have hown : ∀ t x, x ∈ (n'.proc p).discovery.knownPublishers.pubsOf t (c.uuid p) ↔
      x ∈ (n.proc p).discovery.knownPublishers.pubsOf t (c.uuid p) := by
    intro t x
    rw [(knownAfter_perform hsound.running hp).mem]
    constructor
    · rintro (⟨hx, -⟩ | ⟨hadds, -, -, hq⟩)
      · exact hx
      · rw [← hn.uuid p] at hq
        exact absurd hq.symm (processUuid_adds hsound.running.uuid hsound.nonempty hadds)
    · exact fun hx => .inl ⟨hx, hdrops _ _ _⟩
  have hafter := registrationsAfter_perform hsound.running hp
  have hentered : Entered c p s n topic nodeUuid → Entered c p s n' topic nodeUuid := by
    rintro ⟨e, he, hnode⟩
    exact ⟨e, (hafter _ _ _).mpr (.inl ⟨he, hends _ _ _, hwipes _⟩), hnode⟩
  refine ⟨⟨hr.reachable.step h, by rw [hs]; exact hr.handlers, ?_, ?_, ?_⟩, fun _ => ?_⟩
  · exact fun t x => (hown t x).trans (hr.own t x)
  · rw [hback]
    exact hr.toS
  · intro m' hm'
    rw [hchan] at hm'
    exact hr.toP m' (by rw [hm]; exact List.mem_cons_of_mem _ hm')
  have hqueued : Queued c p s n' topic nodeUuid ↔ Queued c p s n topic nodeUuid := by
    simp only [Queued, hs]
  have hunheard : Unheard c p s n' topic nodeUuid ↔ Unheard c p s n topic nodeUuid := by
    simp only [Unheard, hs, hown]
  constructor
  · rintro (⟨e, he, hnode⟩ | ⟨m', hm', hrest⟩ | hq | hu)
    · rcases (hafter _ _ _).mp he with ⟨he, -⟩ | ⟨hreg, -, htopic, hq⟩
      · exact .inl ⟨e, he, hnode⟩
      · -- the entry is that of the datagram
        simp only [registers] at hreg
        split at hreg
        case isFalse => cases hreg
        case isTrue hm' =>
          obtain rfl := Option.some.inj hreg
          refine .inr (.inl ⟨m, by rw [hm]; exact List.mem_cons_self, hm'.2.1, htopic.symm,
            hq.symm, ?_, hnode⟩)
          rw [hm'.2.2, hn.uuid]
    · rw [hchan] at hm'
      exact .inr (.inl ⟨m', by rw [hm]; exact List.mem_cons_of_mem _ hm', hrest⟩)
    · exact .inr (.inr (.inl (hqueued.mp hq)))
    · exact .inr (.inr (.inr (hunheard.mp hu)))
  · rintro (he | ⟨m', hm', ht, htopic, hu, hctrl, hnode⟩ | hq | hu)
    · exact .inl (hentered he)
    · rw [hm] at hm'
      rcases List.mem_cons.mp hm' with rfl | hm'
      · left
        have hreg : (n.proc p).registers (.recv (n.proc s).discovery.hostAddr m' now) =
            some (parsed m') := by
          have hsender : m'.processUuid = c.uuid s := by
            rcases Discovery.processUuid_parse_or (π := MessagePublisherInfo) m' with heq | heq
            · exact heq.symm.trans hu
            · exact absurd (hu.symm.trans heq) (c.uuid_ne s)
          have hother : m'.processUuid ≠ (n.proc p).discovery.processUuid := by
            rw [hsender, hn.discoveryUuid]
            exact fun heq => hps (c.uuid_inj heq.symm)
          simp only [registers]
          rw [if_pos ⟨hother, ht, hctrl.trans (hn.uuid p).symm⟩]
        by_cases hadd : ((n.proc p).remoteSubscribers.addPublisher (parsed m')).2 = true
        · exact ⟨parsed m', (hafter _ _ _).mpr (.inr ⟨hreg, hadd, htopic.symm, hu.symm⟩), hnode⟩
        · rw [addPublisher_snd] at hadd
          push Not at hadd
          obtain ⟨e, he, hsame⟩ := hadd
          have he' : e ∈ (n.proc p).remoteSubscribers.pubsOf topic (c.uuid s) := by
            rw [← htopic, ← hu]
            exact he
          simp only [sameEndpoint, decide_eq_true_eq] at hsame
          exact hentered ⟨e, he', hsame.2.trans hnode⟩
      · exact .inr (.inl ⟨m', by rwa [hchan], ht, htopic, hu, hctrl, hnode⟩)
    · exact .inr (.inr (.inl (hqueued.mpr hq)))
    · exact .inr (.inr (.inr (hunheard.mpr hu)))

/-- What `s` adds for an ADVERTISE of `p`. -/
theorem Round.adds_datagram (hr : Round c p s n₀ n) (hps : p ≠ s) {t : Str}
    {x : MessagePublisherInfo}
    (hx : x ∈ (n₀.proc p).discovery.knownPublishers.pubsOf t (c.uuid p)) (now : ℕ) :
    (n.proc s).adds (.recv (n.proc p).discovery.hostAddr (c.datagram p .advertise x) now) =
      if Discovery.hidden x (c.sameHost p s) = false then
        some (x.received (c.uuid p) (c.name p)) else none := by
  have hn := hr.reachable.healthy
  have hheard := heard_announcement (hn.sound p) (hn.sound s).running
    (by rw [hn.uuid, hn.uuid]; exact fun heq => hps (c.uuid_inj heq))
    (by rw [hn.uuid]; exact (hr.own t x).mpr hx) (c.hostAddr p)
  rw [hn.announcement, hn.isSenderLocal, hn.uuid, hn.name] at hheard
  rw [hn.hostAddr]
  exact hheard

omit [DecidableEq ι] in
/-- The registrations that `s` makes with a publisher it hears of. -/
theorem Healthy.mem_registrationsFor (hn : Healthy c n) {x r : MessagePublisherInfo} :
    r ∈ (n.proc s).registrationsFor (x.received (c.uuid p) (c.name p)) ↔
      ∃ h ∈ (n.proc s).localSubscribers.handlersOf x.topic, handles x.msgType h = true ∧
        r = c.registration p s x h.nodeUuid := by
  have hmake : ∀ u, { x.received (c.uuid p) (c.name p) with
      processUuid := (n.proc s).processUuid
      ctrl := (x.received (c.uuid p) (c.name p)).processUuid
      nodeUuid := u } = c.registration p s x u := by
    intro u
    rw [hn.uuid]
    rfl
  simp only [registrationsFor, getNodeUuids, hmake, List.mem_map, List.mem_filter]
  constructor
  · rintro ⟨u, ⟨h, ⟨hh, hhandles⟩, rfl⟩, rfl⟩
    exact ⟨h, hh, hhandles, rfl⟩
  · rintro ⟨h, hh, hhandles, rfl⟩
    exact ⟨h.nodeUuid, ⟨h, ⟨hh, hhandles⟩, rfl⟩, rfl⟩

/-- An ADVERTISE is news to `s`: the commands for it are queued. -/
theorem Round.news (hr : Round c p s n₀ n) (hps : p ≠ s)
    (hsub : (n₀.proc s).localSubscribers.hasSubscriber topic = true)
    {t : Str} {x : MessagePublisherInfo}
    (hx : x ∈ (n₀.proc p).discovery.knownPublishers.pubsOf t (c.uuid p))
    (hfits : Discovery.fits (c.datagram p .advertise x) = true)
    (hvisible : Discovery.hidden x (c.sameHost p s) = false)
    (hnew : ((n.proc s).discovery.knownPublishers.addPublisher
      (x.received (c.uuid p) (c.name p))).2 = true)
    (hcommands : (n'.proc s).subscriberCommands = (n.proc s).subscriberCommands ++
      (n.proc s).reaction (x.received (c.uuid p) (c.name p)))
    (hknown : ∀ t y, y ∈ (n'.proc s).discovery.knownPublishers.pubsOf t (c.uuid p) ↔
      y ∈ (n.proc s).discovery.knownPublishers.pubsOf t (c.uuid p) ∨
        t = x.topic ∧ y = x.received (c.uuid p) (c.name p))
    (hp : n'.proc p = n.proc p) (hl : (n'.proc s).localSubscribers = (n.proc s).localSubscribers)
    (hback : n'.chan s p = n.chan s p) :
    Due c p s n' topic nodeUuid ↔ Due c p s n topic nodeUuid := by
  have hn := hr.reachable.healthy
  have hentered : Entered c p s n' topic nodeUuid ↔ Entered c p s n topic nodeUuid := by
    simp only [Entered, hp]
  have hcoming : Coming c p s n' topic nodeUuid ↔ Coming c p s n topic nodeUuid := by
    simp only [Coming, hback]
  have hxown := (hr.own t x).mpr hx
  have hxt : x.topic = t := ((hn.sound p).wellFormed.filed hxown).1
  constructor
  · rintro (he | hc | ⟨regs, hregs, r, hreg, hctrl, hnode, hfitsr⟩ | hu)
    · exact .inl (hentered.mp he)
    · exact .inr (.inl (hcoming.mp hc))
    · rw [hcommands] at hregs
      rcases List.mem_append.mp hregs with hregs | hregs
      · exact .inr (.inr (.inl ⟨regs, hregs, r, hreg, hctrl, hnode, hfitsr⟩))
      · -- the command is for this publisher, which was not known
        rcases mem_reaction hregs with hno | ⟨-, heq⟩
        · exact absurd rfl (hno topic regs)
        obtain ⟨htopic, rfl⟩ := SubscriberCommand.subscribe.inj heq
        obtain ⟨h, hh, hhandles, rfl⟩ := hn.mem_registrationsFor.mp hreg
        obtain rfl : topic = x.topic := htopic
        obtain rfl : h.nodeUuid = nodeUuid := hnode
        refine .inr (.inr (.inr ⟨x, by rw [hxt]; exact hxown, hvisible, hfits, fun y hy => ?_, h,
          hh,
          rfl, hhandles, hfitsr⟩))
        exact Bool.eq_false_iff.mpr ((addPublisher_snd _).mp hnew y hy)
    · obtain ⟨x₁, hx₁, hv, hf, hunknown, hrest⟩ := hu
      rw [hp] at hx₁
      rw [hl] at hrest
      refine .inr (.inr (.inr ⟨x₁, hx₁, hv, hf, fun y hy => ?_, hrest⟩))
      exact hunknown y ((hknown topic y).mpr (.inl hy))
  · rintro (he | hc | ⟨regs, hregs, hrest⟩ |
      ⟨x₁, hx₁, hv, hf, hunknown, h, hh, hnode, hhandles, hfitsr⟩)
    · exact .inl (hentered.mpr he)
    · exact .inr (.inl (hcoming.mpr hc))
    · refine .inr (.inr (.inl ⟨regs, ?_, hrest⟩))
      rw [hcommands]
      exact List.mem_append.mpr (.inl hregs)
    · by_cases hstill : ∀ y ∈ (n'.proc s).discovery.knownPublishers.pubsOf topic (c.uuid p),
          sameEndpoint y x₁ = false
      · exact .inr (.inr (.inr ⟨x₁, by rwa [hp], hv, hf, hstill, h, by rwa [hl], hnode, hhandles,
          hfitsr⟩))
      · -- the publisher is the one that `s` has just heard of
        push Not at hstill
        obtain ⟨y, hy, hsame⟩ := hstill
        rcases (hknown topic y).mp hy with hy | ⟨htopic, rfl⟩
        · exact absurd (hunknown y hy) hsame
        have hsame' : sameEndpoint x x₁ = true := Bool.eq_true_of_not_eq_false hsame
        have hxtopic : x ∈ (n.proc p).discovery.knownPublishers.pubsOf topic (c.uuid p) := by
          rw [htopic, hxt]
          exact hxown
        obtain rfl := (hn.sound p).wellFormed.eq_of_sameEndpoint hxtopic hx₁ hsame'
        obtain rfl := htopic
        refine .inr (.inr (.inl ⟨(n.proc s).registrationsFor (x.received (c.uuid p) (c.name p)), ?_,
          c.registration p s x nodeUuid, ?_, rfl, rfl, hfitsr⟩))
        · rw [hcommands]
          refine List.mem_append.mpr (.inr ?_)
          have hsub' : (n.proc s).localSubscribers.hasSubscriber
              (x.received (c.uuid p) (c.name p)).topic = true := by
            rw [hr.handlers]
            exact hsub
          have hother :
              (x.received (c.uuid p) (c.name p)).processUuid ≠ (n.proc s).processUuid := by
            rw [hn.uuid]
            exact fun heq => hps (c.uuid_inj heq)
          exact subscribe_mem_reaction hsub' hother
        · exact hn.mem_registrationsFor.mpr ⟨h, hh, hhandles, by rw [hnode]⟩

/-- What `s` knows and queues after a datagram of the round. -/
theorem Round.received (hr : Round c p s n₀ n) (hps : p ≠ s) {m : Msgs.Discovery} {now : ℕ}
    (hm : m ∈ n.chan p s) {rt : MessageRuntime} {sent : List Msgs.Discovery}
    (h : (n.proc s).perform (.recv (n.proc p).discovery.hostAddr m now) = some (rt, sent)) :
    (rt.subscriberCommands = (n.proc s).subscriberCommands ∧
      ∀ t q y, y ∈ rt.discovery.knownPublishers.pubsOf t q ↔
        y ∈ (n.proc s).discovery.knownPublishers.pubsOf t q) ∨
    ∃ t, ∃ x ∈ (n₀.proc p).discovery.knownPublishers.pubsOf t (c.uuid p),
      m = c.datagram p .advertise x ∧ Discovery.fits m = true ∧
      Discovery.hidden x (c.sameHost p s) = false ∧
      ((n.proc s).discovery.knownPublishers.addPublisher
        (x.received (c.uuid p) (c.name p))).2 = true ∧
      rt.subscriberCommands = (n.proc s).subscriberCommands ++
        (n.proc s).reaction (x.received (c.uuid p) (c.name p)) ∧
      ∀ t y, y ∈ rt.discovery.knownPublishers.pubsOf t (c.uuid p) ↔
        y ∈ (n.proc s).discovery.knownPublishers.pubsOf t (c.uuid p) ∨
          t = x.topic ∧ y = x.received (c.uuid p) (c.name p) := by
  have hn := hr.reachable.healthy
  have hrun := (hn.sound s).running
  have hfst : ((n.proc s).recvDiscoveryMsg (n.proc p).discovery.hostAddr m now).1 = rt :=
    (fst_snd_of_some h).1
  have hcommands := commands_recv hrun (n.proc p).discovery.hostAddr m now
  have hknown := (knownAfter_perform hrun h).mem
  rw [hfst] at hcommands
  have hdrops : ∀ t q u, (n.proc s).drops (.recv (n.proc p).discovery.hostAddr m now) t q u =
      false := by
    intro t q u
    rcases hr.toS m hm with ht | ht | ⟨_, x, -, rfl, -⟩
    · simp [MessageRuntime.drops, ht]
    · simp [MessageRuntime.drops, ht]
    · simp [MessageRuntime.drops, Hosts.datagram, Discovery.announcement]
  have hquiet : (n.proc s).adds (.recv (n.proc p).discovery.hostAddr m now) = none →
      rt.subscriberCommands = (n.proc s).subscriberCommands ∧
      ∀ t q y, y ∈ rt.discovery.knownPublishers.pubsOf t q ↔
        y ∈ (n.proc s).discovery.knownPublishers.pubsOf t q := by
    intro hnone
    refine ⟨by rw [hcommands, hnone]; simp, fun t q y => ?_⟩
    rw [hknown, hnone]
    simp [hdrops]
  rcases hr.toS m hm with ht | ht | ⟨t, x, hx, rfl, hfits⟩
  · exact .inl (hquiet (by simp [adds, ht]))
  · exact .inl (hquiet (by simp [adds, ht]))
  · have hadds := hr.adds_datagram hps hx now
    by_cases hvisible : Discovery.hidden x (c.sameHost p s) = false
    case neg =>
      rw [if_neg hvisible] at hadds
      exact .inl (hquiet hadds)
    rw [if_pos hvisible] at hadds
    cases hnew : ((n.proc s).discovery.knownPublishers.addPublisher
        (x.received (c.uuid p) (c.name p))).2 with
    | false =>
        left
        refine ⟨by rw [hcommands, hadds]; simp [hnew], fun t q y => ?_⟩
        rw [hknown]
        constructor
        · rintro (⟨hy, -⟩ | ⟨hy, hadded, -⟩)
          · exact hy
          · rw [hadds] at hy
            rw [← Option.some.inj hy, hnew] at hadded
            cases hadded
        · exact fun hy => .inl ⟨hy, hdrops _ _ _⟩
    | true =>
        right
        refine ⟨t, x, hx, rfl, hfits, hvisible, hnew, by rw [hcommands, hadds]; simp [hnew],
          fun t' y => ?_⟩
        rw [hknown]
        constructor
        · rintro (⟨hy, -⟩ | ⟨hy, -, htopic, -⟩)
          · exact .inl hy
          · rw [hadds] at hy
            obtain rfl := Option.some.inj hy
            exact .inr ⟨htopic, rfl⟩
        · rintro (hy | ⟨rfl, rfl⟩)
          · exact .inl ⟨hy, hdrops _ _ _⟩
          · exact .inr ⟨hadds, hnew, rfl, rfl⟩

/-- A datagram reaches `s`. -/
theorem Round.deliverS (hr : Round c p s n₀ n) (hps : p ≠ s) {now : ℕ}
    (h : next n (.deliver p s now) = some n') :
    Round c p s n₀ n' ∧ Keeps c p s n₀ n n' topic nodeUuid := by
  obtain ⟨m, rest, sent, hm, hs, hp, hchan, hback⟩ := next_deliver hps h
  have hmem : m ∈ n.chan p s := by
    rw [hm]
    exact List.mem_cons_self
  have hsent : sent = [] := by
    apply sent_perform_recv hs
    rcases hr.toS m hmem with ht | ht | ⟨_, x, -, rfl, -⟩
    · simp [ht]
    · simp [ht]
    · simp [Hosts.datagram, Discovery.announcement]
  rw [hsent, List.append_nil] at hback
  have hl : (n'.proc s).localSubscribers = (n.proc s).localSubscribers :=
    localSubscribers_perform hs
  refine ⟨⟨hr.reachable.step h, hl.trans hr.handlers, by rw [hp]; exact hr.own, ?_, ?_⟩,
    fun hsub => ?_⟩
  · intro m' hm'
    rw [hchan] at hm'
    exact hr.toS m' (by rw [hm]; exact List.mem_cons_of_mem _ hm')
  · rw [hback]
    exact hr.toP
  · rcases hr.received hps hmem hs with ⟨hcommands, hknown⟩ |
      ⟨t, x, hx, rfl, hfits, hvisible, hnew, hcommands, hknown⟩
    · exact due_congr (fun e => by rw [hp]) (by simp only [Coming, hback]) hcommands
        (fun x => by rw [hp]) (fun y => hknown _ _ y) hl
    · exact hr.news hps hsub hx hfits hvisible hnew hcommands hknown hp hl hback

/-- **One step of a round.** -/
theorem Round.step (hr : Round c p s n₀ n) (hps : p ≠ s) {a : Action ι}
    (ha : InRound p s a) (h : next n a = some n') :
    Round c p s n₀ n' ∧ Keeps c p s n₀ n n' topic nodeUuid := by
  cases a with
  | act i b =>
      cases b with
      | heartbeat now later =>
          rcases ha with rfl | rfl
          · exact hr.beatP hps h
          · exact hr.beatS hps h
      | applyCommand ok =>
          rcases ha with rfl | ⟨rfl, rfl⟩
          · exact hr.applyP hps h
          · exact hr.applyS hps h
      | _ => exact ha.elim
  | deliver i j now =>
      rcases ha with ⟨rfl, rfl⟩ | ⟨rfl, rfl⟩
      · exact hr.deliverS hps h
      · exact hr.deliverP hps h
  | lose i j => exact ha.elim

/-! ## Whole rounds -/

theorem round_refl (hn : Reachable c n₀) (hp : n₀.chan p s = []) (hs : n₀.chan s p = []) :
    Round c p s n₀ n₀ :=
  ⟨hn, rfl, fun _ _ => Iff.rfl, by simp [hp], by simp [hs]⟩

/-- Once `p` has sent its heartbeat, `s` knows the endpoints it may see or will be told. -/
def Told (c : Hosts ι) (p s : ι) (n₀ n : Net ι) : Prop :=
  ∀ t, ∀ x ∈ (n₀.proc p).discovery.knownPublishers.pubsOf t (c.uuid p),
    Discovery.hidden x (c.sameHost p s) = false →
    Discovery.fits (c.datagram p .advertise x) = true →
    c.datagram p .advertise x ∈ n.chan p s ∨
      ∃ y ∈ (n.proc s).discovery.knownPublishers.pubsOf t (c.uuid p), sameEndpoint y x = true

/-- The heartbeat tells everything. -/
theorem Round.told (hr : Round c p s n₀ n) (hps : p ≠ s) {now later : ℕ}
    (hdue : ¬ now < (n.proc p).discovery.timeNextHeartbeat)
    (h : next n (.act p (.heartbeat now later)) = some n') : Told c p s n₀ n' := by
  have hn := hr.reachable.healthy
  obtain ⟨sent, hp, -, hchan, -⟩ := next_act hps h
  have hsent : sent = ((n.proc p).updateHeartbeat now later).2 := (fst_snd_of_some hp).2.symm
  intro t x hx hvisible hfits
  left
  rw [hchan, hsent]
  refine List.mem_append.mpr (.inr (Discovery.mem_sent_updateHeartbeat.mpr
    ⟨hdue, .inr (Discovery.mem_readvertise.mpr ⟨t, x, ?_, ?_, ?_⟩)⟩))
  · rw [hn.discoveryUuid]
    exact (hr.own t x).mpr hx
  · intro hscope
    simp [Discovery.hidden, hscope] at hvisible
  · rw [Discovery.mem_sendMsg _ (.inl rfl), hn.announcement]
    exact ⟨rfl, hfits⟩

omit [DecidableEq ι] in
/-- Nothing changes what `s` knows or is told. -/
theorem Told.mono (ht : Told c p s n₀ n) (hchan : ∀ m ∈ n.chan p s, m ∈ n'.chan p s)
    (hknown : ∀ t y, y ∈ (n.proc s).discovery.knownPublishers.pubsOf t (c.uuid p) →
      y ∈ (n'.proc s).discovery.knownPublishers.pubsOf t (c.uuid p)) : Told c p s n₀ n' := by
  intro t x hx hvisible hfits
  rcases ht t x hx hvisible hfits with hm | ⟨y, hy, hsame⟩
  · exact .inl (hchan _ hm)
  · exact .inr ⟨y, hknown t y hy, hsame⟩

theorem Told.deliverS (ht : Told c p s n₀ n) (hr : Round c p s n₀ n) (hps : p ≠ s) {now : ℕ}
    (h : next n (.deliver p s now) = some n') : Told c p s n₀ n' := by
  have hn := hr.reachable.healthy
  obtain ⟨m, rest, sent, hm, hs, hp, hchan, hback⟩ := next_deliver hps h
  have hmem : m ∈ n.chan p s := by
    rw [hm]
    exact List.mem_cons_self
  have hkept : ∀ t y, y ∈ (n.proc s).discovery.knownPublishers.pubsOf t (c.uuid p) →
      y ∈ (n'.proc s).discovery.knownPublishers.pubsOf t (c.uuid p) := by
    rcases hr.received hps hmem hs with ⟨-, hknown⟩ | ⟨_, _, -, -, -, -, -, -, hknown⟩
    · exact fun t y hy => (hknown t _ y).mpr hy
    · exact fun t y hy => (hknown t y).mpr (.inl hy)
  intro t x hx hvisible hfits
  rcases ht t x hx hvisible hfits with hx' | ⟨y, hy, hsame⟩
  · rw [hm] at hx'
    rcases List.mem_cons.mp hx' with rfl | hx'
    · -- this is the datagram that arrives
      right
      have hadds := hr.adds_datagram hps hx now
      rw [if_pos hvisible] at hadds
      have hknown := (knownAfter_perform (hn.sound s).running hs).mem
      have htopic : x.topic = t := ((hn.sound p).wellFormed.filed ((hr.own t x).mpr hx)).1
      by_cases hnew : ((n.proc s).discovery.knownPublishers.addPublisher
          (x.received (c.uuid p) (c.name p))).2 = true
      · refine ⟨x.received (c.uuid p) (c.name p), ?_, ?_⟩
        · exact (hknown _ _ _).mpr (.inr ⟨hadds, hnew, htopic.symm, rfl⟩)
        · exact decide_eq_true ⟨rfl, rfl⟩
      · rw [addPublisher_snd] at hnew
        push Not at hnew
        obtain ⟨y, hy, hsame⟩ := hnew
        exact ⟨y, hkept t y (htopic ▸ hy), hsame⟩
    · exact .inl (by rwa [hchan])
  · exact .inr ⟨y, hkept t y hy, hsame⟩

theorem Told.step (ht : Told c p s n₀ n) (hr : Round c p s n₀ n) (hps : p ≠ s) {a : Action ι}
    (ha : InRound p s a) (h : next n a = some n') : Told c p s n₀ n' := by
  cases a with
  | act i b =>
      cases b with
      | heartbeat now later =>
          rcases ha with rfl | rfl
          · obtain ⟨sent, -, hs, hchan, -⟩ := next_act hps h
            exact ht.mono (fun m hm => hchan ▸ List.mem_append.mpr (.inl hm)) (by simp [hs])
          · obtain ⟨sent, hs, -, -, hback⟩ := next_act hps.symm h
            have hproc : ((n.proc i).updateHeartbeat now later).1 = n'.proc i :=
              (fst_snd_of_some hs).1
            refine ht.mono (fun m hm => hback ▸ hm) fun t y hy => ?_
            rwa [← hproc, known_heartbeat]
      | applyCommand ok =>
          rcases ha with rfl | ⟨rfl, rfl⟩
          · obtain ⟨sent, -, hs, hchan, -⟩ := next_act hps h
            exact ht.mono (fun m hm => hchan ▸ List.mem_append.mpr (.inl hm)) (by simp [hs])
          · obtain ⟨sent, hs, -, -, hback⟩ := next_act hps.symm h
            obtain ⟨cmd, rest, sub, -, hproc⟩ := applyNextCommand_eq _ hs
            replace hproc : n'.proc i = _ := hproc
            exact ht.mono (fun m hm => hback ▸ hm) (by simp [hproc])
      | _ => exact ha.elim
  | deliver i j now =>
      rcases ha with ⟨rfl, rfl⟩ | ⟨rfl, rfl⟩
      · exact ht.deliverS hr hps h
      · obtain ⟨m, rest, sent, -, -, hs, -, hback⟩ := next_deliver hps.symm h
        exact ht.mono (fun m hm => hback ▸ List.mem_append.mpr (.inl hm)) (by simp [hs])
  | lose i j => exact ha.elim

theorem Round.wanted_iff (hr : Round c p s n₀ n) :
    Wanted c p s n topic nodeUuid ↔ Wanted c p s n₀ topic nodeUuid := by
  simp only [Wanted, hr.own, hr.handlers]

/-- Where nothing is in flight and the queue is empty, what is due is there. -/
theorem due_done (ht : Told c p s n₀ n) (hr : Round c p s n₀ n) (hp : n.chan p s = [])
    (hs : n.chan s p = []) (hq : (n.proc s).subscriberCommands = []) :
    Due c p s n topic nodeUuid ↔ Entered c p s n topic nodeUuid := by
  constructor
  · rintro (he | ⟨m, hm, -⟩ | ⟨regs, hregs, -⟩ | ⟨x, hx, hvisible, hfits, hunknown, -⟩)
    · exact he
    · rw [hs] at hm
      cases hm
    · rw [hq] at hregs
      cases hregs
    · rcases ht topic x ((hr.own _ _).mp hx) hvisible hfits with hm | ⟨y, hy, hsame⟩
      · rw [hp] at hm
        cases hm
      · rw [hunknown y hy] at hsame
        cases hsame
  · exact .inl

end Steps

/-- **A heartbeat round repairs registrations** exactly where they were there, were in
the queue of `s`, or are with a publisher that `s` does not know. -/
theorem registrations_heal_iff (c : Hosts ι) (p s : ι) (hps : p ≠ s) (n₀ n₁ n : Net ι)
    (hn : Reachable c n₀) (hquiet : n₀.chan p s = [] ∧ n₀.chan s p = [])
    (before after : List (Action ι)) (now later : ℕ)
    (hround : ∀ a ∈ before ++ .act p (.heartbeat now later) :: after, InRound p s a)
    (hbefore : exec next n₀ before = some n₁)
    (hdue : ¬ now < (n₁.proc p).discovery.timeNextHeartbeat)
    (h : exec next n₁ (.act p (.heartbeat now later) :: after) = some n)
    (hdone : n.chan p s = [] ∧ n.chan s p = [] ∧ (n.proc s).subscriberCommands = []) :
    (∀ topic nodeUuid, Wanted c p s n topic nodeUuid → Entered c p s n topic nodeUuid) ↔
      ∀ topic nodeUuid, Wanted c p s n₀ topic nodeUuid →
        Entered c p s n₀ topic nodeUuid ∨ Queued c p s n₀ topic nodeUuid ∨
          Unheard c p s n₀ topic nodeUuid := by
  rw [exec_cons] at h
  obtain ⟨n₂, hbeat, hafter⟩ := Option.bind_eq_some_iff.mp h
  -- what is due is the same along the whole round
  have hall : ∀ topic nodeUuid, (Round c p s n₀ n ∧ Told c p s n₀ n) ∧
      Keeps c p s n₀ n₀ n topic nodeUuid := by
    intro topic nodeUuid
    have hstep : ∀ m a m', Round c p s n₀ m ∧ Keeps c p s n₀ n₀ m topic nodeUuid →
        InRound p s a → next m a = some m' →
        Round c p s n₀ m' ∧ Keeps c p s n₀ n₀ m' topic nodeUuid := by
      intro m a m' hm ha hnext
      obtain ⟨hr, hkeeps⟩ := hm.1.step hps ha hnext
      exact ⟨hr, fun hsub => (hkeeps hsub).trans (hm.2 hsub)⟩
    have hr₁ : Round c p s n₀ n₁ ∧ Keeps c p s n₀ n₀ n₁ topic nodeUuid :=
      invariant (G := fun _ a => InRound p s a) hstep
        ⟨round_refl hn hquiet.1 hquiet.2, fun _ => Iff.rfl⟩
        (guarded_of_forall (fun a ha _ => hround a (List.mem_append.mpr (.inl ha))) _) hbefore
    have hr₂ := hstep n₁ _ n₂ hr₁ (hround _ (by simp)) hbeat
    have hend : (Round c p s n₀ n ∧ Keeps c p s n₀ n₀ n topic nodeUuid) ∧ Told c p s n₀ n :=
      invariant (G := fun _ a => InRound p s a)
        (P := fun m => (Round c p s n₀ m ∧ Keeps c p s n₀ n₀ m topic nodeUuid) ∧ Told c p s n₀ m)
        (fun m a m' hm ha hnext =>
          ⟨hstep m a m' hm.1 ha hnext, hm.2.step hm.1.1 hps ha hnext⟩)
        ⟨hr₂, hr₁.1.told hps hdue hbeat⟩
        (guarded_of_forall (fun a ha _ => hround a (by simp [ha])) _) hafter
    exact ⟨⟨hend.1.1, hend.2⟩, hend.1.2⟩
  obtain ⟨⟨hr, ht⟩, -⟩ := hall [] []
  have hmain : ∀ topic nodeUuid, Wanted c p s n₀ topic nodeUuid →
      (Entered c p s n topic nodeUuid ↔ Entered c p s n₀ topic nodeUuid ∨
        Queued c p s n₀ topic nodeUuid ∨ Unheard c p s n₀ topic nodeUuid) := by
    intro topic nodeUuid hwanted
    have hsub : (n₀.proc s).localSubscribers.hasSubscriber topic = true := by
      obtain ⟨x, -, -, h, hh, -⟩ := hwanted
      exact (HandlerStorage.hasHandlersForTopic_iff _ (hn.orderly s).filled).mpr ⟨h, hh⟩
    have hcoming : ¬ Coming c p s n₀ topic nodeUuid := by
      rintro ⟨m, hm, -⟩
      rw [hquiet.2] at hm
      cases hm
    rw [← due_done ht hr hdone.1 hdone.2.1 hdone.2.2, (hall topic nodeUuid).2 hsub]
    simp only [Due, hcoming, false_or]
  constructor
  · intro hafter topic nodeUuid hwanted
    exact (hmain _ _ hwanted).mp (hafter _ _ (hr.wanted_iff.mpr hwanted))
  · intro hbefore topic nodeUuid hwanted
    have hwanted₀ := hr.wanted_iff.mp hwanted
    exact (hmain _ _ hwanted₀).mpr (hbefore _ _ hwanted₀)

/-! ## Two rounds -/

/-- A node of `5b` subscribes to what `4a` advertises, and is called back. -/
def subscribedRun : List (Action Bool) :=
  knownRun ++ [.act false (.subscribe (str "t") (str "n2") ⟨str "h", str "n2", str "A"⟩),
    .deliver false true 0, .deliver true false 0]

/-- The NEW_CONNECTION of `5b` is lost. -/
def unregisteredRun : List (Action Bool) :=
  subscribedRun ++ [.act false (.applyCommand true), .act false (.applyCommand true),
    .lose false true]

/-- Both processes announce themselves, and hear each other. -/
def exampleRound : List (Action Bool) :=
  [.act true (.heartbeat 1000 1001), .act false (.heartbeat 1000 1001), .deliver true false 1002,
    .deliver true false 1003, .deliver false true 1002]

/-- The process `5b` empties its queue, and its NEW_CONNECTION arrives. -/
def exampleDrain : List (Action Bool) :=
  [.act false (.applyCommand true), .act false (.applyCommand true), .deliver false true 1004]

theorem inRound_example : ∀ a ∈ exampleRound ++ exampleDrain, InRound true false a := by
  simp [exampleRound, exampleDrain, InRound]

theorem registrations_heal_iff_queued :
    let n := stateAfter (subscribedRun ++ exampleRound ++ exampleDrain)
    let n₀ := stateAfter subscribedRun
    (∀ topic nodeUuid, Wanted exampleHosts true false n topic nodeUuid →
        Entered exampleHosts true false n topic nodeUuid) ↔
      ∀ topic nodeUuid, Wanted exampleHosts true false n₀ topic nodeUuid →
        Entered exampleHosts true false n₀ topic nodeUuid ∨
          Queued exampleHosts true false n₀ topic nodeUuid ∨
          Unheard exampleHosts true false n₀ topic nodeUuid :=
  registrations_heal_iff exampleHosts true false (by decide) (stateAfter subscribedRun)
    (stateAfter subscribedRun) _ ⟨subscribedRun, rfl⟩ (by decide) []
    (exampleRound.tail ++ exampleDrain)
    1000 1001 inRound_example rfl (by decide) rfl (by decide)

/-- The node whose NEW_CONNECTION was lost is not registered by the next round. -/
theorem unregisteredRun_not_healed :
    let n₀ := stateAfter unregisteredRun
    let n := stateAfter (unregisteredRun ++ exampleRound)
    Reachable exampleHosts n₀ ∧ n₀.chan true false = [] ∧ n₀.chan false true = [] ∧
      exec next n₀ exampleRound = some n ∧ (∀ a ∈ exampleRound, InRound true false a) ∧
      (∀ i, ¬ 1000 < (n₀.proc i).discovery.timeNextHeartbeat) ∧
      n.chan true false = [] ∧ n.chan false true = [] ∧
      (∀ i, (n.proc i).subscriberCommands = []) ∧
      Wanted exampleHosts true false n (str "t") (str "n2") ∧
      ¬ Entered exampleHosts true false n (str "t") (str "n2") := by
  refine ⟨⟨unregisteredRun, rfl⟩, rfl, rfl, rfl, by simp [exampleRound, InRound], by decide, rfl,
    rfl, by decide, ?_, ?_⟩
  · refine ⟨MessagePublisherInfo.make (str "t") (str "tcp://10.0.0.1:4000") (str "unused")
      (str "4a") (str "n1") (str "A") {}, by decide, by decide,
      ⟨str "h", str "n2", str "A"⟩, by decide, rfl, by decide⟩
  · rintro ⟨e, he, -⟩
    have hnone : ((stateAfter (unregisteredRun ++ exampleRound)).proc true).remoteSubscribers.data =
        ∅ := Std.ExtTreeMap.isEmpty_iff.mp (by decide)
    simp [pubsOf, hnone] at he

end Net
end RfTrans
