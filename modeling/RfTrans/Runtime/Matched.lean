import RfTrans.Runtime.Threads

/-!
# No match is missed

`subscribe` adds its handler and then looks for publishers; the discovery thread files a
publisher and then looks for handlers.  Whichever comes second finds what the other has
done, and queues the commands that connect the two.  What a thread finds is read off a
table that other threads go on filling; a registration names the handlers of the moment
at which it was gathered.

## Main definitions

* `MessageThreads.Here`, `Matched` — a handler and a known publisher of its topic, and
  that the commands for them were queued.
* `Call.owes` — the pairs that a call will still come to.
* `MessageThreads.no_match_missed`
-/

namespace RfTrans
namespace MessageThreads

open Exec Handshake MessageRuntime TopicStorage HandlerWrapper

/-- A handler that a thread added and a publisher that it may be looking for. -/
abbrev Pair := Subscription × MessagePublisherInfo

/-- If the handler is for the messages of the publisher, its node is registered. -/
def Registers (regs : List MessagePublisherInfo) (k : Pair) : Prop :=
  handles k.2.msgType k.1.handler = true →
    ∃ r ∈ regs, r.nodeUuid = k.1.nodeUuid ∧ r.ctrl = k.2.processUuid

/-- The commands connect to the publisher and subscribe to the topic afterwards. -/
def Matched (cs : List SubscriberCommand) (k : Pair) : Prop :=
  ∃ before after regs, cs = before ++ .subscribe k.1.topic regs :: after ∧
    .connect k.2.addr ∈ before ∧ Registers regs k

/-- The pairs that a call will still come to. -/
def Call.owes : Call → Pair → Prop
  | .discovering topic, k => topic = k.1.topic
  | .reading topic _, k => topic = k.1.topic
  | .calling rest, k => k.2 ∈ rest
  | .gathering pub rest, k => pub = k.2 ∨ k.2 ∈ rest
  | .looking pub regs rest, k => pub = k.2 ∧ Registers regs k ∨ k.2 ∈ rest
  | .connecting pub regs rest, k => pub = k.2 ∧ Registers regs k ∨ k.2 ∈ rest
  | .subscribing pub regs rest, k => pub = k.2 ∧ Registers regs k ∨ k.2 ∈ rest
  | .recording _ rest, k => k.2 ∈ rest
  | .idle, _ => False
  | .adding _, _ => False
  | .arrived _ _, _ => False

/-- What a call has seen to before it got where it is. -/
def Call.Ready (processUuid : Str) (cs : List SubscriberCommand) : Call → Prop
  | .reading _ cb => cb = true
  | .arrived pub cb => cb = true ∧ pub.processUuid ≠ processUuid
  | .subscribing pub _ _ => .connect pub.addr ∈ cs
  | .recording pub _ => .connect pub.addr ∈ cs
  | _ => True

/-- A handler that was added, and a publisher of another process known for its topic. -/
def Here (s : MessageThreads) (k : Pair) : Prop :=
  k.1 ∈ s.subscribed ∧
    k.2 ∈ s.rt.discovery.knownPublishers.pubsOf k.1.topic k.2.processUuid ∧
    k.2.processUuid ≠ s.rt.processUuid

/-- The record of an endpoint serves the subscribers of a publisher. -/
def Serves (x pub : MessagePublisherInfo) : Prop :=
  x.msgType = pub.msgType ∨ pub.msgType = kGenericMessageType

instance (x pub : MessagePublisherInfo) : Decidable (Serves x pub) :=
  inferInstanceAs (Decidable (_ ∨ _))

/-- A caller hands over a new handler, of its own node. -/
def Call.HandsOver (handlers : HandlerWrapper) : Call → Prop
  | .adding sub => sub.handler.nodeUuid = sub.nodeUuid ∧
      ∀ h ∈ handlers.handler? sub.topic sub.nodeUuid sub.handler.handlerUuid, h = sub.handler
  | _ => True

/-- An endpoint that is filed already is not advertised with another message type. -/
def Call.KeepsType (known : TopicStorage MessagePublisherInfo) : Call → Prop
  | .arrived pub _ => ∀ x ∈ known.pubsOf pub.topic pub.processUuid,
      sameEndpoint x pub = true → Serves x pub
  | _ => True

/-- Publishers arrive, handlers are added, commands are taken; nothing is taken down. -/
def Window (s : MessageThreads) : Action → Prop
  | .advance i => (s.calls i).HandsOver s.rt.localSubscribers
  | .whole (.applyCommand _) => True
  | .whole _ => False
  | .subscribe _ _ => True
  | .datagram _ _ _ _ => True

/-- No publisher arrives with the endpoint of another and another message type. -/
def SameType (s : MessageThreads) : Action → Prop
  | .advance i => (s.calls i).KeepsType s.rt.discovery.knownPublishers
  | _ => True

variable {s t : MessageThreads}

/-- Whatever is there was matched or will be come to. -/
structure Matching (s : MessageThreads) : Prop where
  settled : s.Settled
  kept : ∀ sub ∈ s.subscribed, sub.handler.nodeUuid = sub.nodeUuid ∧
    s.rt.localSubscribers.handler? sub.topic sub.nodeUuid sub.handler.handlerUuid =
      some sub.handler
  ready : ∀ i, (s.calls i).Ready s.rt.processUuid s.enqueued
  noted : ∀ pub ∈ s.advertised, pub.processUuid ≠ s.rt.processUuid ∧
    ∃ x ∈ s.rt.discovery.knownPublishers.pubsOf pub.topic pub.processUuid,
      sameEndpoint x pub = true ∧ Serves x pub
  covered : Covered s.Here (Matched s.enqueued) s.calls Call.owes

theorem Matched.mono {cs new : List SubscriberCommand} {k : Pair} (h : Matched cs k) :
    Matched (cs ++ new) k := by
  obtain ⟨before, after, regs, rfl, hconnect, hregs⟩ := h
  exact ⟨before, after ++ new, regs, by simp, hconnect, hregs⟩

theorem Call.Ready.mono {processUuid : Str} {cs new : List SubscriberCommand} {c : Call}
    (h : c.Ready processUuid cs) : c.Ready processUuid (cs ++ new) := by
  cases c with
  | subscribing pub regs rest => exact List.mem_append.mpr (.inl h)
  | recording pub rest => exact List.mem_append.mpr (.inl h)
  | _ => exact h

/-- A call moves and leaves the tables alone. -/
theorem Matching.goto (hs : s.Matching) {i : ℕ} {c : Call}
    (hready : c.Ready s.rt.processUuid s.enqueued)
    (howes : ∀ k, s.Here k → (s.calls i).owes k → Matched s.enqueued k ∨ c.owes k) :
    (s.goto i c).Matching where
  settled := ⟨hs.settled.sound, hs.settled.filled, hs.settled.connected⟩
  kept := hs.kept
  ready j := by
    by_cases hji : j = i
    · subst hji
      rw [calls_goto_self]
      exact hready
    · rw [calls_goto_of_ne _ hji]
      exact hs.ready j
  noted := hs.noted
  covered := by
    refine Covered.step hs.covered i (fun j hj => calls_goto_of_ne _ hj _) (fun _ => id)
      (fun k hk => .inl hk) ?_
    intro k hk ho
    rw [calls_goto_self]
    exact howes k hk ho

/-- Another command is queued. -/
theorem Matching.enqueue (hs : s.Matching) (c : SubscriberCommand) : (s.enqueue c).Matching where
  settled := by
    refine ⟨hs.settled.sound.same rfl rfl rfl, hs.settled.filled, ?_⟩
    intro a ha
    rw [enqueued_enqueue]
    exact List.mem_append.mpr (.inl (hs.settled.connected a ha))
  kept := hs.kept
  ready i := by
    rw [enqueued_enqueue]
    exact (hs.ready i).mono
  noted := hs.noted
  covered := by
    refine Covered.mono hs.covered (fun _ => id) fun k hk => ?_
    rw [enqueued_enqueue]
    exact hk.mono

/-- The receive thread takes a command. -/
theorem Matching.drain (hs : s.Matching) {ok : Bool}
    (h : s.next (.whole (.applyCommand ok)) = some t) : t.Matching := by
  have hsettled := hs.settled.whole h
  obtain ⟨⟨rt', sent⟩, hp, rfl⟩ := Option.map_eq_some_iff.mp h
  obtain ⟨c, rest, sub, hq, hx⟩ := applyNextCommand_eq s.rt hp
  obtain rfl := hx
  have hsame : enqueued { s with
      rt := { s.rt with subscriberCommands := rest, subscriber := sub }
      taken := s.taken ++ s.takes (.applyCommand ok) } = s.enqueued := by
    simp [enqueued, takes, hq]
  refine ⟨hsettled, hs.kept, fun i => ?_, hs.noted, ?_⟩
  · rw [hsame]
    exact hs.ready i
  · rw [hsame]
    exact hs.covered

/-- `subscribe` adds its handler and comes to the publishers that are known. -/
theorem Matching.adding (hs : s.Matching) {i : ℕ} {sub : Subscription}
    (hc : s.calls i = .adding sub) (hw : s.Window (.advance i))
    (h : s.advance i = some t) : t.Matching := by
  simp only [Window, hc] at hw
  obtain ⟨hnode, hfresh⟩ := hw
  simp only [advance, hc] at h
  obtain rfl := Option.some.inj h
  have hadded : ∀ n u v, (s.rt.localSubscribers.addHandler sub.topic sub.nodeUuid
      sub.handler.handlerUuid sub.handler).handler? n u v =
        if n = sub.topic ∧ u = sub.nodeUuid ∧ v = sub.handler.handlerUuid then some sub.handler
        else s.rt.localSubscribers.handler? n u v := by
    intro n u v
    rw [HandlerStorage.handler?_addHandler]
    by_cases hsame : n = sub.topic ∧ u = sub.nodeUuid ∧ v = sub.handler.handlerUuid
    · obtain ⟨rfl, rfl, rfl⟩ := hsame
      cases hold : s.rt.localSubscribers.handler? sub.topic sub.nodeUuid
          sub.handler.handlerUuid with
      | none => simp
      | some h => simp [hfresh h hold]
    · rw [if_neg hsame, if_neg fun hn => hsame ⟨hn.1, hn.2.1, hn.2.2.1⟩]
  refine ⟨?_, ?_, ?_, hs.noted, ?_⟩
  · exact ⟨hs.settled.sound.same rfl rfl rfl,
      HandlerStorage.Filled.addHandler _ hs.settled.filled _ _ _ _, hs.settled.connected⟩
  · intro sub' hsub'
    show _ ∧ HandlerStorage.handler? (s.rt.localSubscribers.addHandler ..) _ _ _ = _
    rw [hadded]
    rcases List.mem_cons.mp hsub' with rfl | hsub'
    · exact ⟨hnode, if_pos ⟨rfl, rfl, rfl⟩⟩
    · obtain ⟨hnode', hkept⟩ := hs.kept sub' hsub'
      refine ⟨hnode', ?_⟩
      by_cases hsame : sub'.topic = sub.topic ∧ sub'.nodeUuid = sub.nodeUuid ∧
          sub'.handler.handlerUuid = sub.handler.handlerUuid
      · rw [hsame.1, hsame.2.1, hsame.2.2] at hkept
        rw [if_pos hsame, hfresh _ hkept]
      · rw [if_neg hsame]
        exact hkept
  · intro j
    by_cases hji : j = i
    · subst hji
      rw [calls_goto_self]
      trivial
    · rw [calls_goto_of_ne _ hji]
      exact hs.ready j
  · refine Covered.step hs.covered i (fun j hj => calls_goto_of_ne _ hj _) (fun _ => id) ?_ ?_
    · intro k hk
      obtain ⟨hsub, hknown⟩ := hk
      rcases List.mem_cons.mp hsub with hnew | hsub
      · right
        right
        rw [calls_goto_self]
        exact (congrArg Subscription.topic hnew).symm
      · exact .inl ⟨hsub, hknown⟩
    · intro k _ ho
      rw [hc] at ho
      exact ho.elim

/-- The discovery thread files a publisher and comes to the handlers there are. -/
theorem Matching.arrived (hs : s.Matching) {i : ℕ} {pub : MessagePublisherInfo} {cb : Bool}
    (hc : s.calls i = .arrived pub cb) (hg : s.SameType (.advance i))
    (h : s.advance i = some t) : t.Matching := by
  have hready := hs.ready i
  rw [hc] at hready
  obtain ⟨rfl, hother⟩ := hready
  simp only [SameType, hc] at hg
  simp only [advance, hc] at h
  obtain rfl := Option.some.inj h
  refine ⟨?_, hs.kept, ?_, ?_, ?_⟩
  · obtain ⟨hr, hne, hwf, hown, hseen⟩ := hs.settled.sound
    refine ⟨⟨⟨hr.1, hr.2, hr.3, hr.4, hr.5, hr.6⟩, hne, hwf.addPublisher pub, ?_, hseen⟩,
      hs.settled.filled, hs.settled.connected⟩
    intro t x hx
    rcases (mem_pubsOf_addPublisher _).mp hx with hx | ⟨-, -, hown', rfl⟩
    · exact hown hx
    · exact absurd hown'.symm hother
  · intro j
    by_cases hji : j = i
    · subst hji
      rw [calls_goto_self]
      trivial
    · rw [calls_goto_of_ne _ hji]
      exact hs.ready j
  · intro pub' hpub'
    rcases List.mem_cons.mp hpub' with rfl | hpub'
    · refine ⟨hother, ?_⟩
      cases hadd : (s.rt.discovery.knownPublishers.addPublisher pub').2 with
      | true =>
          refine ⟨pub', (mem_pubsOf_addPublisher _).mpr (.inr ⟨hadd, rfl, rfl, rfl⟩), ?_, .inl rfl⟩
          simp [sameEndpoint]
      | false =>
          have hthere : ∃ x ∈ s.rt.discovery.knownPublishers.pubsOf pub'.topic pub'.processUuid,
              sameEndpoint x pub' = true := by
            by_contra hnone
            push Not at hnone
            rw [(addPublisher_snd _).mpr hnone] at hadd
            cases hadd
          obtain ⟨x, hx, hsame⟩ := hthere
          exact ⟨x, (mem_pubsOf_addPublisher _).mpr (.inl hx), hsame, hg x hx hsame⟩
    · obtain ⟨hother', x, hx, hserves⟩ := hs.noted pub' hpub'
      exact ⟨hother', x, (mem_pubsOf_addPublisher _).mpr (.inl hx), hserves⟩
  · refine Covered.step hs.covered i (fun j hj => calls_goto_of_ne _ hj _) (fun _ => id) ?_ ?_
    · intro k hk
      obtain ⟨hsub, hknown, hne⟩ := hk
      rcases (mem_pubsOf_addPublisher _).mp hknown with hold | ⟨hadd, -, -, hnew⟩
      · exact .inl ⟨hsub, hold, hne⟩
      · right
        right
        rw [calls_goto_self, hadd]
        exact List.mem_singleton.mpr hnew
    · intro k _ ho
      rw [hc] at ho
      exact ho.elim

/-- A handler that was added is among those of its topic. -/
theorem Matching.mem_handlersOf (hs : s.Matching) {sub : Subscription} (h : sub ∈ s.subscribed) :
    sub.handler ∈ s.rt.localSubscribers.handlersOf sub.topic :=
  (HandlerStorage.mem_handlersOf _).mpr ⟨_, _, (hs.kept sub h).2⟩

/-- The publisher of a pair has the topic of its handler. -/
theorem Matching.topic_eq (hs : s.Matching) {k : Pair} (hk : s.Here k) : k.2.topic = k.1.topic :=
  (hs.settled.sound.wellFormed.filed hk.2.1).1

/-- The registrations that are gathered name every handler that was added. -/
theorem Matching.registers (hs : s.Matching) {k : Pair} (hk : s.Here k) :
    Registers (s.rt.registrationsFor k.2) k := by
  intro hhandles
  refine ⟨{ k.2 with
    processUuid := s.rt.processUuid, ctrl := k.2.processUuid, nodeUuid := k.1.nodeUuid }, ?_,
    rfl, rfl⟩
  refine List.mem_map.mpr ⟨k.1.nodeUuid, List.mem_map.mpr ⟨k.1.handler, ?_, ?_⟩, rfl⟩
  · rw [hs.topic_eq hk]
    exact List.mem_filter.mpr ⟨hs.mem_handlersOf hk.1, hhandles⟩
  · exact (hs.kept k.1 hk.1).1

/-- The callback turns away no publisher that a handler is waiting for. -/
theorem Matching.accepted (hs : s.Matching) {k : Pair} (hk : s.Here k) :
    ¬ (!s.rt.localSubscribers.hasSubscriber k.2.topic ||
      k.2.processUuid = s.rt.processUuid) = true := by
  have hsubscriber : s.rt.localSubscribers.hasSubscriber k.2.topic = true := by
    rw [hs.topic_eq hk]
    refine (HandlerStorage.hasHandlersForTopic_iff _ hs.settled.filled).mpr ?_
    exact ⟨_, hs.mem_handlersOf hk.1⟩
  simp [hsubscriber, hk.2.2]

/-- The Subscribe follows the Connect. -/
theorem Matching.subscribing (hs : s.Matching) {i : ℕ} {pub : MessagePublisherInfo}
    {regs rest : List MessagePublisherInfo} (hc : s.calls i = .subscribing pub regs rest) :
    ((s.enqueue (.subscribe pub.topic regs)).goto i (.recording pub rest)).Matching := by
  have hready := hs.ready i
  rw [hc] at hready
  refine (hs.enqueue _).goto ?_ ?_
  · rw [enqueued_enqueue]
    exact List.mem_append.mpr (.inl hready)
  · intro k hk ho
    have hcall : (s.enqueue (.subscribe pub.topic regs)).calls i = .subscribing pub regs rest := hc
    rw [hcall] at ho
    rcases ho with ⟨rfl, hregs⟩ | ho
    · left
      have hk' : s.Here k := hk
      rw [enqueued_enqueue, hs.topic_eq hk']
      exact ⟨s.enqueued, [], regs, rfl, hready, hregs⟩
    · exact .inr ho

/-- The publisher is filed as connected. -/
theorem Matching.recording (hs : s.Matching) {i : ℕ} {pub : MessagePublisherInfo}
    {rest : List MessagePublisherInfo} (hc : s.calls i = .recording pub rest)
    (h : s.advance i = some t) : t.Matching := by
  have hready := hs.ready i
  rw [hc] at hready
  simp only [advance, hc] at h
  obtain rfl := Option.some.inj h
  have hfiled : Matching { s with
      rt.remotePublishers := (s.rt.remotePublishers.addPublisher pub).1 } := by
    refine ⟨?_, hs.kept, hs.ready, hs.noted, hs.covered⟩
    refine ⟨hs.settled.sound.same rfl rfl rfl, hs.settled.filled, ?_⟩
    intro a ha
    obtain ⟨t, q, x, hx, hax⟩ := (hasPublisher_iff _).mp ha
    rcases (mem_pubsOf_addPublisher _).mp hx with hx | ⟨-, -, -, rfl⟩
    · exact hs.settled.connected a ((hasPublisher_iff _).mpr ⟨t, q, x, hx, hax⟩)
    · exact hax ▸ hready
  refine hfiled.goto trivial fun k _ ho => .inr ?_
  have hcall : (s.calls i).owes k := ho
  rw [hc] at hcall
  exact hcall

/-- **One step of a call.** -/
theorem Matching.advance (hs : s.Matching) {i : ℕ} (hw : s.Window (.advance i))
    (hg : s.SameType (.advance i)) (h : s.advance i = some t) : t.Matching := by
  have hready := hs.ready i
  have hr := hs.settled.sound.running
  cases hc : s.calls i with
  | idle =>
      simp only [MessageThreads.advance, hc] at h
      cases h
  | adding sub => exact hs.adding hc hw h
  | discovering topic =>
      simp only [MessageThreads.advance, hc, hr.enabled, if_true] at h
      obtain rfl := Option.some.inj h
      refine hs.goto hr.connection ?_
      rw [hc]
      exact fun _ _ => .inr
  | reading topic cb =>
      rw [hc] at hready
      obtain rfl : cb = true := hready
      simp only [MessageThreads.advance, hc] at h
      cases hget : s.rt.discovery.knownPublishers.getPublishers topic with
      | none =>
          simp only [hget] at h
          obtain rfl := Option.some.inj h
          refine hs.goto trivial fun k hk ho => ?_
          rw [hc] at ho
          obtain rfl : topic = k.1.topic := ho
          exact absurd hk.2.1 (pubsOf_of_getPublishers _ hget _ _)
      | some addresses =>
          simp only [hget, if_true] at h
          obtain rfl := Option.some.inj h
          refine hs.goto trivial fun k hk ho => .inr ?_
          rw [hc] at ho
          obtain rfl : topic = k.1.topic := ho
          exact (mem_flatMap_getPublishers _ hget).mpr ⟨_, hk.2.1⟩
  | arrived pub cb => exact hs.arrived hc hg h
  | calling rest =>
      cases rest with
      | nil =>
          simp only [MessageThreads.advance, hc] at h
          obtain rfl := Option.some.inj h
          refine hs.goto trivial fun k _ ho => ?_
          rw [hc] at ho
          cases ho
      | cons pub rest =>
          simp only [MessageThreads.advance, hc] at h
          split at h
          case isTrue hout =>
            obtain rfl := Option.some.inj h
            refine hs.goto trivial fun k hk ho => .inr ?_
            rw [hc] at ho
            rcases List.mem_cons.mp ho with rfl | ho
            · exact absurd hout (hs.accepted hk)
            · exact ho
          case isFalse =>
            obtain rfl := Option.some.inj h
            refine hs.goto trivial fun k _ ho => .inr ?_
            rw [hc] at ho
            exact (List.mem_cons.mp ho).imp_left Eq.symm
  | gathering pub rest =>
      simp only [MessageThreads.advance, hc] at h
      obtain rfl := Option.some.inj h
      refine hs.goto trivial fun k hk ho => .inr ?_
      rw [hc] at ho
      rcases ho with rfl | ho
      · exact .inl ⟨rfl, hs.registers hk⟩
      · exact .inr ho
  | looking pub regs rest =>
      simp only [MessageThreads.advance, hc] at h
      split at h
      case isTrue hconnected =>
        obtain rfl := Option.some.inj h
        refine hs.goto (hs.settled.connected _ hconnected) ?_
        rw [hc]
        exact fun _ _ => .inr
      case isFalse =>
        obtain rfl := Option.some.inj h
        refine hs.goto trivial ?_
        rw [hc]
        exact fun _ _ => .inr
  | connecting pub regs rest =>
      simp only [MessageThreads.advance, hc] at h
      obtain rfl := Option.some.inj h
      refine (hs.enqueue _).goto ?_ fun k _ ho => .inr ?_
      · rw [enqueued_enqueue]
        exact List.mem_append.mpr (.inr List.mem_cons_self)
      · have hcall : (s.calls i).owes k := ho
        rw [hc] at hcall
        exact hcall
  | subscribing pub regs rest =>
      simp only [MessageThreads.advance, hc] at h
      obtain rfl := Option.some.inj h
      exact hs.subscribing hc
  | recording pub rest => exact hs.recording hc h

theorem Matching.next (hs : s.Matching) {a : Action} (hw : s.Window a) (hg : s.SameType a)
    (h : s.next a = some t) : t.Matching := by
  cases a with
  | subscribe i sub =>
      simp only [MessageThreads.next] at h
      split at h
      case h_1 hc =>
        obtain rfl := Option.some.inj h
        refine hs.goto trivial fun k _ ho => ?_
        rw [hc] at ho
        exact ho.elim
      case h_2 => cases h
  | datagram i fromIp m now =>
      simp only [MessageThreads.next] at h
      split at h
      case h_2 => cases h
      case h_1 hc =>
        split at h
        case isTrue =>
          obtain rfl := Option.some.inj h
          exact hs
        case isFalse hne =>
          have hsound := hs.settled.sound
          have hseen : Matching { s with rt := s.rt.seen m now } := by
            refine ⟨⟨?_, hs.settled.filled, hs.settled.connected⟩, hs.kept, hs.ready, hs.noted,
              hs.covered⟩
            obtain ⟨hr, hnonempty, hwf, hown, hnot⟩ := hsound
            refine ⟨⟨hr.1, hr.2, hr.3, hr.4, hr.5, hr.6⟩, hnonempty, hwf, hown, ?_⟩
            show s.rt.processUuid ∉ s.rt.discovery.lastSeenByProcess.insert m.processUuid now
            rw [Std.ExtTreeMap.mem_insert, Std.LawfulEqCmp.compare_eq_iff_eq]
            rintro (heq | hold)
            · exact hne (heq.trans hr.uuid.symm)
            · exact hnot hold
          split at h
          case isFalse => cases h
          case isTrue hadv =>
            split at h
            case isTrue =>
              obtain rfl := Option.some.inj h
              exact hseen
            case isFalse hvisible =>
              obtain rfl := Option.some.inj h
              have hadds : s.rt.adds (.recv fromIp m now) = some (parsed m) := by
                have hv : Discovery.hidden (parsed m) (s.rt.discovery.isSenderLocal fromIp) =
                    false := Bool.eq_false_iff.mpr hvisible
                simp [adds, hne, hadv, hv]
              have hother : (parsed m).processUuid ≠ s.rt.processUuid :=
                processUuid_adds hsound.running.uuid hsound.nonempty hadds
              refine hseen.goto ⟨hsound.running.connection, hother⟩ fun k _ ho => ?_
              have hcall : (s.calls i).owes k := ho
              rw [hc] at hcall
              exact hcall.elim
  | advance i => exact hs.advance hw hg h
  | whole a =>
      cases a with
      | applyCommand ok => exact hs.drain h
      | _ => exact hw.elim

/-! ## Whole runs -/

/-- No call is under way, and none was. -/
structure Untouched (s : MessageThreads) : Prop where
  settled : s.Settled
  calls : ∀ i, s.calls i = .idle
  subscribed : s.subscribed = []
  advertised : s.advertised = []

theorem untouched_start {processUuid : Str} (h : processUuid ≠ [])
    (processName hostAddr address : Str) :
    (start processUuid processName hostAddr address).Untouched :=
  ⟨settled_start h .., fun _ => rfl, rfl, rfl⟩

theorem Untouched.whole (hs : s.Untouched) {a : MessageRuntime.Action}
    (h : s.next (.whole a) = some t) : t.Untouched := by
  have hsettled := hs.settled.whole h
  obtain ⟨⟨rt', sent⟩, -, rfl⟩ := Option.map_eq_some_iff.mp h
  exact ⟨hsettled, hs.calls, hs.subscribed, hs.advertised⟩

theorem Untouched.matching (hs : s.Untouched) : s.Matching where
  settled := hs.settled
  kept sub hsub := by
    rw [hs.subscribed] at hsub
    cases hsub
  ready i := by
    rw [hs.calls i]
    trivial
  noted pub hpub := by
    rw [hs.advertised] at hpub
    cases hpub
  covered k hk := by
    have hsub := hk.1
    rw [hs.subscribed] at hsub
    cases hsub

/-- A process after a history of its own. -/
theorem untouched_history {processUuid : Str} (hne : processUuid ≠ [])
    {processName hostAddr address : Str} {history : List MessageRuntime.Action}
    (h : exec next (start processUuid processName hostAddr address) (history.map .whole) =
      some s) : s.Untouched := by
  refine invariant (P := Untouched) (G := fun _ a => ∃ b, a = .whole b) ?_
    (untouched_start hne ..) (guarded_of_forall ?_ _) h
  · rintro s _ t hs ⟨b, rfl⟩ hnext
    exact hs.whole hnext
  · intro a ha _
    obtain ⟨b, -, rfl⟩ := List.mem_map.mp ha
    exact ⟨b, rfl⟩

/-- The commands for a handler and an advertised publisher of its topic. -/
def Joined (cs : List SubscriberCommand) (sub : Subscription) (pub : MessagePublisherInfo) : Prop :=
  ∃ before after regs, cs = before ++ .subscribe sub.topic regs :: after ∧
    .connect pub.addr ∈ before ∧
    (sub.handler.msgType = pub.msgType →
      ∃ r ∈ regs, r.nodeUuid = sub.nodeUuid ∧ r.ctrl = pub.processUuid)

/-- The commands for the record that is filed are those for the publisher. -/
theorem Matched.joined {cs : List SubscriberCommand} {sub : Subscription}
    {x pub : MessagePublisherInfo} (h : Matched cs (sub, x)) (haddr : x.addr = pub.addr)
    (hprocess : x.processUuid = pub.processUuid) (hserves : Serves x pub) : Joined cs sub pub := by
  obtain ⟨before, after, regs, hcs, hconnect, hregs⟩ := h
  refine ⟨before, after, regs, hcs, haddr ▸ hconnect, fun htype => ?_⟩
  have hhandles : handles x.msgType sub.handler = true := by
    rcases hserves with hsame | hgeneric
    · exact decide_eq_true (.inl (htype.trans hsame.symm))
    · exact decide_eq_true (.inr (htype.trans hgeneric))
  obtain ⟨r, hr, hnode, hctrl⟩ := hregs hhandles
  exact ⟨r, hr, hnode, hctrl.trans hprocess⟩

/-- **No match is missed** while no known endpoint is advertised with another type. -/
theorem no_match_missed {processUuid : Str} (hne : processUuid ≠ [])
    (processName hostAddr address : Str) (history : List MessageRuntime.Action)
    (window : List Action) {s₀ : MessageThreads}
    (hhistory : exec next (start processUuid processName hostAddr address)
      (history.map .whole) = some s₀)
    (hwindow : Guarded next (fun s a => s.Window a ∧ s.SameType a) s₀ window)
    (h : exec next s₀ window = some s) (hdone : ∀ i, s.calls i = .idle)
    (sub : Subscription) (hsub : sub ∈ s.subscribed) (pub : MessagePublisherInfo)
    (hpub : pub ∈ s.advertised) (htopic : pub.topic = sub.topic) :
    Joined s.enqueued sub pub := by
  have hs : s.Matching := invariant (P := Matching) (fun _ _ _ hs hg h => hs.next hg.1 hg.2 h)
    (untouched_history hne hhistory).matching hwindow h
  obtain ⟨hother, x, hx, hsame, hserves⟩ := hs.noted pub hpub
  have hprocess : x.processUuid = pub.processUuid :=
    (hs.settled.sound.wellFormed.filed hx).2
  have hhere : s.Here (sub, x) := by
    refine ⟨hsub, ?_, ?_⟩
    · show x ∈ s.rt.discovery.knownPublishers.pubsOf sub.topic x.processUuid
      rwa [← htopic, hprocess]
    · show x.processUuid ≠ s.rt.processUuid
      rwa [hprocess]
  have hmatched := hs.covered.all_served (fun i k ho => by
    rw [hdone i] at ho
    exact ho) hhere
  have haddr : x.addr = pub.addr := by
    simp only [sameEndpoint, decide_eq_true_eq] at hsame
    exact hsame.1
  exact hmatched.joined haddr hprocess hserves

/-! ## A publisher that changes its type -/

instance (handlers : HandlerWrapper) : ∀ c, Decidable (Call.HandsOver handlers c)
  | .adding sub => inferInstanceAs (Decidable (_ ∧ ∀ h ∈ handlers.handler? sub.topic sub.nodeUuid
      sub.handler.handlerUuid, h = sub.handler))
  | .idle | .discovering _ | .reading _ _ | .arrived _ _ | .calling _ | .gathering _ _
  | .looking _ _ _ | .connecting _ _ _ | .subscribing _ _ _ | .recording _ _ => isTrue trivial

instance (known : TopicStorage MessagePublisherInfo) : ∀ c, Decidable (Call.KeepsType known c)
  | .arrived pub _ => inferInstanceAs (Decidable (∀ x ∈ known.pubsOf pub.topic pub.processUuid,
      sameEndpoint x pub = true → Serves x pub))
  | .idle | .adding _ | .discovering _ | .reading _ _ | .calling _ | .gathering _ _
  | .looking _ _ _ | .connecting _ _ _ | .subscribing _ _ _ | .recording _ _ => isTrue trivial

instance (s : MessageThreads) : ∀ a, Decidable (Window s a)
  | .advance i => inferInstanceAs (Decidable ((s.calls i).HandsOver s.rt.localSubscribers))
  | .subscribe _ _ | .datagram _ _ _ _ | .whole (.applyCommand _) => isTrue trivial
  | .whole (.advertise _ _ _ _) | .whole (.unadvertise _ _) | .whole (.subscribe _ _ _)
  | .whole (.unsubscribe _ _) | .whole (.recv _ _ _) | .whole (.heartbeat _ _)
  | .whole (.activity _ _) => isFalse id

instance (s : MessageThreads) : ∀ a, Decidable (SameType s a)
  | .advance i =>
    inferInstanceAs (Decidable ((s.calls i).KeepsType s.rt.discovery.knownPublishers))
  | .subscribe _ _ | .datagram _ _ _ _ | .whole _ => isTrue trivial

/-- An ADVERTISE of process 5b for topic t. -/
def advertisementOf (nodeUuid msgType : Str) : Msgs.Discovery :=
  { version := kWireVersion, processUuid := str "5b", type := .advertise
    contents := .pub
      { topic := str "t", address := str "tcp://b", nodeUuid := nodeUuid, scope := .all,
        pubType := .msgPub { ctrl := str "unused", msgType := msgType } } }

/-- Process 4a, which has heard of a publisher of type A at node n1. -/
def exampleStart : MessageThreads := start (str "4a") (str "p") (str "10.0.0.1") (str "tcp://a")

def exampleHistory : List MessageRuntime.Action :=
  [.recv (str "10.0.0.2") (advertisementOf (str "n1") (str "A")) 0]

/-- Node m subscribes for type B. -/
def exampleSub : Subscription := ⟨str "t", str "m", ⟨str "h", str "m", str "B"⟩⟩

/-- Thread 0 handles an ADVERTISE for type B of the given node, thread 1 subscribes, and
they go on in the order of `turns`. -/
def overlap (nodeUuid : Str) (turns : List ℕ) : List Action :=
  [.datagram 0 (str "10.0.0.2") (advertisementOf nodeUuid (str "B")) 1,
    .subscribe 1 exampleSub] ++ turns.map .advance

/-- The publisher is filed before the handler is added and finds no subscriber. -/
def exampleTurns : List ℕ := [0, 0, 1, 0] ++ List.replicate 14 1

/-- The state in which the runs of the example begin, and that in which they end. -/
def exampleMiddle : MessageThreads :=
  (exec next exampleStart (exampleHistory.map .whole)).getD exampleStart

def exampleEnd (nodeUuid : Str) (turns : List ℕ) : MessageThreads :=
  (exec next exampleMiddle (overlap nodeUuid turns)).getD exampleMiddle

theorem no_match_missed_overlap :
    Joined (exampleEnd (str "n2") exampleTurns).enqueued exampleSub
      (parsed (advertisementOf (str "n2") (str "B"))) :=
  no_match_missed (by decide) (str "p") (str "10.0.0.1") (str "tcp://a") exampleHistory
    (overlap (str "n2") exampleTurns) (s := exampleEnd (str "n2") exampleTurns)
    (show exec next exampleStart (exampleHistory.map .whole) = some exampleMiddle from rfl)
    (by decide) rfl (fun i => match i with | 0 => rfl | 1 => rfl | _ + 2 => rfl) exampleSub
    List.mem_cons_self _ List.mem_cons_self rfl

/-- The turns of the threads when the ADVERTISE has a known endpoint. -/
def retypedTurns : List ℕ := [0, 1, 0] ++ List.replicate 9 1

/-- The publisher of type B has the endpoint of the one of type A and is not filed: the
commands are those for type A, which register no one. -/
theorem retyped_missed : ∃ s,
    exec next exampleStart (exampleHistory.map .whole) = some exampleMiddle ∧
    Guarded next Window exampleMiddle (overlap (str "n1") retypedTurns) ∧
    exec next exampleMiddle (overlap (str "n1") retypedTurns) = some s ∧ (∀ i, s.calls i = .idle) ∧
    exampleSub ∈ s.subscribed ∧ parsed (advertisementOf (str "n1") (str "B")) ∈ s.advertised ∧
    ¬ Joined s.enqueued exampleSub (parsed (advertisementOf (str "n1") (str "B"))) := by
  refine ⟨exampleEnd (str "n1") retypedTurns, rfl, by decide, rfl,
    fun i => match i with | 0 => rfl | 1 => rfl | _ + 2 => rfl, by decide, by decide, ?_⟩
  rintro ⟨before, after, regs, henqueued, -, hregs⟩
  have hnone : ∀ c ∈ (exampleEnd (str "n1") retypedTurns).enqueued,
      c = .connect (str "tcp://b") ∨ c = .subscribe (str "t") [] := by decide
  have hmem : SubscriberCommand.subscribe (str "t") regs ∈
      (exampleEnd (str "n1") retypedTurns).enqueued := by
    rw [henqueued]
    exact List.mem_append.mpr (.inr List.mem_cons_self)
  rcases hnone _ hmem with h | h
  · cases h
  · obtain rfl := (SubscriberCommand.subscribe.inj h).2
    obtain ⟨r, hr, -⟩ := hregs rfl
    cases hr

end MessageThreads
end RfTrans
