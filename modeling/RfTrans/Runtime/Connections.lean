import RfTrans.Discovery.Collection
import RfTrans.Lib.Exec
import RfTrans.Runtime.Sends

/-!
# Is the data plane ready?

`onPublisherConnected` queues a Connect, unless the endpoint is filed as connected already,
and a Subscribe, and files the endpoint at once.  The receive thread catches what either
command throws and goes on with the next one: after a failed Connect the Subscribe still
sets the filter and sends its NEW_CONNECTIONs, and the endpoint stays filed.

## Main definitions

* `Connections` — a runtime with the results of its Connects and what it was told of.
* `Connections.Promised` — a step that sends a NEW_CONNECTION only when the socket is ready,
  and that tries a failed Connect again.
* `Connections.Harmless` — no failed Connect stands in the way of the step.
* `Connections.data_plane_ready_iff`
-/

namespace RfTrans

open Exec MessageRuntime TopicStorage

/-- A runtime, the Connects that its receive thread has applied with their results, and the
publishers that datagrams have told it of. -/
structure Connections where
  rt : MessageRuntime
  attempts : List (Str × Bool) := []
  found : List PublisherKey := []

namespace Connections

/-- The Connect that a step applies. -/
def attempted (s : Connections) : Action → List (Str × Bool)
  | .applyCommand ok =>
    match s.rt.subscriberCommands with
    | .connect address :: _ => [(address, ok)]
    | _ => []
  | _ => []

/-- The publisher that a step adds to those known. -/
def discovered (s : Connections) (a : Action) : List MessagePublisherInfo :=
  (s.rt.adds a).toList.filter fun pub => (s.rt.discovery.knownPublishers.addPublisher pub).2

/-- One step. -/
def next (s : Connections) (a : Action) : Option Connections :=
  (s.rt.perform a).map fun x =>
    { rt := x.1
      attempts := s.attempts ++ s.attempted a
      found := s.found ++ (s.discovered a).map publisherKey }

/-- Every Connect to the address so far has failed, and there was one. -/
def Failed (s : Connections) (address : Str) : Prop :=
  (address, false) ∈ s.attempts ∧ (address, true) ∉ s.attempts

instance (s : Connections) (address : Str) : Decidable (s.Failed address) :=
  inferInstanceAs (Decidable (_ ∧ _))

/-- A publisher of another process is found by a call of `subscribe`, or again after it was
removed. -/
def FoundAgain (s : Connections) : Action → MessagePublisherInfo → Prop
  | .subscribe topic _ _, pub => pub.processUuid ≠ s.rt.processUuid ∧
      ∃ q, pub ∈ s.rt.discovery.knownPublishers.pubsOf topic q
  | .recv fromIp m now, pub => pub.processUuid ≠ s.rt.processUuid ∧
      pub ∈ s.discovered (.recv fromIp m now) ∧ publisherKey pub ∈ s.found ∧
      s.rt.localSubscribers.hasSubscriber pub.topic = true
  | _, _ => False

/-- NEW_CONNECTIONs are sent for endpoints that the socket is connected to, with the topic's
filter set; a publisher that is found again has a failed Connect queued again. -/
structure Promised (s : Connections) (a : Action) : Prop where
  ready : ∀ rt' sent, s.rt.perform a = some (rt', sent) → ∀ m ∈ sent, m.type = .newConnection →
    (parsed m).addr ∈ rt'.subscriber.connected ∧ (parsed m).topic ∈ rt'.subscriber.filters
  retried : ∀ rt' sent, s.rt.perform a = some (rt', sent) → ∀ pub, s.FoundAgain a pub →
    s.Failed pub.addr → .connect pub.addr ∈ rt'.subscriberCommands

/-- The step does not set the filter of a topic and register with a publisher whose Connect
has failed, and finds no publisher again while such an endpoint is still filed. -/
def Harmless (s : Connections) : Action → Prop
  | .applyCommand ok => ∀ t regs rest, s.rt.subscriberCommands = .subscribe t regs :: rest →
      s.rt.localSubscribers.hasSubscriber t = true → ok = true →
        ∀ r ∈ regs, Discovery.fits (s.rt.discovery.announcement .newConnection r) = true →
          ¬ s.Failed r.addr
  | a => ∀ pub, s.FoundAgain a pub → s.Failed pub.addr →
      s.rt.remotePublishers.hasPublisher pub.addr = false ∨
        .connect pub.addr ∈ s.rt.subscriberCommands

/-! ## The order of the queue -/

/-- Every registration in the queue is for the topic of its Subscribe and comes after a
Connect to its endpoint. -/
def Backed (tried : Str → Prop) : List SubscriberCommand → Prop
  | [] => True
  | .connect address :: q => Backed (fun a => a = address ∨ tried a) q
  | .subscribe t regs :: q => (∀ r ∈ regs, r.topic = t ∧ tried r.addr) ∧ Backed tried q
  | .unsubscribe _ :: q => Backed tried q

theorem Backed.mono {tried tried' : Str → Prop} (h : ∀ a, tried a → tried' a)
    {q : List SubscriberCommand} (hq : Backed tried q) : Backed tried' q := by
  induction q generalizing tried tried' with
  | nil => trivial
  | cons c q ih =>
      cases c with
      | connect address => exact ih (fun a => Or.imp_right (h a)) hq
      | subscribe t regs => exact ⟨fun r hr => (hq.1 r hr).imp_right (h _), ih h hq.2⟩
      | unsubscribe t => exact ih h hq

theorem Backed.append {tried : Str → Prop} {q new : List SubscriberCommand}
    (hq : Backed tried q) (hnew : Backed (fun a => tried a ∨ .connect a ∈ q) new) :
    Backed tried (q ++ new) := by
  induction q generalizing tried with
  | nil => exact hnew.mono fun a ha => ha.resolve_right (by simp)
  | cons c q ih =>
      cases c with
      | connect address =>
          refine ih hq (hnew.mono fun a ha => ?_)
          rcases ha with ha | ha
          · exact .inl (.inr ha)
          · rcases List.mem_cons.mp ha with heq | ha
            · exact .inl (.inl (SubscriberCommand.connect.inj heq))
            · exact .inr ha
      | subscribe t regs =>
          refine ⟨hq.1, ih hq.2 (hnew.mono fun a ha => ?_)⟩
          simpa using ha
      | unsubscribe t =>
          refine ih hq (hnew.mono fun a ha => ?_)
          simpa using ha

/-- The queue is in order, and endpoints that are filed were tried or are about to be. -/
structure Ordered (tried : Str → Prop) (rt : MessageRuntime) : Prop where
  queued : Backed tried rt.subscriberCommands
  filed : ∀ a, rt.remotePublishers.hasPublisher a = true →
    tried a ∨ .connect a ∈ rt.subscriberCommands

variable {tried : Str → Prop} {rt rt' : MessageRuntime}

/-- Something is told to the runtime, to whom it says nothing about endpoints. -/
theorem Ordered.of_sub (h : Ordered tried rt)
    (hc : rt'.subscriberCommands = rt.subscriberCommands)
    (hp : ∀ t q x, x ∈ rt'.remotePublishers.pubsOf t q → x ∈ rt.remotePublishers.pubsOf t q) :
    Ordered tried rt' := by
  refine ⟨hc ▸ h.queued, fun a ha => ?_⟩
  obtain ⟨t, q, x, hx, hax⟩ := (hasPublisher_iff _).mp ha
  rw [hc]
  exact h.filed a ((hasPublisher_iff _).mpr ⟨t, q, x, hp t q x hx, hax⟩)

/-- What makes `onPublisherConnected` do something. -/
def Reacts (rt : MessageRuntime) (pub : MessagePublisherInfo) : Prop :=
  rt.localSubscribers.hasSubscriber pub.topic = true ∧ pub.processUuid ≠ rt.processUuid

theorem reaction_of_not_reacts {pub : MessagePublisherInfo} (h : ¬ Reacts rt pub) :
    rt.reaction pub = [] ∧ rt.onPublisherConnected pub = rt := by
  have hcond : (!rt.localSubscribers.hasSubscriber pub.topic ||
      decide (pub.processUuid = rt.processUuid)) = true := by
    by_cases hs : rt.localSubscribers.hasSubscriber pub.topic = true
    · have hu : pub.processUuid = rt.processUuid := by
        by_contra hne
        exact h ⟨hs, hne⟩
      simp [hu]
    · simp [hs]
  constructor
  · rw [reaction, if_pos hcond]
  · rw [onPublisherConnected, if_pos hcond]

theorem reaction_of_reacts {pub : MessagePublisherInfo} (h : Reacts rt pub) :
    rt.reaction pub = (if rt.remotePublishers.hasPublisher pub.addr then []
      else [.connect pub.addr]) ++ [.subscribe pub.topic (rt.registrationsFor pub)] ∧
    (rt.onPublisherConnected pub).remotePublishers = (rt.remotePublishers.addPublisher pub).1 := by
  have hcond : ¬ (!rt.localSubscribers.hasSubscriber pub.topic ||
      decide (pub.processUuid = rt.processUuid)) = true := by simp [h.1, h.2]
  constructor
  · rw [reaction, if_neg hcond]
  · simp only [onPublisherConnected, if_neg hcond]
    split <;> rfl

theorem hasPublisher_addPublisher {st : TopicStorage MessagePublisherInfo}
    {pub : MessagePublisherInfo} {a : Str} :
    (st.addPublisher pub).1.hasPublisher a = true ↔ st.hasPublisher a = true ∨ a = pub.addr := by
  simp only [hasPublisher_iff, mem_pubsOf_addPublisher]
  constructor
  · rintro ⟨t, q, x, hx | ⟨-, -, -, rfl⟩, hax⟩
    · exact .inl ⟨t, q, x, hx, hax⟩
    · exact .inr hax.symm
  · rintro (⟨t, q, x, hx, hax⟩ | rfl)
    · exact ⟨t, q, x, .inl hx, hax⟩
    · -- a record that stands in its place has the same address
      by_cases hadd : (st.addPublisher pub).2 = true
      · exact ⟨_, _, pub, .inr ⟨hadd, rfl, rfl, rfl⟩, rfl⟩
      · rw [addPublisher_snd] at hadd
        push Not at hadd
        obtain ⟨x, hx, hsame⟩ := hadd
        refine ⟨_, _, x, .inl hx, ?_⟩
        have haddr :
            PubLike.addr x = PubLike.addr pub ∧ PubLike.nodeUuid x = PubLike.nodeUuid pub := by
          simpa [sameEndpoint] using hsame
        exact haddr.1

theorem of_mem_registrationsFor {pub r : MessagePublisherInfo} (h : r ∈ rt.registrationsFor pub) :
    r.topic = pub.topic ∧ r.addr = pub.addr := by
  obtain ⟨n, -, rfl⟩ := List.mem_map.mp h
  exact ⟨rfl, rfl⟩

theorem Ordered.onPublisherConnected (h : Ordered tried rt) (pub : MessagePublisherInfo) :
    Ordered tried (rt.onPublisherConnected pub) := by
  by_cases hreacts : Reacts rt pub
  · obtain ⟨hreaction, hremote⟩ := reaction_of_reacts hreacts
    have hcommands := commands_onPublisherConnected rt pub
    rw [hreaction] at hcommands
    refine ⟨?_, fun a ha => ?_⟩
    · rw [hcommands]
      refine h.queued.append ?_
      by_cases hp : rt.remotePublishers.hasPublisher pub.addr = true
      · rw [if_pos hp]
        refine ⟨fun r hr => ?_, trivial⟩
        obtain ⟨htopic, haddr⟩ := of_mem_registrationsFor hr
        exact ⟨htopic, haddr ▸ h.filed _ hp⟩
      · rw [if_neg hp]
        exact ⟨fun r hr => (of_mem_registrationsFor hr).imp_right .inl, trivial⟩
    · rw [hremote, hasPublisher_addPublisher] at ha
      rw [hcommands]
      have hold : ∀ b, rt.remotePublishers.hasPublisher b = true → tried b ∨
          .connect b ∈ rt.subscriberCommands ++ ((if rt.remotePublishers.hasPublisher pub.addr
            then [] else [.connect pub.addr]) ++
              [.subscribe pub.topic (rt.registrationsFor pub)]) :=
        fun b hb => (h.filed b hb).imp_right fun hm => List.mem_append.mpr (.inl hm)
      rcases ha with ha | rfl
      · exact hold a ha
      · by_cases hp : rt.remotePublishers.hasPublisher pub.addr = true
        · exact hold _ hp
        · rw [if_neg hp]
          simp
  · rw [(reaction_of_not_reacts hreacts).2]
    exact h

theorem Ordered.onCallback (h : Ordered tried rt) (c : Callback MessagePublisherInfo) :
    Ordered tried (rt.onCallback c) := by
  cases c with
  | connection pub => exact h.onPublisherConnected pub
  | disconnection pub =>
      apply h.of_sub (commands_onPublisherDisconnected pub)
      intro t q x hx
      exact remotePublishers_onPublisherDisconnected pub hx
  | registration pub =>
      simp only [MessageRuntime.onCallback, onSubscriberRegistered]
      split
      · exact h
      · exact ⟨h.queued, h.filed⟩
  | unregistration pub =>
      simp only [MessageRuntime.onCallback, onSubscriberUnregistered]
      split
      · exact h
      · exact ⟨h.queued, h.filed⟩

theorem Ordered.absorb (h : Ordered tried rt) (o : Outcome MessagePublisherInfo) :
    Ordered tried (rt.absorb o).1 := by
  have hfold : ∀ (cs : List (Callback MessagePublisherInfo)) (rt : MessageRuntime),
      Ordered tried rt → Ordered tried (cs.foldl MessageRuntime.onCallback rt) := by
    intro cs
    induction cs with
    | nil => exact fun rt h => h
    | cons c cs ih => exact fun rt h => ih _ (h.onCallback c)
  exact hfold o.calls _ ⟨h.queued, h.filed⟩

/-- Every step but that of the receive thread keeps the order. -/
theorem Ordered.perform {a : Action} {sent : List Msgs.Discovery} (h : Ordered tried rt)
    (hp : rt.perform a = some (rt', sent)) (ha : ∀ ok, a ≠ .applyCommand ok) :
    Ordered tried rt' := by
  cases a with
  | subscribe topic nodeUuid handler =>
      obtain ⟨rfl, -⟩ := fst_snd_of_some hp
      have hadded : Ordered tried { rt with
          localSubscribers := rt.localSubscribers.addHandler topic nodeUuid handler.handlerUuid
            handler } := ⟨h.queued, h.filed⟩
      exact hadded.absorb (rt.discovery.discover topic).1
  | unsubscribe topic nodeUuid =>
      obtain ⟨rfl, -⟩ := fst_snd_of_some hp
      simp only [unsubscribe]
      split
      case isTrue => exact ⟨h.queued, h.filed⟩
      case isFalse =>
        refine ⟨h.queued.append trivial, fun a ha => ?_⟩
        exact (h.filed a ha).imp_right fun hm => List.mem_append.mpr (.inl hm)
  | applyCommand ok => exact absurd rfl (ha ok)
  | advertise topic nodeUuid msgType options =>
      rw [perform_advertise] at hp
      obtain ⟨rfl, -⟩ := fst_snd_of_some hp
      exact h.absorb _
  | unadvertise topic nodeUuid =>
      obtain ⟨rfl, -⟩ := fst_snd_of_some hp
      exact h.absorb _
  | recv fromIp m now =>
      obtain ⟨rfl, -⟩ := fst_snd_of_some hp
      exact h.absorb _
  | heartbeat now later =>
      obtain ⟨rfl, -⟩ := fst_snd_of_some hp
      exact h.absorb _
  | activity now later =>
      obtain ⟨rfl, -⟩ := fst_snd_of_some hp
      exact h.absorb _

/-! ## Which Connects are queued -/

/-- Telling the runtime of publishers queues a Connect to an endpoint that is not filed. -/
theorem connect_mem_onConnected (pubs : List MessagePublisherInfo) (a : Str) :
    .connect a ∈ ((pubs.map Callback.connection).foldl onCallback rt).subscriberCommands ↔
      .connect a ∈ rt.subscriberCommands ∨ rt.remotePublishers.hasPublisher a = false ∧
        ∃ pub ∈ pubs, pub.addr = a ∧ Reacts rt pub := by
  induction pubs generalizing rt with
  | nil => simp
  | cons pub pubs ih =>
      have hl := rt.localSubscribers_onPublisherConnected pub
      have hu := rt.processUuid_onPublisherConnected pub
      have hsame : ∀ x, Reacts (rt.onPublisherConnected pub) x ↔ Reacts rt x := by
        intro x
        rw [Reacts, Reacts, hl, hu]
      rw [List.map_cons, List.foldl_cons, ih]
      change (.connect a ∈ (rt.onPublisherConnected pub).subscriberCommands ∨
        (rt.onPublisherConnected pub).remotePublishers.hasPublisher a = false ∧
          ∃ x ∈ pubs, x.addr = a ∧ Reacts (rt.onPublisherConnected pub) x) ↔ _
      simp only [hsame]
      by_cases hreacts : Reacts rt pub
      · obtain ⟨hreaction, hremote⟩ := reaction_of_reacts hreacts
        have hfiled : (rt.onPublisherConnected pub).remotePublishers.hasPublisher a = false ↔
            rt.remotePublishers.hasPublisher a = false ∧ a ≠ pub.addr := by
          rw [hremote, ← Bool.not_eq_true, hasPublisher_addPublisher, not_or, Bool.not_eq_true]
        have hqueued : .connect a ∈ (rt.onPublisherConnected pub).subscriberCommands ↔
            .connect a ∈ rt.subscriberCommands ∨
              rt.remotePublishers.hasPublisher a = false ∧ a = pub.addr := by
          rw [commands_onPublisherConnected, hreaction, List.mem_append]
          refine or_congr_right ?_
          cases hp : rt.remotePublishers.hasPublisher pub.addr with
          | true =>
              simp only [if_true, List.nil_append, List.mem_singleton, reduceCtorEq, false_iff]
              rintro ⟨hnot, rfl⟩
              rw [hp] at hnot
              cases hnot
          | false =>
              simp only [Bool.false_eq_true, if_false, List.mem_append, List.mem_singleton,
                SubscriberCommand.connect.injEq, reduceCtorEq, or_false]
              refine ⟨fun h => ⟨h ▸ hp, h⟩, fun h => h.2⟩
        rw [hqueued, hfiled]
        constructor
        · rintro ((hold | ⟨hp, rfl⟩) | ⟨⟨hp, -⟩, x, hx, hax⟩)
          · exact .inl hold
          · exact .inr ⟨hp, pub, List.mem_cons_self, rfl, hreacts⟩
          · exact .inr ⟨hp, x, List.mem_cons_of_mem _ hx, hax⟩
        · rintro (hold | ⟨hp, x, hx, hax, hxr⟩)
          · exact .inl (.inl hold)
          · by_cases heq : a = pub.addr
            · exact .inl (.inr ⟨hp, heq⟩)
            · rcases List.mem_cons.mp hx with rfl | hx
              · exact absurd hax.symm heq
              · exact .inr ⟨⟨hp, heq⟩, x, hx, hax, hxr⟩
      · rw [(reaction_of_not_reacts hreacts).2]
        refine or_congr_right (and_congr_right fun _ => ?_)
        constructor
        · rintro ⟨x, hx, hax⟩
          exact ⟨x, List.mem_cons_of_mem _ hx, hax⟩
        · rintro ⟨x, hx, hax, hxr⟩
          rcases List.mem_cons.mp hx with rfl | hx
          · exact absurd hxr hreacts
          · exact ⟨x, hx, hax, hxr⟩

/-- After `addHandler` the topic has a handler. -/
theorem hasSubscriber_addHandler (hs : HandlerWrapper) (t n u : Str) (h : SubscriptionHandler) :
    HandlerWrapper.hasSubscriber (hs.addHandler t n u h) t = true := by
  simp only [HandlerWrapper.hasSubscriber, HandlerStorage.hasHandlersForTopic,
    HandlerStorage.addHandler, Std.ExtTreeMap.getElem?_insert_self, Bool.not_eq_true']
  refine Bool.eq_false_iff.mpr fun hempty => ?_
  exact Std.ExtTreeMap.insert_ne_empty (Std.ExtTreeMap.isEmpty_iff.mp hempty)

/-! ## Runs -/

variable {s t : Connections} {a : Action}

/-- A Connect to the address was applied. -/
def Tried (s : Connections) (address : Str) : Prop := ∃ ok, (address, ok) ∈ s.attempts

structure Inv (s : Connections) : Prop where
  running : s.rt.Running
  wellFormed : s.rt.discovery.knownPublishers.WellFormed
  connected : ∀ a, a ∈ s.rt.subscriber.connected ↔ (a, true) ∈ s.attempts
  ordered : Ordered s.Tried s.rt

/-- Once tried, an endpoint is connected or has failed. -/
theorem Inv.not_failed (h : s.Inv) {address : Str} (ht : s.Tried address) :
    ¬ s.Failed address ↔ address ∈ s.rt.subscriber.connected := by
  rw [h.connected, Failed]
  constructor
  · intro hf
    by_contra hno
    obtain ⟨ok, hok⟩ := ht
    cases ok with
    | true => exact hno hok
    | false => exact hf ⟨hok, hno⟩
  · exact fun hok hf => hf.2 hok

/-- Only the receive thread touches the socket. -/
theorem subscriber_perform {sent : List Msgs.Discovery} (h : rt.perform a = some (rt', sent))
    (ha : ∀ ok, a ≠ .applyCommand ok) : rt'.subscriber = rt.subscriber := by
  have habsorb : ∀ (rt : MessageRuntime) (o : Outcome MessagePublisherInfo),
      (rt.absorb o).1.subscriber = rt.subscriber :=
    fun rt o => (congrArg subscriber (onCallbacks_eq { rt with discovery := o.self } o.calls) :)
  cases a with
  | subscribe topic nodeUuid handler =>
      obtain ⟨rfl, -⟩ := fst_snd_of_some h
      exact habsorb _ _
  | unsubscribe topic nodeUuid =>
      obtain ⟨rfl, -⟩ := fst_snd_of_some h
      simp only [unsubscribe]
      split <;> rfl
  | applyCommand ok => exact absurd rfl (ha ok)
  | advertise topic nodeUuid msgType options =>
      rw [perform_advertise] at h
      obtain ⟨rfl, -⟩ := fst_snd_of_some h
      exact habsorb _ _
  | unadvertise topic nodeUuid =>
      obtain ⟨rfl, -⟩ := fst_snd_of_some h
      exact habsorb _ _
  | recv fromIp m now =>
      obtain ⟨rfl, -⟩ := fst_snd_of_some h
      exact habsorb _ _
  | heartbeat now later =>
      obtain ⟨rfl, -⟩ := fst_snd_of_some h
      exact habsorb _ _
  | activity now later =>
      obtain ⟨rfl, -⟩ := fst_snd_of_some h
      exact habsorb _ _

theorem Inv.step (h : s.Inv) (ht : s.next a = some t) : t.Inv := by
  obtain ⟨⟨rt', sent⟩, hp, rfl⟩ := Option.map_eq_some_iff.mp ht
  refine ⟨(kept_perform h.running hp).running h.running,
    h.wellFormed.edited (knownAfter_perform h.running hp).edited, ?_, ?_⟩
  · -- the socket and the record of the Connects
    intro b
    by_cases ha : ∃ ok, a = .applyCommand ok
    · obtain ⟨ok, rfl⟩ := ha
      obtain ⟨c, rest, hq, rfl, -⟩ := perform_applyCommand _ hp
      have hold := h.connected b
      cases c with
      | connect address =>
          simp only [attempted, hq, applySubscriberCommand, List.mem_append,
            List.mem_singleton, Prod.mk.injEq, ← hold]
          cases ok with
          | true => simp
          | false => simp
      | subscribe topic regs =>
          simp only [attempted, hq, applySubscriberCommand, List.append_nil, ← hold]
          split <;> rfl
      | unsubscribe topic =>
          simp only [attempted, hq, applySubscriberCommand, List.append_nil, ← hold]
          split <;> rfl
    · have ha' : ∀ ok, a ≠ .applyCommand ok := fun ok heq => ha ⟨ok, heq⟩
      have hnone : s.attempted a = [] := by
        cases a with
        | applyCommand ok => exact absurd rfl (ha' ok)
        | _ => rfl
      simp only [subscriber_perform hp ha', hnone, List.append_nil]
      exact h.connected b
  · -- the order of the queue
    by_cases ha : ∃ ok, a = .applyCommand ok
    · obtain ⟨ok, rfl⟩ := ha
      obtain ⟨c, rest, sub, hq, hx⟩ := applyNextCommand_eq s.rt hp
      obtain rfl := hx
      have hqueued := h.ordered.queued
      have hfiled := h.ordered.filed
      rw [hq] at hqueued
      simp only [hq] at hfiled
      cases c with
      | connect address =>
          have htried : ∀ b, (b = address ∨ s.Tried b) →
              ∃ ok', (b, ok') ∈ s.attempts ++ [(address, ok)] := by
            rintro b (rfl | ⟨ok', hok⟩)
            · exact ⟨ok, List.mem_append.mpr (.inr List.mem_cons_self)⟩
            · exact ⟨ok', List.mem_append.mpr (.inl hok)⟩
          simp only [attempted, hq]
          refine ⟨hqueued.mono htried, fun b hb => ?_⟩
          rcases hfiled b hb with ht | hm
          · exact .inl (htried b (.inr ht))
          · rcases List.mem_cons.mp hm with heq | hm
            · exact .inl (htried b (.inl (SubscriberCommand.connect.inj heq)))
            · exact .inr hm
      | subscribe topic regs =>
          simp only [attempted, hq, List.append_nil]
          refine ⟨hqueued.2, fun b hb => ?_⟩
          exact (hfiled b hb).imp_right fun hm => by simpa using hm
      | unsubscribe topic =>
          simp only [attempted, hq, List.append_nil]
          refine ⟨hqueued, fun b hb => ?_⟩
          exact (hfiled b hb).imp_right fun hm => by simpa using hm
    · have ha' : ∀ ok, a ≠ .applyCommand ok := fun ok heq => ha ⟨ok, heq⟩
      have htried : ∀ b, s.Tried b → ∃ ok, (b, ok) ∈ s.attempts ++ s.attempted a := by
        intro b hb
        obtain ⟨ok, hok⟩ := hb
        exact ⟨ok, List.mem_append.mpr (.inl hok)⟩
      have hordered := h.ordered.perform hp ha'
      exact ⟨hordered.queued.mono htried, fun b hb => (hordered.filed b hb).imp_left (htried b)⟩

/-! ## One step -/

theorem addr_parsed_announcement (d : Discovery MessagePublisherInfo) (r : MessagePublisherInfo) :
    (parsed (d.announcement .newConnection r)).addr = r.addr ∧
      (parsed (d.announcement .newConnection r)).topic = r.topic := by
  rw [parsed, Discovery.setFromDiscovery_announcement]
  exact ⟨rfl, rfl⟩

/-- NEW_CONNECTIONs come from the receive thread. -/
theorem type_of_sent (hr : rt.Running) {sent : List Msgs.Discovery}
    (hp : rt.perform a = some (rt', sent)) (ha : ∀ ok, a ≠ .applyCommand ok) {m : Msgs.Discovery}
    (hm : m ∈ sent) : m.type ≠ .newConnection := by
  cases sends_perform hr hp hm with
  | announce h => nofun
  | retract h => nofun
  | register hq hr => exact absurd rfl (ha _)
  | unregister => nofun
  | subscribe hu ht =>
      rw [ht]
      nofun
  | heartbeat hu ht =>
      rw [ht]
      nofun

/-- The step of the receive thread. -/
theorem Inv.ready_iff (h : s.Inv) (ok : Bool) :
    (∀ rt' sent, s.rt.perform (.applyCommand ok) = some (rt', sent) →
      ∀ m ∈ sent, m.type = .newConnection →
        (parsed m).addr ∈ rt'.subscriber.connected ∧ (parsed m).topic ∈ rt'.subscriber.filters) ↔
    s.Harmless (.applyCommand ok) := by
  simp only [perform, applyNextCommand, Harmless]
  cases hq : s.rt.subscriberCommands with
  | nil => simp
  | cons c rest =>
      cases c with
      | connect address =>
          refine iff_of_true (fun rt' sent hp m hm => ?_) (fun _ _ _ h => by cases h)
          obtain ⟨-, rfl⟩ := fst_snd_of_some hp
          simp only [applySubscriberCommand] at hm
          split at hm <;> cases hm
      | unsubscribe topic =>
          refine iff_of_true (fun rt' sent hp m hm => ?_) (fun _ _ _ h => by cases h)
          obtain ⟨-, rfl⟩ := fst_snd_of_some hp
          simp only [applySubscriberCommand] at hm
          split at hm <;> cases hm
      | subscribe topic regs =>
          have hqueued := h.ordered.queued
          rw [hq] at hqueued
          by_cases hset : (s.rt.localSubscribers.hasSubscriber topic && ok) = true
          · obtain ⟨hsub, rfl⟩ := Bool.and_eq_true_iff.mp hset
            simp only [applySubscriberCommand, if_pos hset, Option.some.injEq, Prod.mk.injEq]
            constructor
            · rintro hready t regs' rest' heq - - r hr hfits
              obtain ⟨hc, -⟩ := List.cons.inj heq
              obtain ⟨rfl, rfl⟩ := SubscriberCommand.subscribe.inj hc
              have hsent : s.rt.discovery.announcement .newConnection r ∈
                  regs.flatMap s.rt.discovery.registerNode :=
                List.mem_flatMap.mpr ⟨r, hr,
                  (Discovery.mem_sendMsg _ (.inr (.inr (.inl rfl)))).mpr ⟨rfl, hfits⟩⟩
              have hconnected := (hready _ _ ⟨rfl, rfl⟩ _ hsent rfl).1
              rw [(addr_parsed_announcement _ r).1] at hconnected
              exact (h.not_failed (hqueued.1 r hr).2).mpr hconnected
            · rintro hharmless rt' sent ⟨rfl, rfl⟩ m hm -
              obtain ⟨r, hr, hm⟩ := List.mem_flatMap.mp hm
              obtain ⟨rfl, hfits⟩ := (Discovery.mem_sendMsg _ (.inr (.inr (.inl rfl)))).mp hm
              obtain ⟨haddr, htopic⟩ := addr_parsed_announcement s.rt.discovery r
              obtain ⟨hrt, htried⟩ := hqueued.1 r hr
              rw [haddr, htopic, hrt]
              have hfailed := hharmless topic regs rest rfl hsub trivial r hr hfits
              exact ⟨(h.not_failed htried).mp hfailed,
                List.mem_cons_self⟩
          · refine iff_of_true (fun rt' sent hp m hm => ?_) ?_
            · obtain ⟨-, rfl⟩ := fst_snd_of_some hp
              simp only [applySubscriberCommand, if_neg hset] at hm
              cases hm
            · rintro t regs' rest' heq hsub rfl
              obtain ⟨hc, -⟩ := List.cons.inj heq
              obtain ⟨rfl, rfl⟩ := SubscriberCommand.subscribe.inj hc
              exact absurd (Bool.and_eq_true_iff.mpr ⟨hsub, rfl⟩) hset

/-- A publisher that is found again has a Connect queued if its endpoint is not filed, or
if one is in the queue already. -/
theorem Inv.retried_iff (h : s.Inv) {rt' : MessageRuntime} {sent : List Msgs.Discovery}
    (hp : s.rt.perform a = some (rt', sent)) {pub : MessagePublisherInfo}
    (hfound : s.FoundAgain a pub) :
    .connect pub.addr ∈ rt'.subscriberCommands ↔
      s.rt.remotePublishers.hasPublisher pub.addr = false ∨
        .connect pub.addr ∈ s.rt.subscriberCommands := by
  cases a with
  | subscribe topic nodeUuid handler =>
      obtain ⟨hne, q, hq⟩ := hfound
      obtain ⟨rfl, -⟩ := fst_snd_of_some hp
      obtain ⟨pubs, hcalls, hpubs⟩ := calls_discover_eq h.running.enabled h.running.connection topic
      have htopic : pub.topic = topic := (h.wellFormed.filed hq).1
      simp only [subscribe, MessageRuntime.absorb, hcalls]
      rw [connect_mem_onConnected, or_comm]
      refine or_congr_left (and_iff_left ⟨pub, (hpubs pub).mpr ⟨q, hq⟩, rfl, ?_, hne⟩)
      rw [htopic]
      exact hasSubscriber_addHandler ..
  | recv fromIp m now =>
      obtain ⟨hne, hnew, -, hsub⟩ := hfound
      obtain ⟨rfl, -⟩ := fst_snd_of_some hp
      obtain ⟨hadds, hadd⟩ := List.mem_filter.mp hnew
      rw [Option.mem_toList] at hadds
      rw [commands_recv h.running, hadds, Option.map_some, Option.getD_some, if_pos hadd,
        List.mem_append, (reaction_of_reacts ⟨hsub, hne⟩).1, or_comm]
      refine or_congr_left ?_
      cases s.rt.remotePublishers.hasPublisher pub.addr with
      | true => simp
      | false => simp
  | _ => cases hfound

/-- **One step**: what is promised is kept if and only if the step is harmless. -/
theorem Inv.promised_iff (h : s.Inv) : s.Promised a ↔ s.Harmless a := by
  by_cases ha : ∃ ok, a = .applyCommand ok
  · obtain ⟨ok, rfl⟩ := ha
    rw [← h.ready_iff]
    exact ⟨fun hp => hp.ready, fun hready => ⟨hready, fun _ _ _ _ hfound => by cases hfound⟩⟩
  · have ha' : ∀ ok, a ≠ .applyCommand ok := fun ok heq => ha ⟨ok, heq⟩
    have hharmless : s.Harmless a ↔ ∀ pub, s.FoundAgain a pub → s.Failed pub.addr →
        s.rt.remotePublishers.hasPublisher pub.addr = false ∨
          .connect pub.addr ∈ s.rt.subscriberCommands := by
      cases a with
      | applyCommand ok => exact absurd rfl (ha' ok)
      | _ => rfl
    rw [hharmless]
    constructor
    · intro hp pub hfound hfailed
      have hsome : ∃ x, s.rt.perform a = some x := by
        cases a with
        | applyCommand ok => exact absurd rfl (ha' ok)
        | _ => exact ⟨_, rfl⟩
      obtain ⟨⟨rt', sent⟩, hperform⟩ := hsome
      exact (h.retried_iff hperform hfound).mp (hp.retried rt' sent hperform pub hfound hfailed)
    · intro hh
      refine ⟨fun rt' sent hp m hm ht => absurd ht (type_of_sent h.running hp ha' hm), ?_⟩
      intro rt' sent hp pub hfound hfailed
      exact (h.retried_iff hp hfound).mpr (hh pub hfound hfailed)

/-- A started process. -/
def start (processUuid processName hostAddr address : Str) : Connections :=
  { rt := .init processUuid processName hostAddr address }

theorem inv_start (processUuid processName hostAddr address : Str) :
    (start processUuid processName hostAddr address).Inv :=
  ⟨running_init .., wellFormed_empty, fun a => by simp [start, MessageRuntime.init], trivial,
    fun a ha => by simp [start, MessageRuntime.init, hasPublisher_iff] at ha⟩

/-- **The data plane is ready when a NEW_CONNECTION is sent, and a failed Connect is tried
again**, in every step of a run if and only if every step of the run is harmless. -/
theorem data_plane_ready_iff (processUuid processName hostAddr address : Str)
    (as : List Action) :
    Guarded next Promised (start processUuid processName hostAddr address) as ↔
      Guarded next Harmless (start processUuid processName hostAddr address) as := by
  have hstep : ∀ (G : Connections → Action → Prop) (s : Connections) (a : Action)
      (t : Connections), s.Inv → G s a → s.next a = some t → t.Inv :=
    fun _ _ _ _ hs _ ht => hs.step ht
  constructor
  · exact guarded_of_invariant (hstep _) (fun _ _ hs hp => hs.promised_iff.mp hp) (inv_start ..)
  · exact guarded_of_invariant (hstep _) (fun _ _ hs hh => hs.promised_iff.mpr hh) (inv_start ..)

/-! ## An endpoint that is none -/

def example4a : Connections := start (str "4a") (str "p") (str "10.0.0.1") (str "tcp://a")

/-- Node `m` subscribes for type `A`. -/
def exampleSubscribe : Action := .subscribe (str "t") (str "m") ⟨str "u", str "m", str "A"⟩

/-- The node subscribes, process 5b advertises with an address that is no endpoint, and the
Connect throws. -/
def spoilt : List Action :=
  [exampleSubscribe,
    .recv (str "10.0.0.2")
      { processUuid := str "5b", type := .advertise,
        contents := .pub
          { topic := str "t", address := str "nowhere", nodeUuid := str "n", scope := .all,
            pubType := .msgPub { ctrl := [], msgType := str "A" } } } 0,
    .applyCommand false]

def afterSpoilt : Connections := (exec next example4a spoilt).getD example4a

/-- The Subscribe that follows sends the NEW_CONNECTION; a later `subscribe` queues no
Connect. -/
theorem spoilt_not_promised :
    ¬ Guarded next Promised example4a (spoilt ++ [.applyCommand true]) ∧
      ¬ Guarded next Promised example4a (spoilt ++ [exampleSubscribe]) := by
  have hrun : exec next example4a spoilt = some afterSpoilt := rfl
  constructor
  · intro h
    have hstep := ((guarded_append.mp h).2 _ hrun).1
    obtain ⟨x, hx, m, hm, htype, hnot⟩ : ∃ x, afterSpoilt.rt.perform (.applyCommand true) = some x ∧
        ∃ m ∈ x.2, m.type = .newConnection ∧ (parsed m).addr ∉ x.1.subscriber.connected :=
      ⟨_, rfl, by decide⟩
    exact hnot (hstep.ready x.1 x.2 hx m hm htype).1
  · intro h
    have hstep := ((guarded_append.mp h).2 _ hrun).1
    obtain ⟨x, hx, pub, hpub, hne, hfailed, hnot⟩ : ∃ x,
        afterSpoilt.rt.perform exampleSubscribe = some x ∧
          ∃ pub ∈ afterSpoilt.rt.discovery.knownPublishers.pubsOf (str "t") (str "5b"),
            pub.processUuid ≠ afterSpoilt.rt.processUuid ∧ afterSpoilt.Failed pub.addr ∧
              .connect pub.addr ∉ x.1.subscriberCommands :=
      ⟨_, rfl, by decide⟩
    exact hnot (hstep.retried x.1 x.2 hx pub ⟨hne, _, hpub⟩ hfailed)

end Connections
end RfTrans
