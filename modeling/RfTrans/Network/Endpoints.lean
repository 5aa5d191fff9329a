import RfTrans.Network.Links
import RfTrans.Runtime.Connections

/-!
# Who is connected to whom

A process connects to endpoints that datagrams tell of, and takes registrations that
datagrams ask for; it hears its own datagrams too.  Nowhere does it check that an endpoint
is not its own.  That it never talks to itself, and to nobody that it has no business with,
follows from what the datagrams of all the processes can say.

## Main definitions

* `MessageRuntime.Uses` — the endpoints that a process has to do with.
* `Scoped.Asked` — who has subscribed to what.
* `Scoped.Peer` — another process with a publisher that is asked for.
* `Scoped.only_peers`
-/

namespace RfTrans

open Exec TopicStorage

namespace MessageRuntime

open Connections

variable {rt rt' : MessageRuntime}

/-- The socket is connected to the endpoint or about to be, or the endpoint is filed. -/
def Uses (rt : MessageRuntime) (address : Str) : Prop :=
  address ∈ rt.subscriber.connected ∨ .connect address ∈ rt.subscriberCommands ∨
    rt.remotePublishers.hasPublisher address = true

/-- Nothing but the endpoint of a publisher that is reported comes into use. -/
theorem uses_onCallback {c : Callback MessagePublisherInfo} {address : Str}
    (h : (rt.onCallback c).Uses address) :
    rt.Uses address ∨ ∃ pub, c = .connection pub ∧ pub.addr = address ∧ Reacts rt pub := by
  cases c with
  | connection pub =>
      by_cases hreacts : Reacts rt pub
      · obtain ⟨hreaction, hremote⟩ := reaction_of_reacts hreacts
        rcases h with h | h | h
        · exact .inl (.inl ((congrArg subscriber (rt.onCallback_eq (.connection pub)) :) ▸ h))
        · have hc : .connect address ∈ (rt.onPublisherConnected pub).subscriberCommands := h
          rw [commands_onPublisherConnected, hreaction] at hc
          rcases List.mem_append.mp hc with hc | hc
          · exact .inl (.inr (.inl hc))
          · refine .inr ⟨pub, rfl, ?_, hreacts⟩
            rcases List.mem_append.mp hc with hc | hc
            · split at hc
              case isTrue => cases hc
              case isFalse =>
                exact (SubscriberCommand.connect.inj (List.mem_singleton.mp hc)).symm
            · cases List.mem_singleton.mp hc
        · have hp : (rt.onPublisherConnected pub).remotePublishers.hasPublisher address = true := h
          rw [hremote, hasPublisher_addPublisher] at hp
          rcases hp with hp | hp
          · exact .inl (.inr (.inr hp))
          · exact .inr ⟨pub, rfl, hp.symm, hreacts⟩
      · have hsame : rt.onCallback (.connection pub) = rt := (reaction_of_not_reacts hreacts).2
        exact .inl (hsame ▸ h)
  | disconnection pub =>
      left
      rcases h with h | h | h
      · exact .inl ((congrArg subscriber (rt.onCallback_eq (.disconnection pub)) :) ▸ h)
      · exact .inr (.inl (commands_onPublisherDisconnected pub ▸ h))
      · obtain ⟨t, q, x, hx, haddr⟩ := (hasPublisher_iff _).mp h
        exact .inr (.inr ((hasPublisher_iff _).mpr
          ⟨t, q, x, remotePublishers_onPublisherDisconnected pub hx, haddr⟩))
  | registration pub =>
      simp only [onCallback, onSubscriberRegistered] at h
      split at h
      · exact .inl h
      · exact .inl h
  | unregistration pub =>
      simp only [onCallback, onSubscriberUnregistered] at h
      split at h
      · exact .inl h
      · exact .inl h

/-- Reports leave the handlers and the identity alone. -/
theorem reacts_onCallback {c : Callback MessagePublisherInfo} {pub : MessagePublisherInfo} :
    Reacts (rt.onCallback c) pub ↔ Reacts rt pub := by
  have hl : (rt.onCallback c).localSubscribers = rt.localSubscribers :=
    (congrArg localSubscribers (rt.onCallback_eq c) :)
  have hu : (rt.onCallback c).processUuid = rt.processUuid :=
    (congrArg MessageRuntime.processUuid (rt.onCallback_eq c) :)
  rw [Reacts, Reacts, hl, hu]

theorem uses_absorb {o : Outcome MessagePublisherInfo} {address : Str}
    (h : (rt.absorb o).1.Uses address) :
    rt.Uses address ∨ ∃ pub, .connection pub ∈ o.calls ∧ pub.addr = address ∧ Reacts rt pub := by
  have hfold : ∀ (cs : List (Callback MessagePublisherInfo)) (rt : MessageRuntime),
      (cs.foldl onCallback rt).Uses address →
      rt.Uses address ∨ ∃ pub, .connection pub ∈ cs ∧ pub.addr = address ∧ Reacts rt pub := by
    intro cs
    induction cs with
    | nil => exact fun rt h => .inl h
    | cons c cs ih =>
        intro rt h
        rcases ih _ h with h | ⟨pub, hc, haddr, hreacts⟩
        · rcases uses_onCallback h with h | ⟨pub, rfl, haddr, hreacts⟩
          · exact .inl h
          · exact .inr ⟨pub, List.mem_cons_self, haddr, hreacts⟩
        · exact .inr ⟨pub, List.mem_cons_of_mem _ hc, haddr, reacts_onCallback.mp hreacts⟩
  exact hfold o.calls { rt with discovery := o.self } h

/-- A datagram reports the publisher that it adds. -/
theorem adds_of_connection {fromIp : Str} {m : Msgs.Discovery} {now : ℕ}
    {pub : MessagePublisherInfo}
    (h : .connection pub ∈ (rt.discovery.dispatchDiscoveryMsg fromIp m now).calls) :
    rt.adds (.recv fromIp m now) = some pub := by
  simp only [Discovery.dispatchDiscoveryMsg] at h
  split at h
  case isTrue => cases h
  case isFalse hne =>
    split at h
    case h_1 ht =>
      split at h
      case isTrue => cases h
      case isFalse hv =>
        split at h
        case isTrue =>
          obtain rfl := Callback.connection.inj (List.mem_singleton.mp h)
          exact if_pos ⟨hne, ht, Bool.not_eq_true _ ▸ hv⟩
        case isFalse => cases h
    case h_2 =>
      split at h
      case isTrue => cases h
      case isFalse => split at h <;> simp at h
    case h_3 => split at h <;> cases h
    case h_4 => split at h <;> simp at h
    case h_5 => split at h <;> simp at h
    case h_6 => cases h
    case h_7 => split at h <;> simp at h
    all_goals cases h

/-- **The endpoints that come into use in a step** are those of publishers of other processes,
reported for a topic with subscribers. -/
theorem uses_perform (hr : rt.Running) {a : Action} {sent : List Msgs.Discovery} {address : Str}
    (h : rt.perform a = some (rt', sent)) (hu : rt'.Uses address) :
    rt.Uses address ∨ ∃ pub, Reports rt a pub ∧ pub.addr = address ∧
      pub.processUuid ≠ rt.processUuid ∧ rt'.localSubscribers.hasSubscriber pub.topic = true := by
  cases a with
  | advertise topic nodeUuid msgType options =>
      rw [perform_advertise] at h
      obtain ⟨rfl, -⟩ := fst_snd_of_some h
      rcases uses_absorb hu with hu | ⟨pub, hc, -, -, hne⟩
      · exact .inl hu
      · obtain rfl := Callback.connection.inj (calls_advertise hc)
        exact absurd rfl hne
  | unadvertise topic nodeUuid =>
      obtain ⟨rfl, -⟩ := fst_snd_of_some h
      rcases uses_absorb hu with hu | ⟨pub, hc, -⟩
      · exact .inl hu
      · rw [calls_unadvertise] at hc
        cases hc
  | subscribe topic nodeUuid handler =>
      obtain ⟨rfl, -⟩ := fst_snd_of_some h
      obtain ⟨pubs, hcalls, hpubs⟩ := calls_discover_eq hr.enabled hr.connection topic
      rcases uses_absorb hu with hu | ⟨pub, hc, haddr, hsub, hne⟩
      · exact .inl hu
      · rw [hcalls] at hc
        obtain ⟨pub', hpub, heq⟩ := List.mem_map.mp hc
        obtain rfl := Callback.connection.inj heq
        obtain ⟨q, hq⟩ := (hpubs pub').mp hpub
        refine .inr ⟨pub', .discover hq, haddr, hne, ?_⟩
        rw [subscribe, localSubscribers_absorb]
        exact hsub
  | unsubscribe topic nodeUuid =>
      obtain ⟨rfl, -⟩ := fst_snd_of_some h
      simp only [unsubscribe] at hu
      split at hu
      · exact .inl hu
      · left
        rcases hu with hu | hu | hu
        · exact .inl hu
        · rcases List.mem_append.mp hu with hu | hu
          · exact .inr (.inl hu)
          · cases List.mem_singleton.mp hu
        · exact .inr (.inr hu)
  | recv fromIp m now =>
      obtain ⟨rfl, -⟩ := fst_snd_of_some h
      rcases uses_absorb hu with hu | ⟨pub, hc, haddr, hsub, hne⟩
      · exact .inl hu
      · refine .inr ⟨pub, .hear (adds_of_connection hc), haddr, hne, ?_⟩
        rw [recvDiscoveryMsg, localSubscribers_absorb]
        exact hsub
  | heartbeat now later =>
      obtain ⟨rfl, -⟩ := fst_snd_of_some h
      rcases uses_absorb hu with hu | ⟨pub, hc, -⟩
      · exact .inl hu
      · rw [calls_updateHeartbeat] at hc
        cases hc
  | activity now later =>
      obtain ⟨rfl, -⟩ := fst_snd_of_some h
      rcases uses_absorb hu with hu | ⟨pub, hc, -⟩
      · exact .inl hu
      · simp only [Discovery.updateActivity] at hc
        split at hc
        · cases hc
        · split at hc <;> simp at hc
  | applyCommand ok =>
      obtain ⟨c, rest, hq, rfl, -⟩ := perform_applyCommand _ h
      left
      cases c with
      | connect a =>
          simp only [applySubscriberCommand] at hu
          cases ok with
          | false => exact hu.imp_right (Or.imp_left fun hu => hq ▸ List.mem_cons_of_mem _ hu)
          | true =>
              rcases hu with hu | hu | hu
              · rcases List.mem_append.mp hu with hu | hu
                · exact .inl hu
                · refine .inr (.inl ?_)
                  rw [hq, List.mem_singleton.mp hu]
                  exact List.mem_cons_self
              · exact .inr (.inl (hq ▸ List.mem_cons_of_mem _ hu))
              · exact .inr (.inr hu)
      | subscribe t regs =>
          simp only [applySubscriberCommand] at hu
          split at hu
          · exact hu.imp_right (Or.imp_left fun hu => hq ▸ List.mem_cons_of_mem _ hu)
          · exact hu.imp_right (Or.imp_left fun hu => hq ▸ List.mem_cons_of_mem _ hu)
      | unsubscribe t =>
          simp only [applySubscriberCommand] at hu
          split at hu
          · exact hu.imp_right (Or.imp_left fun hu => hq ▸ List.mem_cons_of_mem _ hu)
          · exact hu.imp_right (Or.imp_left fun hu => hq ▸ List.mem_cons_of_mem _ hu)

/-- Who has subscribers after a step had them before, or has just subscribed. -/
theorem hasSubscriber_perform (hf : rt.localSubscribers.Filled) {a : Action}
    {sent : List Msgs.Discovery} (h : rt.perform a = some (rt', sent)) {t : Str}
    (hs : rt'.localSubscribers.hasSubscriber t = true) :
    rt.localSubscribers.hasSubscriber t = true ∨ ∃ n handler, a = .subscribe t n handler := by
  rw [localSubscribers_perform h] at hs
  cases a with
  | subscribe topic nodeUuid handler =>
      obtain ⟨g, hg⟩ := (HandlerStorage.hasHandlersForTopic_iff _
        (hf.addHandler _ topic nodeUuid handler.handlerUuid handler)).mp hs
      obtain ⟨n, u, hu⟩ := (HandlerStorage.mem_handlersOf _).mp hg
      rw [HandlerStorage.handler?_addHandler] at hu
      split at hu
      case isTrue heq => exact .inr ⟨nodeUuid, handler, by rw [heq.1]⟩
      case isFalse =>
        exact .inl ((HandlerStorage.hasHandlersForTopic_iff _ hf).mpr
          ⟨g, (HandlerStorage.mem_handlersOf _).mpr ⟨n, u, hu⟩⟩)
  | unsubscribe topic nodeUuid =>
      obtain ⟨g, hg⟩ := (HandlerStorage.hasHandlersForTopic_iff _
        (hf.removeHandlersForNode _ topic nodeUuid)).mp hs
      obtain ⟨n, u, hu⟩ := (HandlerStorage.mem_handlersOf _).mp hg
      rw [HandlerStorage.handler?_removeHandlersForNode] at hu
      split at hu
      case isTrue => cases hu
      case isFalse =>
        exact .inl ((HandlerStorage.hasHandlersForTopic_iff _ hf).mpr
          ⟨g, (HandlerStorage.mem_handlersOf _).mpr ⟨n, u, hu⟩⟩)
  | _ => exact .inl hs

/-- Who registers has a handler. -/
theorem hasSubscriber_of_registration (hf : rt.localSubscribers.Filled)
    {pub r : MessagePublisherInfo} (h : r ∈ rt.registrationsFor pub) :
    rt.localSubscribers.hasSubscriber pub.topic = true := by
  obtain ⟨n, hn, -⟩ := List.mem_map.mp h
  obtain ⟨g, hg, -⟩ := List.mem_map.mp hn
  exact (HandlerStorage.hasHandlersForTopic_iff _ hf).mpr ⟨g, (List.mem_filter.mp hg).1⟩

end MessageRuntime

namespace Scoped

open MessageRuntime

variable {ι : Type} [DecidableEq ι] {c : Hosts ι} {s s' : Scoped ι}

/-- A process has subscribed to a topic in the course of a run. -/
def Asked (as : List (Net.Action ι)) (j : ι) (topic : Str) : Prop :=
  ∃ nodeUuid handler, .act j (.subscribe topic nodeUuid handler) ∈ as

/-- Process `k` is another one than `j`, and has advertised a publisher that `j` may see, of a
topic that `j` has subscribed to. -/
def Peer (c : Hosts ι) (as : List (Net.Action ι)) (s : Scoped ι) (k j : ι) (topic : Str) : Prop :=
  k ≠ j ∧ Seen c s k topic j ∧ Asked as j topic

omit [DecidableEq ι] in
theorem Asked.mono {as : List (Net.Action ι)} {j : ι} {topic : Str} (h : Asked as j topic)
    (a : Net.Action ι) : Asked (as ++ [a]) j topic := by
  obtain ⟨n, handler, h⟩ := h
  exact ⟨n, handler, List.mem_append.mpr (.inl h)⟩

theorem Peer.mono {as : List (Net.Action ι)} {a : Net.Action ι} {k j : ι} {topic : Str}
    (h : next s a = some s') (hp : Peer c as s k j topic) : Peer c (as ++ [a]) s' k j topic :=
  ⟨hp.1, hp.2.1.mono h, hp.2.2.mono a⟩

/-- What the tables, the queues and the datagrams say of endpoints. -/
structure Wired (c : Hosts ι) (as : List (Net.Action ι)) (s : Scoped ι) : Prop where
  inv : Inv c s
  filled : ∀ j, (s.net.proc j).localSubscribers.Filled
  asked : ∀ {j t}, (s.net.proc j).localSubscribers.hasSubscriber t = true → Asked as j t
  known : ∀ {j t q x}, x ∈ (s.net.proc j).discovery.knownPublishers.pubsOf t q →
    ∃ k, q = c.uuid k ∧ x.addr = c.address k
  uses : ∀ {j a}, (s.net.proc j).Uses a → ∃ k t, a = c.address k ∧ Peer c as s k j t
  queued : ∀ {j t regs r}, .subscribe t regs ∈ (s.net.proc j).subscriberCommands → r ∈ regs →
    Asked as j r.topic
  registered : ∀ {k t q x}, x ∈ (s.net.proc k).remoteSubscribers.pubsOf t q →
    ∃ j, q = c.uuid j ∧ j ≠ k ∧ Seen c s k t j ∧ Asked as j t
  advertised : ∀ {i j m}, m ∈ s.net.chan i j → m.type = .advertise →
    (parsed m).addr = c.address i
  registering : ∀ {i j m}, m ∈ s.net.chan i j → m.type = .newConnection →
    Asked as i (parsed m).topic

omit [DecidableEq ι] in
theorem wired_start (c : Hosts ι) : Wired c [] (start c) where
  inv := inv_start c
  filled _ := HandlerStorage.filled_empty
  asked hs := by
    obtain ⟨g, hg⟩ := (HandlerStorage.hasHandlersForTopic_iff _ HandlerStorage.filled_empty).mp hs
    obtain ⟨n, u, hu⟩ := (HandlerStorage.mem_handlersOf _).mp hg
    simp [HandlerStorage.handler?] at hu
  known hx := by simp [start, Net.start, MessageRuntime.init] at hx
  uses hu := by simp [Uses, start, Net.start, MessageRuntime.init, hasPublisher_iff] at hu
  queued hq := by simp [start, Net.start, MessageRuntime.init] at hq
  registered hx := by simp [start, Net.start, MessageRuntime.init] at hx
  advertised hm := by cases hm
  registering hm := by cases hm

section Step

variable {as : List (Net.Action ι)} {a : Net.Action ι}

/-- What a process does by itself is in the run. -/
theorem asked_of_localAction {j : ι} {t n : Str} {handler : SubscriptionHandler}
    (h : s.net.localAction j a = some (.subscribe t n handler)) : Asked (as ++ [a]) j t := by
  cases a with
  | act k b =>
      simp only [Net.localAction] at h
      obtain ⟨⟨rfl, -⟩, hb⟩ := Option.ite_none_right_eq_some.mp h
      obtain rfl := Option.some.inj hb
      exact ⟨n, handler, by simp⟩
  | deliver k l now =>
      simp only [Net.localAction] at h
      obtain ⟨-, hm⟩ := Option.ite_none_right_eq_some.mp h
      obtain ⟨m, -, hm⟩ := Option.map_eq_some_iff.mp hm
      cases hm
  | lose k l => cases h

theorem Wired.asked_step (hw : Wired c as s) (h : next s a = some s') {j : ι} {t : Str}
    (hs : (s'.net.proc j).localSubscribers.hasSubscriber t = true) : Asked (as ++ [a]) j t := by
  rcases proc_step h j with heq | ⟨b, sent, hb, hp⟩
  · rw [heq] at hs
    exact (hw.asked hs).mono a
  · rcases hasSubscriber_perform (hw.filled j) hp hs with hs | ⟨n, handler, rfl⟩
    · exact (hw.asked hs).mono a
    · exact asked_of_localAction hb

theorem Wired.filled_step (hw : Wired c as s) (h : next s a = some s') (j : ι) :
    (s'.net.proc j).localSubscribers.Filled := by
  rcases proc_step h j with heq | ⟨b, sent, hb, hp⟩
  · rw [heq]
    exact hw.filled j
  · exact filled_perform (hw.filled j) hp

/-- A publisher that a datagram tells of has the endpoint of the datagram's sender. -/
theorem Wired.of_adds (hw : Wired c as s) {j : ι} {fromIp : Str} {m : Msgs.Discovery} {now : ℕ}
    (hb : s.net.localAction j a = some (.recv fromIp m now)) {x : MessagePublisherInfo}
    (hx : (s.net.proc j).adds (.recv fromIp m now) = some x) :
    ∃ k, x.processUuid = c.uuid k ∧ x.addr = c.address k := by
  obtain ⟨k, hm, rfl⟩ := Net.mem_chan_of_recv hb
  obtain ⟨⟨-, ht, -⟩, hsome⟩ := Option.ite_none_right_eq_some.mp hx
  obtain rfl := Option.some.inj hsome
  obtain ⟨p, -, heq⟩ := (hw.inv.genuine hm).advertise ht
  exact ⟨k, heq ▸ rfl, hw.advertised hm ht⟩

theorem Wired.known_step (hw : Wired c as s) (h : next s a = some s') {j : ι} {t q : Str}
    {x : MessagePublisherInfo}
    (hx : x ∈ (s'.net.proc j).discovery.knownPublishers.pubsOf t q) :
    ∃ k, q = c.uuid k ∧ x.addr = c.address k := by
  rcases proc_step h j with heq | ⟨b, sent, hb, hp⟩
  · rw [heq] at hx
    exact hw.known hx
  · have hs := hw.inv.healthy.sound j
    rcases ((knownAfter_perform hs.running hp).mem _ _ _).mp hx with ⟨hx, -⟩ | ⟨hadds, -, -, rfl⟩
    · exact hw.known hx
    · cases b with
      | advertise topic nodeUuid msgType options =>
          obtain rfl := Option.some.inj hadds
          exact ⟨j, hw.inv.healthy.uuid j, hw.inv.healthy.address j⟩
      | recv fromIp m now => exact hw.of_adds hb hadds
      | _ => cases hadds

/-- A publisher of another process that is reported belongs to a peer. -/
theorem Wired.of_reports (hw : Wired c as s) (h : next s a = some s') {j : ι}
    {b : MessageRuntime.Action} (hb : s.net.localAction j a = some b) {pub : MessagePublisherInfo}
    (hrep : Reports (s.net.proc j) b pub) (hne : pub.processUuid ≠ (s.net.proc j).processUuid)
    (hasked : Asked (as ++ [a]) j pub.topic) :
    ∃ k t, pub.addr = c.address k ∧ Peer c (as ++ [a]) s' k j t := by
  rw [hw.inv.healthy.uuid] at hne
  cases hrep with
  | discover hpub =>
      obtain ⟨rfl, rfl⟩ := (hw.inv.healthy.sound j).wellFormed.filed hpub
      obtain ⟨k, huuid, haddr⟩ := hw.known hpub
      have hkj : k ≠ j := fun hkj => hne (hkj ▸ huuid)
      have huuid' : pub.processUuid = c.uuid k := huuid
      have hpub' : pub ∈ (s.net.proc j).discovery.knownPublishers.pubsOf pub.topic (c.uuid k) := by
        rw [← huuid']
        exact hpub
      exact ⟨k, pub.topic, haddr, hkj, (hw.inv.known hkj.symm hpub').mono h, hasked⟩
  | hear hadds =>
      obtain ⟨k, huuid, haddr⟩ := hw.of_adds hb hadds
      have hkj : k ≠ j := fun hkj => hne (hkj ▸ huuid)
      exact ⟨k, pub.topic, haddr, hkj, (seen_of_adds hw.inv hb hadds huuid).mono h, hasked⟩

theorem Wired.uses_step (hw : Wired c as s) (h : next s a = some s') {j : ι} {address : Str}
    (hu : (s'.net.proc j).Uses address) :
    ∃ k t, address = c.address k ∧ Peer c (as ++ [a]) s' k j t := by
  have hold : (s.net.proc j).Uses address →
      ∃ k t, address = c.address k ∧ Peer c (as ++ [a]) s' k j t := by
    intro hu
    obtain ⟨k, t, haddr, hpeer⟩ := hw.uses hu
    exact ⟨k, t, haddr, hpeer.mono h⟩
  rcases proc_step h j with heq | ⟨b, sent, hb, hp⟩
  · exact hold (heq ▸ hu)
  · rcases uses_perform (hw.inv.healthy.sound j).running hp hu with
      hu | ⟨pub, hrep, rfl, hne, hsub⟩
    · exact hold hu
    · exact hw.of_reports h hb hrep hne (hw.asked_step h hsub)

theorem Wired.queued_step (hw : Wired c as s) (h : next s a = some s') {j : ι} {t : Str}
    {regs : List MessagePublisherInfo} {r : MessagePublisherInfo}
    (hq : .subscribe t regs ∈ (s'.net.proc j).subscriberCommands) (hr : r ∈ regs) :
    Asked (as ++ [a]) j r.topic := by
  rcases proc_step h j with heq | ⟨b, sent, hb, hp⟩
  · rw [heq] at hq
    exact (hw.queued hq hr).mono a
  · rcases queued_perform (hw.inv.healthy.sound j).running hp hq with
      hq | hq | ⟨pub, -, -, heq⟩
    · exact (hw.queued hq hr).mono a
    · exact absurd rfl (hq t regs)
    · -- the handlers were looked up in the state after the step
      obtain ⟨rfl, rfl⟩ := SubscriberCommand.subscribe.inj heq
      rw [topic_of_mem_registrationsFor hr]
      exact hw.asked_step h (hasSubscriber_of_registration (hw.filled_step h j) hr)

theorem Wired.registered_step (hw : Wired c as s) (h : next s a = some s') {k : ι} {t q : Str}
    {x : MessagePublisherInfo} (hx : x ∈ (s'.net.proc k).remoteSubscribers.pubsOf t q) :
    ∃ j, q = c.uuid j ∧ j ≠ k ∧ Seen c s' k t j ∧ Asked (as ++ [a]) j t := by
  have hold : x ∈ (s.net.proc k).remoteSubscribers.pubsOf t q →
      ∃ j, q = c.uuid j ∧ j ≠ k ∧ Seen c s' k t j ∧ Asked (as ++ [a]) j t := by
    intro hx
    obtain ⟨j, hq, hjk, hseen, hasked⟩ := hw.registered hx
    exact ⟨j, hq, hjk, hseen.mono h, hasked.mono a⟩
  rcases proc_step h k with heq | ⟨b, sent, hb, hp⟩
  · exact hold (heq ▸ hx)
  · have hs := hw.inv.healthy.sound k
    rcases (registrationsAfter_perform hs.running hp _ _ _).mp hx with
      ⟨hx, -⟩ | ⟨hreg, -, rfl, rfl⟩
    · exact hold hx
    · cases b with
      | recv fromIp m now =>
          obtain ⟨⟨hne, ht, hctrl⟩, hsome⟩ := Option.ite_none_right_eq_some.mp hreg
          obtain rfl := Option.some.inj hsome
          obtain ⟨j, hm, -⟩ := Net.mem_chan_of_recv hb
          have hg := hw.inv.genuine hm
          obtain ⟨hq, hseen⟩ := hg.newConnection ht
          rw [hw.inv.healthy.uuid] at hctrl
          -- a datagram of the process itself is not read
          rw [hg.processUuid, hw.inv.discoveryUuid] at hne
          exact ⟨j, hq, fun hjk => hne (hjk ▸ rfl), (hseen k hctrl).mono h,
            (hw.registering hm ht).mono a⟩
      | _ => cases hreg

theorem Wired.advertised_step (hw : Wired c as s) (h : next s a = some s') {i j : ι}
    {m : Msgs.Discovery} (hm : m ∈ s'.net.chan i j) (ht : m.type = .advertise) :
    (parsed m).addr = c.address i := by
  rcases Net.mem_chan_next (net_next h) hm with hm | ⟨b, sent, hb, hp, hm⟩
  · exact hw.advertised hm ht
  · have hs := hw.inv.healthy.sound i
    cases sends_perform hs.running hp hm with
    | announce hx =>
        obtain ⟨t, hx⟩ := hx
        rw [(kept_perform hs.running hp).discoveryUuid, hw.inv.discoveryUuid] at hx
        obtain ⟨k, huuid, haddr⟩ := hw.known_step h hx
        obtain rfl := c.uuid_inj huuid
        rw [parsed, Discovery.setFromDiscovery_announcement]
        exact haddr
    | retract hx => cases ht
    | register hq hr => cases ht
    | unregister => cases ht
    | subscribe hu hs => cases hs.symm.trans ht
    | heartbeat hu hs => cases hs.symm.trans ht

theorem Wired.registering_step (hw : Wired c as s) (h : next s a = some s') {i j : ι}
    {m : Msgs.Discovery} (hm : m ∈ s'.net.chan i j) (ht : m.type = .newConnection) :
    Asked (as ++ [a]) i (parsed m).topic := by
  rcases Net.mem_chan_next (net_next h) hm with hm | ⟨b, sent, hb, hp, hm⟩
  · exact (hw.registering hm ht).mono a
  · cases sends_perform (hw.inv.healthy.sound i).running hp hm with
    | announce hx => cases ht
    | retract hx => cases ht
    | register hq hr =>
        rw [(Connections.addr_parsed_announcement _ _).2]
        exact (hw.queued (hq ▸ List.mem_cons_self) hr).mono a
    | unregister => cases ht
    | subscribe hu hs => cases hs.symm.trans ht
    | heartbeat hu hs => cases hs.symm.trans ht

/-- **The step lemma.** -/
theorem Wired.step (hw : Wired c as s) (h : next s a = some s') : Wired c (as ++ [a]) s' where
  inv := hw.inv.step h
  filled := hw.filled_step h
  asked := hw.asked_step h
  known := hw.known_step h
  uses := hw.uses_step h
  queued := hw.queued_step h
  registered := hw.registered_step h
  advertised := hw.advertised_step h
  registering := hw.registering_step h

end Step

theorem wired_of_exec {as : List (Net.Action ι)} (h : exec next (start c) as = some s) :
    Wired c as s := by
  induction as using List.reverseRecOn generalizing s with
  | nil =>
      obtain rfl := Option.some.inj h
      exact wired_start c
  | append_singleton as a ih =>
      obtain ⟨t, ht, hstep⟩ := exec_append_eq_some h
      rw [exec_cons, Option.bind_eq_some_iff] at hstep
      obtain ⟨u, hu, hrest⟩ := hstep
      obtain rfl := Option.some.inj hrest
      exact (ih ht).step hu

/-- **Everyone talks to peers only**, in every state of every run: an endpoint that a process
is connected to, is about to connect to or has filed is that of another process, which has
advertised a publisher that this one may see, of a topic that this one has subscribed to;
and who is registered with a process is another process of which the same holds. -/
theorem only_peers (c : Hosts ι) (as : List (Net.Action ι)) (s : Scoped ι)
    (h : exec next (start c) as = some s) (j : ι) :
    (∀ address, (s.net.proc j).Uses address →
      ∃ k topic, address = c.address k ∧ Peer c as s k j topic) ∧
    ∀ topic q, (s.net.proc j).remoteSubscribers.pubsOf topic q ≠ [] →
      ∃ i, q = c.uuid i ∧ Peer c as s j i topic := by
  have hw := wired_of_exec h
  refine ⟨fun address => hw.uses, fun topic q hne => ?_⟩
  obtain ⟨x, hx⟩ := List.exists_mem_of_ne_nil _ hne
  obtain ⟨i, hq, hij, hseen, hasked⟩ := hw.registered hx
  exact ⟨i, hq, hij.symm, hseen, hasked⟩

/-- In a run of two processes each is the other's peer. -/
theorem only_peers_two_topics :
    ((stateAfter twoTopicsRun).net.proc false).Uses (str "tcp://10.0.0.1:4000") ∧
      (∃ k topic, str "tcp://10.0.0.1:4000" = exampleHosts.address k ∧
        Peer exampleHosts twoTopicsRun (stateAfter twoTopicsRun) k false topic) := by
  have hu : ((stateAfter twoTopicsRun).net.proc false).Uses (str "tcp://10.0.0.1:4000") :=
    .inl (by decide)
  exact ⟨hu, (only_peers exampleHosts twoTopicsRun (stateAfter twoTopicsRun) rfl false).1 _ hu⟩

/-- **What a process publishes does not come back to it**, where no two processes have one
address. -/
theorem not_uses_own {as : List (Net.Action ι)} (h : exec next (start c) as = some s)
    (haddr : Function.Injective c.address) (j : ι) : ¬ (s.net.proc j).Uses (c.address j) := by
  intro hu
  obtain ⟨k, t, heq, hkj, -⟩ := (wired_of_exec h).uses hu
  exact hkj (haddr heq).symm

end Scoped
end RfTrans
