import RfTrans.Discovery.Sent
import RfTrans.Runtime.Known

/-!
# What a step sends and queues

The datagrams of a step, and the commands it adds to the queue of the receive thread,
each with the reason it is there.

## Main definitions

* `MessageRuntime.Sends` — what a step may send.
* `MessageRuntime.Reports` — the publishers of which a step tells the runtime.
* `sends_perform`, `queued_perform` — there is nothing else.
-/

namespace RfTrans
namespace MessageRuntime

open TopicStorage Std

/-- A record of an own publisher in the table. -/
def Owns (rt : MessageRuntime) (x : MessagePublisherInfo) : Prop :=
  ∃ t, x ∈ rt.discovery.knownPublishers.pubsOf t rt.discovery.processUuid

/-- The datagrams that a step may send, before and after it. -/
inductive Sends (rt rt' : MessageRuntime) : Action → Msgs.Discovery → Prop
  | announce {a : Action} {x : MessagePublisherInfo} (h : rt'.Owns x) :
    Sends rt rt' a (rt.discovery.announcement .advertise x)
  | retract {t n : Str} {x : MessagePublisherInfo}
    (h : rt.discovery.knownPublishers.getPublisher t rt.discovery.processUuid n = some x) :
    Sends rt rt' (.unadvertise t n) (rt.discovery.announcement .unadvertise x)
  | register {ok : Bool} {t : Str} {regs : List MessagePublisherInfo}
    {rest : List SubscriberCommand} {r : MessagePublisherInfo}
    (hq : rt.subscriberCommands = .subscribe t regs :: rest) (hr : r ∈ regs) :
    Sends rt rt' (.applyCommand ok) (rt.discovery.announcement .newConnection r)
  | unregister {t n q : Str} : Sends rt rt' (.unsubscribe t n)
    (rt.discovery.announcement .endConnection (rt.unregistration t n q))
  | subscribe {t n : Str} {h : SubscriptionHandler} {m : Msgs.Discovery}
    (hu : m.processUuid = rt.discovery.processUuid) (ht : m.type = .subscribe) :
    Sends rt rt' (.subscribe t n h) m
  | heartbeat {now later : ℕ} {m : Msgs.Discovery} (hu : m.processUuid = rt.discovery.processUuid)
    (ht : m.type = .heartbeat) : Sends rt rt' (.heartbeat now later) m

variable {rt rt' : MessageRuntime} {m : Msgs.Discovery}

theorem Sends.processUuid {a : Action} (h : Sends rt rt' a m) :
    m.processUuid = rt.discovery.processUuid := by
  cases h with
  | announce h => rfl
  | retract h => rfl
  | register hq hr => rfl
  | unregister => rfl
  | subscribe hu ht => exact hu
  | heartbeat hu ht => exact hu

/-! ## Whole steps -/

theorem Sends.of_sendMsg {a : Action} {x : MessagePublisherInfo} (hx : rt'.Owns x)
    (hm : m ∈ rt.discovery.sendMsg .advertise x) : Sends rt rt' a m := by
  rw [((Discovery.mem_sendMsg _ (.inl rfl)).mp hm).1]
  exact .announce hx

theorem Kept.discoveryUuid (h : Kept rt rt') :
    rt'.discovery.processUuid = rt.discovery.processUuid := by
  obtain ⟨known, seen, heartbeat, activity, hd⟩ := h.discovery
  rw [hd]

/-- `unsubscribe` tells every process with a known publisher of the topic. -/
theorem sent_unsubscribe (rt : MessageRuntime) (topic nodeUuid : Str) :
    (rt.unsubscribe topic nodeUuid).2 =
      (((rt.discovery.knownPublishers.getPublishers topic).map ExtTreeMap.keys).getD []).flatMap
        fun process =>
          rt.discovery.sendMsg .endConnection (rt.unregistration topic nodeUuid process) := by
  simp only [unsubscribe]
  split
  case isTrue => cases rt.discovery.knownPublishers.getPublishers topic <;> rfl
  case isFalse =>
    simp only [enqueueSubscriberCommand]
    cases rt.discovery.knownPublishers.getPublishers topic <;> rfl

theorem mem_sent_applyCommand {c : SubscriberCommand} {ok : Bool}
    (hm : m ∈ (rt.applySubscriberCommand c ok).2) :
    ∃ t regs, c = .subscribe t regs ∧
      m ∈ regs.flatMap fun r => rt.discovery.sendMsg .newConnection r := by
  cases c with
  | connect address =>
      simp only [applySubscriberCommand] at hm
      split at hm <;> cases hm
  | subscribe t regs =>
      simp only [applySubscriberCommand] at hm
      split at hm
      case isTrue => exact ⟨t, regs, rfl, hm⟩
      case isFalse => cases hm
  | unsubscribe t =>
      simp only [applySubscriberCommand] at hm
      split at hm <;> cases hm

/-- The datagrams of the receive thread register someone. -/
theorem mem_sent_applyNext {ok : Bool} {sent : List Msgs.Discovery} {m : Msgs.Discovery}
    (h : rt.perform (.applyCommand ok) = some (rt', sent)) (hm : m ∈ sent) :
    ∃ t regs rest, rt.subscriberCommands = .subscribe t regs :: rest ∧
      ∃ r ∈ regs, m ∈ rt.discovery.sendMsg .newConnection r := by
  obtain ⟨c, rest, hq, -, rfl⟩ := perform_applyCommand _ h
  obtain ⟨t, regs, rfl, hregs⟩ := mem_sent_applyCommand hm
  obtain ⟨r, hr, hm⟩ := List.mem_flatMap.mp hregs
  exact ⟨t, regs, rest, hq, r, hr, hm⟩

/-- **What a step sends.** -/
theorem sends_perform {a : Action} {sent : List Msgs.Discovery} (hr : rt.Running)
    (h : rt.perform a = some (rt', sent)) (hm : m ∈ sent) : Sends rt rt' a m := by
  have hu := (kept_perform hr h).discoveryUuid
  cases a with
  | advertise topic nodeUuid msgType options =>
      have hknown := (knownAfter_perform hr h).mem
      rw [perform_advertise] at h
      obtain ⟨-, rfl⟩ := fst_snd_of_some h
      obtain ⟨hadd, -, hm⟩ := (Discovery.mem_sent_advertise hr.enabled).mp hm
      refine .of_sendMsg ⟨topic, ?_⟩ hm
      rw [hknown, hu]
      exact .inr ⟨rfl, hadd, rfl, hr.uuid⟩
  | unadvertise topic nodeUuid =>
      obtain ⟨-, rfl⟩ := fst_snd_of_some h
      obtain ⟨x, hx, -, hm⟩ := (Discovery.mem_sent_unadvertise hr.enabled).mp hm
      rw [((Discovery.mem_sendMsg _ (.inr (.inl rfl))).mp hm).1]
      exact .retract hx
  | subscribe topic nodeUuid handler =>
      obtain ⟨-, rfl⟩ := fst_snd_of_some h
      obtain ⟨hmu, hmt⟩ := Discovery.mem_sent_discover hm
      exact .subscribe hmu hmt
  | unsubscribe topic nodeUuid =>
      obtain ⟨-, rfl⟩ := fst_snd_of_some h
      rw [sent_unsubscribe] at hm
      obtain ⟨process, -, hm⟩ := List.mem_flatMap.mp hm
      rw [((Discovery.mem_sendMsg _ (.inr (.inr (.inr rfl)))).mp hm).1]
      exact .unregister
  | recv fromIp m' now =>
      have hknown := (knownAfter_perform hr h).mem
      obtain ⟨-, rfl⟩ := fst_snd_of_some h
      obtain ⟨hne, ht, topic, -, hm⟩ := Discovery.mem_sent_dispatch hm
      obtain ⟨x, hx, -, hm⟩ := Discovery.mem_answerSubscribe hm
      refine .of_sendMsg ⟨topic, ?_⟩ hm
      rw [hknown, hu]
      exact .inl ⟨hx, by simp [drops, ht]⟩
  | heartbeat now later =>
      have hknown := (knownAfter_perform hr h).mem
      obtain ⟨-, rfl⟩ := fst_snd_of_some h
      rcases (Discovery.mem_sent_updateHeartbeat.mp hm).2 with hm | hm
      · obtain ⟨hmu, hmt⟩ := Discovery.mem_sendHeartbeat hm
        exact .heartbeat hmu hmt
      · obtain ⟨t, x, hx, -, hm⟩ := Discovery.mem_readvertise.mp hm
        refine .of_sendMsg ⟨t, ?_⟩ hm
        rw [hknown, hu]
        exact .inl ⟨hx, rfl⟩
  | activity now later =>
      obtain ⟨-, rfl⟩ := fst_snd_of_some h
      simp only [updateActivity, sent_absorb, Discovery.updateActivity] at hm
      split at hm <;> cases hm
  | applyCommand ok =>
      obtain ⟨t, regs, rest, hq, r, hr, hm⟩ := mem_sent_applyNext h hm
      rw [((Discovery.mem_sendMsg _ (.inr (.inr (.inl rfl)))).mp hm).1]
      exact .register hq hr

/-! ## The command queue -/

/-- The publishers of which a step tells the runtime, apart from its own. -/
inductive Reports (rt : MessageRuntime) : Action → MessagePublisherInfo → Prop
  | discover {t n q : Str} {h : SubscriptionHandler} {pub : MessagePublisherInfo}
    (hp : pub ∈ rt.discovery.knownPublishers.pubsOf t q) : Reports rt (.subscribe t n h) pub
  | hear {fromIp : Str} {m : Msgs.Discovery} {now : ℕ} {pub : MessagePublisherInfo}
    (hp : rt.adds (.recv fromIp m now) = some pub) : Reports rt (.recv fromIp m now) pub

/-- The commands that a publisher makes the runtime queue. -/
def reaction (rt : MessageRuntime) (pub : MessagePublisherInfo) : List SubscriberCommand :=
  if !rt.localSubscribers.hasSubscriber pub.topic || pub.processUuid = rt.processUuid then []
  else
    (if rt.remotePublishers.hasPublisher pub.addr then [] else [.connect pub.addr]) ++
      [.subscribe pub.topic (rt.registrationsFor pub)]

theorem commands_onPublisherConnected (rt : MessageRuntime) (pub : MessagePublisherInfo) :
    (rt.onPublisherConnected pub).subscriberCommands =
      rt.subscriberCommands ++ rt.reaction pub := by
  by_cases h : (!rt.localSubscribers.hasSubscriber pub.topic ||
      pub.processUuid = rt.processUuid) = true
  · simp only [onPublisherConnected, reaction, if_pos h, List.append_nil]
  · simp only [onPublisherConnected, reaction, if_neg h]
    by_cases hp : rt.remotePublishers.hasPublisher pub.addr = true
    · simp only [if_pos hp, enqueueSubscriberCommand, List.nil_append]
    · simp only [if_neg hp, enqueueSubscriberCommand, List.append_assoc]

/-- A command of the queue is an old one, or has no registrations, or registers with a
publisher that was reported. -/
def Queued (rt rt' : MessageRuntime) (reported : MessagePublisherInfo → Prop)
    (c : SubscriberCommand) : Prop :=
  c ∈ rt.subscriberCommands ∨ (∀ t regs, c ≠ .subscribe t regs) ∨
    ∃ pub, reported pub ∧ pub.processUuid ≠ rt.processUuid ∧
      c = .subscribe pub.topic (rt'.registrationsFor pub)

theorem mem_reaction {pub : MessagePublisherInfo} {c : SubscriberCommand}
    (h : c ∈ rt.reaction pub) : (∀ t regs, c ≠ .subscribe t regs) ∨
      pub.processUuid ≠ rt.processUuid ∧ c = .subscribe pub.topic (rt.registrationsFor pub) := by
  simp only [reaction] at h
  split at h
  case isTrue => cases h
  case isFalse hp =>
    rcases List.mem_append.mp h with h | h
    · left
      split at h
      case isTrue => cases h
      case isFalse =>
        rw [List.mem_singleton.mp h]
        exact fun t regs hc => by cases hc
    · right
      refine ⟨fun heq => hp ?_, List.mem_singleton.mp h⟩
      simp [heq]

/-- A publisher of another process, for a topic with subscribers, is registered with. -/
theorem subscribe_mem_reaction {pub : MessagePublisherInfo}
    (hsub : rt.localSubscribers.hasSubscriber pub.topic = true)
    (hne : pub.processUuid ≠ rt.processUuid) :
    .subscribe pub.topic (rt.registrationsFor pub) ∈ rt.reaction pub := by
  simp [reaction, hsub, hne]

/-- The registrations with a publisher depend on the handlers and on who we are. -/
theorem registrationsFor_congr (hl : rt'.localSubscribers = rt.localSubscribers)
    (hu : rt'.processUuid = rt.processUuid) (pub : MessagePublisherInfo) :
    rt'.registrationsFor pub = rt.registrationsFor pub := by
  simp only [registrationsFor, hl, hu]

/-- A report of a publisher touches neither the handlers nor who we are. -/
theorem localSubscribers_onPublisherConnected (rt : MessageRuntime) (pub : MessagePublisherInfo) :
    (rt.onPublisherConnected pub).localSubscribers = rt.localSubscribers :=
  (congrArg localSubscribers (rt.onCallback_eq (.connection pub)) :)

theorem processUuid_onPublisherConnected (rt : MessageRuntime) (pub : MessagePublisherInfo) :
    (rt.onPublisherConnected pub).processUuid = rt.processUuid :=
  (congrArg MessageRuntime.processUuid (rt.onCallback_eq (.connection pub)) :)

/-- Telling the runtime of publishers. -/
theorem queued_onPublisherConnected (pubs : List MessagePublisherInfo) {c : SubscriberCommand}
    (hc : c ∈ ((pubs.map Callback.connection).foldl onCallback rt).subscriberCommands) :
    Queued rt rt (fun pub => pub ∈ pubs) c := by
  induction pubs generalizing rt with
  | nil => exact .inl hc
  | cons pub pubs ih =>
      have hl := rt.localSubscribers_onPublisherConnected pub
      have hu := rt.processUuid_onPublisherConnected pub
      rcases ih hc with hc | hc | ⟨pub', hp, hne, rfl⟩
      · have hc' : c ∈ (rt.onPublisherConnected pub).subscriberCommands := hc
        rw [commands_onPublisherConnected] at hc'
        rcases List.mem_append.mp hc' with hc | hc
        · exact .inl hc
        · rcases mem_reaction hc with hc | ⟨hne, rfl⟩
          · exact .inr (.inl hc)
          · exact .inr (.inr ⟨pub, List.mem_cons_self, hne, rfl⟩)
      · exact .inr (.inl hc)
      · have hne' : pub'.processUuid ≠ rt.processUuid := hu ▸ hne
        refine .inr (.inr ⟨pub', List.mem_cons_of_mem _ hp, hne', ?_⟩)
        exact congrArg _ (registrationsFor_congr hl hu pub')

theorem commands_onPublisherDisconnected (pub : MessagePublisherInfo) :
    (rt.onPublisherDisconnected pub).subscriberCommands = rt.subscriberCommands := by
  simp only [onPublisherDisconnected]
  split <;> rfl

/-- A publisher that is gone files none. -/
theorem remotePublishers_onPublisherDisconnected (pub : MessagePublisherInfo) {t q : Str}
    {x : MessagePublisherInfo}
    (hx : x ∈ (rt.onPublisherDisconnected pub).remotePublishers.pubsOf t q) :
    x ∈ rt.remotePublishers.pubsOf t q := by
  simp only [onPublisherDisconnected] at hx
  split at hx
  case isTrue => exact ((mem_pubsOf_delPublishersByProc _).mp hx).1
  case isFalse => exact ((mem_pubsOf_delPublishersByNode _).mp hx).1

/-- Only reports of publishers of other processes queue commands. -/
theorem commands_onCallback {c : Callback MessagePublisherInfo}
    (hc : ∀ pub, c = .connection pub → pub.processUuid = rt.processUuid) :
    (rt.onCallback c).subscriberCommands = rt.subscriberCommands := by
  cases c with
  | connection pub =>
      have hown : rt.reaction pub = [] := by simp [reaction, hc pub rfl]
      exact (commands_onPublisherConnected rt pub).trans (by rw [hown, List.append_nil])
  | disconnection pub => exact commands_onPublisherDisconnected pub
  | registration pub =>
      simp only [onCallback, onSubscriberRegistered]
      split <;> rfl
  | unregistration pub =>
      simp only [onCallback, onSubscriberUnregistered]
      split <;> rfl

theorem commands_onCallbacks {cs : List (Callback MessagePublisherInfo)}
    (hcs : ∀ pub, .connection pub ∈ cs → pub.processUuid = rt.processUuid) :
    (cs.foldl onCallback rt).subscriberCommands = rt.subscriberCommands := by
  induction cs generalizing rt with
  | nil => rfl
  | cons c cs ih =>
      have hu : (rt.onCallback c).processUuid = rt.processUuid :=
        (congrArg MessageRuntime.processUuid (rt.onCallback_eq c) :)
      rw [List.foldl_cons, ih fun pub hp => hu ▸ hcs pub (List.mem_cons_of_mem _ hp)]
      exact commands_onCallback fun pub hp => hcs pub (hp ▸ List.mem_cons_self)

theorem commands_absorb {o : Outcome MessagePublisherInfo}
    (h : ∀ pub, .connection pub ∈ o.calls → pub.processUuid = rt.processUuid) :
    (rt.absorb o).1.subscriberCommands = rt.subscriberCommands :=
  @commands_onCallbacks { rt with discovery := o.self } o.calls h

theorem commands_advertise (topic nodeUuid msgType : Str) (options : AdvertiseMessageOptions) :
    (rt.advertise topic nodeUuid msgType options).1.subscriberCommands =
      rt.subscriberCommands := by
  refine @commands_absorb rt _ fun pub hp => ?_
  obtain rfl := Callback.connection.inj (calls_advertise hp)
  rfl

theorem commands_unadvertise (topic nodeUuid : Str) :
    (rt.unadvertise topic nodeUuid).1.subscriberCommands = rt.subscriberCommands := by
  rw [unadvertise, absorb, calls_unadvertise]
  rfl

theorem commands_heartbeat (now later : ℕ) :
    (rt.updateHeartbeat now later).1.subscriberCommands = rt.subscriberCommands := by
  rw [updateHeartbeat, absorb, calls_updateHeartbeat]
  rfl

/-- Silence makes no one known. -/
theorem commands_activity (hr : rt.Running) (now later : ℕ) :
    (rt.updateActivity now later).1.subscriberCommands = rt.subscriberCommands := by
  refine commands_absorb fun pub hp => ?_
  simp only [Discovery.updateActivity, hr.disconnection, if_true] at hp
  split at hp
  case isTrue => cases hp
  case isFalse => simp at hp

/-- A datagram queues commands when it tells of a publisher that is new. -/
theorem commands_recv (hr : rt.Running) (fromIp : Str) (m : Msgs.Discovery) (now : ℕ) :
    (rt.recvDiscoveryMsg fromIp m now).1.subscriberCommands = rt.subscriberCommands ++
      ((rt.adds (.recv fromIp m now)).map fun pub =>
        if (rt.discovery.knownPublishers.addPublisher pub).2 then rt.reaction pub
        else []).getD [] := by
  by_cases hne : m.processUuid = rt.discovery.processUuid
  · have hadds : rt.adds (.recv fromIp m now) = none := by simp [adds, hne]
    rw [recv_own hne, hadds]
    simp
  by_cases hadv : m.type = .advertise
  · cases hv : Discovery.hidden (parsed m) (rt.discovery.isSenderLocal fromIp) with
    | true =>
        have hadds : rt.adds (.recv fromIp m now) = none := by simp [adds, hv]
        rw [recv_hidden hne (.inl hadv) hv, hadds]
        simp [seen]
    | false =>
        have hadds : rt.adds (.recv fromIp m now) = some (parsed m) := by simp [adds, hne, hadv, hv]
        rw [hadds]
        cases hadd : (rt.discovery.knownPublishers.addPublisher (parsed m)).2 with
        | true =>
            rw [recv_advertise_new hr hne hadv hv hadd, commands_onPublisherConnected]
            simp only [Option.map_some, Option.getD_some, hadd, if_true]
            rfl
        | false =>
            rw [recv_advertise_known hne hadv hv hadd]
            simp [hadd, seen]
  have hadds : rt.adds (.recv fromIp m now) = none := by simp [adds, hadv]
  have hcalls : ∀ pub, Callback.connection pub ∉
      (rt.discovery.dispatchDiscoveryMsg fromIp m now).calls := by
    intro pub hc
    simp only [Discovery.dispatchDiscoveryMsg, if_neg hne, hr.disconnection, hr.registration,
      hr.unregistration, if_true] at hc
    split at hc
    case h_1 ht => exact hadv ht
    case h_2 => split at hc <;> simp at hc
    case h_3 => split at hc <;> cases hc
    all_goals simp at hc
  rw [hadds]
  exact (commands_absorb fun pub hp => absurd hp (hcalls pub)).trans (List.append_nil _).symm

/-- Applying a command queues none. -/
theorem commands_applyCommand (c : SubscriberCommand) (ok : Bool) :
    (rt.applySubscriberCommand c ok).1.subscriberCommands = rt.subscriberCommands := by
  obtain ⟨sub, h⟩ := rt.applySubscriberCommand_eq c ok
  rw [h]

/-- `discover` reports what is known of the topic. -/
theorem calls_discover_eq {d : Discovery MessagePublisherInfo} (he : d.enabled = true)
    (hc : d.connectionCb = true) (topic : Str) :
    ∃ pubs : List MessagePublisherInfo, (d.discover topic).1.calls = pubs.map .connection ∧
      ∀ pub, pub ∈ pubs ↔ ∃ q, pub ∈ d.knownPublishers.pubsOf topic q := by
  refine ⟨((d.knownPublishers.getPublishers topic).map fun addresses =>
    addresses.toList.flatMap fun proc => proc.2).getD [], ?_, ?_⟩
  · simp only [Discovery.discover, if_pos he, if_pos hc]
    cases d.knownPublishers.getPublishers topic with
    | none => rfl
    | some addresses => rfl
  · intro pub
    cases hget : d.knownPublishers.getPublishers topic with
    | none => simp [pubsOf_of_getPublishers _ hget]
    | some addresses => exact mem_flatMap_getPublishers _ hget

/-- **What a step queues.** -/
theorem queued_perform {a : Action} {sent : List Msgs.Discovery} (hr : rt.Running)
    (h : rt.perform a = some (rt', sent)) {c : SubscriberCommand}
    (hc : c ∈ rt'.subscriberCommands) : Queued rt rt' (Reports rt a) c := by
  cases a with
  | advertise topic nodeUuid msgType options =>
      rw [perform_advertise] at h
      obtain ⟨rfl, -⟩ := fst_snd_of_some h
      rw [commands_advertise] at hc
      exact .inl hc
  | unadvertise topic nodeUuid =>
      obtain ⟨rfl, -⟩ := fst_snd_of_some h
      rw [commands_unadvertise] at hc
      exact .inl hc
  | subscribe topic nodeUuid handler =>
      obtain ⟨rfl, -⟩ := fst_snd_of_some h
      obtain ⟨pubs, hcalls, hpubs⟩ := calls_discover_eq hr.enabled hr.connection topic
      simp only [subscribe, absorb, hcalls] at hc
      rcases queued_onPublisherConnected pubs hc with hc | hc | ⟨pub, hp, hne, rfl⟩
      · exact .inl hc
      · exact .inr (.inl hc)
      · obtain ⟨q, hq⟩ := (hpubs pub).mp hp
        refine .inr (.inr ⟨pub, .discover hq, hne, congrArg _ (Eq.symm ?_)⟩)
        exact registrationsFor_congr (localSubscribers_absorb _ _) (processUuid_absorb _ _) pub
  | unsubscribe topic nodeUuid =>
      obtain ⟨rfl, -⟩ := fst_snd_of_some h
      simp only [unsubscribe] at hc
      split at hc
      case isTrue => exact .inl hc
      case isFalse =>
        rcases List.mem_append.mp hc with hc | hc
        · exact .inl hc
        · right; left
          rw [List.mem_singleton.mp hc]
          exact fun t regs hc => by cases hc
  | recv fromIp m now =>
      obtain ⟨rfl, -⟩ := fst_snd_of_some h
      rw [commands_recv hr] at hc
      rcases List.mem_append.mp hc with hc | hc
      · exact .inl hc
      · cases hadds : rt.adds (.recv fromIp m now) with
        | none => simp [hadds] at hc
        | some pub =>
            have hreact : c ∈ rt.reaction pub := by
              by_cases hnew : (rt.discovery.knownPublishers.addPublisher pub).2 = true
              · simpa [hadds, hnew] using hc
              · simp [hadds, hnew] at hc
            rcases mem_reaction hreact with hc | ⟨hne, rfl⟩
            · exact .inr (.inl hc)
            · refine .inr (.inr ⟨pub, .hear hadds, hne, congrArg _ ?_⟩)
              exact (registrationsFor_congr (rt.localSubscribers_absorb _)
                (rt.processUuid_absorb _) pub).symm
  | heartbeat now later =>
      obtain ⟨rfl, -⟩ := fst_snd_of_some h
      rw [commands_heartbeat] at hc
      exact .inl hc
  | activity now later =>
      obtain ⟨rfl, -⟩ := fst_snd_of_some h
      rw [commands_activity hr] at hc
      exact .inl hc
  | applyCommand ok =>
      obtain ⟨c', rest, hq, rfl, -⟩ := perform_applyCommand _ h
      rw [commands_applyCommand] at hc
      left
      rw [hq]
      exact List.mem_cons_of_mem _ hc

end MessageRuntime
end RfTrans
