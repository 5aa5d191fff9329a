import RfTrans.Runtime.MessageRuntime

/-!
# What a step of a process changes

Every function of the runtime changes few of its fields.  The lemmas below say
which and how, one function at a time, so that the invariants of later modules
never look inside a function.

## Main definitions

* `MessageRuntime.Kept` — identity, address and settings are as before.
* `MessageRuntime.parsed` — the record that a datagram describes.
-/

namespace RfTrans
namespace MessageRuntime

open PubLike

variable (rt : MessageRuntime)

/-! ## Callbacks -/

/-- A callback changes the remote tables and the command queue only. -/
theorem onCallback_eq (c : Callback MessagePublisherInfo) :
    rt.onCallback c = { rt with
      remotePublishers := (rt.onCallback c).remotePublishers
      remoteSubscribers := (rt.onCallback c).remoteSubscribers
      subscriberCommands := (rt.onCallback c).subscriberCommands } := by
  cases c with
  | connection pub =>
      simp only [onCallback, onPublisherConnected]
      split
      case isTrue => rfl
      case isFalse => split <;> rfl
  | disconnection pub =>
      simp only [onCallback, onPublisherDisconnected]
      split <;> rfl
  | registration pub =>
      simp only [onCallback, onSubscriberRegistered]
      split <;> rfl
  | unregistration pub =>
      simp only [onCallback, onSubscriberUnregistered]
      split <;> rfl

theorem onCallbacks_eq (cs : List (Callback MessagePublisherInfo)) :
    cs.foldl onCallback rt = { rt with
      remotePublishers := (cs.foldl onCallback rt).remotePublishers
      remoteSubscribers := (cs.foldl onCallback rt).remoteSubscribers
      subscriberCommands := (cs.foldl onCallback rt).subscriberCommands } := by
  induction cs generalizing rt with
  | nil => rfl
  | cons c cs ih =>
      have hc := rt.onCallback_eq c
      refine (ih (rt.onCallback c)).trans ?_
      rw [congrArg discovery hc, congrArg processUuid hc, congrArg address hc,
        congrArg localSubscribers hc, congrArg subscriber hc]
      rfl

section Absorb
variable (o : Outcome MessagePublisherInfo)

@[simp] theorem discovery_absorb : (rt.absorb o).1.discovery = o.self :=
  (congrArg discovery (onCallbacks_eq { rt with discovery := o.self } o.calls) :)
@[simp] theorem processUuid_absorb : (rt.absorb o).1.processUuid = rt.processUuid :=
  (congrArg processUuid (onCallbacks_eq { rt with discovery := o.self } o.calls) :)
@[simp] theorem address_absorb : (rt.absorb o).1.address = rt.address :=
  (congrArg address (onCallbacks_eq { rt with discovery := o.self } o.calls) :)
@[simp] theorem localSubscribers_absorb :
    (rt.absorb o).1.localSubscribers = rt.localSubscribers :=
  (congrArg localSubscribers (onCallbacks_eq { rt with discovery := o.self } o.calls) :)
@[simp] theorem sent_absorb : (rt.absorb o).2 = o.sent := rfl

end Absorb

/-- Learning of publishers does not touch the registrations made here. -/
@[simp] theorem remoteSubscribers_onPublisherConnected (pub : MessagePublisherInfo) :
    (rt.onPublisherConnected pub).remoteSubscribers = rt.remoteSubscribers := by
  simp only [onPublisherConnected]
  split
  case isTrue => rfl
  case isFalse => split <;> rfl

/-- What a NEW_CONNECTION and an END_CONNECTION do when they concern this process. -/
theorem onSubscriberRegistered_eq {pub : MessagePublisherInfo} (h : pub.ctrl = rt.processUuid) :
    rt.onSubscriberRegistered pub =
      { rt with remoteSubscribers := (rt.remoteSubscribers.addPublisher pub).1 } :=
  if_neg (not_not.mpr h)

theorem onSubscriberRegistered_of_ne {pub : MessagePublisherInfo} (h : pub.ctrl ≠ rt.processUuid) :
    rt.onSubscriberRegistered pub = rt := if_pos h

theorem onSubscriberUnregistered_eq {pub : MessagePublisherInfo}
    (h : pub.ctrl = [] ∨ pub.ctrl = rt.processUuid) :
    rt.onSubscriberUnregistered pub =
      { rt with
        remoteSubscribers := (rt.remoteSubscribers.delPublishersByNode pub.topic pub.processUuid
          pub.nodeUuid).1 } := by
  refine if_neg ?_
  rintro ⟨h₁, h₂⟩
  exact h.elim h₁ h₂

theorem onSubscriberUnregistered_of_ne {pub : MessagePublisherInfo}
    (h : ¬ (pub.ctrl = [] ∨ pub.ctrl = rt.processUuid)) :
    rt.onSubscriberUnregistered pub = rt := if_pos (not_or.mp h)

/-- Learning of publishers registers no one. -/
theorem remoteSubscribers_absorb {o : Outcome MessagePublisherInfo}
    (h : ∀ c ∈ o.calls, ∃ pub, c = .connection pub) :
    (rt.absorb o).1.remoteSubscribers = rt.remoteSubscribers := by
  have hfold : ∀ (cs : List (Callback MessagePublisherInfo)) (rt : MessageRuntime),
      (∀ c ∈ cs, ∃ pub, c = .connection pub) →
      (cs.foldl onCallback rt).remoteSubscribers = rt.remoteSubscribers := by
    intro cs
    induction cs with
    | nil => exact fun rt _ => rfl
    | cons c cs ih =>
        intro rt hcs
        obtain ⟨pub, rfl⟩ := hcs c List.mem_cons_self
        rw [List.foldl_cons, ih _ fun c hc => hcs c (List.mem_cons_of_mem _ hc)]
        exact rt.remoteSubscribers_onPublisherConnected pub
  exact hfold o.calls _ h

/-! ## Identity -/

/-- Identity, address and settings are as before. -/
structure Kept (rt rt' : MessageRuntime) : Prop where
  processUuid : rt'.processUuid = rt.processUuid
  address : rt'.address = rt.address
  discovery : ∃ known seen heartbeat activity, rt'.discovery =
    { rt.discovery with
      knownPublishers := known, lastSeenByProcess := seen, timeNextHeartbeat := heartbeat,
      timeNextActivity := activity }

theorem Kept.refl : Kept rt rt := ⟨rfl, rfl, _, _, _, _, rfl⟩

theorem Kept.absorb {o : Outcome MessagePublisherInfo}
    (h : ∃ known seen heartbeat activity, o.self =
      { rt.discovery with
        knownPublishers := known, lastSeenByProcess := seen, timeNextHeartbeat := heartbeat,
        timeNextActivity := activity }) : Kept rt (rt.absorb o).1 :=
  ⟨rt.processUuid_absorb o, rt.address_absorb o, by simpa using h⟩

theorem Kept.running {rt rt' : MessageRuntime} (h : Kept rt rt') (hr : rt.Running) :
    rt'.Running := by
  obtain ⟨known, seen, heartbeat, activity, hd⟩ := h.discovery
  exact ⟨by rw [hd]; exact hr.enabled, by rw [hd, h.processUuid]; exact hr.uuid,
    by rw [hd]; exact hr.connection, by rw [hd]; exact hr.disconnection,
    by rw [hd]; exact hr.registration, by rw [hd]; exact hr.unregistration⟩

/-- What `advertise` and `unadvertise` do to the discovery instance. -/
theorem discovery_advertise (topic nodeUuid msgType : Str) (options : AdvertiseMessageOptions)
    (h : rt.discovery.enabled = true) :
    (rt.advertise topic nodeUuid msgType options).1.discovery =
      { rt.discovery with
        knownPublishers := (rt.discovery.knownPublishers.addPublisher
          (MessagePublisherInfo.make topic rt.address (str "unused") rt.processUuid nodeUuid
            msgType options)).1 } :=
  (discovery_absorb rt _).trans (Discovery.self_advertise _ _ h)

/-- A heartbeat sets its own clock only. -/
theorem discovery_updateHeartbeat (now later : ℕ) :
    (rt.updateHeartbeat now later).1.discovery =
      { rt.discovery with
        timeNextHeartbeat := if now < rt.discovery.timeNextHeartbeat
          then rt.discovery.timeNextHeartbeat
          else later + rt.discovery.heartbeatInterval * 1000000 } :=
  (discovery_absorb rt _).trans (rt.discovery.self_updateHeartbeat now later)

theorem kept_advertise (hr : rt.Running) (topic nodeUuid msgType : Str)
    (options : AdvertiseMessageOptions) :
    Kept rt (rt.advertise topic nodeUuid msgType options).1 :=
  Kept.absorb rt ⟨_, _, _, _, Discovery.self_advertise _ _ hr.enabled⟩

theorem kept_unadvertise (hr : rt.Running) (topic nodeUuid : Str) :
    Kept rt (rt.unadvertise topic nodeUuid).1 :=
  Kept.absorb rt ⟨_, _, _, _, Discovery.self_unadvertise _ _ _ hr.enabled⟩

theorem kept_subscribe (topic nodeUuid : Str) (handler : SubscriptionHandler) :
    Kept rt (rt.subscribe topic nodeUuid handler).1 :=
  ⟨processUuid_absorb _ _, address_absorb _ _, _, _, _, _,
    (discovery_absorb _ _).trans (Discovery.self_discover _ topic)⟩

theorem kept_unsubscribe (topic nodeUuid : Str) : Kept rt (rt.unsubscribe topic nodeUuid).1 := by
  simp only [unsubscribe]
  split <;> exact ⟨rfl, rfl, _, _, _, _, rfl⟩

theorem kept_recv (fromIp : Str) (m : Msgs.Discovery) (now : ℕ) :
    Kept rt (rt.recvDiscoveryMsg fromIp m now).1 := by
  obtain ⟨known, seen, h⟩ := rt.discovery.self_dispatch fromIp m now
  exact Kept.absorb rt ⟨_, _, _, _, h⟩

theorem kept_heartbeat (now later : ℕ) : Kept rt (rt.updateHeartbeat now later).1 := by
  refine Kept.absorb rt ?_
  simp only [Discovery.updateHeartbeat]
  split <;> exact ⟨_, _, _, _, rfl⟩

theorem kept_activity (now later : ℕ) : Kept rt (rt.updateActivity now later).1 := by
  refine Kept.absorb rt ?_
  simp only [Discovery.updateActivity]
  split <;> exact ⟨_, _, _, _, rfl⟩

/-- Applying a command touches the SUB socket only. -/
theorem applySubscriberCommand_eq (c : SubscriberCommand) (ok : Bool) :
    ∃ sub, (rt.applySubscriberCommand c ok).1 = { rt with subscriber := sub } := by
  cases c with
  | connect address =>
      simp only [applySubscriberCommand]
      split <;> exact ⟨_, rfl⟩
  | subscribe topic registrations =>
      simp only [applySubscriberCommand]
      split <;> exact ⟨_, rfl⟩
  | unsubscribe topic =>
      simp only [applySubscriberCommand]
      split <;> exact ⟨_, rfl⟩

/-- The receive thread takes a command off the queue and applies it. -/
theorem perform_applyCommand {ok : Bool} {rt' : MessageRuntime} {sent : List Msgs.Discovery}
    (h : rt.perform (.applyCommand ok) = some (rt', sent)) :
    ∃ c rest, rt.subscriberCommands = c :: rest ∧
      rt' = ({ rt with subscriberCommands := rest }.applySubscriberCommand c ok).1 ∧
      sent = ({ rt with subscriberCommands := rest }.applySubscriberCommand c ok).2 := by
  simp only [perform, applyNextCommand] at h
  split at h
  case h_1 => cases h
  case h_2 c rest hq =>
    have hx := Option.some.inj h
    exact ⟨c, rest, hq, (congrArg Prod.fst hx).symm, (congrArg Prod.snd hx).symm⟩

/-- Nothing but the queue and the socket changes. -/
theorem applyNextCommand_eq {ok : Bool} {x : MessageRuntime × List Msgs.Discovery}
    (h : rt.applyNextCommand ok = some x) : ∃ c rest sub, rt.subscriberCommands = c :: rest ∧
      x.1 = { rt with subscriberCommands := rest, subscriber := sub } := by
  obtain ⟨rt', sent⟩ := x
  obtain ⟨c, rest, hq, rfl, -⟩ := rt.perform_applyCommand h
  obtain ⟨sub, hsub⟩ := applySubscriberCommand_eq { rt with subscriberCommands := rest } c ok
  exact ⟨c, rest, sub, hq, hsub⟩

theorem kept_applyCommand (c : SubscriberCommand) (ok : Bool) :
    Kept rt (rt.applySubscriberCommand c ok).1 := by
  obtain ⟨sub, h⟩ := rt.applySubscriberCommand_eq c ok
  rw [h]
  exact ⟨rfl, rfl, _, _, _, _, rfl⟩

theorem perform_advertise (topic nodeUuid msgType : Str) (options : AdvertiseMessageOptions) :
    rt.perform (.advertise topic nodeUuid msgType options) =
      some ((rt.advertise topic nodeUuid msgType options).1,
        (rt.advertise topic nodeUuid msgType options).2.1) := rfl

theorem fst_snd_of_some {α β : Type} {x : α × β} {a : α} {b : β} (h : some x = some (a, b)) :
    x.1 = a ∧ x.2 = b := by
  cases h
  exact ⟨rfl, rfl⟩

/-- **No step changes who a process is.** -/
theorem kept_perform {rt rt' : MessageRuntime} {a : Action} {sent : List Msgs.Discovery}
    (hr : rt.Running) (h : rt.perform a = some (rt', sent)) : Kept rt rt' := by
  cases a with
  | advertise topic nodeUuid msgType options =>
      obtain ⟨rfl, -⟩ := fst_snd_of_some h
      exact rt.kept_advertise hr topic nodeUuid msgType options
  | unadvertise topic nodeUuid =>
      obtain ⟨rfl, -⟩ := fst_snd_of_some h
      exact rt.kept_unadvertise hr topic nodeUuid
  | subscribe topic nodeUuid handler =>
      obtain ⟨rfl, -⟩ := fst_snd_of_some h
      exact rt.kept_subscribe topic nodeUuid handler
  | unsubscribe topic nodeUuid =>
      obtain ⟨rfl, -⟩ := fst_snd_of_some h
      exact rt.kept_unsubscribe topic nodeUuid
  | recv fromIp m now =>
      obtain ⟨rfl, -⟩ := fst_snd_of_some h
      exact rt.kept_recv fromIp m now
  | heartbeat now later =>
      obtain ⟨rfl, -⟩ := fst_snd_of_some h
      exact rt.kept_heartbeat now later
  | activity now later =>
      obtain ⟨rfl, -⟩ := fst_snd_of_some h
      exact rt.kept_activity now later
  | applyCommand ok =>
      obtain ⟨c, rest, -, rfl, -⟩ := rt.perform_applyCommand h
      have hk := kept_applyCommand { rt with subscriberCommands := rest } c ok
      exact ⟨hk.processUuid, hk.address, hk.discovery⟩

theorem running_init (processUuid processName hostAddr address : Str) :
    (init processUuid processName hostAddr address).Running := ⟨rfl, rfl, rfl, rfl, rfl, rfl⟩

/-! ## Datagrams

What `recvDiscoveryMsg` comes to for each type of datagram from another process. -/

/-- The record that a datagram describes. -/
def parsed (m : Msgs.Discovery) : MessagePublisherInfo :=
  PubLike.setFromDiscovery (PubLike.default : MessagePublisherInfo) m

/-- The sender is alive. -/
def seen (m : Msgs.Discovery) (now : ℕ) : MessageRuntime :=
  { rt with
    discovery.lastSeenByProcess := rt.discovery.lastSeenByProcess.insert m.processUuid now }

variable {rt} {fromIp : Str} {m : Msgs.Discovery} {now : ℕ}

theorem recv_own (h : m.processUuid = rt.discovery.processUuid) :
    rt.recvDiscoveryMsg fromIp m now = (rt, []) := by
  simp only [recvDiscoveryMsg, Discovery.dispatchDiscoveryMsg, h, if_true]
  rfl

theorem recv_newConnection (hr : rt.Running) (hne : m.processUuid ≠ rt.discovery.processUuid)
    (ht : m.type = .newConnection) :
    rt.recvDiscoveryMsg fromIp m now = ((rt.seen m now).onSubscriberRegistered (parsed m), []) := by
  simp only [recvDiscoveryMsg, Discovery.dispatchDiscoveryMsg, if_neg hne, ht,
    if_pos hr.registration]
  rfl

theorem recv_endConnection (hr : rt.Running) (hne : m.processUuid ≠ rt.discovery.processUuid)
    (ht : m.type = .endConnection) :
    rt.recvDiscoveryMsg fromIp m now =
      ((rt.seen m now).onSubscriberUnregistered (parsed m), []) := by
  simp only [recvDiscoveryMsg, Discovery.dispatchDiscoveryMsg, if_neg hne, ht,
    if_pos hr.unregistration]
  rfl

/-- A new ADVERTISE that is not hidden from us reaches the callback. -/
theorem recv_advertise_new (hr : rt.Running) (hne : m.processUuid ≠ rt.discovery.processUuid)
    (ht : m.type = .advertise)
    (hv : Discovery.hidden (parsed m) (rt.discovery.isSenderLocal fromIp) = false)
    (hadd : (rt.discovery.knownPublishers.addPublisher (parsed m)).2 = true) :
    rt.recvDiscoveryMsg fromIp m now =
      ({ rt.seen m now with
          discovery.knownPublishers :=
            (rt.discovery.knownPublishers.addPublisher (parsed m)).1 }.onPublisherConnected
        (parsed m), []) := by
  have hcb : ((rt.discovery.knownPublishers.addPublisher (parsed m)).2 &&
      rt.discovery.connectionCb) = true := by
    rw [hadd, hr.connection]
    rfl
  have hv' : ¬ Discovery.hidden (parsed m) (rt.discovery.isSenderLocal fromIp) = true := by
    simp [hv]
  simp only [parsed] at hv' hcb
  simp only [recvDiscoveryMsg, Discovery.dispatchDiscoveryMsg, if_neg hne, ht, if_neg hv',
    if_pos hcb]
  rfl

/-- An ADVERTISE of an endpoint that is known changes nothing. -/
theorem recv_advertise_known (hne : m.processUuid ≠ rt.discovery.processUuid)
    (ht : m.type = .advertise)
    (hv : Discovery.hidden (parsed m) (rt.discovery.isSenderLocal fromIp) = false)
    (hadd : (rt.discovery.knownPublishers.addPublisher (parsed m)).2 = false) :
    rt.recvDiscoveryMsg fromIp m now = (rt.seen m now, []) := by
  have hcb : ¬ ((rt.discovery.knownPublishers.addPublisher (parsed m)).2 &&
      rt.discovery.connectionCb) = true := by
    simp [hadd]
  have hv' : ¬ Discovery.hidden (parsed m) (rt.discovery.isSenderLocal fromIp) = true := by
    simp [hv]
  have hsame := TopicStorage.addPublisher_of_not_added _ hadd
  simp only [parsed] at hv' hcb hsame
  simp only [recvDiscoveryMsg, Discovery.dispatchDiscoveryMsg, if_neg hne, ht, if_neg hv',
    if_neg hcb, hsame]
  rfl

/-- A hidden ADVERTISE or UNADVERTISE only shows that its sender is alive. -/
theorem recv_hidden (hne : m.processUuid ≠ rt.discovery.processUuid)
    (ht : m.type = .advertise ∨ m.type = .unadvertise)
    (hv : Discovery.hidden (parsed m) (rt.discovery.isSenderLocal fromIp) = true) :
    rt.recvDiscoveryMsg fromIp m now = (rt.seen m now, []) := by
  simp only [parsed] at hv
  rcases ht with ht | ht
  · simp only [recvDiscoveryMsg, Discovery.dispatchDiscoveryMsg, if_neg hne, ht]
    rw [if_pos hv]
    rfl
  · simp only [recvDiscoveryMsg, Discovery.dispatchDiscoveryMsg, if_neg hne, ht]
    rw [if_pos hv]
    rfl

theorem recv_unadvertise (hr : rt.Running) (hne : m.processUuid ≠ rt.discovery.processUuid)
    (ht : m.type = .unadvertise)
    (hv : Discovery.hidden (parsed m) (rt.discovery.isSenderLocal fromIp) = false) :
    rt.recvDiscoveryMsg fromIp m now =
      ({ rt.seen m now with
          discovery.knownPublishers := (rt.discovery.knownPublishers.delPublishersByNode
            (parsed m).topic (parsed m).processUuid (parsed m).nodeUuid).1 }.onPublisherDisconnected
        (parsed m), []) := by
  have hv' : ¬ Discovery.hidden (parsed m) (rt.discovery.isSenderLocal fromIp) = true := by
    simp [hv]
  simp only [parsed] at hv'
  simp only [recvDiscoveryMsg, Discovery.dispatchDiscoveryMsg, if_neg hne, ht, if_neg hv',
    if_pos hr.disconnection]
  rfl

theorem recv_subscribe (hne : m.processUuid ≠ rt.discovery.processUuid)
    (ht : m.type = .subscribe) {topic : Str} (hc : m.contents = .sub topic) :
    rt.recvDiscoveryMsg fromIp m now =
      (rt.seen m now,
        rt.discovery.answerSubscribe topic (rt.discovery.isSenderLocal fromIp)) := by
  simp only [recvDiscoveryMsg, Discovery.dispatchDiscoveryMsg, if_neg hne, ht, hc]
  rfl

/-- Datagrams that only show that their sender is alive. -/
theorem recv_other (hne : m.processUuid ≠ rt.discovery.processUuid)
    (ht : m.type = .heartbeat ∨ m.type = .uninitialized ∨ (∃ v, m.type = .unrecognized v) ∨
      (m.type = .subscribe ∧ ∀ topic, m.contents ≠ .sub topic)) :
    rt.recvDiscoveryMsg fromIp m now = (rt.seen m now, []) := by
  rcases ht with ht | ht | ⟨v, ht⟩ | ⟨ht, hc⟩
  · simp only [recvDiscoveryMsg, Discovery.dispatchDiscoveryMsg, if_neg hne, ht]
    rfl
  · simp only [recvDiscoveryMsg, Discovery.dispatchDiscoveryMsg, if_neg hne, ht]
    rfl
  · simp only [recvDiscoveryMsg, Discovery.dispatchDiscoveryMsg, if_neg hne, ht]
    rfl
  · cases hm : m.contents with
    | sub topic => exact absurd hm (hc topic)
    | notSet =>
        simp only [recvDiscoveryMsg, Discovery.dispatchDiscoveryMsg, if_neg hne, ht, hm]
        rfl
    | pub p =>
        simp only [recvDiscoveryMsg, Discovery.dispatchDiscoveryMsg, if_neg hne, ht, hm]
        rfl

/-- BYE: the process is forgotten everywhere. -/
theorem recv_bye (hr : rt.Running) (hne : m.processUuid ≠ rt.discovery.processUuid)
    (ht : m.type = .bye) :
    rt.recvDiscoveryMsg fromIp m now =
      ({ rt with
          discovery.lastSeenByProcess :=
            (rt.seen m now).discovery.lastSeenByProcess.erase m.processUuid
          discovery.knownPublishers :=
            (rt.discovery.knownPublishers.delPublishersByProc m.processUuid).1
          remoteSubscribers := (rt.remoteSubscribers.delPublishersByProc m.processUuid).1
          remotePublishers := (rt.remotePublishers.delPublishersByProc m.processUuid).1 }, []) := by
  simp only [recvDiscoveryMsg, Discovery.dispatchDiscoveryMsg, if_neg hne, ht,
    if_pos hr.disconnection]
  rfl

/-! ## The registrations made with a process -/

/-- `advertise` and `discover` only report publishers. -/
theorem calls_advertise {d : Discovery MessagePublisherInfo} {pub : MessagePublisherInfo}
    {c : Callback MessagePublisherInfo} (hc : c ∈ (d.advertise pub).1.calls) :
    c = .connection pub := by
  by_cases h : d.enabled = true
  · simp only [Discovery.advertise, if_pos h] at hc
    by_cases hadd : (d.knownPublishers.addPublisher pub).2 = true
    · simp only [if_pos hadd] at hc
      by_cases hcb : d.connectionCb = true
      · simp only [if_pos hcb] at hc
        exact List.mem_singleton.mp hc
      · simp only [if_neg hcb] at hc
        cases hc
    · simp only [if_neg hadd] at hc
      cases hc
  · simp only [Discovery.advertise, if_neg h] at hc
    cases hc

theorem calls_discover {d : Discovery MessagePublisherInfo} {topic : Str}
    {c : Callback MessagePublisherInfo} (hc : c ∈ (d.discover topic).1.calls) :
    ∃ pub, c = .connection pub := by
  by_cases h : d.enabled = true
  · simp only [Discovery.discover, if_pos h] at hc
    by_cases hcb : d.connectionCb = true
    · simp only [if_pos hcb] at hc
      obtain ⟨pub, -, rfl⟩ := List.mem_map.mp hc
      exact ⟨pub, rfl⟩
    · simp only [if_neg hcb] at hc
      cases hc
  · simp only [Discovery.discover, if_neg h] at hc
    cases hc

/-- `unadvertise` reports nothing to its own process. -/
theorem calls_unadvertise (d : Discovery MessagePublisherInfo) (topic nodeUuid : Str) :
    (d.unadvertise topic nodeUuid).1.calls = [] := by
  by_cases h : d.enabled = true
  · simp only [Discovery.unadvertise, if_pos h]
    cases d.knownPublishers.getPublisher topic d.processUuid nodeUuid with
    | none => rfl
    | some pub => rfl
  · simp only [Discovery.unadvertise, if_neg h]

theorem calls_updateHeartbeat (d : Discovery MessagePublisherInfo) (now later : ℕ) :
    (d.updateHeartbeat now later).calls = [] := by
  by_cases h : now < d.timeNextHeartbeat
  · simp only [Discovery.updateHeartbeat, if_pos h]
  · simp only [Discovery.updateHeartbeat, if_neg h]

@[simp] theorem remoteSubscribers_advertise (topic nodeUuid msgType : Str)
    (options : AdvertiseMessageOptions) :
    (rt.advertise topic nodeUuid msgType options).1.remoteSubscribers = rt.remoteSubscribers :=
  remoteSubscribers_absorb rt fun _ hc => ⟨_, calls_advertise hc⟩

@[simp] theorem remoteSubscribers_unadvertise (topic nodeUuid : Str) :
    (rt.unadvertise topic nodeUuid).1.remoteSubscribers = rt.remoteSubscribers := by
  refine remoteSubscribers_absorb rt fun c hc => ?_
  rw [calls_unadvertise] at hc
  cases hc

@[simp] theorem remoteSubscribers_subscribe (topic nodeUuid : Str) (handler : SubscriptionHandler) :
    (rt.subscribe topic nodeUuid handler).1.remoteSubscribers = rt.remoteSubscribers :=
  remoteSubscribers_absorb _ fun _ hc => calls_discover hc

@[simp] theorem remoteSubscribers_unsubscribe (topic nodeUuid : Str) :
    (rt.unsubscribe topic nodeUuid).1.remoteSubscribers = rt.remoteSubscribers := by
  simp only [unsubscribe]
  split <;> rfl

@[simp] theorem remoteSubscribers_heartbeat (now later : ℕ) :
    (rt.updateHeartbeat now later).1.remoteSubscribers = rt.remoteSubscribers := by
  refine remoteSubscribers_absorb rt fun c hc => ?_
  rw [calls_updateHeartbeat] at hc
  cases hc

@[simp] theorem remoteSubscribers_applyCommand (c : SubscriberCommand) (ok : Bool) :
    (rt.applySubscriberCommand c ok).1.remoteSubscribers = rt.remoteSubscribers := by
  obtain ⟨sub, h⟩ := rt.applySubscriberCommand_eq c ok
  rw [h]

theorem remoteSubscribers_applyNext {ok : Bool} {x : MessageRuntime × List Msgs.Discovery}
    (h : rt.applyNextCommand ok = some x) : x.1.remoteSubscribers = rt.remoteSubscribers := by
  obtain ⟨rt', sent⟩ := x
  obtain ⟨c, rest, -, rfl, -⟩ := rt.perform_applyCommand h
  exact remoteSubscribers_applyCommand c ok

/-- Silent processes lose their registrations. -/
theorem remoteSubscribers_activity (hr : rt.Running) {now later : ℕ}
    (hdue : ¬ now < rt.discovery.timeNextActivity) :
    (rt.updateActivity now later).1.remoteSubscribers =
      (rt.discovery.expiredProcesses now).foldl (fun st uuid => (st.delPublishersByProc uuid).1)
        rt.remoteSubscribers := by
  have hfold : ∀ (gone : List Str) (rt : MessageRuntime),
      ((gone.map fun uuid => Callback.disconnection
        (setProcessUuid (PubLike.default : MessagePublisherInfo) uuid)).foldl onCallback
          rt).remoteSubscribers =
        gone.foldl (fun st uuid => (st.delPublishersByProc uuid).1) rt.remoteSubscribers := by
    intro gone
    induction gone with
    | nil => exact fun rt => rfl
    | cons uuid gone ih =>
        intro rt
        rw [List.map_cons, List.foldl_cons, ih, List.foldl_cons]
        rfl
  simp only [updateActivity, Discovery.updateActivity, if_neg hdue, if_pos hr.disconnection]
  exact hfold _ _

/-- A tick that is not due does nothing. -/
theorem activity_not_due {now later : ℕ} (hdue : now < rt.discovery.timeNextActivity) :
    rt.updateActivity now later = (rt, []) := by
  simp only [updateActivity, Discovery.updateActivity, if_pos hdue]
  rfl

/-- An END_CONNECTION, a BYE or the silence of a process ends registrations. -/
def ends (rt : MessageRuntime) : Action → Str → Str → Str → Bool
  | .recv _ m _, topic, processUuid, nodeUuid =>
    let pub := parsed m
    m.processUuid ≠ rt.discovery.processUuid &&
      match m.type with
      | .endConnection =>
        (pub.ctrl = [] || pub.ctrl = rt.processUuid) &&
          (pub.topic = topic && pub.processUuid = processUuid && pub.nodeUuid = nodeUuid)
      | .bye => m.processUuid = processUuid
      | _ => false
  | .activity now _, _, processUuid, _ =>
    ¬ now < rt.discovery.timeNextActivity && processUuid ∈ rt.discovery.expiredProcesses now
  | _, _, _, _ => false

/-- An UNADVERTISE that names neither a topic nor a node is taken for a BYE. -/
def wipes (rt : MessageRuntime) : Action → Str → Bool
  | .recv fromIp m _, processUuid =>
    let pub := parsed m
    m.processUuid ≠ rt.discovery.processUuid && m.type = .unadvertise &&
      !Discovery.hidden pub (rt.discovery.isSenderLocal fromIp) &&
      (pub.topic = [] && pub.nodeUuid = [] && pub.processUuid = processUuid)
  | _, _ => false

/-- The registration that a NEW_CONNECTION addressed to this process makes. -/
def registers (rt : MessageRuntime) : Action → Option MessagePublisherInfo
  | .recv _ m _ =>
    if m.processUuid ≠ rt.discovery.processUuid ∧ m.type = .newConnection ∧
        (parsed m).ctrl = rt.processUuid then some (parsed m)
    else none
  | _ => none

/-- A step that makes a registration ends none. -/
theorem not_ends_of_registers {a : Action} {pub : MessagePublisherInfo}
    (h : rt.registers a = some pub) :
    (∀ t q n, rt.ends a t q n = false) ∧ ∀ q, rt.wipes a q = false := by
  cases a with
  | recv fromIp m now =>
      simp only [registers] at h
      split at h
      case isTrue hreg =>
        obtain ⟨-, ht, -⟩ := hreg
        exact ⟨by simp [ends, ht], by simp [wipes, ht]⟩
      case isFalse => cases h
  | _ => cases h

/-- The registrations after a step: some have ended, at most one was made. -/
def RegistrationsAfter (rt : MessageRuntime) (a : Action)
    (rs : TopicStorage MessagePublisherInfo) : Prop :=
  ∀ topic processUuid x, x ∈ rs.pubsOf topic processUuid ↔
    (x ∈ rt.remoteSubscribers.pubsOf topic processUuid ∧
      rt.ends a topic processUuid x.nodeUuid = false ∧ rt.wipes a processUuid = false) ∨
    (rt.registers a = some x ∧ (rt.remoteSubscribers.addPublisher x).2 = true ∧
      topic = x.topic ∧ processUuid = x.processUuid)

theorem RegistrationsAfter.same (rt : MessageRuntime) {a : Action}
    (h₁ : ∀ t q n, rt.ends a t q n = false)
    (h₂ : ∀ q, rt.wipes a q = false) (h₃ : rt.registers a = none) :
    RegistrationsAfter rt a rt.remoteSubscribers := by
  intro t q x
  simp [h₁, h₂, h₃]

/-- Ended registrations leave, the others stay. -/
theorem RegistrationsAfter.removed {a : Action} {rs : TopicStorage MessagePublisherInfo}
    (h : ∀ t q x, x ∈ rs.pubsOf t q ↔
      x ∈ rt.remoteSubscribers.pubsOf t q ∧
        rt.ends a t q x.nodeUuid = false ∧ rt.wipes a q = false)
    (h₃ : rt.registers a = none) : RegistrationsAfter rt a rs := by
  intro t q x
  rw [h, h₃]
  simp

theorem registrationsAfter_recv (hr : rt.Running) (fromIp : Str) (m : Msgs.Discovery) (now : ℕ) :
    RegistrationsAfter rt (.recv fromIp m now)
      (rt.recvDiscoveryMsg fromIp m now).1.remoteSubscribers := by
  by_cases hne : m.processUuid = rt.discovery.processUuid
  · rw [recv_own hne]
    exact .same rt (by simp [ends, hne]) (by simp [wipes, hne]) (by simp [registers, hne])
  cases ht : m.type with
  | advertise =>
      have hsame : (rt.recvDiscoveryMsg fromIp m now).1.remoteSubscribers =
          rt.remoteSubscribers := by
        cases hv : Discovery.hidden (parsed m) (rt.discovery.isSenderLocal fromIp) with
        | true =>
            rw [recv_hidden hne (.inl ht) hv]
            rfl
        | false =>
            cases hadd : (rt.discovery.knownPublishers.addPublisher (parsed m)).2 with
            | true =>
                rw [recv_advertise_new hr hne ht hv hadd]
                exact remoteSubscribers_onPublisherConnected _ _
            | false =>
                rw [recv_advertise_known hne ht hv hadd]
                rfl
      rw [hsame]
      exact .same rt (by simp [ends, ht]) (by simp [wipes, ht]) (by simp [registers, ht])
  | unadvertise =>
      cases hv : Discovery.hidden (parsed m) (rt.discovery.isSenderLocal fromIp) with
      | true =>
          rw [recv_hidden hne (.inr ht) hv]
          exact .same rt (by simp [ends, ht]) (by simp [wipes, hv]) (by simp [registers, ht])
      | false =>
          rw [recv_unadvertise hr hne ht hv]
          by_cases hw : (parsed m).topic = [] ∧ (parsed m).nodeUuid = []
          · simp only [onPublisherDisconnected, if_pos hw]
            refine .removed (fun t q x => ?_) (by simp [registers, ht])
            rw [TopicStorage.mem_pubsOf_delPublishersByProc]
            simp [ends, wipes, ht, hv, hne, hw, seen, eq_comm]
          · simp only [onPublisherDisconnected, if_neg hw]
            refine .same rt (by simp [ends, ht]) (fun q => ?_) (by simp [registers, ht])
            by_cases htp : (parsed m).topic = []
            · have hn : (parsed m).nodeUuid ≠ [] := fun hn => hw ⟨htp, hn⟩
              simp [wipes, hn]
            · simp [wipes, htp]
  | newConnection =>
      rw [recv_newConnection hr hne ht]
      by_cases hc : (parsed m).ctrl = rt.processUuid
      · rw [onSubscriberRegistered_eq (rt.seen m now) hc]
        intro t q x
        have hreg : rt.registers (.recv fromIp m now) = some x ↔ x = parsed m := by
          simp [registers, ht, hne, hc, eq_comm]
        rw [TopicStorage.mem_pubsOf_addPublisher, hreg]
        refine or_congr (by simp [ends, wipes, ht, seen]) ?_
        constructor
        · rintro ⟨hadd, rfl, rfl, rfl⟩
          exact ⟨rfl, hadd, rfl, rfl⟩
        · rintro ⟨rfl, hadd, rfl, rfl⟩
          exact ⟨hadd, rfl, rfl, rfl⟩
      · rw [onSubscriberRegistered_of_ne (rt.seen m now) hc]
        exact .same rt (by simp [ends, ht]) (by simp [wipes, ht]) (by simp [registers, hc])
  | endConnection =>
      rw [recv_endConnection hr hne ht]
      by_cases hc : (parsed m).ctrl = [] ∨ (parsed m).ctrl = rt.processUuid
      · rw [onSubscriberUnregistered_eq (rt.seen m now) hc]
        refine .removed (fun t q x => ?_) (by simp [registers, ht])
        rw [TopicStorage.mem_pubsOf_delPublishersByNode]
        have hends : rt.ends (.recv fromIp m now) t q x.nodeUuid =
            decide (t = (parsed m).topic ∧ q = (parsed m).processUuid ∧
              x.nodeUuid = (parsed m).nodeUuid) := by
          have hc' : (decide ((parsed m).ctrl = []) ||
              decide ((parsed m).ctrl = rt.processUuid)) = true := by
            simpa using hc
          simp [ends, ht, hne, hc', @eq_comm _ t, @eq_comm _ q, @eq_comm _ x.nodeUuid,
            Bool.and_assoc]
        have hwipes : rt.wipes (.recv fromIp m now) q = false := by
          simp [wipes, ht]
        rw [hends, hwipes, decide_eq_false_iff_not]
        exact and_congr_right fun _ => (and_iff_left rfl).symm
      · rw [onSubscriberUnregistered_of_ne (rt.seen m now) hc]
        exact .same rt (by simp [ends, ht, hc]) (by simp [wipes, ht]) (by simp [registers, ht])
  | bye =>
      rw [recv_bye hr hne ht]
      refine .removed (fun t q x => ?_) (by simp [registers, ht])
      rw [TopicStorage.mem_pubsOf_delPublishersByProc]
      simp [ends, wipes, ht, hne, @eq_comm _ q]
  | subscribe =>
      have hsame : (rt.recvDiscoveryMsg fromIp m now).1 = rt.seen m now := by
        cases hm : m.contents with
        | sub topic => rw [recv_subscribe hne ht hm]
        | notSet => rw [recv_other hne (by simp [ht, hm])]
        | pub p => rw [recv_other hne (by simp [ht, hm])]
      rw [hsame]
      exact .same rt (by simp [ends, ht]) (by simp [wipes, ht]) (by simp [registers, ht])
  | heartbeat =>
      rw [recv_other hne (by simp [ht])]
      exact .same rt (by simp [ends, ht]) (by simp [wipes, ht]) (by simp [registers, ht])
  | uninitialized =>
      rw [recv_other hne (by simp [ht])]
      exact .same rt (by simp [ends, ht]) (by simp [wipes, ht]) (by simp [registers, ht])
  | unrecognized v =>
      rw [recv_other hne (by simp [ht])]
      exact .same rt (by simp [ends, ht]) (by simp [wipes, ht]) (by simp [registers, ht])

/-- **How registrations change**: the exact effect of a step on them. -/
theorem registrationsAfter_perform {rt' : MessageRuntime} {a : Action}
    {sent : List Msgs.Discovery} (hr : rt.Running) (h : rt.perform a = some (rt', sent)) :
    RegistrationsAfter rt a rt'.remoteSubscribers := by
  have hsame : rt'.remoteSubscribers = rt.remoteSubscribers →
      (∀ t q n, rt.ends a t q n = false) → (∀ q, rt.wipes a q = false) →
      rt.registers a = none → RegistrationsAfter rt a rt'.remoteSubscribers := by
    intro hrs h₁ h₂ h₃
    rw [hrs]
    exact .same rt h₁ h₂ h₃
  cases a with
  | advertise topic nodeUuid msgType options =>
      obtain ⟨rfl, -⟩ := fst_snd_of_some h
      exact hsame (remoteSubscribers_advertise ..) (fun _ _ _ => rfl) (fun _ => rfl) rfl
  | unadvertise topic nodeUuid =>
      obtain ⟨rfl, -⟩ := fst_snd_of_some h
      exact hsame (remoteSubscribers_unadvertise ..) (fun _ _ _ => rfl) (fun _ => rfl) rfl
  | subscribe topic nodeUuid handler =>
      obtain ⟨rfl, -⟩ := fst_snd_of_some h
      exact hsame (remoteSubscribers_subscribe ..) (fun _ _ _ => rfl) (fun _ => rfl) rfl
  | unsubscribe topic nodeUuid =>
      obtain ⟨rfl, -⟩ := fst_snd_of_some h
      exact hsame (remoteSubscribers_unsubscribe ..) (fun _ _ _ => rfl) (fun _ => rfl) rfl
  | recv fromIp m now =>
      obtain ⟨rfl, -⟩ := fst_snd_of_some h
      exact registrationsAfter_recv hr fromIp m now
  | heartbeat now later =>
      obtain ⟨rfl, -⟩ := fst_snd_of_some h
      exact hsame (remoteSubscribers_heartbeat ..) (fun _ _ _ => rfl) (fun _ => rfl) rfl
  | activity now later =>
      obtain ⟨rfl, -⟩ := fst_snd_of_some h
      by_cases hdue : now < rt.discovery.timeNextActivity
      · have hrs : (rt.updateActivity now later).1.remoteSubscribers = rt.remoteSubscribers := by
          rw [activity_not_due hdue]
        exact hsame hrs (by simp [ends, hdue]) (fun _ => rfl) rfl
      · rw [remoteSubscribers_activity hr hdue]
        refine .removed (fun t q x => ?_) rfl
        rw [TopicStorage.mem_pubsOf_foldl_delPublishersByProc]
        simp [ends, wipes, Nat.le_of_not_lt hdue]
  | applyCommand ok =>
      exact hsame (remoteSubscribers_applyNext h) (fun _ _ _ => rfl) (fun _ => rfl) rfl

end MessageRuntime
end RfTrans
