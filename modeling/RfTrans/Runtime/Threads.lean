import RfTrans.Lib.Exec
import RfTrans.Lib.Interleaving
import RfTrans.Runtime.Sends

/-!
# The threads of the message runtime

`subscribe` is called by any number of threads while the discovery thread files the
publishers it hears of.  Both end in `onPublisherConnected`, for which neither holds a
lock.  A call is split here at every access to a shared table or to the command queue.

## Main definitions

* `MessageThreads.Call` — where a call of `subscribe`, or the handling of an ADVERTISE,
  stands.
* `MessageThreads` — the runtime with its threads, and a record of what was subscribed,
  advertised and taken from the command queue.
* `MessageThreads.next` — one step of one of the threads.
* `MessageThreads.Connected` — every endpoint that is filed was connected to.
-/

namespace RfTrans

open Exec MessageRuntime

/-- The arguments of a call of `subscribe`. -/
structure Subscription where
  topic : Str
  nodeUuid : Str
  handler : SubscriptionHandler
  deriving DecidableEq

/-- Where a call of `subscribe`, or the handling of an ADVERTISE, stands. The publishers
`rest` are those that `connection_cb_` is still to be called with. -/
inductive MessageThreads.Call
  | idle
  /-- `subscribe` adds its handler. -/
  | adding (sub : Subscription)
  /-- `discover` copies the callback and sends the SUBSCRIBE. -/
  | discovering (topic : Str)
  | reading (topic : Str) (cb : Bool)
  /-- The discovery thread files a publisher; `cb` says whether it has a callback. -/
  | arrived (pub : MessagePublisherInfo) (cb : Bool)
  /-- The callback for the first publisher asks for subscribers of its topic. -/
  | calling (rest : List MessagePublisherInfo)
  | gathering (pub : MessagePublisherInfo) (rest : List MessagePublisherInfo)
  /-- It looks whether the endpoint is connected. -/
  | looking (pub : MessagePublisherInfo) (regs rest : List MessagePublisherInfo)
  | connecting (pub : MessagePublisherInfo) (regs rest : List MessagePublisherInfo)
  | subscribing (pub : MessagePublisherInfo) (regs rest : List MessagePublisherInfo)
  | recording (pub : MessagePublisherInfo) (rest : List MessagePublisherInfo)

/-- The message runtime in the middle of what its threads do. -/
structure MessageThreads where
  rt : MessageRuntime
  calls : ℕ → MessageThreads.Call := fun _ => .idle
  /-- The commands that the receive thread has taken. -/
  taken : List SubscriberCommand := []
  /-- The handlers that threads have added and the publishers of the ADVERTISEs that were
  not dropped. -/
  subscribed : List Subscription := []
  advertised : List MessagePublisherInfo := []

namespace MessageThreads

/-- The steps of the threads. -/
inductive Action
  /-- A thread calls `subscribe`. -/
  | subscribe (i : ℕ) (sub : Subscription)
  /-- The discovery thread gets an ADVERTISE. -/
  | datagram (i : ℕ) (fromIp : Str) (m : Msgs.Discovery) (now : ℕ)
  /-- The next step of a call. -/
  | advance (i : ℕ)
  /-- Anything else, or anything that nothing comes in between of. -/
  | whole (a : MessageRuntime.Action)

/-- All commands that were ever put into the queue. -/
def enqueued (s : MessageThreads) : List SubscriberCommand := s.taken ++ s.rt.subscriberCommands

/-- The call of a thread goes on. -/
def goto (s : MessageThreads) (i : ℕ) (c : Call) : MessageThreads :=
  { s with calls := Function.update s.calls i c }

/-- `enqueueSubscriberCommand` -/
def enqueue (s : MessageThreads) (c : SubscriberCommand) : MessageThreads :=
  { s with rt := s.rt.enqueueSubscriberCommand c }

/-- The next step of the call of a thread. -/
def advance (s : MessageThreads) (i : ℕ) : Option MessageThreads :=
  match s.calls i with
  | .idle => none
  | .adding sub =>
    let handlers := s.rt.localSubscribers.addHandler sub.topic sub.nodeUuid
      sub.handler.handlerUuid sub.handler
    some ({ s with
      rt.localSubscribers := handlers
      subscribed := sub :: s.subscribed }.goto i (.discovering sub.topic))
  | .discovering topic =>
    if s.rt.discovery.enabled then some (s.goto i (.reading topic s.rt.discovery.connectionCb))
    else some (s.goto i .idle)
  | .reading topic cb =>
    match s.rt.discovery.knownPublishers.getPublishers topic with
    | none => some (s.goto i .idle)
    | some addresses =>
      let found := addresses.toList.flatMap fun proc => proc.2
      some (s.goto i (.calling (if cb then found else [])))
  | .arrived pub cb =>
    let (known, added) := s.rt.discovery.knownPublishers.addPublisher pub
    some ({ s with
      rt.discovery.knownPublishers := known
      advertised := pub :: s.advertised }.goto i (.calling (if added && cb then [pub] else [])))
  | .calling [] => some (s.goto i .idle)
  | .calling (pub :: rest) =>
    if !s.rt.localSubscribers.hasSubscriber pub.topic || pub.processUuid = s.rt.processUuid then
      some (s.goto i (.calling rest))
    else some (s.goto i (.gathering pub rest))
  | .gathering pub rest => some (s.goto i (.looking pub (s.rt.registrationsFor pub) rest))
  | .looking pub regs rest =>
    if s.rt.remotePublishers.hasPublisher pub.addr then some (s.goto i (.subscribing pub regs rest))
    else some (s.goto i (.connecting pub regs rest))
  | .connecting pub regs rest =>
    some ((s.enqueue (.connect pub.addr)).goto i (.subscribing pub regs rest))
  | .subscribing pub regs rest =>
    some ((s.enqueue (.subscribe pub.topic regs)).goto i (.recording pub rest))
  | .recording pub rest =>
    some ({ s with
      rt.remotePublishers := (s.rt.remotePublishers.addPublisher pub).1 }.goto i (.calling rest))

/-- The command that the receive thread takes in a step. -/
def takes (s : MessageThreads) : MessageRuntime.Action → List SubscriberCommand
  | .applyCommand _ => s.rt.subscriberCommands.take 1
  | _ => []

/-- One step of one of the threads. -/
def next (s : MessageThreads) : Action → Option MessageThreads
  | .subscribe i sub =>
    match s.calls i with
    | .idle => some (s.goto i (.adding sub))
    | _ => none
  | .datagram i fromIp m now =>
    match s.calls i with
    | .idle =>
      if m.processUuid = s.rt.discovery.processUuid then some s
      else if m.type = .advertise then
        let s := { s with rt := s.rt.seen m now }
        if Discovery.hidden (parsed m) (s.rt.discovery.isSenderLocal fromIp) then some s
        else some (s.goto i (.arrived (parsed m) s.rt.discovery.connectionCb))
      else none
    | _ => none
  | .advance i => s.advance i
  | .whole a => (s.rt.perform a).map fun x => { s with rt := x.1, taken := s.taken ++ s.takes a }

@[simp] theorem calls_goto_self (s : MessageThreads) (i : ℕ) (c : Call) :
    (s.goto i c).calls i = c := Function.update_self ..

theorem calls_goto_of_ne (s : MessageThreads) {i j : ℕ} (h : j ≠ i) (c : Call) :
    (s.goto i c).calls j = s.calls j := Function.update_of_ne h ..

@[simp] theorem enqueued_goto (s : MessageThreads) (i : ℕ) (c : Call) :
    (s.goto i c).enqueued = s.enqueued := rfl

@[simp] theorem enqueued_enqueue (s : MessageThreads) (c : SubscriberCommand) :
    (s.enqueue c).enqueued = s.enqueued ++ [c] := (List.append_assoc ..).symm

end MessageThreads

/-! ## Connections -/

namespace MessageRuntime

open TopicStorage

variable {rt rt' : MessageRuntime}

/-- A step of a process adds to the queue, and what it files as connected was so before
or has a Connect added. -/
structure Grows (rt rt' : MessageRuntime) (new : List SubscriberCommand) : Prop where
  commands : rt'.subscriberCommands = rt.subscriberCommands ++ new
  connects : ∀ a, rt'.remotePublishers.hasPublisher a = true →
    rt.remotePublishers.hasPublisher a = true ∨ .connect a ∈ new

theorem Grows.of_same (hc : rt'.subscriberCommands = rt.subscriberCommands)
    (hp : rt'.remotePublishers = rt.remotePublishers) : Grows rt rt' [] :=
  ⟨hc.trans (List.append_nil _).symm, fun _ ha => .inl (hp ▸ ha)⟩

theorem Grows.trans {rt'' : MessageRuntime} {new new' : List SubscriberCommand}
    (h : Grows rt rt' new) (h' : Grows rt' rt'' new') : Grows rt rt'' (new ++ new') where
  commands := by rw [h'.commands, h.commands, List.append_assoc]
  connects a ha := by
    rcases h'.connects a ha with ha | ha
    · exact (h.connects a ha).imp_right fun hn => List.mem_append.mpr (.inl hn)
    · exact .inr (List.mem_append.mpr (.inr ha))

/-- `onPublisherConnected` files what it has connected to. -/
theorem Grows.onPublisherConnected (rt : MessageRuntime) (pub : MessagePublisherInfo) :
    Grows rt (rt.onPublisherConnected pub) (rt.reaction pub) := by
  refine ⟨commands_onPublisherConnected rt pub, ?_⟩
  intro a ha
  by_cases h : (!rt.localSubscribers.hasSubscriber pub.topic ||
      pub.processUuid = rt.processUuid) = true
  · simp only [MessageRuntime.onPublisherConnected, if_pos h] at ha
    exact .inl ha
  · have hremote : (rt.onPublisherConnected pub).remotePublishers =
        (rt.remotePublishers.addPublisher pub).1 := by
      simp only [MessageRuntime.onPublisherConnected, if_neg h]
      split <;> rfl
    rw [hremote] at ha
    obtain ⟨t, q, x, hx, hax⟩ := (hasPublisher_iff _).mp ha
    rcases (mem_pubsOf_addPublisher _).mp hx with hx | ⟨-, -, -, rfl⟩
    · exact .inl ((hasPublisher_iff _).mpr ⟨t, q, x, hx, hax⟩)
    · subst hax
      by_cases hp : rt.remotePublishers.hasPublisher x.addr = true
      · exact .inl hp
      · right
        simp only [reaction, if_neg h, if_neg hp]
        exact List.mem_append.mpr (.inl List.mem_cons_self)

/-- Removals file nothing. -/
theorem Grows.of_sub (hc : rt'.subscriberCommands = rt.subscriberCommands)
    (hp : ∀ t q x, x ∈ rt'.remotePublishers.pubsOf t q → x ∈ rt.remotePublishers.pubsOf t q) :
    Grows rt rt' [] := by
  refine ⟨hc.trans (List.append_nil _).symm, fun a ha => .inl ?_⟩
  obtain ⟨t, q, x, hx, hax⟩ := (hasPublisher_iff _).mp ha
  exact (hasPublisher_iff _).mpr ⟨t, q, x, hp t q x hx, hax⟩

theorem Grows.onCallback (rt : MessageRuntime) (c : Callback MessagePublisherInfo) :
    ∃ new, Grows rt (rt.onCallback c) new := by
  cases c with
  | connection pub => exact ⟨_, .onPublisherConnected rt pub⟩
  | disconnection pub =>
      refine ⟨[], .of_sub (commands_onPublisherDisconnected pub) ?_⟩
      intro t q x hx
      exact remotePublishers_onPublisherDisconnected pub hx
  | registration pub =>
      refine ⟨[], .of_same ?_ ?_⟩ <;>
        · simp only [MessageRuntime.onCallback, onSubscriberRegistered]
          split <;> rfl
  | unregistration pub =>
      refine ⟨[], .of_same ?_ ?_⟩ <;>
        · simp only [MessageRuntime.onCallback, onSubscriberUnregistered]
          split <;> rfl

theorem Grows.onCallbacks (cs : List (Callback MessagePublisherInfo)) (rt : MessageRuntime) :
    ∃ new, Grows rt (cs.foldl MessageRuntime.onCallback rt) new := by
  induction cs generalizing rt with
  | nil => exact ⟨[], .of_same rfl rfl⟩
  | cons c cs ih =>
      obtain ⟨new, h⟩ := Grows.onCallback rt c
      obtain ⟨new', h'⟩ := ih (rt.onCallback c)
      exact ⟨_, h.trans h'⟩

theorem Grows.absorb (rt : MessageRuntime) (o : Outcome MessagePublisherInfo) :
    ∃ new, Grows rt (rt.absorb o).1 new := by
  obtain ⟨new, h⟩ := Grows.onCallbacks o.calls { rt with discovery := o.self }
  exact ⟨new, h.commands, h.connects⟩

/-- Every step but that of the receive thread adds to the queue. -/
theorem Grows.perform {a : Action} {sent : List Msgs.Discovery}
    (h : rt.perform a = some (rt', sent)) (ha : ∀ ok, a ≠ .applyCommand ok) :
    ∃ new, Grows rt rt' new := by
  cases a with
  | advertise topic nodeUuid msgType options =>
      rw [perform_advertise] at h
      obtain ⟨rfl, -⟩ := fst_snd_of_some h
      exact Grows.absorb rt _
  | unadvertise topic nodeUuid =>
      obtain ⟨rfl, -⟩ := fst_snd_of_some h
      exact Grows.absorb rt _
  | subscribe topic nodeUuid handler =>
      obtain ⟨rfl, -⟩ := fst_snd_of_some h
      obtain ⟨new, hnew⟩ := Grows.absorb { rt with
        localSubscribers := rt.localSubscribers.addHandler topic nodeUuid handler.handlerUuid
          handler } (rt.discovery.discover topic).1
      exact ⟨new, hnew.commands, hnew.connects⟩
  | unsubscribe topic nodeUuid =>
      obtain ⟨rfl, -⟩ := fst_snd_of_some h
      simp only [unsubscribe]
      split
      case isTrue => exact ⟨[], .of_same rfl rfl⟩
      case isFalse => exact ⟨[.unsubscribe topic], rfl, fun _ => .inl⟩
  | recv fromIp m now =>
      obtain ⟨rfl, -⟩ := fst_snd_of_some h
      exact Grows.absorb rt _
  | heartbeat now later =>
      obtain ⟨rfl, -⟩ := fst_snd_of_some h
      exact Grows.absorb rt _
  | activity now later =>
      obtain ⟨rfl, -⟩ := fst_snd_of_some h
      exact Grows.absorb rt _
  | applyCommand ok => exact absurd rfl (ha ok)

/-- The handlers after a step. -/
def handlersAfter (rt : MessageRuntime) : Action → HandlerWrapper
  | .subscribe topic nodeUuid handler =>
    rt.localSubscribers.addHandler topic nodeUuid handler.handlerUuid handler
  | .unsubscribe topic nodeUuid => (rt.localSubscribers.removeHandlersForNode topic nodeUuid).1
  | _ => rt.localSubscribers

/-- Only `subscribe` and `unsubscribe` touch the handlers. -/
theorem localSubscribers_perform {a : Action} {sent : List Msgs.Discovery}
    (h : rt.perform a = some (rt', sent)) : rt'.localSubscribers = rt.handlersAfter a := by
  cases a with
  | advertise topic nodeUuid msgType options =>
      rw [perform_advertise] at h
      obtain ⟨rfl, -⟩ := fst_snd_of_some h
      exact localSubscribers_absorb _ _
  | unadvertise topic nodeUuid =>
      obtain ⟨rfl, -⟩ := fst_snd_of_some h
      exact localSubscribers_absorb _ _
  | subscribe topic nodeUuid handler =>
      obtain ⟨rfl, -⟩ := fst_snd_of_some h
      exact localSubscribers_absorb _ _
  | unsubscribe topic nodeUuid =>
      obtain ⟨rfl, -⟩ := fst_snd_of_some h
      simp only [unsubscribe]
      split <;> rfl
  | recv fromIp m now =>
      obtain ⟨rfl, -⟩ := fst_snd_of_some h
      exact localSubscribers_absorb _ _
  | heartbeat now later =>
      obtain ⟨rfl, -⟩ := fst_snd_of_some h
      exact localSubscribers_absorb _ _
  | activity now later =>
      obtain ⟨rfl, -⟩ := fst_snd_of_some h
      exact localSubscribers_absorb _ _
  | applyCommand ok =>
      obtain ⟨c, rest, sub, -, hx⟩ := applyNextCommand_eq rt h
      obtain rfl := hx
      rfl

theorem filled_perform {a : Action} {sent : List Msgs.Discovery}
    (hf : rt.localSubscribers.Filled) (h : rt.perform a = some (rt', sent)) :
    rt'.localSubscribers.Filled := by
  rw [localSubscribers_perform h]
  cases a with
  | subscribe topic nodeUuid handler => exact HandlerStorage.Filled.addHandler _ hf _ _ _ _
  | unsubscribe topic nodeUuid => exact HandlerStorage.Filled.removeHandlersForNode _ hf _ _
  | _ => exact hf

end MessageRuntime

namespace MessageThreads

variable {s t : MessageThreads}

/-- An endpoint that is filed as connected had a Connect enqueued. -/
def Connected (s : MessageThreads) : Prop :=
  ∀ a, s.rt.remotePublishers.hasPublisher a = true → .connect a ∈ s.enqueued

/-- What holds whatever a process has been through. -/
structure Settled (s : MessageThreads) : Prop where
  sound : s.rt.Sound
  filled : s.rt.localSubscribers.Filled
  connected : s.Connected

theorem Settled.whole (hs : s.Settled) {a : MessageRuntime.Action}
    (h : s.next (.whole a) = some t) : t.Settled := by
  obtain ⟨⟨rt', sent⟩, hp, rfl⟩ := Option.map_eq_some_iff.mp h
  refine ⟨hs.sound.step hp, filled_perform hs.filled hp, ?_⟩
  intro addr haddr
  by_cases ha : ∃ ok, a = .applyCommand ok
  · obtain ⟨ok, rfl⟩ := ha
    obtain ⟨c, rest, sub, hq, hx⟩ := applyNextCommand_eq s.rt hp
    obtain rfl := hx
    have hold := hs.connected addr haddr
    simp only [enqueued, takes, hq] at hold ⊢
    simpa using hold
  · obtain ⟨new, hgrows⟩ := Grows.perform hp fun ok hok => ha ⟨ok, hok⟩
    have htakes : s.takes a = [] := by
      cases a with
      | applyCommand ok => exact absurd ⟨ok, rfl⟩ ha
      | _ => rfl
    simp only [enqueued, htakes, hgrows.commands, List.append_nil, ← List.append_assoc]
    rcases hgrows.connects addr haddr with hold | hnew
    · exact List.mem_append.mpr (.inl (hs.connected addr hold))
    · exact List.mem_append.mpr (.inr hnew)

/-- A process that has just started. -/
def start (processUuid processName hostAddr address : Str) : MessageThreads :=
  { rt := MessageRuntime.init processUuid processName hostAddr address }

theorem settled_start {processUuid : Str} (h : processUuid ≠ [])
    (processName hostAddr address : Str) :
    (start processUuid processName hostAddr address).Settled where
  sound := sound_init h ..
  filled := HandlerStorage.filled_empty
  connected a ha := by
    obtain ⟨t, q, x, hx, -⟩ := (TopicStorage.hasPublisher_iff _).mp ha
    simp [start, init] at hx

end MessageThreads
end RfTrans
