import RfTrans.Runtime.Connections
import RfTrans.Runtime.Threads

/-!
# The filters of the SUB socket

Every discovery of a publisher and every further `subscribe` queues one more Subscribe,
while one Unsubscribe is queued when the last handler goes.  The receive thread tests the
handler table again before it changes the filter, so calls of other threads come in
between there too.

## Main definitions

* `FilterThreads` — the runtime with its threads, among them those inside `unsubscribe`,
  and the receive thread between its test and the socket.
* `FilterThreads.next` — one step of one of the threads.
* `FilterThreads.LastOne` — no more instances of a filter than Unsubscribes to come.
* `FilterThreads.filters_follow`, `FilterThreads.filter_left_over`
-/

namespace RfTrans

open Exec MessageRuntime TopicStorage

/-- Where a call of `unsubscribe` stands once it has removed its handlers. -/
inductive Leaving
  /-- It is about to test whether the topic has a handler left. -/
  | testing (topic : Str)
  | enqueuing (topic : Str)
  deriving DecidableEq

/-- What the receive thread has found that it has to do to the filter of a topic. -/
inductive Setting
  | set (topic : Str)
  | unset (topic : Str)
  deriving DecidableEq

/-- The threads of a runtime, with those that are inside `unsubscribe` and the receive thread.
The commands of the batch that the receive thread works on are still in the queue. -/
structure FilterThreads where
  threads : MessageThreads
  leaving : List Leaving := []
  setting : Option Setting := none

namespace FilterThreads

/-- The steps of the threads. The END_CONNECTIONs of `unsubscribe`, which come last, are left
out. -/
inductive Action
  | threads (a : MessageThreads.Action)
  /-- `unsubscribe` removes the handlers of a node. -/
  | unsubscribe (topic nodeUuid : Str)
  /-- A call of `unsubscribe` goes on. -/
  | leave (l : Leaving)
  /-- The receive thread takes a command and tests the handlers; `ok` says whether the socket
  takes a Connect. -/
  | take (ok : Bool)
  /-- It changes the filter. -/
  | apply

abbrev rt (s : FilterThreads) : MessageRuntime := s.threads.rt

/-- Whether the topic has a handler. -/
abbrev Has (s : FilterThreads) (topic : Str) : Prop :=
  s.rt.localSubscribers.hasSubscriber topic = true

/-- `subscribe`, `unsubscribe` and the receive thread go by steps of their own. -/
def whole : MessageThreads.Action → Bool
  | .whole (.subscribe ..) | .whole (.unsubscribe ..) | .whole (.applyCommand ..) => false
  | _ => true

/-- The handlers after a call of `unsubscribe`. -/
def remaining (s : FilterThreads) (topic nodeUuid : Str) : HandlerWrapper :=
  (s.rt.localSubscribers.removeHandlersForNode topic nodeUuid).1

/-- The next step of a call of `unsubscribe`. -/
def leave (s : FilterThreads) (l : Leaving) : FilterThreads :=
  match l with
  | .testing topic =>
    if s.rt.localSubscribers.hasSubscriber topic then { s with leaving := s.leaving.erase l }
    else { s with leaving := .enqueuing topic :: s.leaving.erase l }
  | .enqueuing topic =>
    { s with
      threads := s.threads.enqueue (.unsubscribe topic)
      leaving := s.leaving.erase l }

/-- The receive thread has taken a command: the test that `applySubscriberCommands` makes. -/
def test (s : FilterThreads) (ok : Bool) : SubscriberCommand → FilterThreads
  | .connect address =>
    if ok then
      { s with threads.rt.subscriber.connected := s.rt.subscriber.connected ++ [address] }
    else s
  | .subscribe topic _ =>
    if s.rt.localSubscribers.hasSubscriber topic then { s with setting := some (.set topic) } else s
  | .unsubscribe topic =>
    if !s.rt.localSubscribers.hasSubscriber topic then { s with setting := some (.unset topic) }
    else s

/-- The filters once the receive thread has changed them: set adds an instance, unset takes
one away. -/
def Setting.change (filters : List Str) : Setting → List Str
  | .set topic => topic :: filters
  | .unset topic => filters.erase topic

/-- The command at the head of the queue is taken. -/
def pop (s : FilterThreads) (c : SubscriberCommand) (rest : List SubscriberCommand) :
    FilterThreads :=
  { s with
    threads.rt.subscriberCommands := rest
    threads.taken := s.threads.taken ++ [c] }

/-- One step of one of the threads. -/
def next (s : FilterThreads) : Action → Option FilterThreads
  | .threads a =>
    if whole a then (s.threads.next a).map fun x => { s with threads := x } else none
  | .unsubscribe topic nodeUuid =>
    some { s with
      threads.rt.localSubscribers := s.remaining topic nodeUuid
      leaving := .testing topic :: s.leaving }
  | .leave l => if l ∈ s.leaving then some (s.leave l) else none
  | .take ok =>
    match s.setting, s.rt.subscriberCommands with
    | none, c :: rest => some ((s.pop c rest).test ok c)
    | _, _ => none
  | .apply =>
    s.setting.map fun x =>
      { s with
        threads.rt.subscriber.filters := Setting.change s.rt.subscriber.filters x
        setting := none }

/-- No call is in progress, and the queue is drained. -/
structure Quiet (s : FilterThreads) : Prop where
  queue : s.rt.subscriberCommands = []
  setting : s.setting = none
  leaving : s.leaving = []
  calls : ∀ i, s.threads.calls i = .idle

/-- A publisher of the topic from another process is known. -/
def Offered (s : FilterThreads) (topic : Str) : Prop :=
  ∃ q, q ≠ s.rt.processUuid ∧ ∃ x, x ∈ s.rt.discovery.knownPublishers.pubsOf topic q

/-- The filter of every topic follows its handlers. -/
structure Follows (s : FilterThreads) : Prop where
  unset : ∀ topic, s.rt.localSubscribers.handlersOf topic = [] →
    s.rt.subscriber.filters.count topic = 0
  set : ∀ topic, s.rt.localSubscribers.handlersOf topic ≠ [] → s.Offered topic →
    1 ≤ s.rt.subscriber.filters.count topic

/-- The instances of a filter that are set or about to be. -/
def instances (s : FilterThreads) (topic : Str) : ℕ :=
  s.rt.subscriber.filters.count topic + s.setting.toList.count (.set topic)

/-- The Unsubscribes of a topic that are queued, being applied or about to be queued. -/
def toCome (s : FilterThreads) (topic : Str) : ℕ :=
  s.rt.subscriberCommands.count (.unsubscribe topic) + s.setting.toList.count (.unset topic) +
    s.leaving.count (.testing topic) + s.leaving.count (.enqueuing topic)

/-- When the last handler of a topic goes, its filter has at most one more instance than there
are Unsubscribes to come. -/
def LastOne (s : FilterThreads) : Action → Prop
  | .unsubscribe topic nodeUuid =>
    s.Has topic → (s.remaining topic nodeUuid).hasSubscriber topic = false →
      s.instances topic ≤ s.toCome topic + 1
  | _ => True

variable {s t : FilterThreads}

/-- With nothing in between, the steps of the receive thread are what it does to a command. -/
theorem exec_take {x : MessageThreads} (hset : s.setting = none)
    (h : s.threads.next (.whole (.applyCommand true)) = some x) :
    exec next s [.take true] = some { s with threads := x } ∨
      exec next s [.take true, .apply] = some { s with threads := x } := by
  obtain ⟨⟨rt', sent⟩, hp, rfl⟩ := Option.map_eq_some_iff.mp h
  obtain ⟨c, rest, hq, rfl, -⟩ := perform_applyCommand _ hp
  have htake : s.next (.take true) = some ((s.pop c rest).test true c) := by
    simp only [next, hset, rt, hq]
  have htakes : s.threads.takes (.applyCommand true) = [c] := by
    simp only [MessageThreads.takes, hq, List.take_succ_cons, List.take_zero]
  rw [exec_cons, exec_cons, htake, htakes, Option.bind_some, Option.bind_some]
  cases c with
  | connect address => exact .inl rfl
  | subscribe topic regs =>
      by_cases hhas : s.rt.localSubscribers.hasSubscriber topic = true
      · right
        simp [test, pop, next, applySubscriberCommand, hhas, Setting.change, hset]
      · left
        simp [test, pop, applySubscriberCommand, hhas]
  | unsubscribe topic =>
      by_cases hhas : s.rt.localSubscribers.hasSubscriber topic = true
      · left
        simp [test, pop, applySubscriberCommand, hhas]
      · right
        simp [test, pop, next, applySubscriberCommand, hhas, Setting.change, hset]

/-- With nothing in between, the steps of a calling thread are its whole `unsubscribe`. -/
theorem exec_unsubscribe {x : MessageThreads} {topic nodeUuid : Str}
    (h : s.threads.next (.whole (.unsubscribe topic nodeUuid)) = some x) :
    exec next s [.unsubscribe topic nodeUuid, .leave (.testing topic)] =
        some { s with threads := x } ∨
      exec next s [.unsubscribe topic nodeUuid, .leave (.testing topic),
        .leave (.enqueuing topic)] = some { s with threads := x } := by
  simp only [MessageThreads.next, perform, Option.map_some, Option.some.injEq,
    MessageThreads.takes, List.append_nil] at h
  obtain rfl := h
  by_cases hhas : (s.remaining topic nodeUuid).hasSubscriber topic = true
  · left
    simp only [remaining] at hhas
    simp [next, leave, remaining, MessageRuntime.unsubscribe, hhas]
  · right
    simp only [remaining] at hhas
    simp [next, leave, remaining, MessageRuntime.unsubscribe, hhas, MessageThreads.enqueue]

/-! ## What is asked for, and by whom -/

/-- A call will ask for the filter of the topic, as things stand. -/
def Owes (own topic : Str) : MessageThreads.Call → Prop
  | .idle | .adding _ | .arrived .. => False
  | .discovering t | .reading t _ => t = topic
  | .calling rest | .recording _ rest => ∃ x ∈ rest, x.topic = topic ∧ x.processUuid ≠ own
  | .gathering pub rest | .looking pub _ rest | .connecting pub _ rest
  | .subscribing pub _ rest =>
    pub.topic = topic ∨ ∃ x ∈ rest, x.topic = topic ∧ x.processUuid ≠ own

/-- A call that has copied the callback of the discovery instance found one. -/
def Informed : MessageThreads.Call → Prop
  | .reading _ cb | .arrived _ cb => cb = true
  | _ => True

/-- The filter of the topic is there to stay, or about to be set, or asked for. -/
def Asked (s : FilterThreads) (topic : Str) : Prop :=
  (topic ∈ s.rt.subscriber.filters ∧ s.setting ≠ some (.unset topic)) ∨
    s.setting = some (.set topic) ∨ ∃ regs, .subscribe topic regs ∈ s.rt.subscriberCommands

/-- The tables of the runtime are in order. -/
structure Sound (s : FilterThreads) : Prop where
  running : s.rt.Running
  wellFormed : s.rt.discovery.knownPublishers.WellFormed
  filled : s.rt.localSubscribers.Filled
  informed : ∀ i, Informed (s.threads.calls i)

/-- What is wanted is asked for, or a call is on its way to do so. -/
def Attended (s : FilterThreads) : Prop :=
  ∀ topic, s.Has topic → s.Offered topic →
    s.Asked topic ∨ ∃ i, Owes s.rt.processUuid topic (s.threads.calls i)

/-- What the threads do to the runtime when no handler is added: the queue grows. -/
structure Grown (s x : MessageThreads) (new : List SubscriberCommand) : Prop where
  uuid : x.rt.processUuid = s.rt.processUuid
  handlers : x.rt.localSubscribers = s.rt.localSubscribers
  subscriber : x.rt.subscriber = s.rt.subscriber
  commands : x.rt.subscriberCommands = s.rt.subscriberCommands ++ new

theorem Asked.grown {topic : Str} (h : s.Asked topic) {x : MessageThreads}
    {new : List SubscriberCommand} (hx : Grown s.threads x new) :
    Asked { s with threads := x } topic := by
  simp only [Asked, rt, hx.subscriber, hx.commands] at h ⊢
  refine h.imp_right (Or.imp_right ?_)
  rintro ⟨regs, hregs⟩
  exact ⟨regs, List.mem_append.mpr (.inl hregs)⟩

/-- Every call goes on asking for what it owed, unless it has put it into the queue. -/
theorem Attended.grown (h : s.Attended) {x : MessageThreads} {new : List SubscriberCommand}
    (hx : Grown s.threads x new)
    (hoffered : ∀ topic, s.Has topic → Offered { s with threads := x } topic →
      s.Offered topic ∨ (∃ regs, .subscribe topic regs ∈ new) ∨
        ∃ i, Owes s.rt.processUuid topic (x.calls i))
    (howes : ∀ topic, s.Has topic → Offered { s with threads := x } topic → ∀ i,
      Owes s.rt.processUuid topic (s.threads.calls i) →
      (∃ regs, .subscribe topic regs ∈ new) ∨ ∃ j, Owes s.rt.processUuid topic (x.calls j)) :
    Attended { s with threads := x } := by
  intro topic hhas hoff
  have hhas' : s.Has topic := by
    rw [Has, rt, ← hx.handlers]
    exact hhas
  have hnew : ((∃ regs, .subscribe topic regs ∈ new) ∨
      ∃ j, Owes s.rt.processUuid topic (x.calls j)) →
      Asked { s with threads := x } topic ∨ ∃ j, Owes x.rt.processUuid topic (x.calls j) := by
    rintro (⟨regs, hregs⟩ | hj)
    · left; right; right
      refine ⟨regs, ?_⟩
      rw [rt, hx.commands]
      exact List.mem_append.mpr (.inr hregs)
    · rw [hx.uuid]
      exact .inr hj
  rcases hoffered topic hhas' hoff with hold | hother
  · rcases h topic hhas' hold with hasked | ⟨i, hi⟩
    · exact .inl (hasked.grown hx)
    · exact hnew (howes topic hhas' hoff i hi)
  · exact hnew hother

/-- What leaves handlers, queue and socket alone. -/
theorem Grown.same {x : MessageThreads} (hu : x.rt.processUuid = s.rt.processUuid)
    (hl : x.rt.localSubscribers = s.rt.localSubscribers) (hs : x.rt.subscriber = s.rt.subscriber)
    (hc : x.rt.subscriberCommands = s.rt.subscriberCommands) : Grown s.threads x [] :=
  ⟨hu, hl, hs, hc.trans (List.append_nil _).symm⟩

/-- What holds in every state of a run. -/
structure Inv (s : FilterThreads) : Prop where
  sound : s.Sound
  attended : s.Attended

/-! ## Calls of subscribe and the discovery thread -/

/-- A call goes on, after the runtime was changed. -/
theorem Inv.moved (h : s.Inv) {y : MessageThreads} {new : List SubscriberCommand} {i : ℕ}
    {c : MessageThreads.Call} (hy : Grown s.threads y new) (hcalls : y.calls = s.threads.calls)
    (hrunning : y.rt.Running) (hwf : y.rt.discovery.knownPublishers.WellFormed)
    (hc : Informed c)
    (hoffered : ∀ topic, s.Has topic → Offered { s with threads := y } topic →
      s.Offered topic ∨ Owes s.rt.processUuid topic c)
    (howes : ∀ topic, s.Has topic → Offered { s with threads := y } topic →
      Owes s.rt.processUuid topic (s.threads.calls i) →
      (∃ regs, .subscribe topic regs ∈ new) ∨ Owes s.rt.processUuid topic c) :
    Inv { s with threads := y.goto i c } := by
  have hx : Grown s.threads (y.goto i c) new :=
    ⟨hy.uuid, hy.handlers, hy.subscriber, hy.commands⟩
  refine ⟨⟨hrunning, hwf, ?_, ?_⟩, h.attended.grown hx ?_ ?_⟩
  · exact hy.handlers ▸ h.sound.filled
  · intro j
    by_cases hj : j = i
    · subst hj
      exact (MessageThreads.calls_goto_self y j c).symm ▸ hc
    · show Informed ((y.goto i c).calls j)
      rw [MessageThreads.calls_goto_of_ne y hj, hcalls]
      exact h.sound.informed j
  · intro topic hhas hoff
    refine (hoffered topic hhas hoff).imp_right fun ho => .inr ⟨i, ?_⟩
    rwa [MessageThreads.calls_goto_self]
  · intro topic hhas hoff j hj
    by_cases hji : j = i
    · subst hji
      refine (howes topic hhas hoff hj).imp_right fun ho => ⟨j, ?_⟩
      rwa [MessageThreads.calls_goto_self]
    · refine .inr ⟨j, ?_⟩
      rwa [MessageThreads.calls_goto_of_ne y hji, hcalls]

/-- The invariant is kept by a thread that goes on and leaves the runtime alone. -/
theorem Inv.goto (h : s.Inv) {i : ℕ} {c : MessageThreads.Call} (hc : Informed c)
    (howes : ∀ topic, s.Has topic → s.Offered topic →
      Owes s.rt.processUuid topic (s.threads.calls i) → Owes s.rt.processUuid topic c) :
    Inv { s with threads := s.threads.goto i c } := by
  have hy : Grown s.threads s.threads [] :=
    .same rfl rfl rfl rfl
  refine h.moved hy rfl h.sound.running h.sound.wellFormed hc ?_ ?_
  · exact fun topic _ hoff => .inl hoff
  · exact fun topic hhas hoff ho => .inr (howes topic hhas hoff ho)

/-- The invariant is kept by a thread that goes on after queueing a command. -/
theorem Inv.enqueue (h : s.Inv) {cmd : SubscriberCommand} {i : ℕ} {c : MessageThreads.Call}
    (hc : Informed c)
    (howes : ∀ topic, Owes s.rt.processUuid topic (s.threads.calls i) →
      (∃ regs, cmd = .subscribe topic regs) ∨ Owes s.rt.processUuid topic c) :
    Inv { s with threads := (s.threads.enqueue cmd).goto i c } := by
  have hy : Grown s.threads (s.threads.enqueue cmd) [cmd] :=
    ⟨rfl, rfl, rfl, rfl⟩
  have hr := h.sound.running
  refine h.moved hy rfl (hr.same rfl rfl) h.sound.wellFormed hc ?_ ?_
  · exact fun topic _ hoff => .inl hoff
  · intro topic _ _ ho
    refine (howes topic ho).imp_left ?_
    rintro ⟨regs, rfl⟩
    exact ⟨regs, List.mem_cons_self⟩

/-- `subscribe` adds its handler: it is this call that asks for the filter. -/
theorem Inv.adding (h : s.Inv) {i : ℕ} {sub : Subscription} {x : MessageThreads}
    (hc : s.threads.calls i = .adding sub) (hx : s.threads.advance i = some x) :
    Inv { s with threads := x } := by
  simp only [MessageThreads.advance, hc] at hx
  obtain rfl := Option.some.inj hx
  have hr := h.sound.running
  refine ⟨⟨hr.same rfl rfl, h.sound.wellFormed,
    h.sound.filled.addHandler _ _ _ _ _, ?_⟩, ?_⟩
  · intro j
    by_cases hj : j = i
    · subst hj
      exact (MessageThreads.calls_goto_self _ j _).symm ▸ trivial
    · show Informed (MessageThreads.calls _ j)
      rw [MessageThreads.calls_goto_of_ne _ hj]
      exact h.sound.informed j
  · intro topic hhas hoff
    by_cases htopic : sub.topic = topic
    · refine .inr ⟨i, ?_⟩
      rw [MessageThreads.calls_goto_self]
      exact htopic
    · -- the handlers of other topics are those there were
      have hold : s.Has topic := by
        obtain ⟨g, hg⟩ := (HandlerStorage.hasHandlersForTopic_iff _
          (h.sound.filled.addHandler _ _ _ _ _)).mp hhas
        rcases HandlerStorage.mem_handlersOf_addHandler _ hg with hg | ⟨rfl, -⟩
        · exact (HandlerStorage.hasHandlersForTopic_iff _ h.sound.filled).mpr ⟨g, hg⟩
        · exact absurd rfl htopic
      rcases h.attended topic hold hoff with hasked | ⟨j, hj⟩
      · exact .inl hasked
      · refine .inr ⟨j, ?_⟩
        by_cases hji : j = i
        · subst hji
          rw [hc] at hj
          exact hj.elim
        · rw [MessageThreads.calls_goto_of_ne _ hji]
          exact hj

/-- The discovery thread files a publisher: it is this call that asks for the filter. -/
theorem Inv.arrived (h : s.Inv) {i : ℕ} {pub : MessagePublisherInfo} {cb : Bool}
    {x : MessageThreads} (hc : s.threads.calls i = .arrived pub cb)
    (hx : s.threads.advance i = some x) : Inv { s with threads := x } := by
  have hcb := h.sound.informed i
  rw [hc] at hcb
  obtain rfl : cb = true := hcb
  simp only [MessageThreads.advance, hc, Bool.and_true] at hx
  obtain rfl := Option.some.inj hx
  have hr := h.sound.running
  refine h.moved (.same rfl rfl rfl rfl) rfl
    ⟨hr.1, hr.2, hr.3, hr.4, hr.5, hr.6⟩
    (h.sound.wellFormed.edited (.added pub)) trivial ?_ ?_
  · rintro topic - ⟨q, hq, y, hy⟩
    rcases (mem_pubsOf_addPublisher _).mp hy with hy | ⟨hadd, rfl, rfl, rfl⟩
    · exact .inl ⟨q, hq, y, hy⟩
    · right
      refine ⟨y, ?_, rfl, hq⟩
      rw [if_pos hadd]
      exact List.mem_cons_self
  · intro topic _ _ ho
    rw [hc] at ho
    exact ho.elim

/-- **One step of a call** of `subscribe` or of the discovery thread. -/
theorem Inv.advance (h : s.Inv) {i : ℕ} {x : MessageThreads} (hx : s.threads.advance i = some x) :
    Inv { s with threads := x } := by
  have hr := h.sound.running
  have hcb := h.sound.informed i
  cases hc : s.threads.calls i with
  | idle =>
      simp only [MessageThreads.advance, hc] at hx
      cases hx
  | adding sub => exact h.adding hc hx
  | discovering topic =>
      simp only [MessageThreads.advance, hc, hr.enabled, if_true] at hx
      obtain rfl := Option.some.inj hx
      refine h.goto hr.connection fun t _ _ ho => ?_
      rwa [hc] at ho
  | reading topic cb =>
      rw [hc] at hcb
      obtain rfl : cb = true := hcb
      simp only [MessageThreads.advance, hc] at hx
      cases hget : s.rt.discovery.knownPublishers.getPublishers topic with
      | none =>
          simp only [hget] at hx
          obtain rfl := Option.some.inj hx
          refine h.goto trivial fun t _ hoff ho => ?_
          rw [hc] at ho
          obtain rfl : topic = t := ho
          obtain ⟨q, -, y, hy⟩ := hoff
          exact absurd hy (pubsOf_of_getPublishers _ hget q y)
      | some addresses =>
          simp only [hget, if_true] at hx
          obtain rfl := Option.some.inj hx
          refine h.goto trivial fun t _ hoff ho => ?_
          rw [hc] at ho
          obtain rfl : topic = t := ho
          obtain ⟨q, hq, y, hy⟩ := hoff
          obtain ⟨ht, hp⟩ := h.sound.wellFormed.filed hy
          have hmem := (mem_flatMap_getPublishers _ hget).mpr ⟨q, hy⟩
          exact ⟨y, hmem, ht, fun heq => hq (hp.symm.trans heq)⟩
  | arrived pub cb => exact h.arrived hc hx
  | calling rest =>
      cases rest with
      | nil =>
          simp only [MessageThreads.advance, hc] at hx
          obtain rfl := Option.some.inj hx
          refine h.goto trivial fun t _ _ ho => ?_
          rw [hc] at ho
          obtain ⟨y, hy, -⟩ := ho
          cases hy
      | cons pub rest =>
          simp only [MessageThreads.advance, hc] at hx
          split at hx
          case isTrue hout =>
            -- a publisher that is passed over is none that the topic's handlers are owed
            obtain rfl := Option.some.inj hx
            refine h.goto trivial fun t hhas _ ho => ?_
            rw [hc] at ho
            obtain ⟨y, hy, rfl, hne⟩ := ho
            rcases List.mem_cons.mp hy with rfl | hy
            · rw [Has, rt] at hhas
              simp [hhas, hne] at hout
            · exact ⟨y, hy, rfl, hne⟩
          case isFalse =>
            obtain rfl := Option.some.inj hx
            refine h.goto trivial fun t _ _ ho => ?_
            rw [hc] at ho
            obtain ⟨y, hy, rfl, hne⟩ := ho
            rcases List.mem_cons.mp hy with rfl | hy
            · exact .inl rfl
            · exact .inr ⟨y, hy, rfl, hne⟩
  | gathering pub rest =>
      simp only [MessageThreads.advance, hc] at hx
      obtain rfl := Option.some.inj hx
      refine h.goto trivial fun t _ _ ho => ?_
      rwa [hc] at ho
  | looking pub regs rest =>
      simp only [MessageThreads.advance, hc] at hx
      split at hx
      case isTrue =>
        obtain rfl := Option.some.inj hx
        refine h.goto trivial fun t _ _ ho => ?_
        rwa [hc] at ho
      case isFalse =>
        obtain rfl := Option.some.inj hx
        refine h.goto trivial fun t _ _ ho => ?_
        rwa [hc] at ho
  | connecting pub regs rest =>
      simp only [MessageThreads.advance, hc] at hx
      obtain rfl := Option.some.inj hx
      refine h.enqueue trivial fun t ho => .inr ?_
      rwa [hc] at ho
  | subscribing pub regs rest =>
      simp only [MessageThreads.advance, hc] at hx
      obtain rfl := Option.some.inj hx
      refine h.enqueue trivial fun t ho => ?_
      rw [hc] at ho
      rcases ho with rfl | ho
      · exact .inl ⟨regs, rfl⟩
      · exact .inr ho
  | recording pub rest =>
      simp only [MessageThreads.advance, hc] at hx
      obtain rfl := Option.some.inj hx
      refine h.moved (.same rfl rfl rfl rfl) rfl (hr.same rfl rfl) h.sound.wellFormed
        trivial ?_ ?_
      · exact fun t _ hoff => .inl hoff
      · intro t _ _ ho
        rw [hc] at ho
        exact .inr ho

/-- What the other steps of the runtime do to the queue. -/
theorem commands_whole {rt rt' : MessageRuntime} {a : MessageRuntime.Action}
    {sent : List Msgs.Discovery} (hr : rt.Running) (h : rt.perform a = some (rt', sent))
    (ha : whole (.whole a) = true) :
    rt'.subscriberCommands = rt.subscriberCommands ++ ((rt.adds a).map fun pub =>
      if (rt.discovery.knownPublishers.addPublisher pub).2 then rt.reaction pub
      else []).getD [] := by
  cases a with
  | subscribe topic nodeUuid handler => cases ha
  | unsubscribe topic nodeUuid => cases ha
  | applyCommand ok => cases ha
  | recv fromIp m now =>
      obtain ⟨rfl, -⟩ := fst_snd_of_some h
      exact commands_recv hr fromIp m now
  | advertise topic nodeUuid msgType options =>
      rw [perform_advertise] at h
      obtain ⟨rfl, -⟩ := fst_snd_of_some h
      have hown : rt.reaction (MessagePublisherInfo.make topic rt.address (str "unused")
          rt.processUuid nodeUuid msgType options) = [] := by
        simp [reaction, MessagePublisherInfo.make, PublisherInfo.make]
      rw [commands_advertise]
      simp [adds, hown]
  | unadvertise topic nodeUuid =>
      obtain ⟨rfl, -⟩ := fst_snd_of_some h
      rw [commands_unadvertise]
      exact (List.append_nil _).symm
  | heartbeat now later =>
      obtain ⟨rfl, -⟩ := fst_snd_of_some h
      rw [commands_heartbeat]
      exact (List.append_nil _).symm
  | activity now later =>
      obtain ⟨rfl, -⟩ := fst_snd_of_some h
      rw [commands_activity hr]
      exact (List.append_nil _).symm

theorem handlers_whole {rt rt' : MessageRuntime} {a : MessageRuntime.Action}
    {sent : List Msgs.Discovery} (h : rt.perform a = some (rt', sent))
    (ha : whole (.whole a) = true) : rt'.localSubscribers = rt.localSubscribers := by
  rw [localSubscribers_perform h]
  cases a with
  | subscribe topic nodeUuid handler => cases ha
  | unsubscribe topic nodeUuid => cases ha
  | _ => rfl

/-- A step of the runtime that no other comes in between of. -/
theorem Inv.whole (h : s.Inv) {a : MessageRuntime.Action} {rt' : MessageRuntime}
    {sent : List Msgs.Discovery} (ha : FilterThreads.whole (.whole a) = true)
    (hp : s.rt.perform a = some (rt', sent)) (taken : List SubscriberCommand) :
    Inv { s with threads := { s.threads with rt := rt', taken := taken } } := by
  have hr := h.sound.running
  have hknown := knownAfter_perform hr hp
  have hkept := kept_perform hr hp
  have hnot : ∀ ok, a ≠ .applyCommand ok := by
    rintro ok rfl
    cases ha
  have hcommands := commands_whole hr hp ha
  have hhandlers : rt'.localSubscribers = s.rt.localSubscribers := handlers_whole hp ha
  have hx : Grown s.threads { s.threads with rt := rt', taken := taken } _ :=
    ⟨hkept.processUuid, hhandlers, Connections.subscriber_perform hp hnot, hcommands⟩
  refine ⟨⟨hkept.running hr, h.sound.wellFormed.edited hknown.edited,
    filled_perform h.sound.filled hp, h.sound.informed⟩,
    h.attended.grown hx ?_ fun topic _ _ i ho => .inr ⟨i, ho⟩⟩
  rintro topic hhas ⟨q, hq, y, hy⟩
  rw [show rt'.processUuid = s.rt.processUuid from hkept.processUuid] at hq
  rcases (hknown.mem topic q y).mp hy with ⟨hold, -⟩ | ⟨hadds, hnew, rfl, rfl⟩
  · exact .inl ⟨q, hq, y, hold⟩
  · refine .inr (.inl ⟨s.rt.registrationsFor y, ?_⟩)
    rw [hadds, Option.map_some, Option.getD_some, if_pos hnew]
    exact subscribe_mem_reaction hhas hq

/-- The discovery thread has taken note of a sign of life. -/
theorem Inv.seen (h : s.Inv) (m : Msgs.Discovery) (now : ℕ) :
    Inv { s with threads := { s.threads with rt := s.rt.seen m now } } := by
  have hx : Grown s.threads { s.threads with rt := s.rt.seen m now } [] :=
    .same rfl rfl rfl rfl
  have hr := h.sound.running
  exact ⟨⟨⟨hr.1, hr.2, hr.3, hr.4, hr.5, hr.6⟩, h.sound.wellFormed, h.sound.filled,
    h.sound.informed⟩, h.attended.grown hx (fun topic _ hoff => .inl hoff)
    fun topic _ _ i ho => .inr ⟨i, ho⟩⟩

/-- **One step of the threads** outside `unsubscribe` and the receive thread. -/
theorem Inv.threads (h : s.Inv) {a : MessageThreads.Action} (ha : FilterThreads.whole a = true)
    {x : MessageThreads} (hx : s.threads.next a = some x) : Inv { s with threads := x } := by
  cases a with
  | subscribe i sub =>
      simp only [MessageThreads.next] at hx
      split at hx
      case h_1 hc =>
        obtain rfl := Option.some.inj hx
        refine h.goto trivial fun topic _ _ ho => ?_
        rw [hc] at ho
        exact ho.elim
      case h_2 => cases hx
  | datagram i fromIp m now =>
      simp only [MessageThreads.next] at hx
      split at hx
      case h_2 => cases hx
      case h_1 hc =>
        split at hx
        case isTrue =>
          obtain rfl := Option.some.inj hx
          exact h
        case isFalse =>
          split at hx
          case isFalse => cases hx
          case isTrue =>
            split at hx
            case isTrue =>
              obtain rfl := Option.some.inj hx
              exact h.seen m now
            case isFalse =>
              obtain rfl := Option.some.inj hx
              refine (h.seen m now).goto h.sound.running.connection fun topic _ _ ho => ?_
              have hcall : Owes s.rt.processUuid topic (s.threads.calls i) := ho
              rw [hc] at hcall
              exact hcall.elim
  | advance i => exact h.advance hx
  | whole a =>
      obtain ⟨⟨rt', sent⟩, hp, rfl⟩ := Option.map_eq_some_iff.mp hx
      exact h.whole ha hp _

theorem hasSubscriber_remaining (hf : s.rt.localSubscribers.Filled) {topic nodeUuid t : Str} :
    (s.remaining topic nodeUuid).hasSubscriber t = true → s.Has t := by
  intro hhas
  obtain ⟨g, hg⟩ := (HandlerStorage.hasHandlersForTopic_iff _
    (hf.removeHandlersForNode _ topic nodeUuid)).mp hhas
  obtain ⟨n, u, hu⟩ := (HandlerStorage.mem_handlersOf _).mp hg
  simp only [HandlerStorage.handler?_removeHandlersForNode] at hu
  split at hu
  case isTrue => cases hu
  case isFalse =>
    exact (HandlerStorage.hasHandlersForTopic_iff _ hf).mpr
      ⟨g, (HandlerStorage.mem_handlersOf _).mpr ⟨n, u, hu⟩⟩

theorem hasSubscriber_remaining_of_ne (hf : s.rt.localSubscribers.Filled)
    {topic nodeUuid t : Str} (hne : t ≠ topic) :
    (s.remaining topic nodeUuid).hasSubscriber t = true ↔ s.Has t := by
  refine ⟨hasSubscriber_remaining hf, fun hhas => ?_⟩
  obtain ⟨g, hg⟩ := (HandlerStorage.hasHandlersForTopic_iff _ hf).mp hhas
  obtain ⟨n, u, hu⟩ := (HandlerStorage.mem_handlersOf _).mp hg
  refine (HandlerStorage.hasHandlersForTopic_iff _ (hf.removeHandlersForNode _ topic nodeUuid)).mpr
    ⟨g, (HandlerStorage.mem_handlersOf _).mpr ⟨n, u, ?_⟩⟩
  rw [HandlerStorage.handler?_removeHandlersForNode, if_neg fun hc => hne hc.1]
  exact hu

/-! ## Unsubscribing and the receive thread -/

theorem Inv.unsubscribe (h : s.Inv) {topic nodeUuid : Str}
    (ht : s.next (.unsubscribe topic nodeUuid) = some t) : t.Inv := by
  obtain rfl := Option.some.inj ht
  have hf := h.sound.filled
  have hr := h.sound.running
  refine ⟨⟨hr.same rfl rfl, h.sound.wellFormed,
    hf.removeHandlersForNode _ _ _, h.sound.informed⟩, ?_⟩
  intro u hhas hoff
  exact h.attended u (hasSubscriber_remaining hf hhas) hoff

theorem Inv.leave (h : s.Inv) (l : Leaving) : (s.leave l).Inv := by
  cases l with
  | testing topic =>
      simp only [FilterThreads.leave]
      split
      case isTrue =>
        exact ⟨⟨h.sound.running, h.sound.wellFormed, h.sound.filled, h.sound.informed⟩, h.attended⟩
      case isFalse =>
        exact ⟨⟨h.sound.running, h.sound.wellFormed, h.sound.filled, h.sound.informed⟩, h.attended⟩
  | enqueuing topic =>
      have hr := h.sound.running
      refine ⟨⟨hr.same rfl rfl, h.sound.wellFormed, h.sound.filled,
        h.sound.informed⟩, fun u hhas hoff => ?_⟩
      refine (h.attended u hhas hoff).imp_left (Or.imp_right (Or.imp_right ?_))
      rintro ⟨regs, hregs⟩
      exact ⟨regs, List.mem_append.mpr (.inl hregs)⟩

/-- A command that is dropped was not asked for. -/
theorem Inv.take (h : s.Inv) {ok : Bool} (ht : s.next (.take ok) = some t) : t.Inv := by
  simp only [next] at ht
  split at ht
  case h_2 => cases ht
  case h_1 c rest hset hq =>
    obtain rfl := Option.some.inj ht
    have hr := h.sound.running
    have hasked : ∀ u, s.Asked u → u ∈ s.rt.subscriber.filters ∨
        (∃ regs, c = .subscribe u regs) ∨ ∃ regs, .subscribe u regs ∈ rest := by
      rintro u (⟨hu, -⟩ | hu | ⟨regs, hu⟩)
      · exact .inl hu
      · rw [hset] at hu
        cases hu
      · rw [hq] at hu
        rcases List.mem_cons.mp hu with hu | hu
        · exact .inr (.inl ⟨regs, hu.symm⟩)
        · exact .inr (.inr ⟨regs, hu⟩)
    have hpopped : (∀ u regs, s.Has u → c ≠ .subscribe u regs) → (s.pop c rest).Inv := by
      intro hne
      refine ⟨⟨hr.same rfl rfl, h.sound.wellFormed, h.sound.filled,
        h.sound.informed⟩, fun u hhas hoff => ?_⟩
      refine (h.attended u hhas hoff).imp_left fun ha => ?_
      rcases hasked u ha with hu | ⟨regs, hu⟩ | hu
      · exact .inl ⟨hu, fun heq => by rw [pop, hset] at heq; cases heq⟩
      · exact absurd hu (hne u regs hhas)
      · exact .inr (.inr hu)
    cases c with
    | connect address =>
        have hpop := hpopped fun u regs _ heq => by cases heq
        simp only [test]
        split
        case isTrue =>
          have hr := hpop.sound.running
          exact ⟨⟨hr.same rfl rfl, hpop.sound.wellFormed, hpop.sound.filled,
            hpop.sound.informed⟩, hpop.attended⟩
        case isFalse => exact hpop
    | subscribe topic regs =>
        simp only [test]
        split
        case isFalse hno =>
          refine hpopped fun u regs' hhas heq => ?_
          obtain ⟨rfl, -⟩ := SubscriberCommand.subscribe.inj heq
          exact hno hhas
        case isTrue =>
          refine ⟨⟨hr.same rfl rfl, h.sound.wellFormed, h.sound.filled,
            h.sound.informed⟩, fun u hhas hoff => ?_⟩
          refine (h.attended u hhas hoff).imp_left fun ha => ?_
          rcases hasked u ha with hu | ⟨regs', hu⟩ | hu
          · exact .inl ⟨hu, fun heq => by cases heq⟩
          · obtain ⟨rfl, -⟩ := SubscriberCommand.subscribe.inj hu
            exact .inr (.inl rfl)
          · exact .inr (.inr hu)
    | unsubscribe topic =>
        have hpop := hpopped fun u regs _ heq => by cases heq
        simp only [test]
        split
        case isFalse => exact hpop
        case isTrue hno =>
          have hr := hpop.sound.running
          refine ⟨⟨hr.same rfl rfl, hpop.sound.wellFormed, hpop.sound.filled,
            hpop.sound.informed⟩, fun u hhas hoff => ?_⟩
          refine (hpop.attended u hhas hoff).imp_left fun ha => ?_
          rcases ha with ⟨hu, -⟩ | hu | hu
          · refine .inl ⟨hu, fun heq => ?_⟩
            -- the topic whose filter goes has no handler
            obtain rfl := Setting.unset.inj (Option.some.inj heq)
            have htopic : (s.pop (.unsubscribe topic) rest).rt.localSubscribers.hasSubscriber
                topic = true := hhas
            simp [htopic] at hno
          · rw [pop, hset] at hu
            cases hu
          · exact .inr (.inr hu)

theorem Inv.apply (h : s.Inv) (ht : s.next .apply = some t) : t.Inv := by
  obtain ⟨x, hset, rfl⟩ := Option.map_eq_some_iff.mp ht
  have hr := h.sound.running
  refine ⟨⟨hr.same rfl rfl, h.sound.wellFormed, h.sound.filled,
    h.sound.informed⟩, fun u hhas hoff => ?_⟩
  refine (h.attended u hhas hoff).imp_left ?_
  rintro (⟨hu, hne⟩ | hu | hu)
  · refine .inl ⟨?_, fun heq => by cases heq⟩
    cases x with
    | set topic => exact List.mem_cons_of_mem _ hu
    | unset topic =>
        have hother : u ≠ topic := by
          rintro rfl
          exact hne hset
        exact (List.mem_erase_of_ne hother).mpr hu
  · rw [hset] at hu
    obtain rfl := Option.some.inj hu
    exact .inl ⟨List.mem_cons_self, fun heq => by cases heq⟩
  · exact .inr (.inr hu)

theorem Inv.step (h : s.Inv) {a : Action} (ht : s.next a = some t) : t.Inv := by
  cases a with
  | threads a =>
      simp only [next] at ht
      split at ht
      case isFalse => cases ht
      case isTrue ha =>
        obtain ⟨x, hx, rfl⟩ := Option.map_eq_some_iff.mp ht
        exact h.threads ha hx
  | unsubscribe topic nodeUuid => exact h.unsubscribe ht
  | leave l =>
      simp only [next] at ht
      split at ht
      case isFalse => cases ht
      case isTrue =>
        obtain rfl := Option.some.inj ht
        exact h.leave l
  | take ok => exact h.take ht
  | apply => exact h.apply ht

/-! ## Instances and Unsubscribes -/

/-- The other threads leave the socket alone, queue no Unsubscribe and remove no handler. -/
structure Leaves (s x : MessageThreads) (u : Str) : Prop where
  subscriber : x.rt.subscriber = s.rt.subscriber
  count : x.rt.subscriberCommands.count (.unsubscribe u) =
    s.rt.subscriberCommands.count (.unsubscribe u)
  has : s.rt.localSubscribers.hasSubscriber u = true →
    x.rt.localSubscribers.hasSubscriber u = true

theorem leaves_advance {s x : MessageThreads} (hf : s.rt.localSubscribers.Filled) {i : ℕ}
    (hx : s.advance i = some x) (u : Str) : Leaves s x u := by
  have henqueue : ∀ (c : SubscriberCommand), c ≠ .unsubscribe u →
      (s.rt.subscriberCommands ++ [c]).count (.unsubscribe u) =
        s.rt.subscriberCommands.count (.unsubscribe u) := by
    intro c hc
    rw [List.count_append, List.count_singleton, if_neg (by simpa using hc), Nat.add_zero]
  cases hc : s.calls i with
  | idle =>
      simp only [MessageThreads.advance, hc] at hx
      cases hx
  | adding sub =>
      simp only [MessageThreads.advance, hc] at hx
      obtain rfl := Option.some.inj hx
      refine ⟨rfl, rfl, fun hhas => ?_⟩
      obtain ⟨g, hg⟩ := (HandlerStorage.hasHandlersForTopic_iff _ hf).mp hhas
      exact (HandlerStorage.hasHandlersForTopic_iff _ (hf.addHandler _ _ _ _ _)).mpr
        ⟨g, HandlerStorage.mem_handlersOf_addHandler_of_mem _ hg⟩
  | discovering topic =>
      simp only [MessageThreads.advance, hc] at hx
      split at hx <;> obtain rfl := Option.some.inj hx <;> exact ⟨rfl, rfl, id⟩
  | reading topic cb =>
      simp only [MessageThreads.advance, hc] at hx
      split at hx <;> obtain rfl := Option.some.inj hx <;> exact ⟨rfl, rfl, id⟩
  | arrived pub cb =>
      simp only [MessageThreads.advance, hc] at hx
      obtain rfl := Option.some.inj hx
      exact ⟨rfl, rfl, id⟩
  | calling rest =>
      cases rest with
      | nil =>
          simp only [MessageThreads.advance, hc] at hx
          obtain rfl := Option.some.inj hx
          exact ⟨rfl, rfl, id⟩
      | cons pub rest =>
          simp only [MessageThreads.advance, hc] at hx
          split at hx <;> obtain rfl := Option.some.inj hx <;> exact ⟨rfl, rfl, id⟩
  | gathering pub rest =>
      simp only [MessageThreads.advance, hc] at hx
      obtain rfl := Option.some.inj hx
      exact ⟨rfl, rfl, id⟩
  | looking pub regs rest =>
      simp only [MessageThreads.advance, hc] at hx
      split at hx <;> obtain rfl := Option.some.inj hx <;> exact ⟨rfl, rfl, id⟩
  | connecting pub regs rest =>
      simp only [MessageThreads.advance, hc] at hx
      obtain rfl := Option.some.inj hx
      exact ⟨rfl, henqueue _ nofun, id⟩
  | subscribing pub regs rest =>
      simp only [MessageThreads.advance, hc] at hx
      obtain rfl := Option.some.inj hx
      exact ⟨rfl, henqueue _ nofun, id⟩
  | recording pub rest =>
      simp only [MessageThreads.advance, hc] at hx
      obtain rfl := Option.some.inj hx
      exact ⟨rfl, rfl, id⟩

theorem leaves_threads {s x : MessageThreads} (hr : s.rt.Running)
    (hf : s.rt.localSubscribers.Filled) {a : MessageThreads.Action} (ha : whole a = true)
    (hx : s.next a = some x) (u : Str) : Leaves s x u := by
  cases a with
  | subscribe i sub =>
      simp only [MessageThreads.next] at hx
      split at hx
      case h_1 =>
        obtain rfl := Option.some.inj hx
        exact ⟨rfl, rfl, id⟩
      case h_2 => cases hx
  | datagram i fromIp m now =>
      simp only [MessageThreads.next] at hx
      split at hx
      case h_2 => cases hx
      case h_1 =>
        split at hx
        case isTrue =>
          obtain rfl := Option.some.inj hx
          exact ⟨rfl, rfl, id⟩
        case isFalse =>
          split at hx
          case isFalse => cases hx
          case isTrue => split at hx <;> obtain rfl := Option.some.inj hx <;> exact ⟨rfl, rfl, id⟩
  | advance i => exact leaves_advance hf hx u
  | whole a =>
      obtain ⟨⟨rt', sent⟩, hp, rfl⟩ := Option.map_eq_some_iff.mp hx
      refine ⟨Connections.subscriber_perform hp ?_, ?_, fun hhas => ?_⟩
      · rintro ok rfl
        cases ha
      · rw [commands_whole hr hp ha, List.count_append, Nat.add_eq_left, List.count_eq_zero]
        intro hm
        cases hadds : s.rt.adds a with
        | none => simp [hadds] at hm
        | some pub =>
            rw [hadds, Option.map_some, Option.getD_some] at hm
            split at hm
            case isFalse => cases hm
            case isTrue =>
              by_cases hreacts : Connections.Reacts s.rt pub
              · rw [(Connections.reaction_of_reacts hreacts).1] at hm
                split at hm <;> simp at hm
              · rw [(Connections.reaction_of_not_reacts hreacts).1] at hm
                cases hm
      · have hsame : rt'.localSubscribers = s.rt.localSubscribers := handlers_whole hp ha
        rwa [hsame]

/-- An instance goes with an Unsubscribe, and without an instance none comes. -/
def Balanced (s t : FilterThreads) (u : Str) : Prop :=
  t.instances u + s.toCome u = s.instances u + t.toCome u ∨ s.instances u = 0 ∧ t.instances u = 0

/-- **The balance of a topic without handlers** is the same after every step but another
`unsubscribe` of the topic. -/
theorem Inv.balanced (h : s.Inv) {a : Action} (ht : s.next a = some t) {u : Str}
    (hs : ¬ s.Has u) (hnot : ∀ n, a ≠ .unsubscribe u n) : Balanced s t u := by
  cases a with
  | threads a =>
      simp only [next] at ht
      split at ht
      case isFalse => cases ht
      case isTrue ha =>
        obtain ⟨x, hx, rfl⟩ := Option.map_eq_some_iff.mp ht
        have hleaves := leaves_threads h.sound.running h.sound.filled ha hx u
        left
        simp only [instances, toCome, rt, hleaves.subscriber, hleaves.count]
  | unsubscribe topic nodeUuid =>
      obtain rfl := Option.some.inj ht
      have hne : u ≠ topic := fun heq => hnot nodeUuid (heq ▸ rfl)
      left
      simp only [instances, toCome, rt]
      rw [List.count_cons_of_ne (by simpa using fun heq => hne heq.symm),
        List.count_cons_of_ne (fun h => by cases h)]
  | leave l =>
      simp only [next] at ht
      split at ht
      case isFalse => cases ht
      case isTrue hl =>
        obtain rfl := Option.some.inj ht
        have hpos : 0 < s.leaving.count l := List.count_pos_iff.mpr hl
        left
        cases l with
        | testing topic =>
            simp only [FilterThreads.leave]
            split
            case isTrue hhas =>
              have hne : u ≠ topic := fun heq => hs (heq ▸ hhas)
              simp only [instances, toCome, rt]
              rw [List.count_erase_of_ne (by simpa using hne),
                List.count_erase_of_ne (fun h => by cases h)]
            case isFalse =>
              simp only [instances, toCome, rt]
              by_cases hu : u = topic
              · subst hu
                have hplace : Leaving.enqueuing u ≠ .testing u := by
                  intro h
                  cases h
                simp only [List.count_cons_self, List.count_cons_of_ne hplace,
                  List.count_erase_self, List.count_erase_of_ne hplace]
                omega
              · have hu' : ¬ topic = u := fun heq => hu heq.symm
                simp [hu, hu']
        | enqueuing topic =>
            simp only [FilterThreads.leave, MessageThreads.enqueue, enqueueSubscriberCommand,
              instances, toCome, rt, List.count_append]
            rw [List.count_erase_of_ne (fun h => by cases h)]
            by_cases hu : u = topic
            · subst hu
              rw [List.count_erase_self, List.count_cons_self]
              simp only [List.count_nil]
              omega
            · have hu' : ¬ topic = u := fun heq => hu heq.symm
              simp [List.count_erase, hu']
  | take ok =>
      simp only [next] at ht
      split at ht
      case h_2 => cases ht
      case h_1 c rest hset hq =>
        obtain rfl := Option.some.inj ht
        left
        cases c with
        | connect address =>
            simp only [test]
            split <;> simp [instances, toCome, rt, pop, hq]
        | subscribe topic regs =>
            simp only [test]
            split
            case isFalse => simp [instances, toCome, rt, pop, hq]
            case isTrue hhas =>
              have hne : ¬ topic = u := fun heq => hs (heq ▸ hhas)
              simp [instances, toCome, rt, pop, hq, hset, hne]
        | unsubscribe topic =>
            simp only [test]
            split
            case isFalse hhas =>
              have hne : ¬ topic = u := by
                rintro rfl
                have hno : (s.pop (.unsubscribe topic) rest).rt.localSubscribers.hasSubscriber
                    topic = false := Bool.eq_false_iff.mpr hs
                simp [hno] at hhas
              simp [instances, toCome, rt, pop, hq, hne]
            case isTrue =>
              simp only [instances, toCome, rt, pop, hq, hset]
              by_cases hu : topic = u
              · subst hu
                simp
              · simp [hu]
  | apply =>
      obtain ⟨x, hset, rfl⟩ := Option.map_eq_some_iff.mp ht
      cases x with
      | set topic =>
          left
          simp only [instances, toCome, rt, hset, Setting.change]
          by_cases hu : topic = u
          · subst hu
            simp
          · simp [hu]
      | unset topic =>
          by_cases hu : topic = u
          · subst hu
            by_cases hzero : s.rt.subscriber.filters.count topic = 0
            · right
              simp only [instances, rt, hset, Setting.change] at hzero ⊢
              simp [hzero]
            · left
              simp only [instances, toCome, rt, hset, Setting.change] at hzero ⊢
              rw [List.count_erase_self]
              simp
              omega
          · left
            simp only [instances, toCome, rt, hset, Setting.change]
            simp [hu, List.count_erase]

/-- Only `unsubscribe` removes handlers, and those of its own topic. -/
theorem Inv.has_step (h : s.Inv) {a : Action} (ht : s.next a = some t) {u : Str}
    (hnot : ∀ n, a ≠ .unsubscribe u n) (hhas : s.Has u) : t.Has u := by
  cases a with
  | threads a =>
      simp only [next] at ht
      split at ht
      case isFalse => cases ht
      case isTrue ha =>
        obtain ⟨x, hx, rfl⟩ := Option.map_eq_some_iff.mp ht
        exact (leaves_threads h.sound.running h.sound.filled ha hx u).has hhas
  | unsubscribe topic nodeUuid =>
      obtain rfl := Option.some.inj ht
      have hne : u ≠ topic := fun heq => hnot nodeUuid (heq ▸ rfl)
      exact (hasSubscriber_remaining_of_ne h.sound.filled hne).mpr hhas
  | leave l =>
      simp only [next] at ht
      split at ht
      case isFalse => cases ht
      case isTrue =>
        obtain rfl := Option.some.inj ht
        cases l with
        | testing topic =>
            simp only [FilterThreads.leave]
            split <;> exact hhas
        | enqueuing topic => exact hhas
  | take ok =>
      simp only [next] at ht
      split at ht
      case h_2 => cases ht
      case h_1 c rest hset hq =>
        obtain rfl := Option.some.inj ht
        cases c <;> simp only [test] <;> split <;> exact hhas
  | apply =>
      obtain ⟨x, hset, rfl⟩ := Option.map_eq_some_iff.mp ht
      exact hhas

/-! ## Runs -/

/-- A filter without a handler has an Unsubscribe to come for each instance. -/
def Spare (s : FilterThreads) (topic : Str) : Prop := s.instances topic ≤ s.toCome topic

/-- The balance does not change on its own. -/
theorem Inv.spare_iff (h : s.Inv) {a : Action} (ht : s.next a = some t) {u : Str}
    (hs : ¬ s.Has u) (hnot : ∀ n, a ≠ .unsubscribe u n) : t.Spare u ↔ s.Spare u := by
  rw [Spare, Spare]
  rcases h.balanced ht hs hnot with hb | ⟨hs0, ht0⟩
  · omega
  · omega

/-- What `unsubscribe` does to the balance of its topic. -/
theorem spare_unsubscribe {topic nodeUuid : Str}
    (ht : s.next (.unsubscribe topic nodeUuid) = some t) :
    t.Spare topic ↔ s.instances topic ≤ s.toCome topic + 1 := by
  obtain rfl := Option.some.inj ht
  simp only [Spare, instances, toCome, rt, List.count_cons_self]
  rw [List.count_cons_of_ne (by nofun)]
  constructor
  · intro hle
    omega
  · intro hle
    omega

theorem Inv.spare_step (h : s.Inv) (hspare : ∀ u, ¬ s.Has u → s.Spare u) {a : Action}
    (hl : s.LastOne a) (ht : s.next a = some t) (u : Str) (hu : ¬ t.Has u) : t.Spare u := by
  by_cases ha : ∃ n, a = .unsubscribe u n
  · obtain ⟨n, rfl⟩ := ha
    rw [spare_unsubscribe ht]
    by_cases hhas : s.Has u
    · refine hl hhas ?_
      obtain rfl := Option.some.inj ht
      exact Bool.eq_false_iff.mpr hu
    · exact (hspare u hhas).trans (Nat.le_succ _)
  · have hnot : ∀ n, a ≠ .unsubscribe u n := fun n heq => ha ⟨n, heq⟩
    have hs : ¬ s.Has u := fun hhas => hu (h.has_step ht hnot hhas)
    exact (h.spare_iff ht hs hnot).mpr (hspare u hs)

theorem Quiet.spare_iff (h : s.Quiet) (u : Str) :
    s.Spare u ↔ s.rt.subscriber.filters.count u = 0 := by
  simp [Spare, instances, toCome, h.queue, h.setting, h.leaving]

/-- What is wanted is there when nothing is left to do. -/
theorem Inv.count_pos (h : s.Inv) (hq : s.Quiet) {u : Str} (hhas : s.Has u)
    (hoff : s.Offered u) : 1 ≤ s.rt.subscriber.filters.count u := by
  apply List.count_pos_iff.mpr
  rcases h.attended u hhas hoff with (⟨hu, -⟩ | hu | ⟨regs, hu⟩) | ⟨i, hi⟩
  · exact hu
  · rw [hq.setting] at hu
    cases hu
  · rw [hq.queue] at hu
    cases hu
  · rw [hq.calls i] at hi
    exact hi.elim

/-- A started process. -/
def start (processUuid processName hostAddr address : Str) : FilterThreads :=
  { threads := .start processUuid processName hostAddr address }

theorem inv_start (processUuid processName hostAddr address : Str) :
    (start processUuid processName hostAddr address).Inv := by
  refine ⟨⟨running_init .., wellFormed_empty, HandlerStorage.filled_empty, fun i => trivial⟩, ?_⟩
  rintro topic - ⟨q, -, x, hx⟩
  simp [start, MessageThreads.start, MessageRuntime.init] at hx

/-- **The filters follow the handlers** whenever nothing is left to do, in every run in which
no topic loses its last handler while its filter has more than one instance too many. -/
theorem filters_follow (processUuid processName hostAddr address : Str) (as : List Action)
    (hrun : exec next (start processUuid processName hostAddr address) as = some s)
    (hlast : Guarded next LastOne (start processUuid processName hostAddr address) as)
    (hq : s.Quiet) : s.Follows := by
  have hinv : s.Inv ∧ ∀ u, ¬ s.Has u → s.Spare u := by
    have hstep : ∀ (s : FilterThreads) (a : Action) (t : FilterThreads),
        (s.Inv ∧ ∀ u, ¬ s.Has u → s.Spare u) → s.LastOne a → s.next a = some t →
          t.Inv ∧ ∀ u, ¬ t.Has u → t.Spare u :=
      fun s a t hs hl ht => ⟨hs.1.step ht, hs.1.spare_step hs.2 hl ht⟩
    refine invariant hstep ⟨inv_start .., fun u _ => ?_⟩ hlast hrun
    simp [Spare, instances, toCome, start, MessageThreads.start, MessageRuntime.init]
  obtain ⟨h, hspare⟩ := hinv
  have hhas : ∀ u, s.Has u ↔ s.rt.localSubscribers.handlersOf u ≠ [] := by
    intro u
    rw [Has, HandlerWrapper.hasSubscriber, HandlerStorage.hasHandlersForTopic_iff _ h.sound.filled]
    refine ⟨?_, List.exists_mem_of_ne_nil _⟩
    intro hex
    obtain ⟨g, hg⟩ := hex
    exact List.ne_nil_of_mem hg
  constructor
  · intro u hnone
    exact (hq.spare_iff u).mp (hspare u fun hs => (hhas u).mp hs hnone)
  · intro u hsome hoff
    exact h.count_pos hq ((hhas u).mpr hsome) hoff

/-- While the topic has no handlers, a run neither makes its filter spare nor changes that it is. -/
theorem Inv.spare_exec (h : s.Inv) {u : Str} {bs : List Action}
    (halone : Always next (fun x => ¬ x.Has u) s bs) (hno : ∀ n, .unsubscribe u n ∉ bs)
    (hbs : exec next s bs = some t) : t.Spare u ↔ s.Spare u := by
  induction bs generalizing s with
  | nil =>
      obtain rfl := Option.some.inj hbs
      exact Iff.rfl
  | cons a bs ih =>
      obtain ⟨x, hx, hxt⟩ := Option.bind_eq_some_iff.mp hbs
      have hnot : ∀ n, a ≠ .unsubscribe u n := fun n heq => hno n (heq ▸ List.mem_cons_self)
      have hno' : ∀ n, .unsubscribe u n ∉ bs := fun n hm => hno n (List.mem_cons_of_mem _ hm)
      have htail := ih (h.step hx) (halone.2 x hx) hno' hxt
      exact htail.trans (h.spare_iff hx halone.start hnot)

/-- **No other condition would do**: once a topic has lost its last handler and gets none
again, its filter is gone in the end if and only if the condition held at that moment. -/
theorem filter_left_over (processUuid processName hostAddr address : Str) (as bs : List Action)
    {s' : FilterThreads} {topic nodeUuid : Str}
    (hrun : exec next (start processUuid processName hostAddr address) as = some s)
    (hhas : s.Has topic) (hgone : (s.remaining topic nodeUuid).hasSubscriber topic = false)
    (hleft : s.next (.unsubscribe topic nodeUuid) = some s')
    (halone : Always next (fun x => ¬ x.Has topic) s' bs) (hno : ∀ n, .unsubscribe topic n ∉ bs)
    (hbs : exec next s' bs = some t) (hq : t.Quiet) :
    t.rt.subscriber.filters.count topic = 0 ↔ s.LastOne (.unsubscribe topic nodeUuid) := by
  have h : s.Inv := stable (fun _ _ _ hs ht => hs.step ht) (inv_start ..) hrun
  rw [← hq.spare_iff, (h.step hleft).spare_exec halone hno hbs, spare_unsubscribe hleft]
  exact ⟨fun hle _ _ => hle, fun hl => hl hhas hgone⟩

/-! ## Two publishers -/

instance (s : FilterThreads) (a : Action) : Decidable (s.LastOne a) :=
  match a with
  | .unsubscribe _ _ => inferInstanceAs (Decidable (_ → _ → _ ≤ _))
  | .threads _ | .leave _ | .take _ | .apply => inferInstanceAs (Decidable True)

def example4a : FilterThreads := start (str "4a") (str "p") (str "10.0.0.1") (str "tcp://a")

/-- Node m subscribes; nothing is known of the topic. -/
def exampleSubscribe : List Action :=
  .threads (.subscribe 0 ⟨str "t", str "m", ⟨str "h", str "m", str "A"⟩⟩) ::
    List.replicate 3 (.threads (.advance 0))

/-- Process 5b advertises the topic at the given node. -/
def exampleAdvertise (nodeUuid : Str) : Action :=
  .threads (.whole (.recv (str "10.0.0.2")
    { processUuid := str "5b", type := .advertise,
      contents := .pub
        { topic := str "t", address := str "tcp://b", nodeUuid := nodeUuid, scope := .all,
          pubType := .msgPub { ctrl := [], msgType := str "A" } } } 0))

/-- The receive thread connects and sets the filter as often as it is asked to. -/
def exampleSet (n : ℕ) : List Action :=
  .take true :: (List.replicate n [.take true, .apply]).flatten

/-- Node m unsubscribes. -/
def exampleUnsubscribe : List Action :=
  [.unsubscribe (str "t") (str "m"), .leave (.testing (str "t")), .leave (.enqueuing (str "t")),
    .take true, .apply]

def exampleRun (nodeUuids : List Str) : List Action :=
  exampleSubscribe ++ nodeUuids.map exampleAdvertise ++ exampleSet nodeUuids.length ++
    exampleUnsubscribe

def exampleEnd (nodeUuids : List Str) : FilterThreads :=
  (exec next example4a (exampleRun nodeUuids)).getD example4a

/-- With one publisher the filter goes with the handler. -/
theorem filters_follow_one : (exampleEnd [str "n1"]).Follows :=
  filters_follow (str "4a") (str "p") (str "10.0.0.1") (str "tcp://a") (exampleRun [str "n1"])
    (show exec next example4a (exampleRun [str "n1"]) = some (exampleEnd [str "n1"]) from rfl)
    (by decide) ⟨rfl, rfl, rfl, fun i => match i with | 0 => rfl | _ + 1 => rfl⟩

/-- With two publishers an instance stays behind. -/
theorem two_publishers_left_over :
    exec next example4a (exampleRun [str "n1", str "n2"]) =
        some (exampleEnd [str "n1", str "n2"]) ∧
      (exampleEnd [str "n1", str "n2"]).Quiet ∧ ¬ (exampleEnd [str "n1", str "n2"]).Follows := by
  refine ⟨rfl, ⟨rfl, rfl, rfl, fun i => match i with | 0 => rfl | _ + 1 => rfl⟩, ?_⟩
  intro h
  have hone : (exampleEnd [str "n1", str "n2"]).rt.localSubscribers.handlersOf (str "t") = [] ∧
      (exampleEnd [str "n1", str "n2"]).rt.subscriber.filters.count (str "t") ≠ 0 := by decide
  exact hone.2 (h.unset (str "t") hone.1)

end FilterThreads
end RfTrans
