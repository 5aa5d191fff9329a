import RfTrans.Lib.Exec
import RfTrans.Runtime.MessageRuntime

/-!
# Delivery inside a process

`publish` hands a message to the handlers of its own process through a queue: it takes a
copy of the handlers of the topic, later appends the message with those that handle its
type, and the local dispatch thread swaps the whole queue out and calls the handlers one by
one.  A publish is split here at every lock, and so is the dispatch loop, so that any
number of threads publish while a batch is half done and while handlers come and go.

## Main definitions

* `PublishMsgDetails` and `MessageRuntime.localDetails` — what `publish` puts into the queue.
* `LocalDelivery` — the runtime with its publishing threads and the dispatch loop.
* `LocalDelivery.next` — one step of one of them.
* `Publish.calls` — the calls that a publish is to make, read off the handler table.
* `LocalDelivery.delivered_exactly`
-/

namespace RfTrans

open Exec

/-- `MessageInfo` -/
structure MessageInfo where
  topic : Str
  msgType : Str
  deriving DecidableEq

/-- `HandlerInfo` -/
structure HandlerInfo where
  localHandlers : StrMap (StrMap SubscriptionHandler) := ∅
  haveLocal : Bool

/-- `PublishMsgDetails` -/
structure PublishMsgDetails (μ : Type) where
  info : MessageInfo
  msgCopy : μ
  localHandlers : List SubscriptionHandler
  publisherNodeUuid : Str

namespace MessageRuntime

/-- `localHandlers`, also the local part of `subscribers`. -/
def localHandlers (rt : MessageRuntime) (topic : Str) : HandlerInfo :=
  match rt.localSubscribers.getHandlers topic with
  | some handlers => ⟨handlers, true⟩
  | none => ⟨∅, false⟩

/-- The handlers that `publish` keeps: those of the type published. -/
def matching (info : HandlerInfo) (msgType : Str) : List SubscriptionHandler :=
  info.localHandlers.toList.flatMap fun node =>
    node.2.toList.filterMap fun h => if h.2.msgType ≠ msgType then none else some h.2

/-- The local part of `publish`: what is appended to the queue. -/
def localDetails {μ : Type} (publisher : MessagePublisherInfo) (msg : μ) (info : HandlerInfo) :
    PublishMsgDetails μ where
  info := ⟨publisher.topic, publisher.msgType⟩
  msgCopy := msg
  localHandlers := matching info publisher.msgType
  publisherNodeUuid := publisher.nodeUuid

end MessageRuntime

/-- A call of `publish`, with the handlers that the process had when it read them. -/
structure Publish (μ : Type) where
  /-- How many calls have begun before this one. -/
  serial : ℕ
  thread : ℕ
  publisher : MessagePublisherInfo
  msg : μ
  table : HandlerWrapper

/-- A call of a handler, with the publish that it comes from. -/
structure HandlerCall (μ : Type) where
  handler : SubscriptionHandler
  msg : μ
  info : MessageInfo
  source : Publish μ

/-- The calls that a publish is to make: one for each handler of the topic with the type
that is published. -/
def Publish.calls {μ : Type} (p : Publish μ) : List (HandlerCall μ) :=
  ((p.table.handlersOf p.publisher.topic).filter fun h => h.msgType = p.publisher.msgType).map
    fun h => ⟨h, p.msg, ⟨p.publisher.topic, p.publisher.msgType⟩, p⟩

/-- A topic that has a map in the table. -/
def Publish.haveLocal {μ : Type} (p : Publish μ) : Bool := p.table.hasTopic p.publisher.topic

variable {μ : Type}

/-- What the queue holds, with the publish that it comes from. -/
abbrev LocalDelivery.Entry (μ : Type) := PublishMsgDetails μ × Publish μ

/-- Where a call of `publish` stands. -/
inductive LocalDelivery.Call (μ : Type)
  | idle
  /-- It has copied the handlers of the topic. -/
  | sending (p : Publish μ) (info : HandlerInfo)
  /-- The remote part is done. -/
  | appending (p : Publish μ) (info : HandlerInfo)

/-- Where `localDispatchLoop` stands. -/
inductive LocalDelivery.Loop (μ : Type)
  | waiting
  /-- Between two messages of the batch. -/
  | batch (rest : List (LocalDelivery.Entry μ))
  /-- In the middle of the handlers of a message. -/
  | running (entry : LocalDelivery.Entry μ) (handlers : List SubscriptionHandler)
      (rest : List (LocalDelivery.Entry μ))
  | returned

/-- The message runtime while threads publish and the dispatch loop runs. -/
structure LocalDelivery (μ : Type) where
  rt : MessageRuntime
  calls : ℕ → LocalDelivery.Call μ := fun _ => .idle
  localPublishQueue : List (LocalDelivery.Entry μ) := []
  loop : LocalDelivery.Loop μ := .waiting
  exit : Bool := false
  /-- The handler calls made, the publishes in the order in which they began and in the
  order in which they appended, and the results. -/
  called : List (HandlerCall μ) := []
  begun : List (Publish μ) := []
  appended : List (Publish μ) := []
  returned : List (Publish μ × Bool) := []

namespace LocalDelivery

/-- The steps. -/
inductive Action (μ : Type)
  /-- A thread calls `publish`, which copies the handlers of the topic. -/
  | publish (i : ℕ) (publisher : MessagePublisherInfo) (msg : μ)
  /-- The remote part; it says whether the shared-memory and the inline send succeed. -/
  | sendRemote (i : ℕ) (shmSent inlineSent : Bool)
  /-- The append under the lock. -/
  | append (i : ℕ)
  /-- The next step of the dispatch loop. -/
  | dispatch
  | requestStop
  /-- Anything else that happens in the process. -/
  | runtime (a : MessageRuntime.Action)

/-- The call of a thread goes on. -/
def goto (s : LocalDelivery μ) (i : ℕ) (c : Call μ) : LocalDelivery μ :=
  { s with calls := Function.update s.calls i c }

/-- The call of a thread returns. -/
def finish (s : LocalDelivery μ) (i : ℕ) (p : Publish μ) (ok : Bool) : LocalDelivery μ :=
  { s with returned := s.returned ++ [(p, ok)] }.goto i .idle

/-- The next step of `localDispatchLoop`. -/
def dispatch (s : LocalDelivery μ) : Option (LocalDelivery μ) :=
  match s.loop with
  | .waiting =>
    if s.exit then some { s with loop := .returned }
    else if s.localPublishQueue.isEmpty then none
    else some { s with loop := .batch s.localPublishQueue, localPublishQueue := [] }
  | .batch [] => some { s with loop := .waiting }
  | .batch (e :: rest) => some { s with loop := .running e e.1.localHandlers rest }
  | .running _ [] rest => some { s with loop := .batch rest }
  | .running e (h :: handlers) rest =>
    some { s with
      loop := .running e handlers rest
      called := s.called ++ [⟨h, e.1.msgCopy, e.1.info, e.2⟩] }
  | .returned => none

/-- One step. -/
def next (s : LocalDelivery μ) : Action μ → Option (LocalDelivery μ)
  | .publish i publisher msg =>
    match s.calls i with
    | .idle =>
      let p : Publish μ := ⟨s.begun.length, i, publisher, msg, s.rt.localSubscribers⟩
      some ({ s with begun := s.begun ++ [p] }.goto i
        (.sending p (s.rt.localHandlers publisher.topic)))
    | _ => none
  | .sendRemote i shmSent inlineSent =>
    match s.calls i with
    | .sending p info =>
      if (s.rt.publish p.publisher shmSent inlineSent).2 then some (s.goto i (.appending p info))
      else some (s.finish i p false)
    | _ => none
  | .append i =>
    match s.calls i with
    | .appending p info =>
      let s := if info.haveLocal then
          { s with
            localPublishQueue :=
              s.localPublishQueue ++ [(MessageRuntime.localDetails p.publisher p.msg info, p)]
            appended := s.appended ++ [p] }
        else s
      some (s.finish i p true)
    | _ => none
  | .dispatch => s.dispatch
  | .requestStop => some { s with exit := true }
  | .runtime a => (s.rt.perform a).map fun x => { s with rt := x.1 }

/-- The calls that a queued message is still to make. -/
def entryCalls (e : Entry μ) : List (HandlerCall μ) :=
  e.1.localHandlers.map fun h => ⟨h, e.1.msgCopy, e.1.info, e.2⟩

/-- The calls that the loop has in hand. -/
def Loop.pending : Loop μ → List (HandlerCall μ)
  | .waiting | .returned => []
  | .batch rest => rest.flatMap entryCalls
  | .running e handlers rest =>
    (handlers.map fun h => ⟨h, e.1.msgCopy, e.1.info, e.2⟩) ++ rest.flatMap entryCalls

/-- The calls that are still to be made: those of the swapped batch, then those of the
queue. -/
def pending (s : LocalDelivery μ) : List (HandlerCall μ) :=
  s.loop.pending ++ s.localPublishQueue.flatMap entryCalls

/-- The publishes of a thread. -/
def ofThread (l : List (Publish μ)) (i : ℕ) : List (Publish μ) := l.filter fun p => p.thread = i

/-- Local delivery is exact and ordered. -/
structure Exact (s : LocalDelivery μ) : Prop where
  /-- The calls made and those to be made are those of the publishes appended, in order. -/
  calls : s.called ++ s.pending = s.appended.flatMap Publish.calls
  /-- Publishes are told apart by their number. -/
  numbered : s.begun.map Publish.serial = List.range s.begun.length
  /-- A thread appends in the order in which it publishes. -/
  inOrder : ∀ i, (ofThread s.appended i).Sublist (ofThread s.begun i)
  /-- A publish that returns true is appended if the topic has a map in the table. -/
  complete : ∀ p, (p, true) ∈ s.returned → p.haveLocal = true → p ∈ s.appended
  /-- Each handler sees the messages of each thread in the order of its publishes. -/
  seen : ∀ i h, (s.called.filter fun c => c.source.thread = i ∧ c.handler = h).Sublist
    ((ofThread s.begun i).flatMap fun p => p.calls.filter fun c => c.handler = h)

/-! ## What a publish appends -/

theorem localHandlers_eq (rt : MessageRuntime) (topic : Str) :
    (rt.localHandlers topic).localHandlers = (rt.localSubscribers.data[topic]?).getD ∅ ∧
      (rt.localHandlers topic).haveLocal = rt.localSubscribers.hasTopic topic := by
  simp only [MessageRuntime.localHandlers, HandlerStorage.getHandlers, HandlerStorage.hasTopic,
    Std.ExtTreeMap.contains_eq_isSome_getElem?]
  cases rt.localSubscribers.data[topic]? with
  | none => exact ⟨rfl, rfl⟩
  | some handlers => exact ⟨rfl, rfl⟩

/-- The loops of `publish` keep the handlers of the type, in order. -/
theorem matching_eq (info : HandlerInfo) (msgType : Str) :
    MessageRuntime.matching info msgType =
      (info.localHandlers.toList.flatMap fun node => node.2.toList.map (·.2)).filter
        fun h => h.msgType = msgType := by
  rw [MessageRuntime.matching, List.filter_flatMap]
  refine List.flatMap_congr fun node _ => ?_
  rw [List.filter_map, ← List.filterMap_eq_map, ← List.filterMap_eq_filter,
    List.filterMap_filterMap]
  refine List.filterMap_congr fun h _ => ?_
  by_cases ht : h.2.msgType = msgType
  · simp [ht, Option.guard]
  · simp [ht, Option.guard]

/-- A copy of the handlers that the publish found. -/
def Copied (p : Publish μ) (info : HandlerInfo) : Prop :=
  info.localHandlers = (p.table.data[p.publisher.topic]?).getD ∅ ∧ info.haveLocal = p.haveLocal

/-- What is appended makes the calls of the publish. -/
theorem entryCalls_localDetails {p : Publish μ} {info : HandlerInfo} (h : Copied p info) :
    entryCalls (MessageRuntime.localDetails p.publisher p.msg info, p) = p.calls := by
  simp only [entryCalls, MessageRuntime.localDetails, Publish.calls, matching_eq, h.1,
    HandlerStorage.handlersOf]

/-! ## The invariant -/

/-- A thread's appends are among its finished publishes. -/
def CallOk (s : LocalDelivery μ) (i : ℕ) : Prop :=
  match s.calls i with
  | .idle => (ofThread s.appended i).Sublist (ofThread s.begun i)
  | .sending p info | .appending p info => Copied p info ∧ p.thread = i ∧
      ∃ l, ofThread s.begun i = l ++ [p] ∧ (ofThread s.appended i).Sublist l

structure Inv (s : LocalDelivery μ) : Prop where
  calls : s.called ++ s.pending = s.appended.flatMap Publish.calls
  numbered : s.begun.map Publish.serial = List.range s.begun.length
  threads : ∀ i, s.CallOk i
  complete : ∀ p, (p, true) ∈ s.returned → p.haveLocal = true → p ∈ s.appended

/-- The process when it has started. -/
def start (rt : MessageRuntime) : LocalDelivery μ := { rt := rt }

theorem inv_start (rt : MessageRuntime) : (start rt : LocalDelivery μ).Inv := by
  refine ⟨rfl, rfl, fun i => ?_, fun p hp => ?_⟩
  · exact List.Sublist.refl _
  · cases hp

@[simp] theorem calls_goto_self (s : LocalDelivery μ) (i : ℕ) (c : Call μ) :
    (s.goto i c).calls i = c := Function.update_self ..

theorem calls_goto_of_ne (s : LocalDelivery μ) {i j : ℕ} (h : j ≠ i) (c : Call μ) :
    (s.goto i c).calls j = s.calls j := Function.update_of_ne h ..

variable {s t : LocalDelivery μ} {i : ℕ} {p : Publish μ} {info : HandlerInfo}

theorem ofThread_append (l : List (Publish μ)) (p : Publish μ) (i : ℕ) :
    ofThread (l ++ [p]) i = if p.thread = i then ofThread l i ++ [p] else ofThread l i := by
  rw [ofThread, List.filter_append]
  split
  case isTrue h => simp [h, ofThread]
  case isFalse h => simp [h, ofThread]

/-- A step that leaves a thread and what it published alone. -/
theorem CallOk.of_eq {j : ℕ} (h : s.CallOk j) (hc : t.calls j = s.calls j)
    (hb : ofThread t.begun j = ofThread s.begun j)
    (ha : ofThread t.appended j = ofThread s.appended j) : t.CallOk j := by
  simp only [CallOk] at h ⊢
  rw [hc, hb, ha]
  exact h

theorem Inv.publish (h : s.Inv) (hidle : s.calls i = .idle) (publisher : MessagePublisherInfo)
    (msg : μ) :
    let p : Publish μ := ⟨s.begun.length, i, publisher, msg, s.rt.localSubscribers⟩
    ({ s with begun := s.begun ++ [p] }.goto i
      (.sending p (s.rt.localHandlers publisher.topic))).Inv := by
  intro p
  refine ⟨h.calls, ?_, fun j => ?_, h.complete⟩
  · simp only [goto, List.map_append, h.numbered, List.length_append, List.map_cons,
      List.map_nil, List.length_cons, List.length_nil, List.range_succ, p]
  · by_cases hj : j = i
    · subst hj
      have hi := h.threads j
      simp only [CallOk, hidle] at hi
      simp only [CallOk, calls_goto_self]
      refine ⟨localHandlers_eq s.rt publisher.topic, rfl, ofThread s.begun j, ?_, hi⟩
      rw [goto, ofThread_append, if_pos rfl]
    · refine (h.threads j).of_eq (calls_goto_of_ne _ hj _) ?_ rfl
      rw [goto, ofThread_append, if_neg fun heq => hj heq.symm]

/-- The remote part, when it goes well. -/
theorem Inv.sent (h : s.Inv) (hc : s.calls i = .sending p info) :
    (s.goto i (.appending p info)).Inv := by
  refine ⟨h.calls, h.numbered, fun j => ?_, h.complete⟩
  by_cases hj : j = i
  · subst hj
    have hi := h.threads j
    simp only [CallOk, hc] at hi
    simp only [CallOk, calls_goto_self]
    exact hi
  · exact (h.threads j).of_eq (calls_goto_of_ne _ hj _) rfl rfl

/-- A publish that returns false appends nothing. -/
theorem Inv.failed (h : s.Inv) (hc : s.calls i = .sending p info) : (s.finish i p false).Inv := by
  refine ⟨h.calls, h.numbered, fun j => ?_, fun q hq => ?_⟩
  · by_cases hj : j = i
    · subst hj
      have hi := h.threads j
      simp only [CallOk, hc] at hi
      obtain ⟨-, -, l, hb, ha⟩ := hi
      simp only [CallOk, finish, calls_goto_self]
      refine ha.trans ?_
      simp only [goto, hb]
      exact List.sublist_append_left l [p]
    · exact (h.threads j).of_eq (calls_goto_of_ne _ hj _) rfl rfl
  · refine h.complete q ?_
    simpa [finish, goto] using hq

/-- The append, and the return. -/
theorem Inv.append (h : s.Inv) (hc : s.calls i = .appending p info) {t : LocalDelivery μ}
    (ht : s.next (.append i) = some t) : t.Inv := by
  have hi := h.threads i
  simp only [CallOk, hc] at hi
  obtain ⟨hcopied, rfl, l, hb, ha⟩ := hi
  simp only [next, hc, Option.some.injEq] at ht
  subst ht
  cases hlocal : info.haveLocal with
  | true =>
      simp only [if_true]
      refine ⟨?_, h.numbered, fun j => ?_, fun q hq hql => ?_⟩
      · simp only [finish, goto, pending, List.flatMap_append, List.flatMap_cons,
          List.flatMap_nil, List.append_nil, entryCalls_localDetails hcopied, ← h.calls,
          List.append_assoc]
      · by_cases hj : j = p.thread
        · subst hj
          simp only [CallOk, finish, calls_goto_self]
          rw [goto, ofThread_append, if_pos rfl, hb]
          exact ha.append_right [p]
        · refine (h.threads j).of_eq (calls_goto_of_ne _ hj _) rfl ?_
          rw [finish, goto, ofThread_append, if_neg fun heq => hj heq.symm]
      · rcases List.mem_append.mp hq with hq | hq
        · exact List.mem_append.mpr (.inl (h.complete q hq hql))
        · obtain ⟨rfl, -⟩ := Prod.mk.inj (List.mem_singleton.mp hq)
          exact List.mem_append.mpr (.inr (List.mem_singleton.mpr rfl))
  | false =>
      simp only [Bool.false_eq_true, if_false]
      refine ⟨h.calls, h.numbered, fun j => ?_, fun q hq hql => ?_⟩
      · by_cases hj : j = p.thread
        · subst hj
          simp only [CallOk, finish, calls_goto_self]
          refine ha.trans ?_
          simp only [goto, hb]
          exact List.sublist_append_left l [p]
        · exact (h.threads j).of_eq (calls_goto_of_ne _ hj _) rfl rfl
      · rcases List.mem_append.mp hq with hq | hq
        · exact h.complete q hq hql
        · -- the topic had no map
          obtain ⟨rfl, -⟩ := Prod.mk.inj (List.mem_singleton.mp hq)
          rw [← hcopied.2, hlocal] at hql
          cases hql

/-- The dispatch loop moves a call from the pending ones to those made, or nothing. -/
theorem dispatch_calls (ht : s.dispatch = some t) :
    t.called ++ t.pending = s.called ++ s.pending := by
  simp only [dispatch] at ht
  split at ht
  case h_1 hloop =>
    split at ht
    · obtain rfl := Option.some.inj ht
      simp [pending, Loop.pending, hloop]
    · split at ht
      · cases ht
      · obtain rfl := Option.some.inj ht
        simp [pending, Loop.pending, hloop]
  case h_2 hloop =>
    obtain rfl := Option.some.inj ht
    simp [pending, Loop.pending, hloop]
  case h_3 hloop =>
    obtain rfl := Option.some.inj ht
    simp [pending, Loop.pending, hloop, entryCalls]
  case h_4 hloop =>
    obtain rfl := Option.some.inj ht
    simp [pending, Loop.pending, hloop]
  case h_5 hloop =>
    obtain rfl := Option.some.inj ht
    simp [pending, Loop.pending, hloop]
  case h_6 => cases ht

/-- The dispatch loop leaves the publishing threads alone. -/
theorem dispatch_rest (ht : s.dispatch = some t) : t.calls = s.calls ∧ t.begun = s.begun ∧
    t.appended = s.appended ∧ t.returned = s.returned := by
  simp only [dispatch] at ht
  split at ht
  case h_1 =>
    split at ht
    · obtain rfl := Option.some.inj ht
      exact ⟨rfl, rfl, rfl, rfl⟩
    · split at ht
      · cases ht
      · obtain rfl := Option.some.inj ht
        exact ⟨rfl, rfl, rfl, rfl⟩
  case h_6 => cases ht
  all_goals
    obtain rfl := Option.some.inj ht
    exact ⟨rfl, rfl, rfl, rfl⟩

theorem Inv.dispatch (h : s.Inv) (ht : s.dispatch = some t) : t.Inv := by
  obtain ⟨hc, hb, ha, hr⟩ := dispatch_rest ht
  refine ⟨?_, hb ▸ h.numbered, fun j => ?_, ?_⟩
  · rw [dispatch_calls ht, ha]
    exact h.calls
  · exact (h.threads j).of_eq (congrFun hc j) (by rw [hb]) (by rw [ha])
  · rw [hr, ha]
    exact h.complete

/-- **One step keeps local delivery exact.** -/
theorem Inv.step (h : s.Inv) {a : Action μ} (ht : s.next a = some t) : t.Inv := by
  cases a with
  | publish i publisher msg =>
      simp only [next] at ht
      split at ht
      case h_1 hidle => exact Option.some.inj ht ▸ h.publish hidle publisher msg
      case h_2 => cases ht
  | sendRemote i shmSent inlineSent =>
      simp only [next] at ht
      split at ht
      case h_1 p info hc =>
        split at ht
        case isTrue => exact Option.some.inj ht ▸ h.sent hc
        case isFalse => exact Option.some.inj ht ▸ h.failed hc
      case h_2 => cases ht
  | append i =>
      cases hc : s.calls i with
      | idle => simp [next, hc] at ht
      | sending p info => simp [next, hc] at ht
      | appending p info => exact h.append hc ht
  | dispatch => exact h.dispatch ht
  | requestStop =>
      obtain rfl := Option.some.inj ht
      exact ⟨h.calls, h.numbered, h.threads, h.complete⟩
  | runtime a =>
      obtain ⟨x, -, rfl⟩ := Option.map_eq_some_iff.mp ht
      exact ⟨h.calls, h.numbered, h.threads, h.complete⟩

/-! ## Every run -/

theorem source_of_mem_calls {p : Publish μ} {c : HandlerCall μ} (h : c ∈ p.calls) :
    c.source = p := by
  obtain ⟨handler, -, rfl⟩ := List.mem_map.mp h
  rfl

/-- The calls of some publishes to a handler, those of one thread. -/
theorem filter_flatMap_calls (l : List (Publish μ)) (i : ℕ) (h : SubscriptionHandler) :
    (l.flatMap Publish.calls).filter (fun c => c.source.thread = i ∧ c.handler = h) =
      (ofThread l i).flatMap fun p => p.calls.filter fun c => c.handler = h := by
  induction l with
  | nil => rfl
  | cons p l ih =>
      have hp : p.calls.filter (fun c => c.source.thread = i ∧ c.handler = h) =
          if p.thread = i then p.calls.filter (fun c => c.handler = h) else [] := by
        split
        case isTrue hi =>
          refine List.filter_congr fun c hc => ?_
          simp [source_of_mem_calls hc, hi]
        case isFalse hi =>
          refine List.filter_eq_nil_iff.mpr fun c hc => ?_
          simp [source_of_mem_calls hc, hi]
      rw [List.flatMap_cons, List.filter_append, ih, hp]
      simp only [ofThread, List.filter_cons]
      split
      case isTrue hi => simp [hi]
      case isFalse hi => simp [hi]

theorem CallOk.inOrder (h : s.CallOk i) : (ofThread s.appended i).Sublist (ofThread s.begun i) := by
  simp only [CallOk] at h
  split at h
  case h_1 => exact h
  all_goals
    obtain ⟨-, -, l, hb, ha⟩ := h
    rw [hb]
    exact ha.trans (List.sublist_append_left l _)

theorem Inv.exact (h : s.Inv) : s.Exact where
  calls := h.calls
  numbered := h.numbered
  inOrder := fun i => (h.threads i).inOrder
  complete := h.complete
  seen := by
    intro i handler
    have hprefix : s.called.Sublist (s.appended.flatMap Publish.calls) :=
      h.calls ▸ List.sublist_append_left _ _
    have hseen := hprefix.filter fun c => c.source.thread = i ∧ c.handler = handler
    rw [filter_flatMap_calls] at hseen
    exact hseen.trans ((h.threads i).inOrder.flatMap _)

/-- **Local delivery is exact and ordered**, in every state of every interleaving of any
number of publishing threads with the dispatch loop and with whatever else happens in the
process. -/
theorem delivered_exactly {rt : MessageRuntime} {as : List (Action μ)} {s : LocalDelivery μ}
    (h : exec next (start rt) as = some s) : s.Exact :=
  (stable (fun _ _ _ hs ht => Inv.step hs ht) (inv_start rt) h).exact

/-! ## Two threads -/

/-- A process without nodes. -/
def exampleProcess : MessageRuntime := .init (str "4a") [] (str "10.0.0.1") (str "tcp://a")

/-- A handler of node `n` for type `A`. -/
def exampleHandler (n : String) : SubscriptionHandler := ⟨str "u" ++ str n, str n, str "A"⟩

def examplePublisher : MessagePublisherInfo :=
  .make (str "t") (str "tcp://a") (str "unused") (str "4a") (str "n") (str "A") {}

/-- Two nodes subscribe; thread 1 copies the handlers before the second one unsubscribes and
appends after thread 0, whose first message is half dispatched. -/
def overtaken : List (Action ℕ) :=
  [.runtime (.subscribe (str "t") (str "n") (exampleHandler "n")),
    .runtime (.subscribe (str "t") (str "m") (exampleHandler "m")),
    .publish 0 examplePublisher 1, .sendRemote 0 false true, .append 0,
    .publish 1 examplePublisher 10,
    .runtime (.unsubscribe (str "t") (str "m")),
    .dispatch, .dispatch, .dispatch,
    .publish 0 examplePublisher 2, .sendRemote 0 false true, .append 0,
    .sendRemote 1 false true, .append 1]

/-- The state in which the example run ends. -/
def halfDone : LocalDelivery ℕ :=
  (exec next (start exampleProcess) overtaken).getD (start exampleProcess)

theorem delivered_exactly_overtaken : halfDone.Exact ∧ halfDone.called.map (·.msg) = [1] ∧
    halfDone.pending.map (·.msg) = [1, 2, 10, 10] :=
  have hrun : exec next (start exampleProcess) overtaken = some halfDone := rfl
  ⟨delivered_exactly hrun, by decide⟩

end LocalDelivery
end RfTrans
