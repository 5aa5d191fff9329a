import RfTrans.Lib.Interleaving
import RfTrans.Service.Discovered

/-!
# The threads of the service runtime

`request` is called by any number of threads while the discovery thread files the
responders it learns of, the receive thread queues responses and the service thread
answers the requests.  The tables have locks of their own, `mutex_` is held while
requests are sent.  A call is split here wherever another thread can come in between.

## Main definitions

* `Call`, `Server` — where a call and where the service thread stand.
* `ServiceThreads` — the runtime with its threads, and a record of what was filed, sent,
  received and notified.
* `ServiceThreads.next` — one step of one of the threads.
-/

namespace RfTrans

open Exec

/-- What `sendPendingRequests` is called with. -/
structure Target where
  topic : Str
  reqType : Str
  repType : Str
  deriving DecidableEq

/-- Where a call of `request`, or the handling of an ADVERTISE, stands. -/
inductive Call (T : Type) [ProtoTypes T]
  | idle
  /-- `request` looks whether the topic is known. -/
  | checking (topic nodeUuid : Str) (handler : ReqHandler T)
  | adding (topic nodeUuid : Str) (handler : ReqHandler T)
  /-- `sendPendingRequests` reads the known publishers; `locked` says whether its caller
  has `mutex_` already. -/
  | reading (target : Target) (locked : Bool)
  | locking (target : Target) (responder : ServicePublisherInfo)
  | connecting (target : Target) (responder : ServicePublisherInfo)
  | scanning (target : Target) (responder : ServicePublisherInfo)
  /-- The handlers that its loop still has to go through. -/
  | sending (target : Target) (responder : ServicePublisherInfo)
    (rest : List (ServiceRuntime.Pending T))
  /-- The discovery thread files a responder. -/
  | arrived (pub : ServicePublisherInfo)
  /-- `onServiceConnected` waits for `mutex_`. -/
  | connected (pub : ServicePublisherInfo)
  | joining (pub : ServicePublisherInfo)
  /-- It looks for a request of the responder's types. -/
  | seeking (pub : ServicePublisherInfo)

/-- The new handler that a call has not added yet. -/
def Call.carries {T : Type} [ProtoTypes T] : Call T → Option (ReqHandler T)
  | .checking _ _ handler => some handler
  | .adding _ _ handler => some handler
  | _ => none

/-- Where the service thread stands in its batch of responses. -/
inductive Server (T : Type) [ProtoTypes T]
  | waiting
  | handling (rest : List RemoteResponse)
  | notifying (response : RemoteResponse) (handler : ReqHandler T) (rest : List RemoteResponse)
  | removing (response : RemoteResponse) (rest : List RemoteResponse)

/-- A request handler under its topic and its node. -/
structure Filed (T : Type) [ProtoTypes T] where
  topic : Str
  nodeUuid : Str
  handler : ReqHandler T

/-- A call of `notifyResult`. -/
structure Notification where
  handlerUuid : Str
  repData : Str
  result : Bool
  deriving DecidableEq

/-- The service runtime in the middle of what its threads do. -/
structure ServiceThreads (T : Type) [ProtoTypes T] where
  rt : ServiceRuntime T
  /-- Who has `mutex_`, which is recursive. -/
  mutex : Option ℕ := none
  calls : ℕ → Call T := fun _ => .idle
  responseQueue : List RemoteResponse := []
  server : Server T := .waiting
  /-- The uuids that `generateUuidV4` has given out. -/
  uuids : List Str := []
  /-- The handlers that were added, the requests sent completely, the responses received
  and the calls of `notifyResult`. -/
  filed : List (Filed T) := []
  sent : List RequestFrames := []
  received : List RemoteResponse := []
  notified : List Notification := []

namespace ServiceThreads

variable {T : Type} [ProtoTypes T]

/-- The steps of the threads. -/
inductive Action (T : Type) [ProtoTypes T]
  /-- A thread calls `request` with a new handler. -/
  | request (i : ℕ) (topic nodeUuid : Str) (handler : ReqHandler T)
  /-- The discovery thread gets an ADVERTISE. -/
  | datagram (i : ℕ) (fromIp : Str) (m : Msgs.Discovery) (now : ℕ)
  /-- The next step of a call, while the sockets are as `io` says. -/
  | advance (i : ℕ) (io : SocketIo)
  /-- `receiveResponse` -/
  | receive (response : RemoteResponse)
  /-- The service thread swaps the queue. -/
  | takeBatch
  /-- The service thread makes its next step. -/
  | serve

/-- The call of a thread goes on. -/
def goto (s : ServiceThreads T) (i : ℕ) (c : Call T) : ServiceThreads T :=
  { s with calls := Function.update s.calls i c }

/-- The call ends and gives `mutex_` back. -/
def release (s : ServiceThreads T) (i : ℕ) : ServiceThreads T :=
  { s with mutex := none, calls := Function.update s.calls i .idle }

/-- `requester_->connect` under `mutex_`; an exception ends the call. -/
def join (s : ServiceThreads T) (i : ℕ) (io : SocketIo) (addr : Str) (c : Call T) :
    ServiceThreads T :=
  if addr ∈ s.rt.requesterConnections then s.goto i c
  else if io.connect addr then
    { s with rt.requesterConnections := s.rt.requesterConnections ++ [addr] }.goto i c
  else s.release i

/-- The next step of the call of a thread. -/
def advance (s : ServiceThreads T) (i : ℕ) (io : SocketIo) : Option (ServiceThreads T) :=
  match s.calls i with
  | .idle => none
  | .checking topic nodeUuid handler =>
    if (s.rt.discovery.knownPublishers.getPublishers topic).isNone then some (s.goto i .idle)
    else some (s.goto i (.adding topic nodeUuid handler))
  | .adding topic nodeUuid handler =>
    let handlers :=
      s.rt.requestHandlers.addHandler topic nodeUuid handler.handlerUuid handler
    some ({ s with
      rt.requestHandlers := handlers
      filed := ⟨topic, nodeUuid, handler⟩ :: s.filed }.goto i
        (.reading ⟨topic, handler.getReqTypeName, handler.getRepTypeName⟩ false))
  | .reading target locked =>
    match s.rt.responder target.topic target.reqType target.repType with
    | none => some (if locked then s.release i else s.goto i .idle)
    | some responder =>
      some (s.goto i (if locked then .connecting target responder else .locking target responder))
  | .locking target responder =>
    match s.mutex with
    | some _ => none
    | none => some ({ s with mutex := some i }.goto i (.connecting target responder))
  | .connecting target responder =>
    some (s.join i io responder.addr (.scanning target responder))
  | .scanning target responder =>
    match s.rt.requestHandlers.getHandlers target.topic with
    | none => some (s.release i)
    | some handlers =>
      some (s.goto i (.sending target responder (ServiceRuntime.pendingOf handlers)))
  | .sending _ _ [] => some (s.release i)
  | .sending target responder (x :: rest) =>
    let o := ServiceRuntime.sendPending io responder target.topic target.reqType target.repType
      { self := s.rt } x
    some ({ s with rt := o.self, sent := s.sent ++ o.sent }.goto i
      (.sending target responder rest))
  | .arrived pub =>
    let (known, added) := s.rt.discovery.knownPublishers.addPublisher pub
    -- `start` has set the callback.
    some ({ s with rt.discovery.knownPublishers := known }.goto i
      (if added then .connected pub else .idle))
  | .connected pub =>
    match s.mutex with
    | some _ => none
    | none => some ({ s with mutex := some i }.goto i (.joining pub))
  | .joining pub => some (s.join i io pub.addr (.seeking pub))
  | .seeking pub =>
    match s.rt.requestHandlers.getFirstHandler pub.topic
        (ServiceRuntime.matchesTypes pub.reqTypeName pub.repTypeName) with
    | none => some (s.release i)
    | some _ => some (s.goto i (.reading ⟨pub.topic, pub.reqTypeName, pub.repTypeName⟩ true))

/-- The next step of the service thread. -/
def serve (s : ServiceThreads T) : Option (ServiceThreads T) :=
  match s.server with
  | .waiting => none
  | .handling [] => some { s with server := .waiting }
  | .handling (r :: rest) =>
    match s.rt.requestHandlers.getHandler r.topic r.nodeUuid r.reqUuid with
    | none => some { s with server := .handling rest }
    | some handler => some { s with server := .notifying r handler rest }
  | .notifying r handler rest =>
    let result : Bool := r.resultStr = str "1"
    some { s with
      rt := s.rt.setReqState r.reqUuid
        (handler.notifyResult (s.rt.reqState r.reqUuid) r.repData result)
      notified := ⟨handler.handlerUuid, r.repData, result⟩ :: s.notified
      server := .removing r rest }
  | .removing r rest =>
    let handlers := (s.rt.requestHandlers.removeHandler r.topic r.nodeUuid r.reqUuid).1
    some { s with rt.requestHandlers := handlers, server := .handling rest }

/-- One step of one of the threads. -/
def next (s : ServiceThreads T) : Action T → Option (ServiceThreads T)
  | .request i topic nodeUuid handler =>
    match s.calls i with
    | .idle =>
      if handler.handlerUuid ∈ s.uuids then none
      else some ({ s with uuids := handler.handlerUuid :: s.uuids }.goto i
        (.checking topic nodeUuid handler))
    | _ => none
  | .datagram i fromIp m now =>
    match s.calls i with
    | .idle =>
      if m.processUuid = s.rt.discovery.processUuid ∨ m.type ≠ .advertise then some s
      else
        let pub : ServicePublisherInfo := PubLike.setFromDiscovery PubLike.default m
        let seen := s.rt.discovery.lastSeenByProcess.insert m.processUuid now
        let s := { s with rt.discovery.lastSeenByProcess := seen }
        if Discovery.hidden pub (s.rt.discovery.isSenderLocal fromIp) then some s
        else some (s.goto i (.arrived pub))
    | _ => none
  | .advance i io => s.advance i io
  | .receive r =>
    match s.mutex with
    | some _ => none
    | none =>
      some { s with responseQueue := s.responseQueue ++ [r], received := r :: s.received }
  | .takeBatch =>
    match s.server with
    | .waiting => some { s with server := .handling s.responseQueue, responseQueue := [] }
    | _ => none
  | .serve => s.serve

/-! ## Handlers and their uuids -/

/-- Every handler has a uuid of its own, and the table holds what was filed. -/
structure Tracked (s : ServiceThreads T) : Prop where
  known : ∀ x ∈ s.filed, x.handler.handlerUuid ∈ s.uuids
  distinct : ∀ x ∈ s.filed, ∀ y ∈ s.filed,
    x.handler.handlerUuid = y.handler.handlerUuid → x = y
  table : ∀ t n u h, s.rt.requestHandlers.handler? t n u = some h →
    h.handlerUuid = u ∧ ⟨t, n, h⟩ ∈ s.filed
  carried : ∀ i h, Call.carries (s.calls i) = some h → h.handlerUuid ∈ s.uuids ∧
    (∀ x ∈ s.filed, x.handler.handlerUuid ≠ h.handlerUuid) ∧
    ∀ j h', Call.carries (s.calls j) = some h' → h'.handlerUuid = h.handlerUuid → j = i

/-- A step that files nothing, hands out no uuid and takes no handler up. -/
structure Frame (s t : ServiceThreads T) : Prop where
  uuids : t.uuids = s.uuids
  filed : t.filed = s.filed
  table : ∀ n n' u h, t.rt.requestHandlers.handler? n n' u = some h →
    s.rt.requestHandlers.handler? n n' u = some h
  carried : ∀ j h, Call.carries (t.calls j) = some h → Call.carries (s.calls j) = some h

variable {s t : ServiceThreads T}

theorem Tracked.frame (ht : s.Tracked) (hf : Frame s t) : t.Tracked where
  known := by
    rw [hf.filed, hf.uuids]
    exact ht.known
  distinct := by
    rw [hf.filed]
    exact ht.distinct
  table n n' u h hh := by
    rw [hf.filed]
    exact ht.table n n' u h (hf.table n n' u h hh)
  carried i h hc := by
    obtain ⟨hu, hx, hj⟩ := ht.carried i h (hf.carried i h hc)
    rw [hf.uuids, hf.filed]
    exact ⟨hu, hx, fun j h' hc' => hj j h' (hf.carried j h' hc')⟩

@[simp] theorem calls_goto_self (s : ServiceThreads T) (i : ℕ) (c : Call T) :
    (s.goto i c).calls i = c := Function.update_self ..

theorem calls_goto_of_ne (s : ServiceThreads T) {i j : ℕ} (h : j ≠ i) (c : Call T) :
    (s.goto i c).calls j = s.calls j := Function.update_of_ne h ..

@[simp] theorem calls_release_self (s : ServiceThreads T) (i : ℕ) :
    (s.release i).calls i = .idle := Function.update_self ..

theorem calls_release_of_ne (s : ServiceThreads T) {i j : ℕ} (h : j ≠ i) :
    (s.release i).calls j = s.calls j := Function.update_of_ne h ..

/-- The call of one thread changes and takes no handler up. -/
theorem Frame.of_update {i : ℕ} {c : Call T} (huuids : t.uuids = s.uuids)
    (hfiled : t.filed = s.filed) (htable : t.rt.requestHandlers = s.rt.requestHandlers)
    (hcalls : t.calls = Function.update s.calls i c)
    (hc : ∀ h, Call.carries c = some h → Call.carries (s.calls i) = some h) : Frame s t where
  uuids := huuids
  filed := hfiled
  table n n' u h := by
    rw [htable]
    exact id
  carried j h hj := by
    rw [hcalls] at hj
    by_cases hji : j = i
    · subst hji
      rw [Function.update_self] at hj
      exact hc h hj
    · rwa [Function.update_of_ne hji] at hj

/-- The call of a thread moves on to a place without a handler. -/
theorem Frame.of_empty {i : ℕ} {c : Call T} (huuids : t.uuids = s.uuids)
    (hfiled : t.filed = s.filed) (htable : t.rt.requestHandlers = s.rt.requestHandlers)
    (hcalls : t.calls = Function.update s.calls i c) (hc : Call.carries c = none) :
    Frame s t := by
  apply Frame.of_update huuids hfiled htable hcalls
  intro h hh
  rw [hc] at hh
  cases hh

theorem Frame.of_join (s : ServiceThreads T) (i : ℕ) (io : SocketIo) (addr : Str) {c : Call T}
    (hc : Call.carries c = none) : Frame s (s.join i io addr c) := by
  simp only [join]
  split
  case isTrue => exact Frame.of_empty rfl rfl rfl rfl hc
  case isFalse =>
    split
    case isTrue => exact Frame.of_empty rfl rfl rfl rfl hc
    case isFalse => exact Frame.of_empty (c := .idle) rfl rfl rfl rfl rfl

theorem requestHandlers_sendPending (io : SocketIo) (responder : ServicePublisherInfo)
    (topic reqType repType : Str) (o : ServiceRuntime.Outcome T) (x : ServiceRuntime.Pending T) :
    (ServiceRuntime.sendPending io responder topic reqType repType o x).self.requestHandlers =
      o.self.requestHandlers := by
  rcases ServiceRuntime.sendPending_cases io responder topic reqType repType o x
    with h | ⟨data, -, h⟩
  · rw [h]
  · rw [h]
    rfl

/-- A step of a call adds the handler it carries, or leaves the handlers alone. -/
theorem frame_advance {i : ℕ} {io : SocketIo} (h : s.advance i io = some t) :
    (∃ topic nodeUuid handler, s.calls i = .adding topic nodeUuid handler) ∨ Frame s t := by
  simp only [advance] at h
  cases hc : s.calls i with
  | idle =>
      rw [hc] at h
      cases h
  | checking topic nodeUuid handler =>
      simp only [hc] at h
      right
      split at h
      case isTrue =>
        obtain rfl := Option.some.inj h
        exact Frame.of_empty (c := .idle) rfl rfl rfl rfl rfl
      case isFalse =>
        obtain rfl := Option.some.inj h
        refine Frame.of_update (c := .adding topic nodeUuid handler) rfl rfl rfl rfl ?_
        rw [hc]
        exact fun _ => id
  | adding topic nodeUuid handler => exact .inl ⟨topic, nodeUuid, handler, rfl⟩
  | reading target locked =>
      simp only [hc] at h
      right
      split at h
      case h_1 =>
        obtain rfl := Option.some.inj h
        cases locked with
        | true => exact Frame.of_empty (c := .idle) rfl rfl rfl rfl rfl
        | false => exact Frame.of_empty (c := .idle) rfl rfl rfl rfl rfl
      case h_2 responder _ =>
        obtain rfl := Option.some.inj h
        refine Frame.of_empty rfl rfl rfl rfl ?_
        cases locked <;> rfl
  | locking target responder =>
      simp only [hc] at h
      right
      split at h
      case h_1 => cases h
      case h_2 =>
        obtain rfl := Option.some.inj h
        exact Frame.of_empty (c := .connecting target responder) rfl rfl rfl rfl rfl
  | connecting target responder =>
      simp only [hc] at h
      obtain rfl := Option.some.inj h
      exact .inr (Frame.of_join s i io responder.addr rfl)
  | scanning target responder =>
      simp only [hc] at h
      right
      split at h
      case h_1 =>
        obtain rfl := Option.some.inj h
        exact Frame.of_empty (c := .idle) rfl rfl rfl rfl rfl
      case h_2 handlers _ =>
        obtain rfl := Option.some.inj h
        exact Frame.of_empty rfl rfl rfl rfl rfl
  | sending target responder rest =>
      simp only [hc] at h
      right
      cases rest with
      | nil =>
          obtain rfl := Option.some.inj h
          exact Frame.of_empty (c := .idle) rfl rfl rfl rfl rfl
      | cons x rest =>
          obtain rfl := Option.some.inj h
          exact Frame.of_empty (c := .sending target responder rest) rfl rfl
            (requestHandlers_sendPending ..) rfl rfl
  | arrived pub =>
      simp only [hc] at h
      obtain rfl := Option.some.inj h
      refine .inr (Frame.of_empty rfl rfl rfl rfl ?_)
      split <;> rfl
  | connected pub =>
      simp only [hc] at h
      right
      split at h
      case h_1 => cases h
      case h_2 =>
        obtain rfl := Option.some.inj h
        exact Frame.of_empty (c := .joining pub) rfl rfl rfl rfl rfl
  | joining pub =>
      simp only [hc] at h
      obtain rfl := Option.some.inj h
      exact .inr (Frame.of_join s i io pub.addr rfl)
  | seeking pub =>
      simp only [hc] at h
      right
      split at h
      case h_1 =>
        obtain rfl := Option.some.inj h
        exact Frame.of_empty (c := .idle) rfl rfl rfl rfl rfl
      case h_2 =>
        obtain rfl := Option.some.inj h
        exact Frame.of_empty (c := .reading ⟨pub.topic, pub.reqTypeName, pub.repTypeName⟩ true)
          rfl rfl rfl rfl rfl

theorem frame_of_not_adding {i : ℕ} {io : SocketIo} (h : s.advance i io = some t)
    (hc : ∀ topic nodeUuid handler, s.calls i ≠ .adding topic nodeUuid handler) : Frame s t := by
  rcases frame_advance h with ⟨topic, nodeUuid, handler, hadding⟩ | hf
  · exact absurd hadding (hc topic nodeUuid handler)
  · exact hf

theorem frame_serve (h : s.serve = some t) : Frame s t := by
  simp only [serve] at h
  split at h
  case h_1 => cases h
  case h_2 =>
    obtain rfl := Option.some.inj h
    exact ⟨rfl, rfl, fun _ _ _ _ => id, fun _ _ => id⟩
  case h_3 =>
    split at h
    all_goals
      obtain rfl := Option.some.inj h
      exact ⟨rfl, rfl, fun _ _ _ _ => id, fun _ _ => id⟩
  case h_4 =>
    obtain rfl := Option.some.inj h
    exact ⟨rfl, rfl, fun _ _ _ _ => id, fun _ _ => id⟩
  case h_5 r rest _ =>
    obtain rfl := Option.some.inj h
    refine ⟨rfl, rfl, fun n n' u h hh => ?_, fun _ _ => id⟩
    rw [HandlerStorage.handler?_removeHandler] at hh
    split at hh
    case isTrue => cases hh
    case isFalse => exact hh

/-- A call adds its handler, which no one has filed before. -/
theorem Tracked.adding (ht : s.Tracked) {i : ℕ} {io : SocketIo} {topic nodeUuid : Str}
    {handler : ReqHandler T} (hc : s.calls i = .adding topic nodeUuid handler)
    (h : s.advance i io = some t) : t.Tracked := by
  simp only [advance, hc] at h
  obtain rfl := Option.some.inj h
  have hcarries : (s.calls i).carries = some handler := by rw [hc]; rfl
  obtain ⟨hu, hnew, honly⟩ := ht.carried i handler hcarries
  refine ⟨?_, ?_, ?_, ?_⟩
  · intro x hx
    rcases List.mem_cons.mp hx with rfl | hx
    · exact hu
    · exact ht.known x hx
  · intro x hx y hy hxy
    rcases List.mem_cons.mp hx with rfl | hx
    · rcases List.mem_cons.mp hy with rfl | hy
      · rfl
      · exact absurd hxy.symm (hnew y hy)
    · rcases List.mem_cons.mp hy with rfl | hy
      · exact absurd hxy (hnew x hx)
      · exact ht.distinct x hx y hy hxy
  · intro n n' u h hh
    have hadd := (HandlerStorage.handler?_addHandler s.rt.requestHandlers topic nodeUuid
      handler.handlerUuid handler n n' u).symm.trans hh
    split at hadd
    case isTrue hsame =>
      obtain ⟨rfl, rfl, rfl, -⟩ := hsame
      obtain rfl := Option.some.inj hadd
      exact ⟨rfl, List.mem_cons_self⟩
    case isFalse =>
      obtain ⟨huuid, hfiled⟩ := ht.table n n' u h hadd
      exact ⟨huuid, List.mem_cons_of_mem _ hfiled⟩
  · intro j h hj
    -- the thread that added its handler carries none any more
    have hold : ∀ j h, ((goto { s with
        rt.requestHandlers := s.rt.requestHandlers.addHandler topic nodeUuid handler.handlerUuid
          handler
        filed := ⟨topic, nodeUuid, handler⟩ :: s.filed } i
          (.reading ⟨topic, handler.getReqTypeName, handler.getRepTypeName⟩ false)).calls
            j).carries = some h → j ≠ i ∧ (s.calls j).carries = some h := by
      intro j h hj
      by_cases hji : j = i
      · subst hji
        rw [calls_goto_self] at hj
        cases hj
      · rw [calls_goto_of_ne _ hji] at hj
        exact ⟨hji, hj⟩
    obtain ⟨hji, hj⟩ := hold j h hj
    obtain ⟨hu', hnew', honly'⟩ := ht.carried j h hj
    refine ⟨hu', ?_, ?_⟩
    · intro x hx
      rcases List.mem_cons.mp hx with rfl | hx
      · exact fun hsame => hji (honly j h hj hsame.symm)
      · exact hnew' x hx
    · intro k h' hk
      exact honly' k h' (hold k h' hk).2

/-- A call takes up a handler with a new uuid. -/
theorem Tracked.request (ht : s.Tracked) {i : ℕ} {topic nodeUuid : Str} {handler : ReqHandler T}
    (hfresh : handler.handlerUuid ∉ s.uuids) :
    (goto { s with uuids := handler.handlerUuid :: s.uuids } i
      (.checking topic nodeUuid handler)).Tracked := by
  have hne : ∀ j h, (s.calls j).carries = some h → h.handlerUuid ≠ handler.handlerUuid :=
    fun j h hj hsame => hfresh (hsame ▸ (ht.carried j h hj).1)
  refine ⟨fun x hx => List.mem_cons_of_mem _ (ht.known x hx), ht.distinct, ht.table, ?_⟩
  intro j h hj
  by_cases hji : j = i
  · subst hji
    rw [calls_goto_self] at hj
    obtain rfl := Option.some.inj hj
    refine ⟨List.mem_cons_self, fun x hx hsame => hfresh (hsame ▸ ht.known x hx), ?_⟩
    intro k h' hk hsame
    by_cases hkj : k = j
    · exact hkj
    · rw [calls_goto_of_ne _ hkj] at hk
      exact absurd hsame (hne k h' hk)
  · rw [calls_goto_of_ne _ hji] at hj
    obtain ⟨hu, hx, honly⟩ := ht.carried j h hj
    refine ⟨List.mem_cons_of_mem _ hu, hx, ?_⟩
    intro k h' hk hsame
    by_cases hki : k = i
    · subst hki
      rw [calls_goto_self] at hk
      obtain rfl := Option.some.inj hk
      exact absurd hsame.symm (hne j h hj)
    · rw [calls_goto_of_ne _ hki] at hk
      exact honly k h' hk hsame

/-- **Handlers keep their uuids to themselves.** -/
theorem Tracked.next (ht : s.Tracked) {a : Action T} (h : s.next a = some t) : t.Tracked := by
  cases a with
  | request i topic nodeUuid handler =>
      simp only [ServiceThreads.next] at h
      split at h
      case h_1 =>
        split at h
        case isTrue => cases h
        case isFalse hfresh =>
          obtain rfl := Option.some.inj h
          exact ht.request hfresh
      case h_2 => cases h
  | datagram i fromIp m now =>
      refine ht.frame ?_
      simp only [ServiceThreads.next] at h
      split at h
      case h_1 =>
        split at h
        case isTrue =>
          obtain rfl := Option.some.inj h
          exact ⟨rfl, rfl, fun _ _ _ _ => id, fun _ _ => id⟩
        case isFalse =>
          split at h
          case isTrue =>
            obtain rfl := Option.some.inj h
            exact ⟨rfl, rfl, fun _ _ _ _ => id, fun _ _ => id⟩
          case isFalse =>
            obtain rfl := Option.some.inj h
            exact Frame.of_update rfl rfl rfl rfl nofun
      case h_2 => cases h
  | advance i io =>
      rcases frame_advance h with ⟨topic, nodeUuid, handler, hc⟩ | hf
      · exact ht.adding hc h
      · exact ht.frame hf
  | receive r =>
      refine ht.frame ?_
      simp only [ServiceThreads.next] at h
      split at h
      case h_1 => cases h
      case h_2 =>
        obtain rfl := Option.some.inj h
        exact ⟨rfl, rfl, fun _ _ _ _ => id, fun _ _ => id⟩
  | takeBatch =>
      refine ht.frame ?_
      simp only [ServiceThreads.next] at h
      split at h
      case h_1 =>
        obtain rfl := Option.some.inj h
        exact ⟨rfl, rfl, fun _ _ _ _ => id, fun _ _ => id⟩
      case h_2 => cases h
  | serve => exact ht.frame (frame_serve h)

/-- A runtime that has just started, with no call under way. -/
def start (processUuid processName hostAddr replierUuid replierAddress : Str) :
    ServiceThreads T where
  rt := ServiceRuntime.init processUuid processName hostAddr replierUuid replierAddress

theorem tracked_start (processUuid processName hostAddr replierUuid replierAddress : Str) :
    (start processUuid processName hostAddr replierUuid replierAddress :
      ServiceThreads T).Tracked where
  known x hx := by cases hx
  distinct x hx := by cases hx
  table t n u h hh := by simp [start, ServiceRuntime.init, HandlerStorage.handler?] at hh
  carried i h hc := by cases hc

end ServiceThreads
end RfTrans
