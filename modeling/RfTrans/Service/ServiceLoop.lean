import RfTrans.Service.TimedOut

/-!
# The service thread and its callbacks

`serviceHandleLoop` swaps both queues, answers the requests and hands out the responses.
The callbacks of responders and of asynchronous requests run on its thread, and so does
what they call: a local responder runs inside them, and a synchronous request to a remote
one waits there for a response that this thread alone hands out.

## Main definitions

* `ServiceLoop` — the threads of the service runtime with the service thread inside callbacks.
* `ServiceLoop.next` — one step; what the callbacks do is left open.
* `ServiceLoop.WaitsForItself` — it is in `waitFor` and no other thread can wake it.
* `ServiceLoop.waits_for_itself_iff`
-/

namespace RfTrans

open Exec

/-- The functions of the discovery instance that make callbacks. -/
inductive DiscoveryCall
  | advertise (pub : ServicePublisherInfo)
  | unadvertise (topic nodeUuid : Str)
  | recv (fromIp : Str) (m : Msgs.Discovery) (now : ℕ)
  | heartbeat (now later : ℕ)
  | activity (now later : ℕ)

def DiscoveryCall.outcome (d : Discovery ServicePublisherInfo) :
    DiscoveryCall → Outcome ServicePublisherInfo
  | .advertise pub => (d.advertise pub).1
  | .unadvertise topic nodeUuid => (d.unadvertise topic nodeUuid).1
  | .recv fromIp m now => d.dispatchDiscoveryMsg fromIp m now
  | .heartbeat now later => d.updateHeartbeat now later
  | .activity now later => d.updateActivity now later

/-- The call of a thread is at the end of `request`, which returns true: the topic had a known
publisher, no connect has thrown, and there is no responder of the types or nothing is left to
send. -/
def ServiceThreads.Accepts {T : Type} [ProtoTypes T] (s : ServiceThreads T) (i : ℕ) : Prop :=
  match s.calls i with
  | .reading target _ => s.rt.responder target.topic target.reqType target.repType = none
  | .scanning target _ => s.rt.requestHandlers.getHandlers target.topic = none
  | .sending _ _ rest => rest = []
  | _ => False

/-- A callback that the service thread is in. -/
inductive Frame
  /-- Of a responder, for the request at the head of the batch. -/
  | responder
  /-- Of an asynchronous request, in `notifyResult`. -/
  | notified
  /-- One that a callback has caused: `runLocalCallback` of a local responder; if `async`, the
  callback of the request comes after it. -/
  | local (async : Bool)
  deriving DecidableEq

/-- The threads of the service runtime; the service thread is inside the callbacks of `stack`,
the innermost first, and there possibly in a synchronous request. -/
structure ServiceLoop (T : Type) [ProtoTypes T] where
  base : ServiceThreads T
  requestQueue : List RemoteRequest := []
  /-- The requests of the batch that are not done with. -/
  requests : List RemoteRequest := []
  stack : List Frame := []
  caller : Caller T := .free

namespace ServiceLoop

variable {T : Type} [ProtoTypes T]

/-- The number of the service thread among the threads that call `request`. -/
def handleThread : ℕ := 0

/-- The steps of the threads. Those of callbacks are chosen freely: any order of the library's
operations, and an end at any time. Operations on messages do not touch the service runtime. -/
inductive Action (T : Type) [ProtoTypes T]
  /-- A step of another thread. -/
  | other (a : ServiceThreads.Action T)
  /-- `receiveRequest` -/
  | receiveRequest (q : RemoteRequest)
  /-- `advertise` and `unadvertise` change the table of responders. -/
  | respond (topic nodeUuid : Str) (handler : RepHandler T)
  | retract (topic nodeUuid : Str)
  | discover (io : SocketIo) (c : DiscoveryCall)
  /-- The service thread swaps the queues. -/
  | takeBatch
  /-- `handleRequests` comes to the next request. -/
  | handleRequest
  /-- `handleResponses` goes on. -/
  | serve
  /-- A callback makes a request that has a local responder. -/
  | callLocal (topic reqType repType : Str) (async : Bool)
  /-- A callback makes a request that has none; it is asynchronous if it has a callback. -/
  | ask (x : Filed T)
  /-- `requestRemoteService` goes on. -/
  | advance (io : SocketIo)
  /-- `waitFor` returns: the reply is there, or the time is over. -/
  | wake
  | timeOut
  /-- The innermost callback ends. -/
  | finish

/-- The service thread is in a callback and about to do its next operation. -/
def running (s : ServiceLoop T) : Bool :=
  match s.stack, s.caller, s.base.calls handleThread with
  | _ :: _, .free, .idle => true
  | _, _, _ => false

/-- The service thread in a synchronous request after a step of its call. -/
def follow (s : ServiceLoop T) (b : ServiceThreads T) : Caller T :=
  match s.caller, b.calls handleThread with
  | .requesting x, .idle => SyncThreads.returned x (s.base.calls handleThread)
  | c, _ => c

/-- One step of one of the threads. -/
def next (s : ServiceLoop T) : Action T → Option (ServiceLoop T)
  | .other a =>
    match a with
    | .takeBatch | .serve => none
    | a =>
      if a.thread = some handleThread then none
      else (s.base.next a).map fun b => { s with base := b }
  | .receiveRequest q =>
    match s.base.mutex with
    | some _ => none
    | none => some { s with requestQueue := s.requestQueue ++ [q] }
  | .respond topic nodeUuid handler =>
    let handlers :=
      s.base.rt.responseHandlers.addHandler topic nodeUuid handler.handlerUuid handler
    some { s with base.rt.responseHandlers := handlers }
  | .retract topic nodeUuid =>
    let handlers := (s.base.rt.responseHandlers.removeHandlersForNode topic nodeUuid).1
    some { s with base.rt.responseHandlers := handlers }
  | .discover io c =>
    match s.base.mutex with
    | some _ => none
    | none =>
      some { s with base.rt := (s.base.rt.absorb io (c.outcome s.base.rt.discovery)).self }
  | .takeBatch =>
    match s.stack, s.requests with
    | [], [] => (s.base.next .takeBatch).map fun b =>
        { s with base := b, requests := s.requestQueue, requestQueue := [] }
    | _, _ => none
  | .handleRequest =>
    match s.stack, s.requests with
    | [], q :: rest =>
      match s.base.rt.getLocalHandler q.topic q.reqType q.repType with
      | none => some { s with requests := rest }
      | some handler =>
        if handler.cb.isSome then some { s with stack := [.responder] }
        else some { s with requests := rest }
    | _, _ => none
  | .serve =>
    match s.stack, s.requests with
    | [], [] =>
      match s.base.server with
      | .notifying _ ⟨_, _, _, _, _, true⟩ _ => some { s with stack := [.notified] }
      | _ => (s.base.next .serve).map fun b => { s with base := b }
    | _, _ => none
  | .callLocal topic reqType repType async =>
    if s.running then
      (s.base.rt.getLocalHandler topic reqType repType).map fun handler =>
        if handler.cb.isSome then { s with stack := .local async :: s.stack }
        else if async then { s with stack := .local false :: s.stack }
        else s
    else none
  | .ask x =>
    match s.base.rt.getLocalHandler x.topic x.handler.getReqTypeName x.handler.getRepTypeName with
    | some _ => none
    | none =>
      if s.running then
        (s.base.next (.request handleThread x.topic x.nodeUuid x.handler)).map fun b =>
          { s with base := b, caller := if x.handler.cb then .free else .requesting x }
      else none
  | .advance io =>
    (s.base.next (.advance handleThread io)).map fun b =>
      { s with base := b, caller := s.follow b }
  | .wake =>
    match s.caller with
    | .waiting x =>
      if s.base.Available? x.handler.handlerUuid then some { s with caller := .free } else none
    | _ => none
  | .timeOut =>
    match s.caller with
    | .waiting x =>
      if s.base.Available? x.handler.handlerUuid then none else some { s with caller := .free }
    | _ => none
  | .finish =>
    if s.running then
      match s.stack with
      | [] => none
      | .responder :: rest => some { s with stack := rest, requests := s.requests.tail }
      -- what `notifyResult` does after the callback
      | .notified :: rest =>
        (s.base.next .serve).map fun b => { s with base := b, stack := rest }
      | .local true :: rest => some { s with stack := .local false :: rest }
      | .local false :: rest => some { s with stack := rest }
    else none

/-- The service thread is in `waitFor`, and whatever happens, the reply does not come as long
as it is there. -/
def WaitsForItself (s : ServiceLoop T) : Prop :=
  ∃ x, s.caller = .waiting x ∧ ∀ (bs : List (Action T)) (t : ServiceLoop T),
    (∀ b ∈ bs, b ≠ .timeOut) → exec next s bs = some t →
      t.caller = .waiting x ∧ t.base.Available? x.handler.handlerUuid = false

/-- A callback makes a synchronous request, and `requestRemoteService` is about to return true. -/
def Nests (s : ServiceLoop T) : Action T → Prop
  | .advance _ => (∃ x, s.caller = .requesting x) ∧ s.base.Accepts handleThread
  | _ => False

end ServiceLoop

/-! ## What leaves the replies alone -/

namespace ServiceRuntime

variable {T : Type} [ProtoTypes T] (rt : ServiceRuntime T) (io : SocketIo)

/-- The same requests have a reply. -/
def SameReplies (rt rt' : ServiceRuntime T) : Prop :=
  ∀ u, (rt'.reqState u).repAvailable = (rt.reqState u).repAvailable

variable {rt io}

theorem SameReplies.refl (rt : ServiceRuntime T) : SameReplies rt rt := fun _ => rfl

theorem SameReplies.trans {a b c : ServiceRuntime T} (h : SameReplies a b)
    (h' : SameReplies b c) : SameReplies a c := fun u => (h' u).trans (h u)

theorem SameReplies.of_states {rt rt' : ServiceRuntime T} (h : rt'.reqStates = rt.reqStates) :
    SameReplies rt rt' := by
  intro u
  simp only [reqState, h]

theorem sameReplies_connect (p : Prop) [Decidable p] (addr : Str) :
    SameReplies rt (if p then rt
      else { rt with requesterConnections := rt.requesterConnections ++ [addr] }) := by
  split <;> exact .of_states rfl

theorem sameReplies_sendPendingRequests (topic reqType repType : Str) :
    SameReplies rt (rt.sendPendingRequests io topic reqType repType).self := by
  simp only [sendPendingRequests]
  cases rt.responder topic reqType repType with
  | none => exact .refl rt
  | some r =>
      dsimp only
      split
      case isTrue => exact .refl rt
      case isFalse =>
        split
        case h_1 => exact sameReplies_connect _ r.addr
        case h_2 =>
          refine SameReplies.trans
            (sameReplies_connect (r.addr ∈ rt.requesterConnections) r.addr) ?_
          intro u
          obtain ⟨requested, hu⟩ := reqState_sendAll (T := T) _ _ _ _ _ _ _ u
          rw [hu]

theorem sameReplies_onServiceConnected (pub : ServicePublisherInfo) :
    SameReplies rt (rt.onServiceConnected io pub).self := by
  simp only [onServiceConnected]
  split
  case isTrue => exact .refl rt
  case isFalse =>
    split
    case h_1 => exact sameReplies_connect _ pub.addr
    case h_2 =>
      exact (sameReplies_connect _ pub.addr).trans (sameReplies_sendPendingRequests _ _ _)

/-- The callbacks of the discovery instance make no reply available. -/
theorem sameReplies_absorb (o : RfTrans.Outcome ServicePublisherInfo) :
    SameReplies rt (rt.absorb io o).self := by
  suffices h : ∀ (calls : List (Callback ServicePublisherInfo)) (o : Outcome T),
      SameReplies o.self
        (calls.foldl (fun o c => if o.thrown then o else onCallback io o c) o).self from
    h o.calls { self := { rt with discovery := o.self } }
  intro calls
  induction calls with
  | nil => exact fun o => .refl _
  | cons c calls ih =>
      intro o
      refine SameReplies.trans ?_ (ih _)
      dsimp only
      split
      case isTrue => exact .refl _
      case isFalse =>
        cases c with
        | connection p => exact sameReplies_onServiceConnected p
        | disconnection p => exact .of_states rfl
        | registration p => exact .refl _
        | unregistration p => exact .refl _

end ServiceRuntime

namespace ServiceThreads

variable {T : Type} [ProtoTypes T] {s t : ServiceThreads T}

/-- A step that is not of the service thread: it stays where it is, no reply becomes available
and no uuid is given back. -/
structure Passes (s t : ServiceThreads T) : Prop where
  tracked : s.Tracked → t.Tracked
  server : t.server = s.server
  replies : ∀ u, t.Available? u = s.Available? u
  uuids : ∀ u ∈ s.uuids, u ∈ t.uuids

theorem passes_next {a : Action T} (h : s.next a = some t) (htake : a ≠ .takeBatch)
    (hserve : a ≠ .serve) : Passes s t := by
  have htracked : s.Tracked → t.Tracked := fun ht => ht.next h
  cases a with
  | request i topic nodeUuid handler =>
      simp only [ServiceThreads.next] at h
      split at h
      case h_1 =>
        split at h
        case isTrue => cases h
        case isFalse =>
          obtain rfl := Option.some.inj h
          exact ⟨htracked, rfl, fun _ => rfl, fun u hu => List.mem_cons_of_mem _ hu⟩
      case h_2 => cases h
  | datagram i fromIp m now =>
      simp only [ServiceThreads.next] at h
      split at h
      case h_1 =>
        split at h
        case isTrue =>
          obtain rfl := Option.some.inj h
          exact ⟨htracked, rfl, fun _ => rfl, fun _ => id⟩
        case isFalse =>
          split at h
          all_goals
            obtain rfl := Option.some.inj h
            exact ⟨htracked, rfl, fun _ => rfl, fun _ => id⟩
      case h_2 => cases h
  | advance i io =>
      refine ⟨htracked, (kept_advance h).1.server, available_advance h, fun u hu => ?_⟩
      rcases frame_advance h with ⟨topic, nodeUuid, handler, hc⟩ | hf
      · have hstep : s.advance i io = some t := h
        simp only [advance, hc] at hstep
        obtain rfl := Option.some.inj hstep
        exact hu
      · rw [hf.uuids]
        exact hu
  | receive r =>
      simp only [ServiceThreads.next] at h
      split at h
      case h_1 => cases h
      case h_2 =>
        obtain rfl := Option.some.inj h
        exact ⟨htracked, rfl, fun _ => rfl, fun _ => id⟩
  | takeBatch => exact absurd rfl htake
  | serve => exact absurd rfl hserve

end ServiceThreads

/-! ## The end of a request -/

namespace ServiceThreads

variable {T : Type} [ProtoTypes T] {s t : ServiceThreads T} {i : ℕ} {io : SocketIo}

/-- A call that `request` goes through. -/
def Asks : Call T → Prop
  | .checking .. | .adding .. | .reading .. | .locking .. | .connecting .. | .scanning ..
  | .sending .. => True
  | _ => False

/-- What is about to return true is not held up. -/
theorem exists_advance (h : s.Accepts i) (io : SocketIo) : ∃ t, s.advance i io = some t := by
  simp only [Accepts] at h
  simp only [advance]
  cases hc : s.calls i with
  | reading target locked =>
      simp only [hc] at h
      simp only [h]
      exact ⟨_, rfl⟩
  | scanning target responder =>
      simp only [hc] at h
      simp only [h]
      exact ⟨_, rfl⟩
  | sending target responder rest =>
      simp only [hc] at h
      subst h
      exact ⟨_, rfl⟩
  | _ =>
      rw [hc] at h
      exact h.elim

/-- A call of `request` ends with true exactly if it was about to. -/
theorem asks_advance (h : s.advance i io = some t) (hasks : Asks (s.calls i)) :
    Asks (t.calls i) ∧ ¬ s.Accepts i ∨
      t.calls i = .idle ∧
        (s.Accepts i ∧ (∀ x, SyncThreads.returned x (s.calls i) = .waiting x) ∨
          ¬ s.Accepts i ∧ ∀ x, SyncThreads.returned x (s.calls i) = .free) := by
  have hgoto : ∀ (s' : ServiceThreads T) (c : Call T), Asks c → Asks ((s'.goto i c).calls i) := by
    intro s' c hc
    rwa [calls_goto_self]
  simp only [advance] at h
  cases hc : s.calls i with
  | checking topic nodeUuid handler =>
      simp only [hc] at h
      have hno : ¬ s.Accepts i := by simp [Accepts, hc]
      split at h
      case isTrue =>
        obtain rfl := Option.some.inj h
        exact .inr ⟨calls_goto_self .., .inr ⟨hno, fun _ => rfl⟩⟩
      case isFalse =>
        obtain rfl := Option.some.inj h
        exact .inl ⟨hgoto _ _ trivial, hno⟩
  | adding topic nodeUuid handler =>
      simp only [hc] at h
      obtain rfl := Option.some.inj h
      exact .inl ⟨hgoto _ _ trivial, by simp [Accepts, hc]⟩
  | reading target locked =>
      simp only [hc] at h
      split at h
      case h_1 hnone =>
        obtain rfl := Option.some.inj h
        refine .inr ⟨?_, .inl ⟨by simpa [Accepts, hc] using hnone, fun _ => rfl⟩⟩
        cases locked with
        | true => exact calls_release_self ..
        | false => exact calls_goto_self ..
      case h_2 responder hsome =>
        obtain rfl := Option.some.inj h
        refine .inl ⟨?_, by simp [Accepts, hc, hsome]⟩
        cases locked with
        | true => exact hgoto _ _ trivial
        | false => exact hgoto _ _ trivial
  | locking target responder =>
      simp only [hc] at h
      split at h
      case h_1 => cases h
      case h_2 =>
        obtain rfl := Option.some.inj h
        exact .inl ⟨hgoto _ _ trivial, by simp [Accepts, hc]⟩
  | connecting target responder =>
      simp only [hc, join] at h
      have hno : ¬ s.Accepts i := by simp [Accepts, hc]
      obtain rfl := Option.some.inj h
      split
      case isTrue => exact .inl ⟨hgoto _ _ trivial, hno⟩
      case isFalse =>
        split
        case isTrue => exact .inl ⟨hgoto _ _ trivial, hno⟩
        case isFalse => exact .inr ⟨calls_release_self .., .inr ⟨hno, fun _ => rfl⟩⟩
  | scanning target responder =>
      simp only [hc] at h
      split at h
      case h_1 hnone =>
        obtain rfl := Option.some.inj h
        exact .inr ⟨calls_release_self ..,
          .inl ⟨by simpa [Accepts, hc] using hnone, fun _ => rfl⟩⟩
      case h_2 handlers hsome =>
        obtain rfl := Option.some.inj h
        exact .inl ⟨hgoto _ _ trivial, by simp [Accepts, hc, hsome]⟩
  | sending target responder rest =>
      cases rest with
      | nil =>
          simp only [hc] at h
          obtain rfl := Option.some.inj h
          exact .inr ⟨calls_release_self .., .inl ⟨by simp [Accepts, hc], fun _ => rfl⟩⟩
      | cons y rest =>
          simp only [hc] at h
          obtain rfl := Option.some.inj h
          exact .inl ⟨hgoto _ _ trivial, by simp [Accepts, hc]⟩
  | _ =>
      rw [hc] at hasks
      exact hasks.elim

end ServiceThreads

namespace ServiceLoop

variable {T : Type} [ProtoTypes T] {s t : ServiceLoop T}

/-- What holds in every state of a run. -/
structure Inv (s : ServiceLoop T) : Prop where
  tracked : s.base.Tracked
  /-- Replies are for handlers that were made. -/
  known : ∀ u, s.base.Available? u = true → u ∈ s.base.uuids
  notifying : ∀ r h rest, s.base.server = .notifying r h rest → r.reqUuid ∈ s.base.uuids
  /-- Only callbacks make requests on the service thread. -/
  inside : s.stack = [] → s.caller = .free
  /-- The reply of such a request is not there. -/
  fresh : ∀ x, s.caller = .requesting x ∨ s.caller = .waiting x →
    s.base.Available? x.handler.handlerUuid = false

/-- A step of another thread, or one that the service thread makes for its request. -/
theorem Inv.passes (h : s.Inv) (hp : ServiceThreads.Passes s.base t.base)
    (hstack : t.stack = [] → s.stack = []) (hinside : s.caller = .free → t.caller = .free)
    (hcaller : ∀ x, t.caller = .requesting x ∨ t.caller = .waiting x →
      s.caller = .requesting x ∨ s.caller = .waiting x) : t.Inv where
  tracked := hp.tracked h.tracked
  known u hu := by
    rw [hp.replies] at hu
    exact hp.uuids u (h.known u hu)
  notifying r x rest hserver := by
    rw [hp.server] at hserver
    exact hp.uuids _ (h.notifying r x rest hserver)
  inside hempty := hinside (h.inside (hstack hempty))
  fresh x hx := by
    rw [hp.replies]
    exact h.fresh x (hcaller x hx)

theorem passes_refl (b : ServiceThreads T) : ServiceThreads.Passes b b :=
  ⟨id, rfl, fun _ => rfl, fun _ => id⟩

/-- The service thread hands out a response, in no request of its own. -/
theorem Inv.serve (h : s.Inv) (hfree : s.caller = .free) {b : ServiceThreads T}
    (hb : s.base.serve = some b) (stack : List Frame) :
    Inv { s with base := b, stack := stack } := by
  have hnext : s.base.next .serve = some b := hb
  have hfresh : ∀ x, s.caller = .requesting x ∨ s.caller = .waiting x → False := by
    intro x hx
    rw [hfree] at hx
    rcases hx with hx | hx
    · cases hx
    · cases hx
  have huuids := (ServiceThreads.frame_serve hb).uuids
  refine ⟨h.tracked.next hnext, ?_, ?_, fun _ => hfree, fun x hx => (hfresh x hx).elim⟩
  · intro u hu
    show u ∈ b.uuids
    rw [huuids]
    simp only [ServiceThreads.serve] at hb
    split at hb
    case h_1 => cases hb
    case h_2 =>
      obtain rfl := Option.some.inj hb
      exact h.known u hu
    case h_3 =>
      split at hb
      all_goals
        obtain rfl := Option.some.inj hb
        exact h.known u hu
    case h_4 r handler rest hserver =>
      obtain rfl := Option.some.inj hb
      simp only [ServiceThreads.Available?, ServiceRuntime.reqState_setReqState] at hu
      split at hu
      case isTrue heq =>
        rw [heq]
        exact h.notifying r handler rest hserver
      case isFalse => exact h.known u hu
    case h_5 =>
      obtain rfl := Option.some.inj hb
      exact h.known u hu
  · intro r x rest hserver
    show r.reqUuid ∈ b.uuids
    rw [huuids]
    simp only [ServiceThreads.serve] at hb
    split at hb
    case h_1 => cases hb
    case h_3 r' rest' _ =>
      split at hb
      case h_1 =>
        obtain rfl := Option.some.inj hb
        cases hserver
      case h_2 handler hhandler =>
        obtain rfl := Option.some.inj hb
        obtain ⟨rfl, -, -⟩ := Server.notifying.inj hserver
        rw [HandlerStorage.getHandler_eq] at hhandler
        obtain ⟨huuid, hfiled⟩ := h.tracked.table _ _ _ _ hhandler
        exact huuid ▸ h.tracked.known _ hfiled
    all_goals
      obtain rfl := Option.some.inj hb
      cases hserver

theorem of_running (h : s.running = true) :
    s.stack ≠ [] ∧ s.caller = .free ∧ s.base.calls handleThread = .idle := by
  simp only [running] at h
  split at h
  case h_1 hstack hcaller hcall => exact ⟨by simp [hstack], hcaller, hcall⟩
  case h_2 => cases h

theorem follow_eq {b : ServiceThreads T} {x : Filed T}
    (h : s.follow b = .requesting x ∨ s.follow b = .waiting x) :
    s.caller = .requesting x ∨ s.caller = .waiting x := by
  simp only [follow] at h
  split at h
  case h_1 y hy _ =>
    simp only [SyncThreads.returned] at h
    split at h
    case h_1 =>
      rcases h with h | h
      · cases h
      · cases h
    case h_2 =>
      rcases h with h | h
      · cases h
      · cases h
    case h_3 =>
      rcases h with h | h
      · cases h
      · obtain rfl := Caller.waiting.inj h
        exact .inl hy
  case h_2 => exact h

/-- A callback makes a request with a new handler, whose reply no one can have yet. -/
theorem Inv.ask (h : s.Inv) {x : Filed T} (ht : s.next (.ask x) = some t) : t.Inv := by
  simp only [next] at ht
  split at ht
  case h_1 => cases ht
  case h_2 =>
    split at ht
    case isFalse => cases ht
    case isTrue hrun =>
      obtain ⟨b, hb, rfl⟩ := Option.map_eq_some_iff.mp ht
      have hp : ServiceThreads.Passes s.base b :=
        ServiceThreads.passes_next hb (by nofun) (by nofun)
      have hnew : x.handler.handlerUuid ∉ s.base.uuids := by
        simp only [ServiceThreads.next] at hb
        split at hb
        case h_1 =>
          split at hb
          case isTrue => cases hb
          case isFalse hno => exact hno
        case h_2 => cases hb
      have hpassed : Inv { s with base := b } :=
        h.passes hp id id fun _ => id
      refine ⟨hpassed.tracked, hpassed.known, hpassed.notifying,
        fun hempty => absurd hempty (of_running hrun).1, fun y hy => ?_⟩
      have heq : y = x := by
        rcases hy with hy | hy
        · split at hy
          case isTrue => cases hy
          case isFalse => exact (Caller.requesting.inj hy).symm
        · split at hy
          case isTrue => cases hy
          case isFalse => cases hy
      subst heq
      rw [hp.replies]
      exact Bool.eq_false_iff.mpr fun hav => hnew (h.known _ hav)

/-- **One step of one of the threads.** -/
theorem Inv.step (h : s.Inv) {a : Action T} (ht : s.next a = some t) : t.Inv := by
  have hsame := passes_refl s.base
  cases a with
  | other a =>
      simp only [next] at ht
      split at ht
      case h_1 => cases ht
      case h_2 => cases ht
      case h_3 htake hserve =>
        split at ht
        case isTrue => cases ht
        case isFalse =>
          obtain ⟨b, hb, rfl⟩ := Option.map_eq_some_iff.mp ht
          exact h.passes (ServiceThreads.passes_next hb htake hserve) id id fun _ => id
  | receiveRequest q =>
      simp only [next] at ht
      split at ht
      case h_1 => cases ht
      case h_2 =>
        obtain rfl := Option.some.inj ht
        exact h.passes hsame id id fun _ => id
  | respond topic nodeUuid handler =>
      obtain rfl := Option.some.inj ht
      refine h.passes ⟨fun htr => ?_, rfl, fun _ => rfl, fun _ => id⟩ id id fun _ => id
      exact ⟨htr.known, htr.distinct, htr.table, htr.carried⟩
  | retract topic nodeUuid =>
      obtain rfl := Option.some.inj ht
      refine h.passes ⟨fun htr => ?_, rfl, fun _ => rfl, fun _ => id⟩ id id fun _ => id
      exact ⟨htr.known, htr.distinct, htr.table, htr.carried⟩
  | discover io c =>
      simp only [next] at ht
      split at ht
      case h_1 => cases ht
      case h_2 =>
        obtain rfl := Option.some.inj ht
        refine h.passes ⟨fun htr => ⟨htr.known, htr.distinct, ?_, htr.carried⟩, rfl, ?_,
          fun _ => id⟩ id id fun _ => id
        · obtain ⟨connections, states, hs⟩ :=
            s.base.rt.sends_absorb io (c.outcome s.base.rt.discovery)
          rw [hs]
          exact htr.table
        · exact ServiceRuntime.sameReplies_absorb (c.outcome s.base.rt.discovery)
  | takeBatch =>
      simp only [next] at ht
      split at ht
      case h_2 => cases ht
      case h_1 hstack _ =>
        obtain ⟨b, hb, rfl⟩ := Option.map_eq_some_iff.mp ht
        have htracked := h.tracked.next hb
        simp only [ServiceThreads.next] at hb
        split at hb
        case h_2 => cases hb
        case h_1 =>
          obtain rfl := Option.some.inj hb
          exact ⟨htracked, h.known, (fun _ _ _ h => by cases h), h.inside, h.fresh⟩
  | handleRequest =>
      simp only [next] at ht
      split at ht
      case h_2 => cases ht
      case h_1 hstack _ =>
        split at ht
        case h_1 =>
          obtain rfl := Option.some.inj ht
          exact h.passes hsame id id fun _ => id
        case h_2 =>
          split at ht
          all_goals
            obtain rfl := Option.some.inj ht
            exact h.passes hsame (fun _ => hstack) id fun _ => id
  | serve =>
      simp only [next] at ht
      split at ht
      case h_2 => cases ht
      case h_1 hstack _ =>
        split at ht
        case h_1 =>
          obtain rfl := Option.some.inj ht
          exact h.passes hsame (fun _ => hstack) id fun _ => id
        case h_2 =>
          obtain ⟨b, hb, rfl⟩ := Option.map_eq_some_iff.mp ht
          exact h.serve (h.inside hstack) hb s.stack
  | callLocal topic reqType repType async =>
      simp only [next] at ht
      split at ht
      case isFalse => cases ht
      case isTrue hrun =>
        have hne := (of_running hrun).1
        obtain ⟨handler, -, rfl⟩ := Option.map_eq_some_iff.mp ht
        split
        case isTrue => exact h.passes hsame (fun h => by cases h) id fun _ => id
        case isFalse =>
          split
          case isTrue => exact h.passes hsame (fun h => by cases h) id fun _ => id
          case isFalse => exact h
  | ask x => exact h.ask ht
  | advance io =>
      obtain ⟨b, hb, rfl⟩ := Option.map_eq_some_iff.mp ht
      refine h.passes (ServiceThreads.passes_next hb (fun h => by cases h) (fun h => by cases h))
        id ?_ fun x => follow_eq
      intro hfree
      simp only [follow, hfree]
  | wake =>
      simp only [next] at ht
      split at ht
      case h_2 => cases ht
      case h_1 =>
        split at ht
        case isFalse => cases ht
        case isTrue =>
          obtain rfl := Option.some.inj ht
          refine h.passes hsame id (fun _ => rfl) fun x hx => ?_
          rcases hx with hx | hx
          · cases hx
          · cases hx
  | timeOut =>
      simp only [next] at ht
      split at ht
      case h_2 => cases ht
      case h_1 =>
        split at ht
        case isTrue => cases ht
        case isFalse =>
          obtain rfl := Option.some.inj ht
          refine h.passes hsame id (fun _ => rfl) fun x hx => ?_
          rcases hx with hx | hx
          · cases hx
          · cases hx
  | finish =>
      simp only [next] at ht
      split at ht
      case isFalse => cases ht
      case isTrue hrun =>
        obtain ⟨-, hfree, -⟩ := of_running hrun
        have hpop : ∀ (stack : List Frame) (requests : List RemoteRequest),
            Inv { s with stack := stack, requests := requests } := fun stack requests =>
          ⟨h.tracked, h.known, h.notifying, fun _ => hfree, h.fresh⟩
        split at ht
        case h_1 => cases ht
        case h_3 rest _ =>
          obtain ⟨b, hb, rfl⟩ := Option.map_eq_some_iff.mp ht
          exact h.serve hfree hb rest
        all_goals
          obtain rfl := Option.some.inj ht
          exact hpop ..

/-! ## In waitFor -/

/-- Where a step leaves the service thread in its synchronous request. -/
theorem caller_next {a : Action T} (ht : s.next a = some t) :
    t.caller = s.caller ∨ ((a = .wake ∨ a = .timeOut) ∧ t.caller = .free) ∨
      (∃ x, a = .ask x ∧ s.running = true ∧ (t.caller = .free ∨ t.caller = .requesting x)) ∨
      ∃ io b, a = .advance io ∧ s.base.next (.advance handleThread io) = some b ∧
        t.caller = s.follow b := by
  cases a with
  | other a =>
      left
      simp only [next] at ht
      split at ht
      case h_1 => cases ht
      case h_2 => cases ht
      case h_3 =>
        split at ht
        case isTrue => cases ht
        case isFalse =>
          obtain ⟨b, -, rfl⟩ := Option.map_eq_some_iff.mp ht
          rfl
  | receiveRequest q =>
      left
      simp only [next] at ht
      split at ht
      case h_1 => cases ht
      case h_2 =>
        obtain rfl := Option.some.inj ht
        rfl
  | respond topic nodeUuid handler =>
      obtain rfl := Option.some.inj ht
      exact .inl rfl
  | retract topic nodeUuid =>
      obtain rfl := Option.some.inj ht
      exact .inl rfl
  | discover io c =>
      left
      simp only [next] at ht
      split at ht
      case h_1 => cases ht
      case h_2 =>
        obtain rfl := Option.some.inj ht
        rfl
  | takeBatch =>
      left
      simp only [next] at ht
      split at ht
      case h_2 => cases ht
      case h_1 =>
        obtain ⟨b, -, rfl⟩ := Option.map_eq_some_iff.mp ht
        rfl
  | handleRequest =>
      left
      simp only [next] at ht
      split at ht
      case h_2 => cases ht
      case h_1 =>
        split at ht
        case h_1 =>
          obtain rfl := Option.some.inj ht
          rfl
        case h_2 =>
          split at ht
          all_goals
            obtain rfl := Option.some.inj ht
            rfl
  | serve =>
      left
      simp only [next] at ht
      split at ht
      case h_2 => cases ht
      case h_1 =>
        split at ht
        case h_1 =>
          obtain rfl := Option.some.inj ht
          rfl
        case h_2 =>
          obtain ⟨b, -, rfl⟩ := Option.map_eq_some_iff.mp ht
          rfl
  | callLocal topic reqType repType async =>
      left
      simp only [next] at ht
      split at ht
      case isFalse => cases ht
      case isTrue =>
        obtain ⟨handler, -, rfl⟩ := Option.map_eq_some_iff.mp ht
        split
        case isTrue => rfl
        case isFalse => split <;> rfl
  | ask x =>
      simp only [next] at ht
      split at ht
      case h_1 => cases ht
      case h_2 =>
        split at ht
        case isFalse => cases ht
        case isTrue hrun =>
          obtain ⟨b, -, rfl⟩ := Option.map_eq_some_iff.mp ht
          refine .inr (.inr (.inl ⟨x, rfl, hrun, ?_⟩))
          by_cases hcb : x.handler.cb = true
          · exact .inl (if_pos hcb)
          · exact .inr (if_neg hcb)
  | advance io =>
      obtain ⟨b, hb, rfl⟩ := Option.map_eq_some_iff.mp ht
      exact .inr (.inr (.inr ⟨io, b, rfl, hb, rfl⟩))
  | wake =>
      simp only [next] at ht
      split at ht
      case h_2 => cases ht
      case h_1 =>
        split at ht
        case isFalse => cases ht
        case isTrue =>
          obtain rfl := Option.some.inj ht
          exact .inr (.inl ⟨.inl rfl, rfl⟩)
  | timeOut =>
      simp only [next] at ht
      split at ht
      case h_2 => cases ht
      case h_1 =>
        split at ht
        case isTrue => cases ht
        case isFalse =>
          obtain rfl := Option.some.inj ht
          exact .inr (.inl ⟨.inr rfl, rfl⟩)
  | finish =>
      left
      simp only [next] at ht
      split at ht
      case isFalse => cases ht
      case isTrue =>
        split at ht
        case h_1 => cases ht
        case h_3 =>
          obtain ⟨b, -, rfl⟩ := Option.map_eq_some_iff.mp ht
          rfl
        all_goals
          obtain rfl := Option.some.inj ht
          rfl

/-- In `waitFor` the service thread stays until the time is over. -/
theorem Inv.waiting_step (h : s.Inv) {x : Filed T} (hx : s.caller = .waiting x) {a : Action T}
    (ha : a ≠ .timeOut) (ht : s.next a = some t) : t.caller = .waiting x := by
  rcases caller_next ht with hsame | ⟨rfl | rfl, -⟩ | ⟨y, -, hrun, -⟩ | ⟨io, b, -, -, hfollow⟩
  · rw [hsame, hx]
  · -- no reply, so nothing to wake it
    have hno := h.fresh x (.inr hx)
    simp only [next, hx, hno] at ht
    cases ht
  · exact absurd rfl ha
  · rw [(of_running hrun).2.1] at hx
    cases hx
  · rw [hfollow]
    simp only [follow, hx]

/-- In a request the service thread does nothing else. -/
theorem calls_next {a : Action T} (ht : s.next a = some t) {x : Filed T}
    (hx : s.caller = .requesting x) (ha : ∀ io, a ≠ .advance io) :
    t.base.calls handleThread = s.base.calls handleThread := by
  have hrun : s.running = false := by
    by_contra hrun
    have hfree := (of_running (Bool.not_eq_false _ ▸ hrun)).2.1
    rw [hx] at hfree
    cases hfree
  cases a with
  | other b =>
      simp only [next] at ht
      split at ht
      case h_1 => cases ht
      case h_2 => cases ht
      case h_3 =>
        split at ht
        case isTrue => cases ht
        case isFalse hthread =>
          obtain ⟨c, hc, rfl⟩ := Option.map_eq_some_iff.mp ht
          exact (ServiceThreads.others_next hc).1 handleThread hthread
  | receiveRequest q =>
      simp only [next] at ht
      split at ht
      case h_1 => cases ht
      case h_2 => exact Option.some.inj ht ▸ rfl
  | respond topic nodeUuid handler => exact Option.some.inj ht ▸ rfl
  | retract topic nodeUuid => exact Option.some.inj ht ▸ rfl
  | discover io c =>
      simp only [next] at ht
      split at ht
      case h_1 => cases ht
      case h_2 => exact Option.some.inj ht ▸ rfl
  | takeBatch =>
      simp only [next] at ht
      split at ht
      case h_2 => cases ht
      case h_1 =>
        obtain ⟨c, hc, rfl⟩ := Option.map_eq_some_iff.mp ht
        exact (ServiceThreads.others_next hc).1 handleThread nofun
  | handleRequest =>
      simp only [next] at ht
      split at ht
      case h_2 => cases ht
      case h_1 =>
        split at ht
        case h_1 => exact Option.some.inj ht ▸ rfl
        case h_2 => split at ht <;> exact Option.some.inj ht ▸ rfl
  | serve =>
      simp only [next] at ht
      split at ht
      case h_2 => cases ht
      case h_1 =>
        split at ht
        case h_1 => exact Option.some.inj ht ▸ rfl
        case h_2 =>
          obtain ⟨c, hc, rfl⟩ := Option.map_eq_some_iff.mp ht
          exact congrFun (ServiceThreads.calls_serve hc).1 handleThread
  | callLocal topic reqType repType async => simp [next, hrun] at ht
  | ask y =>
      simp only [next, hrun] at ht
      split at ht
      case h_1 => cases ht
      case h_2 => cases ht
  | advance io => exact absurd rfl (ha io)
  | wake => simp [next, hx] at ht
  | timeOut => simp [next, hx] at ht
  | finish => simp [next, hrun] at ht

/-- The service thread is in a call of `request` as long as it is requesting. -/
def Asking (s : ServiceLoop T) : Prop :=
  ∀ x, s.caller = .requesting x → ServiceThreads.Asks (s.base.calls handleThread)

/-- Where a step of a request leaves the service thread. -/
theorem follow_of_asks {x : Filed T} (hx : s.caller = .requesting x)
    (hasks : ServiceThreads.Asks (s.base.calls handleThread)) {io : SocketIo}
    {b : ServiceThreads T} (hb : s.base.advance handleThread io = some b) :
    (s.follow b = .waiting x ∧ s.base.Accepts handleThread) ∨
      (¬ s.base.Accepts handleThread ∧
        (s.follow b = .free ∨
          s.follow b = .requesting x ∧ ServiceThreads.Asks (b.calls handleThread))) := by
  rcases ServiceThreads.asks_advance hb hasks with
    ⟨hafter, hno⟩ | ⟨hidle, ⟨hyes, hreturned⟩ | ⟨hno, hreturned⟩⟩
  · refine .inr ⟨hno, .inr ⟨?_, hafter⟩⟩
    simp only [follow, hx]
    split
    case h_1 hidle =>
      rw [hidle] at hafter
      exact hafter.elim
    case h_2 => rfl
  · refine .inl ⟨?_, hyes⟩
    simp only [follow, hx, hidle]
    exact hreturned x
  · refine .inr ⟨hno, .inl ?_⟩
    simp only [follow, hx, hidle]
    exact hreturned x

theorem Asking.step (hs : s.Asking) {a : Action T} (ht : s.next a = some t) : t.Asking := by
  intro x hx
  by_cases ha : ∃ io, a = .advance io
  · obtain ⟨io, rfl⟩ := ha
    obtain ⟨b, hb, rfl⟩ := Option.map_eq_some_iff.mp ht
    have hfollow : s.follow b = .requesting x := hx
    rcases follow_eq (.inl hfollow) with hreq | hwait
    · rcases follow_of_asks hreq (hs x hreq) hb with ⟨hwait, -⟩ | ⟨-, hfree | ⟨-, hasks⟩⟩
      · rw [hwait] at hfollow
        cases hfollow
      · rw [hfree] at hfollow
        cases hfollow
      · exact hasks
    · simp only [follow, hwait] at hfollow
      cases hfollow
  · rcases caller_next ht with hsame | ⟨-, hfree⟩ | ⟨y, rfl, -, -⟩ | ⟨io, b, rfl, -⟩
    · rw [hsame] at hx
      rw [calls_next ht hx fun io heq => ha ⟨io, heq⟩]
      exact hs x hx
    · rw [hfree] at hx
      cases hx
    · -- a new request
      simp only [next] at ht
      split at ht
      case h_1 => cases ht
      case h_2 =>
        split at ht
        case isFalse => cases ht
        case isTrue =>
          obtain ⟨b, hb, rfl⟩ := Option.map_eq_some_iff.mp ht
          simp only [ServiceThreads.next] at hb
          split at hb
          case h_2 => cases hb
          case h_1 =>
            split at hb
            case isTrue => cases hb
            case isFalse =>
              obtain rfl := Option.some.inj hb
              simp only [ServiceThreads.calls_goto_self]
              trivial
    · exact absurd ⟨io, rfl⟩ ha

/-- The thread begins to wait only by a request that is accepted. -/
theorem not_waiting_step (hs : ∀ x, s.caller ≠ .waiting x) (hasking : s.Asking) {a : Action T}
    (ha : ¬ s.Nests a) (ht : s.next a = some t) (x : Filed T) : t.caller ≠ .waiting x := by
  intro hx
  rcases caller_next ht with
    hsame | ⟨-, hfree⟩ | ⟨y, -, -, hfree | hreq⟩ | ⟨io, b, rfl, hb, hfollow⟩
  · exact hs x (hsame ▸ hx)
  · rw [hfree] at hx
    cases hx
  · rw [hfree] at hx
    cases hx
  · rw [hreq] at hx
    cases hx
  · rw [hfollow] at hx
    rcases follow_eq (.inr hx) with hreq | hwait
    · rcases follow_of_asks hreq (hasking x hreq) hb with ⟨-, hyes⟩ | ⟨-, hfree | ⟨hgoes, -⟩⟩
      · exact ha ⟨⟨x, hreq⟩, hyes⟩
      · rw [hfree] at hx
        cases hx
      · rw [hgoes] at hx
        cases hx
    · exact hs x hwait

/-- A synchronous request of a callback waits for the thread that waits. -/
theorem Inv.waitsForItself (h : s.Inv) {x : Filed T} (hx : s.caller = .waiting x) :
    s.WaitsForItself := by
  refine ⟨x, hx, fun bs t hbs hrun => ?_⟩
  have hend : t.Inv ∧ t.caller = .waiting x := by
    induction bs generalizing s with
    | nil =>
        obtain rfl := Option.some.inj hrun
        exact ⟨h, hx⟩
    | cons b bs ih =>
        obtain ⟨u, hu, hut⟩ := Option.bind_eq_some_iff.mp hrun
        exact ih (h.step hu) (h.waiting_step hx (hbs b List.mem_cons_self) hu)
          (fun c hc => hbs c (List.mem_cons_of_mem _ hc)) hut
  exact ⟨hend.2, hend.1.fresh x (.inr hend.2)⟩

/-! ## Runs -/

/-- A started process. -/
def start (processUuid processName hostAddr replierUuid replierAddress : Str) : ServiceLoop T :=
  { base := .start processUuid processName hostAddr replierUuid replierAddress }

theorem inv_start (processUuid processName hostAddr replierUuid replierAddress : Str) :
    (start processUuid processName hostAddr replierUuid replierAddress : ServiceLoop T).Inv where
  tracked := ServiceThreads.tracked_start ..
  known u hu := by
    simp [start, ServiceThreads.start, ServiceRuntime.init, ServiceThreads.Available?,
      ServiceRuntime.reqState] at hu
  notifying r h rest hserver := by cases hserver
  inside _ := rfl
  fresh x hx := by
    rcases hx with hx | hx
    · cases hx
    · cases hx

/-- **The service thread never waits for itself** in a run if and only if none of its
callbacks makes a synchronous request that `requestRemoteService` accepts. -/
theorem waits_for_itself_iff (processUuid processName hostAddr replierUuid replierAddress : Str)
    (run : List (Action T)) :
    Always next (fun s => ¬ WaitsForItself s)
        (start processUuid processName hostAddr replierUuid replierAddress : ServiceLoop T) run ↔
      Guarded next (fun s a => ¬ Nests s a)
        (start processUuid processName hostAddr replierUuid replierAddress) run := by
  constructor
  · intro hnever
    have hstep : ∀ (s : ServiceLoop T) (a : Action T) (t : ServiceLoop T), s.Inv ∧ s.Asking →
        s.next a = some t → t.Inv ∧ t.Asking := fun _ _ _ hs ht => ⟨hs.1.step ht, hs.2.step ht⟩
    refine hnever.guarded_of_stable hstep ?_ ⟨inv_start .., fun _ => nofun⟩
    intro s a hs _ hafter hnests
    cases a with
    | advance io =>
        obtain ⟨⟨x, hx⟩, hyes⟩ := hnests
        obtain ⟨b, hb⟩ := ServiceThreads.exists_advance hyes io
        have ht : s.next (.advance io) = some { s with base := b, caller := s.follow b } :=
          Option.map_eq_some_iff.mpr ⟨b, hb, rfl⟩
        rcases follow_of_asks hx (hs.2 x hx) hb with ⟨hwait, -⟩ | ⟨hno, -⟩
        · exact hafter _ ht ((hs.1.step ht).waitsForItself hwait)
        · exact hno hyes
    | _ => exact hnests
  · intro hnone
    have hstep : ∀ (s : ServiceLoop T) (a : Action T) (t : ServiceLoop T),
        (∀ x, s.caller ≠ .waiting x) ∧ s.Asking → ¬ s.Nests a → s.next a = some t →
          (∀ x, t.caller ≠ .waiting x) ∧ t.Asking :=
      fun _ _ _ hs ha ht => ⟨not_waiting_step hs.1 hs.2 ha ht, hs.2.step ht⟩
    refine always_of_invariant hstep ?_ ⟨fun x => nofun, fun _ => nofun⟩ hnone
    rintro s ⟨hs, -⟩ ⟨x, hx, -⟩
    exact hs x hx

/-! ## A service that asks another one -/

def exampleStart : ServiceLoop EmptyOnly :=
  start (str "4a") [] (str "10.0.0.1") (str "r") (str "tcp://r")

/-- A request for service e, which this process offers. -/
def exampleIncoming : RemoteRequest :=
  ⟨str "z", str "e", str "n", str "u", [], str "rf.msgs.Empty", str "rf.msgs.Empty"⟩

/-- The request of its callback, for service s of another process. -/
def exampleNested : Filed EmptyOnly := SyncThreads.exampleSyncRequest

/-- The responder of s is known; a request for e comes in, its callback asks s and waits; the
response of s is received. -/
def nesting : List (Action EmptyOnly) :=
  .other (.datagram 1 (str "10.0.0.2")
    (ServiceThreads.advertisementOf exampleNested.handler.getReqTypeName
      exampleNested.handler.getRepTypeName (str "n2")) 1) ::
  List.replicate 4 (.other (.advance 1 exampleIo)) ++
  [.respond (str "e") (str "n") ⟨.empty, .empty, str "h", setUnused⟩,
    .receiveRequest exampleIncoming, .takeBatch, .handleRequest, .ask exampleNested] ++
  List.replicate 8 (.advance exampleIo) ++
  [.other (.receive (ServiceThreads.responseTo (str "q") "1"))]

def nested : ServiceLoop EmptyOnly := (exec next exampleStart nesting).getD exampleStart

/-- The request was sent, its response is in the queue, and the service thread waits. -/
theorem nested_waits_for_itself :
    exec next exampleStart nesting = some nested ∧
      nested.base.sent.map (·.reqUuid) = [str "q"] ∧
      nested.base.responseQueue = [ServiceThreads.responseTo (str "q") "1"] ∧
      nested.WaitsForItself := by
  have hrun : exec next exampleStart nesting = some nested := rfl
  have hinv : nested.Inv := stable (fun _ _ _ hs ht => hs.step ht) (inv_start ..) hrun
  exact ⟨hrun, by decide, by decide, hinv.waitsForItself (x := exampleNested) rfl⟩

end ServiceLoop
end RfTrans
