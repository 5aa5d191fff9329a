import RfTrans.Service.Exchange

/-!
# Calls between processes

Processes call each other's services: a request goes from the requester of one to the replier
of another, is answered there by the handler that is in the table when its turn comes, and the
response goes back over the connection on which the request came.  Messages may be lost, but
ZeroMQ does not repeat them, and a replier's identity for a connection is used for that one
alone.

## Main definitions

* `ServicePeer` — the service runtime of a process with the thread that answers requests.
* `CallNet`, `CallNet.next` — any number of them, and the messages between them.
* `CallNet.called_at_most_once` — one execution, one answer, and the answer is of the execution.
* `CallNet.answered_at_rest` — without losses nothing stays unanswered.
-/

namespace RfTrans

open Exec

/-! ## One process -/

/-- What became of a request at its responder: the handler that was run, if there was one. -/
structure Handling (T : Type) [ProtoTypes T] where
  request : RemoteRequest
  handler : Option (RepHandler T)

/-- The service runtime of a process with the requests that have come in; and, which the code
does not have, what it has handled. -/
structure ServicePeer (T : Type) [ProtoTypes T] where
  threads : ServiceThreads T
  requestQueue : List RemoteRequest := []
  /-- What `handleRequests` still has to go through. -/
  requestBatch : List RemoteRequest := []
  /-- A reply that waits for `mutex_`. -/
  reply : Option ResponseFrames := none
  handled : List (Handling T) := []

variable {T : Type} [ProtoTypes T]

/-- The frames of a reply. -/
def RepHandler.answer (handler : RepHandler T) (request : RemoteRequest) : ResponseFrames :=
  let (replyData, ok) := handler.runCallback request.reqData
  ⟨request.replyRoutingId, request.topic, request.nodeUuid, request.reqUuid, replyData,
    if ok then str "1" else str "0"⟩

namespace ServicePeer

/-- The steps of a process by itself. -/
inductive Action (T : Type) [ProtoTypes T]
  /-- A call of `request`, or the discovery thread with an ADVERTISE. -/
  | call (a : ServiceThreads.Action T)
  /-- Another use of the discovery instance, among them those of `advertise` and
  `unadvertise`. -/
  | discovery (i : ℕ) (a : Discovery.Action ServicePublisherInfo)
  /-- What `advertise` and `unadvertise` do to the responders. -/
  | addResponder (topic nodeUuid : Str) (handler : RepHandler T)
  | removeResponders (topic nodeUuid : Str)
  /-- The service thread swaps both queues. -/
  | takeBatch
  /-- It looks for the handler of the next request and runs its callback. -/
  | execute
  /-- The thread goes on with the responses. -/
  | serve

variable {s t : ServicePeer T}

/-- The service thread has done with the requests. -/
def RequestsDone (s : ServicePeer T) : Prop := s.requestBatch = [] ∧ s.reply = none

instance (s : ServicePeer T) : Decidable s.RequestsDone :=
  inferInstanceAs (Decidable (_ = _ ∧ _ = _))

/-- The next request of the batch. -/
def execute (s : ServicePeer T) (r : RemoteRequest) (rest : List RemoteRequest) : ServicePeer T :=
  let handler := s.threads.rt.getLocalHandler r.topic r.reqType r.repType
  { s with
    requestBatch := rest
    reply := handler.map (·.answer r)
    handled := s.handled ++ [⟨r, handler⟩] }

/-- One step. -/
def next (s : ServicePeer T) : Action T → Option (ServicePeer T)
  | .call a =>
    match a with
    | .request .. | .datagram .. | .advance .. =>
      (s.threads.next a).map fun threads => { s with threads := threads }
    | .receive _ | .takeBatch | .serve => none
  | .discovery i a =>
    (s.threads.discovery i a).map fun threads => { s with threads := threads }
  | .addResponder topic nodeUuid handler =>
    let handlers :=
      s.threads.rt.responseHandlers.addHandler topic nodeUuid handler.handlerUuid handler
    some { s with threads.rt.responseHandlers := handlers }
  | .removeResponders topic nodeUuid =>
    let handlers := (s.threads.rt.responseHandlers.removeHandlersForNode topic nodeUuid).1
    some { s with threads.rt.responseHandlers := handlers }
  | .takeBatch =>
    if s.RequestsDone then
      (s.threads.next .takeBatch).map fun threads =>
        { s with threads := threads, requestBatch := s.requestQueue, requestQueue := [] }
    else none
  | .execute =>
    match s.reply, s.requestBatch with
    | none, r :: rest => some (s.execute r rest)
    | _, _ => none
  | .serve =>
    if s.RequestsDone then
      (s.threads.next .serve).map fun threads => { s with threads := threads }
    else none

/-- `receiveRequest` -/
def receiveRequest (s : ServicePeer T) (r : RemoteRequest) : Option (ServicePeer T) :=
  match s.threads.mutex with
  | some _ => none
  | none => some { s with requestQueue := s.requestQueue ++ [r] }

/-- `receiveResponse` -/
def receiveResponse (s : ServicePeer T) (r : RemoteResponse) : Option (ServicePeer T) :=
  (s.threads.next (.receive r)).map fun threads => { s with threads := threads }

/-- The reply is sent, or dropped with the exception. -/
def sendReply (s : ServicePeer T) (io : SocketIo) :
    Option (ServicePeer T × List ResponseFrames) :=
  match s.threads.mutex, s.reply with
  | none, some f => some ({ s with reply := none }, if io.send f.routingId then [f] else [])
  | _, _ => none

/-- Looking the handler up and sending the reply make up a round of `handleRequests`. -/
theorem handleRequest_eq (rt : ServiceRuntime T) (io : SocketIo) (r : RemoteRequest) :
    rt.handleRequest io r =
      (((rt.getLocalHandler r.topic r.reqType r.repType).map (·.answer r)).map fun f =>
        if io.send f.routingId then [f] else []).getD [] := by
  rw [ServiceRuntime.handleRequest]
  cases rt.getLocalHandler r.topic r.reqType r.repType with
  | none => rfl
  | some handler => rfl

end ServicePeer

/-- The frames are the reply of what was handled. -/
def Handling.Answers (h : Handling T) (f : ResponseFrames) : Prop :=
  ∃ handler, h.handler = some handler ∧ f = handler.answer h.request

/-- The handler that was run is one for the types of the request. -/
def Handling.Typed (h : Handling T) : Prop :=
  ∀ handler, h.handler = some handler →
    handler.handles h.request.reqType h.request.repType = true

namespace ServicePeer

variable {s t : ServicePeer T}

/-- The requests that came in, handled or not, in their order. -/
def path (s : ServicePeer T) : List RemoteRequest :=
  s.handled.map (·.request) ++ s.requestBatch ++ s.requestQueue

/-- What a step of a process leaves as it was, and what it adds. -/
structure Effect (s t : ServicePeer T) : Prop where
  orderly : s.threads.Orderly → t.threads.Orderly
  served : s.threads.Orderly →
    (∀ r ∈ s.threads.received, ∃ x ∈ s.threads.filed, r.Names x) →
      s.threads.Served → t.threads.Served
  filed : ∀ x ∈ s.threads.filed, x ∈ t.threads.filed
  sent : ∃ new, t.threads.sent = s.threads.sent ++ new
  received : t.threads.received = s.threads.received
  path : t.path = s.path
  handled : ∀ h ∈ s.handled, h ∈ t.handled
  typed : ∀ h ∈ t.handled, h ∈ s.handled ∨
    h.Typed ∧ ∀ f, h.Answers f → t.reply = some f
  replies : ∀ f, s.reply = some f → t.reply = some f
  reply : ∀ f, t.reply = some f → s.reply = some f ∨ ∃ h ∈ t.handled, h.Answers f

/-- A step of the threads that does not touch the requests that came in. -/
theorem Effect.of_threads {threads : ServiceThreads T}
    (horderly : s.threads.Orderly → threads.Orderly)
    (hserved : s.threads.Orderly →
      (∀ r ∈ s.threads.received, ∃ x ∈ s.threads.filed, r.Names x) →
        s.threads.Served → threads.Served)
    (hfiled : ∀ x ∈ s.threads.filed, x ∈ threads.filed)
    (hsent : ∃ new, threads.sent = s.threads.sent ++ new)
    (hreceived : threads.received = s.threads.received) :
    Effect s { s with threads := threads } where
  orderly := horderly
  served := hserved
  filed := hfiled
  sent := hsent
  received := hreceived
  path := rfl
  handled _ := id
  typed _ := .inl
  replies _ := id
  reply _ := .inl

/-- The handler of a request is one for its types. -/
theorem typed_getLocalHandler {rt : ServiceRuntime T} {r : RemoteRequest} :
    (⟨r, rt.getLocalHandler r.topic r.reqType r.repType⟩ : Handling T).Typed := by
  intro handler h
  rw [ServiceRuntime.getLocalHandler, HandlerStorage.getFirstHandler] at h
  exact List.find?_some h

theorem effect_execute {r : RemoteRequest} {rest : List RemoteRequest} (hreply : s.reply = none)
    (hbatch : s.requestBatch = r :: rest) : Effect s (s.execute r rest) where
  orderly := id
  served _ _ := id
  filed _ := id
  sent := ⟨[], (List.append_nil _).symm⟩
  received := rfl
  path := by simp [ServicePeer.path, execute, hbatch]
  handled _ := List.mem_append_left _
  typed h hh := by
    refine (List.mem_append.mp hh).imp_right fun hh => ?_
    obtain rfl := List.mem_singleton.mp hh
    refine ⟨typed_getLocalHandler, ?_⟩
    rintro f ⟨handler, hhandler, rfl⟩
    exact congrArg (Option.map _) hhandler
  replies f hf := by
    rw [hreply] at hf
    cases hf
  reply f hf := by
    obtain ⟨handler, hhandler, rfl⟩ := Option.map_eq_some_iff.mp hf
    exact .inr ⟨_, List.mem_append_right _ List.mem_cons_self, handler, hhandler, rfl⟩

theorem effect_threads {a : ServiceThreads.Action T} {threads : ServiceThreads T}
    (ha : ∀ r, a ≠ .receive r) (h : s.threads.next a = some threads) :
    Effect s { s with threads := threads } := by
  obtain ⟨hfiled, hsent, hreceived⟩ := ServiceThreads.grows h
  refine .of_threads (fun ho => ho.next h) (fun ho hn hs => hs.next ho hn h) hfiled hsent
    (hreceived.resolve_right ?_)
  rintro ⟨r, hr, -⟩
  exact ha r hr

/-- **One step of a process.** -/
theorem effect {a : Action T} (h : s.next a = some t) : Effect s t := by
  cases a with
  | call a =>
      cases a with
      | request i topic nodeUuid handler =>
          obtain ⟨threads, hthreads, rfl⟩ := Option.map_eq_some_iff.mp h
          exact effect_threads (by simp) hthreads
      | datagram i fromIp m now =>
          obtain ⟨threads, hthreads, rfl⟩ := Option.map_eq_some_iff.mp h
          exact effect_threads (by simp) hthreads
      | advance i io =>
          obtain ⟨threads, hthreads, rfl⟩ := Option.map_eq_some_iff.mp h
          exact effect_threads (by simp) hthreads
      | receive r => cases h
      | takeBatch => cases h
      | serve => cases h
  | discovery i a =>
      obtain ⟨threads, hthreads, rfl⟩ := Option.map_eq_some_iff.mp h
      refine .of_threads (fun ho => ho.discovery hthreads)
        (fun _ _ hs => hs.discovery hthreads) ?_ ?_ ?_
      all_goals obtain ⟨d, connections, c, -, -, rfl⟩ := ServiceThreads.discovery_eq hthreads
      · exact fun x => id
      · exact ⟨[], (List.append_nil _).symm⟩
      · rfl
  | addResponder topic nodeUuid handler =>
      obtain rfl := Option.some.inj h
      exact .of_threads (fun ho => ho.responders _)
        (fun _ _ hs => ⟨hs.table, hs.received, hs.removing⟩) (fun x => id)
        ⟨[], (List.append_nil _).symm⟩ rfl
  | removeResponders topic nodeUuid =>
      obtain rfl := Option.some.inj h
      exact .of_threads (fun ho => ho.responders _)
        (fun _ _ hs => ⟨hs.table, hs.received, hs.removing⟩) (fun x => id)
        ⟨[], (List.append_nil _).symm⟩ rfl
  | takeBatch =>
      obtain ⟨hdone, h⟩ := Option.ite_none_right_eq_some.mp h
      obtain ⟨threads, hthreads, rfl⟩ := Option.map_eq_some_iff.mp h
      have he := effect_threads (by simp) hthreads
      refine ⟨he.orderly, he.served, he.filed, he.sent, he.received, ?_, he.handled, he.typed,
        he.replies, he.reply⟩
      simp [ServicePeer.path, hdone.1]
  | execute =>
      simp only [next] at h
      split at h
      case h_1 r rest hreply hbatch =>
        obtain rfl := Option.some.inj h
        exact effect_execute hreply hbatch
      case h_2 => cases h
  | serve =>
      obtain ⟨-, h⟩ := Option.ite_none_right_eq_some.mp h
      obtain ⟨threads, hthreads, rfl⟩ := Option.map_eq_some_iff.mp h
      exact effect_threads (by simp) hthreads

theorem receiveRequest_eq {r : RemoteRequest} (h : s.receiveRequest r = some t) :
    t = { s with requestQueue := s.requestQueue ++ [r] } := by
  simp only [receiveRequest] at h
  split at h
  case h_1 => cases h
  case h_2 => exact (Option.some.inj h).symm

theorem receiveResponse_eq {r : RemoteResponse} (h : s.receiveResponse r = some t) :
    t = { s with
      threads.responseQueue := s.threads.responseQueue ++ [r]
      threads.received := r :: s.threads.received } := by
  obtain ⟨threads, hthreads, rfl⟩ := Option.map_eq_some_iff.mp h
  simp only [ServiceThreads.next] at hthreads
  split at hthreads
  case h_1 => cases hthreads
  case h_2 =>
    obtain rfl := Option.some.inj hthreads
    rfl

theorem sendReply_eq {io : SocketIo} {sent : List ResponseFrames}
    (h : s.sendReply io = some (t, sent)) :
    ∃ f, s.reply = some f ∧ t = { s with reply := none } ∧
      sent = if io.send f.routingId then [f] else [] := by
  simp only [sendReply] at h
  split at h
  case h_1 f _ hf =>
    cases h
    exact ⟨f, hf, rfl, rfl⟩
  case h_2 => cases h

end ServicePeer

/-! ## Many processes -/

/-- Any number of processes and the messages on their way, each with the process that sent it;
and, which the code does not have, the requests that came in, each with the process that it
came to. -/
structure CallNet (ι T : Type) [ProtoTypes T] where
  procs : ι → ServicePeer T
  requests : List (ι × RequestFrames) := []
  responses : List (ι × ResponseFrames) := []
  arrived : List (ι × RemoteRequest) := []

namespace CallNet

variable {ι : Type} [DecidableEq ι]

/-- What can happen. -/
inductive Action (ι T : Type) [ProtoTypes T]
  | act (p : ι) (a : ServicePeer.Action T)
  /-- A request of `p` reaches the replier of `q`, which knows the connection as `id`. -/
  | deliverRequest (p q : ι) (id : Str) (m : RequestFrames)
  | loseRequest (p : ι) (m : RequestFrames)
  | sendReply (q : ι) (io : SocketIo)
  /-- A response of `q` reaches the requester of `p`. -/
  | deliverResponse (q p : ι) (f : ResponseFrames)
  | loseResponse (q : ι) (f : ResponseFrames)

/-- A process changes. -/
def setProc (s : CallNet ι T) (p : ι) (x : ServicePeer T) : CallNet ι T :=
  { s with procs := Function.update s.procs p x }

-- The process at the other end of the connection that a replier has an identity for.
variable (peer : ι → Str → Option ι)

/-- One step. -/
def next (s : CallNet ι T) : Action ι T → Option (CallNet ι T)
  | .act p a =>
    ((s.procs p).next a).map fun t =>
      let new := t.threads.sent.drop (s.procs p).threads.sent.length
      { s.setProc p t with requests := s.requests ++ new.map (p, ·) }
  | .deliverRequest p q id m =>
    if (p, m) ∈ s.requests ∧ m.socketId = (s.procs q).threads.rt.replierUuid ∧
        peer q id = some p then
      ((s.procs q).receiveRequest (m.receiveRequest id)).map fun t =>
        { s.setProc q t with
          requests := s.requests.erase (p, m)
          arrived := s.arrived ++ [(q, m.receiveRequest id)] }
    else none
  | .loseRequest p m => some { s with requests := s.requests.erase (p, m) }
  | .sendReply q io =>
    ((s.procs q).sendReply io).map fun (t, sent) =>
      { s.setProc q t with responses := s.responses ++ sent.map (q, ·) }
  | .deliverResponse q p f =>
    if (q, f) ∈ s.responses ∧ peer q f.routingId = some p then
      ((s.procs p).receiveResponse f.receiveResponse).map fun t =>
        { s.setProc p t with responses := s.responses.erase (q, f) }
    else none
  | .loseResponse q f => some { s with responses := s.responses.erase (q, f) }

/-- Processes that have just started. -/
def start (uuid name hostAddr replierUuid replierAddress : ι → Str) : CallNet ι T where
  procs p := { threads := .start (uuid p) (name p) (hostAddr p) (replierUuid p) (replierAddress p) }

/-- A request that came in is one that `p` made under the uuid. -/
def IsFrom (p : ι) (u : Str) (x : ι × RemoteRequest) : Prop :=
  peer x.1 x.2.replyRoutingId = some p ∧ x.2.reqUuid = u

instance (p : ι) (u : Str) (x : ι × RemoteRequest) : Decidable (IsFrom peer p u x) :=
  inferInstanceAs (Decidable (_ = _ ∧ _ = _))

/-- What is known of the messages. -/
structure Accounted (s : CallNet ι T) : Prop where
  orderly : ∀ p, (s.procs p).threads.Orderly
  requests : ∀ p m, (p, m) ∈ s.requests → m ∈ (s.procs p).threads.sent
  once : ∀ p u, s.requests.countP (fun x => x.1 = p ∧ x.2.reqUuid = u) +
    s.arrived.countP (IsFrom peer p u ·) ≤ (s.procs p).threads.sent.countP (·.reqUuid = u)
  arrived : ∀ q r, (q, r) ∈ s.arrived → ∃ p, peer q r.replyRoutingId = some p ∧
    ∃ m ∈ (s.procs p).threads.sent, r = m.receiveRequest r.replyRoutingId
  path : ∀ q, (s.procs q).path = (s.arrived.filter (·.1 = q)).map (·.2)
  typed : ∀ q, ∀ h ∈ (s.procs q).handled, h.Typed
  reply : ∀ q f, (s.procs q).reply = some f → ∃ h ∈ (s.procs q).handled, h.Answers f
  responses : ∀ q f, (q, f) ∈ s.responses → ∃ h ∈ (s.procs q).handled, h.Answers f
  received : ∀ p, ∀ r ∈ (s.procs p).threads.received, ∃ q f, peer q f.routingId = some p ∧
    (∃ h ∈ (s.procs q).handled, h.Answers f) ∧ r = f.receiveResponse

variable {peer} {s t : CallNet ι T}

@[simp] theorem procs_setProc_self (s : CallNet ι T) (p : ι) (x : ServicePeer T) :
    (s.setProc p x).procs p = x := Function.update_self ..

theorem procs_setProc_of_ne (s : CallNet ι T) {p q : ι} (h : q ≠ p) (x : ServicePeer T) :
    (s.setProc p x).procs q = s.procs q := Function.update_of_ne h ..

/-- What holds of the old states and of the new one of a process holds of all. -/
theorem forall_setProc {P : ι → ServicePeer T → Prop} {p : ι} {x : ServicePeer T}
    (h : ∀ q, P q (s.procs q)) (hx : P p x) (q : ι) : P q ((s.setProc p x).procs q) := by
  by_cases hq : q = p
  · subst hq
    rw [procs_setProc_self]
    exact hx
  · rw [procs_setProc_of_ne s hq]
    exact h q

/-- What the new state has in common with the old one is the same in all. -/
theorem same_setProc {β : Type} (f : ServicePeer T → β) {p : ι} {x : ServicePeer T}
    (h : f x = f (s.procs p)) (q : ι) : f ((s.setProc p x).procs q) = f (s.procs q) :=
  forall_setProc (P := fun q x => f x = f (s.procs q)) (fun _ => rfl) h q

/-- What a process keeps stays where it is. -/
theorem mem_setProc {β : Type} (f : ServicePeer T → List β) {p q : ι} {x : ServicePeer T} {b : β}
    (h : ∀ b ∈ f (s.procs p), b ∈ f x) (hb : b ∈ f (s.procs q)) :
    b ∈ f ((s.setProc p x).procs q) :=
  forall_setProc (P := fun q x => ∀ b ∈ f (s.procs q), b ∈ f x) (fun _ _ => id) h q b hb

/-! ## What is known of the messages -/

/-- What was handled stays, so what is an answer stays one. -/
theorem answers_setProc {p q : ι} {x : ServicePeer T} {f : ResponseFrames}
    (h : ∀ d ∈ (s.procs p).handled, d ∈ x.handled)
    (hf : ∃ d ∈ (s.procs q).handled, d.Answers f) :
    ∃ d ∈ ((s.setProc p x).procs q).handled, d.Answers f := by
  obtain ⟨d, hd, ha⟩ := hf
  exact ⟨d, mem_setProc (·.handled) h hd, ha⟩

/-- What is sent anew is counted where it is. -/
theorem once_act {p : ι} {x : ServicePeer T} {new : List RequestFrames} (hs : s.Accounted peer)
    (hnew : x.threads.sent = (s.procs p).threads.sent ++ new) (q : ι) (u : Str) :
    (s.requests ++ new.map (p, ·)).countP (fun x => x.1 = q ∧ x.2.reqUuid = u) +
      s.arrived.countP (IsFrom peer q u ·) ≤
        ((s.setProc p x).procs q).threads.sent.countP (·.reqUuid = u) := by
  have honce := hs.once q u
  rw [List.countP_append, List.countP_map]
  by_cases hq : q = p
  · subst hq
    have hcount : new.countP ((fun x : ι × RequestFrames => decide (x.1 = q ∧ x.2.reqUuid = u)) ∘
        (q, ·)) = new.countP (·.reqUuid = u) :=
      List.countP_congr fun m _ => by simp
    rw [procs_setProc_self, hnew, List.countP_append, hcount]
    omega
  · have hzero : new.countP ((fun x : ι × RequestFrames => decide (x.1 = q ∧ x.2.reqUuid = u)) ∘
        (p, ·)) = 0 := by
      rw [List.countP_eq_zero]
      intro m _
      simp [Ne.symm hq]
    rw [procs_setProc_of_ne s hq, hzero]
    exact honce

/-- A process takes a step, and what it sends sets out. -/
theorem act_eq {p : ι} {a : ServicePeer.Action T} (h : s.next peer (.act p a) = some t) :
    ∃ x new, ServicePeer.Effect (s.procs p) x ∧
      x.threads.sent = (s.procs p).threads.sent ++ new ∧
      t = { s.setProc p x with requests := s.requests ++ new.map (p, ·) } := by
  obtain ⟨x, hx, rfl⟩ := Option.map_eq_some_iff.mp h
  have he := ServicePeer.effect hx
  obtain ⟨new, hnew⟩ := he.sent
  have hdrop : x.threads.sent.drop (s.procs p).threads.sent.length = new := by
    rw [hnew, List.drop_left]
  exact ⟨x, new, he, hnew, by rw [hdrop]⟩

theorem Accounted.act {p : ι} {a : ServicePeer.Action T} (hs : s.Accounted peer)
    (h : s.next peer (.act p a) = some t) : t.Accounted peer := by
  obtain ⟨x, new, he, hnew, rfl⟩ := act_eq h
  have hsent : ∀ m ∈ (s.procs p).threads.sent, m ∈ x.threads.sent := by
    rw [hnew]
    exact fun m => List.mem_append_left _
  refine ⟨?_, ?_, once_act hs hnew, ?_, ?_, ?_, ?_, ?_, ?_⟩
  · exact forall_setProc (P := fun _ x => x.threads.Orderly) hs.orderly (he.orderly (hs.orderly p))
  · intro q m hm
    rcases List.mem_append.mp hm with hm | hm
    · exact mem_setProc (·.threads.sent) hsent (hs.requests q m hm)
    · obtain ⟨m', hm', heq⟩ := List.mem_map.mp hm
      obtain ⟨rfl, rfl⟩ := Prod.mk.inj heq
      show m' ∈ ((s.setProc p x).procs p).threads.sent
      rw [procs_setProc_self, hnew]
      exact List.mem_append_right _ hm'
  · intro q r hr
    obtain ⟨p', hp', m, hm, heq⟩ := hs.arrived q r hr
    exact ⟨p', hp', m, mem_setProc (·.threads.sent) hsent hm, heq⟩
  · exact forall_setProc (P := fun q x => x.path = (s.arrived.filter (·.1 = q)).map (·.2)) hs.path
      (he.path.trans (hs.path p))
  · refine forall_setProc (P := fun _ x => ∀ d ∈ x.handled, d.Typed) hs.typed fun d hd => ?_
    rcases he.typed d hd with hd | ⟨htyped, -⟩
    · exact hs.typed p d hd
    · exact htyped
  · refine forall_setProc (P := fun _ x => ∀ f, x.reply = some f → ∃ d ∈ x.handled, d.Answers f)
      hs.reply fun f hf => ?_
    rcases he.reply f hf with hf | hd
    · obtain ⟨d, hd, ha⟩ := hs.reply p f hf
      exact ⟨d, he.handled d hd, ha⟩
    · exact hd
  · exact fun q f hf => answers_setProc he.handled (hs.responses q f hf)
  · have hreceived := forall_setProc (P := fun q x => ∀ r ∈ x.threads.received,
      r ∈ (s.procs q).threads.received) (fun q r => id) (by rw [he.received]; exact fun r => id)
    intro q r hr
    obtain ⟨q', f, hpeer, hd, heq⟩ := hs.received q r (hreceived q r hr)
    exact ⟨q', f, hpeer, answers_setProc he.handled hd, heq⟩

/-- A step in which no process sends or handles a request. -/
structure Quiet (s t : CallNet ι T) : Prop where
  sent : ∀ q, (t.procs q).threads.sent = (s.procs q).threads.sent
  handled : ∀ q, (t.procs q).handled = (s.procs q).handled
  orderly : ∀ q, (s.procs q).threads.Orderly → (t.procs q).threads.Orderly
  requests : ∀ x ∈ t.requests, x ∈ s.requests
  reply : ∀ q f, (t.procs q).reply = some f → (s.procs q).reply = some f
  responses : ∀ q f, (q, f) ∈ t.responses → (q, f) ∈ s.responses ∨ (s.procs q).reply = some f

/-- All steps but those of the processes by themselves. -/
theorem quiet_next {a : Action ι T} (ha : ∀ p b, a ≠ .act p b) (h : s.next peer a = some t) :
    Quiet s t := by
  cases a with
  | act p b => exact absurd rfl (ha p b)
  | deliverRequest p q uuid m =>
      obtain ⟨-, h⟩ := Option.ite_none_right_eq_some.mp h
      obtain ⟨x, hx, rfl⟩ := Option.map_eq_some_iff.mp h
      obtain rfl := ServicePeer.receiveRequest_eq hx
      refine ⟨?_, ?_, ?_, fun _ => List.mem_of_mem_erase, ?_, fun _ _ => .inl⟩
      · exact same_setProc (·.threads.sent) rfl
      · exact same_setProc (·.handled) rfl
      · exact forall_setProc (P := fun q x => (s.procs q).threads.Orderly → x.threads.Orderly)
          (fun _ => id) id
      · exact forall_setProc (P := fun q x => ∀ f, x.reply = some f → (s.procs q).reply = some f)
          (fun _ _ => id) fun _ => id
  | loseRequest p m =>
      obtain rfl := Option.some.inj h
      exact ⟨fun _ => rfl, fun _ => rfl, fun _ => id, fun _ => List.mem_of_mem_erase,
        fun _ _ => id, fun _ _ => .inl⟩
  | sendReply q io =>
      obtain ⟨⟨x, sent⟩, hx, rfl⟩ := Option.map_eq_some_iff.mp h
      obtain ⟨f, hf, rfl, rfl⟩ := ServicePeer.sendReply_eq hx
      refine ⟨?_, ?_, ?_, fun _ => id, ?_, ?_⟩
      · exact same_setProc (·.threads.sent) rfl
      · exact same_setProc (·.handled) rfl
      · exact forall_setProc (P := fun q x => (s.procs q).threads.Orderly → x.threads.Orderly)
          (fun _ => id) id
      · exact forall_setProc (P := fun q x => ∀ f, x.reply = some f → (s.procs q).reply = some f)
          (fun _ _ => id) fun _ h => by cases h
      · intro q' f' hf'
        refine (List.mem_append.mp hf').imp_right fun hf' => ?_
        obtain ⟨f'', hsent, heq⟩ := List.mem_map.mp hf'
        obtain ⟨rfl, rfl⟩ := Prod.mk.inj heq
        split at hsent
        case isTrue => rwa [List.mem_singleton.mp hsent]
        case isFalse => cases hsent
  | deliverResponse q p f =>
      obtain ⟨-, h⟩ := Option.ite_none_right_eq_some.mp h
      obtain ⟨x, hx, rfl⟩ := Option.map_eq_some_iff.mp h
      have horderly : (s.procs p).threads.Orderly → x.threads.Orderly := by
        obtain ⟨threads, hthreads, rfl⟩ := Option.map_eq_some_iff.mp hx
        exact fun ho => ho.next hthreads
      obtain rfl := ServicePeer.receiveResponse_eq hx
      refine ⟨?_, ?_, ?_, fun _ => id, ?_, fun _ _ hf => .inl (List.mem_of_mem_erase hf)⟩
      · exact same_setProc (·.threads.sent) rfl
      · exact same_setProc (·.handled) rfl
      · exact forall_setProc (P := fun q x => (s.procs q).threads.Orderly → x.threads.Orderly)
          (fun _ => id) horderly
      · exact forall_setProc (P := fun q x => ∀ f, x.reply = some f → (s.procs q).reply = some f)
          (fun _ _ => id) fun _ => id
  | loseResponse q f =>
      obtain rfl := Option.some.inj h
      exact ⟨fun _ => rfl, fun _ => rfl, fun _ => id, fun _ => id, fun _ _ => id,
        fun _ _ hf => .inl (List.mem_of_mem_erase hf)⟩

/-- What a process has taken in is what it had, and a response that was on its way to it. -/
def TakesIn (peer : ι → Str → Option ι) (s : CallNet ι T) (p : ι) (x : ServicePeer T) : Prop :=
  ∀ r ∈ x.threads.received, r ∈ (s.procs p).threads.received ∨
    ∃ q f, peer q f.routingId = some p ∧ (q, f) ∈ s.responses ∧ r = f.receiveResponse

/-- Requests arrive, responses go out and arrive, or something is lost. -/
theorem Accounted.quiet (hs : s.Accounted peer) (hq : Quiet s t)
    (honce : ∀ p u, t.requests.countP (fun x => x.1 = p ∧ x.2.reqUuid = u) +
      t.arrived.countP (IsFrom peer p u ·) ≤
        s.requests.countP (fun x => x.1 = p ∧ x.2.reqUuid = u) +
          s.arrived.countP (IsFrom peer p u ·))
    (harrived : ∀ q r, (q, r) ∈ t.arrived → (q, r) ∈ s.arrived ∨
      ∃ p, peer q r.replyRoutingId = some p ∧
        ∃ m ∈ (s.procs p).threads.sent, r = m.receiveRequest r.replyRoutingId)
    (hpath : ∀ q, (t.procs q).path = (t.arrived.filter (·.1 = q)).map (·.2))
    (hreceived : ∀ p, TakesIn peer s p (t.procs p)) : t.Accounted peer where
  orderly q := hq.orderly q (hs.orderly q)
  requests p m hm := by
    rw [hq.sent]
    exact hs.requests p m (hq.requests _ hm)
  once p u := by
    rw [hq.sent]
    exact (honce p u).trans (hs.once p u)
  arrived q r hr := by
    have hold := (harrived q r hr).elim (hs.arrived q r) id
    simpa only [hq.sent] using hold
  path := hpath
  typed q := by
    rw [hq.handled]
    exact hs.typed q
  reply q f hf := by
    rw [hq.handled]
    exact hs.reply q f (hq.reply q f hf)
  responses q f hf := by
    rw [hq.handled]
    exact (hq.responses q f hf).elim (hs.responses q f) (hs.reply q f)
  received p r hr := by
    rcases hreceived p r hr with hr | ⟨q, f, hpeer, hf, heq⟩
    · obtain ⟨q, f, hpeer, hd, heq⟩ := hs.received p r hr
      exact ⟨q, f, hpeer, by rwa [hq.handled], heq⟩
    · exact ⟨q, f, hpeer, by rw [hq.handled]; exact hs.responses q f hf, heq⟩

/-- A request that is on its way was counted there. -/
theorem countP_erase {α : Type} [BEq α] [LawfulBEq α] {l : List α} {x : α} (h : x ∈ l)
    (P : α → Bool) : l.countP P = (l.erase x).countP P + if P x then 1 else 0 := by
  rw [(List.perm_cons_erase h).countP_eq P, List.countP_cons]

theorem Accounted.deliverRequest {p q : ι} {uuid : Str} {m : RequestFrames}
    (hs : s.Accounted peer) (h : s.next peer (.deliverRequest p q uuid m) = some t) :
    t.Accounted peer := by
  have hq := quiet_next (by simp) h
  obtain ⟨⟨hm, -, hpeer⟩, h⟩ := Option.ite_none_right_eq_some.mp h
  obtain ⟨x, hx, rfl⟩ := Option.map_eq_some_iff.mp h
  obtain rfl := ServicePeer.receiveRequest_eq hx
  refine hs.quiet hq ?_ ?_ ?_ ?_
  · intro p' u
    have hfrom : IsFrom peer p' u (q, m.receiveRequest uuid) ↔ p = p' ∧ m.reqUuid = u := by
      simp [IsFrom, RequestFrames.receiveRequest, hpeer]
    show (s.requests.erase (p, m)).countP _ + (s.arrived ++ [_]).countP _ ≤ _
    rw [List.countP_append, List.countP_singleton, countP_erase hm]
    simp only [decide_eq_true_eq, hfrom]
    omega
  · intro q' r hr
    refine (List.mem_append.mp hr).imp_right fun hr => ?_
    obtain ⟨rfl, rfl⟩ := Prod.mk.inj (List.mem_singleton.mp hr)
    exact ⟨p, hpeer, m, hs.requests p m hm, rfl⟩
  · intro q'
    have hpath := hs.path q'
    show _ = ((s.arrived ++ [_]).filter _).map _
    rw [List.filter_append, List.map_append, ← hpath]
    by_cases hq : q' = q
    · subst hq
      rw [procs_setProc_self]
      simp [ServicePeer.path]
    · rw [procs_setProc_of_ne s hq]
      simp [Ne.symm hq]
  · refine forall_setProc (P := TakesIn peer s) ?_ ?_
    · exact fun _ _ => .inl
    · exact fun _ => .inl

theorem Accounted.loseRequest {p : ι} {m : RequestFrames} (hs : s.Accounted peer)
    (h : s.next peer (.loseRequest p m) = some t) : t.Accounted peer := by
  have hq := quiet_next (by simp) h
  obtain rfl := Option.some.inj h
  refine hs.quiet hq ?_ (fun _ _ => .inl) hs.path fun _ _ => .inl
  intro q u
  exact Nat.add_le_add_right (List.erase_sublist.countP_le) _

theorem Accounted.sendReply {q : ι} {io : SocketIo} (hs : s.Accounted peer)
    (h : s.next peer (.sendReply q io) = some t) : t.Accounted peer := by
  have hq := quiet_next (by simp) h
  obtain ⟨⟨x, sent⟩, hx, rfl⟩ := Option.map_eq_some_iff.mp h
  obtain ⟨f, hf, rfl, rfl⟩ := ServicePeer.sendReply_eq hx
  refine hs.quiet hq (fun _ _ => Nat.le_refl _) (fun _ _ => .inl) ?_ ?_
  · exact forall_setProc (P := fun q x => x.path = (s.arrived.filter (·.1 = q)).map (·.2))
      hs.path (hs.path q)
  · refine forall_setProc (P := TakesIn peer s) ?_ ?_
    · exact fun _ _ => .inl
    · exact fun _ => .inl

theorem Accounted.deliverResponse {q p : ι} {f : ResponseFrames} (hs : s.Accounted peer)
    (h : s.next peer (.deliverResponse q p f) = some t) : t.Accounted peer := by
  have hq := quiet_next (by simp) h
  obtain ⟨⟨hf, hpeer⟩, h⟩ := Option.ite_none_right_eq_some.mp h
  obtain ⟨x, hx, rfl⟩ := Option.map_eq_some_iff.mp h
  obtain rfl := ServicePeer.receiveResponse_eq hx
  refine hs.quiet hq (fun _ _ => Nat.le_refl _) (fun _ _ => .inl) ?_ ?_
  · exact forall_setProc (P := fun q x => x.path = (s.arrived.filter (·.1 = q)).map (·.2))
      hs.path (hs.path p)
  · refine forall_setProc (P := TakesIn peer s) (fun _ _ => .inl) fun r hr => ?_
    rcases List.mem_cons.mp hr with rfl | hr
    · exact .inr ⟨q, f, hpeer, hf, rfl⟩
    · exact .inl hr

/-- **One step.** -/
theorem Accounted.next (hs : s.Accounted peer) {a : Action ι T} (h : s.next peer a = some t) :
    t.Accounted peer := by
  cases a with
  | act p a => exact hs.act h
  | deliverRequest p q id m => exact hs.deliverRequest h
  | loseRequest p m => exact hs.loseRequest h
  | sendReply q io => exact hs.sendReply h
  | deliverResponse q p f => exact hs.deliverResponse h
  | loseResponse q f =>
      have hq := quiet_next (by simp) h
      obtain rfl := Option.some.inj h
      exact hs.quiet hq (fun _ _ => Nat.le_refl _) (fun _ _ => .inl) hs.path fun _ _ => .inl

theorem accounted_start (uuid name hostAddr replierUuid replierAddress : ι → Str) :
    (start uuid name hostAddr replierUuid replierAddress : CallNet ι T).Accounted peer where
  orderly p := ServiceThreads.orderly_start ..
  requests p m hm := by cases hm
  once p u := Nat.zero_le _
  arrived q r hr := by cases hr
  path q := rfl
  typed q d hd := by cases hd
  reply q f hf := by cases hf
  responses q f hf := by cases hf
  received p r hr := by cases hr

/-! ## Once -/

variable (peer) in
/-- What was handled is the request of a handler of `p`. -/
structure IsOf (q : ι) (d : Handling T) (p : ι) (x : Filed T) : Prop where
  connection : peer q d.request.replyRoutingId = some p
  topic : d.request.topic = x.topic
  nodeUuid : d.request.nodeUuid = x.nodeUuid
  reqUuid : d.request.reqUuid = x.handler.handlerUuid
  reqData : x.handler.serialize = some d.request.reqData
  reqType : d.request.reqType = x.handler.getReqTypeName
  repType : d.request.repType = x.handler.getRepTypeName

omit [DecidableEq ι] in
theorem IsOf.isFrom {q : ι} {d : Handling T} {p : ι} {x : Filed T} (h : IsOf peer q d p x) :
    IsFrom peer p x.handler.handlerUuid (q, d.request) :=
  ⟨h.connection, h.reqUuid⟩

omit [DecidableEq ι] in
/-- The frames that came in carry the request of the handler. -/
theorem IsOf.of_carries {q : ι} {d : Handling T} {uuid : Str} {m : RequestFrames} {p : ι}
    {x : Filed T} (hpeer : peer q uuid = some p) (hd : d.request = m.receiveRequest uuid)
    (h : m.Carries x) : IsOf peer q d p x := by
  refine ⟨?_, ?_, ?_, ?_, ?_, ?_, ?_⟩
  all_goals rw [hd]
  · exact hpeer
  · exact h.topic
  · exact h.nodeUuid
  · exact h.reqUuid
  · exact h.reqData
  · exact h.reqType
  · exact h.repType

omit [DecidableEq ι] in
/-- The result comes back as it was. -/
theorem result_answer (handler : RepHandler T) (r : RemoteRequest) :
    ((handler.answer r).receiveResponse.repData,
      decide ((handler.answer r).receiveResponse.resultStr = str "1")) =
        handler.runCallback r.reqData := by
  have hzero : str "0" ≠ str "1" := by decide
  refine Prod.ext rfl ?_
  by_cases hok : (handler.runCallback r.reqData).2 = true
  · simp [RepHandler.answer, ResponseFrames.receiveResponse, hok]
  · simp [RepHandler.answer, ResponseFrames.receiveResponse, hok, hzero]

/-- What was handled has come in. -/
theorem Accounted.mem_arrived (hs : s.Accounted peer) {q : ι} {d : Handling T}
    (hd : d ∈ (s.procs q).handled) : (q, d.request) ∈ s.arrived := by
  have hpath : d.request ∈ (s.procs q).path :=
    List.mem_append_left _ (List.mem_append_left _ (List.mem_map_of_mem hd))
  rw [hs.path, List.mem_map] at hpath
  obtain ⟨⟨q', r⟩, hfilter, heq⟩ := hpath
  obtain ⟨hr, hq⟩ := List.mem_filter.mp hfilter
  obtain rfl : q' = q := of_decide_eq_true hq
  obtain rfl : r = d.request := heq
  exact hr

/-- **Nothing is handled that nobody asked for.** -/
theorem Accounted.exists_isOf (hs : s.Accounted peer) {q : ι} {d : Handling T}
    (hd : d ∈ (s.procs q).handled) : ∃ p, ∃ x ∈ (s.procs p).threads.filed, IsOf peer q d p x := by
  obtain ⟨p, hpeer, m, hm, heq⟩ := hs.arrived q d.request (hs.mem_arrived hd)
  obtain ⟨x, hx, hcarries⟩ := (hs.orderly p).sentFiled.sent m hm
  exact ⟨p, x, hx, .of_carries hpeer heq hcarries⟩

/-- A request comes in once at most. -/
theorem Accounted.countP_arrived_le (hs : s.Accounted peer) (p : ι) (u : Str) :
    s.arrived.countP (IsFrom peer p u ·) ≤ 1 := by
  have honce := hs.once p u
  have hsent := (hs.orderly p).sentOnce.once u
  omega

/-- A request is handled once at most where it came in. -/
theorem Accounted.countP_handled_le (hs : s.Accounted peer) (p q : ι) (u : Str) :
    (s.procs q).handled.countP (fun d => IsFrom peer p u (q, d.request)) ≤ 1 := by
  have hpath : (s.procs q).path.countP (fun r => IsFrom peer p u (q, r)) =
      (s.arrived.filter (·.1 = q)).countP (IsFrom peer p u ·) := by
    rw [hs.path, List.countP_map]
    refine List.countP_congr fun x hx => ?_
    obtain rfl : x.1 = q := of_decide_eq_true (List.mem_filter.mp hx).2
    rfl
  have hhandled : (s.procs q).handled.countP (fun d => IsFrom peer p u (q, d.request)) =
      ((s.procs q).handled.map (·.request)).countP (fun r => IsFrom peer p u (q, r)) := by
    rw [List.countP_map]
    rfl
  have hfilter := (List.filter_sublist (p := fun x : ι × RemoteRequest => decide (x.1 = q))
    (l := s.arrived)).countP_le (p := fun x => decide (IsFrom peer p u x))
  have hle := hs.countP_arrived_le p u
  rw [ServicePeer.path, List.countP_append, List.countP_append] at hpath
  omega

/-- A request comes in at one process only. -/
theorem Accounted.responder_unique (hs : s.Accounted peer) {p q q' : ι} {u : Str}
    {r r' : RemoteRequest} (hr : (q, r) ∈ s.arrived) (hr' : (q', r') ∈ s.arrived)
    (h : IsFrom peer p u (q, r)) (h' : IsFrom peer p u (q', r')) : q = q' := by
  by_contra hne
  have hle := hs.countP_arrived_le p u
  have hmem : (q', r') ∈ s.arrived.erase (q, r) :=
    (List.mem_erase_of_ne fun heq => hne (Prod.mk.inj heq).1.symm).mpr hr'
  have hpos : 0 < (s.arrived.erase (q, r)).countP (IsFrom peer p u ·) :=
    List.countP_pos_iff.mpr ⟨_, hmem, decide_eq_true h'⟩
  rw [countP_erase hr, if_pos (decide_eq_true h)] at hle
  omega

/-- What was taken in is the reply to the request of a handler that was filed. -/
theorem Accounted.exists_of_received (hs : s.Accounted peer) {p : ι} {r : RemoteResponse}
    (hr : r ∈ (s.procs p).threads.received) :
    ∃ x ∈ (s.procs p).threads.filed, r.Names x ∧ ∃ q, ∃ d ∈ (s.procs q).handled,
      IsOf peer q d p x ∧ ∃ handler, d.handler = some handler ∧
        r = (handler.answer d.request).receiveResponse := by
  obtain ⟨q, f, hpeer, ⟨d, hd, handler, hhandler, rfl⟩, rfl⟩ := hs.received p r hr
  obtain ⟨p', x, hx, hof⟩ := hs.exists_isOf hd
  obtain rfl : p' = p := Option.some.inj (hof.connection.symm.trans hpeer)
  exact ⟨x, hx, ⟨hof.topic, hof.nodeUuid, hof.reqUuid⟩, q, d, hd, hof, handler, hhandler, rfl⟩

/-- A handler is notified of what was done at its request, and of nothing else. -/
theorem Accounted.exists_of_notified (hs : s.Accounted peer) {p : ι} {x : Filed T}
    (hx : x ∈ (s.procs p).threads.filed) {n : Notification}
    (hn : n ∈ (s.procs p).threads.notified) (hu : n.handlerUuid = x.handler.handlerUuid) :
    ∃ q, ∃ d ∈ (s.procs q).handled, IsOf peer q d p x ∧ ∃ handler, d.handler = some handler ∧
      handler.handles x.handler.getReqTypeName x.handler.getRepTypeName = true ∧
      (n.repData, n.result) = handler.runCallback d.request.reqData := by
  obtain ⟨y, hy, r, hr, ⟨-, -, hnames⟩, rfl⟩ := (hs.orderly p).answeredOnce.genuine n hn
  obtain rfl := (hs.orderly p).tracked.distinct y hy x hx hu
  obtain ⟨z, hz, ⟨-, -, hnames'⟩, q, d, hd, hof, handler, hhandler, rfl⟩ :=
    hs.exists_of_received hr
  obtain rfl := (hs.orderly p).tracked.distinct z hz y hy (hnames'.symm.trans hnames)
  refine ⟨q, d, hd, hof, handler, hhandler, ?_, ?_⟩
  · rw [← hof.reqType, ← hof.repType]
    exact hs.typed q d hd handler hhandler
  · exact result_answer handler d.request

/-- **Calls are made at most once, and the answer is the answer**, whatever is lost and in
whatever order things happen: nothing is handled that was not asked for; a request is handled
by one process at most and there once; its caller is notified once at most, and then with what
the callback of a handler of the right types made of the data of this very request. -/
theorem called_at_most_once (peer : ι → Str → Option ι)
    (uuid name hostAddr replierUuid replierAddress : ι → Str) (run : List (Action ι T))
    (h : exec (next peer) (start uuid name hostAddr replierUuid replierAddress) run = some s) :
    (∀ q, ∀ d ∈ (s.procs q).handled, ∃ p, ∃ x ∈ (s.procs p).threads.filed, IsOf peer q d p x) ∧
    ∀ p, ∀ x ∈ (s.procs p).threads.filed,
      (∀ q, (s.procs q).handled.countP
        (fun d => IsFrom peer p x.handler.handlerUuid (q, d.request)) ≤ 1) ∧
      (∀ q q', ∀ d ∈ (s.procs q).handled, ∀ d' ∈ (s.procs q').handled,
        IsOf peer q d p x → IsOf peer q' d' p x → q = q') ∧
      (s.procs p).threads.notified.countP (·.handlerUuid = x.handler.handlerUuid) ≤ 1 ∧
      ∀ n ∈ (s.procs p).threads.notified, n.handlerUuid = x.handler.handlerUuid →
        ∃ q, ∃ d ∈ (s.procs q).handled, IsOf peer q d p x ∧ ∃ handler,
          d.handler = some handler ∧
          handler.handles x.handler.getReqTypeName x.handler.getRepTypeName = true ∧
          (n.repData, n.result) = handler.runCallback d.request.reqData := by
  have hs : s.Accounted peer := stable (P := fun s : CallNet ι T => s.Accounted peer)
    (fun _ _ _ hs h => hs.next h) (accounted_start ..) h
  refine ⟨fun q d hd => hs.exists_isOf hd, fun p x hx => ⟨fun q => hs.countP_handled_le p q _,
    ?_, (hs.orderly p).answeredOnce.once _, fun n hn hu => hs.exists_of_notified hx hn hu⟩⟩
  intro q q' d hd d' hd' hof hof'
  exact hs.responder_unique (hs.mem_arrived hd) (hs.mem_arrived hd') hof.isFrom hof'.isFrom

/-! ## An example -/

/-- The second process knows the connection of the first one as c. -/
def examplePeer (q : Bool) (id : Str) : Option Bool :=
  if q ∧ id = str "c" then some false else none

/-- The processes of the example. -/
def exampleStart : CallNet Bool EmptyOnly :=
  start (cond · (str "5b") (str "4a")) (fun _ => [])
    (cond · (str "10.0.0.2") (str "10.0.0.1")) (cond · (str "rep") (str "r"))
    (cond · (str "tcp://b") (str "tcp://r"))

/-- The responder of the second one. -/
def exampleResponder : RepHandler EmptyOnly := ⟨.empty, .empty, str "h1", setUnused⟩

/-- The request of the first one. -/
def exampleFrames : RequestFrames :=
  ⟨str "rep", str "s", str "n", str "q", (ServiceThreads.exampleRequest.serialize).getD [],
    ServiceThreads.exampleRequest.getReqTypeName, ServiceThreads.exampleRequest.getRepTypeName⟩

/-- 4a hears of the service and calls it. -/
def asking : List (Action Bool EmptyOnly) :=
  [.act true (.addResponder (str "s") (str "n2") exampleResponder),
    .act false (.call (.datagram 0 (str "10.0.0.2") (ServiceThreads.advertisementOf
      ServiceThreads.exampleRequest.getReqTypeName ServiceThreads.exampleRequest.getRepTypeName
      (str "n2")) 0))] ++
    List.replicate 4 (.act false (.call (.advance 0 exampleIo))) ++
    [.act false (.call (.request 1 (str "s") (str "n") ServiceThreads.exampleRequest))] ++
    List.replicate 8 (.act false (.call (.advance 1 exampleIo)))

/-- The call is answered. -/
def answering : List (Action Bool EmptyOnly) :=
  [.deliverRequest false true (str "c") exampleFrames, .act true .takeBatch, .act true .execute,
    .sendReply true exampleIo, .act true .serve, .deliverResponse true false
      (exampleResponder.answer (exampleFrames.receiveRequest (str "c"))),
    .act false .takeBatch] ++ List.replicate 4 (.act false .serve)

/-- The state in which the example run ends. -/
def answered : CallNet Bool EmptyOnly :=
  (exec (next examplePeer) exampleStart (asking ++ answering)).getD exampleStart

theorem called_at_most_once_answered :
    (answered.procs false).threads.notified.map (·.result) = [true] ∧
      ∀ n ∈ (answered.procs false).threads.notified, n.handlerUuid = str "q" →
        ∃ q, ∃ d ∈ (answered.procs q).handled,
          IsOf examplePeer q d false ⟨str "s", str "n", ServiceThreads.exampleRequest⟩ ∧
          ∃ handler, d.handler = some handler ∧
            (n.repData, n.result) = handler.runCallback d.request.reqData := by
  have hcalled := called_at_most_once examplePeer _ _ _ _ _ (asking ++ answering)
    (s := answered) (rfl : exec (next examplePeer) exampleStart (asking ++ answering) = _)
  refine ⟨rfl, fun n hn hu => ?_⟩
  obtain ⟨-, -, -, hanswer⟩ :=
    hcalled.2 false ⟨str "s", str "n", ServiceThreads.exampleRequest⟩ List.mem_cons_self
  obtain ⟨q, d, hd, hof, handler, hhandler, -, heq⟩ := hanswer n hn hu
  exact ⟨q, d, hd, hof, handler, hhandler, heq⟩

/-! ## Without losses -/

/-- No message is lost, and no connection breaks while a reply is sent. -/
def Action.Smooth : Action ι T → Prop
  | .loseRequest .. | .loseResponse .. => False
  | .sendReply _ io => io.Up
  | .act .. | .deliverRequest .. | .deliverResponse .. => True

/-- Nothing is on its way, and the service threads have nothing to do. -/
structure AtRest (s : CallNet ι T) : Prop where
  requests : s.requests = []
  responses : s.responses = []
  done : ∀ p, (s.procs p).RequestsDone
  requestQueue : ∀ p, (s.procs p).requestQueue = []
  waiting : ∀ p, (s.procs p).threads.server = .waiting
  responseQueue : ∀ p, (s.procs p).threads.responseQueue = []

/-- A request of `p` is on its way or has come in. -/
def Delivers (peer : ι → Str → Option ι) (s : CallNet ι T) (p : ι) (m : RequestFrames) : Prop :=
  (p, m) ∈ s.requests ∨ ∃ q id, peer q id = some p ∧ (q, m.receiveRequest id) ∈ s.arrived

/-- A reply of `q` is to be sent, is on its way or was taken in. -/
def Returns (peer : ι → Str → Option ι) (s : CallNet ι T) (q : ι) (f : ResponseFrames) : Prop :=
  (s.procs q).reply = some f ∨ (q, f) ∈ s.responses ∨
    ∃ p, peer q f.routingId = some p ∧ f.receiveResponse ∈ (s.procs p).threads.received

/-- Nothing is forgotten. -/
structure Settled (peer : ι → Str → Option ι) (s : CallNet ι T) : Prop where
  served : ∀ p, (s.procs p).threads.Served
  sent : ∀ p, ∀ m ∈ (s.procs p).threads.sent, Delivers peer s p m
  answers : ∀ q, ∀ d ∈ (s.procs q).handled, ∀ f, d.Answers f → Returns peer s q f

theorem Accounted.names (hs : s.Accounted peer) (p : ι) :
    ∀ r ∈ (s.procs p).threads.received, ∃ x ∈ (s.procs p).threads.filed, r.Names x := by
  intro r hr
  obtain ⟨x, hx, hnames, -⟩ := hs.exists_of_received hr
  exact ⟨x, hx, hnames⟩

theorem Settled.act {p : ι} {a : ServicePeer.Action T} (hs : s.Settled peer)
    (ha : s.Accounted peer) (h : s.next peer (.act p a) = some t) : t.Settled peer := by
  obtain ⟨x, new, he, hnew, rfl⟩ := act_eq h
  refine ⟨?_, ?_, ?_⟩
  · exact forall_setProc (P := fun _ x => x.threads.Served) hs.served
      (he.served (ha.orderly p) (ha.names p) (hs.served p))
  · intro q m hm
    have hold : m ∈ (s.procs q).threads.sent ∨ (q, m) ∈ new.map (p, ·) := by
      refine forall_setProc (P := fun q x => ∀ m ∈ x.threads.sent,
        m ∈ (s.procs q).threads.sent ∨ (q, m) ∈ new.map (p, ·)) (fun _ _ => .inl) ?_ q m hm
      intro m hm
      rw [hnew] at hm
      exact (List.mem_append.mp hm).imp_right List.mem_map_of_mem
    rcases hold with hm | hm
    · exact (hs.sent q m hm).imp_left (List.mem_append_left _)
    · exact .inl (List.mem_append_right _ hm)
  · intro q d hd f hf
    have hreply := forall_setProc (P := fun q x => ∀ f, (s.procs q).reply = some f →
      x.reply = some f) (fun _ _ => id) he.replies q f
    have hold := forall_setProc (P := fun q x => ∀ d ∈ x.handled,
      d ∈ (s.procs q).handled ∨ ∀ f, d.Answers f → x.reply = some f) (fun _ _ => .inl)
      (fun d hd => (he.typed d hd).imp_right And.right) q d hd
    rcases hold with hd | hnow
    · refine (hs.answers q d hd f hf).imp hreply (Or.imp_right ?_)
      rintro ⟨p', hp', hr⟩
      exact ⟨p', hp', mem_setProc (·.threads.received) (by rw [he.received]; exact fun _ => id) hr⟩
    · exact .inl (hnow f hf)

omit [DecidableEq ι] in
/-- Requests arrive, responses go out and arrive. -/
theorem Settled.quiet (hs : s.Settled peer) (hq : Quiet s t)
    (hserved : ∀ p, (t.procs p).threads.Served)
    (hrequests : ∀ p m, (p, m) ∈ s.requests → Delivers peer t p m)
    (harrived : ∀ x ∈ s.arrived, x ∈ t.arrived)
    (hreply : ∀ q f, (s.procs q).reply = some f → Returns peer t q f)
    (hresponses : ∀ q f, (q, f) ∈ s.responses → Returns peer t q f)
    (hreceived : ∀ p, ∀ r ∈ (s.procs p).threads.received, r ∈ (t.procs p).threads.received) :
    t.Settled peer where
  served := hserved
  sent p m hm := by
    rw [hq.sent] at hm
    rcases hs.sent p m hm with hm | ⟨q, id, hpeer, hm⟩
    · exact hrequests p m hm
    · exact .inr ⟨q, id, hpeer, harrived _ hm⟩
  answers q d hd f hf := by
    rw [hq.handled] at hd
    rcases hs.answers q d hd f hf with h | h | ⟨p, hpeer, hr⟩
    · exact hreply q f h
    · exact hresponses q f h
    · exact .inr (.inr ⟨p, hpeer, hreceived p _ hr⟩)

theorem keeps_reply {p : ι} {x : ServicePeer T} (h : x.reply = (s.procs p).reply) (q : ι)
    {f : ResponseFrames} (hf : (s.procs q).reply = some f) :
    ((s.setProc p x).procs q).reply = some f :=
  (same_setProc (·.reply) h q).trans hf

theorem Settled.deliverRequest {p q : ι} {uuid : Str} {m : RequestFrames} (hs : s.Settled peer)
    (h : s.next peer (.deliverRequest p q uuid m) = some t) : t.Settled peer := by
  have hq := quiet_next (by simp) h
  obtain ⟨⟨-, -, hpeer⟩, h⟩ := Option.ite_none_right_eq_some.mp h
  obtain ⟨x, hx, rfl⟩ := Option.map_eq_some_iff.mp h
  obtain rfl := ServicePeer.receiveRequest_eq hx
  refine hs.quiet hq ?_ ?_ (fun _ => List.mem_append_left _) ?_ (fun _ _ hf => .inr (.inl hf)) ?_
  · exact forall_setProc (P := fun _ x => x.threads.Served) hs.served (hs.served q)
  · intro p' m' hm'
    by_cases heq : (p', m') = (p, m)
    · obtain ⟨rfl, rfl⟩ := Prod.mk.inj heq
      exact .inr ⟨q, uuid, hpeer, List.mem_append_right _ List.mem_cons_self⟩
    · exact .inl ((List.mem_erase_of_ne heq).mpr hm')
  · exact fun q' f hf => .inl (keeps_reply (by rfl) q' hf)
  · exact fun p' r hr => mem_setProc (·.threads.received) (fun _ => id) hr

theorem Settled.sendReply {q : ι} {io : SocketIo} (hs : s.Settled peer) (hup : io.Up)
    (h : s.next peer (.sendReply q io) = some t) : t.Settled peer := by
  have hq := quiet_next (by simp) h
  obtain ⟨⟨x, sent⟩, hx, rfl⟩ := Option.map_eq_some_iff.mp h
  obtain ⟨f, hf, rfl, rfl⟩ := ServicePeer.sendReply_eq hx
  rw [if_pos (hup.send _)] at hq ⊢
  refine hs.quiet hq ?_ (fun _ _ => .inl) (fun _ => id) ?_ ?_ ?_
  · exact forall_setProc (P := fun _ x => x.threads.Served) hs.served (hs.served q)
  · intro q' f' hf'
    by_cases hqq : q' = q
    · subst hqq
      obtain rfl := Option.some.inj (hf.symm.trans hf')
      exact .inr (.inl (List.mem_append_right _ List.mem_cons_self))
    · exact .inl ((congrArg _ (procs_setProc_of_ne s hqq _)).trans hf')
  · exact fun q' f' hf' => .inr (.inl (List.mem_append_left _ hf'))
  · exact fun p r hr => mem_setProc (·.threads.received) (fun _ => id) hr

theorem Settled.deliverResponse {q p : ι} {f : ResponseFrames} (hs : s.Settled peer)
    (ha : s.Accounted peer) (h : s.next peer (.deliverResponse q p f) = some t) :
    t.Settled peer := by
  have hq := quiet_next (by simp) h
  obtain ⟨⟨-, hpeer⟩, h⟩ := Option.ite_none_right_eq_some.mp h
  obtain ⟨x, hx, rfl⟩ := Option.map_eq_some_iff.mp h
  have hserved : x.threads.Served := by
    obtain ⟨threads, hthreads, rfl⟩ := Option.map_eq_some_iff.mp hx
    exact (hs.served p).next (ha.orderly p) (ha.names p) hthreads
  obtain rfl := ServicePeer.receiveResponse_eq hx
  refine hs.quiet hq ?_ (fun _ _ => .inl) (fun _ => id) ?_ ?_ ?_
  · exact forall_setProc (P := fun _ x => x.threads.Served) hs.served hserved
  · exact fun q' f' hf' => .inl (keeps_reply (by rfl) q' hf')
  · intro q' f' hf'
    by_cases heq : (q', f') = (q, f)
    · obtain ⟨rfl, rfl⟩ := Prod.mk.inj heq
      refine .inr (.inr ⟨p, hpeer, ?_⟩)
      show _ ∈ ((s.setProc p _).procs p).threads.received
      rw [procs_setProc_self]
      exact List.mem_cons_self
    · exact .inr (.inl ((List.mem_erase_of_ne heq).mpr hf'))
  · exact fun p' r hr => mem_setProc (·.threads.received) (fun _ => List.mem_cons_of_mem _) hr

/-- **One step** without losses. -/
theorem Settled.next (hs : s.Settled peer) (ha : s.Accounted peer) {a : Action ι T}
    (hsmooth : a.Smooth) (h : s.next peer a = some t) : t.Settled peer := by
  cases a with
  | act p a => exact hs.act ha h
  | deliverRequest p q id m => exact hs.deliverRequest h
  | loseRequest p m => cases hsmooth
  | sendReply q io => exact hs.sendReply hsmooth h
  | deliverResponse q p f => exact hs.deliverResponse ha h
  | loseResponse q f => cases hsmooth

omit [DecidableEq ι] in
theorem settled_start (uuid name hostAddr replierUuid replierAddress : ι → Str) :
    (start uuid name hostAddr replierUuid replierAddress : CallNet ι T).Settled peer where
  served p := by
    refine ⟨fun x hx => ?_, fun r hr => ?_, fun r rest hr => ?_⟩
    · cases hx
    · cases hr
    · cases hr
  sent p m hm := by cases hm
  answers q d hd := by cases hd

/-- What has come in at a service thread with nothing to do was handled. -/
theorem Accounted.exists_handled (hs : s.Accounted peer) (hrest : s.AtRest) {q : ι}
    {r : RemoteRequest} (hr : (q, r) ∈ s.arrived) :
    ∃ d ∈ (s.procs q).handled, d.request = r := by
  have hpath : r ∈ (s.procs q).path := by
    rw [hs.path]
    exact List.mem_map.mpr ⟨(q, r), List.mem_filter.mpr ⟨hr, decide_eq_true rfl⟩, rfl⟩
  rw [ServicePeer.path, hrest.requestQueue, (hrest.done q).1, List.append_nil,
    List.append_nil] at hpath
  exact List.mem_map.mp hpath

/-- Where there is one at most, two are the same. -/
theorem eq_of_countP_le_one {α : Type} {l : List α} {P : α → Bool} (h : l.countP P ≤ 1) {x y : α}
    (hx : x ∈ l) (hy : y ∈ l) (hPx : P x = true) (hPy : P y = true) : x = y := by
  obtain ⟨z, hz⟩ : ∃ z, ∀ w ∈ l.filter P, w = z := by
    rw [List.countP_eq_length_filter, Nat.le_one_iff_eq_zero_or_eq_one] at h
    rcases h with h | h
    · exact ⟨x, by simp [List.length_eq_zero_iff.mp h]⟩
    · obtain ⟨z, hz⟩ := List.length_eq_one_iff.mp h
      exact ⟨z, by simp [hz]⟩
  exact (hz x (List.mem_filter.mpr ⟨hx, hPx⟩)).trans (hz y (List.mem_filter.mpr ⟨hy, hPy⟩)).symm

omit [DecidableEq ι] in
/-- The handler of a request that was answered was notified. -/
theorem Settled.notified (hs : s.Settled peer) (hrest : s.AtRest) {p q : ι} {x : Filed T}
    {d : Handling T} (hd : d ∈ (s.procs q).handled) (hof : IsOf peer q d p x)
    {handler : RepHandler T} (hhandler : d.handler = some handler) :
    (s.procs p).threads.Notified x.handler.handlerUuid := by
  rcases hs.answers q d hd _ ⟨handler, hhandler, rfl⟩ with h | h | ⟨p', hpeer, hr⟩
  · rw [(hrest.done q).2] at h
    cases h
  · rw [hrest.responses] at h
    cases h
  · obtain rfl : p' = p := Option.some.inj (hpeer.symm.trans hof.connection)
    rcases (hs.served p').received _ hr with hq | hb | hn
    · rw [hrest.responseQueue] at hq
      cases hq
    · rw [hrest.waiting] at hb
      cases hb
    · rw [← hof.reqUuid]
      exact hn

/-- **Without losses nothing stays unanswered.**  When no message is on its way and no service
thread has anything to do, every request that was sent has been handled, and its caller was
notified exactly once if there was a responder for it then, and else not at all. -/
theorem answered_at_rest (peer : ι → Str → Option ι)
    (uuid name hostAddr replierUuid replierAddress : ι → Str) (run : List (Action ι T))
    (hsmooth : ∀ a ∈ run, a.Smooth)
    (h : exec (next peer) (start uuid name hostAddr replierUuid replierAddress) run = some s)
    (hrest : s.AtRest) (p : ι) (m : RequestFrames) (hm : m ∈ (s.procs p).threads.sent) :
    ∃ x ∈ (s.procs p).threads.filed, m.Carries x ∧
      ∃ q, ∃ d ∈ (s.procs q).handled, IsOf peer q d p x ∧
        (s.procs p).threads.notified.countP (·.handlerUuid = x.handler.handlerUuid) =
          if d.handler.isSome then 1 else 0 := by
  obtain ⟨ha, hs⟩ : s.Accounted peer ∧ s.Settled peer := by
    refine invariant (P := fun s : CallNet ι T => s.Accounted peer ∧ s.Settled peer)
      (G := fun _ a => a.Smooth) ?_ ⟨accounted_start .., settled_start ..⟩
      (guarded_of_forall (fun a ha _ => hsmooth a ha) _) h
    exact fun s a t hs hg h => ⟨hs.1.next h, hs.2.next hs.1 hg h⟩
  obtain ⟨x, hx, hcarries⟩ := (ha.orderly p).sentFiled.sent m hm
  have harrived : ∃ q id, peer q id = some p ∧ (q, m.receiveRequest id) ∈ s.arrived := by
    refine (hs.sent p m hm).resolve_left fun h => ?_
    rw [hrest.requests] at h
    cases h
  obtain ⟨q, id, hpeer, hr⟩ := harrived
  obtain ⟨d, hd, hdr⟩ := ha.exists_handled hrest hr
  have hof : IsOf peer q d p x := .of_carries hpeer hdr hcarries
  refine ⟨x, hx, hcarries, q, d, hd, hof, ?_⟩
  cases hhandler : d.handler with
  | some handler =>
      obtain ⟨n, hn, hu⟩ := hs.notified hrest hd hof hhandler
      have hle := (ha.orderly p).answeredOnce.once x.handler.handlerUuid
      have hpos : 0 < (s.procs p).threads.notified.countP
          (·.handlerUuid = x.handler.handlerUuid) :=
        List.countP_pos_iff.mpr ⟨n, hn, decide_eq_true hu⟩
      exact le_antisymm hle hpos
  | none =>
      refine List.countP_eq_zero.mpr fun n hn hu => ?_
      obtain ⟨q', d', hd', hof', handler, hhandler', -⟩ :=
        ha.exists_of_notified hx hn (of_decide_eq_true hu)
      obtain rfl := ha.responder_unique (ha.mem_arrived hd) (ha.mem_arrived hd') hof.isFrom
        hof'.isFrom
      obtain rfl := eq_of_countP_le_one (ha.countP_handled_le p q x.handler.handlerUuid) hd hd'
        (decide_eq_true hof.isFrom) (decide_eq_true hof'.isFrom)
      rw [hhandler] at hhandler'
      cases hhandler'

theorem atRest_answered : answered.AtRest := by
  refine ⟨rfl, rfl, ?_, ?_, ?_, ?_⟩
  · exact Bool.rec ⟨rfl, rfl⟩ ⟨rfl, rfl⟩
  all_goals exact Bool.rec rfl rfl

theorem answered_at_rest_answered :
    (answered.procs false).threads.sent.length = 1 ∧
      ∀ m ∈ (answered.procs false).threads.sent,
        ∃ x ∈ (answered.procs false).threads.filed, m.Carries x ∧
          ∃ q, ∃ d ∈ (answered.procs q).handled, IsOf examplePeer q d false x ∧
            (answered.procs false).threads.notified.countP
              (·.handlerUuid = x.handler.handlerUuid) = if d.handler.isSome then 1 else 0 := by
  refine ⟨rfl, ?_⟩
  have hup : exampleIo.Up := ⟨fun _ => rfl, fun _ => rfl⟩
  exact answered_at_rest examplePeer _ _ _ _ _ (asking ++ answering) (s := answered)
    (by simp [asking, answering, Action.Smooth, or_imp, forall_and, hup])
    (rfl : exec (next examplePeer) exampleStart (asking ++ answering) = _) atRest_answered false

end CallNet
end RfTrans
