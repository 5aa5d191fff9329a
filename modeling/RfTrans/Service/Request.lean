import RfTrans.Service.ServiceRuntime

/-!
# Service calls

`Node::request` in its asynchronous and its synchronous form, through a responder of
the same process and through one of another process.

## Main definitions

* `ServiceRuntime.requestAsync`, `requestSync`, `finishSync` — the two forms; the
  others call them with `Empty`.
* `localCall`, `remoteCall` — what the caller gets on either path.
* `sameResult_iff` — when the two paths agree.
-/

namespace RfTrans

open ProtoTypes

variable {T : Type} [ProtoTypes T]

/-- Where a synchronous call stands after its first part. -/
inductive SyncCall {T : Type} [ProtoTypes T] (rep : T)
  | returned (value result : Bool) (reply : Content rep)
  | waiting

namespace ServiceRuntime

/-- The asynchronous `Node::request`: the outcome, the return value and the calls of the
callback so far. -/
def requestAsync (rt : ServiceRuntime T) (io : SocketIo) (topic nodeUuid handlerUuid : Str)
    {req : T} (rep : T) (msg : Content req) :
    Option (Outcome T × Bool × List (ProtoMsg T × Bool)) :=
  match rt.getLocalHandler topic (fullName req) (fullName rep) with
  | some handler =>
    (handler.runLocalCallback ⟨req, msg⟩ ⟨rep, fresh rep⟩).map fun x => ({ self := rt }, true, [x])
  | none =>
    let handler : ReqHandler T :=
      { req := req, rep := rep, nodeUuid := nodeUuid, handlerUuid := handlerUuid, reqMsg := msg,
        cb := true }
    let (o, ok) := rt.request io topic nodeUuid handler
    some (o, ok, [])

/-- The synchronous `Node::request` up to `waitFor`. The local reply goes into an object
of its own, `msg_rep`. -/
def requestSync (rt : ServiceRuntime T) (io : SocketIo) (topic nodeUuid handlerUuid : Str)
    {req rep : T} (msg : Content req) (reply : Content rep) :
    Option (Outcome T × SyncCall rep) :=
  match rt.getLocalHandler topic (fullName req) (fullName rep) with
  | some handler =>
    (handler.runLocalCallback ⟨req, msg⟩ ⟨rep, fresh rep⟩).map fun x =>
      ({ self := rt }, .returned true x.2 reply)
  | none =>
    let handler : ReqHandler T :=
      { req := req, rep := rep, nodeUuid := nodeUuid, handlerUuid := handlerUuid, reqMsg := msg,
        cb := false }
    let (o, ok) := rt.request io topic nodeUuid handler
    some (o, if ok then .waiting else .returned false false reply)

/-- The rest of the synchronous `Node::request`: the return value, the result and the
reply object. -/
def finishSync {rep : T} (executed : Bool) (st : ReqState T) (reply : Content rep)
    (result : Bool) : Bool × Bool × Content rep :=
  if !executed then (false, result, reply)
  else if !st.result then (true, false, reply)
  else
    let (reply, ok) := parse rep st.rep
    (true, ok, reply)

/-- The requests reach the responder, and what it answers comes back. -/
def Outcome.exchange (o : Outcome T) (server : ServiceRuntime T) (io : SocketIo) (routingId : Str) :
    ServiceRuntime T :=
  let requests := (o.sent.filter fun m => m.socketId = server.replierUuid).map fun m =>
    m.receiveRequest routingId
  o.self.handleResponses ((server.handleRequests io requests).map ResponseFrames.receiveResponse)

end ServiceRuntime

/-- The form of a call: the synchronous one is given the variables it writes to. -/
inductive Form {T : Type} [ProtoTypes T] (rep : T)
  | async
  | sync (reply : Content rep) (result : Bool)

/-- What the caller gets: the return value, the result flag and the reply, the latter two
as arguments of the callback or in the variables passed in. -/
structure CallResult {T : Type} [ProtoTypes T] (rep : T) where
  value : Bool
  result : Bool
  reply : Content rep

/-- The call of an asynchronous callback, seen by its caller. -/
def CallResult.ofCalls {rep : T} (value : Bool) : List (ProtoMsg T × Bool) → Option (CallResult rep)
  | [(m, result)] => (m.cast rep).map fun reply => ⟨value, result, reply⟩
  | _ => none

/-- A caller cannot tell the two results apart; the reply counts when the result is true. -/
def SameResult {rep : T} (a b : CallResult rep) : Prop :=
  a.value = b.value ∧ a.result = b.result ∧ (a.result = true → a.reply = b.reply)

section Calls
variable (io : SocketIo) (topic nodeUuid handlerUuid : Str) {req rep : T} (msg : Content req)

/-- A call that is over when `request` returns. -/
def localCall (caller : ServiceRuntime T) : Form rep → Option (CallResult rep)
  | .async =>
    (caller.requestAsync io topic nodeUuid handlerUuid rep msg).bind fun x =>
      CallResult.ofCalls x.2.1 x.2.2
  | .sync reply _ =>
    (caller.requestSync io topic nodeUuid handlerUuid msg reply).bind fun x =>
      match x.2 with
      | .returned value result reply => some ⟨value, result, reply⟩
      | .waiting => none

/-- A call whose request and reply are delivered in time. -/
def remoteCall (caller server : ServiceRuntime T) (routingId : Str) :
    Form rep → Option (CallResult rep)
  | .async =>
    (caller.requestAsync io topic nodeUuid handlerUuid rep msg).bind fun x =>
      CallResult.ofCalls x.2.1 ((x.1.exchange server io routingId).reqState handlerUuid).calls
  | .sync reply result =>
    (caller.requestSync io topic nodeUuid handlerUuid msg reply).bind fun x =>
      match x.2 with
      | .returned _ _ _ => none
      | .waiting =>
        let st := (x.1.exchange server io routingId).reqState handlerUuid
        let (value, result, reply) := ServiceRuntime.finishSync st.repAvailable st reply result
        some ⟨value, result, reply⟩

end Calls

/-! ## The remote path -/

/-- All sockets work. -/
structure SocketIo.Up (io : SocketIo) : Prop where
  connect : ∀ a, io.connect a = true
  send : ∀ s, io.send s = true

/-- The caller has no responder of its own for a topic and two types, and knows one of the
server, which `handler` answers; the uuid of the call is not in use. -/
structure Reaches (caller server : ServiceRuntime T) (topic handlerUuid : Str) (req rep : T)
    (handler : RepHandler T) : Prop where
  noLocal : caller.getLocalHandler topic (fullName req) (fullName rep) = none
  known : ∃ p, caller.responder topic (fullName req) (fullName rep) = some p ∧
    p.socketId = server.replierUuid
  serving : server.getLocalHandler topic (fullName req) (fullName rep) = some handler
  freshHandler : ∀ n, caller.requestHandlers.handler? topic n handlerUuid = none
  freshState : caller.reqStates[handlerUuid]? = none

namespace ServiceRuntime

/-- With working sockets the pending requests of a known responder are sent. -/
theorem sendPendingRequests_eq (rt : ServiceRuntime T) {io : SocketIo} (hio : io.Up)
    {topic reqType repType : Str} {p : ServicePublisherInfo}
    {handlers : StrMap (StrMap (ReqHandler T))}
    (hp : rt.responder topic reqType repType = some p)
    (hh : rt.requestHandlers.getHandlers topic = some handlers) :
    ∃ (rt' : ServiceRuntime T) (connects : List (Str × Bool)),
      rt'.requestHandlers = rt.requestHandlers ∧ rt'.reqStates = rt.reqStates ∧
      rt.sendPendingRequests io topic reqType repType =
        sendAll io p topic reqType repType (pendingOf handlers)
          { self := rt', connects := connects } := by
  have hconnect : ¬ (¬ p.addr ∈ rt.requesterConnections ∧ io.connect p.addr = false) := by
    simp [hio.connect]
  by_cases hc : p.addr ∈ rt.requesterConnections
  · refine ⟨rt, [], rfl, rfl, ?_⟩
    simp only [sendPendingRequests, hp, if_neg hconnect, if_pos hc, hh]
  · refine ⟨{ rt with requesterConnections := rt.requesterConnections ++ [p.addr] },
      [(p.addr, io.connect p.addr)], rfl, rfl, ?_⟩
    simp only [sendPendingRequests, hp, if_neg hconnect, if_neg hc, hh]

/-- A call puts its request on the wire: it is pending, and its frames are sent. -/
theorem request_sent {caller : ServiceRuntime T} {io : SocketIo} (hio : io.Up)
    {topic : Str} (nodeUuid : Str) {h : ReqHandler T} {p : ServicePublisherInfo} {data : Str}
    (hp : caller.responder topic h.getReqTypeName h.getRepTypeName = some p)
    (hfresh : ∀ n, caller.requestHandlers.handler? topic n h.handlerUuid = none)
    (hstate : caller.reqStates[h.handlerUuid]? = none) (hdata : h.serialize = some data) :
    ∃ o, caller.request io topic nodeUuid h = (o, true) ∧
      (o.self.reqState h.handlerUuid).calls = [] ∧
      o.self.requestHandlers.handler? topic nodeUuid h.handlerUuid = some h ∧
      frames p topic h.getReqTypeName h.getRepTypeName (nodeUuid, h.handlerUuid, h) data ∈
        o.sent ∧
      ∀ m ∈ o.sent, ∃ x data', m = frames p topic h.getReqTypeName h.getRepTypeName x data' ∧
        (m.reqUuid = h.handlerUuid → x = (nodeUuid, h.handlerUuid, h) ∧ data' = data) := by
  have hknown : (caller.discovery.knownPublishers.getPublishers topic).isNone = false := by
    cases hpub : caller.discovery.knownPublishers.getPublishers topic with
    | none =>
        simp only [responder, hpub] at hp
        exact absurd hp (Option.some_ne_none _).symm
    | some addresses => rfl
  generalize hrt : { caller with
    requestHandlers := caller.requestHandlers.addHandler topic nodeUuid h.handlerUuid h } = rt
  have hadd : ∀ n u, rt.requestHandlers.handler? topic n u =
      if n = nodeUuid ∧ u = h.handlerUuid then some h
      else caller.requestHandlers.handler? topic n u := by
    intro n u
    rw [← hrt, HandlerStorage.handler?_addHandler]
    simp [hfresh]
  have hown : rt.requestHandlers.handler? topic nodeUuid h.handlerUuid = some h := by
    rw [hadd, if_pos ⟨rfl, rfl⟩]
  obtain ⟨handlers, hh⟩ : ∃ handlers, rt.requestHandlers.getHandlers topic = some handlers := by
    cases hget : rt.requestHandlers.data[topic]? with
    | none => simp [HandlerStorage.handler?, hget] at hown
    | some handlers => exact ⟨handlers, hget⟩
  have hp' : rt.responder topic h.getReqTypeName h.getRepTypeName = some p := by
    rw [← hrt]
    exact hp
  obtain ⟨rt', connects, hrh, hrs, hsend⟩ := sendPendingRequests_eq rt hio hp' hh
  -- a handler with the uuid of the call is the handler of the call
  have honly : ∀ y ∈ pendingOf handlers,
      y.2.1 = h.handlerUuid → y = (nodeUuid, h.handlerUuid, h) := by
    rintro ⟨n, u, h'⟩ hy rfl
    rw [mem_pendingOf rt topic _ hh, hadd] at hy
    by_cases hn : n = nodeUuid
    · simp_all
    · simp [hn, hfresh] at hy
  have hfresh' : rt'.reqState h.handlerUuid = {} := by
    have hcaller : rt.reqStates = caller.reqStates := by rw [← hrt]
    simp [reqState, hrs, hcaller, hstate]
  refine ⟨sendAll io p topic h.getReqTypeName h.getRepTypeName (pendingOf handlers)
    { self := rt', connects := connects }, ?_, ?_, ?_, ?_, ?_⟩
  · simp only [request, hknown, hrt, hsend]
    simp
  · obtain ⟨requested, hst⟩ := reqState_sendAll io p topic h.getReqTypeName h.getRepTypeName
      { self := rt', connects := connects } (pendingOf handlers) h.handlerUuid
    rw [hst, hfresh']
  · rw [requestHandlers_sendAll, hrh, hown]
  · refine sent_of_pending io p topic _ _ { self := rt', connects := connects }
      (nodeUuid, h.handlerUuid, h) _
      (hio.send _) ?_ honly rfl rfl hdata ?_
    · exact (mem_pendingOf rt topic _ hh).mpr hown
    · rw [hfresh']
  · intro m hm
    rcases mem_sent_sendAll _ _ _ _ _ _ _ hm with hm | ⟨x, hx, data', hser, rfl⟩
    · cases hm
    · refine ⟨x, data', rfl, fun hu => ?_⟩
      obtain rfl := honly x hx hu
      exact ⟨rfl, Option.some.inj (hser.symm.trans hdata)⟩

/-- **A remote call is answered** by the responder, whatever else is pending. -/
theorem reqState_exchange {caller server : ServiceRuntime T} {io : SocketIo} (hio : io.Up)
    {topic : Str} (nodeUuid routingId : Str) {h : ReqHandler T} {handler : RepHandler T}
    (hreach : Reaches caller server topic h.handlerUuid h.req h.rep handler) {data : Str}
    (hdata : h.serialize = some data) :
    ∃ o st, caller.request io topic nodeUuid h = (o, true) ∧ st.calls = [] ∧
      (o.exchange server io routingId).reqState h.handlerUuid =
        h.notifyResult st (handler.runCallback data).1 (handler.runCallback data).2 := by
  obtain ⟨p, hp, hsocket⟩ := hreach.known
  obtain ⟨o, hreq, hcalls, hpending, hsent, hothers⟩ :=
    request_sent hio nodeUuid hp hreach.freshHandler hreach.freshState hdata
  refine ⟨o, _, hreq, hcalls, ?_⟩
  -- the response to a request of the batch
  have hanswer : ∀ (x : Pending T) (data' : Str), server.handleRequest io
      ((frames p topic h.getReqTypeName h.getRepTypeName x data').receiveRequest routingId) =
        [⟨routingId, topic, x.1, x.2.1, (handler.runCallback data').1,
          if (handler.runCallback data').2 then str "1" else str "0"⟩] := by
    intro x data'
    have hserve : server.getLocalHandler topic h.getReqTypeName h.getRepTypeName = some handler :=
      hreach.serving
    simp only [handleRequest, RequestFrames.receiveRequest, frames, hserve]
    exact if_pos (hio.send _)
  generalize hr : (⟨topic, nodeUuid, h.handlerUuid, (handler.runCallback data).1,
    if (handler.runCallback data).2 then str "1" else str "0"⟩ : RemoteResponse) = r
  have hresult : (decide (r.resultStr = str "1")) = (handler.runCallback data).2 := by
    rw [← hr]
    cases (handler.runCallback data).2 with
    | true => rfl
    | false => rfl
  generalize hbatch : (server.handleRequests io
    ((o.sent.filter fun m => m.socketId = server.replierUuid).map fun m =>
      m.receiveRequest routingId)).map ResponseFrames.receiveResponse = batch
  have hin : ∀ {r'}, r' ∈ batch ↔ ∃ m ∈ o.sent, ∃ f ∈ server.handleRequest io
      (m.receiveRequest routingId), f.receiveResponse = r' := by
    intro r'
    simp only [← hbatch, handleRequests, List.mem_map, List.mem_flatMap, List.mem_filter,
      decide_eq_true_eq]
    constructor
    · rintro ⟨f, ⟨_, ⟨m, ⟨hm, -⟩, rfl⟩, hf⟩, rfl⟩
      exact ⟨m, hm, f, hf, rfl⟩
    · rintro ⟨m, hm, f, hf, rfl⟩
      obtain ⟨x, data', rfl, -⟩ := hothers m hm
      exact ⟨f, ⟨_, ⟨_, ⟨hm, hsocket⟩, rfl⟩, hf⟩, rfl⟩
  have hmem : r ∈ batch := by
    rw [hin]
    refine ⟨_, hsent, ⟨routingId, topic, nodeUuid, h.handlerUuid, (handler.runCallback data).1,
      if (handler.runCallback data).2 then str "1" else str "0"⟩, ?_, hr⟩
    rw [hanswer]
    exact List.mem_singleton.mpr rfl
  have honly : ∀ r' ∈ batch, r'.reqUuid = r.reqUuid → r' = r := by
    intro r' hr' hu
    obtain ⟨m, hm, f, hf, rfl⟩ := hin.mp hr'
    obtain ⟨x, data', rfl, hown⟩ := hothers m hm
    rw [hanswer] at hf
    obtain rfl := List.mem_singleton.mp hf
    rw [← hr] at hu
    obtain ⟨rfl, rfl⟩ := hown hu
    exact hr
  have hdone := reqState_handleResponses o.self hmem honly (by rw [← hr]; exact hpending)
  rw [hresult, ← hr] at hdone
  rw [Outcome.exchange, hbatch]
  exact hdone

end ServiceRuntime

/-! ## Location transparency -/

section Transparency
variable {req rep : T} (cb : Option (Content req → Content rep → Content rep × Bool))

/-- What a callback makes of a request and a new reply object. -/
def answer (msg : Content req) : Content rep × Bool :=
  match cb with
  | none => (fresh rep, false)
  | some cb => cb msg (fresh rep)

theorem runLocalCallback_answer (u : Str) (msg : Content req) :
    RepHandler.runLocalCallback ⟨req, rep, u, cb⟩ ⟨req, msg⟩ ⟨rep, fresh rep⟩ =
      some (⟨rep, (answer cb msg).1⟩, (answer cb msg).2) := by
  cases cb with
  | none => rfl
  | some cb => simp [RepHandler.runLocalCallback, answer]

/-- The reply data of a request that was serialized parses as the callback's reply. -/
theorem runCallback_answer [LawfulProto T] (u : Str) {msg : Content req} {data : Str}
    (hdata : serialize req msg = some data) :
    (RepHandler.runCallback ⟨req, rep, u, cb⟩ data).2 = (answer cb msg).2 ∧
      ((answer cb msg).2 = true →
        parse rep (RepHandler.runCallback ⟨req, rep, u, cb⟩ data).1 =
          ((answer cb msg).1, true)) := by
  cases cb with
  | none => exact ⟨rfl, fun h => by cases h⟩
  | some cb =>
      have hmsg : RepHandler.createMsg ⟨req, rep, u, some cb⟩ data = msg := by
        obtain ⟨b, hb, hparse⟩ := LawfulProto.parse_serialize req msg
        obtain rfl := Option.some.inj (hdata.symm.trans hb)
        exact congrArg Prod.fst hparse
      obtain ⟨b, hb, hparse⟩ := LawfulProto.parse_serialize rep (cb msg (fresh rep)).1
      simp only [RepHandler.runCallback, answer, hmsg]
      cases hok : (cb msg (fresh rep)).2 with
      | false => simp
      | true => simp [hb, hparse]

variable {caller server : ServiceRuntime T} {io : SocketIo} {topic nodeUuid handlerUuid : Str}
variable {routingId repUuid : Str} {msg : Content req}

/-- The result of a call through a responder of this process. -/
theorem localCall_eq (form : Form rep)
    (hlocal : caller.getLocalHandler topic (fullName req) (fullName rep) =
      some ⟨req, rep, repUuid, cb⟩) :
    localCall io topic nodeUuid handlerUuid msg caller form = some
      { value := true
        result := (answer cb msg).2
        reply := match form with
          | .async => (answer cb msg).1
          | .sync reply _ => reply } := by
  cases form with
  | async =>
      simp [localCall, ServiceRuntime.requestAsync, hlocal, runLocalCallback_answer,
        CallResult.ofCalls]
  | sync reply result =>
      simp [localCall, ServiceRuntime.requestSync, hlocal, runLocalCallback_answer]

/-- The result of a call through a remote responder. -/
theorem remoteCall_eq [LawfulProto T] (hio : io.Up) (form : Form rep)
    (hreach : Reaches caller server topic handlerUuid req rep ⟨req, rep, repUuid, cb⟩) :
    ∃ reply, remoteCall io topic nodeUuid handlerUuid msg caller server routingId form = some
        { value := true, result := (answer cb msg).2, reply := reply } ∧
      ((answer cb msg).2 = true → reply = (answer cb msg).1) := by
  obtain ⟨data, hdata, -⟩ := LawfulProto.parse_serialize req msg
  obtain ⟨hok, hreply⟩ := runCallback_answer cb repUuid hdata
  generalize hrun : RepHandler.runCallback ⟨req, rep, repUuid, cb⟩ data = run at hok hreply
  cases form with
  | async =>
      let h : ReqHandler T :=
        { req := req, rep := rep, nodeUuid := nodeUuid, handlerUuid := handlerUuid, reqMsg := msg,
          cb := true }
      obtain ⟨o, st, hreq, hcalls, hst⟩ :=
        ServiceRuntime.reqState_exchange (h := h) hio nodeUuid routingId hreach hdata
      rw [hrun] at hst
      have hcall :
          caller.requestAsync io topic nodeUuid handlerUuid rep msg = some (o, true, []) := by
        simp only [ServiceRuntime.requestAsync, hreach.noLocal]
        exact congrArg (fun x => some (x.1, x.2, [])) hreq
      have hst' : ((o.exchange server io routingId).reqState handlerUuid).calls =
          [(⟨rep, (parse rep run.1).1⟩, run.2)] := by
        refine (congrArg ReqState.calls hst).trans ?_
        simp [ReqHandler.notifyResult, h, hcalls, ReqHandler.createMsg]
      refine ⟨(parse rep run.1).1, ?_, fun hres => by rw [hreply hres]⟩
      simp [remoteCall, hcall, hst', CallResult.ofCalls, hok]
  | sync reply result =>
      let h : ReqHandler T :=
        { req := req, rep := rep, nodeUuid := nodeUuid, handlerUuid := handlerUuid, reqMsg := msg,
          cb := false }
      obtain ⟨o, st, hreq, -, hst⟩ :=
        ServiceRuntime.reqState_exchange (h := h) hio nodeUuid routingId hreach hdata
      rw [hrun] at hst
      have hcall :
          caller.requestSync io topic nodeUuid handlerUuid msg reply = some (o, .waiting) := by
        simp only [ServiceRuntime.requestSync, hreach.noLocal]
        exact congrArg (fun x : ServiceRuntime.Outcome T × Bool =>
          some (x.1, if x.2 then SyncCall.waiting else .returned false false reply)) hreq
      have hst' : (o.exchange server io routingId).reqState handlerUuid =
          { st with rep := run.1, result := run.2, repAvailable := true } := hst
      refine ⟨if (answer cb msg).2 then (answer cb msg).1 else reply, ?_, fun hres => if_pos hres⟩
      simp only [remoteCall, hcall, Option.bind_some, hst']
      cases hres : (answer cb msg).2 with
      | true => simp [ServiceRuntime.finishSync, hok, hres, hreply hres]
      | false => simp [ServiceRuntime.finishSync, hok, hres]

/-- When both paths give the caller the same: a synchronous call that succeeds leaves the
reply object alone if it was answered locally, so the reply must be what it holds. -/
def Transparent (cb : Option (Content req → Content rep → Content rep × Bool))
    (msg : Content req) : Form rep → Prop
  | .async => True
  | .sync reply _ => (answer cb msg).2 = true → (answer cb msg).1 = reply

/-- **Service calls are location transparent** exactly if they are asynchronous, fail, or
answer with the contents that the reply object has already. -/
theorem sameResult_iff [LawfulProto T] (io : SocketIo) (hio : io.Up)
    (topic nodeUuid nodeUuid' handlerUuid handlerUuid' routingId repUuid repUuid' : Str)
    (form : Form rep) (msg : Content req)
    (cb : Option (Content req → Content rep → Content rep × Bool))
    (here there server : ServiceRuntime T)
    (hlocal : here.getLocalHandler topic (fullName req) (fullName rep) =
      some ⟨req, rep, repUuid, cb⟩)
    (hremote : Reaches there server topic handlerUuid' req rep ⟨req, rep, repUuid', cb⟩) :
    ∃ l r, localCall io topic nodeUuid handlerUuid msg here form = some l ∧
      remoteCall io topic nodeUuid' handlerUuid' msg there server routingId form = some r ∧
      (SameResult l r ↔ Transparent cb msg form) := by
  obtain ⟨reply, hr, hreply⟩ := remoteCall_eq cb hio form hremote
  refine ⟨_, _, localCall_eq cb form hlocal, hr, ?_⟩
  simp only [SameResult, true_and]
  cases form with
  | async => simpa [Transparent] using fun hres => (hreply hres).symm
  | sync given result =>
      simp only [Transparent]
      constructor
      · intro h hres
        rw [← hreply hres, h hres]
      · intro h hres
        rw [hreply hres, h hres]

end Transparency

/-! ## Two calls -/

/-- A request. -/
def exampleMsg : Content EmptyOnly.empty := false

/-- A callback that sets the field of the reply and returns true. -/
def setUnused :
    Option (Content EmptyOnly.empty → Content EmptyOnly.empty → Content EmptyOnly.empty × Bool) :=
  some fun _ _ => (true, true)

/-- A process with one responder. -/
def exampleServer : ServiceRuntime EmptyOnly where
  discovery := { processUuid := str "5b", hostAddr := str "10.0.0.2" }
  processUuid := str "5b"
  replierUuid := str "r5b"
  replierAddress := str "tcp://10.0.0.2:4000"
  responseHandlers := HandlerStorage.addHandler {} (str "s") (str "n1") (str "h1")
    ⟨.empty, .empty, str "h1", setUnused⟩

/-- A process that knows of it. -/
def exampleCaller : ServiceRuntime EmptyOnly where
  discovery :=
    { processUuid := str "4a"
      hostAddr := str "10.0.0.1"
      knownPublishers := (TopicStorage.addPublisher {} (ServicePublisherInfo.make (str "s")
        (str "tcp://10.0.0.2:4000") (str "r5b") (str "5b") (str "n1") (str "rf.msgs.Empty")
        (str "rf.msgs.Empty") {})).1 }
  processUuid := str "4a"
  replierUuid := str "r4a"
  replierAddress := str "tcp://10.0.0.1:4000"

/-- Sockets that work. -/
def exampleIo : SocketIo := ⟨fun _ => true, fun _ => true⟩

/-- The synchronous call, with a new reply object. -/
def exampleSync : Form EmptyOnly.empty := .sync false false

/-- The asynchronous call. -/
def exampleAsync : Form EmptyOnly.empty := .async

theorem reaches_example : Reaches exampleCaller exampleServer (str "s") (str "q") .empty .empty
    ⟨.empty, .empty, str "h1", setUnused⟩ :=
  ⟨rfl, ⟨_, rfl, rfl⟩, rfl, fun _ => rfl, rfl⟩

theorem sameResult_iff_async :
    ∃ l r, localCall exampleIo (str "s") (str "n1") (str "q") exampleMsg exampleServer
        exampleAsync = some l ∧
      remoteCall exampleIo (str "s") (str "n2") (str "q") exampleMsg exampleCaller exampleServer
        (str "z") exampleAsync = some r ∧
      (SameResult l r ↔ Transparent setUnused exampleMsg exampleAsync) :=
  sameResult_iff exampleIo ⟨fun _ => rfl, fun _ => rfl⟩ (str "s") (str "n1") (str "n2") (str "q")
    (str "q") (str "z") (str "h1") (str "h1") exampleAsync exampleMsg setUnused exampleServer
    exampleCaller exampleServer rfl reaches_example

/-- The synchronous call succeeds on both paths, and only the remote one fills in the
reply. -/
theorem sync_not_sameResult :
    ∃ l r, localCall exampleIo (str "s") (str "n1") (str "q") exampleMsg exampleServer
        exampleSync = some l ∧
      remoteCall exampleIo (str "s") (str "n2") (str "q") exampleMsg exampleCaller exampleServer
        (str "z") exampleSync = some r ∧ ¬ SameResult l r := by
  refine ⟨⟨true, true, false⟩, ⟨true, true, true⟩, rfl, rfl, ?_⟩
  intro h
  exact absurd (h.2.2 rfl) Bool.false_ne_true

end RfTrans
