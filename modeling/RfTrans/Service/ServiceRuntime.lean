import RfTrans.Discovery.Discovery
import RfTrans.Discovery.HandlerStorage
import RfTrans.Service.Handlers

/-!
# The service runtime

`ServiceRuntime` keeps the responders of a process and its requests that have no
reply yet, and exchanges both over two ROUTER sockets.  The sockets are the
environment: `SocketIo` says which connects and which sends succeed.

## Main definitions

* `ServiceRuntime` — the state.
* `ServiceRuntime.request`, `sendPendingRequests` — the side of the caller.
* `ServiceRuntime.handleRequests` — the side of the responder.
* `ServiceRuntime.handleResponses` — the replies, back at the caller.
-/

namespace RfTrans

open ProtoTypes Std

/-- The frames of a request as the requester sends them; the first one routes. -/
structure RequestFrames where
  socketId : Str
  topic : Str
  nodeUuid : Str
  reqUuid : Str
  reqData : Str
  reqType : Str
  repType : Str
  deriving DecidableEq

/-- `RemoteRequest` -/
structure RemoteRequest where
  replyRoutingId : Str
  topic : Str
  nodeUuid : Str
  reqUuid : Str
  reqData : Str
  reqType : Str
  repType : Str
  deriving DecidableEq

/-- The frames of a response as the replier sends them; the first one routes. -/
structure ResponseFrames where
  routingId : Str
  topic : Str
  nodeUuid : Str
  reqUuid : Str
  repData : Str
  resultStr : Str
  deriving DecidableEq

/-- `RemoteResponse` -/
structure RemoteResponse where
  topic : Str
  nodeUuid : Str
  reqUuid : Str
  repData : Str
  resultStr : Str
  deriving DecidableEq

/-- `receiveRequest`: a ROUTER puts the identity of the sender first. -/
def RequestFrames.receiveRequest (m : RequestFrames) (sender : Str) : RemoteRequest :=
  ⟨sender, m.topic, m.nodeUuid, m.reqUuid, m.reqData, m.reqType, m.repType⟩

/-- `receiveResponse`: the identity of the sender is ignored. -/
def ResponseFrames.receiveResponse (m : ResponseFrames) : RemoteResponse :=
  ⟨m.topic, m.nodeUuid, m.reqUuid, m.repData, m.resultStr⟩

/-- Which connects and which sends of the sockets succeed; the others throw. -/
structure SocketIo where
  connect : Str → Bool
  send : Str → Bool

/-- `ServiceRuntime`. The request handlers are shared objects: the table holds what is
fixed about them, `reqStates` the rest by handler uuid. -/
structure ServiceRuntime (T : Type) [ProtoTypes T] where
  discovery : Discovery ServicePublisherInfo
  processUuid : Str
  replierUuid : Str
  replierAddress : Str
  requesterConnections : List Str := []
  responseHandlers : HandlerStorage (RepHandler T) := {}
  requestHandlers : HandlerStorage (ReqHandler T) := {}
  reqStates : StrMap (ReqState T) := ∅

namespace ServiceRuntime

variable {T : Type} [ProtoTypes T]

/-- The changing part of a request handler. -/
def reqState (rt : ServiceRuntime T) (handlerUuid : Str) : ReqState T :=
  (rt.reqStates[handlerUuid]?).getD {}

/-- Replace what is kept about a request. -/
def setReqState (rt : ServiceRuntime T) (handlerUuid : Str) (st : ReqState T) :
    ServiceRuntime T :=
  { rt with reqStates := rt.reqStates.insert handlerUuid st }

/-- `getLocalHandler` -/
def getLocalHandler (rt : ServiceRuntime T) (topic reqType repType : Str) :
    Option (RepHandler T) :=
  rt.responseHandlers.getFirstHandler topic (RepHandler.handles reqType repType)

/-- The responder that `sendPendingRequests` picks. -/
def responder (rt : ServiceRuntime T) (topic reqType repType : Str) :
    Option ServicePublisherInfo :=
  let addresses := (rt.discovery.knownPublishers.getPublishers topic).getD ∅
  (addresses.toList.flatMap fun (process : Str × List ServicePublisherInfo) => process.2).find?
    fun p => p.reqTypeName = reqType ∧ p.repTypeName = repType

/-- What a function of the runtime did; `thrown` when it was left by an exception. -/
structure Outcome (T : Type) [ProtoTypes T] where
  self : ServiceRuntime T
  sent : List RequestFrames := []
  thrown : Bool := false
  /-- The calls of `requester_->connect`, and whether they came back. -/
  connects : List (Str × Bool) := []

/-- A pending request: its node, its handler uuid and its handler. -/
abbrev Pending (T : Type) [ProtoTypes T] := Str × Str × ReqHandler T

section SendPending
variable (io : SocketIo) (responder : ServicePublisherInfo) (topic reqType repType : Str)

/-- The frames of a request. -/
def frames (x : Pending T) (data : Str) : RequestFrames :=
  ⟨responder.socketId, topic, x.1, x.2.1, data, reqType, repType⟩

/-- One round of the loop of `sendPendingRequests`. -/
def sendPending (o : Outcome T) (x : Pending T) : Outcome T :=
  let requestUuid := x.2.1
  let handler := x.2.2
  if (o.self.reqState requestUuid).requested ∨ handler.getReqTypeName ≠ reqType ∨
      handler.getRepTypeName ≠ repType then o
  else
    match handler.serialize with
    | none => o
    | some data =>
      if io.send responder.socketId then
        { o with
          self := o.self.setReqState requestUuid
            { o.self.reqState requestUuid with requested := true }
          sent := o.sent ++ [frames responder topic reqType repType x data] }
      else o

/-- The loop of `sendPendingRequests`. -/
def sendAll (pending : List (Pending T)) (o : Outcome T) : Outcome T :=
  pending.foldl (sendPending io responder topic reqType repType) o

end SendPending

/-- The handlers that `sendPendingRequests` goes through. -/
def pendingOf (handlers : StrMap (StrMap (ReqHandler T))) : List (Pending T) :=
  handlers.toList.flatMap fun node => node.2.toList.map fun x => (node.1, x.1, x.2)

/-- `sendPendingRequests` -/
def sendPendingRequests (rt : ServiceRuntime T) (io : SocketIo) (topic reqType repType : Str) :
    Outcome T :=
  match rt.responder topic reqType repType with
  | none => { self := rt }
  | some responder =>
    let connected := responder.addr ∈ rt.requesterConnections
    let connects := if connected then [] else [(responder.addr, io.connect responder.addr)]
    if ¬ connected ∧ io.connect responder.addr = false then
      { self := rt, connects := connects, thrown := true }
    else
      let rt := if connected then rt
        else { rt with requesterConnections := rt.requesterConnections ++ [responder.addr] }
      match rt.requestHandlers.getHandlers topic with
      | none => { self := rt, connects := connects }
      | some handlers =>
        sendAll io responder topic reqType repType (pendingOf handlers)
          { self := rt, connects := connects }

/-- `request`, with the new handler. -/
def request (rt : ServiceRuntime T) (io : SocketIo) (topic nodeUuid : Str)
    (handler : ReqHandler T) : Outcome T × Bool :=
  if (rt.discovery.knownPublishers.getPublishers topic).isNone then ({ self := rt }, false)
  else
    let rt := { rt with
      requestHandlers := rt.requestHandlers.addHandler topic nodeUuid handler.handlerUuid handler }
    let o := rt.sendPendingRequests io topic handler.getReqTypeName handler.getRepTypeName
    (o, !o.thrown)

/-- One round of `handleRequests`. -/
def handleRequest (rt : ServiceRuntime T) (io : SocketIo) (request : RemoteRequest) :
    List ResponseFrames :=
  match rt.getLocalHandler request.topic request.reqType request.repType with
  | none => []
  | some handler =>
    let (replyData, ok) := handler.runCallback request.reqData
    if io.send request.replyRoutingId then
      [⟨request.replyRoutingId, request.topic, request.nodeUuid, request.reqUuid, replyData,
        if ok then str "1" else str "0"⟩]
    else []

/-- `handleRequests` -/
def handleRequests (rt : ServiceRuntime T) (io : SocketIo) (requests : List RemoteRequest) :
    List ResponseFrames :=
  requests.flatMap (rt.handleRequest io)

/-- One round of `handleResponses`. -/
def handleResponse (rt : ServiceRuntime T) (response : RemoteResponse) : ServiceRuntime T :=
  match rt.requestHandlers.getHandler response.topic response.nodeUuid response.reqUuid with
  | none => rt
  | some handler =>
    let rt := rt.setReqState response.reqUuid
      (handler.notifyResult (rt.reqState response.reqUuid) response.repData
        (response.resultStr = str "1"))
    { rt with
      requestHandlers :=
        (rt.requestHandlers.removeHandler response.topic response.nodeUuid response.reqUuid).1 }

/-- `handleResponses` -/
def handleResponses (rt : ServiceRuntime T) (responses : List RemoteResponse) :
    ServiceRuntime T :=
  responses.foldl handleResponse rt

/-! ## What the loops do -/

section Loops
variable (rt : ServiceRuntime T)

@[simp] theorem reqState_setReqState (u u' : Str) (st : ReqState T) :
    (rt.setReqState u st).reqState u' = if u' = u then st else rt.reqState u' := by
  simp only [reqState, setReqState]
  by_cases h : u' = u
  · subst h
    simp
  · rw [StrMap.getElem?_insert_of_ne _ h, if_neg h]

@[simp] theorem requestHandlers_setReqState (u : Str) (st : ReqState T) :
    (rt.setReqState u st).requestHandlers = rt.requestHandlers := rfl

variable (io : SocketIo) (responder : ServicePublisherInfo) (topic reqType repType : Str)
variable (o : Outcome T) (x : Pending T) (pending : List (Pending T))

/-- One round sends a request that was not sent before, or does nothing. -/
theorem sendPending_cases :
    sendPending io responder topic reqType repType o x = o ∨
      ∃ data, x.2.2.serialize = some data ∧
        sendPending io responder topic reqType repType o x =
          { o with
            self := o.self.setReqState x.2.1 { o.self.reqState x.2.1 with requested := true }
            sent := o.sent ++ [frames responder topic reqType repType x data] } := by
  simp only [sendPending]
  split
  case isTrue => exact .inl rfl
  case isFalse =>
    cases hs : x.2.2.serialize with
    | none => exact .inl rfl
    | some data =>
        by_cases hsend : io.send responder.socketId = true
        · exact .inr ⟨data, rfl, if_pos hsend⟩
        · exact .inl (if_neg hsend)

@[simp] theorem sendAll_cons :
    sendAll io responder topic reqType repType (x :: pending) o =
      sendAll io responder topic reqType repType pending
        (sendPending io responder topic reqType repType o x) := rfl

@[simp] theorem requestHandlers_sendAll :
    (sendAll io responder topic reqType repType pending o).self.requestHandlers =
      o.self.requestHandlers := by
  induction pending generalizing o with
  | nil => rfl
  | cons x pending ih =>
      rw [sendAll_cons, ih]
      rcases sendPending_cases io responder topic reqType repType o x with h | ⟨data, -, h⟩
      · rw [h]
      · rw [h]
        rfl

@[simp] theorem thrown_sendAll :
    (sendAll io responder topic reqType repType pending o).thrown = o.thrown := by
  induction pending generalizing o with
  | nil => rfl
  | cons x pending ih =>
      rw [sendAll_cons, ih]
      rcases sendPending_cases io responder topic reqType repType o x with h | ⟨data, -, h⟩
      · rw [h]
      · rw [h]

/-- Sending a request only marks it. -/
theorem reqState_sendAll (u : Str) :
    ∃ requested, (sendAll io responder topic reqType repType pending o).self.reqState u =
      { o.self.reqState u with requested := requested } := by
  induction pending generalizing o with
  | nil => exact ⟨_, rfl⟩
  | cons x pending ih =>
      obtain ⟨requested, hu⟩ := ih (sendPending io responder topic reqType repType o x)
      refine ⟨requested, hu.trans ?_⟩
      rcases sendPending_cases io responder topic reqType repType o x with h | ⟨data, -, h⟩
      · rw [h]
      · rw [h]
        by_cases hx : u = x.2.1
        · subst hx
          simp
        · simp [hx]

/-- What is sent are the frames of pending requests. -/
theorem mem_sent_sendAll {m : RequestFrames}
    (hm : m ∈ (sendAll io responder topic reqType repType pending o).sent) :
    m ∈ o.sent ∨ ∃ x ∈ pending, ∃ data, x.2.2.serialize = some data ∧
      m = frames responder topic reqType repType x data := by
  induction pending generalizing o with
  | nil => exact .inl hm
  | cons x pending ih =>
      rcases ih _ hm with hm | ⟨y, hy, hdata⟩
      · rcases sendPending_cases io responder topic reqType repType o x with h | ⟨data, hs, h⟩
        · rw [h] at hm
          exact .inl hm
        · rw [h] at hm
          rcases List.mem_append.mp hm with hm | hm
          · exact .inl hm
          · exact .inr ⟨x, List.mem_cons_self, data, hs, List.mem_singleton.mp hm⟩
      · exact .inr ⟨y, List.mem_cons_of_mem _ hy, hdata⟩

theorem sent_sendAll_mono {m : RequestFrames} (hm : m ∈ o.sent) :
    m ∈ (sendAll io responder topic reqType repType pending o).sent := by
  induction pending generalizing o with
  | nil => exact hm
  | cons x pending ih =>
      refine ih _ ?_
      rcases sendPending_cases io responder topic reqType repType o x with h | ⟨data, -, h⟩
      · rw [h]
        exact hm
      · rw [h]
        exact List.mem_append_left _ hm

/-- A request that was not sent yet is sent, if no other handler has its uuid. -/
theorem sent_of_pending (hsend : io.send responder.socketId = true) {data : Str}
    (hx : x ∈ pending) (honly : ∀ y ∈ pending, y.2.1 = x.2.1 → y = x)
    (hreq : x.2.2.getReqTypeName = reqType) (hrep : x.2.2.getRepTypeName = repType)
    (hdata : x.2.2.serialize = some data) (hnew : (o.self.reqState x.2.1).requested = false) :
    frames responder topic reqType repType x data ∈
      (sendAll io responder topic reqType repType pending o).sent := by
  induction pending generalizing o with
  | nil => cases hx
  | cons y pending ih =>
      by_cases hy : y.2.1 = x.2.1
      · obtain rfl := honly y List.mem_cons_self hy
        refine sent_sendAll_mono io responder topic reqType repType _ pending ?_
        simp [sendPending, hnew, hreq, hrep, hdata, hsend]
      · have hx' : x ∈ pending := by
          rcases List.mem_cons.mp hx with rfl | hx
          · exact absurd rfl hy
          · exact hx
        refine ih _ hx' (fun z hz => honly z (List.mem_cons_of_mem _ hz)) ?_
        rcases sendPending_cases io responder topic reqType repType o y with h | ⟨_, -, h⟩
        · rw [h]
          exact hnew
        · rw [h]
          simpa [Ne.symm hy] using hnew

theorem mem_pendingOf {handlers : StrMap (StrMap (ReqHandler T))}
    (h : rt.requestHandlers.getHandlers topic = some handlers) :
    x ∈ pendingOf handlers ↔ rt.requestHandlers.handler? topic x.1 x.2.1 = some x.2.2 := by
  have hdata : rt.requestHandlers.data[topic]? = some handlers := h
  obtain ⟨n, u, hr⟩ := x
  simp only [pendingOf, HandlerStorage.handler?, hdata, Option.getD_some, List.mem_flatMap,
    List.mem_map, Prod.mk.injEq]
  constructor
  · rintro ⟨⟨n', nodeHandlers⟩, hn, ⟨u', hr'⟩, hu, rfl, rfl, rfl⟩
    rw [ExtTreeMap.mem_toList_iff_getElem?_eq_some] at hn hu
    simpa [hn] using hu
  · intro hu
    cases hn : handlers[n]? with
    | none => simp [hn] at hu
    | some nodeHandlers =>
        refine ⟨(n, nodeHandlers), ExtTreeMap.mem_toList_iff_getElem?_eq_some.mpr hn, (u, hr), ?_,
          rfl, rfl, rfl⟩
        rw [ExtTreeMap.mem_toList_iff_getElem?_eq_some]
        simpa [hn] using hu

/-- A response without a handler is dropped. -/
theorem handleResponse_none {r : RemoteResponse}
    (h : rt.requestHandlers.handler? r.topic r.nodeUuid r.reqUuid = none) :
    rt.handleResponse r = rt := by
  simp only [handleResponse, HandlerStorage.getHandler_eq, h]

theorem handleResponse_some {r : RemoteResponse} {handler : ReqHandler T}
    (h : rt.requestHandlers.handler? r.topic r.nodeUuid r.reqUuid = some handler) :
    (rt.handleResponse r).reqState r.reqUuid =
        handler.notifyResult (rt.reqState r.reqUuid) r.repData (r.resultStr = str "1") ∧
      (rt.handleResponse r).requestHandlers.handler? r.topic r.nodeUuid r.reqUuid = none := by
  simp only [handleResponse, HandlerStorage.getHandler_eq, h]
  refine ⟨?_, ?_⟩
  · exact (rt.reqState_setReqState r.reqUuid r.reqUuid _).trans (if_pos rfl)
  · rw [HandlerStorage.handler?_removeHandler]
    simp

/-- A response to another request does not touch this one. -/
theorem handleResponse_other {r : RemoteResponse} {u : Str} (hu : u ≠ r.reqUuid) (t n : Str) :
    (rt.handleResponse r).reqState u = rt.reqState u ∧
      (rt.handleResponse r).requestHandlers.handler? t n u = rt.requestHandlers.handler? t n u := by
  cases h : rt.requestHandlers.handler? r.topic r.nodeUuid r.reqUuid with
  | none =>
      rw [handleResponse_none rt h]
      exact ⟨rfl, rfl⟩
  | some handler =>
      simp only [handleResponse, HandlerStorage.getHandler_eq, h]
      refine ⟨?_, ?_⟩
      · exact (rt.reqState_setReqState r.reqUuid u _).trans (if_neg hu)
      · rw [HandlerStorage.handler?_removeHandler]
        simp [hu]

/-- **A request is answered once**: by the first of its responses, whatever else arrives. -/
theorem reqState_handleResponses {r : RemoteResponse} {handler : ReqHandler T}
    {responses : List RemoteResponse} (hr : r ∈ responses)
    (honly : ∀ r' ∈ responses, r'.reqUuid = r.reqUuid → r' = r)
    (h : rt.requestHandlers.handler? r.topic r.nodeUuid r.reqUuid = some handler) :
    (rt.handleResponses responses).reqState r.reqUuid =
      handler.notifyResult (rt.reqState r.reqUuid) r.repData (r.resultStr = str "1") := by
  have hdone : ∀ (responses : List RemoteResponse) (rt : ServiceRuntime T),
      (∀ r' ∈ responses, r'.reqUuid = r.reqUuid → r' = r) →
      rt.requestHandlers.handler? r.topic r.nodeUuid r.reqUuid = none →
      (rt.handleResponses responses).reqState r.reqUuid = rt.reqState r.reqUuid := by
    intro responses
    induction responses with
    | nil => exact fun rt _ _ => rfl
    | cons r' responses ih =>
        intro rt honly hnone
        have hrest := fun r'' hr'' => honly r'' (List.mem_cons_of_mem _ hr'')
        by_cases hu : r.reqUuid = r'.reqUuid
        · obtain rfl := honly r' List.mem_cons_self hu.symm
          exact (congrArg (fun rt => (handleResponses rt responses).reqState _)
            (handleResponse_none rt hnone)).trans (ih rt hrest hnone)
        · obtain ⟨hst, hh⟩ := handleResponse_other rt hu r.topic r.nodeUuid
          exact (ih _ hrest (hh.trans hnone)).trans hst
  induction responses generalizing rt with
  | nil => cases hr
  | cons r' responses ih =>
      have hrest := fun r'' hr'' => honly r'' (List.mem_cons_of_mem _ hr'')
      by_cases hu : r.reqUuid = r'.reqUuid
      · obtain rfl := honly r' List.mem_cons_self hu.symm
        obtain ⟨hst, hnone⟩ := handleResponse_some rt h
        exact (hdone responses _ hrest hnone).trans hst
      · have hr' : r ∈ responses := by
          rcases List.mem_cons.mp hr with rfl | hr
          · exact absurd rfl hu
          · exact hr
        obtain ⟨hst, hh⟩ := handleResponse_other rt hu r.topic r.nodeUuid
        have hih := ih (rt.handleResponse r') hr' hrest (hh.trans h)
        rw [hst] at hih
        exact hih

end Loops

end ServiceRuntime
end RfTrans
