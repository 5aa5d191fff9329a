import RfTrans.Service.Request

/-!
# Is a success a success?

A remote call passes two parsers: that of the responder for the request and that of the
caller for the reply.  The responder's result travels beside the reply, as a frame of its
own.  The two processes may have been built from different message definitions, so each
has its own classes here.

## Main definitions

* `RepHandler.userCalls` — what the callback of a responder is called with.
* `ToldSuccess`, `Served` — what the caller is told, and what it stands for.
* `GenuineSuccess`, `genuineSuccess_iff`
-/

namespace RfTrans

open ProtoTypes

variable {S C : Type} [ProtoTypes S] [ProtoTypes C]

namespace RepHandler

/-- The requests that `runCallback` hands to the callback. -/
def userCalls (h : RepHandler S) (req : Str) : List (Content h.req) :=
  match h.cb with
  | none => []
  | some _ => [h.createMsg req]

/-- `runCallback` depends on what the callback answers to these requests, and on nothing
else that it does. -/
theorem runCallback_congr {req rep : S} (u : Str)
    {cb cb' : Content req → Content rep → Content rep × Bool} {data : Str}
    (h : ∀ m ∈ userCalls ⟨req, rep, u, some cb⟩ data, cb m (fresh rep) = cb' m (fresh rep)) :
    runCallback ⟨req, rep, u, some cb⟩ data = runCallback ⟨req, rep, u, some cb'⟩ data := by
  have hanswer : cb (createMsg ⟨req, rep, u, some cb⟩ data) (fresh rep) =
      cb' (createMsg ⟨req, rep, u, some cb'⟩ data) (fresh rep) := h _ (List.mem_singleton_self _)
  simp only [runCallback, hanswer]

/-- A callback returned true, and its reply could be serialized. -/
def Answers (h : RepHandler S) (req data : Str) : Prop :=
  ∃ cb, h.cb = some cb ∧ (cb (h.createMsg req) (fresh h.rep)).2 = true ∧
    serialize h.rep (cb (h.createMsg req) (fresh h.rep)).1 = some data

/-- `runCallback` reports success exactly then. -/
theorem runCallback_eq_true {h : RepHandler S} {req data : Str} :
    h.runCallback req = (data, true) ↔ h.Answers req data := by
  unfold runCallback Answers
  cases h.cb with
  | none => simp
  | some cb =>
      simp only [Option.some.injEq, exists_eq_left']
      cases (cb (h.createMsg req) (fresh h.rep)).2 with
      | false => simp
      | true =>
          cases serialize h.rep (cb (h.createMsg req) (fresh h.rep)).1 with
          | none => simp
          | some b => simp

end RepHandler

/-! ## The call -/

/-- Whether the call has a callback. -/
def Form.hasCallback {rep : C} : Form rep → Bool
  | .async => true
  | .sync _ _ => false

/-- The call tells its caller success: by the argument of the callback, or in the variable
that it was given. -/
def ToldSuccess {rep : C} (st : ReqState C) : Form rep → Prop
  | .async => ∃ m, (m, true) ∈ st.calls
  | .sync reply result =>
    (ServiceRuntime.finishSync st.repAvailable st reply result).2.1 = true

/-- A request that a process has sent and that has no reply yet. -/
structure Awaits (caller : ServiceRuntime C) (request : RemoteRequest) (h : ReqHandler C)
    (form : Form h.rep) : Prop where
  filed : caller.requestHandlers.handler? request.topic request.nodeUuid request.reqUuid = some h
  callback : h.cb = form.hasCallback
  unanswered : (caller.reqState request.reqUuid).repAvailable = false
  silent : (caller.reqState request.reqUuid).calls = []

/-- What arrives at the caller before it stops waiting. -/
def arrived (server : ServiceRuntime S) (io : SocketIo) (request : RemoteRequest)
    (delivered : Bool) : List RemoteResponse :=
  if delivered then (server.handleRequest io request).map ResponseFrames.receiveResponse else []

/-- The responder that `handleRequests` finds. -/
def ServiceRuntime.serving (server : ServiceRuntime S) (request : RemoteRequest) :
    Option (RepHandler S) :=
  server.getLocalHandler request.topic request.reqType request.repType

/-- The request was understood, the callback returned true, and the reply is understood. -/
structure Served (handler : RepHandler S) (request : RemoteRequest) (rep : C)
    (responses : List RemoteResponse) : Prop where
  requestParses : (parse handler.req request.reqData).2 = true
  returnedTrue : ∃ cb, handler.cb = some cb ∧
    (cb (handler.createMsg request.reqData) (fresh handler.rep)).2 = true
  replyParses : ∃ r ∈ responses, (parse rep r.repData).2 = true

/-- The caller is told success for a call that was served only, and no callback is called for
a request that was not understood. -/
structure GenuineSuccess (caller : ServiceRuntime C) (server : ServiceRuntime S) (io : SocketIo)
    (request : RemoteRequest) (delivered : Bool) {rep : C} (form : Form rep) : Prop where
  told : ToldSuccess ((caller.handleResponses
      (arrived server io request delivered)).reqState request.reqUuid) form →
    ∃ handler, server.serving request = some handler ∧
      Served handler request rep (arrived server io request delivered)
  called : ∀ handler, server.serving request = some handler →
    handler.userCalls request.reqData ≠ [] → (parse handler.req request.reqData).2 = true

/-- What the code leaves to its callers: the request parses at a responder with a callback; the
reply of an asynchronous call parses at the caller; a synchronous call that gets no reply was
given a variable that is false. -/
structure Understood (server : ServiceRuntime S) (io : SocketIo) (request : RemoteRequest)
    (delivered : Bool) {rep : C} (form : Form rep) : Prop where
  requestParses : ∀ handler, server.serving request = some handler → handler.cb.isSome →
    (parse handler.req request.reqData).2 = true
  replyParses : form.hasCallback = true → delivered = true → io.send request.replyRoutingId = true →
    ∀ handler data, server.serving request = some handler → handler.Answers request.reqData data →
      (parse rep data).2 = true
  noReply : (delivered = true → server.serving request = none ∨
      io.send request.replyRoutingId = false) →
    ∀ reply result, form = .sync reply result → result = false

/-! ## The response -/

section Response

variable {server : ServiceRuntime S} {caller : ServiceRuntime C} {io : SocketIo}
  {request : RemoteRequest} {handler : RepHandler S} {delivered : Bool}

theorem userCalls_ne_nil {data : Str} : handler.userCalls data ≠ [] ↔ handler.cb.isSome := by
  unfold RepHandler.userCalls
  split
  case h_1 h => simp [h]
  case h_2 h => simp [h]

/-- The response of a responder. -/
def responseOf (handler : RepHandler S) (request : RemoteRequest) : RemoteResponse :=
  { topic := request.topic
    nodeUuid := request.nodeUuid
    reqUuid := request.reqUuid
    repData := (handler.runCallback request.reqData).1
    resultStr := if (handler.runCallback request.reqData).2 then str "1" else str "0" }

theorem arrived_eq_response (hs : server.serving request = some handler)
    (hd : delivered = true) (hio : io.send request.replyRoutingId = true) :
    arrived server io request delivered = [responseOf handler request] := by
  have hserve : server.getLocalHandler request.topic request.reqType request.repType =
    some handler := hs
  simp only [arrived, if_pos hd, ServiceRuntime.handleRequest, hserve, if_pos hio]
  rfl

theorem arrived_eq_nil (h : delivered = true → server.serving request = none ∨
    io.send request.replyRoutingId = false) : arrived server io request delivered = [] := by
  cases delivered with
  | false => rfl
  | true =>
      rcases h rfl with hnone | hio
      · have hserve : server.getLocalHandler request.topic request.reqType request.repType = none :=
          hnone
        simp only [arrived, if_true, ServiceRuntime.handleRequest, hserve, List.map_nil]
      · simp only [arrived, if_true, ServiceRuntime.handleRequest, hio, Bool.false_eq_true,
          if_false]
        split <;> rfl

/-- The result frame is read back. -/
theorem resultStr_responseOf :
    decide ((responseOf handler request).resultStr = str "1") =
      (handler.runCallback request.reqData).2 := by
  unfold responseOf
  cases (handler.runCallback request.reqData).2 with
  | true => rfl
  | false => rfl

variable {h : ReqHandler C} {form : Form h.rep}

/-- **What the caller is told** when the response arrives. -/
theorem toldSuccess_response (hw : Awaits caller request h form) :
    ToldSuccess ((caller.handleResponses [responseOf handler request]).reqState
        request.reqUuid) form ↔
      ∃ data, handler.Answers request.reqData data ∧
        (form.hasCallback = false → (parse h.rep data).2 = true) := by
  have hstate : (caller.handleResponses [responseOf handler request]).reqState request.reqUuid =
      h.notifyResult (caller.reqState request.reqUuid) (handler.runCallback request.reqData).1
        (handler.runCallback request.reqData).2 := by
    rw [← resultStr_responseOf]
    exact (ServiceRuntime.handleResponse_some caller (r := responseOf handler request) hw.filed).1
  rw [hstate]
  have hexists : (∃ data, handler.Answers request.reqData data ∧
      (form.hasCallback = false → (parse h.rep data).2 = true)) ↔
      (handler.runCallback request.reqData).2 = true ∧
        (form.hasCallback = false →
          (parse h.rep (handler.runCallback request.reqData).1).2 = true) := by
    simp only [← RepHandler.runCallback_eq_true]
    constructor
    · rintro ⟨data, hrun, hparse⟩
      rw [hrun]
      exact ⟨rfl, hparse⟩
    · rintro ⟨htrue, hparse⟩
      exact ⟨_, Prod.ext rfl htrue, hparse⟩
  rw [hexists]
  have hcb := hw.callback
  cases form with
  | async =>
      have hcb' : h.cb = true := hcb
      simp [ToldSuccess, ReqHandler.notifyResult, hcb', hw.silent, Form.hasCallback]
  | sync reply result =>
      have hcb' : h.cb = false := hcb
      simp only [ToldSuccess, ReqHandler.notifyResult, hcb', Form.hasCallback, forall_const,
        Bool.false_eq_true, if_false, ServiceRuntime.finishSync, Bool.not_true]
      cases (handler.runCallback request.reqData).2 with
      | false => simp
      | true => simp

/-- A call that gets no reply tells what its variable held. -/
theorem toldSuccess_nothing (hw : Awaits caller request h form) :
    ToldSuccess ((caller.handleResponses []).reqState request.reqUuid) form ↔
      ∃ reply, form = .sync reply true := by
  show ToldSuccess (caller.reqState request.reqUuid) form ↔ _
  cases form with
  | async => simp [ToldSuccess, hw.silent]
  | sync reply result => simp [ToldSuccess, hw.unanswered, ServiceRuntime.finishSync]

end Response

/-- **A success is genuine** exactly where both processes understand each other: for all
requests, callbacks and codecs, and whether or not the response comes through. -/
theorem genuineSuccess_iff (caller : ServiceRuntime C) (server : ServiceRuntime S) (io : SocketIo)
    (request : RemoteRequest) (delivered : Bool) (h : ReqHandler C) (form : Form h.rep)
    (hw : Awaits caller request h form) :
    GenuineSuccess caller server io request delivered form ↔
      Understood server io request delivered form := by
  constructor
  · intro hg
    refine ⟨?_, ?_, ?_⟩
    · intro handler hs hcb
      exact hg.called handler hs (userCalls_ne_nil.mpr hcb)
    · intro hasync hd hio handler data hs hanswers
      have harrived := arrived_eq_response hs hd hio
      have htold := (toldSuccess_response hw).mpr
        ⟨data, hanswers, fun hsync => by rw [hasync] at hsync; cases hsync⟩
      rw [← harrived] at htold
      obtain ⟨handler', -, hserved⟩ := hg.told htold
      obtain ⟨r, hr, hparse⟩ := hserved.replyParses
      rw [harrived] at hr
      obtain rfl := List.mem_singleton.mp hr
      rw [← RepHandler.runCallback_eq_true] at hanswers
      simpa only [responseOf, hanswers] using hparse
    · intro hnone reply result hform
      have harrived := arrived_eq_nil hnone
      cases result with
      | false => rfl
      | true =>
          have htold := (toldSuccess_nothing hw).mpr ⟨reply, hform⟩
          rw [← harrived] at htold
          obtain ⟨handler, -, hserved⟩ := hg.told htold
          obtain ⟨r, hr, -⟩ := hserved.replyParses
          rw [harrived] at hr
          cases hr
  · intro hu
    refine ⟨?_, ?_⟩
    · intro htold
      by_cases hnone : delivered = true → server.serving request = none ∨
          io.send request.replyRoutingId = false
      · rw [arrived_eq_nil hnone] at htold
        obtain ⟨reply, hform⟩ := (toldSuccess_nothing hw).mp htold
        cases hu.noReply hnone reply true hform
      · push Not at hnone
        obtain ⟨hd, hserve, hio⟩ := hnone
        obtain ⟨handler, hs⟩ := Option.ne_none_iff_exists'.mp hserve
        have hsend : io.send request.replyRoutingId = true := by simpa using hio
        have harrived := arrived_eq_response hs hd hsend
        rw [harrived] at htold
        obtain ⟨data, hanswers, hsync⟩ := (toldSuccess_response hw).mp htold
        obtain ⟨cb, hcb, htrue, -⟩ := id hanswers
        refine ⟨handler, hs, hu.requestParses handler hs (by simp [hcb]), ⟨cb, hcb, htrue⟩, ?_⟩
        refine ⟨responseOf handler request, by rw [harrived]; exact List.mem_singleton_self _, ?_⟩
        have hdata : (responseOf handler request).repData = data := by
          rw [← RepHandler.runCallback_eq_true] at hanswers
          simp only [responseOf, hanswers]
        rw [hdata]
        cases hform : form.hasCallback with
        | true => exact hu.replyParses hform hd hsend handler data hs hanswers
        | false => exact hsync hform
    · intro handler hs hcalls
      exact hu.requestParses handler hs (userCalls_ne_nil.mp hcalls)

/-! ## A request that is no message -/

/-- The caller of an asynchronous request, which is on its way. -/
def exampleAwaiting : ServiceRuntime EmptyOnly :=
  { exampleCaller with
    requestHandlers := HandlerStorage.addHandler {} (str "s") (str "n2") (str "q")
      ⟨.empty, .empty, str "n2", str "q", exampleMsg, true⟩ }

/-- The request as the responder gets it, with data that do not parse. -/
def exampleGarbage : RemoteRequest :=
  ⟨str "z", str "s", str "n2", str "q", [255], str "rf.msgs.Empty", str "rf.msgs.Empty"⟩

theorem genuineSuccess_iff_garbage :
    GenuineSuccess exampleAwaiting exampleServer exampleIo exampleGarbage true exampleAsync ↔
      Understood exampleServer exampleIo exampleGarbage true exampleAsync :=
  genuineSuccess_iff exampleAwaiting exampleServer exampleIo exampleGarbage true
    ⟨.empty, .empty, str "n2", str "q", exampleMsg, true⟩ exampleAsync ⟨rfl, rfl, rfl, rfl⟩

/-- **A request that does not parse is answered with success.**  The callback is called, and
the caller is told that it returned true. -/
theorem garbage_answered :
    ToldSuccess ((exampleAwaiting.handleResponses
        (arrived exampleServer exampleIo exampleGarbage true)).reqState (str "q"))
      exampleAsync ∧
    ¬ GenuineSuccess exampleAwaiting exampleServer exampleIo exampleGarbage true
        exampleAsync := by
  refine ⟨⟨⟨.empty, true⟩, List.mem_singleton_self _⟩, fun hg => ?_⟩
  have hparses := hg.called _ rfl (List.cons_ne_nil _ _)
  cases hparses

end RfTrans
