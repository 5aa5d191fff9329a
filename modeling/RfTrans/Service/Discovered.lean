import RfTrans.Lib.Exec
import RfTrans.Runtime.MessageRuntime
import RfTrans.Service.Request

/-!
# Datagrams at the service runtime

The discovery thread calls `onServiceConnected` for a new responder, which connects
the requester socket there and then, and sends what was waiting for it.  `connect`
throws when the address is no valid endpoint, and nothing between the datagram and the
thread's function catches that.

## Main definitions

* `ServiceRuntime.onServiceConnected`, `onServiceDisconnected`
* `ServiceRuntime.recvDiscoveryMsg` — the discovery thread with the callbacks it makes.
* `ServiceRuntime.recv_not_thrown_iff` — which datagrams it survives.
-/

namespace RfTrans
namespace ServiceRuntime

open TopicStorage Exec

variable {T : Type} [ProtoTypes T]

/-- The type test of `getFirstHandler` for requests. -/
def matchesTypes (reqType repType : Str) (h : ReqHandler T) : Bool :=
  reqType = h.getReqTypeName ∧ repType = h.getRepTypeName

/-- `onServiceConnected` -/
def onServiceConnected (rt : ServiceRuntime T) (io : SocketIo) (pub : ServicePublisherInfo) :
    Outcome T :=
  let connected := pub.addr ∈ rt.requesterConnections
  let connects := if connected then [] else [(pub.addr, io.connect pub.addr)]
  if ¬ connected ∧ io.connect pub.addr = false then
    { self := rt, connects := connects, thrown := true }
  else
    let rt := if connected then rt
      else { rt with requesterConnections := rt.requesterConnections ++ [pub.addr] }
    match rt.requestHandlers.getFirstHandler pub.topic
        (matchesTypes pub.reqTypeName pub.repTypeName) with
    | none => { self := rt, connects := connects }
    | some _ =>
      let o := rt.sendPendingRequests io pub.topic pub.reqTypeName pub.repTypeName
      { o with connects := connects ++ o.connects }

/-- `onServiceDisconnected` -/
def onServiceDisconnected (rt : ServiceRuntime T) (pub : ServicePublisherInfo) :
    ServiceRuntime T :=
  { rt with requesterConnections := rt.requesterConnections.filter (· ≠ pub.addr) }

/-- The callbacks that `start` sets; the other two stay empty. -/
def onCallback (io : SocketIo) (o : Outcome T) : Callback ServicePublisherInfo → Outcome T
  | .connection pub =>
    let o' := o.self.onServiceConnected io pub
    { o' with sent := o.sent ++ o'.sent, connects := o.connects ++ o'.connects }
  | .disconnection pub => { o with self := o.self.onServiceDisconnected pub }
  | .registration _ => o
  | .unregistration _ => o

/-- Take over what a member function of the discovery instance did; an exception ends it. -/
def absorb (rt : ServiceRuntime T) (io : SocketIo) (o : RfTrans.Outcome ServicePublisherInfo) :
    Outcome T :=
  o.calls.foldl (fun o c => if o.thrown then o else onCallback io o c)
    { self := { rt with discovery := o.self } }

/-- A datagram reaches the discovery thread. -/
def recvDiscoveryMsg (rt : ServiceRuntime T) (io : SocketIo) (fromIp : Str) (m : Msgs.Discovery)
    (now : ℕ) : Outcome T :=
  rt.absorb io (rt.discovery.dispatchDiscoveryMsg fromIp m now)

/-- `updateHeartbeat` of the discovery thread. -/
def updateHeartbeat (rt : ServiceRuntime T) (io : SocketIo) (now later : ℕ) : Outcome T :=
  rt.absorb io (rt.discovery.updateHeartbeat now later)

/-- `updateActivity` of the discovery thread. -/
def updateActivity (rt : ServiceRuntime T) (io : SocketIo) (now later : ℕ) : Outcome T :=
  rt.absorb io (rt.discovery.updateActivity now later)

/-- `advertise` -/
def advertise (rt : ServiceRuntime T) (io : SocketIo) (topic nodeUuid : Str)
    (handler : RepHandler T) (reqType repType : Str) (options : AdvertiseServiceOptions) :
    Outcome T × Bool :=
  let rt := { rt with
    responseHandlers := rt.responseHandlers.addHandler topic nodeUuid handler.handlerUuid handler }
  let (o, ok) := rt.discovery.advertise (ServicePublisherInfo.make topic rt.replierAddress
    rt.replierUuid rt.processUuid nodeUuid reqType repType options)
  (rt.absorb io o, ok)

/-- `unadvertise` -/
def unadvertise (rt : ServiceRuntime T) (io : SocketIo) (topic nodeUuid : Str) :
    Outcome T × Bool :=
  let rt := { rt with
    responseHandlers := (rt.responseHandlers.removeHandlersForNode topic nodeUuid).1 }
  let (o, ok) := rt.discovery.unadvertise topic nodeUuid
  (rt.absorb io o, ok)

/-- A runtime after `initialize` and `start`. -/
def init (processUuid processName hostAddr replierUuid replierAddress : Str) :
    ServiceRuntime T where
  discovery :=
    { processUuid := processUuid, processName := processName, hostAddr := hostAddr,
      registrationCb := false, unregistrationCb := false }
  processUuid := processUuid
  replierUuid := replierUuid
  replierAddress := replierAddress

/-- What can happen in a process: a call of one of its nodes, or a step of the discovery
thread or of the thread that handles the responses. -/
inductive Action (T : Type) [ProtoTypes T]
  | advertise (topic nodeUuid : Str) (handler : RepHandler T) (reqType repType : Str)
    (options : AdvertiseServiceOptions)
  | unadvertise (topic nodeUuid : Str)
  | request (topic nodeUuid : Str) (handler : ReqHandler T)
  | recv (fromIp : Str) (m : Msgs.Discovery) (now : ℕ)
  | heartbeat (now later : ℕ)
  | activity (now later : ℕ)
  | handleResponses (responses : List RemoteResponse)

/-- One action, while the sockets are as `io` says. -/
def perform (rt : ServiceRuntime T) (io : SocketIo) : Action T → Outcome T
  | .advertise topic nodeUuid handler reqType repType options =>
    (rt.advertise io topic nodeUuid handler reqType repType options).1
  | .unadvertise topic nodeUuid => (rt.unadvertise io topic nodeUuid).1
  | .request topic nodeUuid handler => (rt.request io topic nodeUuid handler).1
  | .recv fromIp m now => rt.recvDiscoveryMsg io fromIp m now
  | .heartbeat now later => rt.updateHeartbeat io now later
  | .activity now later => rt.updateActivity io now later
  | .handleResponses responses => { self := rt.handleResponses responses }

/-- A step of a run. An exception in a call of a node goes to its caller. -/
def next (rt : ServiceRuntime T) (a : SocketIo × Action T) : Option (ServiceRuntime T) :=
  some (rt.perform a.1 a.2).self

/-! ## What sending changes -/

/-- Connecting and sending change the connections and the requests' states only. -/
def Sends (rt rt' : ServiceRuntime T) : Prop :=
  ∃ connections states,
    rt' = { rt with requesterConnections := connections, reqStates := states }

theorem Sends.refl (rt : ServiceRuntime T) : rt.Sends rt := ⟨_, _, rfl⟩

theorem Sends.trans {a b c : ServiceRuntime T} (h : a.Sends b) (h' : b.Sends c) : a.Sends c := by
  obtain ⟨connections, states, rfl⟩ := h
  obtain ⟨connections', states', rfl⟩ := h'
  exact ⟨connections', states', rfl⟩

section Sends
variable (rt : ServiceRuntime T) (io : SocketIo)

theorem sends_sendAll (responder : ServicePublisherInfo) (topic reqType repType : Str)
    (pending : List (Pending T)) (o : Outcome T) :
    o.self.Sends (sendAll io responder topic reqType repType pending o).self := by
  induction pending generalizing o with
  | nil => exact Sends.refl _
  | cons x pending ih =>
      rw [sendAll_cons]
      rcases sendPending_cases io responder topic reqType repType o x with h | ⟨data, -, h⟩
      · rw [h]
        exact ih o
      · refine Sends.trans ?_ (ih _)
        rw [h]
        exact ⟨_, _, rfl⟩

theorem sends_connect (p : Prop) [Decidable p] (addr : Str) :
    rt.Sends (if p then rt
      else { rt with requesterConnections := rt.requesterConnections ++ [addr] }) := by
  split
  case isTrue => exact Sends.refl rt
  case isFalse => exact ⟨_, _, rfl⟩

theorem sends_sendPendingRequests (topic reqType repType : Str) :
    rt.Sends (rt.sendPendingRequests io topic reqType repType).self := by
  simp only [sendPendingRequests]
  cases rt.responder topic reqType repType with
  | none => exact Sends.refl rt
  | some r =>
      dsimp only
      split
      case isTrue => exact Sends.refl rt
      case isFalse =>
        split
        case h_1 => exact rt.sends_connect _ r.addr
        case h_2 => exact (rt.sends_connect _ r.addr).trans (sends_sendAll ..)

theorem sends_onServiceConnected (pub : ServicePublisherInfo) :
    rt.Sends (rt.onServiceConnected io pub).self := by
  simp only [onServiceConnected]
  split
  case isTrue => exact Sends.refl rt
  case isFalse =>
    split
    case h_1 => exact rt.sends_connect _ pub.addr
    case h_2 => exact (rt.sends_connect _ pub.addr).trans (sends_sendPendingRequests ..)

theorem sends_absorb (o : RfTrans.Outcome ServicePublisherInfo) :
    Sends { rt with discovery := o.self } (rt.absorb io o).self := by
  suffices h : ∀ (calls : List (Callback ServicePublisherInfo)) (o : Outcome T),
      o.self.Sends (calls.foldl (fun o c => if o.thrown then o else onCallback io o c) o).self from
    h o.calls { self := { rt with discovery := o.self } }
  intro calls
  induction calls with
  | nil => exact fun o => Sends.refl _
  | cons c calls ih =>
      intro o
      refine Sends.trans ?_ (ih _)
      dsimp only
      split
      case isTrue => exact Sends.refl _
      case isFalse =>
        cases c with
        | connection p => exact sends_onServiceConnected o.self io p
        | disconnection p => exact ⟨_, _, rfl⟩
        | registration p => exact Sends.refl _
        | unregistration p => exact Sends.refl _

@[simp] theorem discovery_absorb (o : RfTrans.Outcome ServicePublisherInfo) :
    (rt.absorb io o).self.discovery = o.self := by
  obtain ⟨connections, states, h⟩ := rt.sends_absorb io o
  rw [h]

@[simp] theorem discovery_request (topic nodeUuid : Str) (handler : ReqHandler T) :
    (rt.request io topic nodeUuid handler).1.self.discovery = rt.discovery := by
  simp only [request]
  split
  case isTrue => rfl
  case isFalse =>
    obtain ⟨connections, states, h⟩ := sends_sendPendingRequests
      { rt with
        requestHandlers :=
          rt.requestHandlers.addHandler topic nodeUuid handler.handlerUuid handler }
      io topic handler.getReqTypeName handler.getRepTypeName
    exact (congrArg discovery h :)

@[simp] theorem discovery_handleResponses (responses : List RemoteResponse) :
    (rt.handleResponses responses).discovery = rt.discovery := by
  induction responses generalizing rt with
  | nil => rfl
  | cons r responses ih =>
      refine (ih (rt.handleResponse r)).trans ?_
      simp only [handleResponse]
      split <;> rfl

/-- The callbacks stay set as long as a process runs. -/
theorem connectionCb_perform (a : Action T) :
    (rt.perform io a).self.discovery.connectionCb = rt.discovery.connectionCb := by
  cases a with
  | advertise topic nodeUuid handler reqType repType options =>
      simp only [perform, advertise, discovery_absorb]
      simp only [Discovery.advertise]
      split
      case isTrue => split <;> rfl
      case isFalse => rfl
  | unadvertise topic nodeUuid =>
      simp only [perform, unadvertise, discovery_absorb]
      simp only [Discovery.unadvertise]
      split
      case isTrue => split <;> rfl
      case isFalse => rfl
  | request topic nodeUuid handler => simp only [perform, discovery_request]
  | recv fromIp m now =>
      obtain ⟨known, seen, hself⟩ := rt.discovery.self_dispatch fromIp m now
      simp only [perform, recvDiscoveryMsg, discovery_absorb, hself]
  | heartbeat now later =>
      simp only [perform, updateHeartbeat, discovery_absorb, Discovery.self_updateHeartbeat]
  | activity now later =>
      simp only [perform, updateActivity, discovery_absorb]
      simp only [Discovery.updateActivity]
      split <;> rfl
  | handleResponses responses => simp only [perform, discovery_handleResponses]

end Sends

/-! ## Which datagrams are survived -/

/-- The responder that a datagram makes known. -/
def learns (rt : ServiceRuntime T) (fromIp : Str) (m : Msgs.Discovery) :
    Option ServicePublisherInfo :=
  let pub : ServicePublisherInfo := PubLike.setFromDiscovery (PubLike.default) m
  if m.processUuid ≠ rt.discovery.processUuid ∧ m.type = .advertise ∧
      Discovery.hidden pub (rt.discovery.isSenderLocal fromIp) = false ∧
      (rt.discovery.knownPublishers.addPublisher pub).2 = true then some pub
  else none

/-- Connecting to an address does not throw: it is connected, or a valid endpoint. -/
def MayConnect (rt : ServiceRuntime T) (io : SocketIo) (addr : Str) : Prop :=
  addr ∈ rt.requesterConnections ∨ io.connect addr = true

/-- The responder that a waiting request would be sent to, with one more publisher known. -/
def responderWith (rt : ServiceRuntime T) (pub : ServicePublisherInfo) :
    Option ServicePublisherInfo :=
  { rt with
    discovery.knownPublishers := (rt.discovery.knownPublishers.addPublisher pub).1 }.responder
      pub.topic pub.reqTypeName pub.repTypeName

/-- The responder that a datagram makes known can be connected, and so can the one that
the requests of its types are sent to, if any is waiting. -/
def Survivable (rt : ServiceRuntime T) (io : SocketIo) (fromIp : Str) (m : Msgs.Discovery) :
    Prop :=
  ∀ pub ∈ rt.learns fromIp m, rt.MayConnect io pub.addr ∧
    ((rt.requestHandlers.getFirstHandler pub.topic
        (matchesTypes pub.reqTypeName pub.repTypeName)).isSome →
      ∀ r ∈ rt.responderWith pub, r.addr = pub.addr ∨ rt.MayConnect io r.addr)

/-- Connecting where it is needed does not throw. -/
theorem mayConnect_iff (rt : ServiceRuntime T) (io : SocketIo) (addr : Str) :
    ¬ (¬ addr ∈ rt.requesterConnections ∧ io.connect addr = false) ↔ rt.MayConnect io addr := by
  rw [not_and_or, not_not, Bool.not_eq_false]
  exact Iff.rfl

/-- `sendPendingRequests` throws when the responder cannot be connected. -/
theorem sendPendingRequests_thrown (rt : ServiceRuntime T) (io : SocketIo)
    (topic reqType repType : Str) :
    (rt.sendPendingRequests io topic reqType repType).thrown = false ↔
      ∀ r ∈ rt.responder topic reqType repType, rt.MayConnect io r.addr := by
  cases hr : rt.responder topic reqType repType with
  | none => simp [sendPendingRequests, hr]
  | some r =>
      have hall : (∀ r' ∈ some r, rt.MayConnect io r'.addr) ↔ rt.MayConnect io r.addr := by
        simp
      rw [hall, ← mayConnect_iff]
      simp only [sendPendingRequests, hr]
      by_cases hbad : ¬ r.addr ∈ rt.requesterConnections ∧ io.connect r.addr = false
      · rw [if_pos hbad]
        exact iff_of_false (by simp) (not_not.mpr hbad)
      · rw [if_neg hbad]
        refine iff_of_true ?_ hbad
        split
        case h_1 => rfl
        case h_2 => exact thrown_sendAll ..

theorem onServiceConnected_thrown (rt : ServiceRuntime T) (io : SocketIo)
    (pub : ServicePublisherInfo) :
    (rt.onServiceConnected io pub).thrown = false ↔ rt.MayConnect io pub.addr ∧
      ((rt.requestHandlers.getFirstHandler pub.topic
          (matchesTypes pub.reqTypeName pub.repTypeName)).isSome →
        ∀ r ∈ rt.responder pub.topic pub.reqTypeName pub.repTypeName,
          r.addr = pub.addr ∨ rt.MayConnect io r.addr) := by
  simp only [onServiceConnected]
  rw [← rt.mayConnect_iff io pub.addr]
  by_cases hbad : ¬ pub.addr ∈ rt.requesterConnections ∧ io.connect pub.addr = false
  · rw [if_pos hbad]
    exact iff_of_false (by simp) fun h => h.1 hbad
  · rw [if_neg hbad, and_iff_right hbad]
    -- the runtime with the connection made
    generalize hrt : (if pub.addr ∈ rt.requesterConnections then rt
      else { rt with requesterConnections := rt.requesterConnections ++ [pub.addr] }) = rt'
    have hsame : rt'.requestHandlers = rt.requestHandlers ∧ (∀ t q p,
        rt'.responder t q p = rt.responder t q p) ∧
        ∀ a, rt'.MayConnect io a ↔ a = pub.addr ∨ rt.MayConnect io a := by
      by_cases hc : pub.addr ∈ rt.requesterConnections
      · rw [if_pos hc] at hrt
        subst hrt
        refine ⟨rfl, fun _ _ _ => rfl, fun a => ⟨.inr, ?_⟩⟩
        rintro (rfl | ha)
        · exact .inl hc
        · exact ha
      · rw [if_neg hc] at hrt
        subst hrt
        refine ⟨rfl, fun _ _ _ => rfl, fun a => ?_⟩
        simp only [MayConnect, List.mem_append, List.mem_singleton]
        rw [or_right_comm, or_comm]
    rw [hsame.1]
    cases rt.requestHandlers.getFirstHandler pub.topic
        (matchesTypes pub.reqTypeName pub.repTypeName) with
    | none => simp
    | some handler =>
        simp only [Option.isSome_some, true_imp_iff]
        rw [sendPendingRequests_thrown, hsame.2.1]
        simp only [hsame.2.2]

/-- A datagram makes at most one call, and a connection call for what it makes known. -/
theorem calls_dispatch (rt : ServiceRuntime T) (hcb : rt.discovery.connectionCb = true)
    (fromIp : Str) (m : Msgs.Discovery) (now : ℕ) :
    let o := rt.discovery.dispatchDiscoveryMsg fromIp m now
    match rt.learns fromIp m with
    | some pub => o.calls = [.connection pub] ∧
        o.self.knownPublishers = (rt.discovery.knownPublishers.addPublisher pub).1
    | none => ∀ c ∈ o.calls, ∀ p, c ≠ .connection p := by
  by_cases huuid : m.processUuid = rt.discovery.processUuid
  · simp [learns, Discovery.dispatchDiscoveryMsg, huuid]
  by_cases hadv : m.type = .advertise
  · simp only [learns, Discovery.dispatchDiscoveryMsg, if_neg huuid, hadv, Discovery.isSenderLocal]
    generalize (PubLike.setFromDiscovery PubLike.default m : ServicePublisherInfo) = pub
    by_cases hhid : Discovery.hidden pub (decide (fromIp = rt.discovery.hostAddr) ||
        (str "127.").isPrefixOf fromIp) = true
    · simp [hhid]
    · by_cases hadd : (rt.discovery.knownPublishers.addPublisher pub).2 = true
      · simp [hhid, hadd, hcb, huuid]
      · simp [hhid, hadd]
  · have hnone : rt.learns fromIp m = none := if_neg fun h => hadv h.2.1
    rw [hnone]
    rintro o c hc p rfl
    simp only [Discovery.dispatchDiscoveryMsg, if_neg huuid, o] at hc
    split at hc
    case h_1 ht => exact hadv ht
    case h_2 => split at hc <;> simp at hc
    case h_3 => split at hc <;> simp at hc
    all_goals simp at hc

/-- Without a connection call the sockets are left alone. -/
theorem thrown_foldl (io : SocketIo) (o : Outcome T) {calls : List (Callback ServicePublisherInfo)}
    (h : ∀ c ∈ calls, ∀ p, c ≠ .connection p) :
    (calls.foldl (fun o c => if o.thrown then o else onCallback io o c) o).thrown = o.thrown := by
  induction calls generalizing o with
  | nil => rfl
  | cons c calls ih =>
      have hc : (if o.thrown then o else onCallback io o c).thrown = o.thrown := by
        by_cases ho : o.thrown = true
        · rw [if_pos ho]
        · rw [if_neg ho]
          cases c with
          | connection p => exact absurd rfl (h _ List.mem_cons_self p)
          | disconnection p => rfl
          | registration p => rfl
          | unregistration p => rfl
      exact (ih _ fun c hc => h c (List.mem_cons_of_mem _ hc)).trans hc

/-- **One datagram.** -/
theorem recv_thrown (rt : ServiceRuntime T) (hcb : rt.discovery.connectionCb = true)
    (io : SocketIo) (fromIp : Str) (m : Msgs.Discovery) (now : ℕ) :
    (rt.recvDiscoveryMsg io fromIp m now).thrown = false ↔ rt.Survivable io fromIp m := by
  have hcalls := rt.calls_dispatch hcb fromIp m now
  simp only [recvDiscoveryMsg, absorb, Survivable]
  cases hl : rt.learns fromIp m with
  | none =>
      simp only [hl] at hcalls
      rw [thrown_foldl io _ hcalls]
      simp
  | some pub =>
      simp only [hl] at hcalls
      obtain ⟨hone, hknown⟩ := hcalls
      have hiff := onServiceConnected_thrown
        { rt with discovery := (rt.discovery.dispatchDiscoveryMsg fromIp m now).self } io pub
      have hresp : ∀ t q p, ServiceRuntime.responder
          { rt with discovery := (rt.discovery.dispatchDiscoveryMsg fromIp m now).self } t q p =
          ServiceRuntime.responder { rt with
            discovery.knownPublishers := (rt.discovery.knownPublishers.addPublisher pub).1 }
            t q p := by
        intro t q p
        simp only [responder, hknown]
      rw [hresp] at hiff
      rw [hone]
      refine Iff.trans hiff ?_
      simp only [Option.mem_some_iff, forall_eq']
      exact Iff.rfl

/-- A datagram leaves the discovery thread running. -/
def Survives (rt : ServiceRuntime T) : SocketIo × Action T → Prop
  | (io, .recv fromIp m now) => (rt.recvDiscoveryMsg io fromIp m now).thrown = false
  | _ => True

/-- The condition on the addresses of an action. -/
def Connectable (rt : ServiceRuntime T) : SocketIo × Action T → Prop
  | (io, .recv fromIp m _) => rt.Survivable io fromIp m
  | _ => True

/-- The SUB socket is left to the receive thread: the discovery thread only queues
commands for it. -/
theorem subscriber_recv (rt : MessageRuntime) (fromIp : Str) (m : Msgs.Discovery) (now : ℕ) :
    (rt.recvDiscoveryMsg fromIp m now).1.subscriber = rt.subscriber := by
  suffices h : ∀ (calls : List (Callback MessagePublisherInfo)) (rt : MessageRuntime),
      (calls.foldl MessageRuntime.onCallback rt).subscriber = rt.subscriber from
    h (rt.discovery.dispatchDiscoveryMsg fromIp m now).calls
      { rt with discovery := (rt.discovery.dispatchDiscoveryMsg fromIp m now).self }
  intro calls
  induction calls with
  | nil => exact fun rt => rfl
  | cons c calls ih =>
      intro rt
      refine (ih _).trans ?_
      cases c with
      | connection p =>
          simp only [MessageRuntime.onCallback, MessageRuntime.onPublisherConnected]
          split
          case isTrue => rfl
          case isFalse => split <;> rfl
      | disconnection p =>
          simp only [MessageRuntime.onCallback, MessageRuntime.onPublisherDisconnected]
          split <;> rfl
      | registration p =>
          simp only [MessageRuntime.onCallback, MessageRuntime.onSubscriberRegistered]
          split <;> rfl
      | unregistration p =>
          simp only [MessageRuntime.onCallback, MessageRuntime.onSubscriberUnregistered]
          split <;> rfl

/-- **No datagram ends a process whose peers advertise what can be connected.**  The
service runtime survives a run of datagrams exactly when every responder they make known
can be connected where it is needed; the message runtime does not touch a socket at all. -/
theorem survives_iff (processUuid processName hostAddr replierUuid replierAddress : Str)
    (run : List (SocketIo × Action T)) :
    (Guarded next Survives (init processUuid processName hostAddr replierUuid replierAddress)
        run ↔
      Guarded next Connectable (init processUuid processName hostAddr replierUuid replierAddress)
        run) ∧
    ∀ (rt : MessageRuntime) (fromIp : Str) (m : Msgs.Discovery) (now : ℕ),
      (rt.recvDiscoveryMsg fromIp m now).1.subscriber = rt.subscriber := by
  refine ⟨?_, subscriber_recv⟩
  suffices h : ∀ rt : ServiceRuntime T, rt.discovery.connectionCb = true →
      (Guarded next Survives rt run ↔ Guarded next Connectable rt run) from h _ rfl
  induction run with
  | nil => exact fun rt _ => Iff.rfl
  | cons a run ih =>
      intro rt hcb
      have hstep : rt.Survives a ↔ rt.Connectable a := by
        obtain ⟨io, a⟩ := a
        cases a with
        | recv fromIp m now => exact rt.recv_thrown hcb io fromIp m now
        | _ => exact Iff.rfl
      rw [guarded_cons, guarded_cons, hstep]
      refine and_congr_right fun _ => forall_congr' fun rt' => forall_congr' fun h => ih rt' ?_
      obtain rfl := Option.some.inj h
      exact (rt.connectionCb_perform a.1 a.2).trans hcb

/-! ## An address that is none -/

/-- Sockets that take one address only. -/
def onlyAddress (addr : Str) : SocketIo := ⟨fun a => a = addr, fun _ => true⟩

/-- The ADVERTISE of a responder at an address. -/
def advertisementAt (addr : Str) : Msgs.Discovery :=
  ServicePublisherInfo.fillDiscovery (ServicePublisherInfo.make (str "s") addr (str "rep")
      (str "5b") (str "n")
    (str "Req") (str "Rep") {})
    { version := kWireVersion, type := .advertise, processUuid := str "5b" }

/-- **One datagram ends the process.** -/
theorem advertisement_kills :
    ¬ Guarded next Survives
      (init (str "4a") [] (str "10.0.0.1") (str "r") (str "tcp://a") : ServiceRuntime EmptyOnly)
      [(onlyAddress (str "tcp://b"), .recv (str "10.0.0.2") (advertisementAt (str "x")) 0)] := by
  rintro ⟨h, -⟩
  have hthrown : (recvDiscoveryMsg
      (init (str "4a") [] (str "10.0.0.1") (str "r") (str "tcp://a") : ServiceRuntime EmptyOnly)
      (onlyAddress (str "tcp://b")) (str "10.0.0.2") (advertisementAt (str "x")) 0).thrown =
        true := by
    decide
  exact Bool.noConfusion (hthrown.symm.trans h)

end ServiceRuntime
end RfTrans
