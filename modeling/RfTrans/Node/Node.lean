import RfTrans.Discovery.Runs
import RfTrans.Runtime.Known
import RfTrans.Service.Discovered

/-!
# Nodes

A `Node` is a handle of the process-wide runtimes.  It notes the topics it subscribes to
and advertises, and its destructor undoes what is noted.

## Main definitions

* `NodeShared`, `Node` — the runtimes of the process and a node of it.
* `NodeState.advertise`, `subscribe`, `advertiseService`, `requestAsync`, `requestSync`
  and their undo operations.
* `NodeState.destroy` — the destructor.
* `NodeState.LeavesNothing` — no table holds an entry of the node.
* `NodeState.leavesNothing_iff` — when that is so after the destructor.
-/

namespace RfTrans

open Exec ProtoTypes

/-- `NodeShared` -/
structure NodeShared (T : Type) [ProtoTypes T] where
  message : MessageRuntime
  service : ServiceRuntime T

/-- `Node::NodePrivate`. The sets are unordered; a list stands for one in some order. -/
structure Node where
  nodeUuid : Str
  subscribedTopics : List Str := []
  advertisedTopics : List Str := []
  advertisedSrvs : List Str := []

/-- A node with the runtimes of its process. -/
structure NodeState (T : Type) [ProtoTypes T] where
  shared : NodeShared T
  node : Node

namespace NodeState

variable {T : Type} [ProtoTypes T]

/-- `Node::advertise` for messages: the record of the publisher it returns, if any. -/
def advertise (s : NodeState T) (topic msgType : Str) (options : AdvertiseMessageOptions) :
    NodeState T × Option MessagePublisherInfo :=
  if topic ∈ s.node.advertisedTopics then (s, none)
  else
    let (rt, _, pub) := s.shared.message.advertise topic s.node.nodeUuid msgType options
    let s := { s with shared.message := rt }
    match pub with
    | none => (s, none)
    | some pub =>
      ({ s with node.advertisedTopics := s.node.advertisedTopics.insert topic }, some pub)

/-- `Node::unadvertise` -/
def unadvertise (s : NodeState T) (topic : Str) : NodeState T :=
  let s := { s with node.advertisedTopics := s.node.advertisedTopics.filter (· ≠ topic) }
  { s with shared.message := (s.shared.message.unadvertise topic s.node.nodeUuid).1 }

/-- `Node::subscribe`, with the uuid of the new handler. -/
def subscribe (s : NodeState T) (topic handlerUuid msgType : Str) : NodeState T :=
  let handler : SubscriptionHandler :=
    { handlerUuid := handlerUuid, nodeUuid := s.node.nodeUuid, msgType := msgType }
  let s := { s with node.subscribedTopics := s.node.subscribedTopics.insert topic }
  { s with shared.message := (s.shared.message.subscribe topic s.node.nodeUuid handler).1 }

/-- `Node::unsubscribe`; the runtime's always succeeds. -/
def unsubscribe (s : NodeState T) (topic : Str) : NodeState T :=
  let s := { s with
    shared.message := (s.shared.message.unsubscribe topic s.node.nodeUuid).1 }
  { s with node.subscribedTopics := s.node.subscribedTopics.filter (· ≠ topic) }

/-- `Node::advertise` for services; the other forms call it with `Empty`. An exception of
the runtime passes through. -/
def advertiseService (s : NodeState T) (io : SocketIo) (topic : Str) (handler : RepHandler T)
    (options : AdvertiseServiceOptions) : NodeState T × Bool :=
  if topic ∈ s.node.advertisedSrvs then (s, false)
  else
    let s := { s with node.advertisedSrvs := s.node.advertisedSrvs.insert topic }
    let (o, ok) := s.shared.service.advertise io topic s.node.nodeUuid handler
      handler.getReqTypeName handler.getRepTypeName options
    ({ s with shared.service := o.self }, ok && !o.thrown)

/-- `Node::unadvertiseService` -/
def unadvertiseService (s : NodeState T) (io : SocketIo) (topic : Str) : NodeState T × Bool :=
  let s := { s with node.advertisedSrvs := s.node.advertisedSrvs.filter (· ≠ topic) }
  let (o, ok) := s.shared.service.unadvertise io topic s.node.nodeUuid
  ({ s with shared.service := o.self }, ok)

/-- The asynchronous forms of `Node::request`; `none` when a callback of this process is
handed a null pointer. -/
def requestAsync (s : NodeState T) (io : SocketIo) (topic handlerUuid : Str) {req : T} (rep : T)
    (msg : Content req) : Option (NodeState T) :=
  (s.shared.service.requestAsync io topic s.node.nodeUuid handlerUuid rep msg).map fun x =>
    { s with shared.service := x.1.self }

/-- The synchronous forms up to `waitFor`; what follows touches no table. -/
def requestSync (s : NodeState T) (io : SocketIo) (topic handlerUuid : Str) {req rep : T}
    (msg : Content req) (reply : Content rep) : Option (NodeState T) :=
  (s.shared.service.requestSync io topic s.node.nodeUuid handlerUuid msg reply).map fun x =>
    { s with shared.service := x.1.self }

/-- `~Node` -/
def destroy (s : NodeState T) (io : SocketIo) : NodeState T :=
  let s := s.node.subscribedTopics.foldl unsubscribe s
  let s := s.node.advertisedTopics.foldl unadvertise s
  s.node.advertisedSrvs.foldl (fun s topic => (s.unadvertiseService io topic).1) s

/-! ## Runs -/

/-- The node that makes a call of the message runtime. -/
def messageCaller : MessageRuntime.Action → Option Str
  | .advertise _ nodeUuid _ _ => some nodeUuid
  | .unadvertise _ nodeUuid => some nodeUuid
  | .subscribe _ nodeUuid _ => some nodeUuid
  | .unsubscribe _ nodeUuid => some nodeUuid
  | .recv _ _ _ | .heartbeat _ _ | .activity _ _ | .applyCommand _ => none

/-- The node that makes a call of the service runtime. -/
def serviceCaller : ServiceRuntime.Action T → Option Str
  | .advertise _ nodeUuid _ _ _ _ => some nodeUuid
  | .unadvertise _ nodeUuid => some nodeUuid
  | .request _ nodeUuid _ => some nodeUuid
  | .recv _ _ _ | .heartbeat _ _ | .activity _ _ | .handleResponses _ => none

/-- A call of the node, or something else that happens in the process: a call of another
node or a step of the runtimes' threads. -/
inductive Action (T : Type) [ProtoTypes T]
  | advertise (topic msgType : Str) (options : AdvertiseMessageOptions)
  | unadvertise (topic : Str)
  | subscribe (topic handlerUuid msgType : Str)
  | unsubscribe (topic : Str)
  | advertiseService (topic : Str) (handler : RepHandler T) (options : AdvertiseServiceOptions)
  | unadvertiseService (topic : Str)
  | requestAsync (topic handlerUuid : Str) (req rep : T) (msg : Content req)
  | requestSync (topic handlerUuid : Str) (req rep : T) (msg : Content req) (reply : Content rep)
  | message (a : MessageRuntime.Action)
  | service (a : ServiceRuntime.Action T)

/-- One action, while the sockets are as `io` says. -/
def next (s : NodeState T) (io : SocketIo) : Action T → Option (NodeState T)
  | .advertise topic msgType options => some (s.advertise topic msgType options).1
  | .unadvertise topic => some (s.unadvertise topic)
  | .subscribe topic handlerUuid msgType => some (s.subscribe topic handlerUuid msgType)
  | .unsubscribe topic => some (s.unsubscribe topic)
  | .advertiseService topic handler options => some (s.advertiseService io topic handler options).1
  | .unadvertiseService topic => some (s.unadvertiseService io topic).1
  | .requestAsync topic handlerUuid _ rep msg => s.requestAsync io topic handlerUuid rep msg
  | .requestSync topic handlerUuid _ _ msg reply => s.requestSync io topic handlerUuid msg reply
  | .message a =>
    if messageCaller a = some s.node.nodeUuid then none
    else (s.shared.message.perform a).map fun x => { s with shared.message := x.1 }
  | .service a =>
    if serviceCaller a = some s.node.nodeUuid then none
    else some { s with shared.service := (s.shared.service.perform io a).self }

/-- A step of a run. -/
def step (s : NodeState T) (a : SocketIo × Action T) : Option (NodeState T) := s.next a.1 a.2

/-- A new node in a process that has just started. -/
def init (processUuid processName hostAddr address replierUuid replierAddress nodeUuid : Str) :
    NodeState T where
  shared :=
    { message := MessageRuntime.init processUuid processName hostAddr address
      service := ServiceRuntime.init processUuid processName hostAddr replierUuid replierAddress }
  node := { nodeUuid := nodeUuid }

/-! ## What a table holds of the node -/

section Holds
variable (s : NodeState T) (topic : Str)

/-- `local_subscribers_` -/
def HasSubscription : Prop :=
  s.shared.message.localSubscribers.hasHandlersForNode topic s.node.nodeUuid = true

/-- The own-process entries of the message discovery. -/
def HasPublisher : Prop := s.shared.message.discovery.HoldsOwn topic s.node.nodeUuid

/-- `response_handlers_` -/
def HasResponder : Prop :=
  s.shared.service.responseHandlers.hasHandlersForNode topic s.node.nodeUuid = true

/-- The own-process entries of the service discovery. -/
def HasService : Prop := s.shared.service.discovery.HoldsOwn topic s.node.nodeUuid

/-- `request_handlers_` -/
def HasRequest : Prop :=
  s.shared.service.requestHandlers.hasHandlersForNode topic s.node.nodeUuid = true

/-- No table holds an entry of the node. -/
def LeavesNothing : Prop :=
  ∀ topic, ¬ s.HasSubscription topic ∧ ¬ s.HasPublisher topic ∧ ¬ s.HasResponder topic ∧
    ¬ s.HasService topic ∧ ¬ s.HasRequest topic

end Holds

/-! ## One step of a runtime -/

/-- What the tables of the message runtime hold of a node after a step they held before
and the step did not take back, or the step put it there. -/
structure MessageStep (uuid : Str) (rt : MessageRuntime) (a : MessageRuntime.Action)
    (rt' : MessageRuntime) : Prop where
  alert : Discovery.Alert uuid rt'.discovery
  subscription : ∀ t n, rt'.localSubscribers.hasHandlersForNode t n = true →
    (rt.localSubscribers.hasHandlersForNode t n = true ∧ a ≠ .unsubscribe t n) ∨
      ∃ handler, a = .subscribe t n handler
  publisher : ∀ t n, rt'.discovery.HoldsOwn t n →
    (rt.discovery.HoldsOwn t n ∧ a ≠ .unadvertise t n) ∨
      ∃ msgType options, a = .advertise t n msgType options

/-- A step that only hands an action to the discovery instance. -/
theorem MessageStep.of_discovery {uuid : Str} {rt rt' : MessageRuntime}
    {a : MessageRuntime.Action} (h : Discovery.Alert uuid rt.discovery)
    {d : Discovery.Action MessagePublisherInfo}
    (hd : rt'.discovery = (rt.discovery.perform d).self)
    (hl : rt'.localSubscribers = rt.localSubscribers) (hun : ∀ t n, a ≠ .unsubscribe t n)
    (hunadv : ∀ t n, a = .unadvertise t n → d = .unadvertise t n)
    (hadv : ∀ p, d = .advertise p →
      ∃ msgType options, a = .advertise p.topic p.nodeUuid msgType options) :
    MessageStep uuid rt a rt' where
  alert := hd ▸ h.step d
  subscription t n hheld := .inl ⟨hl ▸ hheld, hun t n⟩
  publisher t n hheld := by
    rw [hd] at hheld
    rcases h.holdsOwn_perform hheld with ⟨hold, hne⟩ | ⟨p, hp, rfl, rfl⟩
    · exact .inl ⟨hold, fun ha => hne (hunadv t n ha)⟩
    · exact .inr (hadv p hp)

/-- A step that leaves the discovery instance alone. -/
theorem MessageStep.of_same {uuid : Str} {rt rt' : MessageRuntime} {a : MessageRuntime.Action}
    (h : Discovery.Alert uuid rt.discovery) (hd : rt'.discovery = rt.discovery)
    (hsub : ∀ t n, rt'.localSubscribers.hasHandlersForNode t n = true →
      (rt.localSubscribers.hasHandlersForNode t n = true ∧ a ≠ .unsubscribe t n) ∨
        ∃ handler, a = .subscribe t n handler)
    (hunadv : ∀ t n, a ≠ .unadvertise t n) : MessageStep uuid rt a rt' where
  alert := hd ▸ h
  subscription := hsub
  publisher t n hheld := .inl ⟨hd ▸ hheld, hunadv t n⟩

theorem messageStep_subscribe {uuid : Str} {rt : MessageRuntime}
    (h : Discovery.Alert uuid rt.discovery) (topic nodeUuid : Str)
    (handler : SubscriptionHandler) :
    MessageStep uuid rt (.subscribe topic nodeUuid handler)
      (rt.subscribe topic nodeUuid handler).1 := by
  have hd : (rt.subscribe topic nodeUuid handler).1.discovery = rt.discovery :=
    (MessageRuntime.discovery_absorb _ _).trans (Discovery.self_discover _ topic)
  refine MessageStep.of_same h hd (fun t n hheld => ?_) nofun
  have hl : (rt.subscribe topic nodeUuid handler).1.localSubscribers =
      rt.localSubscribers.addHandler topic nodeUuid handler.handlerUuid handler :=
    MessageRuntime.localSubscribers_absorb _ _
  rw [hl, HandlerStorage.hasHandlersForNode_addHandler] at hheld
  rcases hheld with ⟨rfl, rfl⟩ | hheld
  · exact .inr ⟨handler, rfl⟩
  · exact .inl ⟨hheld, nofun⟩

theorem messageStep_unsubscribe {uuid : Str} {rt : MessageRuntime}
    (h : Discovery.Alert uuid rt.discovery) (topic nodeUuid : Str) :
    MessageStep uuid rt (.unsubscribe topic nodeUuid) (rt.unsubscribe topic nodeUuid).1 := by
  have hrt : (rt.unsubscribe topic nodeUuid).1.discovery = rt.discovery ∧
      (rt.unsubscribe topic nodeUuid).1.localSubscribers =
        (rt.localSubscribers.removeHandlersForNode topic nodeUuid).1 := by
    simp only [MessageRuntime.unsubscribe]
    split <;> exact ⟨rfl, rfl⟩
  refine MessageStep.of_same h hrt.1 (fun t n hheld => ?_) (fun _ _ h => by cases h)
  rw [hrt.2, HandlerStorage.hasHandlersForNode_removeHandlersForNode] at hheld
  refine .inl ⟨hheld.1, fun hsame => hheld.2 ?_⟩
  obtain ⟨rfl, rfl⟩ := MessageRuntime.Action.unsubscribe.inj hsame
  exact ⟨rfl, rfl⟩

theorem messageStep_perform {uuid : Str} {rt rt' : MessageRuntime} {a : MessageRuntime.Action}
    {sent : List Msgs.Discovery} (h : Discovery.Alert uuid rt.discovery)
    (hp : rt.perform a = some (rt', sent)) : MessageStep uuid rt a rt' := by
  cases a with
  | advertise topic nodeUuid msgType options =>
      rw [MessageRuntime.perform_advertise] at hp
      obtain ⟨rfl, -⟩ := MessageRuntime.fst_snd_of_some hp
      refine MessageStep.of_discovery (d := .advertise (.make topic rt.address (str "unused")
        rt.processUuid nodeUuid msgType options)) h (MessageRuntime.discovery_absorb _ _)
        (MessageRuntime.localSubscribers_absorb _ _) nofun nofun ?_
      intro p hadv
      obtain rfl := Discovery.Action.advertise.inj hadv
      exact ⟨msgType, options, rfl⟩
  | unadvertise topic nodeUuid =>
      obtain ⟨rfl, -⟩ := MessageRuntime.fst_snd_of_some hp
      refine MessageStep.of_discovery (d := .unadvertise topic nodeUuid) h
        (MessageRuntime.discovery_absorb _ _) (MessageRuntime.localSubscribers_absorb _ _) nofun
        ?_ nofun
      intro t n hun
      obtain ⟨rfl, rfl⟩ := MessageRuntime.Action.unadvertise.inj hun
      rfl
  | subscribe topic nodeUuid handler =>
      obtain ⟨rfl, -⟩ := MessageRuntime.fst_snd_of_some hp
      exact messageStep_subscribe h topic nodeUuid handler
  | unsubscribe topic nodeUuid =>
      obtain ⟨rfl, -⟩ := MessageRuntime.fst_snd_of_some hp
      exact messageStep_unsubscribe h topic nodeUuid
  | recv fromIp m now =>
      obtain ⟨rfl, -⟩ := MessageRuntime.fst_snd_of_some hp
      exact MessageStep.of_discovery (d := .recv fromIp m now) h
        (MessageRuntime.discovery_absorb _ _) (MessageRuntime.localSubscribers_absorb _ _)
        nofun nofun nofun
  | heartbeat now later =>
      obtain ⟨rfl, -⟩ := MessageRuntime.fst_snd_of_some hp
      exact MessageStep.of_discovery (d := .heartbeat now later) h
        (MessageRuntime.discovery_absorb _ _) (MessageRuntime.localSubscribers_absorb _ _)
        nofun nofun nofun
  | activity now later =>
      obtain ⟨rfl, -⟩ := MessageRuntime.fst_snd_of_some hp
      exact MessageStep.of_discovery (d := .activity now later) h
        (MessageRuntime.discovery_absorb _ _) (MessageRuntime.localSubscribers_absorb _ _)
        nofun nofun nofun
  | applyCommand ok =>
      have hsame : rt'.discovery = rt.discovery ∧
          rt'.localSubscribers = rt.localSubscribers := by
        obtain ⟨c, rest, sub, -, hrt⟩ := rt.applyNextCommand_eq hp
        obtain rfl : rt' = _ := hrt
        exact ⟨rfl, rfl⟩
      exact MessageStep.of_same h hsame.1 (fun t n hheld => .inl ⟨hsame.2 ▸ hheld, nofun⟩) nofun

/-- What the service runtime holds of a node it held before, or the step put it there. -/
structure ServiceStep (uuid : Str) (rt : ServiceRuntime T) (a : ServiceRuntime.Action T)
    (rt' : ServiceRuntime T) : Prop where
  alert : Discovery.Alert uuid rt'.discovery
  responder : ∀ t n, rt'.responseHandlers.hasHandlersForNode t n = true →
    (rt.responseHandlers.hasHandlersForNode t n = true ∧ a ≠ .unadvertise t n) ∨
      ∃ handler reqType repType options, a = .advertise t n handler reqType repType options
  service : ∀ t n, rt'.discovery.HoldsOwn t n →
    (rt.discovery.HoldsOwn t n ∧ a ≠ .unadvertise t n) ∨
      ∃ handler reqType repType options, a = .advertise t n handler reqType repType options

/-- A step that hands an action to the discovery instance and advertises nothing. -/
theorem ServiceStep.of_discovery {uuid : Str} {rt rt' : ServiceRuntime T}
    {a : ServiceRuntime.Action T} (h : Discovery.Alert uuid rt.discovery)
    {d : Discovery.Action ServicePublisherInfo}
    (hd : rt'.discovery = (rt.discovery.perform d).self)
    (hr : rt'.responseHandlers = rt.responseHandlers) (hun : ∀ t n, a ≠ .unadvertise t n)
    (hadv : ∀ p, d ≠ .advertise p) : ServiceStep uuid rt a rt' where
  alert := hd ▸ h.step d
  responder t n hheld := .inl ⟨hr ▸ hheld, hun t n⟩
  service t n hheld := by
    rw [hd] at hheld
    rcases h.holdsOwn_perform hheld with ⟨hold, -⟩ | ⟨p, hp, -, -⟩
    · exact .inl ⟨hold, hun t n⟩
    · exact absurd hp (hadv p)

/-- A step that leaves the discovery instance and the responders alone. -/
theorem ServiceStep.of_same {uuid : Str} {rt rt' : ServiceRuntime T}
    {a : ServiceRuntime.Action T} (h : Discovery.Alert uuid rt.discovery)
    (hd : rt'.discovery = rt.discovery) (hr : rt'.responseHandlers = rt.responseHandlers)
    (hun : ∀ t n, a ≠ .unadvertise t n) : ServiceStep uuid rt a rt' where
  alert := hd ▸ h
  responder t n hheld := .inl ⟨hr ▸ hheld, hun t n⟩
  service t n hheld := .inl ⟨hd ▸ hheld, hun t n⟩

variable {uuid : Str} {rt : ServiceRuntime T}

theorem responseHandlers_absorb (rt : ServiceRuntime T) (io : SocketIo)
    (o : RfTrans.Outcome ServicePublisherInfo) :
    (rt.absorb io o).self.responseHandlers = rt.responseHandlers := by
  obtain ⟨connections, states, h⟩ := rt.sends_absorb io o
  rw [h]

theorem serviceStep_advertise (h : Discovery.Alert uuid rt.discovery) (io : SocketIo)
    (topic nodeUuid : Str) (handler : RepHandler T) (reqType repType : Str)
    (options : AdvertiseServiceOptions) :
    ServiceStep uuid rt (.advertise topic nodeUuid handler reqType repType options)
      (rt.advertise io topic nodeUuid handler reqType repType options).1.self := by
  have hd : (rt.advertise io topic nodeUuid handler reqType repType options).1.self.discovery =
      (rt.discovery.perform (.advertise (ServicePublisherInfo.make topic rt.replierAddress
        rt.replierUuid rt.processUuid nodeUuid reqType repType options))).self :=
    ServiceRuntime.discovery_absorb _ io _
  have hr : (rt.advertise io topic nodeUuid handler reqType repType
      options).1.self.responseHandlers =
        rt.responseHandlers.addHandler topic nodeUuid handler.handlerUuid handler :=
    responseHandlers_absorb _ io _
  refine ⟨hd ▸ h.step _, fun t n hheld => ?_, fun t n hheld => ?_⟩
  · rw [hr, HandlerStorage.hasHandlersForNode_addHandler] at hheld
    rcases hheld with ⟨rfl, rfl⟩ | hheld
    · exact .inr ⟨handler, reqType, repType, options, rfl⟩
    · exact .inl ⟨hheld, nofun⟩
  · rw [hd] at hheld
    rcases h.holdsOwn_perform hheld with ⟨hold, -⟩ | ⟨p, hp, rfl, rfl⟩
    · exact .inl ⟨hold, nofun⟩
    · obtain rfl := Discovery.Action.advertise.inj hp
      exact .inr ⟨handler, reqType, repType, options, rfl⟩

theorem serviceStep_unadvertise (h : Discovery.Alert uuid rt.discovery) (io : SocketIo)
    (topic nodeUuid : Str) :
    ServiceStep uuid rt (.unadvertise topic nodeUuid)
      (rt.unadvertise io topic nodeUuid).1.self := by
  have hd : (rt.unadvertise io topic nodeUuid).1.self.discovery =
      (rt.discovery.perform (.unadvertise topic nodeUuid)).self :=
    ServiceRuntime.discovery_absorb _ io _
  have hr : (rt.unadvertise io topic nodeUuid).1.self.responseHandlers =
      (rt.responseHandlers.removeHandlersForNode topic nodeUuid).1 :=
    responseHandlers_absorb _ io _
  refine ⟨hd ▸ h.step _, fun t n hheld => ?_, fun t n hheld => ?_⟩
  · rw [hr, HandlerStorage.hasHandlersForNode_removeHandlersForNode] at hheld
    refine .inl ⟨hheld.1, fun hsame => hheld.2 ?_⟩
    obtain ⟨rfl, rfl⟩ := ServiceRuntime.Action.unadvertise.inj hsame
    exact ⟨rfl, rfl⟩
  · rw [hd] at hheld
    rcases h.holdsOwn_perform hheld with ⟨hold, hne⟩ | ⟨p, hp, -, -⟩
    · refine .inl ⟨hold, fun hsame => hne ?_⟩
      obtain ⟨rfl, rfl⟩ := ServiceRuntime.Action.unadvertise.inj hsame
      rfl
    · cases hp

theorem responseHandlers_request (rt : ServiceRuntime T) (io : SocketIo) (topic nodeUuid : Str)
    (handler : ReqHandler T) :
    (rt.request io topic nodeUuid handler).1.self.responseHandlers = rt.responseHandlers := by
  simp only [ServiceRuntime.request]
  split
  case isTrue => rfl
  case isFalse =>
    obtain ⟨connections, states, h⟩ := ServiceRuntime.sends_sendPendingRequests
      { rt with
        requestHandlers :=
          rt.requestHandlers.addHandler topic nodeUuid handler.handlerUuid handler }
      io topic handler.getReqTypeName handler.getRepTypeName
    exact (congrArg ServiceRuntime.responseHandlers h :)

theorem responseHandlers_handleResponses (rt : ServiceRuntime T)
    (responses : List RemoteResponse) :
    (rt.handleResponses responses).responseHandlers = rt.responseHandlers := by
  induction responses generalizing rt with
  | nil => rfl
  | cons r responses ih =>
      refine (ih (rt.handleResponse r)).trans ?_
      simp only [ServiceRuntime.handleResponse]
      split <;> rfl

theorem serviceStep_perform (h : Discovery.Alert uuid rt.discovery) (io : SocketIo)
    (a : ServiceRuntime.Action T) : ServiceStep uuid rt a (rt.perform io a).self := by
  cases a with
  | advertise topic nodeUuid handler reqType repType options =>
      exact serviceStep_advertise h io topic nodeUuid handler reqType repType options
  | unadvertise topic nodeUuid => exact serviceStep_unadvertise h io topic nodeUuid
  | request topic nodeUuid handler =>
      exact ServiceStep.of_same h (rt.discovery_request io topic nodeUuid handler)
        (responseHandlers_request rt io topic nodeUuid handler) nofun
  | recv fromIp m now =>
      exact ServiceStep.of_discovery (d := .recv fromIp m now) h (rt.discovery_absorb io _)
        (responseHandlers_absorb rt io _) nofun nofun
  | heartbeat now later =>
      exact ServiceStep.of_discovery (d := .heartbeat now later) h (rt.discovery_absorb io _)
        (responseHandlers_absorb rt io _) nofun nofun
  | activity now later =>
      exact ServiceStep.of_discovery (d := .activity now later) h (rt.discovery_absorb io _)
        (responseHandlers_absorb rt io _) nofun nofun
  | handleResponses responses =>
      exact ServiceStep.of_same h (rt.discovery_handleResponses responses)
        (responseHandlers_handleResponses rt responses) nofun

/-! ## The invariant -/

/-- What the tables hold of the node is noted in its sets. -/
structure Inv (uuid : Str) (s : NodeState T) : Prop where
  message : Discovery.Alert uuid s.shared.message.discovery
  service : Discovery.Alert uuid s.shared.service.discovery
  subscribed : ∀ t, s.HasSubscription t → t ∈ s.node.subscribedTopics
  advertised : ∀ t, s.HasPublisher t → t ∈ s.node.advertisedTopics
  responding : ∀ t, s.HasResponder t → t ∈ s.node.advertisedSrvs
  serving : ∀ t, s.HasService t → t ∈ s.node.advertisedSrvs

variable {s t : NodeState T}

theorem Inv.advertise (hi : s.Inv uuid) (topic msgType : Str)
    (options : AdvertiseMessageOptions) : (s.advertise topic msgType options).1.Inv uuid := by
  simp only [NodeState.advertise]
  split
  case isTrue => exact hi
  case isFalse hnew =>
    have hstep := messageStep_perform (a := .advertise topic s.node.nodeUuid msgType options)
      hi.message (s.shared.message.perform_advertise topic s.node.nodeUuid msgType options)
    have hsub : ∀ t, (s.shared.message.advertise topic s.node.nodeUuid msgType
        options).1.localSubscribers.hasHandlersForNode t s.node.nodeUuid = true →
        t ∈ s.node.subscribedTopics := by
      intro t hheld
      rcases hstep.subscription t s.node.nodeUuid hheld with ⟨hold, -⟩ | ⟨handler, hsame⟩
      · exact hi.subscribed t hold
      · cases hsame
    split
    case h_1 hnone =>
      -- nothing was added, so nothing has to be noted
      refine ⟨hstep.alert, hi.service, hsub, fun t hheld => ?_, hi.responding, hi.serving⟩
      refine hi.advertised t ?_
      rw [HasPublisher]
      have hold : (s.shared.message.advertise topic s.node.nodeUuid msgType options).1.discovery =
          s.shared.message.discovery := by
        rw [MessageRuntime.discovery_advertise _ _ _ _ _ hi.message.enabled]
        by_cases hadd : (s.shared.message.discovery.knownPublishers.addPublisher
            (.make topic s.shared.message.address (str "unused") s.shared.message.processUuid
              s.node.nodeUuid msgType options)).2 = true
        · have hok := MessageRuntime.advertise_ok hi.message.enabled hadd
          rw [hnone] at hok
          cases hok
        · rw [TopicStorage.addPublisher_of_not_added _ (Bool.not_eq_true _ ▸ hadd)]
      rw [← hold]
      exact hheld
    case h_2 pub hpub =>
      refine ⟨hstep.alert, hi.service, hsub, fun t hheld => ?_, hi.responding, hi.serving⟩
      rcases hstep.publisher t s.node.nodeUuid hheld with ⟨hold, -⟩ | ⟨ty, o, hsame⟩
      · exact List.mem_insert_of_mem (hi.advertised t hold)
      · obtain ⟨rfl, -⟩ := MessageRuntime.Action.advertise.inj hsame
        exact List.mem_insert_self

theorem Inv.unadvertise (hi : s.Inv uuid) (topic : Str) : (s.unadvertise topic).Inv uuid := by
  have hstep := messageStep_perform (a := .unadvertise topic s.node.nodeUuid) hi.message rfl
  refine ⟨hstep.alert, hi.service, fun t hheld => ?_, fun t hheld => ?_, hi.responding, hi.serving⟩
  · rcases hstep.subscription t s.node.nodeUuid hheld with ⟨hold, -⟩ | ⟨handler, hsame⟩
    · exact hi.subscribed t hold
    · cases hsame
  · rcases hstep.publisher t s.node.nodeUuid hheld with ⟨hold, hne⟩ | ⟨ty, o, hsame⟩
    · refine List.mem_filter.mpr ⟨hi.advertised t hold, ?_⟩
      exact decide_eq_true fun htopic : t = topic => hne (by rw [htopic])
    · cases hsame

theorem Inv.subscribe (hi : s.Inv uuid) (topic handlerUuid msgType : Str) :
    (s.subscribe topic handlerUuid msgType).Inv uuid := by
  have hstep := messageStep_subscribe hi.message topic s.node.nodeUuid
    { handlerUuid := handlerUuid, nodeUuid := s.node.nodeUuid, msgType := msgType }
  refine ⟨hstep.alert, hi.service, fun t hheld => ?_, fun t hheld => ?_, hi.responding, hi.serving⟩
  · rcases hstep.subscription t s.node.nodeUuid hheld with ⟨hold, -⟩ | ⟨handler, hsame⟩
    · exact List.mem_insert_of_mem (hi.subscribed t hold)
    · obtain ⟨rfl, -⟩ := MessageRuntime.Action.subscribe.inj hsame
      exact List.mem_insert_self
  · rcases hstep.publisher t s.node.nodeUuid hheld with ⟨hold, -⟩ | ⟨ty, o, hsame⟩
    · exact hi.advertised t hold
    · cases hsame

theorem Inv.unsubscribe (hi : s.Inv uuid) (topic : Str) : (s.unsubscribe topic).Inv uuid := by
  have hstep := messageStep_unsubscribe hi.message topic s.node.nodeUuid
  refine ⟨hstep.alert, hi.service, fun t hheld => ?_, fun t hheld => ?_, hi.responding, hi.serving⟩
  · rcases hstep.subscription t s.node.nodeUuid hheld with ⟨hold, hne⟩ | ⟨handler, hsame⟩
    · refine List.mem_filter.mpr ⟨hi.subscribed t hold, ?_⟩
      exact decide_eq_true fun htopic : t = topic => hne (by rw [htopic])
    · cases hsame
  · rcases hstep.publisher t s.node.nodeUuid hheld with ⟨hold, -⟩ | ⟨ty, o, hsame⟩
    · exact hi.advertised t hold
    · cases hsame

theorem Inv.advertiseService (hi : s.Inv uuid) (io : SocketIo) (topic : Str)
    (handler : RepHandler T) (options : AdvertiseServiceOptions) :
    (s.advertiseService io topic handler options).1.Inv uuid := by
  simp only [NodeState.advertiseService]
  split
  case isTrue => exact hi
  case isFalse =>
    have hstep := serviceStep_advertise hi.service io topic s.node.nodeUuid handler
      handler.getReqTypeName handler.getRepTypeName options
    refine ⟨hi.message, hstep.alert, hi.subscribed, hi.advertised, fun t hheld => ?_,
      fun t hheld => ?_⟩
    · rcases hstep.responder t s.node.nodeUuid hheld with ⟨hold, -⟩ | ⟨_, _, _, _, hsame⟩
      · exact List.mem_insert_of_mem (hi.responding t hold)
      · obtain ⟨rfl, -⟩ := ServiceRuntime.Action.advertise.inj hsame
        exact List.mem_insert_self
    · rcases hstep.service t s.node.nodeUuid hheld with ⟨hold, -⟩ | ⟨_, _, _, _, hsame⟩
      · exact List.mem_insert_of_mem (hi.serving t hold)
      · obtain ⟨rfl, -⟩ := ServiceRuntime.Action.advertise.inj hsame
        exact List.mem_insert_self

theorem Inv.unadvertiseService (hi : s.Inv uuid) (io : SocketIo) (topic : Str) :
    (s.unadvertiseService io topic).1.Inv uuid := by
  have hstep := serviceStep_unadvertise hi.service io topic s.node.nodeUuid
  refine ⟨hi.message, hstep.alert, hi.subscribed, hi.advertised, fun t hheld => ?_,
    fun t hheld => ?_⟩
  · rcases hstep.responder t s.node.nodeUuid hheld with ⟨hold, hne⟩ | ⟨_, _, _, _, hsame⟩
    · refine List.mem_filter.mpr ⟨hi.responding t hold, ?_⟩
      exact decide_eq_true fun htopic : t = topic => hne (by rw [htopic])
    · cases hsame
  · rcases hstep.service t s.node.nodeUuid hheld with ⟨hold, hne⟩ | ⟨_, _, _, _, hsame⟩
    · refine List.mem_filter.mpr ⟨hi.serving t hold, ?_⟩
      exact decide_eq_true fun htopic : t = topic => hne (by rw [htopic])
    · cases hsame

/-- A step of the service runtime that is no call of the node advertises nothing for it. -/
theorem Inv.of_service (hi : s.Inv uuid) {a : ServiceRuntime.Action T} {rt' : ServiceRuntime T}
    (hstep : ServiceStep uuid s.shared.service a rt')
    (ha : ∀ t h q p o, a ≠ .advertise t s.node.nodeUuid h q p o) :
    Inv uuid { s with shared.service := rt' } := by
  refine ⟨hi.message, hstep.alert, hi.subscribed, hi.advertised, fun t hheld => ?_,
    fun t hheld => ?_⟩
  · rcases hstep.responder t s.node.nodeUuid hheld with ⟨hold, -⟩ | ⟨h, q, p, o, hsame⟩
    · exact hi.responding t hold
    · exact absurd hsame (ha t h q p o)
  · rcases hstep.service t s.node.nodeUuid hheld with ⟨hold, -⟩ | ⟨h, q, p, o, hsame⟩
    · exact hi.serving t hold
    · exact absurd hsame (ha t h q p o)

/-- A step of the message runtime that is no call of the node adds nothing for it. -/
theorem Inv.of_message (hi : s.Inv uuid) {a : MessageRuntime.Action} {rt' : MessageRuntime}
    (hstep : MessageStep uuid s.shared.message a rt')
    (hsub : ∀ t h, a ≠ .subscribe t s.node.nodeUuid h)
    (hadv : ∀ t y o, a ≠ .advertise t s.node.nodeUuid y o) :
    Inv uuid { s with shared.message := rt' } := by
  refine ⟨hstep.alert, hi.service, fun t hheld => ?_, fun t hheld => ?_, hi.responding,
    hi.serving⟩
  · rcases hstep.subscription t s.node.nodeUuid hheld with ⟨hold, -⟩ | ⟨h, hsame⟩
    · exact hi.subscribed t hold
    · exact absurd hsame (hsub t h)
  · rcases hstep.publisher t s.node.nodeUuid hheld with ⟨hold, -⟩ | ⟨y, o, hsame⟩
    · exact hi.advertised t hold
    · exact absurd hsame (hadv t y o)

/-- A request touches no responder and no discovery instance. -/
theorem requestAsync_self {io : SocketIo} {topic nodeUuid handlerUuid : Str} {req rep : T}
    {msg : Content req} {x} (h : rt.requestAsync io topic nodeUuid handlerUuid rep msg = some x) :
    x.1.self = rt ∨ ∃ handler, x.1.self = (rt.request io topic nodeUuid handler).1.self := by
  simp only [ServiceRuntime.requestAsync] at h
  split at h
  case h_1 handler _ =>
    obtain ⟨y, -, rfl⟩ := Option.map_eq_some_iff.mp h
    exact .inl rfl
  case h_2 =>
    obtain rfl := Option.some.inj h
    exact .inr ⟨_, rfl⟩

theorem requestSync_self {io : SocketIo} {topic nodeUuid handlerUuid : Str} {req rep : T}
    {msg : Content req} {reply : Content rep} {x}
    (h : rt.requestSync io topic nodeUuid handlerUuid msg reply = some x) :
    x.1.self = rt ∨ ∃ handler, x.1.self = (rt.request io topic nodeUuid handler).1.self := by
  simp only [ServiceRuntime.requestSync] at h
  split at h
  case h_1 handler _ =>
    obtain ⟨y, -, rfl⟩ := Option.map_eq_some_iff.mp h
    exact .inl rfl
  case h_2 =>
    obtain rfl := Option.some.inj h
    exact .inr ⟨_, rfl⟩

theorem Inv.request (hi : s.Inv uuid) {io : SocketIo} {topic : Str} {rt' : ServiceRuntime T}
    (h : rt' = s.shared.service ∨
      ∃ handler, rt' = (s.shared.service.request io topic s.node.nodeUuid handler).1.self) :
    Inv uuid { s with shared.service := rt' } := by
  rcases h with rfl | ⟨handler, rfl⟩
  · exact hi
  · exact hi.of_service
      (serviceStep_perform hi.service io (.request topic s.node.nodeUuid handler)) nofun

/-- **One step** of the node or of the rest of the process. -/
theorem Inv.next (hi : s.Inv uuid) {io : SocketIo} {a : Action T} (h : s.next io a = some t) :
    t.Inv uuid ∧ t.node.nodeUuid = s.node.nodeUuid := by
  cases a with
  | advertise topic msgType options =>
      obtain rfl := Option.some.inj h
      refine ⟨hi.advertise topic msgType options, ?_⟩
      simp only [NodeState.advertise]
      split
      case isTrue => rfl
      case isFalse => split <;> rfl
  | unadvertise topic =>
      obtain rfl := Option.some.inj h
      exact ⟨hi.unadvertise topic, rfl⟩
  | subscribe topic handlerUuid msgType =>
      obtain rfl := Option.some.inj h
      exact ⟨hi.subscribe topic handlerUuid msgType, rfl⟩
  | unsubscribe topic =>
      obtain rfl := Option.some.inj h
      exact ⟨hi.unsubscribe topic, rfl⟩
  | advertiseService topic handler options =>
      obtain rfl := Option.some.inj h
      refine ⟨hi.advertiseService io topic handler options, ?_⟩
      simp only [NodeState.advertiseService]
      split <;> rfl
  | unadvertiseService topic =>
      obtain rfl := Option.some.inj h
      exact ⟨hi.unadvertiseService io topic, rfl⟩
  | requestAsync topic handlerUuid req rep msg =>
      obtain ⟨x, hx, rfl⟩ := Option.map_eq_some_iff.mp h
      exact ⟨hi.request (requestAsync_self hx), rfl⟩
  | requestSync topic handlerUuid req rep msg reply =>
      obtain ⟨x, hx, rfl⟩ := Option.map_eq_some_iff.mp h
      exact ⟨hi.request (requestSync_self hx), rfl⟩
  | message a =>
      simp only [NodeState.next] at h
      by_cases hcaller : messageCaller a = some s.node.nodeUuid
      · rw [if_pos hcaller] at h
        cases h
      · rw [if_neg hcaller] at h
        obtain ⟨⟨rt', sent⟩, hx, rfl⟩ := Option.map_eq_some_iff.mp h
        refine ⟨hi.of_message (messageStep_perform hi.message hx) ?_ ?_, rfl⟩
        · rintro topic handler rfl
          exact hcaller rfl
        · rintro topic msgType options rfl
          exact hcaller rfl
  | service a =>
      simp only [NodeState.next] at h
      by_cases hcaller : serviceCaller a = some s.node.nodeUuid
      · rw [if_pos hcaller] at h
        cases h
      · rw [if_neg hcaller] at h
        obtain rfl := Option.some.inj h
        refine ⟨hi.of_service (serviceStep_perform hi.service io a) ?_, rfl⟩
        rintro topic handler reqType repType options rfl
        exact hcaller rfl

theorem inv_init (processUuid processName hostAddr address replierUuid replierAddress
    nodeUuid : Str) (huuid : processUuid ≠ []) :
    (init processUuid processName hostAddr address replierUuid replierAddress
      nodeUuid : NodeState T).Inv processUuid where
  message := ⟨rfl, rfl, huuid, by simp [init, MessageRuntime.init]⟩
  service := ⟨rfl, rfl, huuid, by simp [init, ServiceRuntime.init]⟩
  subscribed topic h := by
    rw [HasSubscription, HandlerStorage.hasHandlersForNode_iff] at h
    simp [init, MessageRuntime.init] at h
  advertised topic h := by
    obtain ⟨x, hx, -⟩ := h
    simp [init, MessageRuntime.init] at hx
  responding topic h := by
    rw [HasResponder, HandlerStorage.hasHandlersForNode_iff] at h
    simp [init, ServiceRuntime.init] at h
  serving topic h := by
    obtain ⟨x, hx, -⟩ := h
    simp [init, ServiceRuntime.init] at hx

/-! ## The destructor -/

/-- Undoing what is noted, one entry after the other, leaves nothing noted. -/
theorem foldl_undo {σ : Type} (undo : σ → Str → σ) (noted : σ → List Str)
    (h : ∀ s topic, noted (undo s topic) = (noted s).filter (· ≠ topic)) (topics : List Str)
    (s : σ) (hall : ∀ topic ∈ noted s, topic ∈ topics) : noted (topics.foldl undo s) = [] := by
  induction topics generalizing s with
  | nil => exact List.eq_nil_iff_forall_not_mem.mpr fun topic hm => by cases hall topic hm
  | cons topic topics ih =>
      refine ih _ fun topic' hm => ?_
      rw [h] at hm
      obtain ⟨hm, hne⟩ := List.mem_filter.mp hm
      exact (List.mem_cons.mp (hall topic' hm)).resolve_left (of_decide_eq_true hne)

/-- What every undo operation keeps is kept. -/
theorem foldl_keeps {σ : Type} (undo : σ → Str → σ) (P : σ → Prop)
    (h : ∀ s topic, P s → P (undo s topic)) (topics : List Str) (s : σ) (hs : P s) :
    P (topics.foldl undo s) := by
  induction topics generalizing s with
  | nil => exact hs
  | cons topic topics ih => exact ih _ (h s topic hs)

theorem requestHandlers_unadvertise (rt : ServiceRuntime T) (io : SocketIo)
    (topic nodeUuid : Str) :
    (rt.unadvertise io topic nodeUuid).1.self.requestHandlers = rt.requestHandlers := by
  obtain ⟨connections, states, h⟩ := ServiceRuntime.sends_absorb
    { rt with responseHandlers := (rt.responseHandlers.removeHandlersForNode topic nodeUuid).1 }
    io (rt.discovery.unadvertise topic nodeUuid).1
  exact (congrArg ServiceRuntime.requestHandlers h :)

/-- Where the destructor stands: the state it started from, and the sets that it is done
with. -/
structure Destroying (uuid : Str) (s t : NodeState T) : Prop where
  inv : t.Inv uuid
  nodeUuid : t.node.nodeUuid = s.node.nodeUuid
  pending : t.shared.service.requestHandlers = s.shared.service.requestHandlers

theorem Destroying.unsubscribeAll (h : Destroying uuid s t) :
    Destroying uuid s (t.node.subscribedTopics.foldl unsubscribe t) ∧
      (t.node.subscribedTopics.foldl unsubscribe t).node.subscribedTopics = [] := by
  constructor
  · exact foldl_keeps unsubscribe (Destroying uuid s)
      (fun u topic hu => ⟨hu.inv.unsubscribe topic, hu.nodeUuid, hu.pending⟩) _ t h
  · exact foldl_undo unsubscribe (·.node.subscribedTopics) (fun _ _ => rfl) _ t fun _ => id

theorem Destroying.unadvertiseAll (h : Destroying uuid s t)
    (hsub : t.node.subscribedTopics = []) :
    (Destroying uuid s (t.node.advertisedTopics.foldl unadvertise t) ∧
      (t.node.advertisedTopics.foldl unadvertise t).node.subscribedTopics = []) ∧
      (t.node.advertisedTopics.foldl unadvertise t).node.advertisedTopics = [] := by
  constructor
  · exact foldl_keeps unadvertise
      (fun u => Destroying uuid s u ∧ u.node.subscribedTopics = [])
      (fun u topic hu => ⟨⟨hu.1.inv.unadvertise topic, hu.1.nodeUuid, hu.1.pending⟩, hu.2⟩) _ t
      ⟨h, hsub⟩
  · exact foldl_undo unadvertise (·.node.advertisedTopics) (fun _ _ => rfl) _ t fun _ => id

theorem Destroying.unadvertiseServices (h : Destroying uuid s t) (io : SocketIo)
    (hsub : t.node.subscribedTopics = []) (hadv : t.node.advertisedTopics = []) :
    Destroying uuid s
        (t.node.advertisedSrvs.foldl (fun t topic => (t.unadvertiseService io topic).1) t) ∧
      (t.node.advertisedSrvs.foldl (fun t topic => (t.unadvertiseService io topic).1) t).node =
        { nodeUuid := s.node.nodeUuid } := by
  have hkept := foldl_keeps (fun t topic => (t.unadvertiseService io topic).1)
    (fun u => Destroying uuid s u ∧ u.node.subscribedTopics = [] ∧ u.node.advertisedTopics = [])
    (fun u topic hu => ⟨⟨hu.1.inv.unadvertiseService io topic, hu.1.nodeUuid,
      (requestHandlers_unadvertise _ io topic _).trans hu.1.pending⟩, hu.2⟩)
    t.node.advertisedSrvs t ⟨h, hsub, hadv⟩
  have hsrv := foldl_undo (fun t topic => (t.unadvertiseService io topic).1)
    (·.node.advertisedSrvs) (fun _ _ => rfl) t.node.advertisedSrvs t fun _ => id
  refine ⟨hkept.1, ?_⟩
  generalize t.node.advertisedSrvs.foldl
    (fun t topic => (t.unadvertiseService io topic).1) t = u at hkept hsrv
  obtain ⟨shared, nodeUuid, subs, advs, srvs⟩ := u
  obtain ⟨⟨-, hn, -⟩, hs, ha⟩ := hkept
  simp only at hn hs ha hsrv
  rw [hn, hs, ha, hsrv]

/-- The destructor leaves the three sets empty and the pending requests alone. -/
theorem Inv.destroy (hi : s.Inv uuid) (io : SocketIo) :
    Destroying uuid s (s.destroy io) ∧
      (s.destroy io).node = { nodeUuid := s.node.nodeUuid } := by
  have hstart : Destroying uuid s s := ⟨hi, rfl, rfl⟩
  obtain ⟨h₁, hsub⟩ := hstart.unsubscribeAll
  obtain ⟨⟨h₂, hsub⟩, hadv⟩ := h₁.unadvertiseAll hsub
  exact h₂.unadvertiseServices io hsub hadv

/-- **What a destroyed node leaves behind** are its requests that have no reply yet, and
nothing else. -/
theorem leavesNothing_iff (processUuid processName hostAddr address replierUuid replierAddress
    nodeUuid : Str) (huuid : processUuid ≠ []) (run : List (SocketIo × Action T))
    (h : exec step (init processUuid processName hostAddr address replierUuid replierAddress
      nodeUuid) run = some s) (io : SocketIo) :
    (s.destroy io).LeavesNothing ↔ ∀ topic, ¬ s.HasRequest topic := by
  have hi : s.Inv processUuid :=
    stable (P := Inv processUuid) (fun _ _ _ hi h => (hi.next h).1)
      (inv_init processUuid processName hostAddr address replierUuid replierAddress nodeUuid huuid)
      h
  obtain ⟨⟨hd, -, hreq⟩, hnode⟩ := hi.destroy io
  have hpending : ∀ topic, (s.destroy io).HasRequest topic ↔ s.HasRequest topic := by
    intro topic
    rw [HasRequest, HasRequest, hreq, hnode]
  have hnone : ∀ topic, ¬ (s.destroy io).HasSubscription topic ∧
      ¬ (s.destroy io).HasPublisher topic ∧ ¬ (s.destroy io).HasResponder topic ∧
      ¬ (s.destroy io).HasService topic := by
    have hempty : (s.destroy io).node.subscribedTopics = [] ∧
        (s.destroy io).node.advertisedTopics = [] ∧ (s.destroy io).node.advertisedSrvs = [] := by
      rw [hnode]
      exact ⟨rfl, rfl, rfl⟩
    refine fun topic => ⟨fun h => ?_, fun h => ?_, fun h => ?_, fun h => ?_⟩
    · exact List.not_mem_nil (hempty.1 ▸ hd.subscribed topic h)
    · exact List.not_mem_nil (hempty.2.1 ▸ hd.advertised topic h)
    · exact List.not_mem_nil (hempty.2.2 ▸ hd.responding topic h)
    · exact List.not_mem_nil (hempty.2.2 ▸ hd.serving topic h)
  constructor
  · exact fun hl topic hr => (hl topic).2.2.2.2 ((hpending topic).mpr hr)
  · intro hl topic
    obtain ⟨h₁, h₂, h₃, h₄⟩ := hnone topic
    exact ⟨h₁, h₂, h₃, h₄, fun hr => hl topic ((hpending topic).mp hr)⟩

/-! ## A request without a reply -/

/-- Node n1 of process 4a. -/
def exampleNode : NodeState EmptyOnly :=
  init (str "4a") [] (str "10.0.0.1") (str "tcp://a") (str "r") (str "tcp://r") (str "n1")

/-- A responder of topic s shows up, and the node calls it. -/
def unanswered : List (SocketIo × Action EmptyOnly) :=
  [(exampleIo, .service
      (.recv (str "10.0.0.2") (ServiceRuntime.advertisementAt (str "tcp://b")) 0)),
    (exampleIo, .requestAsync (str "s") (str "q") .empty .empty exampleMsg)]

/-- A node with one of each. -/
def busy : List (SocketIo × Action EmptyOnly) :=
  [(exampleIo, .subscribe (str "t") (str "h") (str "M")),
    (exampleIo, .advertise (str "t") (str "M") {}),
    (exampleIo, .advertiseService (str "s") ⟨.empty, .empty, str "h2", none⟩ {})] ++ unanswered

theorem leavesNothing_iff_busy :
    ∃ s, exec step exampleNode busy = some s ∧
      ((s.destroy exampleIo).LeavesNothing ↔ ∀ topic, ¬ s.HasRequest topic) :=
  ⟨_, rfl, leavesNothing_iff (str "4a") [] (str "10.0.0.1") (str "tcp://a") (str "r")
    (str "tcp://r") (str "n1") (by decide) busy rfl exampleIo⟩

/-- **The request of a destroyed node stays**, and a late reply calls its callback. -/
theorem unanswered_left :
    ∃ s, exec step exampleNode unanswered = some s ∧ ¬ (s.destroy exampleIo).LeavesNothing ∧
      (((s.destroy exampleIo).shared.service.handleResponses
        [⟨str "s", str "n1", str "q", [], str "1"⟩]).reqState (str "q")).calls.length = 1 := by
  refine ⟨_, rfl, fun h => (h (str "s")).2.2.2.2 ?_, by decide⟩
  rw [HasRequest]
  decide

end NodeState
end RfTrans
