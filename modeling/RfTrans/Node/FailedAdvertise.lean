import RfTrans.Node.Node

/-!
# A service advertisement that fails

`Node::advertise` of a service notes the topic, then files the handler, and only then asks
the discovery instance, which refuses while it is not running and for an endpoint that it
has.  Nothing takes the first two steps back.

## Main definitions

* `ServedNode` — a node in a process whose service runtime is started and stopped.
* `NodeState.advertiseServiceResult` — what the call returns.
* `NodeState.Undone` — what the call changes is as before.
* `ServedNode.failureUndone_iff` — when that is so of every call of a run that fails.
-/

namespace RfTrans

open Exec ProtoTypes

/-! ## Starting and stopping -/

namespace Discovery
variable {π : Type} [PubLike π] (d : Discovery π)

/-- `start`, at a reading of the clock. -/
def startAt (d : Discovery π) (now : ℕ) : Discovery π :=
  if d.enabled then d
  else { d with enabled := true, timeNextActivity := now, timeNextHeartbeat := now }

/-- `stop` -/
def stop (d : Discovery π) : Discovery π := { d with enabled := false }

/-- An instance that refuses a publisher is as before. -/
theorem advertise_of_failed {p : π} (h : (d.advertise p).2 = false) :
    (d.advertise p).1 = { self := d } := by
  simp only [advertise] at h ⊢
  split
  case isFalse => rfl
  case isTrue henabled =>
    rw [if_pos henabled] at h
    by_cases hadd : (d.knownPublishers.addPublisher p).2 = true
    · rw [if_pos hadd] at h
      cases h
    · rw [if_neg hadd, d.knownPublishers.addPublisher_of_not_added (Bool.not_eq_true _ ▸ hadd)]

theorem advertise_snd (p : π) : (d.advertise p).2 = true ↔
    d.enabled = true ∧ (d.knownPublishers.addPublisher p).2 = true := by
  simp only [advertise]
  by_cases henabled : d.enabled = true
  · by_cases hadd : (d.knownPublishers.addPublisher p).2 = true
    · simp [henabled, hadd]
    · simp [henabled, hadd]
  · simp [henabled]

end Discovery

/-- A node in a process whose service runtime may not be running: `initialized_` and
`started_` of the runtime. -/
structure ServedNode (T : Type) [ProtoTypes T] where
  state : NodeState T
  initialized : Bool
  started : Bool := false

namespace ServedNode
variable {T : Type} [ProtoTypes T]

/-- The service discovery of the process. -/
def discovery (s : ServedNode T) : Discovery ServicePublisherInfo :=
  s.state.shared.service.discovery

/-- `ServiceRuntime::start` -/
def start (s : ServedNode T) (now : ℕ) : ServedNode T :=
  if !s.initialized || s.started then s
  else
    { s with
      state.shared.service.discovery :=
        let d := { s.discovery with connectionCb := true, disconnectionCb := true }
        d.startAt now
      started := true }

/-- `Discovery::stop`, which comes first in `~NodeShared`. -/
def stopDiscovery (s : ServedNode T) : ServedNode T :=
  { s with state.shared.service.discovery := s.discovery.stop }

/-- `ServiceRuntime::stop` -/
def stop (s : ServedNode T) : ServedNode T :=
  if s.started then
    { s with
      state.shared.service.discovery :=
        { s.discovery with connectionCb := false, disconnectionCb := false }
      started := false }
  else s

/-- What happens to the runtime, or in the process. -/
inductive Action (T : Type) [ProtoTypes T]
  | start (now : ℕ)
  | stopDiscovery
  | stop
  | act (a : NodeState.Action T)

/-- One action, while the sockets are as `io` says. -/
def step (s : ServedNode T) : SocketIo × Action T → Option (ServedNode T)
  | (_, .start now) => some (s.start now)
  | (_, .stopDiscovery) => some s.stopDiscovery
  | (_, .stop) => some s.stop
  | (io, .act a) => (s.state.next io a).map fun t => { s with state := t }

/-- A new node in a process whose service runtime was constructed, and initialized or not. -/
def created (processUuid processName hostAddr address replierUuid replierAddress nodeUuid : Str)
    (initialized : Bool) : ServedNode T where
  state :=
    let s : NodeState T :=
      NodeState.init processUuid processName hostAddr address replierUuid replierAddress nodeUuid
    { s with
      shared.service.discovery :=
        { s.shared.service.discovery with
          connectionCb := false, disconnectionCb := false, enabled := false } }
  initialized := initialized

end ServedNode

/-! ## The call -/

namespace NodeState
variable {T : Type} [ProtoTypes T] (s : NodeState T) (io : SocketIo) (topic : Str)
  (handler : RepHandler T) (options : AdvertiseServiceOptions)

/-- What `Node::advertise` returns; `none` when an exception leaves it. -/
def advertiseServiceResult : Option Bool :=
  if topic ∈ s.node.advertisedSrvs then some false
  else
    let (o, ok) := s.shared.service.advertise io topic s.node.nodeUuid handler
      handler.getReqTypeName handler.getRepTypeName options
    if o.thrown then none else some ok

theorem advertiseService_snd : (s.advertiseService io topic handler options).2 =
    (s.advertiseServiceResult io topic handler options).getD false := by
  simp only [advertiseService, advertiseServiceResult]
  split
  case isTrue => rfl
  case isFalse =>
    split
    case isTrue hthrown => simp [hthrown]
    case isFalse hthrown => simp [hthrown]

/-- The record of the service. -/
def serviceInfo : ServicePublisherInfo :=
  .make topic s.shared.service.replierAddress s.shared.service.replierUuid
    s.shared.service.processUuid s.node.nodeUuid handler.getReqTypeName handler.getRepTypeName
    options

/-- **What a refused call leaves behind**: the note and the handler. -/
theorem advertiseService_of_failed (hnew : topic ∉ s.node.advertisedSrvs)
    (h : (s.shared.service.discovery.advertise (s.serviceInfo topic handler options)).2 = false) :
    s.advertiseServiceResult io topic handler options = some false ∧
      (s.advertiseService io topic handler options).1 =
        { s with
          node.advertisedSrvs := s.node.advertisedSrvs.insert topic
          shared.service.responseHandlers :=
            s.shared.service.responseHandlers.addHandler topic s.node.nodeUuid handler.handlerUuid
              handler } := by
  have hsame := s.shared.service.discovery.advertise_of_failed h
  have hcall : s.shared.service.advertise io topic s.node.nodeUuid handler
      handler.getReqTypeName handler.getRepTypeName options =
        ({ self :=
            { s.shared.service with
              responseHandlers := s.shared.service.responseHandlers.addHandler topic
                s.node.nodeUuid handler.handlerUuid handler } }, false) := by
    simp only [serviceInfo] at h hsame
    simp only [ServiceRuntime.advertise, h, hsame]
    rfl
  simp [advertiseServiceResult, advertiseService, if_neg hnew, hcall]

/-- The tables and the set that an advertisement touches are as before. -/
structure Undone (s t : NodeState T) : Prop where
  responseHandlers : t.shared.service.responseHandlers = s.shared.service.responseHandlers
  ownEntries : ∀ topic, t.shared.service.discovery.knownPublishers.pubsOf topic
      s.shared.service.discovery.processUuid =
    s.shared.service.discovery.knownPublishers.pubsOf topic
      s.shared.service.discovery.processUuid
  advertisedSrvs : ∀ topic, topic ∈ t.node.advertisedSrvs ↔ topic ∈ s.node.advertisedSrvs

/-- A call that returns false changes nothing. -/
def FailureUndone : Prop :=
  s.advertiseServiceResult io topic handler options = some false →
    Undone s (s.advertiseService io topic handler options).1

/-- The node has the topic, or the service discovery runs and has no own entry of the topic
at the address of the process and of the node. -/
def Admits : Prop :=
  topic ∈ s.node.advertisedSrvs ∨
    s.shared.service.discovery.enabled = true ∧
      ∀ p ∈ s.shared.service.discovery.knownPublishers.pubsOf topic s.shared.service.processUuid,
        ¬ (p.addr = s.shared.service.replierAddress ∧ p.nodeUuid = s.node.nodeUuid)

/-- The discovery instance accepts the service. -/
theorem accepted_iff :
    (s.shared.service.discovery.advertise (s.serviceInfo topic handler options)).2 = true ↔
      s.shared.service.discovery.enabled = true ∧
        ∀ p ∈ s.shared.service.discovery.knownPublishers.pubsOf topic
            s.shared.service.processUuid,
          ¬ (p.addr = s.shared.service.replierAddress ∧ p.nodeUuid = s.node.nodeUuid) := by
  rw [Discovery.advertise_snd, TopicStorage.addPublisher_snd]
  refine and_congr_right fun _ => forall_congr' fun p => forall_congr' fun _ => not_congr ?_
  exact decide_eq_true_iff

/-- **One call.** -/
theorem failureUndone_call : s.FailureUndone io topic handler options ↔ s.Admits topic := by
  by_cases hnoted : topic ∈ s.node.advertisedSrvs
  · refine iff_of_true (fun _ => ?_) (.inl hnoted)
    rw [advertiseService, if_pos hnoted]
    exact ⟨rfl, fun _ => rfl, fun _ => Iff.rfl⟩
  rw [Admits, or_iff_right hnoted, ← s.accepted_iff topic handler options]
  cases hok : (s.shared.service.discovery.advertise (s.serviceInfo topic handler options)).2 with
  | true =>
      refine iff_of_true (fun hfalse => ?_) rfl
      simp only [serviceInfo] at hok
      simp only [advertiseServiceResult, if_neg hnoted, ServiceRuntime.advertise, hok] at hfalse
      split at hfalse
      case isTrue => cases hfalse
      case isFalse => cases hfalse
  | false =>
      refine iff_of_false (fun hundone => ?_) (fun h => by cases h)
      obtain ⟨hresult, hstate⟩ := s.advertiseService_of_failed io topic handler options hnoted hok
      have hset := (hundone hresult).advertisedSrvs topic
      rw [hstate] at hset
      exact hnoted (hset.mp List.mem_insert_self)

/-- **What it means**: a local request is answered by the handler all the same, and the
call cannot be made again, whatever becomes of the discovery instance. -/
theorem failed_call_answers (hfresh : s.shared.service.responseHandlers.handler? topic
      s.node.nodeUuid handler.handlerUuid = none) (h : ¬ s.Admits topic) :
    let t := (s.advertiseService io topic handler options).1
    (∃ h', t.shared.service.getLocalHandler topic handler.getReqTypeName
        handler.getRepTypeName = some h') ∧
      ∀ (shared : NodeShared T) (io' : SocketIo) (handler' : RepHandler T)
        (options' : AdvertiseServiceOptions),
        ({ t with shared := shared }.advertiseService io' topic handler' options') =
          ({ t with shared := shared }, false) := by
  have hnoted : topic ∉ s.node.advertisedSrvs := fun hm => h (.inl hm)
  have hok : (s.shared.service.discovery.advertise (s.serviceInfo topic handler options)).2 =
      false := by
    rw [← Bool.not_eq_true, accepted_iff]
    exact fun hacc => h (.inr hacc)
  intro t
  obtain ⟨-, hstate⟩ := s.advertiseService_of_failed io topic handler options hnoted hok
  constructor
  · refine Option.isSome_iff_exists.mp ?_
    rw [ServiceRuntime.getLocalHandler, HandlerStorage.getFirstHandler, List.find?_isSome]
    refine ⟨handler, (HandlerStorage.mem_handlersOf _).mpr ⟨s.node.nodeUuid, handler.handlerUuid,
      ?_⟩, ?_⟩
    · simp only [t, hstate]
      rw [HandlerStorage.handler?_addHandler, if_pos ⟨rfl, rfl, rfl, hfresh⟩]
    · simp [RepHandler.handles]
  · intro shared io' handler' options'
    have hmem : topic ∈ t.node.advertisedSrvs := by
      simp only [t, hstate]
      exact List.mem_insert_self
    exact if_pos hmem

end NodeState

/-! ## Runs -/

namespace ServedNode
variable {T : Type} [ProtoTypes T]

/-- A call of the run that fails changes nothing. -/
def FailureUndone (s : ServedNode T) : SocketIo × Action T → Prop
  | (io, .act (.advertiseService topic handler options)) =>
    s.state.FailureUndone io topic handler options
  | _ => True

/-- The discovery instance admits what the call advertises. -/
def Admits (s : ServedNode T) : SocketIo × Action T → Prop
  | (_, .act (.advertiseService topic _ _)) => s.state.Admits topic
  | _ => True

/-- **A failed advertisement is undone** in exactly the runs whose calls are none: each
finds its topic noted already, or the discovery instance running and without the endpoint. -/
theorem failureUndone_iff (s : ServedNode T) (run : List (SocketIo × Action T)) :
    Guarded step FailureUndone s run ↔ Guarded step Admits s run := by
  have hstep : ∀ (s : ServedNode T) a, s.FailureUndone a ↔ s.Admits a := by
    intro s ⟨io, a⟩
    cases a with
    | start now => exact Iff.rfl
    | stopDiscovery => exact Iff.rfl
    | stop => exact Iff.rfl
    | act a =>
        cases a with
        | advertiseService topic handler options =>
            exact s.state.failureUndone_call io topic handler options
        | _ => exact Iff.rfl
  constructor
  · exact fun h => h.mono fun s a => (hstep s a).mp
  · exact fun h => h.mono fun s a => (hstep s a).mpr

/-- Node n1 of a process whose service runtime could not be initialized. -/
def exampleServed : ServedNode EmptyOnly :=
  created (str "4a") [] (str "10.0.0.1") (str "tcp://a") (str "r") (str "tcp://r") (str "n1") false

/-- **An advertisement that failed answers local requests**, and is refused for ever. -/
theorem failed_advertise_answers :
    ¬ Guarded step FailureUndone exampleServed
        [(exampleIo, .act (.advertiseService (str "s") ⟨.empty, .empty, str "h", none⟩ {}))] ∧
      let t := (exampleServed.state.advertiseService exampleIo (str "s")
        ⟨.empty, .empty, str "h", none⟩ {}).1
      (t.shared.service.getLocalHandler (str "s") (fullName EmptyOnly.empty)
          (fullName EmptyOnly.empty)).isSome = true ∧
        (t.advertiseService exampleIo (str "s") ⟨.empty, .empty, str "h2", none⟩ {}).2 = false := by
  refine ⟨fun h => ?_, by decide, by decide⟩
  have hundone := (h.1 (by decide)).advertisedSrvs (str "s")
  exact absurd (hundone.mp (by decide)) (by decide)

end ServedNode
end RfTrans
