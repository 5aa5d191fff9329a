import RfTrans.Node.Node

/-!
# What a node reports

`getAdvertisedTopics` does not look into the set that the node keeps of its topics but into the
table of the discovery instance, which every datagram may change.

## Main definitions

* `NodeState.getAdvertisedTopics`, `NodeState.getTopicList`, `NodeState.getServiceList`
* `NodeState.reports_what_it_advertises` — the set and the table agree.
* `NodeState.serves_what_it_advertises` — and so do those of its services.
-/

namespace RfTrans

open Exec PubLike TopicStorage

/-- `MessageRuntime::getAdvertisedTopics`; the keys are those of the `std::set`. -/
def MessageRuntime.getAdvertisedTopics (rt : MessageRuntime) (nodeUuid : Str) : StrMap Unit :=
  (rt.discovery.knownPublishers.getPublishersByNode rt.processUuid nodeUuid).foldl
    (fun topics publisher => topics.insert publisher.topic ()) ∅

/-- `MessageRuntime::getTopics` -/
def MessageRuntime.getTopics (rt : MessageRuntime) : List Str :=
  rt.discovery.knownPublishers.getTopicList

/-- `ServiceRuntime::getTopics` -/
def ServiceRuntime.getTopics {T : Type} [ProtoTypes T] (rt : ServiceRuntime T) : List Str :=
  rt.discovery.knownPublishers.getTopicList

/-- `ServiceRuntime::hasService` -/
def ServiceRuntime.hasService {T : Type} [ProtoTypes T] (rt : ServiceRuntime T) (topic : Str) :
    Bool :=
  rt.responseHandlers.hasTopic topic || (rt.discovery.knownPublishers.getPublishers topic).isSome

/-- A service is there when it is listed or has a responder in this process. -/
theorem ServiceRuntime.hasService_iff {T : Type} [ProtoTypes T] {rt : ServiceRuntime T}
    {topic : Str} :
    rt.hasService topic = true ↔
      rt.responseHandlers.hasTopic topic = true ∨ topic ∈ rt.getTopics := by
  rw [hasService, Bool.or_eq_true, getTopics, TopicStorage.getTopicList, Std.ExtTreeMap.mem_keys,
    ← Std.ExtTreeMap.isSome_getElem?_iff_mem]
  rfl

namespace NodeState

variable {T : Type} [ProtoTypes T] {s t : NodeState T} {uuid : Str}

/-- `Node::getAdvertisedTopics` -/
def getAdvertisedTopics (s : NodeState T) : StrMap Unit :=
  s.shared.message.getAdvertisedTopics s.node.nodeUuid

/-- `Node::getTopicList` -/
def getTopicList (s : NodeState T) : List Str := s.shared.message.getTopics

/-- `Node::getServiceList` -/
def getServiceList (s : NodeState T) : List Str := s.shared.service.getTopics

/-- A service that is listed is there. -/
theorem hasService_of_mem_getServiceList {topic : Str} (h : topic ∈ s.getServiceList) :
    s.shared.service.hasService topic = true :=
  ServiceRuntime.hasService_iff.mpr (.inr h)

/-! ## Steps of the message runtime -/

/-- A step of the message runtime is one of its discovery instance, or leaves that alone. -/
theorem discovery_perform {rt rt' : MessageRuntime} {a : MessageRuntime.Action}
    {sent : List Msgs.Discovery} (hp : rt.perform a = some (rt', sent)) :
    rt'.discovery = rt.discovery ∨ ∃ d, rt'.discovery = (rt.discovery.perform d).self ∧
      ∀ t n, d = .unadvertise t n → a = .unadvertise t n := by
  cases a with
  | advertise topic nodeUuid msgType options =>
      obtain ⟨rfl, -⟩ := MessageRuntime.fst_snd_of_some hp
      exact .inr ⟨.advertise _, MessageRuntime.discovery_absorb _ _, fun _ _ h => by cases h⟩
  | unadvertise topic nodeUuid =>
      obtain ⟨rfl, -⟩ := MessageRuntime.fst_snd_of_some hp
      refine .inr ⟨.unadvertise topic nodeUuid, MessageRuntime.discovery_absorb _ _, ?_⟩
      intro t n h
      obtain ⟨rfl, rfl⟩ := Discovery.Action.unadvertise.inj h
      rfl
  | subscribe topic nodeUuid handler =>
      obtain ⟨rfl, -⟩ := MessageRuntime.fst_snd_of_some hp
      exact .inl ((MessageRuntime.discovery_absorb _ _).trans (Discovery.self_discover _ topic))
  | unsubscribe topic nodeUuid =>
      obtain ⟨rfl, -⟩ := MessageRuntime.fst_snd_of_some hp
      simp only [MessageRuntime.unsubscribe]
      split <;> exact .inl rfl
  | recv fromIp m now =>
      obtain ⟨rfl, -⟩ := MessageRuntime.fst_snd_of_some hp
      exact .inr ⟨.recv fromIp m now, MessageRuntime.discovery_absorb _ _,
        fun _ _ h => by cases h⟩
  | heartbeat now later =>
      obtain ⟨rfl, -⟩ := MessageRuntime.fst_snd_of_some hp
      exact .inr ⟨.heartbeat now later, MessageRuntime.discovery_absorb _ _,
        fun _ _ h => by cases h⟩
  | activity now later =>
      obtain ⟨rfl, -⟩ := MessageRuntime.fst_snd_of_some hp
      exact .inr ⟨.activity now later, MessageRuntime.discovery_absorb _ _,
        fun _ _ h => by cases h⟩
  | applyCommand ok =>
      obtain ⟨c, rest, sub, -, hrt⟩ := rt.applyNextCommand_eq hp
      obtain rfl : rt' = _ := hrt
      exact .inl rfl

/-- The invariant: what is in the set of the node is in the table. -/
structure Noted (s : NodeState T) : Prop where
  running : s.shared.message.Running
  wellFormed : s.shared.message.discovery.knownPublishers.WellFormed
  noted : ∀ topic ∈ s.node.advertisedTopics, s.HasPublisher topic

/-- A step of the message runtime in which the node adds to its set what is in the table. -/
theorem Noted.of_perform (hs : s.Noted) (hi : s.Inv uuid) {a : MessageRuntime.Action}
    {rt' : MessageRuntime} {sent : List Msgs.Discovery} {node' : Node}
    (hp : s.shared.message.perform a = some (rt', sent)) (huuid : node'.nodeUuid = s.node.nodeUuid)
    (hnoted : ∀ topic ∈ node'.advertisedTopics,
      topic ∈ s.node.advertisedTopics ∧ a ≠ .unadvertise topic s.node.nodeUuid ∨
        rt'.discovery.HoldsOwn topic s.node.nodeUuid) :
    Noted { s with shared.message := rt', node := node' } := by
  refine ⟨(MessageRuntime.kept_perform hs.running hp).running hs.running, ?_, ?_⟩
  · show rt'.discovery.knownPublishers.WellFormed
    rcases discovery_perform hp with hd | ⟨d, hd, -⟩
    · rw [hd]
      exact hs.wellFormed
    · rw [hd]
      exact hs.wellFormed.edited (hi.message.edited d)
  · intro topic htopic
    show rt'.discovery.HoldsOwn topic node'.nodeUuid
    rw [huuid]
    rcases hnoted topic htopic with ⟨hold, hne⟩ | hheld
    · have hheld := hs.noted topic hold
      rcases discovery_perform hp with hd | ⟨d, hd, hun⟩
      · rw [hd]
        exact hheld
      · rw [hd]
        exact hi.message.holdsOwn_kept hheld fun h => hne (hun _ _ h)
    · exact hheld

/-- What `advertise` of the runtime returns is in the table. -/
theorem holdsOwn_advertise {rt : MessageRuntime} (hr : rt.Running) {topic nodeUuid msgType : Str}
    {options : AdvertiseMessageOptions} {pub : MessagePublisherInfo}
    (h : (rt.advertise topic nodeUuid msgType options).2.2 = some pub) :
    (rt.advertise topic nodeUuid msgType options).1.discovery.HoldsOwn topic nodeUuid := by
  have hadd : (rt.discovery.knownPublishers.addPublisher (MessagePublisherInfo.make topic
      rt.address (str "unused") rt.processUuid nodeUuid msgType options)).2 = true := by
    by_contra hadd
    simp [MessageRuntime.advertise, Discovery.advertise, hr.enabled, hadd] at h
  rw [rt.discovery_advertise topic nodeUuid msgType options hr.enabled]
  refine ⟨MessagePublisherInfo.make topic rt.address (str "unused") rt.processUuid nodeUuid msgType
    options, ?_, rfl⟩
  exact (mem_pubsOf_addPublisher _).mpr (.inr ⟨hadd, rfl, hr.uuid, rfl⟩)

theorem Noted.advertise (hs : s.Noted) (hi : s.Inv uuid) (topic msgType : Str)
    (options : AdvertiseMessageOptions) : (s.advertise topic msgType options).1.Noted := by
  have hp := s.shared.message.perform_advertise topic s.node.nodeUuid msgType options
  simp only [NodeState.advertise]
  split
  case isTrue => exact hs
  case isFalse =>
    split
    case h_1 =>
      refine hs.of_perform hi hp rfl fun t ht => .inl ⟨ht, fun h => by cases h⟩
    case h_2 pub hpub =>
      refine hs.of_perform hi hp rfl fun t ht => ?_
      rcases List.mem_insert_iff.mp ht with rfl | ht
      · exact .inr (holdsOwn_advertise hs.running hpub)
      · exact .inl ⟨ht, fun h => by cases h⟩

theorem Noted.unadvertise (hs : s.Noted) (hi : s.Inv uuid) (topic : Str) :
    (s.unadvertise topic).Noted := by
  refine hs.of_perform hi (a := .unadvertise topic s.node.nodeUuid) rfl rfl fun t ht => ?_
  obtain ⟨ht, hne⟩ := List.mem_filter.mp ht
  refine .inl ⟨ht, fun h => ?_⟩
  obtain ⟨rfl, -⟩ := MessageRuntime.Action.unadvertise.inj h
  simp at hne

/-- **One step** of the node or of the rest of the process. -/
theorem Noted.next (hs : s.Noted) (hi : s.Inv uuid) {io : SocketIo} {a : Action T}
    (h : s.next io a = some t) : t.Noted := by
  cases a with
  | advertise topic msgType options =>
      obtain rfl := Option.some.inj h
      exact hs.advertise hi topic msgType options
  | unadvertise topic =>
      obtain rfl := Option.some.inj h
      exact hs.unadvertise hi topic
  | subscribe topic handlerUuid msgType =>
      obtain rfl := Option.some.inj h
      exact hs.of_perform hi (a := .subscribe topic s.node.nodeUuid _) rfl rfl
        fun t ht => .inl ⟨ht, fun h => by cases h⟩
  | unsubscribe topic =>
      obtain rfl := Option.some.inj h
      exact hs.of_perform hi (a := .unsubscribe topic s.node.nodeUuid) rfl rfl
        fun t ht => .inl ⟨ht, fun h => by cases h⟩
  | advertiseService topic handler options =>
      obtain rfl := Option.some.inj h
      simp only [NodeState.advertiseService]
      split
      case isTrue => exact hs
      case isFalse => exact ⟨hs.running, hs.wellFormed, hs.noted⟩
  | unadvertiseService topic =>
      obtain rfl := Option.some.inj h
      exact ⟨hs.running, hs.wellFormed, hs.noted⟩
  | requestAsync topic handlerUuid req rep msg =>
      obtain ⟨x, hx, rfl⟩ := Option.map_eq_some_iff.mp h
      exact ⟨hs.running, hs.wellFormed, hs.noted⟩
  | requestSync topic handlerUuid req rep msg reply =>
      obtain ⟨x, hx, rfl⟩ := Option.map_eq_some_iff.mp h
      exact ⟨hs.running, hs.wellFormed, hs.noted⟩
  | message a =>
      obtain ⟨hcaller, h⟩ := Option.ite_none_left_eq_some.mp h
      obtain ⟨⟨rt', sent⟩, hx, rfl⟩ := Option.map_eq_some_iff.mp h
      refine hs.of_perform hi hx rfl fun t ht => .inl ⟨ht, ?_⟩
      rintro rfl
      exact hcaller rfl
  | service a =>
      obtain ⟨-, h⟩ := Option.ite_none_left_eq_some.mp h
      obtain rfl := Option.some.inj h
      exact ⟨hs.running, hs.wellFormed, hs.noted⟩

theorem noted_init (processUuid processName hostAddr address replierUuid replierAddress
    nodeUuid : Str) :
    (init processUuid processName hostAddr address replierUuid replierAddress
      nodeUuid : NodeState T).Noted :=
  ⟨MessageRuntime.running_init .., wellFormed_empty, fun _ h => by cases h⟩

/-! ## What is reported -/

theorem mem_foldl_insert {β : Type} (key : β → Str) (l : List β) (m : StrMap Unit) {k : Str} :
    k ∈ l.foldl (fun m b => m.insert (key b) ()) m ↔ k ∈ m ∨ ∃ b ∈ l, key b = k := by
  induction l generalizing m with
  | nil => simp
  | cons b l ih =>
      rw [List.foldl_cons, ih, Std.ExtTreeMap.mem_insert, Std.LawfulEqCmp.compare_eq_iff_eq,
        List.exists_mem_cons_iff]
      tauto

/-- In a well-formed table the report is what the table has of the node. -/
theorem Noted.mem_getAdvertisedTopics (hs : s.Noted) {topic : Str} :
    topic ∈ s.getAdvertisedTopics ↔ s.HasPublisher topic := by
  rw [getAdvertisedTopics, MessageRuntime.getAdvertisedTopics,
    mem_foldl_insert fun p : MessagePublisherInfo => p.topic,
    or_iff_right Std.ExtTreeMap.not_mem_empty]
  simp only [getPublishersByNode, List.mem_filter, mem_pubsOfProc, decide_eq_true_eq]
  rw [HasPublisher, Discovery.HoldsOwn, hs.running.uuid]
  constructor
  · rintro ⟨x, ⟨⟨t, hx⟩, hn⟩, rfl⟩
    have htopic : x.topic = t := (hs.wellFormed.filed hx).1
    exact ⟨x, htopic ▸ hx, hn⟩
  · rintro ⟨x, hx, hn⟩
    exact ⟨x, ⟨⟨topic, hx⟩, hn⟩, (hs.wellFormed.filed hx).1⟩

/-- A topic of the node is a topic of the table. -/
theorem HasPublisher.mem_getTopicList {topic : Str} (h : s.HasPublisher topic) :
    topic ∈ s.getTopicList := by
  obtain ⟨x, hx, -⟩ := h
  obtain ⟨mp, l, hmp, -, -⟩ := (mem_pubsOf_iff _).mp hx
  refine Std.ExtTreeMap.mem_keys.mpr (Std.ExtTreeMap.isSome_getElem?_iff_mem.mp ?_)
  rw [hmp]
  rfl

/-- What the node does not have it may advertise. -/
theorem isSome_advertise (hs : s.Noted) (hi : s.Inv uuid) (topic msgType : Str)
    (options : AdvertiseMessageOptions) :
    (s.advertise topic msgType options).2.isSome = true ↔ topic ∉ s.node.advertisedTopics := by
  simp only [NodeState.advertise]
  split
  case isTrue hold => simp [hold]
  case isFalse hnew =>
    have hadd : (s.shared.message.discovery.knownPublishers.addPublisher
        (MessagePublisherInfo.make topic s.shared.message.address (str "unused")
          s.shared.message.processUuid s.node.nodeUuid msgType options)).2 = true := by
      refine (addPublisher_snd _).mpr fun x hx hsame => hnew (hi.advertised topic ?_)
      refine ⟨x, ?_, (of_decide_eq_true hsame).2⟩
      rw [hs.running.uuid]
      exact hx
    rw [MessageRuntime.advertise_ok hs.running.enabled hadd]
    simp [hnew]

/-- **A node reports what it advertises**, whatever the other nodes of the process and the network
do: `getAdvertisedTopics` returns the topics that the node has advertised and not taken back,
all of them are in `getTopicList`, and the node can advertise exactly the others. -/
theorem reports_what_it_advertises (processUuid processName hostAddr address replierUuid
    replierAddress nodeUuid : Str) (huuid : processUuid ≠ []) (run : List (SocketIo × Action T))
    (h : exec step (init processUuid processName hostAddr address replierUuid replierAddress
      nodeUuid) run = some s) (topic : Str) :
    (topic ∈ s.getAdvertisedTopics ↔ topic ∈ s.node.advertisedTopics) ∧
      (topic ∈ s.getAdvertisedTopics → topic ∈ s.getTopicList) ∧
      ∀ msgType options,
        (s.advertise topic msgType options).2.isSome = true ↔ topic ∉ s.getAdvertisedTopics := by
  obtain ⟨hi, hs⟩ : s.Inv processUuid ∧ s.Noted := by
    refine stable (P := fun s : NodeState T => s.Inv processUuid ∧ s.Noted) ?_
      ⟨inv_init _ _ _ _ _ _ _ huuid, noted_init ..⟩ h
    exact fun s a t hs h => ⟨(hs.1.next h).1, hs.2.next hs.1 h⟩
  have hiff : topic ∈ s.getAdvertisedTopics ↔ topic ∈ s.node.advertisedTopics := by
    rw [hs.mem_getAdvertisedTopics]
    exact ⟨hi.advertised topic, hs.noted topic⟩
  refine ⟨hiff, fun h => (hs.mem_getAdvertisedTopics.mp h).mem_getTopicList, ?_⟩
  intro msgType options
  rw [hiff]
  exact isSome_advertise hs hi topic msgType options

/-- The node advertises t and u, hears that 5b takes a t of its own back, and takes u back. -/
def reporting : List (SocketIo × Action EmptyOnly) :=
  [(exampleIo, .advertise (str "t") (str "M") {}), (exampleIo, .advertise (str "u") (str "M") {}),
    (exampleIo, .message (.recv (str "10.0.0.2") (Discovery.datagramOf5b .unadvertise) 0)),
    (exampleIo, .unadvertise (str "u"))]

theorem reports_what_it_advertises_two :
    ∃ s, exec step exampleNode reporting = some s ∧ str "t" ∈ s.getAdvertisedTopics ∧
      ∀ topic, (topic ∈ s.getAdvertisedTopics ↔ topic ∈ s.node.advertisedTopics) ∧
        (topic ∈ s.getAdvertisedTopics → topic ∈ s.getTopicList) ∧
        ∀ msgType options,
          (s.advertise topic msgType options).2.isSome = true ↔ topic ∉ s.getAdvertisedTopics := by
  have hreports := reports_what_it_advertises (str "4a") [] (str "10.0.0.1") (str "tcp://a")
    (str "r") (str "tcp://r") (str "n1") (by decide) reporting rfl
  exact ⟨_, rfl, (hreports (str "t")).1.mpr (by decide), hreports⟩

/-! ## Responders -/

/-- A topic with a handler is a topic of the table. -/
theorem hasTopic_of_hasHandlersForNode {τ : Type} {hs : HandlerStorage τ} {topic nodeUuid : Str}
    (h : hs.hasHandlersForNode topic nodeUuid = true) : hs.hasTopic topic = true := by
  rw [HandlerStorage.hasHandlersForNode] at h
  rw [HandlerStorage.hasTopic, Std.ExtTreeMap.contains_eq_isSome_getElem?]
  cases hget : hs.data[topic]? with
  | none =>
      rw [hget] at h
      cases h
  | some nodes => rfl

/-- A step of the service runtime keeps the responders of a node that does not take them back. -/
theorem hasHandlersForNode_perform {rt : ServiceRuntime T} (io : SocketIo)
    {a : ServiceRuntime.Action T} {topic nodeUuid : Str}
    (hheld : rt.responseHandlers.hasHandlersForNode topic nodeUuid = true)
    (hne : a ≠ .unadvertise topic nodeUuid) :
    (rt.perform io a).self.responseHandlers.hasHandlersForNode topic nodeUuid = true := by
  have hsame : ∀ {rt' : ServiceRuntime T}, rt'.responseHandlers = rt.responseHandlers →
      rt'.responseHandlers.hasHandlersForNode topic nodeUuid = true := by
    intro rt' h
    rw [h]
    exact hheld
  cases a with
  | advertise t n handler reqType repType options =>
      have hr : (rt.perform io (.advertise t n handler reqType repType
          options)).self.responseHandlers =
            rt.responseHandlers.addHandler t n handler.handlerUuid handler :=
        responseHandlers_absorb _ io _
      rw [hr, HandlerStorage.hasHandlersForNode_addHandler]
      exact .inr hheld
  | unadvertise t n =>
      have hr : (rt.perform io (.unadvertise t n)).self.responseHandlers =
          (rt.responseHandlers.removeHandlersForNode t n).1 :=
        responseHandlers_absorb _ io _
      rw [hr, HandlerStorage.hasHandlersForNode_removeHandlersForNode]
      refine ⟨hheld, ?_⟩
      rintro ⟨rfl, rfl⟩
      exact hne rfl
  | request t n handler => exact hsame (responseHandlers_request rt io t n handler)
  | recv fromIp m now => exact hsame (responseHandlers_absorb rt io _)
  | heartbeat now later => exact hsame (responseHandlers_absorb rt io _)
  | activity now later => exact hsame (responseHandlers_absorb rt io _)
  | handleResponses responses => exact hsame (responseHandlers_handleResponses rt responses)

/-- What the node has noted of its services is in the table of responders. -/
def Responds (s : NodeState T) : Prop := ∀ topic ∈ s.node.advertisedSrvs, s.HasResponder topic

/-- A step of the service runtime that takes back only what the node has struck out. -/
theorem Responds.of_perform (hs : s.Responds) (io : SocketIo) {a : ServiceRuntime.Action T}
    {rt' : ServiceRuntime T} {node' : Node} (hrt : rt' = (s.shared.service.perform io a).self)
    (huuid : node'.nodeUuid = s.node.nodeUuid)
    (hnoted : ∀ topic ∈ node'.advertisedSrvs,
      topic ∈ s.node.advertisedSrvs ∧ a ≠ .unadvertise topic s.node.nodeUuid ∨
        rt'.responseHandlers.hasHandlersForNode topic s.node.nodeUuid = true) :
    Responds { s with shared.service := rt', node := node' } := by
  intro topic htopic
  show rt'.responseHandlers.hasHandlersForNode topic node'.nodeUuid = true
  rw [huuid]
  rcases hnoted topic htopic with ⟨hold, hne⟩ | hheld
  · rw [hrt]
    exact hasHandlersForNode_perform io (hs topic hold) hne
  · exact hheld

theorem Responds.request (hs : s.Responds) {io : SocketIo} {topic : Str} {rt' : ServiceRuntime T}
    (h : rt' = s.shared.service ∨
      ∃ handler, rt' = (s.shared.service.request io topic s.node.nodeUuid handler).1.self) :
    Responds { s with shared.service := rt' } := by
  rcases h with rfl | ⟨handler, rfl⟩
  · exact hs
  · exact hs.of_perform io (a := .request topic s.node.nodeUuid handler) rfl rfl
      fun t ht => .inl ⟨ht, fun h => by cases h⟩

theorem Responds.advertiseService (hs : s.Responds) (io : SocketIo) (topic : Str)
    (handler : RepHandler T) (options : AdvertiseServiceOptions) :
    (s.advertiseService io topic handler options).1.Responds := by
  simp only [NodeState.advertiseService]
  split
  case isTrue => exact hs
  case isFalse =>
    refine hs.of_perform io (a := .advertise topic s.node.nodeUuid handler handler.getReqTypeName
      handler.getRepTypeName options) rfl rfl fun t ht => ?_
    rcases List.mem_insert_iff.mp ht with rfl | ht
    · have hr : (s.shared.service.advertise io t s.node.nodeUuid handler handler.getReqTypeName
          handler.getRepTypeName options).1.self.responseHandlers =
            s.shared.service.responseHandlers.addHandler t s.node.nodeUuid handler.handlerUuid
              handler := responseHandlers_absorb _ io _
      rw [hr, HandlerStorage.hasHandlersForNode_addHandler]
      exact .inr (.inl ⟨rfl, rfl⟩)
    · exact .inl ⟨ht, fun h => by cases h⟩

theorem Responds.unadvertiseService (hs : s.Responds) (io : SocketIo) (topic : Str) :
    (s.unadvertiseService io topic).1.Responds := by
  refine hs.of_perform io (a := .unadvertise topic s.node.nodeUuid) rfl rfl fun t ht => ?_
  obtain ⟨ht, hne⟩ := List.mem_filter.mp ht
  refine .inl ⟨ht, fun h => ?_⟩
  obtain ⟨rfl, -⟩ := ServiceRuntime.Action.unadvertise.inj h
  simp at hne

/-- **One step** of the node or of the rest of the process. -/
theorem Responds.next (hs : s.Responds) {io : SocketIo} {a : Action T}
    (h : s.next io a = some t) : t.Responds := by
  cases a with
  | advertise topic msgType options =>
      obtain rfl := Option.some.inj h
      simp only [NodeState.advertise]
      split
      case isTrue => exact hs
      case isFalse => split <;> exact hs
  | unadvertise topic =>
      obtain rfl := Option.some.inj h
      exact hs
  | subscribe topic handlerUuid msgType =>
      obtain rfl := Option.some.inj h
      exact hs
  | unsubscribe topic =>
      obtain rfl := Option.some.inj h
      exact hs
  | advertiseService topic handler options =>
      obtain rfl := Option.some.inj h
      exact hs.advertiseService io topic handler options
  | unadvertiseService topic =>
      obtain rfl := Option.some.inj h
      exact hs.unadvertiseService io topic
  | requestAsync topic handlerUuid req rep msg =>
      obtain ⟨x, hx, rfl⟩ := Option.map_eq_some_iff.mp h
      exact hs.request (requestAsync_self hx)
  | requestSync topic handlerUuid req rep msg reply =>
      obtain ⟨x, hx, rfl⟩ := Option.map_eq_some_iff.mp h
      exact hs.request (requestSync_self hx)
  | message a =>
      obtain ⟨-, h⟩ := Option.ite_none_left_eq_some.mp h
      obtain ⟨x, hx, rfl⟩ := Option.map_eq_some_iff.mp h
      exact hs
  | service a =>
      obtain ⟨hcaller, h⟩ := Option.ite_none_left_eq_some.mp h
      obtain rfl := Option.some.inj h
      refine hs.of_perform io rfl rfl fun t ht => .inl ⟨ht, ?_⟩
      rintro rfl
      exact hcaller rfl

/-- **A service is there as long as its node wants it**: the topics that a node notes as its
services are those for which the process has a responder of this node, and `hasService` finds
each of them, whether or not the discovery instance could announce it. -/
theorem serves_what_it_advertises (processUuid processName hostAddr address replierUuid
    replierAddress nodeUuid : Str) (huuid : processUuid ≠ []) (run : List (SocketIo × Action T))
    (h : exec step (init processUuid processName hostAddr address replierUuid replierAddress
      nodeUuid) run = some s) (topic : Str) :
    (topic ∈ s.node.advertisedSrvs ↔ s.HasResponder topic) ∧
      (topic ∈ s.node.advertisedSrvs → s.shared.service.hasService topic = true) := by
  obtain ⟨hi, hs⟩ : s.Inv processUuid ∧ s.Responds := by
    refine stable (P := fun s : NodeState T => s.Inv processUuid ∧ s.Responds) ?_
      ⟨inv_init _ _ _ _ _ _ _ huuid, fun _ h => by cases h⟩ h
    exact fun s a t hs h => ⟨(hs.1.next h).1, hs.2.next h⟩
  refine ⟨⟨hs topic, hi.responding topic⟩, fun h => ServiceRuntime.hasService_iff.mpr (.inl ?_)⟩
  exact hasTopic_of_hasHandlersForNode (hs topic h)

theorem serves_what_it_advertises_busy :
    ∃ s, exec step exampleNode busy = some s ∧ str "s" ∈ s.node.advertisedSrvs ∧
      ∀ topic, (topic ∈ s.node.advertisedSrvs ↔ s.HasResponder topic) ∧
        (topic ∈ s.node.advertisedSrvs → s.shared.service.hasService topic = true) :=
  ⟨_, rfl, by decide, serves_what_it_advertises (str "4a") [] (str "10.0.0.1") (str "tcp://a")
    (str "r") (str "tcp://r") (str "n1") (by decide) busy rfl⟩

end NodeState
end RfTrans
