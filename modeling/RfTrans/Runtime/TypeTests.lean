import RfTrans.Runtime.RemoteMsg

/-!
# Does this handler want this type

The question is asked in five places: `hasSubscribers` and the local part of `publish` want
the type itself, `have_remote` and `getNodeUuids` take the generic type as well, and
`remoteDispatchLoop` wants the type itself again.  This module compares the answers over one
table of handlers.

A handler is any subclass of `ISubscriptionHandler`, with whatever name its `getMsgType`
gives, the generic one included.

## Main definitions

* `MessageRuntime.withHandlers` — a process with a table of handlers.
* `TypeTestsAgree`, `type_tests_agree_iff`
-/

namespace RfTrans

open ProtoTypes HandlerWrapper

namespace HandlerStorage

variable {τ τ' : Type}

/-- The same table with other handlers. -/
def map (f : τ → τ') (hs : HandlerStorage τ) : HandlerStorage τ' :=
  ⟨hs.data.map fun _ nodes => nodes.map fun _ handlers => handlers.map fun _ h => f h⟩

theorem handler?_map (f : τ → τ') (hs : HandlerStorage τ) (t n u : Str) :
    (hs.map f).handler? t n u = (hs.handler? t n u).map f := by
  simp only [handler?, map, Std.ExtTreeMap.getElem?_map]
  cases hs.data[t]? with
  | none => simp
  | some nodes =>
      simp only [Option.map_some, Option.getD_some, Std.ExtTreeMap.getElem?_map]
      cases nodes[n]? with
      | none => simp
      | some handlers => simp [Std.ExtTreeMap.getElem?_map]

theorem mem_handlersOf_map {f : τ → τ'} {hs : HandlerStorage τ} {t : Str} {h' : τ'} :
    h' ∈ (hs.map f).handlersOf t ↔ ∃ h ∈ hs.handlersOf t, f h = h' := by
  simp only [mem_handlersOf, handler?_map, Option.map_eq_some_iff]
  constructor
  · intro hh
    obtain ⟨n, u, h, hh, rfl⟩ := hh
    exact ⟨h, ⟨n, u, hh⟩, rfl⟩
  · intro hh
    obtain ⟨h, ⟨n, u, hh⟩, rfl⟩ := hh
    exact ⟨n, u, h, hh, rfl⟩

end HandlerStorage

variable {T : Type} [ProtoTypes T]

/-- The handler as the tables see it. -/
def TypedHandler.toSubscription (h : TypedHandler T) : SubscriptionHandler :=
  ⟨h.handlerUuid, h.nodeUuid, h.getMsgType⟩

namespace MessageRuntime

/-- A process with these handlers. -/
def withHandlers (rt : MessageRuntime) (table : HandlerStorage (TypedHandler T)) :
    MessageRuntime :=
  { rt with localSubscribers := table.map TypedHandler.toSubscription }

/-- A publish of a message that can be serialized sends something, or queues a call. -/
def Reaches (rt : MessageRuntime) (publisher : MessagePublisherInfo) (shmSent : Bool) : Prop :=
  let info := rt.localHandlers publisher.topic
  (rt.publish publisher shmSent true).1 ≠ [] ∨
    (rt.publish publisher shmSent true).2 = true ∧ info.haveLocal = true ∧
      (localDetails publisher () info).localHandlers ≠ []

end MessageRuntime

/-- The tests agree on a topic and a type. -/
structure TypeTestsAgree (rt : MessageRuntime) (table : HandlerStorage (TypedHandler T))
    (topic msgType : Str) : Prop where
  /-- `hasSubscribers` says whether a publish reaches anyone. -/
  publish : ∀ (publisher : MessagePublisherInfo) (shmSent : Bool), publisher.topic = topic →
    publisher.msgType = msgType →
      (rt.hasSubscribers topic msgType = true ↔ rt.Reaches publisher shmSent)
  /-- The nodes whose handlers a message is dispatched to are those of `getNodeUuids`. -/
  nodes : ∀ (shm : ShmView) (message : RemoteMsg), message.topic = topic →
    message.msgType = msgType → (shm.validPayload message).isSome → ∀ n,
      (n ∈ rt.localSubscribers.getNodeUuids topic msgType ↔
        ∃ c ∈ remoteDispatch shm (table.map some) message, c.handler.nodeUuid = n)
  /-- The nodes registered with a publisher of the type are those whose handlers are called. -/
  registered : ∀ (shm : ShmView) (message : RemoteMsg), message.topic = topic →
    message.msgType = msgType → (shm.validPayload message).isSome →
      ∀ pub : MessagePublisherInfo, pub.topic = topic → pub.msgType = msgType → ∀ n,
        ((∃ r ∈ rt.registrationsFor pub, r.nodeUuid = n) ↔
          ∃ c ∈ remoteDispatch shm (table.map some) message, c.handler.nodeUuid = n)

/-- A node with a generic handler of the topic has one for the type itself. -/
def GenericCovered (table : HandlerStorage (TypedHandler T)) (topic msgType : Str) : Prop :=
  ∀ h ∈ table.handlersOf topic, h.getMsgType = kGenericMessageType →
    ∃ h' ∈ table.handlersOf topic, h'.nodeUuid = h.nodeUuid ∧ h'.getMsgType = msgType

variable {rt : MessageRuntime} {table : HandlerStorage (TypedHandler T)} {topic msgType : Str}

/-! ## Publishing -/

/-- What is queued is for the handlers of the type. -/
theorem localHandlers_localDetails (rt : MessageRuntime) (publisher : MessagePublisherInfo) :
    (MessageRuntime.localDetails publisher () (rt.localHandlers publisher.topic)).localHandlers =
      (rt.localSubscribers.handlersOf publisher.topic).filter
        fun h => h.msgType = publisher.msgType := by
  rw [MessageRuntime.localDetails, LocalDelivery.matching_eq, HandlerStorage.handlersOf]
  simp only [MessageRuntime.localHandlers, HandlerStorage.getHandlers]
  cases rt.localSubscribers.data[publisher.topic]? with
  | none => rfl
  | some handlers => rfl

theorem hasSubscriberOf_iff (hs : HandlerWrapper) (topic msgType : Str) :
    hs.hasSubscriberOf topic msgType = true ↔
      (hs.handlersOf topic).filter (fun h => h.msgType = msgType) ≠ [] := by
  rw [hasSubscriberOf, HandlerStorage.getFirstHandler, List.find?_isSome]
  simp [List.filter_eq_nil_iff]

/-- A topic with a handler has a map in the table. -/
theorem haveLocal_of_mem {h : SubscriptionHandler}
    (hh : h ∈ rt.localSubscribers.handlersOf topic) :
    (rt.localHandlers topic).haveLocal = true := by
  simp only [HandlerStorage.handlersOf] at hh
  simp only [MessageRuntime.localHandlers, HandlerStorage.getHandlers]
  cases ht : rt.localSubscribers.data[topic]? with
  | none => simp [ht] at hh
  | some handlers => rfl

/-- **`hasSubscribers` is exact** for what `publish` does, with any table. -/
theorem hasSubscribers_iff_reaches (rt : MessageRuntime) (publisher : MessagePublisherInfo)
    (shmSent : Bool) :
    rt.hasSubscribers publisher.topic publisher.msgType = true ↔ rt.Reaches publisher shmSent := by
  rw [MessageRuntime.hasSubscribers, Bool.or_eq_true, hasSubscriberOf_iff, MessageRuntime.Reaches,
    localHandlers_localDetails]
  cases hremote : rt.haveRemote publisher.topic publisher.msgType with
  | true =>
      have hsent : (rt.publish publisher shmSent true).1 ≠ [] := by
        simp only [MessageRuntime.publish, hremote, if_true]
        split <;> simp
      exact iff_of_true (.inr hremote) (.inl hsent)
  | false =>
      have hnothing : rt.publish publisher shmSent true = ([], true) := by
        simp [MessageRuntime.publish, hremote]
      rw [MessageRuntime.haveRemote] at hremote
      rw [hnothing, hremote]
      simp only [Bool.false_eq_true, or_false, ne_eq, not_true_eq_false, false_or, true_and]
      constructor
      · intro hne
        obtain ⟨h, hh⟩ := List.exists_mem_of_ne_nil _ hne
        exact ⟨haveLocal_of_mem (List.mem_filter.mp hh).1, hne⟩
      · exact fun hqueued => hqueued.2

/-! ## Dispatching -/

theorem mem_getNodeUuids {n : Str} :
    n ∈ getNodeUuids (table.map TypedHandler.toSubscription) topic msgType ↔
      ∃ h ∈ table.handlersOf topic, h.nodeUuid = n ∧
        (h.getMsgType = msgType ∨ h.getMsgType = kGenericMessageType) := by
  simp only [getNodeUuids, List.mem_map, List.mem_filter, HandlerStorage.mem_handlersOf_map,
    handles, decide_eq_true_eq]
  constructor
  · intro hn
    obtain ⟨_, ⟨⟨h, hh, rfl⟩, htype⟩, rfl⟩ := hn
    exact ⟨h, hh, rfl, htype⟩
  · intro hn
    obtain ⟨h, hh, rfl, htype⟩ := hn
    exact ⟨_, ⟨⟨h, hh, rfl⟩, htype⟩, rfl⟩

theorem exists_registration {pub : MessagePublisherInfo} {n : Str} :
    (∃ r ∈ rt.registrationsFor pub, r.nodeUuid = n) ↔
      n ∈ rt.localSubscribers.getNodeUuids pub.topic pub.msgType := by
  simp [MessageRuntime.registrationsFor]

/-- The handlers that are called for a message with a payload. -/
theorem exists_call {shm : ShmView} {message : RemoteMsg}
    (hvalid : (shm.validPayload message).isSome) {n : Str} :
    (∃ c ∈ remoteDispatch shm (table.map some) message, c.handler.nodeUuid = n) ↔
      ∃ h ∈ table.handlersOf message.topic, h.nodeUuid = n ∧ h.getMsgType = message.msgType := by
  obtain ⟨data, hdata⟩ := Option.isSome_iff_exists.mp hvalid
  have hplaces : ∀ h, (∃ x ∈ handlersFor (table.map some) message, x.2.2 = h) ↔
      h ∈ table.handlersOf message.topic ∧ h.getMsgType = message.msgType := by
    intro h
    simp only [mem_handlersFor, HandlerStorage.handler?_map, HandlerStorage.mem_handlersOf]
    constructor
    · intro hx
      obtain ⟨⟨n, u, h⟩, ⟨hh, htype⟩, rfl⟩ := hx
      exact ⟨⟨n, u, by simpa using hh⟩, htype⟩
    · intro hx
      obtain ⟨⟨n, u, hh⟩, htype⟩ := hx
      exact ⟨(n, u, h), ⟨by simp [hh], htype⟩, rfl⟩
  have hcalls : (∃ c ∈ remoteDispatch shm (table.map some) message, c.handler.nodeUuid = n) ↔
      ∃ x ∈ handlersFor (table.map some) message, x.2.2.nodeUuid = n := by
    rw [remoteDispatch_eq, hdata]
    cases handlersFor (table.map some) message with
    | nil => simp
    | cons x l => simp [typedCall]
  rw [hcalls]
  constructor
  · intro hx
    obtain ⟨x, hx, rfl⟩ := hx
    obtain ⟨hmem, htype⟩ := (hplaces x.2.2).mp ⟨x, hx, rfl⟩
    exact ⟨x.2.2, hmem, rfl, htype⟩
  · intro hh
    obtain ⟨h, hmem, rfl, htype⟩ := hh
    obtain ⟨x, hx, rfl⟩ := (hplaces h).mpr ⟨hmem, htype⟩
    exact ⟨x, hx, rfl⟩

/-- The two tests of a node give the same answer if no generic handler stands alone. -/
theorem nodes_agree_iff :
    (∀ n, (∃ h ∈ table.handlersOf topic, h.nodeUuid = n ∧
        (h.getMsgType = msgType ∨ h.getMsgType = kGenericMessageType)) ↔
      ∃ h ∈ table.handlersOf topic, h.nodeUuid = n ∧ h.getMsgType = msgType) ↔
    GenericCovered table topic msgType := by
  constructor
  · intro hagree h hh hgeneric
    exact (hagree h.nodeUuid).mp ⟨h, hh, rfl, .inr hgeneric⟩
  · intro hcovered n
    constructor
    · intro hn
      obtain ⟨h, hh, rfl, htype | hgeneric⟩ := hn
      · exact ⟨h, hh, rfl, htype⟩
      · exact hcovered h hh hgeneric
    · intro hn
      obtain ⟨h, hh, hnode, htype⟩ := hn
      exact ⟨h, hh, hnode, .inl htype⟩

/-- A message with its bytes in the record. -/
def inlineMsg (topic msgType : Str) : RemoteMsg := ⟨topic, [], [], msgType, false⟩

/-- **The type tests agree exactly where no generic handler stands alone.**  What
`hasSubscribers` says is right in any case. -/
theorem type_tests_agree_iff (rt : MessageRuntime) (table : HandlerStorage (TypedHandler T))
    (topic msgType : Str) :
    TypeTestsAgree (rt.withHandlers table) table topic msgType ↔
      GenericCovered table topic msgType := by
  constructor
  · intro hagree
    refine nodes_agree_iff.mp fun n => ?_
    have hvalid : (ShmView.validPayload ⟨fun _ => none, fun _ => 0, fun _ => 0, fun _ => 0⟩
        (inlineMsg topic msgType)).isSome := rfl
    have hnode := hagree.nodes _ (inlineMsg topic msgType) rfl rfl hvalid n
    rw [exists_call hvalid] at hnode
    exact mem_getNodeUuids.symm.trans hnode
  · intro hcovered
    have hnodes := nodes_agree_iff.mpr hcovered
    constructor
    · rintro publisher shmSent rfl rfl
      exact hasSubscribers_iff_reaches ..
    · rintro shm message rfl rfl hvalid n
      rw [exists_call hvalid]
      exact mem_getNodeUuids.trans (hnodes n)
    · rintro shm message rfl rfl hvalid pub htopic htype n
      rw [exists_call hvalid, exists_registration, htopic, htype]
      exact mem_getNodeUuids.trans (hnodes n)

/-! ## A generic handler -/

/-- A class whose name is the generic one. -/
inductive GenericOnly
  | message
  deriving DecidableEq

instance : ProtoTypes GenericOnly where
  decEq := inferInstance
  Content _ := Str
  fullName _ := kGenericMessageType
  fresh _ := []
  serialize _ content := some content
  parse _ data := (data, true)

/-- A node with a handler for any type. -/
def genericTable : HandlerStorage (TypedHandler GenericOnly) :=
  HandlerStorage.addHandler {} (str "t") (str "n1") (str "u1") ⟨.message, str "u1", str "n1"⟩

/-- The process with the generic handler. -/
def genericProcess : MessageRuntime :=
  (MessageRuntime.init (str "4a") [] [] (str "tcp://a")).withHandlers genericTable

/-- **A subscriber that never hears anything.**  Its node is registered with the publishers
of type `A`, and no message of that type is dispatched to it. -/
theorem generic_handler_never_called :
    genericProcess.localSubscribers.getNodeUuids (str "t") (str "A") = [str "n1"] ∧
      (∀ shm, remoteDispatch shm (genericTable.map some) (inlineMsg (str "t") (str "A")) = []) ∧
      ¬ TypeTestsAgree genericProcess genericTable (str "t") (str "A") := by
  have hnodes : genericProcess.localSubscribers.getNodeUuids (str "t") (str "A") =
      [str "n1"] := by decide
  have hcalls : ∀ shm,
      remoteDispatch shm (genericTable.map some) (inlineMsg (str "t") (str "A")) = [] := by
    intro shm
    have hnone : handlersFor (genericTable.map some) (inlineMsg (str "t") (str "A")) = [] := by
      decide
    rw [remoteDispatch_eq, hnone]
  refine ⟨hnodes, hcalls, ?_⟩
  intro hagree
  have hnode := hagree.nodes ⟨fun _ => none, fun _ => 0, fun _ => 0, fun _ => 0⟩
    (inlineMsg (str "t") (str "A")) rfl rfl rfl (str "n1")
  rw [hnodes, hcalls] at hnode
  simp at hnode

end RfTrans
