import RfTrans.Ring.Bounds
import RfTrans.Runtime.LocalDelivery
import RfTrans.Service.Handlers

/-!
# Messages from other processes

The records that the receive thread queues, and the body of `remoteDispatchLoop`: it looks
up the handlers of the topic, finds the payload in the record or in a ring, and calls the
handlers of the message's type, the first of which has to parse the payload.

A slot may be overwritten at any moment, so what the segment holds at the look before the
parse, during the parse and at the look after it are three contents.  A call is a call of
`runLocalCallback`.

## Main definitions

* `RemoteMsg`
* `ShmView`, `ShmView.payload` — the rings of the reader, and the payload of a record.
* `remoteDispatch` — the calls for a record.
* `AllOrNothing`, `all_or_nothing_iff`
-/

namespace RfTrans

open ProtoTypes

/-- `kShmMsgTypeMarker` -/
def kShmMsgTypeMarker : UInt8 := 1

/-- `kMsgQueueLimit` -/
def kMsgQueueLimit : ℕ := 1000

/-- `RemoteMsg` -/
structure RemoteMsg where
  topic : Str
  sender : Str
  data : Str
  msgType : Str
  isShm : Bool := false
  deriving DecidableEq

/-- What `receiveMessage` makes of its four frames. -/
def RemoteMsg.ofFrames (topic sender data msgType : Str) : RemoteMsg :=
  match msgType with
  | [] => ⟨topic, sender, data, [], false⟩
  | b :: rest =>
    if b = kShmMsgTypeMarker then ⟨topic, sender, data, rest, true⟩
    else ⟨topic, sender, data, b :: rest, false⟩

/-! ## The payload -/

/-- What the dispatch loop finds in shared memory: the rings that `readerRingFor` returns
and three contents of the ring in question. -/
structure ShmView where
  readerRingFor : Str → Option MappedRing
  before : Bytes
  during : Bytes
  after : Bytes

/-- `payload_data` with its size, and the result that `finishRead` would have; a record with
inline data has no ring to ask. -/
structure Payload where
  data : Str
  finishRead : Bool
  deriving DecidableEq

/-- The payload of a record, if there is one to parse. -/
def ShmView.payload (shm : ShmView) (message : RemoteMsg) : Option Payload :=
  if message.isShm then
    if message.data.length ≠ sizeofShmDescriptor then none
    else
      let descriptor := ShmDescriptor.ofBytes message.data
      match shm.readerRingFor descriptor.shmName with
      | none => none
      | some ring =>
        let handle := Transport.handleOf descriptor
        match (ring.beginRead shm.before handle).1 with
        | none => none
        | some peeked =>
          some
            { data := (List.range peeked.size).map fun i => shm.during (peeked.payload + i)
              finishRead := (ring.finishRead shm.after handle).1 }
  else some ⟨message.data, true⟩

/-- The payload bytes of a record whose slot, if it is in one, was valid before and after
the parse. -/
def ShmView.validPayload (shm : ShmView) (message : RemoteMsg) : Option Str :=
  (shm.payload message).bind fun p => if p.finishRead then some p.data else none

variable {T : Type} [ProtoTypes T]

/-! ## Handlers -/

/-- `SubscriptionHandler<M>`, `M` being the class. -/
structure TypedHandler (T : Type) where
  type : T
  handlerUuid : Str
  nodeUuid : Str
  deriving DecidableEq

namespace TypedHandler

/-- `getMsgType` -/
def getMsgType (h : TypedHandler T) : Str := fullName h.type

/-- `createMsg`: never null, a parse error is logged and the object is used all the same. -/
def createMsg (h : TypedHandler T) (data : Str) : Option (ProtoMsg T) :=
  some ⟨h.type, (parse h.type data).1⟩

end TypedHandler

/-- The handlers of a topic, by node and handler uuid. Any of them may be null. -/
abbrev TopicHandlers (T : Type) := StrMap (StrMap (Option (TypedHandler T)))

/-- A call of `runLocalCallback`, with the uuids under which its handler was found. -/
structure TypedCall (T : Type) [ProtoTypes T] where
  nodeUuid : Str
  handlerUuid : Str
  handler : TypedHandler T
  msg : ProtoMsg T
  info : MessageInfo

/-- What the callback of the handler gets: null when the message is of another class. -/
def TypedCall.received (c : TypedCall T) : Option (Content c.handler.type) :=
  c.msg.cast c.handler.type

/-! ## The loops -/

/-- What the two loops over the handlers carry. -/
structure Dispatch (T : Type) [ProtoTypes T] where
  protoMsg : Option (ProtoMsg T) := none
  calls : List (TypedCall T) := []

/-- `runLocalCallback` -/
def Dispatch.call (s : Dispatch T) (message : RemoteMsg) (nodeUuid handlerUuid : Str)
    (handler : TypedHandler T) (msg : ProtoMsg T) : Dispatch T :=
  { protoMsg := some msg
    calls := s.calls ++ [⟨nodeUuid, handlerUuid, handler, msg, ⟨message.topic, message.msgType⟩⟩] }

/-- A pass of the inner loop that reaches a handler of the type. A `break` with
`invalid_msg`, which ends both loops, is an error. -/
def dispatchHandler (message : RemoteMsg) (payload : Payload) (nodeUuid : Str) (s : Dispatch T)
    (handlerUuid : Str) (handler : TypedHandler T) : Except (Dispatch T) (Dispatch T) :=
  match s.protoMsg with
  | some msg => .ok (s.call message nodeUuid handlerUuid handler msg)
  | none =>
    match handler.createMsg payload.data with
    | none => .error s
    | some msg =>
      if !payload.finishRead then .error { s with protoMsg := some msg }
      else .ok (s.call message nodeUuid handlerUuid handler msg)

/-- A pass of the inner loop. -/
def dispatchEntry (message : RemoteMsg) (payload : Payload) (nodeUuid : Str) (s : Dispatch T)
    (entry : Str × Option (TypedHandler T)) : Except (Dispatch T) (Dispatch T) :=
  match entry.2 with
  | none => .ok s
  | some handler =>
    if handler.getMsgType ≠ message.msgType then .ok s
    else dispatchHandler message payload nodeUuid s entry.1 handler

/-- A pass of the outer loop. -/
def dispatchNode (message : RemoteMsg) (payload : Payload) (s : Dispatch T)
    (node : Str × StrMap (Option (TypedHandler T))) : Except (Dispatch T) (Dispatch T) :=
  node.2.toList.foldlM (dispatchEntry message payload node.1) s

/-- The calls that have been made when both loops are over. -/
def callsOf : Except (Dispatch T) (Dispatch T) → List (TypedCall T)
  | .ok s => s.calls
  | .error s => s.calls

/-- The body of `remoteDispatchLoop`: the calls for a record. -/
def remoteDispatch (shm : ShmView) (handlers : HandlerStorage (Option (TypedHandler T)))
    (message : RemoteMsg) : List (TypedCall T) :=
  match handlers.getHandlers message.topic with
  | none => []
  | some localHandlers =>
    match shm.payload message with
    | none => []
    | some payload => callsOf (localHandlers.toList.foldlM (dispatchNode message payload) {})

/-! ## All or nothing -/

/-- The calls are those of the handlers of the message's type, one for each, and all with
the message decoded. -/
structure Delivered (handlers : HandlerStorage (Option (TypedHandler T))) (message : RemoteMsg)
    (decoded : ProtoMsg T) (calls : List (TypedCall T)) : Prop where
  once : (calls.map fun c => (c.nodeUuid, c.handlerUuid)).Nodup
  exactly : ∀ n u h,
    (∃ c ∈ calls, c.nodeUuid = n ∧ c.handlerUuid = u ∧ c.handler = h) ↔
      handlers.handler? message.topic n u = some (some h) ∧ h.getMsgType = message.msgType
  same : ∀ c ∈ calls, c.msg = decoded ∧ c.info = ⟨message.topic, message.msgType⟩ ∧
    c.received.isSome

/-- The bytes parse as the class; a message has at most `INT_MAX` bytes. -/
def Parses (t : T) (data : Str) : Prop := data.length ≤ 2 ^ 31 - 1 ∧ (parse t data).2 = true

/-- A message of the class `t` that the record holds. -/
def Decodes (shm : ShmView) (message : RemoteMsg) (t : T) (data : Str) : Prop :=
  fullName t = message.msgType ∧ shm.validPayload message = some data ∧ Parses t data

/-- All the handlers of the type are called, with the message, or none is. -/
structure AllOrNothing (shm : ShmView) (handlers : HandlerStorage (Option (TypedHandler T)))
    (message : RemoteMsg) (calls : List (TypedCall T)) : Prop where
  all : ∀ t data, Decodes shm message t data →
    Delivered handlers message ⟨t, (parse t data).1⟩ calls
  nothing : (¬ ∃ (t : T) (data : Str), Decodes shm message t data) → calls = []

/-! ## The two loops are one -/

/-- A loop of loops is a loop. -/
theorem foldlM_flatMap {m : Type → Type} [Monad m] [LawfulMonad m] {α β σ : Type} (l : List α)
    (f : α → List β) (g : σ → β → m σ) (s : σ) :
    (l.flatMap f).foldlM g s = l.foldlM (fun s a => (f a).foldlM g s) s := by
  induction l generalizing s with
  | nil => rfl
  | cons a l ih =>
      rw [List.flatMap_cons, List.foldlM_append, List.foldlM_cons]
      exact congrArg (_ >>= ·) (funext fun t => ih t)

/-- A handler of the type, with its node. -/
def matchingEntry (msgType nodeUuid : Str) (entry : Str × Option (TypedHandler T)) :
    Option (Str × Str × TypedHandler T) :=
  match entry.2 with
  | none => none
  | some handler =>
    if handler.getMsgType ≠ msgType then none else some (nodeUuid, entry.1, handler)

/-- The handlers of the type, in the order of the loops. -/
def matchingHandlers (handlers : TopicHandlers T) (msgType : Str) :
    List (Str × Str × TypedHandler T) :=
  handlers.toList.flatMap fun node => node.2.toList.filterMap (matchingEntry msgType node.1)

variable {message : RemoteMsg} {payload : Payload}

theorem foldlM_dispatchNode (handlers : TopicHandlers T) (s : Dispatch T) :
    handlers.toList.foldlM (dispatchNode message payload) s =
      (matchingHandlers handlers message.msgType).foldlM
        (fun s x => dispatchHandler message payload x.1 s x.2.1 x.2.2) s := by
  rw [matchingHandlers, foldlM_flatMap]
  congr
  funext s node
  rw [List.foldlM_filterMap, dispatchNode]
  congr
  funext s entry
  obtain ⟨u, h⟩ := entry
  cases h with
  | none => rfl
  | some h =>
      by_cases ht : h.getMsgType = message.msgType
      · simp [dispatchEntry, matchingEntry, ht]
      · simp [dispatchEntry, matchingEntry, ht]
        rfl

/-- The call of a handler with a message. -/
def typedCall (message : RemoteMsg) (msg : ProtoMsg T) (x : Str × Str × TypedHandler T) :
    TypedCall T :=
  ⟨x.1, x.2.1, x.2.2, msg, ⟨message.topic, message.msgType⟩⟩

/-- Once there is a message, every handler that is left is called with it. -/
theorem foldlM_dispatchHandler (msg : ProtoMsg T) (l : List (Str × Str × TypedHandler T))
    (calls : List (TypedCall T)) :
    l.foldlM (fun s x => dispatchHandler message payload x.1 s x.2.1 x.2.2) ⟨some msg, calls⟩ =
      .ok ⟨some msg, calls ++ l.map (typedCall message msg)⟩ := by
  induction l generalizing calls with
  | nil => simp; rfl
  | cons x l ih =>
      have hpass : dispatchHandler message payload x.1 ⟨some msg, calls⟩ x.2.1 x.2.2 =
          .ok ⟨some msg, calls ++ [typedCall message msg x]⟩ := rfl
      rw [List.foldlM_cons, hpass]
      refine (ih (calls ++ [typedCall message msg x])).trans ?_
      simp

/-- **The calls for a record.**  The first handler of the type decides for all of them. -/
theorem callsOf_dispatch (l : List (Str × Str × TypedHandler T)) :
    callsOf (l.foldlM (fun s x => dispatchHandler message payload x.1 s x.2.1 x.2.2) {}) =
      match l with
      | [] => []
      | x :: _ =>
        if payload.finishRead then
          l.map (typedCall message ⟨x.2.2.type, (parse x.2.2.type payload.data).1⟩)
        else [] := by
  cases l with
  | nil => rfl
  | cons x l =>
      cases hf : payload.finishRead with
      | false =>
          have hpass : dispatchHandler message payload x.1 {} x.2.1 x.2.2 =
              .error ⟨some ⟨x.2.2.type, (parse x.2.2.type payload.data).1⟩, []⟩ := by
            simp [dispatchHandler, TypedHandler.createMsg, hf]
          rw [List.foldlM_cons, hpass]
          rfl
      | true =>
          have hpass : dispatchHandler message payload x.1 {} x.2.1 x.2.2 =
              .ok ⟨some ⟨x.2.2.type, (parse x.2.2.type payload.data).1⟩,
                [typedCall message ⟨x.2.2.type, (parse x.2.2.type payload.data).1⟩ x]⟩ := by
            simp [dispatchHandler, TypedHandler.createMsg, hf]
            rfl
          rw [List.foldlM_cons, hpass]
          refine (congrArg callsOf (foldlM_dispatchHandler _ l _)).trans ?_
          simp [callsOf]

/-! ## The handlers of the type -/

section

variable {handlers : TopicHandlers T} {msgType : Str}

theorem matchingEntry_eq_some {n : Str} {entry : Str × Option (TypedHandler T)}
    {x : Str × Str × TypedHandler T} :
    matchingEntry msgType n entry = some x ↔
      entry = (x.2.1, some x.2.2) ∧ n = x.1 ∧ x.2.2.getMsgType = msgType := by
  obtain ⟨u, h⟩ := entry
  obtain ⟨n', u', h'⟩ := x
  cases h with
  | none => simp [matchingEntry]
  | some h =>
      by_cases ht : h.getMsgType = msgType
      · simp only [matchingEntry, ht, ne_eq, not_true_eq_false, if_false, Option.some.injEq,
          Prod.mk.injEq]
        constructor
        · rintro ⟨rfl, rfl, rfl⟩
          exact ⟨⟨rfl, rfl⟩, rfl, ht⟩
        · rintro ⟨⟨rfl, rfl⟩, rfl, -⟩
          exact ⟨rfl, rfl, rfl⟩
      · simp only [matchingEntry, ne_eq, ht, not_false_eq_true, if_true, Prod.mk.injEq,
          Option.some.injEq]
        constructor
        · exact nofun
        · rintro ⟨⟨rfl, rfl⟩, rfl, ht'⟩
          exact absurd ht' ht

theorem mem_matchingHandlers {x : Str × Str × TypedHandler T} :
    x ∈ matchingHandlers handlers msgType ↔
      ((handlers[x.1]?).getD ∅)[x.2.1]? = some (some x.2.2) ∧ x.2.2.getMsgType = msgType := by
  simp only [matchingHandlers, List.mem_flatMap, List.mem_filterMap, matchingEntry_eq_some]
  constructor
  · rintro ⟨⟨n, entries⟩, hn, entry, he, rfl, rfl, ht⟩
    rw [Std.ExtTreeMap.mem_toList_iff_getElem?_eq_some] at hn he
    exact ⟨by simpa [hn] using he, ht⟩
  · rintro ⟨hx, ht⟩
    cases hn : handlers[x.1]? with
    | none => simp [hn] at hx
    | some entries =>
        rw [hn, Option.getD_some] at hx
        refine ⟨(x.1, entries), Std.ExtTreeMap.mem_toList_iff_getElem?_eq_some.mpr hn, ?_⟩
        exact ⟨_, Std.ExtTreeMap.mem_toList_iff_getElem?_eq_some.mpr hx, rfl, rfl, ht⟩

/-- No place is passed twice. -/
theorem nodup_matchingHandlers :
    ((matchingHandlers handlers msgType).map fun x => (x.1, x.2.1)).Nodup := by
  rw [List.Nodup, List.pairwise_map, matchingHandlers, List.pairwise_flatMap]
  have hkeys : ∀ {β : Type} (m : StrMap β), m.toList.Pairwise fun a b => a.1 ≠ b.1 :=
    fun m => m.distinct_keys_toList.imp Std.ReflCmp.ne_of_cmp_ne_eq
  constructor
  · intro node _
    apply (hkeys node.2).filterMap
    intro a b hne x hx y hy heq
    rw [(matchingEntry_eq_some.mp hx).1, (matchingEntry_eq_some.mp hy).1] at hne
    exact hne (Prod.mk.inj heq).2
  · apply (hkeys handlers).imp
    intro a b hne x hx y hy heq
    simp only [List.mem_filterMap, matchingEntry_eq_some] at hx hy
    obtain ⟨-, -, -, hx, -⟩ := hx
    obtain ⟨-, -, -, hy, -⟩ := hy
    exact hne (hx.trans ((Prod.mk.inj heq).1.trans hy.symm))

end

/-! ## The calls -/

section

variable {shm : ShmView} {handlers : HandlerStorage (Option (TypedHandler T))} {t : T} {data : Str}

/-- The handlers of the type that a record is for. -/
def handlersFor (handlers : HandlerStorage (Option (TypedHandler T))) (message : RemoteMsg) :
    List (Str × Str × TypedHandler T) :=
  matchingHandlers ((handlers.data[message.topic]?).getD ∅) message.msgType

theorem mem_handlersFor {x : Str × Str × TypedHandler T} :
    x ∈ handlersFor handlers message ↔
      handlers.handler? message.topic x.1 x.2.1 = some (some x.2.2) ∧
        x.2.2.getMsgType = message.msgType := mem_matchingHandlers

/-- The calls, by the first handler of the type. -/
theorem remoteDispatch_eq :
    remoteDispatch shm handlers message =
      match handlersFor handlers message, shm.validPayload message with
      | x :: _, some data =>
        (handlersFor handlers message).map
          (typedCall message ⟨x.2.2.type, (parse x.2.2.type data).1⟩)
      | _, _ => [] := by
  unfold remoteDispatch handlersFor HandlerStorage.getHandlers ShmView.validPayload
  cases handlers.data[message.topic]? with
  | none => rfl
  | some localHandlers =>
      cases shm.payload message with
      | none =>
          rw [Option.bind_none, Option.getD_some]
          cases matchingHandlers localHandlers message.msgType <;> rfl
      | some payload =>
          simp only [foldlM_dispatchNode, callsOf_dispatch, Option.getD_some, Option.bind_some]
          cases matchingHandlers localHandlers message.msgType with
          | nil => rfl
          | cons x l => cases payload.finishRead <;> rfl

/-- A record without a valid payload meets no handler. -/
theorem remoteDispatch_of_none (h : shm.validPayload message = none) :
    remoteDispatch shm handlers message = [] := by
  rw [remoteDispatch_eq, h]
  split
  case h_1 heq => cases heq
  case h_2 => rfl

/-- Handlers of one class are all called with what the class makes of the payload. -/
theorem remoteDispatch_of_some (h : shm.validPayload message = some data)
    (ht : ∀ x ∈ handlersFor handlers message, x.2.2.type = t) :
    remoteDispatch shm handlers message =
      (handlersFor handlers message).map (typedCall message ⟨t, (parse t data).1⟩) := by
  rw [remoteDispatch_eq, h]
  cases hl : handlersFor handlers message with
  | nil => rfl
  | cons x l =>
      have hx : x.2.2.type = t := ht x (by simp [hl])
      subst hx
      rfl

/-- One call for each handler of the class, with the message. -/
theorem delivered_map (ht : ∀ x ∈ handlersFor handlers message, x.2.2.type = t)
    (content : Content t) :
    Delivered handlers message ⟨t, content⟩
      ((handlersFor handlers message).map (typedCall message ⟨t, content⟩)) where
  once := by
    rw [List.map_map]
    exact nodup_matchingHandlers
  exactly n u h := by
    constructor
    · rintro ⟨c, hc, rfl, rfl, rfl⟩
      obtain ⟨x, hx, rfl⟩ := List.mem_map.mp hc
      exact mem_handlersFor.mp hx
    · intro hh
      have hx : (n, u, h) ∈ handlersFor handlers message := mem_handlersFor.mpr hh
      exact ⟨_, List.mem_map_of_mem hx, rfl, rfl, rfl⟩
  same := by
    intro c hc
    obtain ⟨x, hx, rfl⟩ := List.mem_map.mp hc
    refine ⟨rfl, rfl, ?_⟩
    simp [TypedCall.received, ProtoMsg.cast, typedCall, ht x hx]

/-- Whatever handler of the type there is, the payload parses as its class. -/
def Sound (shm : ShmView) (handlers : HandlerStorage (Option (TypedHandler T)))
    (message : RemoteMsg) : Prop :=
  ∀ n u h data, handlers.handler? message.topic n u = some (some h) →
    h.getMsgType = message.msgType → shm.validPayload message = some data → Parses h.type data

/-- **Exactly the records that parse are dispatched all or nothing.** The generated classes
have names of their own. -/
theorem all_or_nothing_iff (hnames : Function.Injective (fullName : T → Str)) (shm : ShmView)
    (handlers : HandlerStorage (Option (TypedHandler T))) (message : RemoteMsg) :
    AllOrNothing shm handlers message (remoteDispatch shm handlers message) ↔
      Sound shm handlers message := by
  have hclass : ∀ t, fullName t = message.msgType →
      ∀ x ∈ handlersFor handlers message, x.2.2.type = t := by
    intro t ht x hx
    apply hnames
    exact (mem_handlersFor.mp hx).2.trans ht.symm
  constructor
  · intro hall n u h data hh htype hvalid
    by_contra hparse
    have hnone : ¬ ∃ (t : T) (data : Str), Decodes shm message t data := by
      rintro ⟨t, data', ht, hvalid', hparse'⟩
      have heq : t = h.type := hnames (ht.trans htype.symm)
      rw [hvalid] at hvalid'
      obtain rfl := Option.some.inj hvalid'
      exact hparse (heq ▸ hparse')
    have hcalls := hall.nothing hnone
    rw [remoteDispatch_of_some hvalid (hclass h.type htype)] at hcalls
    have hx : (n, u, h) ∈ handlersFor handlers message := mem_handlersFor.mpr ⟨hh, htype⟩
    rw [List.map_eq_nil_iff.mp hcalls] at hx
    cases hx
  · intro hsound
    constructor
    · intro t data hdecodes
      rw [remoteDispatch_of_some hdecodes.2.1 (hclass t hdecodes.1)]
      exact delivered_map (hclass t hdecodes.1) _
    · intro hnone
      cases hvalid : shm.validPayload message with
      | none => exact remoteDispatch_of_none hvalid
      | some data =>
          cases hl : handlersFor handlers message with
          | nil => rw [remoteDispatch_eq, hl]
          | cons x l =>
              obtain ⟨hh, htype⟩ := mem_handlersFor.mp (hl ▸ List.mem_cons_self)
              have hparse := hsound _ _ _ data hh htype hvalid
              exact absurd ⟨x.2.2.type, data, htype, hvalid, hparse⟩ hnone

end

/-! ## Two records -/

/-- A process with a handler for `rf.msgs.Empty`, and a handler that is null. -/
def oneHandler : HandlerStorage (Option (TypedHandler EmptyOnly)) :=
  ((HandlerStorage.addHandler {} (str "t") (str "n1") (str "h0") none).addHandler (str "t")
    (str "n1") (str "h1") (some ⟨.empty, str "h1", str "n1"⟩))

/-- A process that has mapped no ring. -/
def noRings : ShmView := ⟨fun _ => none, fun _ => 0, fun _ => 0, fun _ => 0⟩

/-- A record with a message and one whose bytes break off in a tag. -/
def wholeRecord : RemoteMsg := ⟨str "t", str "tcp://b", [8, 1], str "rf.msgs.Empty", false⟩

def brokenRecord : RemoteMsg := { wholeRecord with data := [255] }

theorem all_or_nothing_whole :
    AllOrNothing noRings oneHandler wholeRecord (remoteDispatch noRings oneHandler wholeRecord) :=
  (all_or_nothing_iff (fun t t' _ => by cases t; cases t'; rfl) noRings oneHandler
    wholeRecord).mpr fun n u h data _ _ hvalid => by
      obtain rfl := Option.some.inj hvalid
      cases h.type
      exact ⟨by decide, rfl⟩

/-- **A payload that does not parse is delivered.** -/
theorem broken_record_delivered :
    ((remoteDispatch noRings oneHandler brokenRecord).map (·.handlerUuid)) = [str "h1"] ∧
      ¬ AllOrNothing noRings oneHandler brokenRecord
        (remoteDispatch noRings oneHandler brokenRecord) := by
  refine ⟨rfl, ?_⟩
  intro h
  have hnone : ¬ ∃ (t : EmptyOnly) (data : Str), Decodes noRings brokenRecord t data := by
    rintro ⟨t, data, -, hvalid, hparse⟩
    obtain rfl := Option.some.inj hvalid
    cases t
    exact absurd hparse.2 (by decide)
  have hlength := congrArg List.length (h.nothing hnone)
  exact absurd hlength (by decide)

end RfTrans
