import RfTrans.Node.Publisher
import RfTrans.Node.Receivers
import RfTrans.Runtime.Publish
import RfTrans.Runtime.RemoteQueue

/-!
# From a publisher to the handlers of another process

A publisher checks the type of a message and its rate, the runtime sends four frames, and of
these messages the SUB socket of another process gets some, whole and in order: a filter may
not match, a high-water mark may be reached, a connection may break.  There the message passes
through the bounded queue to the handlers of its topic.

What becomes of a message that goes through shared memory depends on its ring; here it travels
along as a descriptor.

## Main definitions

* `DataPlane` — a publishing process, the connection, and the queue of the other process.
* `DataPlane.next`
* `DataPlane.offered`, `DataPlane.seen` — what was sent inline, and what a handler was given.
* `DataPlane.delivered_in_order`, `DataPlane.delivered_exactly_once`
-/

namespace RfTrans

open Exec ProtoTypes

variable {T : Type} [ProtoTypes T]

/-- What the receive thread makes of four frames. -/
def Frames.record (f : Frames) : RemoteMsg := .ofFrames f.topic f.address f.data f.msgType

/-- A message that went out, with the topic of its publisher and its frames. -/
structure Publication (T : Type) [ProtoTypes T] where
  topic : Str
  msg : ProtoMsg T
  frames : Frames

/-- A publishing process, what is on its way to another one, and that one's queue; and, which
the code does not have, what was published to other processes. -/
structure DataPlane (T : Type) [ProtoTypes T] where
  sender : PubProcess
  wire : List Frames := []
  receiver : RemoteQueue T := {}
  sent : List (Publication T) := []

/-- The bytes of a message. -/
def ProtoMsg.bytes (m : ProtoMsg T) : Str := (serialize m.type m.content).getD []

namespace DataPlane

/-- What can happen. -/
inductive Action (T : Type) [ProtoTypes T]
  /-- `Publisher::publish`; the message may reach the connection or not. -/
  | publish (p : Publisher) (msg : ProtoMsg T) (now later : ℤ) (mapped reaches : Bool)
  /-- Another call or step of the publishing process. -/
  | perform (a : MessageRuntime.Action)
  | lose
  /-- `receiveMessage` -/
  | arrive
  /-- A step of the dispatch loop. -/
  | swap
  | dispatch (shm : ShmView) (handlers : HandlerStorage (Option (TypedHandler T)))

variable (platform : ShmPlatform)

/-- `publish`: the attempt and, when it passes, what goes out. -/
def publish (s : DataPlane T) (p : Publisher) (msg : ProtoMsg T) (now later : ℤ)
    (mapped reaches : Bool) : DataPlane T :=
  if (p.publishImpl (fullName msg.type) now later).2 = .passed then
    let (sender, frames, _) := s.sender.publish platform p.messagePublisher msg.bytes mapped
    { s with
      sender := sender
      wire := if reaches then s.wire ++ frames else s.wire
      sent := s.sent ++ frames.map fun f => ⟨p.messagePublisher.topic, msg, f⟩ }
  else s

/-- One step. -/
def next (s : DataPlane T) : Action T → Option (DataPlane T)
  | .publish p msg now later mapped reaches =>
    some (s.publish platform p msg now later mapped reaches)
  | .perform a =>
    (s.sender.step platform (.perform a)).map fun sender => { s with sender := sender }
  | .lose =>
    match s.wire with
    | [] => none
    | _ :: rest => some { s with wire := rest }
  | .arrive =>
    match s.wire with
    | [] => none
    | f :: rest =>
      (receiveMessage [f.topic, f.address, f.data, f.msgType]).bind fun message =>
        (s.receiver.next (.receive message)).map fun receiver =>
          { s with wire := rest, receiver := receiver }
  | .swap => (s.receiver.next .swap).map fun receiver => { s with receiver := receiver }
  | .dispatch shm handlers =>
    (s.receiver.next (.dispatch shm handlers)).map fun receiver => { s with receiver := receiver }

/-- Both processes after `initialize` and `start`. -/
def start (processUuid processName hostAddr address : Str) : DataPlane T where
  sender := PubProcess.init processUuid processName hostAddr address

/-- The messages of the class that went out inline on a topic. -/
def offered (s : DataPlane T) (topic : Str) (t : T) : List (Content t) :=
  s.sent.filterMap fun p =>
    if p.frames.record.isShm = false ∧ p.topic = topic then p.msg.cast t else none

/-- The inline messages on a topic that a handler was called with, as it sees them. -/
def seen (s : DataPlane T) (topic : Str) (t : T) (nodeUuid handlerUuid : Str) : List (Content t) :=
  s.receiver.dispatched.flatMap fun d => d.calls.filterMap fun c =>
    if d.message.1.isShm = false ∧ c.info.topic = topic ∧ c.nodeUuid = nodeUuid ∧
      c.handlerUuid = handlerUuid ∧ c.handler.type = t then c.msg.cast t else none

end DataPlane

/-! ## One publish -/

section Sent

variable {s : PubProcess}

/-- A publish sends nothing, or a descriptor, or the bytes. -/
theorem PubProcess.sent_publish (platform : ShmPlatform) (publisher : MessagePublisherInfo)
    (bytes : Str) (mapped : Bool) (hi : s.transport.RingsInv) :
    let sent := (s.publish platform publisher bytes mapped).2.1
    let address := s.runtime.address
    sent = [] ∨
      (∃ data, sent =
        [⟨publisher.topic, address, data, kShmMsgTypeMarker :: publisher.msgType⟩]) ∨
      sent = [⟨publisher.topic, address, bytes, publisher.msgType⟩] := by
  have hshm := hi.publishRemoteShm platform s.runtime.processUuid publisher.topic
    s.runtime.address publisher.msgType bytes mapped
  simp only [publish]
  generalize s.transport.publishRemoteShm platform s.runtime.processUuid publisher.topic
    s.runtime.address publisher.msgType bytes mapped = o at hshm ⊢
  obtain ⟨transport, frames, viaShm⟩ := o
  by_cases hremote : s.runtime.haveRemote publisher.topic publisher.msgType = true
  case neg => simp [hremote]
  by_cases huse : (publisher.msgOpts.useShm && publisher.msgOpts.scope = .host) = true
  · cases viaShm with
    | true =>
        obtain ⟨data, hdata, -⟩ := hshm.sent rfl
        have hone : frames =
            [⟨publisher.topic, s.runtime.address, data, kShmMsgTypeMarker :: publisher.msgType⟩] :=
          hdata
        simp [hremote, huse, hone]
    | false =>
        have hnone : frames = [] := hshm.failed rfl
        by_cases hser : serializable bytes
        · simp [hremote, huse, hser, hnone, PubMessage.frames]
        · simp [hremote, huse, hser, hnone]
  · by_cases hser : serializable bytes
    · simp [hremote, huse, hser, PubMessage.frames]
    · simp [hremote, huse, hser]

theorem Frames.isShm_record (topic address data msgType : Str) :
    (Frames.record ⟨topic, address, data, kShmMsgTypeMarker :: msgType⟩).isShm = true := by
  simp [Frames.record, RemoteMsg.ofFrames]

/-- A message whose type does not start with the marker comes as it went. -/
theorem Frames.record_inline {topic address data msgType : Str}
    (h : msgType.head? ≠ some kShmMsgTypeMarker) :
    Frames.record ⟨topic, address, data, msgType⟩ = ⟨topic, address, data, msgType, false⟩ := by
  cases msgType with
  | nil => rfl
  | cons b rest =>
      have hb : b ≠ kShmMsgTypeMarker := fun heq => h (congrArg some heq)
      simp [Frames.record, RemoteMsg.ofFrames, hb]

/-- A message that passes has the type of its publisher. -/
theorem Publisher.msgType_of_passed {p : Publisher} {msgType : Str} {now later : ℤ}
    (h : (p.publishImpl msgType now later).2 = .passed) : p.messagePublisher.msgType = msgType := by
  by_contra hne
  simp only [publishImpl, if_pos hne] at h
  split at h <;> cases h

end Sent

/-! ## What a handler makes of a record -/

section Decoded

variable {shm : ShmView} {handlers : HandlerStorage (Option (TypedHandler T))} {t : T}
  {message : RemoteMsg} {topic nodeUuid handlerUuid : Str}

/-- An inline record on the topic, as a message of the class. -/
def decoded (topic : Str) (t : T) (message : RemoteMsg) : List (Content t) :=
  if message.isShm = false ∧ message.topic = topic ∧ message.msgType = fullName t then
    [(parse t message.data).1]
  else []

/-- The contents that the calls for a record give to one handler. -/
def given (topic : Str) (t : T) (nodeUuid handlerUuid : Str) (message : RemoteMsg)
    (calls : List (TypedCall T)) : List (Content t) :=
  calls.filterMap fun c =>
    if message.isShm = false ∧ c.info.topic = topic ∧ c.nodeUuid = nodeUuid ∧
      c.handlerUuid = handlerUuid ∧ c.handler.type = t then c.msg.cast t else none

/-- A handler of the class is in the table. -/
def Serves (handlers : HandlerStorage (Option (TypedHandler T))) (topic nodeUuid handlerUuid : Str)
    (t : T) : Prop :=
  ∃ h : TypedHandler T, handlers.handler? topic nodeUuid handlerUuid = some (some h) ∧ h.type = t

/-- Of things with different keys, one has the key. -/
theorem filterMap_key {α β κ : Type} [DecidableEq κ] {l : List α} {key : α → κ}
    (h : (l.map key).Nodup) (k : κ) (y : β) :
    l.filterMap (fun x => if key x = k then some y else none) =
      if k ∈ l.map key then [y] else [] := by
  induction l with
  | nil => rfl
  | cons x l ih =>
      obtain ⟨hx, hl⟩ := List.nodup_cons.mp h
      rw [List.filterMap_cons, ih hl]
      by_cases hkey : key x = k
      · subst hkey
        simp [hx]
      · simp [hkey, Ne.symm hkey]

theorem mem_remoteDispatch {c : TypedCall T} (h : c ∈ remoteDispatch shm handlers message) :
    c.info.topic = message.topic ∧ fullName c.handler.type = message.msgType := by
  rw [remoteDispatch_eq] at h
  split at h
  case h_1 =>
    obtain ⟨x, hx, rfl⟩ := List.mem_map.mp h
    exact ⟨rfl, (mem_handlersFor.mp hx).2⟩
  case h_2 => cases h

/-- A handler of the class gets an inline record on the topic once, as what it holds, and
nothing else. -/
theorem given_remoteDispatch (hnames : Function.Injective (fullName : T → Str)) :
    (given topic t nodeUuid handlerUuid message (remoteDispatch shm handlers message)).Sublist
        (decoded topic t message) ∧
      (Serves handlers topic nodeUuid handlerUuid t →
        given topic t nodeUuid handlerUuid message (remoteDispatch shm handlers message) =
          decoded topic t message) := by
  by_cases hmatch : message.isShm = false ∧ message.topic = topic ∧ message.msgType = fullName t
  · obtain ⟨hinline, rfl, htype⟩ := hmatch
    have hclass : ∀ x ∈ handlersFor handlers message, x.2.2.type = t :=
      fun x hx => hnames ((mem_handlersFor.mp hx).2.trans htype)
    have hvalid : shm.validPayload message = some message.data := by
      simp [ShmView.validPayload, ShmView.payload, hinline]
    -- the calls that count are those under the two uuids
    have hgiven : given message.topic t nodeUuid handlerUuid message
        (remoteDispatch shm handlers message) =
          (handlersFor handlers message).filterMap fun x =>
            if (x.1, x.2.1) = (nodeUuid, handlerUuid) then some (parse t message.data).1
            else none := by
      rw [remoteDispatch_of_some hvalid hclass, given, List.filterMap_map]
      refine List.filterMap_congr fun x hx => ?_
      simp [typedCall, hinline, hclass x hx]
    have hdecoded : decoded message.topic t message = [(parse t message.data).1] := by
      simp [decoded, hinline, htype]
    have hplaces : ((handlersFor handlers message).map fun x => (x.1, x.2.1)).Nodup :=
      nodup_matchingHandlers
    rw [hgiven, hdecoded, filterMap_key hplaces]
    constructor
    · split
      case isTrue => exact List.Sublist.refl _
      case isFalse => exact List.nil_sublist _
    · intro hserves
      obtain ⟨h, hh, hht⟩ := hserves
      have hx : (nodeUuid, handlerUuid, h) ∈ handlersFor handlers message :=
        mem_handlersFor.mpr ⟨hh, (congrArg fullName hht).trans htype.symm⟩
      exact if_pos (List.mem_map_of_mem hx)
  · have hnone : given topic t nodeUuid handlerUuid message
        (remoteDispatch shm handlers message) = [] := by
      rw [given, List.filterMap_eq_nil_iff]
      intro c hc
      obtain ⟨htopic, htype⟩ := mem_remoteDispatch hc
      refine if_neg fun hcall => hmatch ⟨hcall.1, ?_, ?_⟩
      · exact htopic.symm.trans hcall.2.1
      · exact htype.symm.trans (congrArg fullName hcall.2.2.2.2)
    rw [hnone, decoded, if_neg hmatch]
    exact ⟨List.Sublist.refl _, fun _ => rfl⟩

end Decoded

/-! ## Along the way -/

namespace DataPlane

variable {platform : ShmPlatform} {s s' : DataPlane T} {a : Action T}

/-- The records at the receiver, dispatched or not, and those that are on their way. -/
def path (s : DataPlane T) : List RemoteMsg :=
  s.receiver.dispatched.map (·.message.1) ++ s.receiver.batch.map (·.1) ++
    s.receiver.queue.map (·.1) ++ s.wire.map Frames.record

/-- The records of what was sent. -/
def sentRecords (s : DataPlane T) : List RemoteMsg := s.sent.map (·.frames.record)

/-- Nothing is lost in the step: a message reaches the connection and the connection holds, and
the queue is not full. -/
def Smooth (s : DataPlane T) : Action T → Prop
  | .publish _ _ _ _ _ reaches => reaches = true
  | .lose => False
  | .arrive => s.receiver.queue.length < kMsgQueueLimit
  | _ => True

instance (s : DataPlane T) (a : Action T) : Decidable (s.Smooth a) := by
  cases a with
  | publish p msg now later mapped reaches => exact inferInstanceAs (Decidable (reaches = true))
  | lose => exact inferInstanceAs (Decidable False)
  | arrive => exact inferInstanceAs (Decidable (_ < _))
  | perform | swap | dispatch => exact inferInstanceAs (Decidable True)

/-- What is dispatched finds a handler. -/
def FindsHandler (topic nodeUuid handlerUuid : Str) (t : T) : Action T → Prop
  | .dispatch _ handlers => Serves handlers topic nodeUuid handlerUuid t
  | _ => True

theorem enqueue_sublist {α : Type} (limit : ℕ) (queue : List α) (x : α) :
    (Framing.enqueue (some limit) queue x).Sublist (queue ++ [x]) := by
  simp only [Framing.enqueue]
  split
  case isTrue => exact List.tail_sublist _
  case isFalse => exact List.Sublist.refl _

theorem enqueue_of_lt {α : Type} {limit : ℕ} {queue : List α} (h : queue.length < limit) (x : α) :
    Framing.enqueue (some limit) queue x = queue ++ [x] := by
  simp only [Framing.enqueue, Option.any_some, decide_eq_true_eq, List.length_append,
    List.length_singleton]
  exact if_neg (by omega)

theorem next_lose (h : s.next platform .lose = some s') :
    ∃ f rest, s.wire = f :: rest ∧ s' = { s with wire := rest } := by
  simp only [next] at h
  split at h
  case h_1 => cases h
  case h_2 f rest hwire => exact ⟨f, rest, hwire, (Option.some.inj h).symm⟩

/-- Four frames make a record, which goes into the queue. -/
theorem next_arrive (h : s.next platform .arrive = some s') :
    ∃ f rest, s.wire = f :: rest ∧ s' = { s with
      wire := rest
      receiver := { s.receiver with
        queue := Framing.enqueue (some kMsgQueueLimit) s.receiver.queue
          (f.record, s.receiver.arrived)
        arrived := s.receiver.arrived + 1 } } := by
  simp only [next] at h
  split at h
  case h_1 => cases h
  case h_2 f rest hwire =>
    obtain ⟨message, hmessage, h⟩ := Option.bind_eq_some_iff.mp h
    obtain ⟨receiver, hreceiver, rfl⟩ := Option.map_eq_some_iff.mp h
    obtain rfl := Option.some.inj hmessage
    obtain rfl := Option.some.inj hreceiver
    exact ⟨f, rest, hwire, rfl⟩

variable (platform) in
/-- What a step adds to what was sent. -/
def news (s : DataPlane T) : Action T → List (Publication T)
  | .publish p msg now later mapped _ =>
    if (p.publishImpl (fullName msg.type) now later).2 = .passed then
      (s.sender.publish platform p.messagePublisher msg.bytes mapped).2.1.map
        fun f => ⟨p.messagePublisher.topic, msg, f⟩
    else []
  | _ => []

/-- What a step does to what is on its way. -/
structure Moves (s : DataPlane T) (a : Action T) (s' : DataPlane T) (new : List RemoteMsg) :
    Prop where
  sublist : s'.path.Sublist (s.path ++ new)
  smooth : s.Smooth a → s'.path = s.path ++ new

theorem Moves.of_eq (h : s'.path = s.path) : Moves s a s' [] where
  sublist := by rw [h, List.append_nil]
  smooth _ := by rw [h, List.append_nil]

theorem sent_next (h : s.next platform a = some s') : s'.sent = s.sent ++ s.news platform a := by
  cases a with
  | publish p msg now later mapped reaches =>
      obtain rfl := Option.some.inj h
      simp only [publish, news]
      split
      case isTrue => rfl
      case isFalse => exact (List.append_nil _).symm
  | perform b =>
      obtain ⟨sender, -, rfl⟩ := Option.map_eq_some_iff.mp h
      exact (List.append_nil _).symm
  | lose =>
      obtain ⟨f, rest, -, rfl⟩ := next_lose h
      exact (List.append_nil _).symm
  | arrive =>
      obtain ⟨f, rest, -, rfl⟩ := next_arrive h
      exact (List.append_nil _).symm
  | swap =>
      obtain ⟨receiver, -, rfl⟩ := Option.map_eq_some_iff.mp h
      exact (List.append_nil _).symm
  | dispatch shm handlers =>
      obtain ⟨receiver, -, rfl⟩ := Option.map_eq_some_iff.mp h
      exact (List.append_nil _).symm

/-- **One step**: what was sent goes on, or is lost. -/
theorem moves_next (h : s.next platform a = some s') :
    Moves s a s' ((s.news platform a).map (·.frames.record)) := by
  cases a with
  | publish p msg now later mapped reaches =>
      obtain rfl := Option.some.inj h
      by_cases hpass : (p.publishImpl (fullName msg.type) now later).2 = .passed
      · have hnews : (s.news platform (.publish p msg now later mapped reaches)).map
            (·.frames.record) =
              (s.sender.publish platform p.messagePublisher msg.bytes mapped).2.1.map
                Frames.record := by
          simp [news, hpass]
        rw [hnews]
        cases reaches with
        | true =>
            have hpath : (s.publish platform p msg now later mapped true).path = s.path ++
                (s.sender.publish platform p.messagePublisher msg.bytes mapped).2.1.map
                  Frames.record := by
              simp [publish, path, hpass]
            exact ⟨hpath ▸ List.Sublist.refl _, fun _ => hpath⟩
        | false =>
            have hpath : (s.publish platform p msg now later mapped false).path = s.path := by
              simp [publish, path, hpass]
            exact ⟨hpath ▸ List.sublist_append_left _ _, fun hsmooth => by cases hsmooth⟩
      · have hsame : s.publish platform p msg now later mapped reaches = s := if_neg hpass
        have hnews : s.news platform (.publish p msg now later mapped reaches) = [] :=
          if_neg hpass
        rw [hnews]
        exact .of_eq (congrArg path hsame)
  | perform b =>
      obtain ⟨sender, -, rfl⟩ := Option.map_eq_some_iff.mp h
      exact .of_eq rfl
  | lose =>
      obtain ⟨f, rest, hwire, rfl⟩ := next_lose h
      refine ⟨?_, False.elim⟩
      simp only [path, hwire, news, List.map_nil, List.append_nil, List.map_cons]
      exact (List.sublist_cons_self _ _).append_left _
  | arrive =>
      obtain ⟨f, rest, hwire, rfl⟩ := next_arrive h
      constructor
      · simp only [path, hwire, news, List.map_nil, List.append_nil, List.map_cons,
          List.append_assoc]
        have hqueue := (enqueue_sublist kMsgQueueLimit s.receiver.queue
          (f.record, s.receiver.arrived)).map Prod.fst
        rw [List.map_append] at hqueue
        have hrest := hqueue.append_right (rest.map Frames.record)
        rw [List.append_assoc] at hrest
        exact (hrest.append_left _).append_left _
      · intro hroom
        have hqueue := enqueue_of_lt hroom (f.record, s.receiver.arrived)
        simp [path, hwire, news, hqueue]
  | swap =>
      obtain ⟨receiver, hreceiver, rfl⟩ := Option.map_eq_some_iff.mp h
      obtain ⟨hbatch, rfl⟩ := RemoteQueue.next_swap hreceiver
      refine .of_eq ?_
      simp [path, hbatch]
  | dispatch shm handlers =>
      obtain ⟨receiver, hreceiver, rfl⟩ := Option.map_eq_some_iff.mp h
      obtain ⟨message, rest, hbatch, rfl⟩ := RemoteQueue.next_dispatch hreceiver
      refine .of_eq ?_
      simp [path, hbatch]

/-! ## Runs -/

/-- An inline publication has the topic of its publisher, and the bytes and the type of its
message. -/
def Honest (p : Publication T) : Prop :=
  p.frames.record.isShm = false → p.frames.record.topic = p.topic ∧
    p.frames.record.data = p.msg.bytes ∧ p.frames.record.msgType = fullName p.msg.type

/-- What holds of all that was sent and dispatched. -/
structure Sound (s : DataPlane T) : Prop where
  rings : s.sender.transport.RingsInv
  honest : ∀ p ∈ s.sent, Honest p
  called : ∀ d ∈ s.receiver.dispatched, ∃ shm handlers,
    d.calls = remoteDispatch shm handlers d.message.1
  order : s.path.Sublist s.sentRecords

theorem honest_news (hs : s.sender.transport.RingsInv)
    (htypes : ∀ t : T, (fullName t).head? ≠ some kShmMsgTypeMarker) {p : Publication T}
    (hp : p ∈ s.news platform a) : Honest p := by
  cases a with
  | publish handle msg now later mapped reaches =>
      simp only [news] at hp
      split at hp
      case isFalse => cases hp
      case isTrue hpass =>
        have htype := Publisher.msgType_of_passed hpass
        obtain ⟨f, hf, rfl⟩ := List.mem_map.mp hp
        intro hinline
        rcases PubProcess.sent_publish platform handle.messagePublisher msg.bytes mapped hs with
          hnone | ⟨data, hshm⟩ | hbytes
        · rw [hnone] at hf
          cases hf
        · rw [hshm, List.mem_singleton] at hf
          rw [hf, Frames.isShm_record] at hinline
          cases hinline
        · rw [hbytes, List.mem_singleton, htype] at hf
          rw [hf, Frames.record_inline (htypes _)]
          exact ⟨rfl, rfl, rfl⟩
  | _ => cases hp

theorem rings_next (hs : s.sender.transport.RingsInv) (h : s.next platform a = some s') :
    s'.sender.transport.RingsInv := by
  cases a with
  | publish p msg now later mapped reaches =>
      obtain rfl := Option.some.inj h
      simp only [publish]
      split
      case isTrue =>
        have hstep : PubProcess.step platform s.sender
            (.publish p.messagePublisher msg.bytes mapped) =
              some (s.sender.publish platform p.messagePublisher msg.bytes mapped).1 := rfl
        exact (PubProcess.step_rings hs hstep).1
      case isFalse => exact hs
  | perform b =>
      obtain ⟨sender, hsender, rfl⟩ := Option.map_eq_some_iff.mp h
      exact (PubProcess.step_rings hs hsender).1
  | lose =>
      obtain ⟨f, rest, -, rfl⟩ := next_lose h
      exact hs
  | arrive =>
      obtain ⟨f, rest, -, rfl⟩ := next_arrive h
      exact hs
  | swap | dispatch =>
      obtain ⟨receiver, -, rfl⟩ := Option.map_eq_some_iff.mp h
      exact hs

/-- The calls that a step adds are those of the dispatch loop, for the handlers it finds. -/
theorem dispatched_next (h : s.next platform a = some s') :
    s'.receiver.dispatched = s.receiver.dispatched ∨
      ∃ shm handlers message, a = .dispatch shm handlers ∧ s'.receiver.dispatched =
        s.receiver.dispatched ++ [⟨message, remoteDispatch shm handlers message.1⟩] := by
  cases a with
  | publish p msg now later mapped reaches =>
      obtain rfl := Option.some.inj h
      left
      simp only [publish]
      split <;> rfl
  | perform b =>
      obtain ⟨sender, -, rfl⟩ := Option.map_eq_some_iff.mp h
      exact .inl rfl
  | lose =>
      obtain ⟨f, rest, -, rfl⟩ := next_lose h
      exact .inl rfl
  | arrive =>
      obtain ⟨f, rest, -, rfl⟩ := next_arrive h
      exact .inl rfl
  | swap =>
      obtain ⟨receiver, hreceiver, rfl⟩ := Option.map_eq_some_iff.mp h
      obtain ⟨-, rfl⟩ := RemoteQueue.next_swap hreceiver
      exact .inl rfl
  | dispatch shm handlers =>
      obtain ⟨receiver, hreceiver, rfl⟩ := Option.map_eq_some_iff.mp h
      obtain ⟨message, rest, -, rfl⟩ := RemoteQueue.next_dispatch hreceiver
      exact .inr ⟨shm, handlers, message, rfl, rfl⟩

theorem Sound.next (hs : Sound s) (htypes : ∀ t : T, (fullName t).head? ≠ some kShmMsgTypeMarker)
    (h : s.next platform a = some s') : Sound s' where
  rings := rings_next hs.rings h
  honest := by
    rw [sent_next h]
    intro p hp
    rcases List.mem_append.mp hp with hold | hnew
    · exact hs.honest p hold
    · exact honest_news hs.rings htypes hnew
  called := by
    intro d hd
    rcases dispatched_next h with hsame | ⟨shm, handlers, message, -, hmore⟩
    · exact hs.called d (hsame ▸ hd)
    · rw [hmore] at hd
      rcases List.mem_append.mp hd with hold | hnew
      · exact hs.called d hold
      · rw [List.mem_singleton.mp hnew]
        exact ⟨shm, handlers, rfl⟩
  order := by
    have hmoves := (moves_next h).sublist
    rw [sentRecords, sent_next h, List.map_append]
    exact hmoves.trans (hs.order.append_right _)

theorem sound_start (processUuid processName hostAddr address : Str) :
    Sound (start processUuid processName hostAddr address : DataPlane T) where
  rings := Transport.ringsInv_init
  honest := by simp [start]
  called := by simp [start]
  order := List.Sublist.refl _

/-- Where nothing is lost and a handler is always found, everything sent is on its way or has
been handled. -/
structure Complete (topic nodeUuid handlerUuid : Str) (t : T) (s : DataPlane T) : Prop where
  path : s.path = s.sentRecords
  served : ∀ d ∈ s.receiver.dispatched, ∃ shm handlers,
    d.calls = remoteDispatch shm handlers d.message.1 ∧ Serves handlers topic nodeUuid handlerUuid t

variable {topic nodeUuid handlerUuid : Str} {t : T}

theorem Complete.next (hs : Complete topic nodeUuid handlerUuid t s) (hsmooth : s.Smooth a)
    (hfinds : FindsHandler topic nodeUuid handlerUuid t a) (h : s.next platform a = some s') :
    Complete topic nodeUuid handlerUuid t s' where
  path := by
    rw [(moves_next h).smooth hsmooth, sentRecords, sent_next h, List.map_append, hs.path]
    rfl
  served := by
    intro d hd
    rcases dispatched_next h with hsame | ⟨shm, handlers, message, rfl, hmore⟩
    · exact hs.served d (hsame ▸ hd)
    · rw [hmore] at hd
      rcases List.mem_append.mp hd with hold | hnew
      · exact hs.served d hold
      · rw [List.mem_singleton.mp hnew]
        exact ⟨shm, handlers, rfl, hfinds⟩

/-- The messages that were sent inline, by their records. -/
theorem Sound.offered_eq [LawfulProto T] (hs : Sound s)
    (hnames : Function.Injective (fullName : T → Str)) :
    s.offered topic t = s.sentRecords.flatMap (decoded topic t) := by
  rw [offered, List.filterMap_eq_flatMap_toList, sentRecords, List.flatMap_map]
  refine List.flatMap_congr fun p hp => ?_
  by_cases hinline : p.frames.record.isShm = false
  · obtain ⟨htopic, hdata, htype⟩ := hs.honest p hp hinline
    obtain ⟨topic', ⟨type, content⟩, frames⟩ := p
    dsimp only at hinline htopic hdata htype ⊢
    obtain ⟨bytes, hserialize, hparse⟩ := LawfulProto.parse_serialize type content
    have hbytes : ProtoMsg.bytes ⟨type, content⟩ = bytes := by simp [ProtoMsg.bytes, hserialize]
    simp only [decoded, hinline, htopic, hdata, htype, hbytes, true_and]
    by_cases htype' : type = t
    · subst htype'
      by_cases ht : topic' = topic
      · simp [ht, hparse]
      · simp [ht]
    · have hname : fullName type ≠ fullName t := fun heq => htype' (hnames heq)
      simp [hname, ProtoMsg.cast, htype']
  · simp [decoded, hinline]

/-- A handler sees what it is given of the records dispatched. -/
theorem seen_sublist (hnames : Function.Injective (fullName : T → Str))
    (hcalled : ∀ d ∈ s.receiver.dispatched, ∃ shm handlers,
      d.calls = remoteDispatch shm handlers d.message.1) :
    (s.seen topic t nodeUuid handlerUuid).Sublist
      ((s.receiver.dispatched.map (·.message.1)).flatMap (decoded topic t)) := by
  rw [List.flatMap_map]
  refine List.Sublist.flatMap_right _ fun d hd => ?_
  obtain ⟨shm, handlers, hcalls⟩ := hcalled d hd
  rw [hcalls]
  exact (given_remoteDispatch hnames).1

theorem seen_eq (hnames : Function.Injective (fullName : T → Str))
    (hserved : ∀ d ∈ s.receiver.dispatched, ∃ shm handlers,
      d.calls = remoteDispatch shm handlers d.message.1 ∧
        Serves handlers topic nodeUuid handlerUuid t) :
    s.seen topic t nodeUuid handlerUuid =
      (s.receiver.dispatched.map (·.message.1)).flatMap (decoded topic t) := by
  rw [List.flatMap_map]
  refine List.flatMap_congr fun d hd => ?_
  obtain ⟨shm, handlers, hcalls, hserves⟩ := hserved d hd
  rw [hcalls]
  exact (given_remoteDispatch hnames).2 hserves

/-- **Delivery in order, at most once.**  In every run of the two processes the messages that a
handler is given on a topic are some of those that were published inline on that topic with its
class, with their contents, in their order and none twice.  Generated classes have names of
their own, which do not start with a control character. -/
theorem delivered_in_order [LawfulProto T] (hnames : Function.Injective (fullName : T → Str))
    (htypes : ∀ t : T, (fullName t).head? ≠ some kShmMsgTypeMarker) (platform : ShmPlatform)
    (processUuid processName hostAddr address : Str) (run : List (Action T)) (s : DataPlane T)
    (h : exec (next platform) (start processUuid processName hostAddr address) run = some s)
    (topic : Str) (t : T) (nodeUuid handlerUuid : Str) :
    (s.seen topic t nodeUuid handlerUuid).Sublist (s.offered topic t) := by
  have hs : Sound s :=
    stable (P := Sound) (fun _ _ _ hs hnext => hs.next htypes hnext) (sound_start ..) h
  rw [hs.offered_eq hnames]
  refine (seen_sublist hnames hs.called).trans (List.Sublist.flatMap ?_ _)
  refine List.Sublist.trans ?_ hs.order
  simp only [path, List.append_assoc]
  exact List.sublist_append_left _ _

/-- **Delivery in order, exactly once**, when nothing is lost on the way, the handler is there
whenever a message is dispatched, and all messages have been dispatched. -/
theorem delivered_exactly_once [LawfulProto T] (hnames : Function.Injective (fullName : T → Str))
    (htypes : ∀ t : T, (fullName t).head? ≠ some kShmMsgTypeMarker) (platform : ShmPlatform)
    (processUuid processName hostAddr address : Str) (run : List (Action T)) (s : DataPlane T)
    (h : exec (next platform) (start processUuid processName hostAddr address) run = some s)
    (topic : Str) (t : T) (nodeUuid handlerUuid : Str)
    (hsmooth : Guarded (next platform) Smooth (start processUuid processName hostAddr address) run)
    (hfinds : ∀ a ∈ run, FindsHandler topic nodeUuid handlerUuid t a)
    (hdone : s.wire = [] ∧ s.receiver.queue = [] ∧ s.receiver.batch = []) :
    s.seen topic t nodeUuid handlerUuid = s.offered topic t := by
  have hs : Sound s :=
    stable (P := Sound) (fun _ _ _ hs hnext => hs.next htypes hnext) (sound_start ..) h
  have hguard := hsmooth.and (guarded_of_forall (G := fun _ a =>
    FindsHandler topic nodeUuid handlerUuid t a) (fun a ha _ => hfinds a ha) _)
  have hc : Complete topic nodeUuid handlerUuid t s :=
    invariant (P := Complete topic nodeUuid handlerUuid t)
      (fun _ _ _ hs hguard hnext => hs.next hguard.1 hguard.2 hnext)
      ⟨rfl, by simp [start]⟩ hguard h
  rw [hs.offered_eq hnames, ← hc.path, seen_eq hnames hc.served]
  simp [path, hdone.1, hdone.2.1, hdone.2.2]

/-! ## Two messages -/

/-- The publisher of node n1 of process 4a. -/
def inlinePublisher : Publisher :=
  .make (.make (str "t") (str "tcp://a") (str "unused") (str "4a") (str "n1")
    (str "rf.msgs.Empty") {})

/-- Process 5b registers with process 4a for messages of this type. -/
def subscriberOf5b : Msgs.Discovery :=
  MessagePublisherInfo.fillDiscovery
    (.make (str "t") (str "tcp://b") (str "4a") (str "5b") (str "n2") (str "rf.msgs.Empty") {})
    { type := .newConnection, processUuid := str "5b" }

/-- Two messages are published, and arrive. -/
def twoPublished : List (Action EmptyOnly) :=
  [.perform (.recv (str "10.0.0.1") subscriberOf5b 0),
    .publish inlinePublisher ⟨.empty, true⟩ 0 0 true true, .arrive,
    .publish inlinePublisher ⟨.empty, false⟩ 0 0 true true, .arrive, .swap,
    .dispatch noRings oneHandler, .dispatch noRings oneHandler]

/-- The one class has a name of its own, without the marker. -/
theorem emptyOnly_names : Function.Injective (fullName : EmptyOnly → Str) ∧
    ∀ t : EmptyOnly, (fullName t).head? ≠ some kShmMsgTypeMarker := by
  constructor
  · intro t t' _
    cases t
    cases t'
    rfl
  · intro t
    cases t
    decide

theorem delivered_in_order_two : ∃ s,
    exec (next Transport.examplePlatform)
      (start (str "4a") [] (str "10.0.0.1") (str "tcp://a")) twoPublished = some s ∧
    s.offered (str "t") .empty = [true, false] ∧
    (s.seen (str "t") .empty (str "n1") (str "h1")).Sublist (s.offered (str "t") .empty) := by
  refine ⟨_, rfl, rfl, ?_⟩
  exact delivered_in_order emptyOnly_names.1 emptyOnly_names.2 Transport.examplePlatform (str "4a")
    [] (str "10.0.0.1") (str "tcp://a") twoPublished _ rfl (str "t") .empty (str "n1") (str "h1")

theorem delivered_exactly_once_two : ∃ s,
    exec (next Transport.examplePlatform)
      (start (str "4a") [] (str "10.0.0.1") (str "tcp://a")) twoPublished = some s ∧
    s.seen (str "t") .empty (str "n1") (str "h1") = s.offered (str "t") .empty := by
  have hfinds : ∀ a ∈ twoPublished, FindsHandler (str "t") (str "n1") (str "h1") .empty a := by
    have hserves : Serves oneHandler (str "t") (str "n1") (str "h1") .empty := ⟨_, rfl, rfl⟩
    simp [twoPublished, FindsHandler, hserves]
  refine ⟨_, rfl, ?_⟩
  refine delivered_exactly_once emptyOnly_names.1 emptyOnly_names.2 Transport.examplePlatform
    (str "4a") [] (str "10.0.0.1") (str "tcp://a") twoPublished _ rfl (str "t") .empty (str "n1")
    (str "h1") (by decide) hfinds ⟨rfl, rfl, rfl⟩

end DataPlane
end RfTrans
