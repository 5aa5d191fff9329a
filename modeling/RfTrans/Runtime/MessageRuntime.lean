import RfTrans.Discovery.Discovery
import RfTrans.Discovery.HandlerStorage

/-!
# The message runtime

`MessageRuntime` ties the discovery of publishers to the ZeroMQ sockets: it
registers local handlers with the publishers it learns of, keeps the registrations
that others make with it, and sends what is published.  A member function gives the
new state and the discovery datagrams that were sent on the way.

## Main definitions

* `MessageRuntime` — the state of a process, its discovery instance included.
* `MessageRuntime.recvDiscoveryMsg`, `updateHeartbeat`, `updateActivity` — the
  discovery thread with the callbacks it makes.
* `MessageRuntime.subscribe`, `unsubscribe`, `advertise`, `unadvertise`, `publish`
* `MessageRuntime.applySubscriberCommand` — one command of the receive thread.
-/

namespace RfTrans

/-- `ISubscriptionHandler` -/
structure SubscriptionHandler where
  handlerUuid : Str
  nodeUuid : Str
  msgType : Str
  deriving DecidableEq

/-- `HandlerWrapper` -/
abbrev HandlerWrapper := HandlerStorage SubscriptionHandler

namespace HandlerWrapper

/-- `hasSubscriber` for a message type. -/
def hasSubscriberOf (hs : HandlerWrapper) (topic msgType : Str) : Bool :=
  (hs.getFirstHandler topic fun h => h.msgType = msgType).isSome

/-- `hasSubscriber` -/
def hasSubscriber (hs : HandlerWrapper) (topic : Str) : Bool := hs.hasHandlersForTopic topic

/-- The type test of `getNodeUuids`. -/
def handles (msgType : Str) (h : SubscriptionHandler) : Bool :=
  h.msgType = msgType ∨ h.msgType = kGenericMessageType

/-- `getNodeUuids` -/
def getNodeUuids (hs : HandlerWrapper) (topic msgType : Str) : List Str :=
  ((hs.handlersOf topic).filter (handles msgType)).map (·.nodeUuid)

end HandlerWrapper

/-- `SubscriberCommand` -/
inductive SubscriberCommand
  | connect (address : Str)
  | subscribe (topic : Str) (registrations : List MessagePublisherInfo)
  | unsubscribe (topic : Str)
  deriving DecidableEq

/-- The SUB socket: the endpoints it is connected to and its filters, which count. -/
structure SubSocket where
  connected : List Str := []
  filters : List Str := []

/-- A message on the PUB socket, without its payload: inline data or a descriptor of
a shared-memory slot. -/
structure PubMessage where
  topic : Str
  address : Str
  isShm : Bool
  msgType : Str
  deriving DecidableEq

/-- `MessageRuntime` -/
structure MessageRuntime where
  discovery : Discovery MessagePublisherInfo
  processUuid : Str
  address : Str
  localSubscribers : HandlerWrapper := {}
  remotePublishers : TopicStorage MessagePublisherInfo := {}
  remoteSubscribers : TopicStorage MessagePublisherInfo := {}
  subscriberCommands : List SubscriberCommand := []
  subscriber : SubSocket := {}

namespace MessageRuntime

open HandlerWrapper

/-- `enqueueSubscriberCommand` -/
def enqueueSubscriberCommand (rt : MessageRuntime) (c : SubscriberCommand) : MessageRuntime :=
  { rt with subscriberCommands := rt.subscriberCommands ++ [c] }

/-- The registrations with a publisher: one for each node with a matching handler. -/
def registrationsFor (rt : MessageRuntime) (pub : MessagePublisherInfo) :
    List MessagePublisherInfo :=
  (rt.localSubscribers.getNodeUuids pub.topic pub.msgType).map fun nodeUuid =>
    { pub with processUuid := rt.processUuid, ctrl := pub.processUuid, nodeUuid := nodeUuid }

/-- `onPublisherConnected` -/
def onPublisherConnected (rt : MessageRuntime) (pub : MessagePublisherInfo) : MessageRuntime :=
  if !rt.localSubscribers.hasSubscriber pub.topic || pub.processUuid = rt.processUuid then rt
  else
    let registrations := rt.registrationsFor pub
    let rt := if rt.remotePublishers.hasPublisher pub.addr then rt
      else rt.enqueueSubscriberCommand (.connect pub.addr)
    let rt := rt.enqueueSubscriberCommand (.subscribe pub.topic registrations)
    { rt with remotePublishers := (rt.remotePublishers.addPublisher pub).1 }

/-- `onPublisherDisconnected`: without topic and node it is about the whole process. -/
def onPublisherDisconnected (rt : MessageRuntime) (pub : MessagePublisherInfo) : MessageRuntime :=
  if pub.topic = [] ∧ pub.nodeUuid = [] then
    { rt with
      remoteSubscribers := (rt.remoteSubscribers.delPublishersByProc pub.processUuid).1
      remotePublishers := (rt.remotePublishers.delPublishersByProc pub.processUuid).1 }
  else
    { rt with
      remotePublishers :=
        (rt.remotePublishers.delPublishersByNode pub.topic pub.processUuid pub.nodeUuid).1 }

/-- `onSubscriberRegistered` -/
def onSubscriberRegistered (rt : MessageRuntime) (pub : MessagePublisherInfo) : MessageRuntime :=
  if pub.ctrl ≠ rt.processUuid then rt
  else { rt with remoteSubscribers := (rt.remoteSubscribers.addPublisher pub).1 }

/-- `onSubscriberUnregistered` -/
def onSubscriberUnregistered (rt : MessageRuntime) (pub : MessagePublisherInfo) :
    MessageRuntime :=
  if pub.ctrl ≠ [] ∧ pub.ctrl ≠ rt.processUuid then rt
  else
    { rt with
      remoteSubscribers :=
        (rt.remoteSubscribers.delPublishersByNode pub.topic pub.processUuid pub.nodeUuid).1 }

/-- The callbacks that `start` sets. -/
def onCallback (rt : MessageRuntime) : Callback MessagePublisherInfo → MessageRuntime
  | .connection pub => rt.onPublisherConnected pub
  | .disconnection pub => rt.onPublisherDisconnected pub
  | .registration pub => rt.onSubscriberRegistered pub
  | .unregistration pub => rt.onSubscriberUnregistered pub

/-- Take over what a member function of the discovery instance did. -/
def absorb (rt : MessageRuntime) (o : Outcome MessagePublisherInfo) :
    MessageRuntime × List Msgs.Discovery :=
  (o.calls.foldl onCallback { rt with discovery := o.self }, o.sent)

/-- A datagram reaches the discovery thread. -/
def recvDiscoveryMsg (rt : MessageRuntime) (fromIp : Str) (m : Msgs.Discovery) (now : ℕ) :
    MessageRuntime × List Msgs.Discovery :=
  rt.absorb (rt.discovery.dispatchDiscoveryMsg fromIp m now)

/-- `updateHeartbeat` of the discovery thread. -/
def updateHeartbeat (rt : MessageRuntime) (now later : ℕ) : MessageRuntime × List Msgs.Discovery :=
  rt.absorb (rt.discovery.updateHeartbeat now later)

/-- `updateActivity` of the discovery thread. -/
def updateActivity (rt : MessageRuntime) (now later : ℕ) : MessageRuntime × List Msgs.Discovery :=
  rt.absorb (rt.discovery.updateActivity now later)

/-- `advertise`: the result is the record that the publisher handle keeps. -/
def advertise (rt : MessageRuntime) (topic nodeUuid msgType : Str)
    (options : AdvertiseMessageOptions) :
    MessageRuntime × List Msgs.Discovery × Option MessagePublisherInfo :=
  let publisher := MessagePublisherInfo.make topic rt.address (str "unused") rt.processUuid nodeUuid
    msgType options
  let (o, ok) := rt.discovery.advertise publisher
  let (rt, sent) := rt.absorb o
  (rt, sent, if ok then some publisher else none)

/-- `unadvertise`, without the ring of the topic. -/
def unadvertise (rt : MessageRuntime) (topic nodeUuid : Str) :
    MessageRuntime × List Msgs.Discovery :=
  rt.absorb (rt.discovery.unadvertise topic nodeUuid).1

/-- `subscribe` -/
def subscribe (rt : MessageRuntime) (topic nodeUuid : Str) (handler : SubscriptionHandler) :
    MessageRuntime × List Msgs.Discovery :=
  let rt := { rt with
    localSubscribers := rt.localSubscribers.addHandler topic nodeUuid handler.handlerUuid handler }
  rt.absorb (rt.discovery.discover topic).1

/-- The END_CONNECTION record of a node for one publishing process. -/
def unregistration (rt : MessageRuntime) (topic nodeUuid publisherProcess : Str) :
    MessagePublisherInfo :=
  MessagePublisherInfo.make topic rt.address publisherProcess rt.processUuid nodeUuid
    kGenericMessageType {}

/-- `unsubscribe` -/
def unsubscribe (rt : MessageRuntime) (topic nodeUuid : Str) :
    MessageRuntime × List Msgs.Discovery :=
  let rt := { rt with
    localSubscribers := (rt.localSubscribers.removeHandlersForNode topic nodeUuid).1 }
  let rt := if rt.localSubscribers.hasSubscriber topic then rt
    else rt.enqueueSubscriberCommand (.unsubscribe topic)
  let processes := match rt.discovery.knownPublishers.getPublishers topic with
    | some addresses => addresses.keys
    | none => []
  (rt, processes.flatMap fun process =>
    rt.discovery.unRegisterNode (rt.unregistration topic nodeUuid process))

/-- One command of `applySubscriberCommands`; `ok` says whether the socket takes it. -/
def applySubscriberCommand (rt : MessageRuntime) (c : SubscriberCommand) (ok : Bool) :
    MessageRuntime × List Msgs.Discovery :=
  match c with
  | .connect address =>
    if ok then
      ({ rt with subscriber.connected := rt.subscriber.connected ++ [address] }, [])
    else (rt, [])
  | .subscribe topic registrations =>
    if rt.localSubscribers.hasSubscriber topic && ok then
      ({ rt with subscriber.filters := topic :: rt.subscriber.filters },
        registrations.flatMap rt.discovery.registerNode)
    else (rt, [])
  | .unsubscribe topic =>
    if !rt.localSubscribers.hasSubscriber topic && ok then
      ({ rt with subscriber.filters := rt.subscriber.filters.erase topic }, [])
    else (rt, [])

/-- The receive thread takes the next command. -/
def applyNextCommand (rt : MessageRuntime) (ok : Bool) :
    Option (MessageRuntime × List Msgs.Discovery) :=
  match rt.subscriberCommands with
  | [] => none
  | c :: rest => some ({ rt with subscriberCommands := rest }.applySubscriberCommand c ok)

/-- `hasSubscribers` -/
def hasSubscribers (rt : MessageRuntime) (topic msgType : Str) : Bool :=
  rt.localSubscribers.hasSubscriberOf topic msgType || rt.remoteSubscribers.hasTopicOf topic msgType

/-- `have_remote` of `subscribers` -/
def haveRemote (rt : MessageRuntime) (topic msgType : Str) : Bool :=
  rt.remoteSubscribers.hasTopicOf topic msgType

/-- The remote part of `publish`: what goes out on the PUB socket. `shmSent` is what
`publishRemoteShm` returns, `serialized` whether the inline serialization succeeds. -/
def publish (rt : MessageRuntime) (publisher : MessagePublisherInfo) (shmSent serialized : Bool) :
    List PubMessage × Bool :=
  if rt.haveRemote publisher.topic publisher.msgType then
    let useShm := publisher.msgOpts.useShm && publisher.msgOpts.scope = .host
    let message (isShm : Bool) : PubMessage :=
      ⟨publisher.topic, rt.address, isShm, publisher.msgType⟩
    if useShm && shmSent then ([message true], true)
    else if serialized then ([message false], true)
    else ([], false)
  else ([], true)

/-! ## A running process -/

/-- A process after `initialize` and `start`. -/
def init (processUuid processName hostAddr address : Str) : MessageRuntime where
  discovery := { processUuid := processUuid, processName := processName, hostAddr := hostAddr }
  processUuid := processUuid
  address := address

/-- What can happen in a process: a call of one of its nodes, or a step of its
discovery thread or its receive thread. -/
inductive Action
  | advertise (topic nodeUuid msgType : Str) (options : AdvertiseMessageOptions)
  | unadvertise (topic nodeUuid : Str)
  | subscribe (topic nodeUuid : Str) (handler : SubscriptionHandler)
  | unsubscribe (topic nodeUuid : Str)
  | recv (fromIp : Str) (m : Msgs.Discovery) (now : ℕ)
  | heartbeat (now later : ℕ)
  | activity (now later : ℕ)
  | applyCommand (ok : Bool)

/-- The new state and the datagrams sent. -/
def perform (rt : MessageRuntime) : Action → Option (MessageRuntime × List Msgs.Discovery)
  | .advertise topic nodeUuid msgType options =>
    let (rt, sent, _) := rt.advertise topic nodeUuid msgType options
    some (rt, sent)
  | .unadvertise topic nodeUuid => some (rt.unadvertise topic nodeUuid)
  | .subscribe topic nodeUuid handler => some (rt.subscribe topic nodeUuid handler)
  | .unsubscribe topic nodeUuid => some (rt.unsubscribe topic nodeUuid)
  | .recv fromIp m now => some (rt.recvDiscoveryMsg fromIp m now)
  | .heartbeat now later => some (rt.updateHeartbeat now later)
  | .activity now later => some (rt.updateActivity now later)
  | .applyCommand ok => rt.applyNextCommand ok

/-- A started process: its discovery instance is enabled, has its uuid and calls it
back. -/
structure Running (rt : MessageRuntime) : Prop where
  enabled : rt.discovery.enabled = true
  uuid : rt.discovery.processUuid = rt.processUuid
  connection : rt.discovery.connectionCb = true
  disconnection : rt.discovery.disconnectionCb = true
  registration : rt.discovery.registrationCb = true
  unregistration : rt.discovery.unregistrationCb = true

end MessageRuntime
end RfTrans
