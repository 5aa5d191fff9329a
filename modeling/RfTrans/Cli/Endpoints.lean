import RfTrans.Discovery.Discovery

/-!
# The endpoints that the tool shows

An observer takes part in discovery and registers nothing.  What it knows is copied into
plain records, one for each publisher.

## Main definitions

* `MessageEndpointInfo`, `ServiceEndpointInfo`
* `snapshotMessageEndpoints`, `snapshotServiceEndpoints`
* `filterByPrefix`
-/

namespace RfTrans

/-- `MessageEndpointInfo` -/
structure MessageEndpointInfo where
  topic : Str := []
  address : Str := []
  controlId : Str := []
  processUuid : Str := []
  processName : Str := []
  nodeUuid : Str := []
  messageType : Str := []
  scope : Scope := .all
  throttled : Bool := false
  messagesPerSecond : UInt64 := 0
  deriving DecidableEq

/-- `ServiceEndpointInfo` -/
structure ServiceEndpointInfo where
  topic : Str := []
  address : Str := []
  socketId : Str := []
  processUuid : Str := []
  processName : Str := []
  nodeUuid : Str := []
  requestType : Str := []
  responseType : Str := []
  scope : Scope := .all
  deriving DecidableEq

/-- What the tool's templates need of an endpoint. -/
class EndpointInfo (E : Type) where
  topic : E → Str
  /-- The key under which `endpointMap` files it. -/
  key : E → Str
  /-- The strings that are joined to the key. -/
  identity : E → List Str
  identity_ne_nil : ∀ e, identity e ≠ []
  key_eq : ∀ e, key e = (str "\n").intercalate (identity e)

instance : EndpointInfo MessageEndpointInfo where
  topic e := e.topic
  key e := e.topic ++ str "\n" ++ e.address ++ str "\n" ++ e.processUuid ++ str "\n" ++ e.nodeUuid
  identity e := [e.topic, e.address, e.processUuid, e.nodeUuid]
  identity_ne_nil e := List.cons_ne_nil _ _
  key_eq e := by simp [List.intercalate]

instance : EndpointInfo ServiceEndpointInfo where
  topic e := e.topic
  key e := e.topic ++ str "\n" ++ e.address ++ str "\n" ++ e.socketId ++ str "\n" ++
    e.processUuid ++ str "\n" ++ e.nodeUuid
  identity e := [e.topic, e.address, e.socketId, e.processUuid, e.nodeUuid]
  identity_ne_nil e := List.cons_ne_nil _ _
  key_eq e := by simp [List.intercalate]

/-- The record of a publisher. -/
def MessageEndpointInfo.ofPublisher (publisher : MessagePublisherInfo) : MessageEndpointInfo where
  topic := publisher.topic
  address := publisher.addr
  controlId := publisher.ctrl
  processUuid := publisher.processUuid
  processName := publisher.processName
  nodeUuid := publisher.nodeUuid
  messageType := publisher.msgType
  scope := publisher.msgOpts.scope
  throttled := publisher.msgOpts.throttled
  messagesPerSecond := if publisher.msgOpts.throttled then publisher.msgOpts.msgsPerSec else 0

/-- The record of a responder. -/
def ServiceEndpointInfo.ofPublisher (publisher : ServicePublisherInfo) : ServiceEndpointInfo where
  topic := publisher.topic
  address := publisher.addr
  socketId := publisher.socketId
  processUuid := publisher.processUuid
  processName := publisher.processName
  nodeUuid := publisher.nodeUuid
  requestType := publisher.reqTypeName
  responseType := publisher.repTypeName
  scope := publisher.srvOpts.scope

/-- What an instance knows, topic after topic and process after process. -/
def snapshotEndpoints {π E : Type} [PubLike π] (ofPublisher : π → E) (discovery : Discovery π) :
    List E :=
  discovery.knownPublishers.getTopicList.flatMap fun topic =>
    match discovery.knownPublishers.getPublishers topic with
    | none => []
    | some publishers => publishers.toList.flatMap fun process => process.2.map ofPublisher

/-- `snapshotMessageEndpoints` -/
def snapshotMessageEndpoints (discovery : Discovery MessagePublisherInfo) :
    List MessageEndpointInfo :=
  snapshotEndpoints .ofPublisher discovery

/-- `snapshotServiceEndpoints` -/
def snapshotServiceEndpoints (discovery : Discovery ServicePublisherInfo) :
    List ServiceEndpointInfo :=
  snapshotEndpoints .ofPublisher discovery

/-- `startsWith` -/
def startsWith (value start : Str) : Bool := start.isEmpty || start.isPrefixOf value

variable {E : Type} [EndpointInfo E]

/-- `filterByPrefix` -/
def filterByPrefix (endpoints : List E) (start : Str) : List E :=
  endpoints.filter fun e => startsWith (EndpointInfo.topic e) start

end RfTrans
