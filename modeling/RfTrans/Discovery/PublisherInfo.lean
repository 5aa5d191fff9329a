import RfTrans.Discovery.Messages

/-!
# Publisher records

`PublisherInfo` and its two refinements, with their conversions to and from the
discovery message.  A derived record keeps its options twice: the base class holds
the scope that `fillDiscovery` writes, the derived class the options that
`getOptions` returns.  The constructors make the two agree.

## Main definitions

* `PublisherInfo`, `MessagePublisherInfo`, `ServicePublisherInfo`
* `Fills` — what `sendMsg` needs of a record.
* `PubLike` — what `Discovery` and `TopicStorage` need of their records.
-/

namespace RfTrans

/-- `Scope` -/
inductive Scope
  | process
  | host
  | all
  deriving DecidableEq

/-- `kUnthrottled` -/
def kUnthrottled : UInt64 := 0xffffffffffffffff

/-- `AdvertiseOptions` -/
structure AdvertiseOptions where
  scope : Scope := .all
  deriving DecidableEq

/-- `AdvertiseMessageOptions` -/
structure AdvertiseMessageOptions extends AdvertiseOptions where
  msgsPerSec : UInt64 := kUnthrottled
  useShm : Bool := false
  deriving DecidableEq

/-- `AdvertiseServiceOptions` -/
structure AdvertiseServiceOptions extends AdvertiseOptions
  deriving DecidableEq

/-- `throttled()` -/
def AdvertiseMessageOptions.throttled (o : AdvertiseMessageOptions) : Bool :=
  o.msgsPerSec ≠ kUnthrottled

/-- `PublisherInfo` -/
structure PublisherInfo where
  topic : Str := []
  addr : Str := []
  processUuid : Str := []
  processName : Str := []
  nodeUuid : Str := []
  opts : AdvertiseOptions := {}
  deriving DecidableEq

/-- `MessagePublisherInfo` -/
structure MessagePublisherInfo extends PublisherInfo where
  ctrl : Str := []
  msgType : Str := []
  msgOpts : AdvertiseMessageOptions := {}
  deriving DecidableEq

/-- `ServicePublisherInfo` -/
structure ServicePublisherInfo extends PublisherInfo where
  socketId : Str := []
  reqTypeName : Str := []
  repTypeName : Str := []
  srvOpts : AdvertiseServiceOptions := {}
  deriving DecidableEq

/-- The message's name for a scope. -/
def Scope.toMsg : Scope → Msgs.PublisherScope
  | process => .process
  | host => .host
  | all => .all

/-- The scope that a message's number stands for. -/
def Scope.ofMsg : Msgs.PublisherScope → Scope
  | .process => process
  | .host => host
  | .all => all
  | .unrecognized _ => all

@[simp] theorem Scope.ofMsg_toMsg (s : Scope) : Scope.ofMsg s.toMsg = s := by
  cases s <;> rfl

namespace PublisherInfo

/-- The constructor. -/
def make (topic addr processUuid nodeUuid : Str) (opts : AdvertiseOptions) : PublisherInfo :=
  { topic := topic, addr := addr, processUuid := processUuid, nodeUuid := nodeUuid, opts := opts }

/-- `PublisherInfo::fillDiscovery` -/
def fillDiscovery (p : PublisherInfo) (m : Msgs.Discovery) : Msgs.Discovery :=
  m.mutablePub fun pub =>
    { pub with
      topic := p.topic
      address := p.addr
      nodeUuid := p.nodeUuid
      scope := p.opts.scope.toMsg }

/-- `PublisherInfo::setFromDiscovery` -/
def setFromDiscovery (p : PublisherInfo) (m : Msgs.Discovery) : PublisherInfo :=
  match m.contents with
  | .sub topic => { p with topic := topic }
  | .pub pub =>
    { p with
      topic := pub.topic
      addr := pub.address
      processUuid := m.processUuid
      processName := m.processName
      nodeUuid := pub.nodeUuid
      opts := ⟨Scope.ofMsg pub.scope⟩ }
  | .notSet => p

end PublisherInfo

namespace MessagePublisherInfo

/-- The constructor. -/
def make (topic addr ctrl processUuid nodeUuid msgType : Str) (opts : AdvertiseMessageOptions) :
    MessagePublisherInfo :=
  { PublisherInfo.make topic addr processUuid nodeUuid opts.toAdvertiseOptions with
    ctrl := ctrl
    msgType := msgType
    msgOpts := opts }

/-- `MessagePublisherInfo::fillDiscovery` -/
def fillDiscovery (p : MessagePublisherInfo) (m : Msgs.Discovery) : Msgs.Discovery :=
  (p.toPublisherInfo.fillDiscovery m).mutablePub fun pub =>
    { pub with
      pubType := .msgPub
        { ctrl := p.ctrl
          msgType := p.msgType
          throttled := p.msgOpts.throttled
          msgsPerSec := p.msgOpts.msgsPerSec
          useShm := p.msgOpts.useShm } }

/-- `MessagePublisherInfo::setFromDiscovery` -/
def setFromDiscovery (p : MessagePublisherInfo) (m : Msgs.Discovery) : MessagePublisherInfo :=
  let base := p.toPublisherInfo.setFromDiscovery m
  let msgPub := m.pub.msgPub
  { base with
    ctrl := msgPub.ctrl
    msgType := msgPub.msgType
    msgOpts :=
      { scope := base.opts.scope
        msgsPerSec := if msgPub.throttled then msgPub.msgsPerSec else kUnthrottled
        useShm := msgPub.useShm } }

end MessagePublisherInfo

namespace ServicePublisherInfo

/-- The constructor. -/
def make (topic addr socketId processUuid nodeUuid reqType repType : Str)
    (opts : AdvertiseServiceOptions) : ServicePublisherInfo :=
  { PublisherInfo.make topic addr processUuid nodeUuid opts.toAdvertiseOptions with
    socketId := socketId
    reqTypeName := reqType
    repTypeName := repType
    srvOpts := opts }

/-- `ServicePublisherInfo::fillDiscovery` -/
def fillDiscovery (p : ServicePublisherInfo) (m : Msgs.Discovery) : Msgs.Discovery :=
  (p.toPublisherInfo.fillDiscovery m).mutablePub fun pub =>
    { pub with
      pubType := .srvPub
        { socketId := p.socketId
          requestType := p.reqTypeName
          responseType := p.repTypeName } }

/-- `ServicePublisherInfo::setFromDiscovery` -/
def setFromDiscovery (p : ServicePublisherInfo) (m : Msgs.Discovery) : ServicePublisherInfo :=
  let base := p.toPublisherInfo.setFromDiscovery m
  let srvPub := m.pub.srvPub
  { base with
    socketId := srvPub.socketId
    reqTypeName := srvPub.requestType
    repTypeName := srvPub.responseType
    srvOpts := { scope := base.opts.scope } }

end ServicePublisherInfo

/-- What `sendMsg` needs of a record. -/
class Fills (τ : Type) where
  fillDiscovery : τ → Msgs.Discovery → Msgs.Discovery
  getTopic : τ → Str

/-- What `Discovery` and `TopicStorage` need of the records they keep. -/
class PubLike (π : Type) extends Fills π where
  /-- The default constructor. -/
  default : π
  base : π → PublisherInfo
  /-- The scope of `getOptions()`. -/
  scope : π → Scope
  setBase : π → PublisherInfo → π
  setFromDiscovery : π → Msgs.Discovery → π

instance : Fills PublisherInfo := ⟨PublisherInfo.fillDiscovery, PublisherInfo.topic⟩

instance : PubLike MessagePublisherInfo where
  fillDiscovery := MessagePublisherInfo.fillDiscovery
  getTopic p := p.topic
  default := {}
  base := MessagePublisherInfo.toPublisherInfo
  scope p := p.msgOpts.scope
  setBase p b := { p with toPublisherInfo := b }
  setFromDiscovery := MessagePublisherInfo.setFromDiscovery

instance : PubLike ServicePublisherInfo where
  fillDiscovery := ServicePublisherInfo.fillDiscovery
  getTopic p := p.topic
  default := {}
  base := ServicePublisherInfo.toPublisherInfo
  scope p := p.srvOpts.scope
  setBase p b := { p with toPublisherInfo := b }
  setFromDiscovery := ServicePublisherInfo.setFromDiscovery

namespace PubLike

variable {π : Type} [PubLike π] (p : π)

/-- `getTopic` -/
def topic : Str := (base p).topic
/-- `getAddr` -/
def addr : Str := (base p).addr
/-- `getProcessUuid` -/
def processUuid : Str := (base p).processUuid
/-- `getNodeUuid` -/
def nodeUuid : Str := (base p).nodeUuid
/-- `setTopic` -/
def setTopic (topic : Str) : π := setBase p { base p with topic := topic }
/-- `setProcessUuid` -/
def setProcessUuid (processUuid : Str) : π := setBase p { base p with processUuid := processUuid }
/-- `setNodeUuid` -/
def setNodeUuid (nodeUuid : Str) : π := setBase p { base p with nodeUuid := nodeUuid }

end PubLike
end RfTrans
