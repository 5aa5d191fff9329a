import RfTrans.Basic

/-!
# Discovery messages

The protobuf messages of `msgs/discovery.proto`.  Enumerations are open, as in
proto3: a number without a name is kept.  A oneof is an inductive type whose first
constructor is "not set", and reading a member that is not set gives its default
instance.

## Main definitions

* `Msgs.Discovery` — the message.
* `Msgs.Discovery.byteSizeLong` — the length of its serialization.
-/

namespace RfTrans
namespace Msgs

/-- `Discovery.Type` -/
inductive DiscoveryType
  | uninitialized
  | advertise
  | subscribe
  | unadvertise
  | heartbeat
  | bye
  | newConnection
  | endConnection
  | unrecognized (value : ℕ)
  deriving DecidableEq

/-- `Discovery.Publisher.Scope` -/
inductive PublisherScope
  | process
  | host
  | all
  | unrecognized (value : ℕ)
  deriving DecidableEq

/-- `Discovery.Publisher.MessagePublisher` -/
structure MessagePublisher where
  ctrl : Str := []
  msgType : Str := []
  throttled : Bool := false
  msgsPerSec : UInt64 := 0
  useShm : Bool := false
  deriving DecidableEq

/-- `Discovery.Publisher.ServicePublisher` -/
structure ServicePublisher where
  socketId : Str := []
  requestType : Str := []
  responseType : Str := []
  deriving DecidableEq

/-- The oneof `pub_type`. -/
inductive PubType
  | notSet
  | msgPub (m : MessagePublisher)
  | srvPub (s : ServicePublisher)
  deriving DecidableEq

/-- `Discovery.Publisher` -/
structure Publisher where
  topic : Str := []
  address : Str := []
  nodeUuid : Str := []
  scope : PublisherScope := .process
  pubType : PubType := .notSet
  deriving DecidableEq

/-- The oneof `disc_contents`; a `Discovery.Subscriber` is its topic. -/
inductive DiscContents
  | notSet
  | sub (topic : Str)
  | pub (p : Publisher)
  deriving DecidableEq

/-- `Discovery` -/
structure Discovery where
  version : UInt32 := 0
  processUuid : Str := []
  type : DiscoveryType := .uninitialized
  processName : Str := []
  contents : DiscContents := .notSet
  deriving DecidableEq

namespace Publisher

/-- `msg_pub()` -/
def msgPub (p : Publisher) : MessagePublisher :=
  match p.pubType with
  | .msgPub m => m
  | _ => {}

/-- `srv_pub()` -/
def srvPub (p : Publisher) : ServicePublisher :=
  match p.pubType with
  | .srvPub s => s
  | _ => {}

end Publisher

namespace Discovery

/-- `pub()` -/
def pub (m : Discovery) : Publisher :=
  match m.contents with
  | .pub p => p
  | _ => {}

/-- Change `mutable_pub()`, which replaces any other member of the oneof. -/
def mutablePub (m : Discovery) (f : Publisher → Publisher) : Discovery :=
  { m with contents := .pub (f m.pub) }

/-- Change `mutable_sub()->topic`. -/
def setSubTopic (m : Discovery) (topic : Str) : Discovery := { m with contents := .sub topic }

end Discovery

/-! ## Serialized sizes -/

/-- The number of bytes of a varint of at most 64 bits. -/
def varintSize (n : ℕ) : ℕ := if n < 128 then 1 else Nat.log2 n / 7 + 1

/-- A length-delimited field with a one-byte tag. -/
def delimitedSize (len : ℕ) : ℕ := 1 + varintSize len + len

/-- A string field: empty strings are not written. -/
def stringSize (s : Str) : ℕ := if s = [] then 0 else delimitedSize s.length

/-- A number field: zero is not written. -/
def numberSize (n : ℕ) : ℕ := if n = 0 then 0 else 1 + varintSize n

/-- The number of an enumeration member. -/
def DiscoveryType.number : DiscoveryType → ℕ
  | uninitialized => 0
  | advertise => 1
  | subscribe => 2
  | unadvertise => 3
  | heartbeat => 4
  | bye => 5
  | newConnection => 6
  | endConnection => 7
  | unrecognized value => value

/-- The number of an enumeration member. -/
def PublisherScope.number : PublisherScope → ℕ
  | process => 0
  | host => 1
  | all => 2
  | unrecognized value => value

def MessagePublisher.byteSizeLong (m : MessagePublisher) : ℕ :=
  stringSize m.ctrl + stringSize m.msgType + numberSize m.throttled.toNat +
    numberSize m.msgsPerSec.toNat + numberSize m.useShm.toNat

def ServicePublisher.byteSizeLong (s : ServicePublisher) : ℕ :=
  stringSize s.socketId + stringSize s.requestType + stringSize s.responseType

def Publisher.byteSizeLong (p : Publisher) : ℕ :=
  stringSize p.topic + stringSize p.address + stringSize p.nodeUuid + numberSize p.scope.number +
    match p.pubType with
    | .notSet => 0
    | .msgPub m => delimitedSize m.byteSizeLong
    | .srvPub s => delimitedSize s.byteSizeLong

/-- `ByteSizeLong` -/
def Discovery.byteSizeLong (m : Discovery) : ℕ :=
  numberSize m.version.toNat + stringSize m.processUuid + numberSize m.type.number +
    stringSize m.processName +
    match m.contents with
    | .notSet => 0
    | .sub topic => delimitedSize (stringSize topic)
    | .pub p => delimitedSize p.byteSizeLong

end Msgs
end RfTrans
