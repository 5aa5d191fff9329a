import RfTrans.Discovery.Wire
import RfTrans.Lib.Layout

/-!
# From one discovery instance to another

An info that is built by a constructor and changed by setters is announced: `sendMulticast`
puts the length of the serialized message before it, `recvDiscoveryMsg` compares it with
what arrived, and `setFromDiscovery` reads the info back.

## Main definitions

* `MessagePublisherInfo.Setter`, `ServicePublisherInfo.Setter` — the public setters.
* `Protobuf` — the serialization of the messages.
* `Discovery.sentBytes`, `Discovery.recvDiscoveryMsg` — the datagrams.
* `Discovery.RoundTrips` — the info arrives as the getters showed it.
* `Discovery.round_trip_iff` — when it does.
-/

namespace RfTrans

open PubLike

/-! ## Infos and their histories -/

/-- The public setters of `PublisherInfo`. -/
inductive PublisherInfo.Setter
  | setTopic (topic : Str)
  | setAddr (addr : Str)
  | setProcessUuid (processUuid : Str)
  | setProcessName (processName : Str)
  | setNodeUuid (nodeUuid : Str)
  | setOptions (opts : AdvertiseOptions)

/-- What a setter does to the record. -/
def PublisherInfo.apply (p : PublisherInfo) : PublisherInfo.Setter → PublisherInfo
  | .setTopic topic => { p with topic := topic }
  | .setAddr addr => { p with addr := addr }
  | .setProcessUuid processUuid => { p with processUuid := processUuid }
  | .setProcessName processName => { p with processName := processName }
  | .setNodeUuid nodeUuid => { p with nodeUuid := nodeUuid }
  | .setOptions opts => { p with opts := opts }

/-- The scope that the base class holds, and that of `getOptions()`. -/
abbrev Scopes := Scope × Scope

/-- What a setter of the base class does to the scopes. -/
def PublisherInfo.Setter.scopes (s : Scopes) : PublisherInfo.Setter → Scopes
  | .setOptions opts => (opts.scope, s.2)
  | _ => s

/-- What `setFromDiscovery` does to the scopes. -/
def scopesRead (s : Scopes) (m : Msgs.Discovery) : Scopes :=
  match m.contents with
  | .pub pub => (Scope.ofMsg pub.scope, Scope.ofMsg pub.scope)
  | _ => (s.1, s.1)

namespace MessagePublisherInfo

/-- The constructors. -/
inductive Constructor
  | default
  | make (topic addr ctrl processUuid nodeUuid msgType : Str) (opts : AdvertiseMessageOptions)

/-- What a constructor makes. -/
def construct : Constructor → MessagePublisherInfo
  | .default => {}
  | .make topic addr ctrl processUuid nodeUuid msgType opts =>
    .make topic addr ctrl processUuid nodeUuid msgType opts

/-- The public setters; those of the base class are called through it. -/
inductive Setter
  | base (s : PublisherInfo.Setter)
  | setCtrl (ctrl : Str)
  | setMsgType (msgType : Str)
  | setOptions (opts : AdvertiseMessageOptions)
  | setFromDiscovery (m : Msgs.Discovery)

/-- What a setter does to the record. -/
def apply (p : MessagePublisherInfo) : Setter → MessagePublisherInfo
  | .base s => { p with toPublisherInfo := p.toPublisherInfo.apply s }
  | .setCtrl ctrl => { p with ctrl := ctrl }
  | .setMsgType msgType => { p with msgType := msgType }
  | .setOptions opts => { p with msgOpts := opts }
  | .setFromDiscovery m => p.setFromDiscovery m

/-- The two scopes after a constructor. -/
def Constructor.scopes : Constructor → Scopes
  | .default => (.all, .all)
  | .make _ _ _ _ _ _ opts => (opts.scope, opts.scope)

/-- What a setter does to the scopes. -/
def Setter.scopes (s : Scopes) : Setter → Scopes
  | .base b => b.scopes s
  | .setOptions opts => (s.1, opts.scope)
  | .setFromDiscovery m => scopesRead s m
  | _ => s

/-- The info after a constructor and setters. -/
def built (c : Constructor) (setters : List Setter) : MessagePublisherInfo :=
  setters.foldl apply (construct c)

/-- The scopes of the record that is built. -/
def builtScopes (c : Constructor) (setters : List Setter) : Scopes :=
  setters.foldl Setter.scopes c.scopes

/-- A setter treats the scopes of the record as `scopes` says. -/
theorem scopes_apply (p : MessagePublisherInfo) (s : Setter) :
    ((p.apply s).opts.scope, (p.apply s).msgOpts.scope) =
      s.scopes (p.opts.scope, p.msgOpts.scope) := by
  cases s with
  | base b => cases b <;> rfl
  | setCtrl ctrl => rfl
  | setMsgType msgType => rfl
  | setOptions opts => rfl
  | setFromDiscovery m =>
      simp only [apply, Setter.scopes, scopesRead, setFromDiscovery,
        PublisherInfo.setFromDiscovery]
      cases m.contents with
      | notSet => rfl
      | sub topic => rfl
      | pub pub => rfl

/-- The scopes of a record that is built are `builtScopes`. -/
theorem scopes_built (c : Constructor) (setters : List Setter) :
    ((built c setters).opts.scope, (built c setters).msgOpts.scope) = builtScopes c setters := by
  have hmade : ((construct c).opts.scope, (construct c).msgOpts.scope) = c.scopes := by
    cases c <;> rfl
  rw [builtScopes, ← hmade]
  exact (List.foldl_hom (fun p : MessagePublisherInfo => (p.opts.scope, p.msgOpts.scope))
    fun p s => (scopes_apply p s).symm).symm

end MessagePublisherInfo

namespace ServicePublisherInfo

/-- The constructors. -/
inductive Constructor
  | default
  | make (topic addr socketId processUuid nodeUuid reqType repType : Str)
    (opts : AdvertiseServiceOptions)

/-- What a constructor makes. -/
def construct : Constructor → ServicePublisherInfo
  | .default => {}
  | .make topic addr socketId processUuid nodeUuid reqType repType opts =>
    .make topic addr socketId processUuid nodeUuid reqType repType opts

/-- The public setters; those of the base class are called through it. -/
inductive Setter
  | base (s : PublisherInfo.Setter)
  | setSocketId (socketId : Str)
  | setReqTypeName (reqType : Str)
  | setRepTypeName (repType : Str)
  | setOptions (opts : AdvertiseServiceOptions)
  | setFromDiscovery (m : Msgs.Discovery)

/-- What a setter does to the record. -/
def apply (p : ServicePublisherInfo) : Setter → ServicePublisherInfo
  | .base s => { p with toPublisherInfo := p.toPublisherInfo.apply s }
  | .setSocketId socketId => { p with socketId := socketId }
  | .setReqTypeName reqType => { p with reqTypeName := reqType }
  | .setRepTypeName repType => { p with repTypeName := repType }
  | .setOptions opts => { p with srvOpts := opts }
  | .setFromDiscovery m => p.setFromDiscovery m

/-- The two scopes after a constructor. -/
def Constructor.scopes : Constructor → Scopes
  | .default => (.all, .all)
  | .make _ _ _ _ _ _ _ opts => (opts.scope, opts.scope)

/-- What a setter does to the scopes. -/
def Setter.scopes (s : Scopes) : Setter → Scopes
  | .base b => b.scopes s
  | .setOptions opts => (s.1, opts.scope)
  | .setFromDiscovery m => scopesRead s m
  | _ => s

/-- The info after a constructor and setters. -/
def built (c : Constructor) (setters : List Setter) : ServicePublisherInfo :=
  setters.foldl apply (construct c)

/-- The scopes of the record that is built. -/
def builtScopes (c : Constructor) (setters : List Setter) : Scopes :=
  setters.foldl Setter.scopes c.scopes

/-- A setter treats the scopes of the record as `scopes` says. -/
theorem scopes_apply (p : ServicePublisherInfo) (s : Setter) :
    ((p.apply s).opts.scope, (p.apply s).srvOpts.scope) =
      s.scopes (p.opts.scope, p.srvOpts.scope) := by
  cases s with
  | base b => cases b <;> rfl
  | setSocketId socketId => rfl
  | setReqTypeName reqType => rfl
  | setRepTypeName repType => rfl
  | setOptions opts => rfl
  | setFromDiscovery m =>
      simp only [apply, Setter.scopes, scopesRead, setFromDiscovery,
        PublisherInfo.setFromDiscovery]
      cases m.contents with
      | notSet => rfl
      | sub topic => rfl
      | pub pub => rfl

/-- The scopes of a record that is built are `builtScopes`. -/
theorem scopes_built (c : Constructor) (setters : List Setter) :
    ((built c setters).opts.scope, (built c setters).srvOpts.scope) = builtScopes c setters := by
  have hmade : ((construct c).opts.scope, (construct c).srvOpts.scope) = c.scopes := by
    cases c <;> rfl
  rw [builtScopes, ← hmade]
  exact (List.foldl_hom (fun p : ServicePublisherInfo => (p.opts.scope, p.srvOpts.scope))
    fun p s => (scopes_apply p s).symm).symm

end ServicePublisherInfo

/-! ## What is read back -/

section Visible
variable {π : Type} [PubLike π]

/-- What the getters show: all but the options that the base class keeps to itself. -/
def visible (p : π) : π := setBase p { base p with opts := {} }

/-- The info with the process that announces it. -/
def sentBy (d : Discovery π) (p : π) : π :=
  setBase p { base p with processUuid := d.processUuid, processName := d.processName }

end Visible

/-- An announced info is read back as the getters showed it exactly when the two scopes
agree. -/
class ReadsBack (π : Type) [PubLike π] [WirePub π] : Prop where
  visible_parse : ∀ (d : Discovery π) (type : Msgs.DiscoveryType) (p : π),
    visible (Discovery.parse (d.datagram type p)) = visible (sentBy d p) ↔
      (base p).opts.scope = scope p

/-- Replacing the scope by another one. -/
theorem msgOpts_scope_eq (o : AdvertiseMessageOptions) (s : Scope) :
    { o with scope := s } = o ↔ s = o.scope := by
  constructor
  · exact fun h => (congrArg (fun o : AdvertiseMessageOptions => o.scope) h :)
  · rintro rfl
    rfl

instance : ReadsBack MessagePublisherInfo where
  visible_parse d type p := by
    have hread : Discovery.parse (d.datagram type p) = p.received d.processUuid d.processName :=
      d.setFromDiscovery_announcement type p
    rw [hread]
    constructor
    · intro h
      exact (msgOpts_scope_eq p.msgOpts p.opts.scope).mp (congrArg (·.msgOpts) h :)
    · intro h
      have hopts := (msgOpts_scope_eq p.msgOpts p.opts.scope).mpr h
      simp only [MessagePublisherInfo.received, hopts]
      rfl

instance : ReadsBack ServicePublisherInfo where
  visible_parse d type p := by
    have hread : Discovery.parse (d.datagram type p) =
        { p with
          processUuid := d.processUuid
          processName := d.processName
          srvOpts := { scope := Scope.ofMsg p.opts.scope.toMsg }
          opts := ⟨Scope.ofMsg p.opts.scope.toMsg⟩ } := rfl
    rw [hread, Scope.ofMsg_toMsg]
    constructor
    · exact fun h => (congrArg (·.srvOpts.scope) h :)
    · intro h
      have hopts : ({ scope := p.opts.scope } : AdvertiseServiceOptions) = p.srvOpts :=
        congrArg (fun s => ({ scope := s } : AdvertiseServiceOptions)) h
      rw [hopts]
      rfl

/-! ## Datagrams -/

/-- `SerializeToArray` and `ParseFromArray` of a discovery message. -/
structure Protobuf where
  serialize : Msgs.Discovery → Str
  parse : Str → Option Msgs.Discovery

/-- A message is serialized to as many bytes as `ByteSizeLong` announces, and parsing them
gives it back. -/
structure Protobuf.Faithful (pb : Protobuf) (m : Msgs.Discovery) : Prop where
  length : (pb.serialize m).length = m.byteSizeLong
  parse : pb.parse (pb.serialize m) = some m

/-- The bytes that `sendMulticast` hands to the sockets; its sizes have 16 bits. -/
def Protobuf.datagram (pb : Protobuf) (m : Msgs.Discovery) : Str :=
  let msgSize := m.byteSizeLong % 2 ^ 16
  let totalSize := (msgSize + 2) % 2 ^ 16
  ((Layout.toLE msgSize 2).reverse ++ pb.serialize m).take totalSize

/-- The length that a datagram says it has, in network order. -/
def lengthPrefix (bytes : Str) : ℕ := Layout.fromLE (bytes.take 2).reverse

/-- The message in a datagram, if `recvDiscoveryMsg` and `ParseFromArray` accept it. What
does not fit the buffer is cut off. -/
def Protobuf.accepted (pb : Protobuf) (datagram : Str) : Option Msgs.Discovery :=
  let received := datagram.take kMaxRcvStr
  if 2 ≤ received.length ∧ received.length = lengthPrefix received + 2 then
    pb.parse (received.drop 2)
  else none

namespace Discovery
variable {π : Type} [PubLike π]

/-- `recvDiscoveryMsg`, when a datagram is there. -/
def recvDiscoveryMsg (pb : Protobuf) (d : Discovery π) (fromIp datagram : Str) (now : ℕ) :
    Outcome π :=
  match pb.accepted datagram with
  | none => { self := d }
  | some m => d.dispatchDiscoveryMsg fromIp m now

/-- The datagrams of `sendMsg`. -/
def sentBytes (pb : Protobuf) (d : Discovery π) (type : Msgs.DiscoveryType) (p : π) : List Str :=
  (d.sendMsg type p).map pb.datagram

/-- A datagram whose prefix is not its length is dropped. -/
theorem recvDiscoveryMsg_mismatch (pb : Protobuf) (d : Discovery π) (fromIp : Str)
    {bytes : Str} (now : ℕ) (hlen : bytes.length ≤ kMaxRcvStr)
    (h : lengthPrefix bytes + 2 ≠ bytes.length) :
    d.recvDiscoveryMsg pb fromIp bytes now = { self := d } := by
  have hnone : pb.accepted bytes = none := by
    simp only [Protobuf.accepted, List.take_of_length_le hlen]
    exact if_neg fun hok => h hok.2.symm
  rw [recvDiscoveryMsg, hnone]

/-- **The framing**: what is sent is accepted. -/
theorem accepted_datagram {pb : Protobuf} {m : Msgs.Discovery} (hpb : pb.Faithful m)
    (hfits : fits m = true) : pb.accepted (pb.datagram m) = some m := by
  have hsize : m.byteSizeLong + 2 ≤ 65535 := of_decide_eq_true hfits
  have hbytes : pb.datagram m = (Layout.toLE m.byteSizeLong 2).reverse ++ pb.serialize m := by
    have hmod : m.byteSizeLong % 2 ^ 16 = m.byteSizeLong := Nat.mod_eq_of_lt (by omega)
    have htotal : (m.byteSizeLong + 2) % 2 ^ 16 = m.byteSizeLong + 2 :=
      Nat.mod_eq_of_lt (by omega)
    simp only [Protobuf.datagram, hmod, htotal]
    apply List.take_of_length_le
    simp only [List.length_append, List.length_reverse, Layout.length_toLE, hpb.length]
    omega
  have hheader : ((Layout.toLE m.byteSizeLong 2).reverse).length = 2 := by simp
  have hlength : (pb.datagram m).length = m.byteSizeLong + 2 := by
    rw [hbytes, List.length_append, hheader, hpb.length]
    omega
  have hprefix : lengthPrefix (pb.datagram m) = m.byteSizeLong := by
    rw [lengthPrefix, hbytes, List.take_left' hheader, List.reverse_reverse]
    exact Layout.fromLE_toLE (by omega)
  have hbody : (pb.datagram m).drop 2 = pb.serialize m := by
    rw [hbytes, List.drop_left' hheader]
  have hwhole : (pb.datagram m).take kMaxRcvStr = pb.datagram m :=
    List.take_of_length_le (hlength.trans_le hsize)
  simp only [Protobuf.accepted, hwhole, hlength, hprefix, hbody]
  rw [if_pos ⟨by omega, trivial⟩, hpb.parse]

/-- One datagram goes out, an instance that gets it takes an ADVERTISE from it, and the info
read from that is the one that was announced, of the process that announced it. -/
def RoundTrips (pb : Protobuf) (d : Discovery π) (p : π) : Prop :=
  ∃ bytes m, d.sentBytes pb .advertise p = [bytes] ∧ pb.accepted bytes = some m ∧
    m.type = .advertise ∧ visible (setFromDiscovery PubLike.default m) = visible (sentBy d p)

/-- **One info.** -/
theorem roundTrips_iff [WirePub π] [ReadsBack π] {pb : Protobuf} (d : Discovery π) {p : π}
    (hpb : pb.Faithful (d.datagram .advertise p))
    (hfits : fits (d.datagram .advertise p) = true) :
    RoundTrips pb d p ↔ (base p).opts.scope = scope p := by
  have hsent : d.sentBytes pb .advertise p = [pb.datagram (d.datagram .advertise p)] := by
    rw [sentBytes, sendMsg_datagram d (.inl rfl), if_pos hfits]
    rfl
  have haccepted := accepted_datagram hpb hfits
  rw [← ReadsBack.visible_parse d .advertise p]
  constructor
  · rintro ⟨bytes, m, hbytes, hm, -, hread⟩
    obtain rfl : pb.datagram (d.datagram .advertise p) = bytes :=
      List.singleton_inj.mp (hsent.symm.trans hbytes)
    obtain rfl : d.datagram .advertise p = m := Option.some.inj (haccepted.symm.trans hm)
    exact hread
  · exact fun hread => ⟨_, _, hsent, haccepted, rfl, hread⟩

/-- **The round trip of the discovery codec.**  An info that fits arrives as its getters
showed it exactly when its history leaves the two scopes equal; a datagram with another
length than its prefix says is dropped. -/
theorem round_trip_iff (pb : Protobuf) :
    (∀ (c : MessagePublisherInfo.Constructor) (setters : List MessagePublisherInfo.Setter)
        (d : Discovery MessagePublisherInfo), let p := MessagePublisherInfo.built c setters
      pb.Faithful (d.datagram .advertise p) →
        ((fits (d.datagram .advertise p) = true → RoundTrips pb d p) ↔
          (fits (d.datagram .advertise p) = true →
            let scopes := MessagePublisherInfo.builtScopes c setters
            scopes.1 = scopes.2))) ∧
    (∀ (c : ServicePublisherInfo.Constructor) (setters : List ServicePublisherInfo.Setter)
        (d : Discovery ServicePublisherInfo), let p := ServicePublisherInfo.built c setters
      pb.Faithful (d.datagram .advertise p) →
        ((fits (d.datagram .advertise p) = true → RoundTrips pb d p) ↔
          (fits (d.datagram .advertise p) = true →
            let scopes := ServicePublisherInfo.builtScopes c setters
            scopes.1 = scopes.2))) ∧
    ∀ (bytes : Str), bytes.length ≤ kMaxRcvStr → lengthPrefix bytes + 2 ≠ bytes.length →
      (∀ (d : Discovery MessagePublisherInfo) (fromIp : Str) (now : ℕ),
        d.recvDiscoveryMsg pb fromIp bytes now = { self := d }) ∧
      ∀ (d : Discovery ServicePublisherInfo) (fromIp : Str) (now : ℕ),
        d.recvDiscoveryMsg pb fromIp bytes now = { self := d } := by
  refine ⟨?_, ?_, ?_⟩
  · intro c setters d p hpb
    refine forall_congr' fun hfits => ?_
    rw [roundTrips_iff d hpb hfits, ← MessagePublisherInfo.scopes_built]
    exact Iff.rfl
  · intro c setters d p hpb
    refine forall_congr' fun hfits => ?_
    rw [roundTrips_iff d hpb hfits, ← ServicePublisherInfo.scopes_built]
    exact Iff.rfl
  · intro bytes hlen h
    exact ⟨fun d fromIp now => d.recvDiscoveryMsg_mismatch pb fromIp now hlen h,
      fun d fromIp now => d.recvDiscoveryMsg_mismatch pb fromIp now hlen h⟩

/-! ## The wrong scope -/

/-- A parser and a serializer that know one message, and its bytes. -/
def onlyMessage (m : Msgs.Discovery) (bytes : Str) : Protobuf where
  serialize _ := bytes
  parse b := if b = bytes then some m else none

/-- A string field of a message. -/
def field (tag : UInt8) (bytes : Str) : Str := tag :: bytes.length.toUInt8 :: bytes

/-- The discovery instance of process 4a. -/
def exampleSender (π : Type) : Discovery π := { processUuid := str "4a", hostAddr := str "h" }

/-- A publisher with the default options, so for all hosts. -/
def madeForAll : MessagePublisherInfo.Constructor :=
  .make (str "t") (str "a") (str "c") (str "4a") (str "n") (str "M") { msgsPerSec := 5 }

/-- The bytes announced for it: numbers 3, 4 and 7 of the message. -/
def bytesForAll (useShm : List UInt8) : Str :=
  field 0x1a (str "4a") ++ [0x20, 1] ++ field 0x3a (field 0x0a (str "t") ++ field 0x12 (str "a") ++
    field 0x22 (str "n") ++ [0x28, 2] ++ field 0x32 (field 0x0a (str "c") ++ field 0x12 (str "M") ++
      [0x18, 1, 0x20, 5] ++ useShm))

/-- A service with the default options. -/
def madeService : ServicePublisherInfo.Constructor :=
  .make (str "s") (str "a") (str "r") (str "4a") (str "n") (str "Q") (str "R") {}

/-- The bytes announced for the service. -/
def bytesOfService : Str :=
  field 0x1a (str "4a") ++ [0x20, 1] ++ field 0x3a (field 0x0a (str "s") ++ field 0x12 (str "a") ++
    field 0x22 (str "n") ++ [0x28, 2] ++ field 0x3a (field 0x0a (str "r") ++ field 0x12 (str "Q") ++
      field 0x1a (str "R")))

theorem round_trip_iff_example :
    (let d := exampleSender MessagePublisherInfo
      let p := MessagePublisherInfo.built madeForAll []
      let m := d.datagram .advertise p
      RoundTrips (onlyMessage m (bytesForAll [])) d p) ∧
    (let d := exampleSender ServicePublisherInfo
      let p := ServicePublisherInfo.built madeService [.setOptions {}]
      let m := d.datagram .advertise p
      RoundTrips (onlyMessage m bytesOfService) d p) ∧
    (exampleSender ServicePublisherInfo).recvDiscoveryMsg (onlyMessage {} []) [] [0, 2, 7] 0 =
      { self := exampleSender ServicePublisherInfo } := by
  refine ⟨?_, ?_, ?_⟩
  · exact ((round_trip_iff (onlyMessage _ (bytesForAll []))).1 madeForAll []
      (exampleSender MessagePublisherInfo) ⟨by decide, by decide⟩).mpr (fun _ => rfl) (by decide)
  · exact ((round_trip_iff (onlyMessage _ bytesOfService)).2.1 madeService [.setOptions {}]
      (exampleSender ServicePublisherInfo) ⟨by decide, by decide⟩).mpr (fun _ => rfl) (by decide)
  · exact ((round_trip_iff (onlyMessage {} [])).2.2 [0, 2, 7] (by decide) (by decide)).2
      (exampleSender ServicePublisherInfo) [] 0

/-- **A scope that is changed is not announced**: `setOptions` of the derived class says HOST,
`getOptions()` says HOST, and the datagram says ALL. -/
theorem changed_scope_lost :
    let d := exampleSender MessagePublisherInfo
    let p := MessagePublisherInfo.built madeForAll
      [.setOptions { scope := .host, msgsPerSec := 5, useShm := true }]
    let m := d.datagram .advertise p
    let pb := onlyMessage m (bytesForAll [0x28, 1])
    pb.Faithful m ∧ fits m = true ∧ ¬ RoundTrips pb d p ∧ p.msgOpts.scope = .host ∧
      pb.accepted (pb.datagram m) = some m ∧
      (MessagePublisherInfo.setFromDiscovery {} m).msgOpts.scope = .all := by
  have hpb : (onlyMessage ((exampleSender MessagePublisherInfo).datagram .advertise
      (MessagePublisherInfo.built madeForAll
        [.setOptions { scope := .host, msgsPerSec := 5, useShm := true }]))
      (bytesForAll [0x28, 1])).Faithful ((exampleSender MessagePublisherInfo).datagram .advertise
      (MessagePublisherInfo.built madeForAll
        [.setOptions { scope := .host, msgsPerSec := 5, useShm := true }])) :=
    ⟨by decide, by decide⟩
  refine ⟨hpb, by decide, fun h => ?_, rfl, by decide, by decide⟩
  have hscope := (roundTrips_iff _ hpb (by decide)).mp h
  exact absurd hscope (by decide)

end Discovery
end RfTrans
