import RfTrans.Discovery.Discovery

/-!
# Message publishers on the wire

The datagram that `sendMsg` builds from a `MessagePublisherInfo`, and what
`setFromDiscovery` reads back from it.

## Main definitions

* `Discovery.announcement` — the datagram.
* `MessagePublisherInfo.received` — the record at the other end.
* `Discovery.mem_sendMsg` — what `sendMsg` sends.
-/

namespace RfTrans

/-- The record read back from an announcement: the process is the sender, and both copies
of the scope are the one that was written. -/
def MessagePublisherInfo.received (x : MessagePublisherInfo) (processUuid processName : Str) :
    MessagePublisherInfo :=
  { x with
    processUuid := processUuid
    processName := processName
    msgOpts := { x.msgOpts with scope := x.opts.scope } }

namespace Discovery

variable {π : Type} [PubLike π] (d : Discovery π)

/-- A message about a publisher or a registration. -/
def Announces (type : Msgs.DiscoveryType) : Prop :=
  type = .advertise ∨ type = .unadvertise ∨ type = .newConnection ∨ type = .endConnection

/-- The datagram about a record. -/
def announcement (type : Msgs.DiscoveryType) (x : MessagePublisherInfo) : Msgs.Discovery :=
  { version := kWireVersion
    processUuid := d.processUuid
    type := type
    processName := d.processName
    contents := .pub
      { topic := x.topic
        address := x.addr
        nodeUuid := x.nodeUuid
        scope := x.opts.scope.toMsg
        pubType := .msgPub
          { ctrl := x.ctrl
            msgType := x.msgType
            throttled := x.msgOpts.throttled
            msgsPerSec := x.msgOpts.msgsPerSec
            useShm := x.msgOpts.useShm } } }

omit [PubLike π] in
theorem message_eq {type : Msgs.DiscoveryType} (ht : Announces type) (x : MessagePublisherInfo) :
    d.message type x = some (d.announcement type x) := by
  rcases ht with rfl | rfl | rfl | rfl <;> rfl

/-- Whether a datagram passes the size check of `sendMulticast`. -/
def fits (m : Msgs.Discovery) : Bool := m.byteSizeLong + 2 ≤ kMaxRcvStr

theorem sendMulticast_eq (m : Msgs.Discovery) : sendMulticast m = if fits m then [m] else [] := by
  by_cases h : m.byteSizeLong + 2 > kMaxRcvStr
  · have hfits : ¬ fits m = true := by simpa [fits] using h
    rw [if_neg hfits]
    exact if_pos h
  · have hfits : fits m = true := by simpa [fits] using h
    rw [if_pos hfits]
    exact if_neg h

omit [PubLike π] in
theorem sendMsg_eq {type : Msgs.DiscoveryType} (ht : Announces type) (x : MessagePublisherInfo) :
    d.sendMsg type x = if fits (d.announcement type x) then [d.announcement type x] else [] := by
  rw [sendMsg, message_eq d ht, Option.map_some, Option.getD_some, sendMulticast_eq]

omit [PubLike π] in
theorem mem_sendMsg {type : Msgs.DiscoveryType} (ht : Announces type) {x : MessagePublisherInfo}
    {m : Msgs.Discovery} :
    m ∈ d.sendMsg type x ↔ m = d.announcement type x ∧ fits (d.announcement type x) = true := by
  rw [sendMsg_eq d ht]
  by_cases h : fits (d.announcement type x) = true
  · simp [h]
  · simp [h]

omit [PubLike π] in
/-- **An announcement is read back** as the record it was made from. -/
theorem setFromDiscovery_announcement (type : Msgs.DiscoveryType) (x : MessagePublisherInfo) :
    PubLike.setFromDiscovery (PubLike.default : MessagePublisherInfo) (d.announcement type x) =
      x.received d.processUuid d.processName := by
  have hrate : (if x.msgOpts.throttled then x.msgOpts.msgsPerSec else kUnthrottled) =
      x.msgOpts.msgsPerSec := by
    by_cases h : x.msgOpts.msgsPerSec = kUnthrottled
    · simp [AdvertiseMessageOptions.throttled, h]
    · simp [AdvertiseMessageOptions.throttled, h]
  calc PubLike.setFromDiscovery (PubLike.default : MessagePublisherInfo) (d.announcement type x)
      = { x with
          processUuid := d.processUuid
          processName := d.processName
          opts := ⟨Scope.ofMsg x.opts.scope.toMsg⟩
          msgOpts :=
            { scope := Scope.ofMsg x.opts.scope.toMsg
              msgsPerSec := if x.msgOpts.throttled then x.msgOpts.msgsPerSec else kUnthrottled
              useShm := x.msgOpts.useShm } } := rfl
    _ = x.received d.processUuid d.processName := by
      rw [hrate, Scope.ofMsg_toMsg]
      rfl

end Discovery
end RfTrans
