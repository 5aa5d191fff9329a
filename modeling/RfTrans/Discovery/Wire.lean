import RfTrans.Discovery.Codec

/-!
# Any publisher on the wire

`Discovery<Pub>` is used with two types of publishers.  What it relies on is that a
record fills the `pub` member of a message whatever was there, and that the record
read back at the other end has the same topic, address, node and scope.

## Main definitions

* `WirePub` — these laws, with the two instances.
* `Discovery.datagram` — the datagram about a record.
* `Discovery.pubsOf_dispatch_of_ne` — the datagrams of one process leave the publishers
  of another alone.
-/

namespace RfTrans

open PubLike TopicStorage

/-- What a record puts into the `pub` member of a message. -/
def payload {π : Type} [PubLike π] (p : π) : Msgs.Publisher :=
  (Fills.fillDiscovery p ({} : Msgs.Discovery)).pub

/-- The laws of the publishers that a discovery instance announces. -/
class WirePub (π : Type) [PubLike π] : Prop where
  fill : ∀ (p : π) (m : Msgs.Discovery),
    Fills.fillDiscovery p m = { m with contents := .pub (payload p) }
  topic : ∀ p : π, (payload p).topic = PubLike.topic p
  addr : ∀ p : π, (payload p).address = PubLike.addr p
  nodeUuid : ∀ p : π, (payload p).nodeUuid = PubLike.nodeUuid p
  scope : ∀ p : π, (payload p).scope = (base p).opts.scope.toMsg
  read : ∀ m : Msgs.Discovery,
    base (setFromDiscovery (default : π) m) = PublisherInfo.setFromDiscovery {} m
  scope_read : ∀ m : Msgs.Discovery, PubLike.scope (setFromDiscovery (default : π) m) =
    (PublisherInfo.setFromDiscovery {} m).opts.scope

instance : WirePub MessagePublisherInfo where
  fill _ _ := rfl
  topic _ := rfl
  addr _ := rfl
  nodeUuid _ := rfl
  scope _ := rfl
  read _ := rfl
  scope_read _ := rfl

instance : WirePub ServicePublisherInfo where
  fill _ _ := rfl
  topic _ := rfl
  addr _ := rfl
  nodeUuid _ := rfl
  scope _ := rfl
  read _ := rfl
  scope_read _ := rfl

namespace Discovery

variable {π : Type} [PubLike π] [WirePub π] (d : Discovery π)

/-- The datagram about a record. -/
def datagram (type : Msgs.DiscoveryType) (p : π) : Msgs.Discovery :=
  { version := kWireVersion
    processUuid := d.processUuid
    type := type
    processName := d.processName
    contents := .pub (payload p) }

theorem message_eq_datagram {type : Msgs.DiscoveryType} (ht : Announces type) (p : π) :
    d.message type p = some (d.datagram type p) := by
  have hfill : ∀ m : Msgs.Discovery, Fills.fillDiscovery p (Fills.fillDiscovery p m) =
      { m with contents := .pub (payload p) } := fun m => by
    rw [WirePub.fill, WirePub.fill]
  rcases ht with rfl | rfl | rfl | rfl
  · exact congrArg some (hfill _)
  · exact congrArg some (hfill _)
  · exact congrArg some (hfill _)
  · exact congrArg some (hfill _)

theorem sendMsg_datagram {type : Msgs.DiscoveryType} (ht : Announces type) (p : π) :
    d.sendMsg type p = if fits (d.datagram type p) then [d.datagram type p] else [] := by
  rw [sendMsg, message_eq_datagram d ht, Option.map_some, Option.getD_some, sendMulticast_eq]

omit [WirePub π] in
/-- An ADVERTISE and an UNADVERTISE have the same length. -/
theorem fits_unadvertise (p : π) :
    fits (d.datagram .unadvertise p) = fits (d.datagram .advertise p) := by
  have hsize : (d.datagram .unadvertise p).byteSizeLong =
      (d.datagram .advertise p).byteSizeLong := rfl
  rw [fits, hsize, fits]

/-- The record in a datagram. -/
def parse (m : Msgs.Discovery) : π := setFromDiscovery default m

section Parse
variable (type : Msgs.DiscoveryType) (p : π)

omit d in
theorem base_parse (m : Msgs.Discovery) :
    base (parse m : π) = PublisherInfo.setFromDiscovery {} m := WirePub.read m

theorem topic_parse : topic (parse (d.datagram type p) : π) = topic p := by
  rw [topic, base_parse]
  exact WirePub.topic p

theorem addr_parse : addr (parse (d.datagram type p) : π) = addr p := by
  rw [addr, base_parse]
  exact WirePub.addr p

theorem nodeUuid_parse : nodeUuid (parse (d.datagram type p) : π) = nodeUuid p := by
  rw [nodeUuid, base_parse]
  exact WirePub.nodeUuid p

theorem processUuid_parse :
    PubLike.processUuid (parse (d.datagram type p) : π) = d.processUuid := by
  rw [PubLike.processUuid, base_parse]
  rfl

theorem scope_parse : scope (parse (d.datagram type p) : π) = (base p).opts.scope := by
  have hread := WirePub.scope_read (π := π) (d.datagram type p)
  have hscope : (PublisherInfo.setFromDiscovery {} (d.datagram type p)).opts.scope =
      Scope.ofMsg (payload p).scope := rfl
  rw [hscope, WirePub.scope, Scope.ofMsg_toMsg] at hread
  exact hread

omit d in
/-- A record is of the process that sent it, or of none. -/
theorem processUuid_parse_or (m : Msgs.Discovery) :
    PubLike.processUuid (parse m : π) = m.processUuid ∨
      PubLike.processUuid (parse m : π) = [] := by
  rw [PubLike.processUuid, base_parse, PublisherInfo.setFromDiscovery]
  cases m.contents with
  | notSet => exact .inr rfl
  | sub topic => exact .inr rfl
  | pub p => exact .inl rfl

end Parse

/-! ## Datagrams from others -/

section Dispatch
variable {d} {fromIp : Str} {m : Msgs.Discovery} {now : ℕ}

omit [WirePub π] in
theorem known_dispatch_advertise (hne : m.processUuid ≠ d.processUuid) (ht : m.type = .advertise)
    (hv : hidden (parse m : π) (d.isSenderLocal fromIp) = false) :
    (d.dispatchDiscoveryMsg fromIp m now).self.knownPublishers =
      (d.knownPublishers.addPublisher (parse m)).1 := by
  simp only [dispatchDiscoveryMsg, if_neg hne, ht]
  rw [if_neg (Bool.not_eq_true _ ▸ hv)]
  rfl

omit [WirePub π] in
theorem known_dispatch_unadvertise (hne : m.processUuid ≠ d.processUuid)
    (ht : m.type = .unadvertise)
    (hv : hidden (parse m : π) (d.isSenderLocal fromIp) = false) :
    (d.dispatchDiscoveryMsg fromIp m now).self.knownPublishers =
      (d.knownPublishers.delPublishersByNode (topic (parse m : π))
        (PubLike.processUuid (parse m : π)) (nodeUuid (parse m : π))).1 := by
  simp only [dispatchDiscoveryMsg, if_neg hne, ht]
  rw [if_neg (Bool.not_eq_true _ ▸ hv)]
  rfl

omit [WirePub π] in
theorem known_dispatch_heartbeat (ht : m.type = .heartbeat) :
    (d.dispatchDiscoveryMsg fromIp m now).self.knownPublishers = d.knownPublishers := by
  simp only [dispatchDiscoveryMsg, ht]
  split <;> rfl

/-- The datagrams of one process leave the publishers of another alone. -/
theorem pubsOf_dispatch_of_ne {q : Str} (hm : m.processUuid ≠ q) (hq : q ≠ []) (t : Str) :
    (d.dispatchDiscoveryMsg fromIp m now).self.knownPublishers.pubsOf t q =
      d.knownPublishers.pubsOf t q := by
  have hparse : q ≠ PubLike.processUuid (parse m : π) := by
    rcases processUuid_parse_or (π := π) m with h | h
    · rw [h]
      exact hm.symm
    · rw [h]
      exact hq
  simp only [dispatchDiscoveryMsg]
  split
  case isTrue => rfl
  case isFalse =>
    split
    case h_1 =>
      split
      case isTrue => rfl
      case isFalse => exact (pubsOf_addPublisher _ t q).trans (if_neg fun h => hparse h.2.2)
    case h_2 =>
      split
      case isTrue => rfl
      case isFalse =>
        exact (pubsOf_delPublishersByNode _ _ _ _ t q).trans (if_neg fun h => hparse h.2)
    case h_3 => split <;> rfl
    case h_7 => exact (pubsOf_delPublishersByProc _ _ t q).trans (if_neg hm.symm)
    all_goals rfl

omit [WirePub π] in
/-- A datagram adds at most the record that it describes, if the sender may announce it. -/
theorem mem_pubsOf_dispatch {t q : Str} {x : π}
    (h : x ∈ (d.dispatchDiscoveryMsg fromIp m now).self.knownPublishers.pubsOf t q) :
    x ∈ d.knownPublishers.pubsOf t q ∨
      (x = parse m ∧ hidden x (d.isSenderLocal fromIp) = false) := by
  simp only [dispatchDiscoveryMsg] at h
  split at h
  case isTrue => exact .inl h
  case isFalse =>
    split at h
    case h_1 =>
      split at h
      case isTrue => exact .inl h
      case isFalse hv =>
        rcases (mem_pubsOf_addPublisher _).mp h with hx | ⟨-, -, -, rfl⟩
        · exact .inl hx
        · exact .inr ⟨rfl, by simpa using hv⟩
    case h_2 =>
      split at h
      case isTrue => exact .inl h
      case isFalse => exact .inl ((mem_pubsOf_delPublishersByNode _).mp h).1
    case h_3 => split at h <;> exact .inl h
    case h_7 => exact .inl ((mem_pubsOf_delPublishersByProc _).mp h).1
    all_goals exact .inl h

end Dispatch

end Discovery
end RfTrans
