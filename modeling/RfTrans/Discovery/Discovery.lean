import RfTrans.Discovery.TopicStorage

/-!
# The discovery engine

`Discovery<Pub>` keeps the table of known publishers, its own among them, and
announces its own over UDP multicast.  A member function is a function from the
state of the instance to an `Outcome`: the new state, the callbacks it made and the
datagrams it handed to the sockets, in order.

## Main definitions

* `Discovery` — the state of an instance.
* `Discovery.advertise`, `unadvertise`, `discover` — the local interface.
* `Discovery.dispatchDiscoveryMsg` — the reaction to a datagram.
* `Discovery.updateHeartbeat`, `Discovery.updateActivity` — the periodic work.
-/

namespace RfTrans

open PubLike

/-- `kMaxRcvStr` -/
def kMaxRcvStr : ℕ := 65535

/-- `kWireVersion` -/
def kWireVersion : UInt32 := 0

/-- `Discovery<Pub>`. A callback is modelled by whether it is set. Clock readings are
nanoseconds, intervals milliseconds. -/
structure Discovery (π : Type) where
  processUuid : Str
  processName : Str := []
  hostAddr : Str
  silenceInterval : ℕ := 3000
  activityInterval : ℕ := 200
  heartbeatInterval : ℕ := 1000
  connectionCb : Bool := true
  disconnectionCb : Bool := true
  registrationCb : Bool := true
  unregistrationCb : Bool := true
  knownPublishers : TopicStorage π := {}
  lastSeenByProcess : StrMap ℕ := ∅
  timeNextHeartbeat : ℕ := 0
  timeNextActivity : ℕ := 0
  enabled : Bool := true

/-- A call of one of the four callbacks. -/
inductive Callback (π : Type)
  | connection (p : π)
  | disconnection (p : π)
  | registration (p : π)
  | unregistration (p : π)

/-- What a member function did. -/
structure Outcome (π : Type) where
  self : Discovery π
  calls : List (Callback π) := []
  sent : List Msgs.Discovery := []

namespace Discovery

variable {π : Type} [PubLike π]

/-- The message that `sendMsg` builds; an unexpected type is not sent. -/
def message {τ : Type} [Fills τ] (d : Discovery π) (type : Msgs.DiscoveryType) (x : τ) :
    Option Msgs.Discovery :=
  let m := Fills.fillDiscovery x
    { version := kWireVersion, type := type, processUuid := d.processUuid,
      processName := d.processName }
  match type with
  | .advertise | .unadvertise | .newConnection | .endConnection => some (Fills.fillDiscovery x m)
  | .subscribe => some (m.setSubTopic (Fills.getTopic x))
  | .heartbeat | .bye => some m
  | .uninitialized | .unrecognized _ => none

/-- `sendMulticast`: what is handed to `sendto`, nothing for a message that is too large.
What `sendto` refuses, such as more bytes than a UDP datagram carries, is not delivered. -/
def sendMulticast (m : Msgs.Discovery) : List Msgs.Discovery :=
  if m.byteSizeLong + 2 > kMaxRcvStr then [] else [m]

/-- `sendMsg` -/
def sendMsg {τ : Type} [Fills τ] (d : Discovery π) (type : Msgs.DiscoveryType) (x : τ) :
    List Msgs.Discovery :=
  ((d.message type x).map sendMulticast).getD []

/-- `advertise` -/
def advertise (d : Discovery π) (publisher : π) : Outcome π × Bool :=
  if d.enabled then
    let (known, added) := d.knownPublishers.addPublisher publisher
    let self := { d with knownPublishers := known }
    if added then
      ({ self := self
         calls := if d.connectionCb then [.connection publisher] else []
         sent := if scope publisher ≠ .process then d.sendMsg .advertise publisher else [] }, true)
    else ({ self := self }, false)
  else ({ self := d }, false)

/-- `unadvertise`: it announces the first publisher of the node and removes all. -/
def unadvertise (d : Discovery π) (topic nodeUuid : Str) : Outcome π × Bool :=
  if d.enabled then
    match d.knownPublishers.getPublisher topic d.processUuid nodeUuid with
    | none => ({ self := d }, true)
    | some publisher =>
      let (known, _) := d.knownPublishers.delPublishersByNode topic d.processUuid nodeUuid
      ({ self := { d with knownPublishers := known }
         sent := if scope publisher ≠ .process then d.sendMsg .unadvertise publisher else [] },
        true)
  else ({ self := d }, false)

/-- `discover` -/
def discover (d : Discovery π) (topic : Str) : Outcome π × Bool :=
  if d.enabled then
    let pub : π := setProcessUuid (setTopic default topic) d.processUuid
    let found := match d.knownPublishers.getPublishers topic with
      | some addresses => addresses.toList.flatMap fun (proc : Str × List π) => proc.2
      | none => []
    ({ self := d
       calls := if d.connectionCb then found.map .connection else []
       sent := d.sendMsg .subscribe pub }, true)
  else ({ self := d }, false)

/-- `registerNode` -/
def registerNode (d : Discovery π) (pub : MessagePublisherInfo) : List Msgs.Discovery :=
  d.sendMsg .newConnection pub

/-- `unRegisterNode` -/
def unRegisterNode (d : Discovery π) (pub : MessagePublisherInfo) : List Msgs.Discovery :=
  d.sendMsg .endConnection pub

/-- Whether the sender of a datagram is on this host. -/
def isSenderLocal (d : Discovery π) (fromIp : Str) : Bool :=
  fromIp = d.hostAddr || (str "127.").isPrefixOf fromIp

/-- A publisher that a peer must not know of. -/
def hidden (p : π) (isPeerLocal : Bool) : Bool :=
  scope p = .process || (scope p = .host && !isPeerLocal)

/-- The answer to a SUBSCRIBE: an ADVERTISE for each own publisher of the topic. -/
def answerSubscribe (d : Discovery π) (topic : Str) (isPeerLocal : Bool) : List Msgs.Discovery :=
  if d.knownPublishers.hasAnyPublishers topic d.processUuid then
    match d.knownPublishers.getPublishers topic with
    | none => []
    | some addresses =>
      ((addresses[d.processUuid]?).getD []).flatMap fun p =>
        if hidden p isPeerLocal then [] else d.sendMsg .advertise p
  else []

/-- `dispatchDiscoveryMsg`, at a reading of the clock. -/
def dispatchDiscoveryMsg (d : Discovery π) (fromIp : Str) (m : Msgs.Discovery) (now : ℕ) :
    Outcome π :=
  -- Our own datagrams come back to us.
  if m.processUuid = d.processUuid then { self := d } else
  let isPeerLocal := d.isSenderLocal fromIp
  let d := { d with lastSeenByProcess := d.lastSeenByProcess.insert m.processUuid now }
  let publisher : π := setFromDiscovery default m
  match m.type with
  | .advertise =>
    if hidden publisher isPeerLocal then { self := d } else
    let (known, added) := d.knownPublishers.addPublisher publisher
    { self := { d with knownPublishers := known }
      calls := if added && d.connectionCb then [.connection publisher] else [] }
  | .unadvertise =>
    if hidden publisher isPeerLocal then { self := d } else
    let (known, _) := d.knownPublishers.delPublishersByNode (topic publisher)
      (PubLike.processUuid publisher) (nodeUuid publisher)
    { self := { d with knownPublishers := known }
      calls := if d.disconnectionCb then [.disconnection publisher] else [] }
  | .subscribe =>
    match m.contents with
    | .sub topic => { self := d, sent := d.answerSubscribe topic isPeerLocal }
    | _ => { self := d }
  | .newConnection =>
    { self := d, calls := if d.registrationCb then [.registration publisher] else [] }
  | .endConnection =>
    { self := d, calls := if d.unregistrationCb then [.unregistration publisher] else [] }
  | .heartbeat => { self := d }
  | .bye =>
    let (known, _) := d.knownPublishers.delPublishersByProc m.processUuid
    { self :=
        { d with
          lastSeenByProcess := d.lastSeenByProcess.erase m.processUuid
          knownPublishers := known }
      calls :=
        if d.disconnectionCb then [.disconnection (setProcessUuid default m.processUuid)] else [] }
  | .uninitialized | .unrecognized _ => { self := d }

/-- The HEARTBEAT datagram. -/
def sendHeartbeat (d : Discovery π) : List Msgs.Discovery :=
  d.sendMsg .heartbeat (PublisherInfo.make [] [] d.processUuid [] {})

/-- The ADVERTISE datagrams that follow it. -/
def readvertise (d : Discovery π) : List Msgs.Discovery :=
  (d.knownPublishers.getPublishersByProc d.processUuid).toList.flatMap fun node =>
    node.2.flatMap fun p => if scope p ≠ .process then d.sendMsg .advertise p else []

/-- `updateHeartbeat`, with the readings of the clock at its start and its end. -/
def updateHeartbeat (d : Discovery π) (now later : ℕ) : Outcome π :=
  if now < d.timeNextHeartbeat then { self := d }
  else
    { self := { d with timeNextHeartbeat := later + d.heartbeatInterval * 1000000 }
      sent := d.sendHeartbeat ++ d.readvertise }

/-- Whether a process last seen at the given time is silent for too long. -/
def expired (d : Discovery π) (now seen : ℕ) : Bool :=
  d.silenceInterval < (now - seen) / 1000000

/-- The processes that `updateActivity` gives up. -/
def expiredProcesses (d : Discovery π) (now : ℕ) : List Str :=
  (d.lastSeenByProcess.toList.filter fun x => d.expired now x.2).map (·.1)

/-- `updateActivity`, with the readings of the clock at its start and its end. -/
def updateActivity (d : Discovery π) (now later : ℕ) : Outcome π :=
  if now < d.timeNextActivity then { self := d }
  else
    let gone := d.expiredProcesses now
    { self :=
        { d with
          knownPublishers := gone.foldl (fun st uuid => (st.delPublishersByProc uuid).1)
            d.knownPublishers
          lastSeenByProcess := d.lastSeenByProcess.filter fun _ seen => !d.expired now seen
          timeNextActivity := later + d.activityInterval * 1000000 }
      calls :=
        if d.disconnectionCb then gone.map fun uuid => .disconnection (setProcessUuid default uuid)
        else [] }

/-! ## What the table accesses change -/

variable (d : Discovery π)

theorem self_advertise (p : π) (h : d.enabled = true) :
    (d.advertise p).1.self =
      { d with knownPublishers := (d.knownPublishers.addPublisher p).1 } := by
  simp only [advertise, if_pos h]
  by_cases hadd : (d.knownPublishers.addPublisher p).2 = true
  · simp only [if_pos hadd]
  · simp only [if_neg hadd]

theorem self_unadvertise (topic nodeUuid : Str) (h : d.enabled = true) :
    (d.unadvertise topic nodeUuid).1.self =
      { d with
        knownPublishers :=
          match d.knownPublishers.getPublisher topic d.processUuid nodeUuid with
          | none => d.knownPublishers
          | some _ =>
            (d.knownPublishers.delPublishersByNode topic d.processUuid nodeUuid).1 } := by
  simp only [unadvertise, if_pos h]
  cases d.knownPublishers.getPublisher topic d.processUuid nodeUuid with
  | none => rfl
  | some p => rfl

theorem self_discover (topic : Str) : (d.discover topic).1.self = d := by
  simp only [discover]
  split <;> rfl

/-- A heartbeat sets its own clock only. -/
theorem self_updateHeartbeat (now later : ℕ) :
    (d.updateHeartbeat now later).self =
      { d with
        timeNextHeartbeat := if now < d.timeNextHeartbeat then d.timeNextHeartbeat
          else later + d.heartbeatInterval * 1000000 } := by
  by_cases h : now < d.timeNextHeartbeat
  · rw [updateHeartbeat, if_pos h, if_pos h]
  · rw [updateHeartbeat, if_neg h, if_neg h]

/-- A datagram changes the table and the times at which processes were seen. -/
theorem self_dispatch (fromIp : Str) (m : Msgs.Discovery) (now : ℕ) :
    ∃ known seen, (d.dispatchDiscoveryMsg fromIp m now).self =
      { d with knownPublishers := known, lastSeenByProcess := seen } := by
  simp only [dispatchDiscoveryMsg]
  split
  case isTrue => exact ⟨_, _, rfl⟩
  case isFalse =>
    split
    case h_1 => split <;> exact ⟨_, _, rfl⟩
    case h_2 => split <;> exact ⟨_, _, rfl⟩
    case h_3 => split <;> exact ⟨_, _, rfl⟩
    all_goals exact ⟨_, _, rfl⟩

/-- The table changes in one of the ways of a well-formed table. -/
theorem edited_dispatch (fromIp : Str) (m : Msgs.Discovery) (now : ℕ) :
    TopicStorage.Edited d.knownPublishers
      (d.dispatchDiscoveryMsg fromIp m now).self.knownPublishers := by
  simp only [dispatchDiscoveryMsg]
  split
  case isTrue => exact .same
  case isFalse =>
    split
    case h_1 =>
      split
      case isTrue => exact .same
      case isFalse => exact .added _
    case h_2 =>
      split
      case isTrue => exact .same
      case isFalse => exact .removedNode _ _ _
    case h_3 => split <;> exact .same
    case h_7 => exact .removedProcs [m.processUuid]
    all_goals exact .same

/-- The sender of a datagram is noted, and forgotten again when it leaves. -/
theorem lastSeen_dispatch {fromIp : Str} {m : Msgs.Discovery} {now : ℕ}
    (hne : m.processUuid ≠ d.processUuid) :
    (d.dispatchDiscoveryMsg fromIp m now).self.lastSeenByProcess =
      if m.type = .bye then (d.lastSeenByProcess.insert m.processUuid now).erase m.processUuid
      else d.lastSeenByProcess.insert m.processUuid now := by
  by_cases hbye : m.type = .bye
  · simp only [dispatchDiscoveryMsg, if_neg hne, hbye, if_true]
  · rw [if_neg hbye]
    simp only [dispatchDiscoveryMsg, if_neg hne]
    split
    case h_1 => split <;> rfl
    case h_2 => split <;> rfl
    case h_3 => split <;> rfl
    case h_7 ht => exact absurd ht hbye
    all_goals rfl

/-- The processes that are watched after a datagram. -/
theorem mem_lastSeen_dispatch (fromIp : Str) (m : Msgs.Discovery) (now : ℕ) (q : Str) :
    q ∈ (d.dispatchDiscoveryMsg fromIp m now).self.lastSeenByProcess ↔
      (q ∈ d.lastSeenByProcess ∧
        ¬ (m.processUuid ≠ d.processUuid ∧ m.type = .bye ∧ q = m.processUuid)) ∨
      (m.processUuid ≠ d.processUuid ∧ m.type ≠ .bye ∧ q = m.processUuid) := by
  by_cases hne : m.processUuid = d.processUuid
  · rw [dispatchDiscoveryMsg, if_pos hne]
    simp [hne]
  have hinsert : q ∈ d.lastSeenByProcess.insert m.processUuid now ↔
      q = m.processUuid ∨ q ∈ d.lastSeenByProcess := by
    rw [Std.ExtTreeMap.mem_insert, Std.LawfulEqCmp.compare_eq_iff_eq, eq_comm]
  rw [d.lastSeen_dispatch hne]
  by_cases hbye : m.type = .bye
  · rw [if_pos hbye, Std.ExtTreeMap.mem_erase, hinsert]
    have hcmp : compare m.processUuid q ≠ .eq ↔ q ≠ m.processUuid := by
      rw [ne_eq, Std.LawfulEqCmp.compare_eq_iff_eq, eq_comm]
    rw [hcmp]
    by_cases hq : q = m.processUuid
    · simp [hq, hne, hbye]
    · simp [hq, hbye]
  · rw [if_neg hbye, hinsert]
    simp [hne, hbye, or_comm]

omit [PubLike π] in
theorem mem_expiredProcesses {now : ℕ} {q : Str} : q ∈ d.expiredProcesses now ↔
    ∃ seen, d.lastSeenByProcess[q]? = some seen ∧ d.expired now seen = true := by
  simp only [expiredProcesses, List.mem_map, List.mem_filter]
  constructor
  · rintro ⟨⟨uuid, seen⟩, ⟨hmem, hexp⟩, rfl⟩
    exact ⟨seen, Std.ExtTreeMap.mem_toList_iff_getElem?_eq_some.mp hmem, hexp⟩
  · intro h
    obtain ⟨seen, hget, hexp⟩ := h
    exact ⟨(q, seen), ⟨Std.ExtTreeMap.mem_toList_iff_getElem?_eq_some.mpr hget, hexp⟩, rfl⟩

/-- The processes that are watched after an activity tick. -/
theorem mem_lastSeen_activity (now later : ℕ) (q : Str) :
    q ∈ (d.updateActivity now later).self.lastSeenByProcess ↔ q ∈ d.lastSeenByProcess ∧
      ¬ (¬ now < d.timeNextActivity ∧ q ∈ d.expiredProcesses now) := by
  by_cases hdue : now < d.timeNextActivity
  · rw [updateActivity, if_pos hdue]
    simp [hdue]
  · rw [updateActivity, if_neg hdue]
    rw [mem_expiredProcesses, and_iff_right hdue, ← Std.ExtTreeMap.isSome_getElem?_iff_mem,
      ← Std.ExtTreeMap.isSome_getElem?_iff_mem, Std.ExtTreeMap.getElem?_filter']
    cases d.lastSeenByProcess[q]? with
    | none => simp
    | some seen => cases hexp : d.expired now seen <;> simp [hexp]

end Discovery
end RfTrans
