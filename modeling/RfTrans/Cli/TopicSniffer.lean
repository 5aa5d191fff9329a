import RfTrans.Discovery.Discovery
import RfTrans.Lib.Exec

/-!
# Stopping a sniffer

A `TopicSniffer` listens to the discovery traffic with an instance of its own and
connects to every publisher of its topic.  The discovery thread copies the connection
callback under `Discovery::mutex_` and calls it afterwards; the callback takes
`publishers_mutex_` twice.  `stop` clears the callback, takes `publishers_mutex_` and
joins the discovery thread while it holds it.

## Main definitions

* `TopicSniffer` — the sniffer with where its threads are.
* `TopicSniffer.next` — one step of one of the threads.
* `TopicSniffer.Deadlocked` — `stop` and the discovery thread wait for each other.
* `TopicSniffer.never_deadlocked` — when that is excluded, and that it is reached
  otherwise.
-/

namespace RfTrans

open Exec

/-- Where the discovery thread is. -/
inductive Listener
  /-- At the head of `Discovery::loop`. -/
  | top
  | polling
  /-- Past the datagram, before `updateHeartbeat`. -/
  | updating
  /-- The callback has been copied; `cb` says whether it is set. -/
  | copied (pub : MessagePublisherInfo) (isPeerLocal cb : Bool)
  /-- The callback is called. -/
  | found (pub : MessagePublisherInfo)
  /-- It waits for `publishers_mutex_`, to look the address up. -/
  | locking (pub : MessagePublisherInfo)
  | checking (pub : MessagePublisherInfo)
  | connecting (pub : MessagePublisherInfo)
  | registering (pub : MessagePublisherInfo)
  /-- It waits for `publishers_mutex_`, to note the registration. -/
  | recording (registration : MessagePublisherInfo)
  | pushing (registration : MessagePublisherInfo)
  | exited
  deriving DecidableEq

/-- Where the thread that calls `stop` is. -/
inductive Stopper
  | idle
  | exiting
  /-- It joins the receive thread. -/
  | joiningReceiver
  | clearing
  /-- It waits for `publishers_mutex_`. -/
  | locking
  | unregistering
  | stoppingDiscovery
  /-- It joins the discovery thread. -/
  | joiningDiscovery
  | done
  deriving DecidableEq

/-- Who has `publishers_mutex_`. -/
inductive MutexOwner
  | listener
  | stopper
  deriving DecidableEq

/-- `TopicSniffer::Impl` -/
structure TopicSniffer where
  topic : Str
  nodeUuid : Str
  discovery : Discovery MessagePublisherInfo
  /-- `exit_` of the discovery instance. -/
  discoveryExit : Bool := false
  started : Bool := true
  exit : Bool := false
  publishersMutex : Option MutexOwner := none
  connectedAddresses : List Str := []
  registrations : List MessagePublisherInfo := []
  /-- The receive thread has not left its loop. -/
  receiving : Bool := true
  listener : Listener := .top
  stopper : Stopper := .idle

namespace TopicSniffer

/-- The steps of the threads. -/
inductive Action
  /-- The condition of `Discovery::loop`. -/
  | checkExit
  /-- A poll without a datagram. -/
  | timeout
  /-- `updateHeartbeat` and `updateActivity`. -/
  | tick (now later : ℕ)
  | recv (fromIp : Str) (m : Msgs.Discovery) (now : ℕ)
  /-- The table takes the publisher. -/
  | insert
  /-- The topic test of `onPublisherFound`. -/
  | testTopic
  | lockForCheck
  | check
  | connect (ok : Bool)
  | register
  | lockForRecord
  | push
  /-- The receive thread leaves its loop. -/
  | receiverExits
  /-- `stop` is called. -/
  | stop
  | setExit
  | joinReceiver
  | clearCallback
  | lock
  | unregisterAll
  | stopDiscovery
  | joinDiscovery
  deriving DecidableEq

/-- The record that `onPublisherFound` registers with. -/
def registration (s : TopicSniffer) (pub : MessagePublisherInfo) : MessagePublisherInfo :=
  MessagePublisherInfo.make s.topic [] pub.processUuid s.discovery.processUuid s.nodeUuid
    kGenericMessageType {}

/-- A step of the discovery thread. -/
def listen (s : TopicSniffer) : Action → Option TopicSniffer
  | .checkExit =>
    match s.listener with
    | .top => some { s with listener := if s.discoveryExit then .exited else .polling }
    | _ => none
  | .timeout =>
    match s.listener with
    | .polling => some { s with listener := .updating }
    | _ => none
  | .tick now later =>
    match s.listener with
    | .updating =>
      let d := (s.discovery.updateHeartbeat now later).self
      some { s with listener := .top, discovery := (d.updateActivity now later).self }
    | _ => none
  | .recv fromIp m now =>
    match s.listener with
    | .polling =>
      if m.processUuid ≠ s.discovery.processUuid ∧ m.type = .advertise then
        let seen := s.discovery.lastSeenByProcess.insert m.processUuid now
        some { s with
          discovery := { s.discovery with lastSeenByProcess := seen }
          listener := .copied (PubLike.setFromDiscovery PubLike.default m)
            (s.discovery.isSenderLocal fromIp) s.discovery.connectionCb }
      else
        -- No other callback is set.
        let o := s.discovery.dispatchDiscoveryMsg fromIp m now
        some { s with listener := .updating, discovery := o.self }
    | _ => none
  | .insert =>
    match s.listener with
    | .copied pub isPeerLocal cb =>
      if Discovery.hidden pub isPeerLocal then some { s with listener := .updating }
      else
        let (known, added) := s.discovery.knownPublishers.addPublisher pub
        some { s with
          discovery := { s.discovery with knownPublishers := known }
          listener := if added && cb then .found pub else .updating }
    | _ => none
  | .testTopic =>
    match s.listener with
    | .found pub =>
      some { s with listener := if pub.topic ≠ s.topic then .updating else .locking pub }
    | _ => none
  | .lockForCheck =>
    match s.listener, s.publishersMutex with
    | .locking pub, none =>
      some { s with listener := .checking pub, publishersMutex := some .listener }
    | _, _ => none
  | .check =>
    match s.listener with
    | .checking pub =>
      if pub.addr ∈ s.connectedAddresses then
        some { s with listener := .updating, publishersMutex := none }
      else
        some { s with
          listener := .connecting pub
          publishersMutex := none
          connectedAddresses := pub.addr :: s.connectedAddresses }
    | _ => none
  | .connect ok =>
    match s.listener with
    | .connecting pub => some { s with listener := if ok then .registering pub else .updating }
    | _ => none
  | .register =>
    match s.listener with
    | .registering pub => some { s with listener := .recording (s.registration pub) }
    | _ => none
  | .lockForRecord =>
    match s.listener, s.publishersMutex with
    | .recording r, none =>
      some { s with listener := .pushing r, publishersMutex := some .listener }
    | _, _ => none
  | .push =>
    match s.listener with
    | .pushing r =>
      some { s with
        listener := .updating
        publishersMutex := none
        registrations := s.registrations ++ [r] }
    | _ => none
  | _ => none

/-- A step of the thread in `stop`, or of the receive thread. -/
def halt (s : TopicSniffer) : Action → Option TopicSniffer
  | .receiverExits =>
    if s.receiving ∧ s.exit then some { s with receiving := false } else none
  | .stop =>
    match s.stopper with
    | .idle =>
      if s.started then some { s with started := false, stopper := .exiting } else some s
    | _ => none
  | .setExit =>
    match s.stopper with
    | .exiting => some { s with exit := true, stopper := .joiningReceiver }
    | _ => none
  | .joinReceiver =>
    match s.stopper, s.receiving with
    | .joiningReceiver, false => some { s with stopper := .clearing }
    | _, _ => none
  | .clearCallback =>
    match s.stopper with
    | .clearing =>
      some { s with discovery := { s.discovery with connectionCb := false }, stopper := .locking }
    | _ => none
  | .lock =>
    match s.stopper, s.publishersMutex with
    | .locking, none => some { s with stopper := .unregistering, publishersMutex := some .stopper }
    | _, _ => none
  | .unregisterAll =>
    match s.stopper with
    | .unregistering =>
      some { s with stopper := .stoppingDiscovery, registrations := [], connectedAddresses := [] }
    | _ => none
  | .stopDiscovery =>
    match s.stopper with
    | .stoppingDiscovery =>
      some { s with
        stopper := .joiningDiscovery
        discoveryExit := true
        discovery := { s.discovery with enabled := false } }
    | _ => none
  | .joinDiscovery =>
    match s.stopper, s.listener with
    | .joiningDiscovery, .exited => some { s with stopper := .done, publishersMutex := none }
    | _, _ => none
  | _ => none

/-- One step of one of the threads. -/
def next (s : TopicSniffer) (a : Action) : Option TopicSniffer := s.listen a <|> s.halt a

/-- The discovery thread waits for `publishers_mutex_`. -/
def Waits (s : TopicSniffer) : Prop :=
  match s.listener with
  | .locking _ | .recording _ => True
  | .top | .polling | .updating | .copied _ _ _ | .found _ | .checking _ | .connecting _
  | .registering _ | .pushing _ | .exited => False

instance (s : TopicSniffer) : Decidable s.Waits :=
  match h : s.listener with
  | .locking _ | .recording _ => isTrue (by simp [Waits, h])
  | .top | .polling | .updating | .copied _ _ _ | .found _ | .checking _ | .connecting _
  | .registering _ | .pushing _ | .exited => isFalse (by simp [Waits, h])

/-- `stop` waits for the discovery thread, which waits for the mutex that `stop` has. -/
def Deadlocked (s : TopicSniffer) : Prop :=
  s.stopper = .joiningDiscovery ∧ s.publishersMutex = some .stopper ∧ s.Waits

instance (s : TopicSniffer) : Decidable s.Deadlocked := inferInstanceAs (Decidable (_ ∧ _ ∧ _))

/-- The discovery thread has a callback in hand that still comes to `publishers_mutex_`. -/
def Underway (s : TopicSniffer) : Prop :=
  match s.listener with
  | .copied pub isPeerLocal cb => cb = true ∧ Discovery.hidden pub isPeerLocal = false ∧
      (s.discovery.knownPublishers.addPublisher pub).2 = true ∧ pub.topic = s.topic
  | .found pub => pub.topic = s.topic
  | .locking _ | .connecting _ | .registering _ | .recording _ => True
  | .top | .polling | .updating | .checking _ | .pushing _ | .exited => False

instance (s : TopicSniffer) : Decidable s.Underway :=
  match h : s.listener with
  | .copied pub isPeerLocal cb =>
    decidable_of_iff (cb = true ∧ Discovery.hidden pub isPeerLocal = false ∧
      (s.discovery.knownPublishers.addPublisher pub).2 = true ∧ pub.topic = s.topic)
      (by simp [Underway, h])
  | .found pub => decidable_of_iff (pub.topic = s.topic) (by simp [Underway, h])
  | .locking _ | .connecting _ | .registering _ | .recording _ => isTrue (by simp [Underway, h])
  | .top | .polling | .updating | .checking _ | .pushing _ | .exited =>
    isFalse (by simp [Underway, h])

/-- The guard: `stop` takes the mutex only while no callback is underway. -/
def Settled (s : TopicSniffer) (a : Action) : Prop := a = .lock → ¬ s.Underway

instance (s : TopicSniffer) (a : Action) : Decidable (s.Settled a) :=
  inferInstanceAs (Decidable (_ → _))

/-- A sniffer after `start`. -/
def init (topic nodeUuid : Str) (discovery : Discovery MessagePublisherInfo) : TopicSniffer :=
  { topic := topic, nodeUuid := nodeUuid, discovery := discovery }

/-! ## The invariant -/

/-- The discovery thread is between a lock and an unlock of `publishers_mutex_`. -/
def Inside (s : TopicSniffer) : Prop :=
  match s.listener with
  | .checking _ | .pushing _ => True
  | _ => False

/-- `stop` is between its lock and its unlock. -/
def Stopper.Holds : Stopper → Prop
  | .unregistering | .stoppingDiscovery | .joiningDiscovery => True
  | _ => False

/-- What holds between the steps. -/
structure Inv (s : TopicSniffer) : Prop where
  inside : s.Inside → s.publishersMutex = some .listener
  cleared : s.stopper = .locking → s.discovery.connectionCb = false
  held : Stopper.Holds s.stopper → s.publishersMutex = some .stopper ∧
    s.discovery.connectionCb = false ∧ ¬ s.Underway

variable {s t : TopicSniffer} {a : Action}

/-- What a step of the discovery thread leaves alone, and that it does not come to the
mutex with a callback that was not underway. -/
structure Listened (s t : TopicSniffer) : Prop where
  stopper : t.stopper = s.stopper
  connectionCb : t.discovery.connectionCb = s.discovery.connectionCb
  inside : t.Inside → t.publishersMutex = some .listener
  owner : s.publishersMutex = some .stopper → ¬ s.Inside →
    t.publishersMutex = some .stopper
  underway : s.publishersMutex = some .stopper → ¬ s.Inside →
    s.discovery.connectionCb = false → ¬ s.Underway → ¬ t.Underway

/-- A step that leaves the mutex alone and has nothing underway afterwards. -/
theorem Listened.calm (hstopper : t.stopper = s.stopper)
    (hcb : t.discovery.connectionCb = s.discovery.connectionCb)
    (hmutex : t.publishersMutex = s.publishersMutex) (hinside : ¬ t.Inside)
    (hunder : s.discovery.connectionCb = false → ¬ s.Underway → ¬ t.Underway) :
    Listened s t where
  stopper := hstopper
  connectionCb := hcb
  inside h := absurd h hinside
  owner h _ := hmutex.trans h
  underway _ _ := hunder

/-- **A step of the discovery thread.** -/
theorem listened (h : s.listen a = some t) : Listened s t := by
  cases a with
  | checkExit =>
      simp only [listen] at h
      split at h
      case h_1 =>
        obtain rfl := Option.some.inj h
        by_cases hexit : s.discoveryExit = true
        · refine Listened.calm rfl rfl rfl ?_ fun _ _ => ?_
          · simp [Inside, hexit]
          · simp [Underway, hexit]
        · refine Listened.calm rfl rfl rfl ?_ fun _ _ => ?_
          · simp [Inside, hexit]
          · simp [Underway, hexit]
      case h_2 => cases h
  | timeout =>
      simp only [listen] at h
      split at h
      case h_1 =>
        obtain rfl := Option.some.inj h
        exact Listened.calm rfl rfl rfl id fun _ _ => id
      case h_2 => cases h
  | tick now later =>
      simp only [listen] at h
      split at h
      case h_1 =>
        obtain rfl := Option.some.inj h
        refine Listened.calm rfl ?_ rfl id fun _ _ => id
        simp only [Discovery.updateActivity, Discovery.self_updateHeartbeat]
        split <;> rfl
      case h_2 => cases h
  | recv fromIp m now =>
      simp only [listen] at h
      split at h
      case h_1 =>
        split at h
        case isTrue =>
          obtain rfl := Option.some.inj h
          refine Listened.calm rfl rfl rfl id fun hcb _ hunder => ?_
          -- the copy is empty once the callback is cleared
          have htrue : s.discovery.connectionCb = true := hunder.1
          rw [hcb] at htrue
          cases htrue
        case isFalse =>
          obtain rfl := Option.some.inj h
          obtain ⟨known, seen, hself⟩ := s.discovery.self_dispatch fromIp m now
          refine Listened.calm rfl ?_ rfl id fun _ _ => id
          rw [hself]
      case h_2 => cases h
  | insert =>
      simp only [listen] at h
      split at h
      case h_1 pub isPeerLocal cb hl =>
        by_cases hhid : Discovery.hidden pub isPeerLocal = true
        · rw [if_pos hhid] at h
          obtain rfl := Option.some.inj h
          exact Listened.calm rfl rfl rfl id fun _ _ => id
        · rw [if_neg hhid] at h
          obtain rfl := Option.some.inj h
          by_cases hadd : ((s.discovery.knownPublishers.addPublisher pub).2 && cb) = true
          · refine Listened.calm rfl rfl rfl ?_ fun _ hs ht => hs ?_
            · simp [Inside, hadd]
            · rw [Bool.and_eq_true] at hadd
              simp only [Underway, hadd, Bool.and_self, if_true] at ht
              simp only [Underway, hl]
              exact ⟨hadd.2, by simpa using hhid, hadd.1, ht⟩
          · refine Listened.calm rfl rfl rfl ?_ fun _ _ => ?_
            · simp [Inside, hadd]
            · simp [Underway, hadd]
      case h_2 => cases h
  | testTopic =>
      simp only [listen] at h
      split at h
      case h_1 pub hl =>
        obtain rfl := Option.some.inj h
        by_cases htopic : pub.topic = s.topic
        · refine Listened.calm rfl rfl rfl ?_ fun _ hs => absurd ?_ hs
          · simp [Inside, htopic]
          · simpa only [Underway, hl] using htopic
        · refine Listened.calm rfl rfl rfl ?_ fun _ _ => ?_
          · simp [Inside, htopic]
          · simp [Underway, htopic]
      case h_2 => cases h
  | lockForCheck =>
      simp only [listen] at h
      split at h
      case h_1 pub hl hm =>
        obtain rfl := Option.some.inj h
        refine ⟨rfl, rfl, fun _ => rfl, ?_, ?_⟩
        · intro howner
          rw [hm] at howner
          cases howner
        · intro howner
          rw [hm] at howner
          cases howner
      case h_2 => cases h
  | check =>
      simp only [listen] at h
      split at h
      case h_1 pub hl =>
        have hin : s.Inside := by simp only [Inside, hl]
        split at h
        case isTrue =>
          obtain rfl := Option.some.inj h
          exact ⟨rfl, rfl, (fun h => by cases h), fun _ hs => absurd hin hs,
          fun _ hs => absurd hin hs⟩
        case isFalse =>
          obtain rfl := Option.some.inj h
          exact ⟨rfl, rfl, (fun h => by cases h), fun _ hs => absurd hin hs,
          fun _ hs => absurd hin hs⟩
      case h_2 => cases h
  | connect ok =>
      simp only [listen] at h
      split at h
      case h_1 pub hl =>
        obtain rfl := Option.some.inj h
        refine Listened.calm rfl rfl rfl ?_ fun _ hs => absurd ?_ hs
        · cases ok <;> exact id
        · simp only [Underway, hl]
      case h_2 => cases h
  | register =>
      simp only [listen] at h
      split at h
      case h_1 pub hl =>
        obtain rfl := Option.some.inj h
        refine Listened.calm rfl rfl rfl id fun _ hs => absurd ?_ hs
        simp only [Underway, hl]
      case h_2 => cases h
  | lockForRecord =>
      simp only [listen] at h
      split at h
      case h_1 pub hl hm =>
        obtain rfl := Option.some.inj h
        refine ⟨rfl, rfl, fun _ => rfl, ?_, ?_⟩
        · intro howner
          rw [hm] at howner
          cases howner
        · intro howner
          rw [hm] at howner
          cases howner
      case h_2 => cases h
  | push =>
      simp only [listen] at h
      split at h
      case h_1 r hl =>
        obtain rfl := Option.some.inj h
        have hin : s.Inside := by simp only [Inside, hl]
        exact ⟨rfl, rfl, (fun h => by cases h), fun _ hs => absurd hin hs,
          fun _ hs => absurd hin hs⟩
      case h_2 => cases h
  | _ => cases h

theorem Inv.listen (hi : s.Inv) (h : s.listen a = some t) : t.Inv := by
  have hl := listened h
  refine ⟨hl.inside, ?_, ?_⟩
  · rw [hl.stopper, hl.connectionCb]
    exact hi.cleared
  · rw [hl.stopper, hl.connectionCb]
    intro hholds
    obtain ⟨hmutex, hcb, hunder⟩ := hi.held hholds
    have hout : ¬ s.Inside := by
      intro hin
      have hm := (hi.inside hin).symm.trans hmutex
      cases hm
    exact ⟨hl.owner hmutex hout, hcb, hl.underway hmutex hout hcb hunder⟩

/-- **A step of `stop` or of the receive thread.** -/
theorem Inv.halt (hi : s.Inv) (hg : s.Settled a) (h : s.halt a = some t) : t.Inv := by
  cases a with
  | receiverExits =>
      simp only [TopicSniffer.halt] at h
      split at h
      case isTrue =>
        obtain rfl := Option.some.inj h
        exact ⟨hi.inside, hi.cleared, hi.held⟩
      case isFalse => cases h
  | stop =>
      simp only [TopicSniffer.halt] at h
      split at h
      case h_1 hs =>
        split at h
        case isTrue =>
          obtain rfl := Option.some.inj h
          exact ⟨hi.inside, nofun, False.elim⟩
        case isFalse =>
          obtain rfl := Option.some.inj h
          exact hi
      case h_2 => cases h
  | setExit =>
      simp only [TopicSniffer.halt] at h
      split at h
      case h_1 =>
        obtain rfl := Option.some.inj h
        exact ⟨hi.inside, nofun, False.elim⟩
      case h_2 => cases h
  | joinReceiver =>
      simp only [TopicSniffer.halt] at h
      split at h
      case h_1 =>
        obtain rfl := Option.some.inj h
        exact ⟨hi.inside, nofun, False.elim⟩
      case h_2 => cases h
  | clearCallback =>
      simp only [TopicSniffer.halt] at h
      split at h
      case h_1 =>
        obtain rfl := Option.some.inj h
        exact ⟨hi.inside, fun _ => rfl, False.elim⟩
      case h_2 => cases h
  | lock =>
      simp only [TopicSniffer.halt] at h
      split at h
      case h_1 hs hm =>
        obtain rfl := Option.some.inj h
        refine ⟨fun hin => ?_, nofun, fun _ => ⟨rfl, hi.cleared hs, hg rfl⟩⟩
        have hm' := (hi.inside hin).symm.trans hm
        cases hm'
      case h_2 => cases h
  | unregisterAll =>
      simp only [TopicSniffer.halt] at h
      split at h
      case h_1 hs =>
        obtain rfl := Option.some.inj h
        exact ⟨hi.inside, nofun, fun _ => hi.held (by rw [hs]; trivial)⟩
      case h_2 => cases h
  | stopDiscovery =>
      simp only [TopicSniffer.halt] at h
      split at h
      case h_1 hs =>
        obtain rfl := Option.some.inj h
        exact ⟨hi.inside, nofun, fun _ => hi.held (by rw [hs]; trivial)⟩
      case h_2 => cases h
  | joinDiscovery =>
      simp only [TopicSniffer.halt] at h
      split at h
      case h_1 hs hl =>
        obtain rfl := Option.some.inj h
        refine ⟨fun hin => ?_, nofun, False.elim⟩
        simp only [Inside, hl] at hin
      case h_2 => cases h
  | _ => cases h

theorem Inv.step (hi : s.Inv) (hg : s.Settled a) (h : next s a = some t) : t.Inv := by
  simp only [next] at h
  cases hl : s.listen a with
  | some u =>
      rw [hl] at h
      obtain rfl := Option.some.inj h
      exact hi.listen hl
  | none =>
      rw [hl] at h
      exact hi.halt hg h

theorem Inv.not_deadlocked (hi : s.Inv) : ¬ s.Deadlocked := by
  rintro ⟨hs, -, hl⟩
  refine (hi.held (by rw [hs]; trivial)).2.2 ?_
  simp only [Waits] at hl
  simp only [Underway]
  split at hl
  case h_1 h => simp only [h]
  case h_2 h => simp only [h]
  all_goals exact hl.elim

theorem inv_init (topic nodeUuid : Str) (d : Discovery MessagePublisherInfo) :
    (init topic nodeUuid d).Inv := ⟨False.elim, nofun, False.elim⟩

/-! ## The window -/

/-- The steps with which the discovery thread comes to the mutex. -/
def approach (s : TopicSniffer) : List Action :=
  match s.listener with
  | .copied _ _ _ => [.insert, .testTopic]
  | .found _ => [.testTopic]
  | .connecting _ => [.connect true, .register]
  | .registering _ => [.register]
  | _ => []

/-- A callback that is underway comes to the mutex by itself. -/
theorem waits_of_underway (hunder : s.Underway) :
    ∃ u, exec next s s.approach = some u ∧ u.Waits ∧ u.stopper = s.stopper ∧
      u.publishersMutex = s.publishersMutex := by
  cases hl : s.listener with
  | copied pub isPeerLocal cb =>
      simp only [Underway, hl] at hunder
      obtain ⟨rfl, hhid, hadd, htopic⟩ := hunder
      simp [approach, next, listen, hl, hhid, hadd, htopic, Waits]
  | found pub =>
      simp only [Underway, hl] at hunder
      simp [approach, next, listen, hl, hunder, Waits]
  | locking pub => exact ⟨s, by simp [approach, hl], by simp [Waits, hl], rfl, rfl⟩
  | connecting pub => simp [approach, next, listen, hl, Waits]
  | registering pub => simp [approach, next, listen, hl, Waits]
  | recording r => exact ⟨s, by simp [approach, hl], by simp [Waits, hl], rfl, rfl⟩
  | top => simp only [Underway, hl] at hunder
  | polling => simp only [Underway, hl] at hunder
  | updating => simp only [Underway, hl] at hunder
  | checking pub => simp only [Underway, hl] at hunder
  | pushing r => simp only [Underway, hl] at hunder
  | exited => simp only [Underway, hl] at hunder

/-- `stop` goes on to join the discovery thread. -/
theorem deadlock_of_waits (hs : s.stopper = .unregistering)
    (hm : s.publishersMutex = some .stopper) (hw : s.Waits) :
    ∃ u, exec next s [.unregisterAll, .stopDiscovery] = some u ∧ u.Deadlocked := by
  have hexec : exec next s [.unregisterAll, .stopDiscovery] =
      some { s with
        registrations := []
        connectedAddresses := []
        stopper := .joiningDiscovery
        discoveryExit := true
        discovery := { s.discovery with enabled := false } } := by
    simp [next, listen, halt, hs]
  exact ⟨_, hexec, rfl, hm, hw⟩

/-- A callback that is underway when `stop` takes the mutex comes to wait for it. -/
theorem deadlock_of_underway (hunder : s.Underway) (h : next s .lock = some t) :
    ∃ u, exec next t (t.approach ++ [.unregisterAll, .stopDiscovery]) = some u ∧
      u.Deadlocked := by
  have hlock : s.halt .lock = some t := h
  simp only [halt] at hlock
  split at hlock
  case h_1 hs hm =>
    obtain rfl := Option.some.inj hlock
    have hunder' : Underway
        { s with stopper := .unregistering, publishersMutex := some .stopper } := hunder
    obtain ⟨u, hu, hw, hstopper, hmutex⟩ := waits_of_underway hunder'
    obtain ⟨v, hv, hdead⟩ := deadlock_of_waits hstopper hmutex hw
    exact ⟨v, exec_trans hu hv, hdead⟩
  case h_2 => cases hlock

/-- **Stopping a sniffer does not deadlock** in a run in which `stop` takes the mutex
only while no callback is underway; where one is, the deadlock can be reached from there. -/
theorem never_deadlocked (topic nodeUuid : Str) (d : Discovery MessagePublisherInfo) :
    (∀ run, Guarded next Settled (init topic nodeUuid d) run →
      Always next (fun s => ¬ s.Deadlocked) (init topic nodeUuid d) run) ∧
    ∀ run s t, exec next (init topic nodeUuid d) run = some s → s.Underway →
      next s .lock = some t →
      ∃ run' u, exec next (init topic nodeUuid d) (run ++ .lock :: run') = some u ∧
        u.Deadlocked := by
  refine ⟨fun run hrun => ?_, fun run s t hs hg ht => ?_⟩
  · exact always_of_invariant (fun s a t hi hg h => hi.step hg h)
      (fun s hi => hi.not_deadlocked) (inv_init topic nodeUuid d) hrun
  · obtain ⟨u, hu, hdead⟩ := deadlock_of_underway hg ht
    refine ⟨t.approach ++ [.unregisterAll, .stopDiscovery], u, ?_, hdead⟩
    refine exec_trans hs ?_
    rw [exec_cons, ht, Option.bind_some]
    exact hu

/-! ## A publisher that shows up during `stop` -/

/-- The sniffer of process 5c for topic t. -/
def exampleSniffer : TopicSniffer :=
  init (str "t") (str "n") { processUuid := str "5c", hostAddr := str "10.0.0.1" }

/-- The ADVERTISE of a publisher of topic t. -/
def exampleAdvertise : Msgs.Discovery :=
  MessagePublisherInfo.fillDiscovery (MessagePublisherInfo.make (str "t") (str "tcp://b") []
    (str "5b") (str "n") (str "M") {})
    { version := kWireVersion, type := .advertise, processUuid := str "5b" }

/-- `stop` up to its lock. -/
def stopToLock : List Action :=
  [.stop, .setExit, .receiverExits, .joinReceiver, .clearCallback, .lock]

/-- The datagram is handled before `stop` is called: nothing is underway then. -/
theorem never_deadlocked_early :
    Always next (fun s => ¬ s.Deadlocked) exampleSniffer
      ([.checkExit, .recv (str "10.0.0.2") exampleAdvertise 0, .insert, .testTopic,
        .lockForCheck, .check, .connect true, .register, .lockForRecord, .push] ++ stopToLock) :=
  (never_deadlocked (str "t") (str "n")
    { processUuid := str "5c", hostAddr := str "10.0.0.1" }).1 _ (by decide)

/-- **The callback is copied before `stop` clears it and called after `stop` has taken the
mutex.** -/
theorem late_callback_deadlocks :
    ∃ s, exec next exampleSniffer ([.checkExit, .recv (str "10.0.0.2") exampleAdvertise 0] ++
      stopToLock ++ [.insert, .testTopic, .unregisterAll, .stopDiscovery]) = some s ∧
      s.Deadlocked := by
  exact ⟨_, rfl, by decide⟩

end TopicSniffer
end RfTrans
