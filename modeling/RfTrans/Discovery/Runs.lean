import RfTrans.Discovery.Sent

/-!
# Runs of a discovery instance

Local calls, datagrams and clock ticks in any order.  The network cannot touch the
entries that an instance has under its own process uuid, and a publisher's scope is
respected on every path that announces or learns of one.

## Main definitions

* `Discovery.Action`, `Discovery.run` — the runs.
* `Discovery.run_own_eq_replay` — own entries depend on the local calls only.
* `Discovery.scope_safe` — scopes are respected.
-/

namespace RfTrans
namespace Discovery

open PubLike TopicStorage

variable {π : Type} [PubLike π]

/-- What can happen to an instance. -/
inductive Action (π : Type)
  | advertise (p : π)
  | unadvertise (topic nodeUuid : Str)
  | discover (topic : Str)
  | recv (fromIp : Str) (m : Msgs.Discovery) (now : ℕ)
  | heartbeat (now later : ℕ)
  | activity (now later : ℕ)

def perform (d : Discovery π) : Action π → Outcome π
  | .advertise p => (d.advertise p).1
  | .unadvertise topic nodeUuid => (d.unadvertise topic nodeUuid).1
  | .discover topic => (d.discover topic).1
  | .recv fromIp m now => d.dispatchDiscoveryMsg fromIp m now
  | .heartbeat now later => d.updateHeartbeat now later
  | .activity now later => d.updateActivity now later

def run (d : Discovery π) (as : List (Action π)) : Discovery π :=
  as.foldl (fun d a => (d.perform a).self) d

/-- The calls that change the own entries. -/
def Action.isLocal : Action π → Bool
  | .advertise _ => true
  | .unadvertise .. => true
  | _ => false

/-- Publishers are advertised under the own uuid and as their constructor made them. -/
def Action.Made (uuid : Str) : Action π → Prop
  | .advertise p => PubLike.processUuid p = uuid ∧ scope p = (base p).opts.scope
  | _ => True

instance (uuid : Str) : ∀ a : Action π, Decidable (a.Made uuid)
  | .advertise _ => inferInstanceAs (Decidable (_ = _ ∧ _ = _))
  | .unadvertise .. | .discover .. | .recv .. | .heartbeat .. | .activity .. => isTrue trivial

/-- An instance that has just started. -/
def start (uuid name hostAddr : Str) : Discovery π :=
  { processUuid := uuid, processName := name, hostAddr := hostAddr }

@[simp] theorem run_nil (d : Discovery π) : d.run [] = d := rfl

@[simp] theorem run_cons (d : Discovery π) (a : Action π) (as : List (Action π)) :
    d.run (a :: as) = (d.perform a).self.run as := rfl

theorem run_concat (d : Discovery π) (as : List (Action π)) (a : Action π) :
    d.run (as ++ [a]) = ((d.run as).perform a).self := by
  rw [run, List.foldl_append]
  rfl

/-! ## One step -/

variable {d d' : Discovery π} {uuid : Str}

/-- An enabled instance that does not watch itself. -/
structure Alert (uuid : Str) (d : Discovery π) : Prop where
  identity : d.processUuid = uuid
  enabled : d.enabled = true
  nonempty : uuid ≠ []
  notSeen : uuid ∉ d.lastSeenByProcess

omit [PubLike π] in
theorem alert_start (h : uuid ≠ []) (name hostAddr : Str) :
    Alert uuid (start uuid name hostAddr : Discovery π) :=
  ⟨rfl, rfl, h, by simp [start]⟩

/-- A step keeps the identity and the address of its instance. -/
theorem Alert.self_perform (h : Alert uuid d) (a : Action π) :
    ∃ known seen heartbeat activity, (d.perform a).self = { d with
      knownPublishers := known, lastSeenByProcess := seen, timeNextHeartbeat := heartbeat,
      timeNextActivity := activity } := by
  cases a with
  | advertise p => exact ⟨_, _, _, _, d.self_advertise p h.enabled⟩
  | unadvertise topic nodeUuid => exact ⟨_, _, _, _, d.self_unadvertise topic nodeUuid h.enabled⟩
  | discover topic => exact ⟨_, _, _, _, d.self_discover topic⟩
  | recv fromIp m now =>
      obtain ⟨known, seen, hself⟩ := d.self_dispatch fromIp m now
      exact ⟨known, seen, _, _, hself⟩
  | heartbeat now later => exact ⟨_, _, _, _, d.self_updateHeartbeat now later⟩
  | activity now later =>
      simp only [perform, updateActivity]
      split
      case isTrue => exact ⟨_, _, _, _, rfl⟩
      case isFalse => exact ⟨_, _, _, _, rfl⟩

/-- A step changes the table in one of the ways of a well-formed one. -/
theorem Alert.edited (h : Alert uuid d) (a : Action π) :
    Edited d.knownPublishers (d.perform a).self.knownPublishers := by
  cases a with
  | advertise p =>
      rw [perform, d.self_advertise p h.enabled]
      exact .added p
  | unadvertise topic nodeUuid =>
      rw [perform, d.self_unadvertise topic nodeUuid h.enabled]
      dsimp only
      split
      · exact .same
      · exact .removedNode _ _ _
  | discover topic =>
      rw [perform, d.self_discover topic]
      exact .same
  | recv fromIp m now => exact d.edited_dispatch fromIp m now
  | heartbeat now later =>
      rw [perform, d.self_updateHeartbeat]
      exact .same
  | activity now later =>
      simp only [perform, updateActivity]
      split
      · exact .same
      · exact .removedProcs _

omit [PubLike π] in
theorem Alert.not_expired (h : Alert uuid d) (now : ℕ) : uuid ∉ d.expiredProcesses now := by
  intro hexp
  obtain ⟨seen, hget, -⟩ := d.mem_expiredProcesses.mp hexp
  exact h.notSeen (Std.ExtTreeMap.isSome_getElem?_iff_mem.mp (by rw [hget]; rfl))

/-- A local call makes the same of the same own entries. -/
theorem Alert.pubsOf_of_local (h : Alert uuid d) (h' : Alert uuid d') {a : Action π}
    (ha : a.isLocal = true) (hm : ∀ p, a = .advertise p → PubLike.processUuid p = uuid)
    (heq : ∀ t, d.knownPublishers.pubsOf t uuid = d'.knownPublishers.pubsOf t uuid) (t : Str) :
    (d.perform a).self.knownPublishers.pubsOf t uuid =
      (d'.perform a).self.knownPublishers.pubsOf t uuid := by
  cases a with
  | advertise p =>
      have hadded :
          (d.knownPublishers.addPublisher p).2 = (d'.knownPublishers.addPublisher p).2 := by
        rw [Bool.eq_iff_iff, addPublisher_snd, addPublisher_snd, hm p rfl, heq]
      rw [perform, perform, d.self_advertise p h.enabled, d'.self_advertise p h'.enabled]
      simp only [pubsOf_addPublisher, hadded, heq]
  | unadvertise topic nodeUuid =>
      have hget : d.knownPublishers.getPublisher topic d.processUuid nodeUuid =
          d'.knownPublishers.getPublisher topic d'.processUuid nodeUuid := by
        rw [getPublisher_eq, getPublisher_eq, h.identity, h'.identity, heq]
      rw [perform, perform, d.self_unadvertise topic nodeUuid h.enabled,
        d'.self_unadvertise topic nodeUuid h'.enabled, hget]
      cases d'.knownPublishers.getPublisher topic d'.processUuid nodeUuid with
      | none => exact heq t
      | some p => simp only [pubsOf_delPublishersByNode, h.identity, h'.identity, heq]
  | _ => cases ha

/-- A node of the own process has a publisher of a topic. -/
def HoldsOwn (d : Discovery π) (topic nodeUuid : Str) : Prop :=
  ∃ x ∈ d.knownPublishers.pubsOf topic d.processUuid, PubLike.nodeUuid x = nodeUuid

theorem holdsOwn_congr (hu : d'.processUuid = d.processUuid)
    (hp : ∀ t, d'.knownPublishers.pubsOf t d.processUuid =
      d.knownPublishers.pubsOf t d.processUuid) (t n : Str) :
    d'.HoldsOwn t n ↔ d.HoldsOwn t n := by
  rw [HoldsOwn, HoldsOwn, hu, hp t]

variable [WirePub π]

omit [WirePub π] in
theorem Alert.step (h : Alert uuid d) (a : Action π) : Alert uuid (d.perform a).self := by
  obtain ⟨known, seen, heartbeat, activity, hself⟩ := h.self_perform a
  refine ⟨by rw [hself]; exact h.identity, by rw [hself]; exact h.enabled, h.nonempty, ?_⟩
  cases a with
  | advertise p =>
      rw [perform, d.self_advertise p h.enabled]
      exact h.notSeen
  | unadvertise topic nodeUuid =>
      rw [perform, d.self_unadvertise topic nodeUuid h.enabled]
      exact h.notSeen
  | discover topic =>
      rw [perform, d.self_discover topic]
      exact h.notSeen
  | recv fromIp m now =>
      rw [perform, mem_lastSeen_dispatch]
      rintro (⟨hseen, -⟩ | ⟨hne, -, hm⟩)
      · exact h.notSeen hseen
      · exact hne (hm.symm.trans h.identity.symm)
  | heartbeat now later =>
      rw [perform, d.self_updateHeartbeat]
      exact h.notSeen
  | activity now later =>
      rw [perform, mem_lastSeen_activity]
      exact fun hseen => h.notSeen hseen.1

/-- What is not a local call leaves the own entries alone. -/
theorem Alert.pubsOf_of_not_local (h : Alert uuid d) {a : Action π} (ha : a.isLocal = false)
    (t : Str) :
    (d.perform a).self.knownPublishers.pubsOf t uuid = d.knownPublishers.pubsOf t uuid := by
  cases a with
  | advertise p => cases ha
  | unadvertise topic nodeUuid => cases ha
  | discover topic => rw [perform, d.self_discover topic]
  | recv fromIp m now =>
      by_cases hm : m.processUuid = uuid
      · rw [perform, dispatchDiscoveryMsg, if_pos (hm.trans h.identity.symm)]
      · exact pubsOf_dispatch_of_ne hm h.nonempty t
  | heartbeat now later => rw [perform, d.self_updateHeartbeat]
  | activity now later =>
      by_cases hdue : now < d.timeNextActivity
      · rw [perform, updateActivity, if_pos hdue]
      · rw [perform, updateActivity, if_neg hdue]
        exact (pubsOf_foldl_delPublishersByProc _ _ t uuid).trans (if_neg (h.not_expired now))

/-- **What a node has after a step** it had before and did not take back, or it has just
advertised it. -/
theorem Alert.holdsOwn_perform (h : Alert uuid d) {a : Action π} {t n : Str}
    (hown : (d.perform a).self.HoldsOwn t n) :
    (d.HoldsOwn t n ∧ a ≠ .unadvertise t n) ∨
      ∃ p, a = .advertise p ∧ PubLike.topic p = t ∧ PubLike.nodeUuid p = n := by
  have hid : (d.perform a).self.processUuid = d.processUuid :=
    (h.step a).identity.trans h.identity.symm
  cases a with
  | advertise p =>
      obtain ⟨x, hx, hn⟩ := hown
      rw [hid, perform, d.self_advertise p h.enabled] at hx
      rcases (mem_pubsOf_addPublisher _).mp hx with hx | ⟨-, rfl, -, rfl⟩
      · exact .inl ⟨⟨x, hx, hn⟩, nofun⟩
      · exact .inr ⟨x, rfl, rfl, hn⟩
  | unadvertise topic nodeUuid =>
      obtain ⟨x, hx, hn⟩ := hown
      rw [hid, perform, d.self_unadvertise topic nodeUuid h.enabled] at hx
      cases hget : d.knownPublishers.getPublisher topic d.processUuid nodeUuid with
      | none =>
          simp only [hget] at hx
          refine .inl ⟨⟨x, hx, hn⟩, fun hsame => ?_⟩
          obtain ⟨rfl, rfl⟩ := Action.unadvertise.inj hsame
          rw [getPublisher_eq] at hget
          have hnot := List.find?_eq_none.mp hget x hx
          simp only [hn, decide_true, not_true] at hnot
      | some p =>
          simp only [hget] at hx
          rw [mem_pubsOf_delPublishersByNode] at hx
          refine .inl ⟨⟨x, hx.1, hn⟩, fun hsame => ?_⟩
          obtain ⟨rfl, rfl⟩ := Action.unadvertise.inj hsame
          exact hx.2 ⟨rfl, rfl, hn⟩
  | discover topic =>
      rw [perform, d.self_discover topic] at hown
      exact .inl ⟨hown, nofun⟩
  | recv fromIp m now =>
      have hp := h.pubsOf_of_not_local (a := .recv fromIp m now) rfl
      rw [← h.identity] at hp
      exact .inl ⟨(holdsOwn_congr hid hp t n).mp hown, nofun⟩
  | heartbeat now later =>
      have hp := h.pubsOf_of_not_local (a := .heartbeat now later) rfl
      rw [← h.identity] at hp
      exact .inl ⟨(holdsOwn_congr hid hp t n).mp hown, nofun⟩
  | activity now later =>
      have hp := h.pubsOf_of_not_local (a := .activity now later) rfl
      rw [← h.identity] at hp
      exact .inl ⟨(holdsOwn_congr hid hp t n).mp hown, nofun⟩

/-- What a node has it keeps until it takes it back. -/
theorem Alert.holdsOwn_kept (h : Alert uuid d) {a : Action π} {t n : Str} (hown : d.HoldsOwn t n)
    (hne : a ≠ .unadvertise t n) : (d.perform a).self.HoldsOwn t n := by
  have hid : (d.perform a).self.processUuid = d.processUuid :=
    (h.step a).identity.trans h.identity.symm
  by_cases ha : a.isLocal = true
  · obtain ⟨x, hx, hn⟩ := hown
    refine ⟨x, ?_, hn⟩
    rw [hid]
    cases a with
    | advertise p =>
        rw [perform, d.self_advertise p h.enabled]
        exact (mem_pubsOf_addPublisher _).mpr (.inl hx)
    | unadvertise topic nodeUuid =>
        rw [perform, d.self_unadvertise topic nodeUuid h.enabled]
        cases d.knownPublishers.getPublisher topic d.processUuid nodeUuid with
        | none => exact hx
        | some p =>
            refine (mem_pubsOf_delPublishersByNode _).mpr ⟨hx, ?_⟩
            rintro ⟨rfl, -, hn'⟩
            exact hne (by rw [← hn, hn'])
    | discover topic =>
        rw [perform, d.self_discover topic]
        exact hx
    | recv fromIp m now => cases ha
    | heartbeat now later => cases ha
    | activity now later => cases ha
  · have hp := h.pubsOf_of_not_local (Bool.eq_false_iff.mpr ha)
    rw [← h.identity] at hp
    exact (holdsOwn_congr hid hp t n).mpr hown

/-! ## Own entries -/

/-- **Own endpoints are governed by the local calls alone**: replaying them without the
datagrams and the ticks gives the same own entries. -/
theorem run_own_eq_replay (name hostAddr : Str) (huuid : uuid ≠ []) (as : List (Action π))
    (hmade : ∀ p, .advertise p ∈ as → PubLike.processUuid p = uuid) (t : Str) :
    ((start uuid name hostAddr).run as).knownPublishers.pubsOf t uuid =
      ((start uuid name hostAddr).run (as.filter Action.isLocal)).knownPublishers.pubsOf t
        uuid := by
  have hruns : ∀ (as : List (Action π)) (d d' : Discovery π), Alert uuid d → Alert uuid d' →
      (∀ p, .advertise p ∈ as → PubLike.processUuid p = uuid) →
      (∀ t, d.knownPublishers.pubsOf t uuid = d'.knownPublishers.pubsOf t uuid) → ∀ t,
      (d.run as).knownPublishers.pubsOf t uuid =
        (d'.run (as.filter Action.isLocal)).knownPublishers.pubsOf t uuid := by
    intro as
    induction as with
    | nil => exact fun d d' _ _ _ heq => heq
    | cons a as ih =>
        intro d d' h h' hmade heq
        have htail : ∀ p, .advertise p ∈ as → PubLike.processUuid p = uuid :=
          fun p hp => hmade p (List.mem_cons_of_mem _ hp)
        cases ha : a.isLocal with
        | true =>
            rw [List.filter_cons_of_pos ha, run_cons, run_cons]
            refine ih _ _ (h.step a) (h'.step a) htail ?_
            exact h.pubsOf_of_local h' ha (fun p hp => hmade p (hp ▸ List.mem_cons_self)) heq
        | false =>
            rw [List.filter_cons_of_neg (by simp [ha]), run_cons]
            refine ih _ _ (h.step a) h' htail fun t => ?_
            rw [h.pubsOf_of_not_local ha, heq]
  exact hruns as _ _ (alert_start huuid name hostAddr) (alert_start huuid name hostAddr) hmade
    (fun _ => rfl) t

/-! ## Scopes -/

/-- A datagram that describes a publisher. -/
def Describes (m : Msgs.Discovery) : Prop := m.type = .advertise ∨ m.type = .unadvertise

/-- Own entries are as their constructor made them. -/
def OwnMade (uuid : Str) (d : Discovery π) : Prop :=
  ∀ t, ∀ x ∈ d.knownPublishers.pubsOf t uuid, scope x = (base x).opts.scope

theorem Alert.ownMade_step (h : Alert uuid d) (ho : OwnMade uuid d) {a : Action π}
    (ha : a.Made uuid) : OwnMade uuid (d.perform a).self := by
  intro t x hx
  cases hl : a.isLocal with
  | false =>
      rw [h.pubsOf_of_not_local hl] at hx
      exact ho t x hx
  | true =>
      cases a with
      | advertise p =>
          rw [perform, d.self_advertise p h.enabled] at hx
          rcases (mem_pubsOf_addPublisher _).mp hx with hx | ⟨-, -, -, rfl⟩
          · exact ho t x hx
          · exact ha.2
      | unadvertise topic nodeUuid =>
          rw [perform, d.self_unadvertise topic nodeUuid h.enabled] at hx
          cases hget : d.knownPublishers.getPublisher topic d.processUuid nodeUuid with
          | none =>
              rw [hget] at hx
              exact ho t x hx
          | some p =>
              rw [hget] at hx
              exact ho t x ((mem_pubsOf_delPublishersByNode _).mp hx).1
      | _ => cases hl

/-- The scope in the datagram about a record. -/
theorem pub_scope_of_sendMsg {type : Msgs.DiscoveryType} (ht : Announces type) {x : π}
    {m : Msgs.Discovery} (hm : m ∈ d.sendMsg type x) (hx : scope x = (base x).opts.scope) :
    m.pub.scope = (scope x).toMsg := by
  rw [sendMsg_datagram d ht] at hm
  split at hm
  case isFalse => cases hm
  case isTrue =>
    rw [List.mem_singleton.mp hm, hx]
    exact WirePub.scope x

theorem toMsg_ne_process {s : Scope} (h : s ≠ .process) : s.toMsg ≠ .process := by
  cases s with
  | process => exact absurd rfl h
  | host => exact nofun
  | all => exact nofun

theorem toMsg_ne_host {s : Scope} (h : s ≠ .host) : s.toMsg ≠ .host := by
  cases s with
  | process => exact nofun
  | host => exact absurd rfl h
  | all => exact nofun

/-- What a datagram about a publisher may say of its scope. -/
theorem Alert.sent_scope (h : Alert uuid d) (ho : OwnMade uuid d) {a : Action π}
    (ha : a.Made uuid) {m : Msgs.Discovery} (hm : m ∈ (d.perform a).sent) (hd : Describes m) :
    m.pub.scope ≠ .process ∧ ∀ fromIp m' now, a = .recv fromIp m' now →
      d.isSenderLocal fromIp = false → m.pub.scope ≠ .host := by
  have hown : ∀ {t x}, x ∈ d.knownPublishers.pubsOf t d.processUuid →
      scope x = (base x).opts.scope := fun hx => ho _ _ (h.identity ▸ hx)
  cases a with
  | advertise p =>
      obtain ⟨-, hs, hm⟩ := (mem_sent_advertise h.enabled).mp hm
      rw [pub_scope_of_sendMsg (.inl rfl) hm ha.2]
      exact ⟨toMsg_ne_process hs, nofun⟩
  | unadvertise topic nodeUuid =>
      obtain ⟨x, hx, hs, hm⟩ := (mem_sent_unadvertise h.enabled).mp hm
      rw [getPublisher_eq] at hx
      rw [pub_scope_of_sendMsg (.inr (.inl rfl)) hm (hown (List.mem_of_find?_eq_some hx))]
      exact ⟨toMsg_ne_process hs, nofun⟩
  | discover topic =>
      rw [Describes, (mem_sent_discover hm).2] at hd
      rcases hd with hd | hd
      · cases hd
      · cases hd
  | recv fromIp m' now =>
      obtain ⟨-, -, topic, -, hm⟩ := mem_sent_dispatch hm
      obtain ⟨x, hx, hv, hm⟩ := mem_answerSubscribe hm
      rw [pub_scope_of_sendMsg (.inl rfl) hm (hown hx)]
      refine ⟨toMsg_ne_process fun hs => ?_, fun fromIp' _ _ heq hlocal => ?_⟩
      · simp [hidden, hs] at hv
      · cases heq
        refine toMsg_ne_host fun hs => ?_
        simp [hidden, hs, hlocal] at hv
  | heartbeat now later =>
      rcases (mem_sent_updateHeartbeat.mp hm).2 with hm | hm
      · rw [Describes, (mem_sendHeartbeat hm).2] at hd
        rcases hd with hd | hd
        · cases hd
        · cases hd
      · obtain ⟨t, x, hx, hs, hm⟩ := mem_readvertise.mp hm
        rw [pub_scope_of_sendMsg (.inl rfl) hm (hown hx)]
        exact ⟨toMsg_ne_process hs, nofun⟩
  | activity now later =>
      by_cases hdue : now < d.timeNextActivity
      · rw [perform, updateActivity, if_pos hdue] at hm
        cases hm
      · rw [perform, updateActivity, if_neg hdue] at hm
        cases hm

omit [WirePub π] in
/-- An entry of another process is put there by an ADVERTISE that the sender may send. -/
theorem Alert.new_entry (h : Alert uuid d) {a : Action π} (ha : a.Made uuid) {t q : Str} {x : π}
    (hq : q ≠ uuid) (hnew : x ∈ (d.perform a).self.knownPublishers.pubsOf t q)
    (hold : x ∉ d.knownPublishers.pubsOf t q) : ∃ fromIp m now, a = .recv fromIp m now ∧
      hidden x (d.isSenderLocal fromIp) = false := by
  cases a with
  | advertise p =>
      rw [perform, d.self_advertise p h.enabled] at hnew
      rcases (mem_pubsOf_addPublisher _).mp hnew with hx | ⟨-, -, hp, -⟩
      · exact absurd hx hold
      · exact absurd (hp.trans ha.1) hq
  | unadvertise topic nodeUuid =>
      rw [perform, d.self_unadvertise topic nodeUuid h.enabled] at hnew
      cases hget : d.knownPublishers.getPublisher topic d.processUuid nodeUuid with
      | none =>
          rw [hget] at hnew
          exact absurd hnew hold
      | some p =>
          rw [hget] at hnew
          exact absurd ((mem_pubsOf_delPublishersByNode _).mp hnew).1 hold
  | discover topic =>
      rw [perform, d.self_discover topic] at hnew
      exact absurd hnew hold
  | recv fromIp m now =>
      refine ⟨fromIp, m, now, rfl, ?_⟩
      rcases mem_pubsOf_dispatch hnew with hx | ⟨rfl, hv⟩
      · exact absurd hx hold
      · exact hv
  | heartbeat now later =>
      rw [perform, d.self_updateHeartbeat] at hnew
      exact absurd hnew hold
  | activity now later =>
      by_cases hdue : now < d.timeNextActivity
      · rw [perform, updateActivity, if_pos hdue] at hnew
        exact absurd hnew hold
      · rw [perform, updateActivity, if_neg hdue] at hnew
        exact absurd ((mem_pubsOf_foldl_delPublishersByProc _).mp hnew).1 hold

/-- The step of a run that put an entry where it still is. -/
def CameFrom (d : Discovery π) (as : List (Action π)) (t q : Str) (x : π) (pre : List (Action π))
    (a : Action π) : Prop :=
  x ∉ (d.run pre).knownPublishers.pubsOf t q ∧ ∃ post, as = pre ++ a :: post ∧
    ∀ mid, mid <+: post → x ∈ (d.run (pre ++ a :: mid)).knownPublishers.pubsOf t q

omit [WirePub π] in
theorem Alert.run (h : Alert uuid d) (as : List (Action π)) : Alert uuid (d.run as) := by
  induction as generalizing d with
  | nil => exact h
  | cons a as ih => exact ih (h.step a)

theorem Alert.ownMade_run (h : Alert uuid d) (ho : OwnMade uuid d) {as : List (Action π)}
    (has : ∀ a ∈ as, a.Made uuid) : OwnMade uuid (d.run as) := by
  induction as generalizing d with
  | nil => exact ho
  | cons a as ih =>
      exact ih (h.step a) (h.ownMade_step ho (has a List.mem_cons_self))
        fun a' ha' => has a' (List.mem_cons_of_mem _ ha')

omit [WirePub π] in
/-- Every entry of another process came from an ADVERTISE that its sender may send. -/
theorem Alert.exists_cameFrom (h : Alert uuid d) {as : List (Action π)}
    (has : ∀ a ∈ as, a.Made uuid) {t q : Str} {x : π} (hq : q ≠ uuid)
    (hempty : x ∉ d.knownPublishers.pubsOf t q)
    (hx : x ∈ (d.run as).knownPublishers.pubsOf t q) : ∃ pre fromIp m now,
      CameFrom d as t q x pre (.recv fromIp m now) ∧
        hidden x ((d.run pre).isSenderLocal fromIp) = false := by
  induction as using List.reverseRecOn with
  | nil => exact absurd hx hempty
  | append_singleton as a ih =>
      have hrest : ∀ a' ∈ as, a'.Made uuid := fun a' ha' => has a' (List.mem_append_left _ ha')
      by_cases hold : x ∈ (d.run as).knownPublishers.pubsOf t q
      · obtain ⟨pre, fromIp, m, now, ⟨hpre, post, rfl, hmid⟩, hv⟩ := ih hrest hold
        refine ⟨pre, fromIp, m, now, ⟨hpre, post ++ [a], by simp, fun mid hle => ?_⟩, hv⟩
        rcases List.prefix_concat_iff.mp hle with rfl | hle
        · simpa using hx
        · exact hmid mid hle
      · have ha : a.Made uuid := has a (List.mem_append_right _ (List.mem_singleton_self a))
        have hstep : x ∈ ((d.run as).perform a).self.knownPublishers.pubsOf t q :=
          d.run_concat as a ▸ hx
        obtain ⟨fromIp, m, now, rfl, hv⟩ := (h.run as).new_entry ha hq hstep hold
        refine ⟨as, fromIp, m, now, ⟨hold, [], rfl, fun mid hle => ?_⟩, hv⟩
        rw [List.prefix_nil.mp hle]
        exact hx

/-- **Scopes are respected** in every run: (a) no datagram describes a PROCESS-scoped
publisher, and none that answers a sender elsewhere a HOST-scoped one; (b) no entry of
another process has scope PROCESS, and one with scope HOST came from a local sender. -/
theorem scope_safe (name hostAddr : Str) (huuid : uuid ≠ []) (as : List (Action π))
    (hmade : ∀ a ∈ as, a.Made uuid) :
    let d : Discovery π := (start uuid name hostAddr).run as
    (∀ a : Action π, a.Made uuid → ∀ m ∈ (d.perform a).sent, Describes m →
      m.pub.scope ≠ .process ∧ ∀ fromIp m' now, a = .recv fromIp m' now →
        d.isSenderLocal fromIp = false → m.pub.scope ≠ .host) ∧
    ∀ t q, q ≠ uuid → ∀ x ∈ d.knownPublishers.pubsOf t q, scope x ≠ .process ∧
      (scope x = .host → ∃ pre fromIp m now,
        CameFrom (start uuid name hostAddr) as t q x pre (.recv fromIp m now) ∧
          ((start uuid name hostAddr : Discovery π).run pre).isSenderLocal fromIp = true) := by
  intro d
  have hstart : Alert uuid (start uuid name hostAddr : Discovery π) :=
    alert_start huuid name hostAddr
  have hown : OwnMade uuid (start uuid name hostAddr : Discovery π) := by
    intro t x hx
    simp [start] at hx
  refine ⟨fun a ha m hm hd => ?_, fun t q hq x hx => ?_⟩
  · exact (hstart.run as).sent_scope (hstart.ownMade_run hown hmade) ha hm hd
  · obtain ⟨pre, fromIp, m, now, hcame, hv⟩ :=
      hstart.exists_cameFrom hmade hq (by simp [start]) hx
    simp only [hidden, Bool.or_eq_false_iff, Bool.and_eq_false_iff, decide_eq_false_iff_not,
      Bool.not_eq_false'] at hv
    refine ⟨hv.1, fun hhost => ⟨pre, fromIp, m, now, hcame, ?_⟩⟩
    exact hv.2.resolve_left fun hne => hne hhost

/-! ## A run -/

/-- A publisher of process `4a`. -/
def ownPub (scope : Scope) : MessagePublisherInfo :=
  .make (str "t") (str "tcp://10.0.0.1:4000") (str "unused") (str "4a") (str "n1") (str "A")
    { scope := scope }

/-- A datagram of process `5b`, with scope HOST. -/
def datagramOf5b (type : Msgs.DiscoveryType) : Msgs.Discovery :=
  { processUuid := str "5b"
    type := type
    contents := .pub
      { topic := str "t", address := str "tcp://10.0.0.1:5000", nodeUuid := str "n2"
        scope := .host, pubType := .msgPub {} } }

/-- An own HOST-scoped publisher, one of another process on the host, and a BYE. -/
def mixedRun : List (Action MessagePublisherInfo) :=
  [.advertise (ownPub .host), .recv (str "10.0.0.1") (datagramOf5b .advertise) 0, .heartbeat 0 1,
    .recv (str "10.0.0.1") (datagramOf5b .bye) 2, .unadvertise (str "t") (str "n2")]

theorem run_own_eq_replay_mixed :
    (((start (str "4a") [] (str "10.0.0.1")).run mixedRun).knownPublishers.pubsOf (str "t")
        (str "4a")) =
      (((start (str "4a") [] (str "10.0.0.1")).run
        (mixedRun.filter Action.isLocal)).knownPublishers.pubsOf (str "t") (str "4a")) :=
  run_own_eq_replay [] (str "10.0.0.1") (by decide) mixedRun (fun p hp => by
    simp only [mixedRun, List.mem_cons, Action.advertise.injEq, reduceCtorEq, List.not_mem_nil,
      or_false] at hp
    rw [hp]
    rfl) (str "t")

/-- What is heard of the other process. -/
def heardOf5b : MessagePublisherInfo := parse (datagramOf5b .advertise)

theorem scope_safe_mixed :
    scope heardOf5b ≠ .process ∧ (scope heardOf5b = .host → ∃ pre fromIp m now,
      CameFrom (start (str "4a") [] (str "10.0.0.1")) (mixedRun.take 2) (str "t") (str "5b")
        heardOf5b pre (.recv fromIp m now) ∧
        ((start (str "4a") [] (str "10.0.0.1") :
          Discovery MessagePublisherInfo).run pre).isSenderLocal fromIp = true) :=
  (scope_safe [] (str "10.0.0.1") (by decide) (mixedRun.take 2) (by decide)).2 (str "t")
    (str "5b") (by decide) heardOf5b (by decide)

end Discovery
end RfTrans
