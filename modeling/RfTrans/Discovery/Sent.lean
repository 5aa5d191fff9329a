import RfTrans.Discovery.Wire

/-!
# What a discovery instance sends

The datagrams of each member function, with the publisher that each is about.

## Main definitions

* `Discovery.mem_sent_advertise`, `mem_sent_unadvertise`, `mem_sent_dispatch`,
  `mem_sent_updateHeartbeat` — one for each function that announces publishers.
-/

namespace RfTrans
namespace Discovery

open PubLike TopicStorage

variable {π : Type} [PubLike π] {d : Discovery π} {m : Msgs.Discovery}

omit [PubLike π] in
/-- A message that carries no record. -/
theorem mem_sendMsg_plain {τ : Type} [Fills τ] {type : Msgs.DiscoveryType} {x : τ}
    (h : m ∈ d.sendMsg type x) :
    ∃ m', d.message type x = some m' ∧ m = m' := by
  rw [sendMsg] at h
  cases hm : d.message type x with
  | none => simp [hm] at h
  | some m' =>
      rw [hm, Option.map_some, Option.getD_some, sendMulticast_eq] at h
      split at h
      case isTrue => exact ⟨m', rfl, List.mem_singleton.mp h⟩
      case isFalse => cases h

theorem mem_sendSubscribe [WirePub π] {x : π} (h : m ∈ d.sendMsg .subscribe x) :
    m.processUuid = d.processUuid ∧ m.type = .subscribe := by
  obtain ⟨m', hm, rfl⟩ := mem_sendMsg_plain h
  rw [← Option.some.inj hm, WirePub.fill]
  exact ⟨rfl, rfl⟩

omit [PubLike π] in
theorem mem_sendHeartbeat (h : m ∈ d.sendHeartbeat) :
    m.processUuid = d.processUuid ∧ m.type = .heartbeat := by
  obtain ⟨m', hm, rfl⟩ := mem_sendMsg_plain h
  rw [← Option.some.inj hm]
  exact ⟨rfl, rfl⟩

theorem mem_sent_advertise (h : d.enabled = true) {pub : π} :
    m ∈ (d.advertise pub).1.sent ↔ (d.knownPublishers.addPublisher pub).2 = true ∧
      scope pub ≠ .process ∧ m ∈ d.sendMsg .advertise pub := by
  simp only [advertise, if_pos h]
  by_cases hadd : (d.knownPublishers.addPublisher pub).2 = true
  · simp only [if_pos hadd]
    by_cases hscope : scope pub ≠ .process
    · simp only [if_pos hscope]
      exact ⟨fun hm => ⟨hadd, hscope, hm⟩, fun hm => hm.2.2⟩
    · simp only [if_neg hscope]
      exact ⟨fun hm => (by cases hm), fun hm => absurd hm.2.1 hscope⟩
  · simp only [if_neg hadd]
    exact ⟨fun hm => (by cases hm), fun hm => absurd hm.1 hadd⟩

theorem mem_sent_unadvertise (h : d.enabled = true) {topic nodeUuid : Str} :
    m ∈ (d.unadvertise topic nodeUuid).1.sent ↔
      ∃ x, d.knownPublishers.getPublisher topic d.processUuid nodeUuid = some x ∧
        scope x ≠ .process ∧ m ∈ d.sendMsg .unadvertise x := by
  simp only [unadvertise, if_pos h]
  cases hx : d.knownPublishers.getPublisher topic d.processUuid nodeUuid with
  | none =>
      refine ⟨fun hm => (by cases hm), ?_⟩
      rintro ⟨x, hx, -⟩
      cases hx
  | some x =>
      by_cases hscope : scope x ≠ .process
      · simp only [if_pos hscope]
        refine ⟨fun hm => ⟨x, rfl, hscope, hm⟩, ?_⟩
        rintro ⟨y, hy, -, hm⟩
        obtain rfl := Option.some.inj hy
        exact hm
      · simp only [if_neg hscope]
        refine ⟨fun hm => (by cases hm), ?_⟩
        rintro ⟨y, hy, hscope', -⟩
        obtain rfl := Option.some.inj hy
        exact absurd hscope' hscope

theorem mem_answerSubscribe {topic : Str} {b : Bool} (h : m ∈ d.answerSubscribe topic b) :
    ∃ x ∈ d.knownPublishers.pubsOf topic d.processUuid, hidden x b = false ∧
      m ∈ d.sendMsg .advertise x := by
  simp only [answerSubscribe] at h
  split at h
  case isFalse => cases h
  case isTrue =>
    cases hp : d.knownPublishers.getPublishers topic with
    | none =>
        rw [hp] at h
        cases h
    | some addresses =>
        rw [hp] at h
        simp only [List.mem_flatMap] at h
        obtain ⟨x, hx, hm⟩ := h
        have hpubs : d.knownPublishers.pubsOf topic d.processUuid =
            (addresses[d.processUuid]?).getD [] := by
          have hdata : d.knownPublishers.data[topic]? = some addresses := hp
          simp [pubsOf, hdata]
        refine ⟨x, by rw [hpubs]; exact hx, ?_⟩
        by_cases hv : hidden x b = true
        · rw [if_pos hv] at hm
          cases hm
        · rw [if_neg hv] at hm
          exact ⟨by simpa using hv, hm⟩

theorem mem_readvertise : m ∈ d.readvertise ↔ ∃ t, ∃ x ∈ d.knownPublishers.pubsOf t d.processUuid,
    scope x ≠ .process ∧ m ∈ d.sendMsg .advertise x := by
  have hpub : ∀ x : π, m ∈ (if scope x ≠ .process then d.sendMsg .advertise x else []) ↔
      scope x ≠ .process ∧ m ∈ d.sendMsg .advertise x := by
    intro x
    by_cases h : scope x ≠ .process
    · simp [h]
    · simp [h]
  simp only [readvertise, List.mem_flatMap, hpub]
  constructor
  · rintro ⟨node, hnode, x, hx, hm⟩
    obtain ⟨t, ht⟩ := (mem_getPublishersByProc _).mp ⟨node, hnode, hx⟩
    exact ⟨t, x, ht, hm⟩
  · rintro ⟨t, x, hx, hm⟩
    obtain ⟨node, hnode, hx⟩ := (mem_getPublishersByProc _).mpr ⟨t, hx⟩
    exact ⟨node, hnode, x, hx, hm⟩

theorem mem_sent_updateHeartbeat {now later : ℕ} :
    m ∈ (d.updateHeartbeat now later).sent ↔
      ¬ now < d.timeNextHeartbeat ∧ (m ∈ d.sendHeartbeat ∨ m ∈ d.readvertise) := by
  by_cases h : now < d.timeNextHeartbeat
  · rw [updateHeartbeat, if_pos h]
    exact ⟨fun hm => (by cases hm), fun hm => absurd h hm.1⟩
  · rw [updateHeartbeat, if_neg h, List.mem_append]
    exact ⟨fun hm => ⟨h, hm⟩, And.right⟩

theorem mem_sent_discover [WirePub π] {topic : Str} (hm : m ∈ (d.discover topic).1.sent) :
    m.processUuid = d.processUuid ∧ m.type = .subscribe := by
  by_cases h : d.enabled = true
  · simp only [discover, if_pos h] at hm
    exact mem_sendSubscribe hm
  · simp only [discover, if_neg h] at hm
    cases hm

/-- The only datagrams that are answered at once are SUBSCRIBEs. -/
theorem mem_sent_dispatch {fromIp : Str} {m' : Msgs.Discovery} {now : ℕ}
    (hm : m ∈ (d.dispatchDiscoveryMsg fromIp m' now).sent) :
    m'.processUuid ≠ d.processUuid ∧ m'.type = .subscribe ∧ ∃ topic, m'.contents = .sub topic ∧
      m ∈ d.answerSubscribe topic (d.isSenderLocal fromIp) := by
  by_cases hne : m'.processUuid = d.processUuid
  · simp only [dispatchDiscoveryMsg, if_pos hne] at hm
    cases hm
  simp only [dispatchDiscoveryMsg, if_neg hne] at hm
  split at hm
  case h_3 ht =>
    split at hm
    case h_1 topic hc => exact ⟨hne, ht, topic, hc, hm⟩
    case h_2 => cases hm
  case h_1 => split at hm <;> cases hm
  case h_2 => split at hm <;> cases hm
  all_goals cases hm

end Discovery
end RfTrans
