import RfTrans.Runtime.Effects

/-!
# What a step does to the known publishers

The table of known publishers changes in three ways: `advertise` and ADVERTISE add a
record, `unadvertise` and UNADVERTISE remove those of a node, BYE and silence those of
a process.

## Main definitions

* `MessageRuntime.adds`, `MessageRuntime.drops` — what a step adds and removes.
* `knownAfter_perform` — nothing else happens to the table.
* `MessageRuntime.Sound` — the table of a process holds its own publishers as they were
  made.
-/

namespace RfTrans
namespace MessageRuntime

open TopicStorage Std

/-- The record that a step adds to the known publishers. -/
def adds (rt : MessageRuntime) : Action → Option MessagePublisherInfo
  | .advertise topic nodeUuid msgType options =>
    some (MessagePublisherInfo.make topic rt.address (str "unused") rt.processUuid nodeUuid
      msgType options)
  | .recv fromIp m _ =>
    if m.processUuid ≠ rt.discovery.processUuid ∧ m.type = .advertise ∧
        Discovery.hidden (parsed m) (rt.discovery.isSenderLocal fromIp) = false then
      some (parsed m)
    else none
  | _ => none

/-- Whether a step removes the known publishers of a topic, a process and a node. -/
def drops (rt : MessageRuntime) : Action → Str → Str → Str → Bool
  | .unadvertise topic' nodeUuid', topic, processUuid, nodeUuid =>
    topic = topic' && processUuid = rt.discovery.processUuid && nodeUuid = nodeUuid'
  | .recv fromIp m _, topic, processUuid, nodeUuid =>
    m.processUuid ≠ rt.discovery.processUuid &&
      match m.type with
      | .unadvertise =>
        !Discovery.hidden (parsed m) (rt.discovery.isSenderLocal fromIp) &&
          (topic = (parsed m).topic && processUuid = (parsed m).processUuid &&
            nodeUuid = (parsed m).nodeUuid)
      | .bye => processUuid = m.processUuid
      | _ => false
  | .activity now _, _, processUuid, _ =>
    ¬ now < rt.discovery.timeNextActivity && processUuid ∈ rt.discovery.expiredProcesses now
  | _, _, _, _ => false

/-- The known publishers after a step. -/
structure KnownAfter (rt : MessageRuntime) (a : Action)
    (known : TopicStorage MessagePublisherInfo) :
    Prop where
  edited : Edited rt.discovery.knownPublishers known
  mem : ∀ topic processUuid x, x ∈ known.pubsOf topic processUuid ↔
    (x ∈ rt.discovery.knownPublishers.pubsOf topic processUuid ∧
      rt.drops a topic processUuid x.nodeUuid = false) ∨
    (rt.adds a = some x ∧ (rt.discovery.knownPublishers.addPublisher x).2 = true ∧
      topic = x.topic ∧ processUuid = x.processUuid)

variable {rt : MessageRuntime}

theorem KnownAfter.same (rt : MessageRuntime) {a : Action}
    (h₁ : ∀ t q n, rt.drops a t q n = false) (h₂ : rt.adds a = none) :
    KnownAfter rt a rt.discovery.knownPublishers := by
  refine ⟨.same, fun t q x => ?_⟩
  simp [h₁, h₂]

theorem KnownAfter.removed {a : Action} {known : TopicStorage MessagePublisherInfo}
    (he : Edited rt.discovery.knownPublishers known)
    (h : ∀ t q x, x ∈ known.pubsOf t q ↔
      x ∈ rt.discovery.knownPublishers.pubsOf t q ∧ rt.drops a t q x.nodeUuid = false)
    (h₂ : rt.adds a = none) : KnownAfter rt a known := by
  refine ⟨he, fun t q x => ?_⟩
  rw [h, h₂]
  simp

theorem KnownAfter.added {a : Action} {pub : MessagePublisherInfo}
    (h₁ : ∀ t q n, rt.drops a t q n = false) (h₂ : rt.adds a = some pub) :
    KnownAfter rt a (rt.discovery.knownPublishers.addPublisher pub).1 := by
  refine ⟨.added pub, fun t q x => ?_⟩
  rw [mem_pubsOf_addPublisher, h₁, h₂]
  refine or_congr (by simp) ?_
  constructor
  · rintro ⟨hadd, rfl, rfl, rfl⟩
    exact ⟨rfl, hadd, rfl, rfl⟩
  · rintro ⟨hx, hadd, rfl, rfl⟩
    obtain rfl := Option.some.inj hx
    exact ⟨hadd, rfl, rfl, rfl⟩

@[simp] theorem discovery_onPublisherConnected (rt : MessageRuntime) (pub : MessagePublisherInfo) :
    (rt.onPublisherConnected pub).discovery = rt.discovery :=
  (congrArg discovery (rt.onCallback_eq (.connection pub)) :)

@[simp] theorem discovery_onPublisherDisconnected (rt : MessageRuntime)
    (pub : MessagePublisherInfo) : (rt.onPublisherDisconnected pub).discovery = rt.discovery :=
  (congrArg discovery (rt.onCallback_eq (.disconnection pub)) :)

@[simp] theorem discovery_onSubscriberRegistered (rt : MessageRuntime)
    (pub : MessagePublisherInfo) : (rt.onSubscriberRegistered pub).discovery = rt.discovery :=
  (congrArg discovery (rt.onCallback_eq (.registration pub)) :)

@[simp] theorem discovery_onSubscriberUnregistered (rt : MessageRuntime)
    (pub : MessagePublisherInfo) : (rt.onSubscriberUnregistered pub).discovery = rt.discovery :=
  (congrArg discovery (rt.onCallback_eq (.unregistration pub)) :)

@[simp] theorem discovery_applyCommand (rt : MessageRuntime) (c : SubscriberCommand) (ok : Bool) :
    (rt.applySubscriberCommand c ok).1.discovery = rt.discovery := by
  obtain ⟨sub, h⟩ := rt.applySubscriberCommand_eq c ok
  rw [h]

/-- Datagrams that do not concern the table. -/
theorem knownPublishers_recv {fromIp : Str} {m : Msgs.Discovery} {now : ℕ} (hr : rt.Running)
    (h : m.processUuid = rt.discovery.processUuid ∨
      (m.type ≠ .advertise ∧ m.type ≠ .unadvertise ∧ m.type ≠ .bye)) :
    (rt.recvDiscoveryMsg fromIp m now).1.discovery.knownPublishers =
      rt.discovery.knownPublishers := by
  by_cases hne : m.processUuid = rt.discovery.processUuid
  · rw [recv_own hne]
  obtain ⟨h₁, h₂, h₃⟩ := h.resolve_left hne
  cases ht : m.type with
  | advertise => exact absurd ht h₁
  | unadvertise => exact absurd ht h₂
  | bye => exact absurd ht h₃
  | newConnection =>
      rw [recv_newConnection hr hne ht, discovery_onSubscriberRegistered]
      rfl
  | endConnection =>
      rw [recv_endConnection hr hne ht, discovery_onSubscriberUnregistered]
      rfl
  | subscribe =>
      cases hm : m.contents with
      | sub topic =>
          rw [recv_subscribe hne ht hm]
          rfl
      | notSet =>
          rw [recv_other hne (by simp [ht, hm])]
          rfl
      | pub p =>
          rw [recv_other hne (by simp [ht, hm])]
          rfl
  | heartbeat =>
      rw [recv_other hne (by simp [ht])]
      rfl
  | uninitialized =>
      rw [recv_other hne (by simp [ht])]
      rfl
  | unrecognized v =>
      rw [recv_other hne (by simp [ht])]
      rfl

theorem knownAfter_recv (hr : rt.Running) (fromIp : Str) (m : Msgs.Discovery) (now : ℕ) :
    KnownAfter rt (.recv fromIp m now)
      (rt.recvDiscoveryMsg fromIp m now).1.discovery.knownPublishers := by
  by_cases hne : m.processUuid = rt.discovery.processUuid
  · rw [knownPublishers_recv hr (.inl hne)]
    exact .same rt (by simp [drops, hne]) (by simp [adds, hne])
  by_cases hadv : m.type = .advertise
  · cases hv : Discovery.hidden (parsed m) (rt.discovery.isSenderLocal fromIp) with
    | true =>
        rw [recv_hidden hne (.inl hadv) hv]
        exact .same rt (by simp [drops, hadv]) (by simp [adds, hv])
    | false =>
        have hknown : (rt.recvDiscoveryMsg fromIp m now).1.discovery.knownPublishers =
            (rt.discovery.knownPublishers.addPublisher (parsed m)).1 := by
          cases hadd : (rt.discovery.knownPublishers.addPublisher (parsed m)).2 with
          | true =>
              rw [recv_advertise_new hr hne hadv hv hadd, discovery_onPublisherConnected]
          | false =>
              rw [recv_advertise_known hne hadv hv hadd, addPublisher_of_not_added _ hadd]
              rfl
        rw [hknown]
        exact .added (by simp [drops, hadv]) (by simp [adds, hne, hadv, hv])
  by_cases hunadv : m.type = .unadvertise
  · cases hv : Discovery.hidden (parsed m) (rt.discovery.isSenderLocal fromIp) with
    | true =>
        rw [recv_hidden hne (.inr hunadv) hv]
        exact .same rt (by simp [drops, hunadv, hv]) (by simp [adds, hv])
    | false =>
        rw [recv_unadvertise hr hne hunadv hv, discovery_onPublisherDisconnected]
        refine .removed (.removedNode _ _ _) (fun t q x => ?_) (by simp [adds, hunadv])
        rw [mem_pubsOf_delPublishersByNode]
        refine and_congr Iff.rfl ?_
        simp [drops, hne, hunadv, hv, PubLike.nodeUuid, PubLike.base]
  by_cases hbye : m.type = .bye
  · rw [recv_bye hr hne hbye]
    refine .removed (.removedProcs [m.processUuid]) (fun t q x => ?_) (by simp [adds, hbye])
    rw [mem_pubsOf_delPublishersByProc]
    simp [drops, hne, hbye]
  rw [knownPublishers_recv hr (.inr ⟨hadv, hunadv, hbye⟩)]
  refine .same rt (fun t q n => ?_) (by simp [adds, hadv])
  simp only [drops]
  exact Bool.and_false _

theorem knownAfter_unadvertise (hr : rt.Running) (topic nodeUuid : Str) :
    KnownAfter rt (.unadvertise topic nodeUuid)
      (rt.unadvertise topic nodeUuid).1.discovery.knownPublishers := by
  rw [unadvertise, discovery_absorb, Discovery.self_unadvertise _ _ _ hr.enabled]
  cases hget :
      rt.discovery.knownPublishers.getPublisher topic rt.discovery.processUuid nodeUuid with
  | none =>
      refine .removed .same (fun t q x => ?_) rfl
      rw [getPublisher_eq, List.find?_eq_none] at hget
      refine ⟨fun hx => ⟨hx, ?_⟩, And.left⟩
      by_cases htq : t = topic ∧ q = rt.discovery.processUuid
      · obtain ⟨rfl, rfl⟩ := htq
        have hn : ¬ PubLike.nodeUuid x = nodeUuid := by simpa using hget x hx
        simp [drops, show x.nodeUuid ≠ nodeUuid from hn]
      · by_cases ht : t = topic
        · have hq : q ≠ rt.discovery.processUuid := fun hq => htq ⟨ht, hq⟩
          simp [drops, hq]
        · simp [drops, ht]
  | some pub =>
      refine .removed (.removedNode _ _ _) (fun t q x => ?_) rfl
      rw [mem_pubsOf_delPublishersByNode]
      simp [drops, PubLike.nodeUuid, PubLike.base]

/-- **How the known publishers change**: the exact effect of a step on them. -/
theorem knownAfter_perform {rt' : MessageRuntime} {a : Action} {sent : List Msgs.Discovery}
    (hr : rt.Running) (h : rt.perform a = some (rt', sent)) :
    KnownAfter rt a rt'.discovery.knownPublishers := by
  cases a with
  | advertise topic nodeUuid msgType options =>
      rw [perform_advertise] at h
      obtain ⟨rfl, -⟩ := fst_snd_of_some h
      rw [discovery_advertise rt topic nodeUuid msgType options hr.enabled]
      exact .added (fun _ _ _ => rfl) rfl
  | unadvertise topic nodeUuid =>
      obtain ⟨rfl, -⟩ := fst_snd_of_some h
      exact knownAfter_unadvertise hr topic nodeUuid
  | subscribe topic nodeUuid handler =>
      obtain ⟨rfl, -⟩ := fst_snd_of_some h
      simp only [subscribe, discovery_absorb, Discovery.self_discover]
      exact .same rt (fun _ _ _ => rfl) rfl
  | unsubscribe topic nodeUuid =>
      obtain ⟨rfl, -⟩ := fst_snd_of_some h
      have hsame : (rt.unsubscribe topic nodeUuid).1.discovery = rt.discovery := by
        simp only [unsubscribe]
        split <;> rfl
      rw [hsame]
      exact .same rt (fun _ _ _ => rfl) rfl
  | recv fromIp m now =>
      obtain ⟨rfl, -⟩ := fst_snd_of_some h
      exact knownAfter_recv hr fromIp m now
  | heartbeat now later =>
      obtain ⟨rfl, -⟩ := fst_snd_of_some h
      rw [discovery_updateHeartbeat]
      exact .same rt (fun _ _ _ => rfl) rfl
  | activity now later =>
      obtain ⟨rfl, -⟩ := fst_snd_of_some h
      by_cases hdue : now < rt.discovery.timeNextActivity
      · rw [activity_not_due hdue]
        exact .same rt (by simp [drops, hdue]) rfl
      · simp only [updateActivity, discovery_absorb, Discovery.updateActivity, if_neg hdue]
        refine .removed (.removedProcs _) (fun t q x => ?_) rfl
        rw [mem_pubsOf_foldl_delPublishersByProc]
        simp [drops, Nat.le_of_not_lt hdue]
  | applyCommand ok =>
      have hsame : rt'.discovery = rt.discovery := by
        obtain ⟨c, rest, -, rfl, -⟩ := perform_applyCommand _ h
        exact discovery_applyCommand _ c ok
      rw [hsame]
      exact .same rt (fun _ _ _ => rfl) rfl

/-- `advertise` of a new publisher gives out a handle. -/
theorem advertise_ok {topic nodeUuid msgType : Str} {options : AdvertiseMessageOptions}
    (h : rt.discovery.enabled = true)
    (hnew : (rt.discovery.knownPublishers.addPublisher (MessagePublisherInfo.make topic rt.address
      (str "unused") rt.processUuid nodeUuid msgType options)).2 = true) :
    (rt.advertise topic nodeUuid msgType options).2.2 =
      some (MessagePublisherInfo.make topic rt.address (str "unused") rt.processUuid nodeUuid
        msgType options) := by
  have hok : (rt.discovery.advertise (MessagePublisherInfo.make topic rt.address (str "unused")
      rt.processUuid nodeUuid msgType options)).2 = true := by
    simp only [Discovery.advertise, if_pos h, if_pos hnew]
  simp only [advertise, if_pos hok]

/-! ## Sound processes -/

/-- Whether a step ends the watch over a process. -/
def forgets (rt : MessageRuntime) : Action → Str → Bool
  | .recv _ m _, processUuid =>
    m.processUuid ≠ rt.discovery.processUuid && m.type = .bye && processUuid = m.processUuid
  | .activity now _, processUuid =>
    ¬ now < rt.discovery.timeNextActivity && processUuid ∈ rt.discovery.expiredProcesses now
  | _, _ => false

/-- Whether a step is a sign of life of a process. -/
def hears (rt : MessageRuntime) : Action → Str → Bool
  | .recv _ m _, processUuid =>
    m.processUuid ≠ rt.discovery.processUuid && m.type ≠ .bye && processUuid = m.processUuid
  | _, _ => false

/-- **Who is watched** after a step. -/
theorem mem_lastSeen_perform {rt' : MessageRuntime} {a : Action} {sent : List Msgs.Discovery}
    (hr : rt.Running) (h : rt.perform a = some (rt', sent)) (q : Str) :
    q ∈ rt'.discovery.lastSeenByProcess ↔
      (q ∈ rt.discovery.lastSeenByProcess ∧ rt.forgets a q = false) ∨ rt.hears a q = true := by
  have hsame : rt'.discovery.lastSeenByProcess = rt.discovery.lastSeenByProcess →
      rt.forgets a q = false → rt.hears a q = false → (q ∈ rt'.discovery.lastSeenByProcess ↔
        (q ∈ rt.discovery.lastSeenByProcess ∧ rt.forgets a q = false) ∨
          rt.hears a q = true) := by
    intro hl hf hh
    rw [hl, hf, hh]
    simp
  cases a with
  | advertise topic nodeUuid msgType options =>
      rw [perform_advertise] at h
      obtain ⟨rfl, -⟩ := fst_snd_of_some h
      refine hsame ?_ rfl rfl
      rw [discovery_advertise rt topic nodeUuid msgType options hr.enabled]
  | unadvertise topic nodeUuid =>
      obtain ⟨rfl, -⟩ := fst_snd_of_some h
      refine hsame ?_ rfl rfl
      rw [unadvertise, discovery_absorb, Discovery.self_unadvertise _ _ _ hr.enabled]
  | subscribe topic nodeUuid handler =>
      obtain ⟨rfl, -⟩ := fst_snd_of_some h
      refine hsame ?_ rfl rfl
      rw [subscribe, discovery_absorb, Discovery.self_discover]
  | unsubscribe topic nodeUuid =>
      obtain ⟨rfl, -⟩ := fst_snd_of_some h
      refine hsame ?_ rfl rfl
      simp only [unsubscribe]
      split <;> rfl
  | recv fromIp m now =>
      obtain ⟨rfl, -⟩ := fst_snd_of_some h
      rw [recvDiscoveryMsg, discovery_absorb, Discovery.mem_lastSeen_dispatch]
      simp [forgets, hears, and_assoc]
  | heartbeat now later =>
      obtain ⟨rfl, -⟩ := fst_snd_of_some h
      refine hsame ?_ rfl rfl
      rw [discovery_updateHeartbeat]
  | activity now later =>
      obtain ⟨rfl, -⟩ := fst_snd_of_some h
      rw [updateActivity, discovery_absorb, Discovery.mem_lastSeen_activity]
      simp [forgets, hears]
  | applyCommand ok =>
      refine hsame ?_ rfl rfl
      obtain ⟨c, rest, -, rfl, -⟩ := perform_applyCommand _ h
      rw [discovery_applyCommand]

/-- The keys of `last_seen_by_process_` are senders of datagrams from elsewhere. -/
theorem lastSeen_perform {rt' : MessageRuntime} {a : Action} {sent : List Msgs.Discovery}
    (hr : rt.Running) (h : rt.perform a = some (rt', sent)) {q : Str}
    (hq : q ∈ rt'.discovery.lastSeenByProcess) :
    q ∈ rt.discovery.lastSeenByProcess ∨
      ∃ fromIp m now, a = .recv fromIp m now ∧ q = m.processUuid ∧
        q ≠ rt.discovery.processUuid := by
  rcases (mem_lastSeen_perform hr h q).mp hq with hq | hears
  · exact .inl hq.1
  · cases a with
    | recv fromIp m now =>
        simp only [MessageRuntime.hears, Bool.and_eq_true, decide_eq_true_eq] at hears
        obtain ⟨⟨hne, -⟩, rfl⟩ := hears
        exact .inr ⟨fromIp, m, now, rfl, rfl, hne⟩
    | _ => cases hears

/-- The table of a process is well formed, its own publishers are as `advertise` made
them, and it does not watch over itself. -/
structure Sound (rt : MessageRuntime) : Prop where
  running : rt.Running
  nonempty : rt.processUuid ≠ []
  wellFormed : rt.discovery.knownPublishers.WellFormed
  own : ∀ {t : Str} {x : MessagePublisherInfo},
    x ∈ rt.discovery.knownPublishers.pubsOf t rt.processUuid →
    ∃ nodeUuid msgType options, x = MessagePublisherInfo.make t rt.address (str "unused")
      rt.processUuid nodeUuid msgType options
  notSeen : rt.processUuid ∉ rt.discovery.lastSeenByProcess

/-- The callbacks and the identity of a process are in two of its fields. -/
theorem Running.same {rt' : MessageRuntime} (h : rt.Running)
    (hd : rt'.discovery = rt.discovery) (hu : rt'.processUuid = rt.processUuid) : rt'.Running := by
  refine ⟨?_, ?_, ?_, ?_, ?_, ?_⟩
  · exact hd ▸ h.enabled
  · rw [hd, hu]
    exact h.uuid
  · exact hd ▸ h.connection
  · exact hd ▸ h.disconnection
  · exact hd ▸ h.registration
  · exact hd ▸ h.unregistration

/-- What the handlers, the queue and the filed publishers become does not matter to it. -/
theorem Sound.same {rt' : MessageRuntime} (h : rt.Sound) (hd : rt'.discovery = rt.discovery)
    (hu : rt'.processUuid = rt.processUuid) (ha : rt'.address = rt.address) : rt'.Sound := by
  refine ⟨h.running.same hd hu, ?_, ?_, ?_, ?_⟩
  · rw [hu]
    exact h.nonempty
  · rw [hd]
    exact h.wellFormed
  · rw [hd, hu, ha]
    exact h.own
  · rw [hd, hu]
    exact h.notSeen

/-- The process that a datagram with a `pub` member describes is its sender. -/
theorem processUuid_parsed_pub {m : Msgs.Discovery} {p : Msgs.Publisher}
    (h : m.contents = .pub p) : (parsed m).processUuid = m.processUuid := by
  simp [parsed, PubLike.setFromDiscovery, MessagePublisherInfo.setFromDiscovery,
    PublisherInfo.setFromDiscovery, h]

/-- Any other datagram describes no process, and hides nothing. -/
theorem parsed_of_not_pub {m : Msgs.Discovery} (h : ∀ p, m.contents ≠ .pub p) :
    (parsed m).processUuid = [] ∧ (parsed m).ctrl = [] ∧
      ∀ b, Discovery.hidden (parsed m) b = false := by
  cases hc : m.contents with
  | pub p => exact absurd hc (h p)
  | sub topic =>
      simp [parsed, PubLike.setFromDiscovery, PubLike.default,
        MessagePublisherInfo.setFromDiscovery,
        PublisherInfo.setFromDiscovery, hc, Msgs.Discovery.pub, Msgs.Publisher.msgPub,
        Discovery.hidden, PubLike.scope]
  | notSet =>
      simp [parsed, PubLike.setFromDiscovery, PubLike.default,
        MessagePublisherInfo.setFromDiscovery,
        PublisherInfo.setFromDiscovery, hc, Msgs.Discovery.pub, Msgs.Publisher.msgPub,
        Discovery.hidden, PubLike.scope]

/-- A datagram never describes a publisher of its receiver. -/
theorem processUuid_adds {fromIp : Str} {m : Msgs.Discovery} {now : ℕ} {x : MessagePublisherInfo}
    (hu : rt.discovery.processUuid = rt.processUuid) (hne : rt.processUuid ≠ [])
    (h : rt.adds (.recv fromIp m now) = some x) : x.processUuid ≠ rt.processUuid := by
  simp only [adds] at h
  split at h
  case isFalse => cases h
  case isTrue hm =>
    obtain rfl := Option.some.inj h
    by_cases hpub : ∃ p, m.contents = .pub p
    · obtain ⟨p, hc⟩ := hpub
      rw [processUuid_parsed_pub hc, ← hu]
      exact hm.1
    · rw [(parsed_of_not_pub fun p hc => hpub ⟨p, hc⟩).1]
      exact hne.symm

theorem sound_init {processUuid : Str} (h : processUuid ≠ []) (processName hostAddr address : Str) :
    (init processUuid processName hostAddr address).Sound :=
  ⟨running_init .., h, wellFormed_empty, fun hx => by simp [init] at hx, by simp [init]⟩

/-- **The step lemma**, whatever datagrams arrive. -/
theorem Sound.step {rt' : MessageRuntime} {a : Action} {sent : List Msgs.Discovery}
    (hs : rt.Sound) (h : rt.perform a = some (rt', sent)) : rt'.Sound := by
  have hk := kept_perform hs.running h
  have hknown := knownAfter_perform hs.running h
  have huuid := hs.running.uuid
  refine ⟨hk.running hs.running, by rw [hk.processUuid]; exact hs.nonempty, ?_, ?_, ?_⟩
  · exact hs.wellFormed.edited hknown.edited
  · intro t x hx
    rw [hk.processUuid] at hx ⊢
    rw [hk.address]
    rcases (hknown.mem _ _ _).mp hx with ⟨hx, -⟩ | ⟨hadds, -, rfl, hq⟩
    · exact hs.own hx
    · cases a with
      | advertise topic nodeUuid msgType options =>
          obtain rfl := Option.some.inj hadds
          exact ⟨nodeUuid, msgType, options, rfl⟩
      | recv fromIp m now =>
          exact absurd hq.symm (processUuid_adds hs.running.uuid hs.nonempty hadds)
      | _ => cases hadds
  · rw [hk.processUuid]
    intro hq
    rcases lastSeen_perform hs.running h hq with hq | ⟨_, _, _, -, -, hne⟩
    · exact hs.notSeen hq
    · exact hne huuid.symm

theorem Sound.recv (hs : rt.Sound) (fromIp : Str) (m : Msgs.Discovery) (now : ℕ) :
    (rt.recvDiscoveryMsg fromIp m now).1.Sound := by
  have hp : rt.perform (.recv fromIp m now) = some ((rt.recvDiscoveryMsg fromIp m now).1,
      (rt.recvDiscoveryMsg fromIp m now).2) := rfl
  exact hs.step hp

end MessageRuntime
end RfTrans
