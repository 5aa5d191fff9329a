import RfTrans.Lib.Exec
import RfTrans.Runtime.Known

/-!
# Is every remote entry watched?

Entries of other processes leave the tables when their process has been silent for too
long, which is measured from `last_seen_by_process_`.  That map is keyed by the sender
of a datagram, the tables by the process that the datagram describes, and an ADVERTISE
without a `pub` member describes no process.

## Main definitions

* `MessageRuntime.Watched` — every remote entry is of a process that is watched.
* `MessageRuntime.Enveloped` — an ADVERTISE has a `pub` member.
* `always_watched_iff` — the one holds throughout a run if and only if the other does.
-/

namespace RfTrans
namespace MessageRuntime

open Exec TopicStorage Std

/-- The step function of a process, without what it sends. -/
def next (rt : MessageRuntime) (a : Action) : Option MessageRuntime := (rt.perform a).map (·.1)

/-- The process of every entry that is not an own publisher is watched. -/
structure Watched (rt : MessageRuntime) : Prop where
  known : ∀ t q, ∀ x ∈ rt.discovery.knownPublishers.pubsOf t q, x.processUuid ≠ rt.processUuid →
    x.processUuid ∈ rt.discovery.lastSeenByProcess
  subscribers : ∀ t q, ∀ x ∈ rt.remoteSubscribers.pubsOf t q,
    x.processUuid ∈ rt.discovery.lastSeenByProcess

/-- An ADVERTISE from elsewhere has a `pub` member, or the empty process uuid that it
then describes is watched as well. -/
def Enveloped (rt : MessageRuntime) : Action → Prop
  | .recv _ m _ => m.processUuid ≠ rt.discovery.processUuid → m.type = .advertise →
      (∃ p, m.contents = .pub p) ∨ m.processUuid = [] ∨ [] ∈ rt.discovery.lastSeenByProcess
  | _ => True

/-- Once a process has been silent for too long, a tick that is due leaves it no entry. -/
def Mortal (rt : MessageRuntime) (q : Str) : Prop :=
  ∃ seen, rt.discovery.lastSeenByProcess[q]? = some seen ∧ ∀ now later,
    ¬ now < rt.discovery.timeNextActivity → rt.discovery.expired now seen = true → ∀ t,
      (rt.updateActivity now later).1.discovery.knownPublishers.pubsOf t q = [] ∧
        (rt.updateActivity now later).1.remoteSubscribers.pubsOf t q = []

variable {rt rt' : MessageRuntime}

/-- A process that is watched is removed by its silence. -/
theorem mortal_of_lastSeen (hr : rt.Running) {q : Str}
    (hq : q ∈ rt.discovery.lastSeenByProcess) : rt.Mortal q := by
  have hget := ExtTreeMap.isSome_getElem?_iff_mem.mpr hq
  obtain ⟨seen, hseen⟩ := Option.isSome_iff_exists.mp hget
  refine ⟨seen, hseen, fun now later hdue hexp t => ?_⟩
  have hgone := rt.discovery.mem_expiredProcesses.mpr ⟨seen, hseen, hexp⟩
  constructor
  · simp only [updateActivity, discovery_absorb, Discovery.updateActivity, if_neg hdue]
    rw [pubsOf_foldl_delPublishersByProc, if_pos hgone]
  · rw [remoteSubscribers_activity hr hdue, pubsOf_foldl_delPublishersByProc, if_pos hgone]

/-- When the watch over a process ends, so do its entries. -/
theorem drops_of_forgets {a : Action} {q : Str} (h : rt.forgets a q = true) (t n : Str) :
    rt.drops a t q n = true ∧ rt.ends a t q n = true := by
  cases a with
  | recv fromIp m now =>
      simp only [forgets, Bool.and_eq_true, decide_eq_true_eq] at h
      obtain ⟨⟨hne, hbye⟩, rfl⟩ := h
      simp [drops, ends, hne, hbye]
  | activity now later =>
      simp only [forgets, Bool.and_eq_true, decide_eq_true_eq] at h
      simp only [drops, ends, Bool.and_eq_true, decide_eq_true_eq]
      exact ⟨h, h⟩
  | _ => cases h

/-- What holds in any run: the process is sound, and registrations are filed under
their process. -/
structure Filed (rt : MessageRuntime) : Prop where
  sound : rt.Sound
  filed : ∀ t q, ∀ x ∈ rt.remoteSubscribers.pubsOf t q, x.processUuid = q

theorem filed_init {processUuid : Str} (h : processUuid ≠ []) (processName hostAddr address : Str) :
    (init processUuid processName hostAddr address).Filed :=
  ⟨sound_init h .., fun t q x hx => by simp [init] at hx⟩

theorem Filed.step {a : Action} (hf : rt.Filed) (h : next rt a = some rt') : rt'.Filed := by
  obtain ⟨⟨rt'', sent⟩, hp, rfl⟩ := Option.map_eq_some_iff.mp h
  refine ⟨hf.sound.step hp, fun t q x hx => ?_⟩
  rcases (registrationsAfter_perform hf.sound.running hp t q x).mp hx with ⟨hx, -⟩ | ⟨-, -, -, rfl⟩
  · exact hf.filed t q x hx
  · rfl

/-- **The step lemma.** -/
theorem Watched.step {a : Action} (hw : rt.Watched) (hf : rt.Filed) (ha : rt.Enveloped a)
    (h : next rt a = some rt') : rt'.Watched := by
  obtain ⟨⟨rt'', sent⟩, hp, rfl⟩ := Option.map_eq_some_iff.mp h
  have hr := hf.sound.running
  have hseen := mem_lastSeen_perform hr hp
  refine ⟨fun t q x hx hne => ?_, fun t q x hx => ?_⟩
  · rw [(kept_perform hr hp).processUuid] at hne
    rcases ((knownAfter_perform hr hp).mem t q x).mp hx with ⟨hx, hdrops⟩ | ⟨hadds, -, -, -⟩
    · have hq : x.processUuid = q := (hf.sound.wellFormed.filed hx).2
      refine (hseen _).mpr (.inl ⟨hw.known t q x hx hne, ?_⟩)
      by_contra hforgets
      rw [Bool.not_eq_false, hq] at hforgets
      rw [(drops_of_forgets hforgets t x.nodeUuid).1] at hdrops
      cases hdrops
    · cases a with
      | advertise topic nodeUuid msgType options =>
          obtain rfl := Option.some.inj hadds
          exact absurd rfl hne
      | recv fromIp m now =>
          simp only [adds] at hadds
          split at hadds
          case isFalse => cases hadds
          case isTrue hm =>
            obtain rfl := Option.some.inj hadds
            have hhears : ∀ q, q = m.processUuid → rt.hears (.recv fromIp m now) q = true := by
              intro q hq
              simp [hears, hm.1, hm.2.1, hq]
            by_cases hpub : ∃ p, m.contents = .pub p
            · obtain ⟨p, hpub⟩ := hpub
              exact (hseen _).mpr (.inr (hhears _ (processUuid_parsed_pub hpub)))
            · rw [(parsed_of_not_pub (not_exists.mp hpub)).1]
              rcases (ha hm.1 hm.2.1).resolve_left hpub with hm' | hnil
              · exact (hseen _).mpr (.inr (hhears _ hm'.symm))
              · exact (hseen _).mpr (.inl ⟨hnil, by simp [forgets, hm.2.1]⟩)
      | _ => cases hadds
  · rcases (registrationsAfter_perform hr hp t q x).mp hx with ⟨hx, hends, -⟩ | ⟨hreg, -, -, -⟩
    · refine (hseen _).mpr (.inl ⟨hw.subscribers t q x hx, ?_⟩)
      by_contra hforgets
      rw [Bool.not_eq_false, hf.filed t q x hx] at hforgets
      rw [(drops_of_forgets hforgets t x.nodeUuid).2] at hends
      cases hends
    · cases a with
      | recv fromIp m now =>
          simp only [registers] at hreg
          split at hreg
          case isFalse => cases hreg
          case isTrue hm =>
            obtain rfl := Option.some.inj hreg
            have hpub : ∃ p, m.contents = .pub p := by
              by_contra hpub
              have hctrl := (parsed_of_not_pub (not_exists.mp hpub)).2.1
              exact hf.sound.nonempty (hm.2.2.symm.trans hctrl)
            obtain ⟨p, hpub⟩ := hpub
            refine (hseen _).mpr (.inr ?_)
            rw [processUuid_parsed_pub hpub]
            simp [hears, hm.1, hm.2.1]
      | _ => cases hreg

/-- An ADVERTISE without a `pub` member makes an entry that nobody watches. -/
theorem enveloped_of_watched {a : Action} (hf : rt.Filed) (hw : rt.Watched)
    (h : ∀ rt', next rt a = some rt' → rt'.Watched) : rt.Enveloped a := by
  cases a with
  | recv fromIp m now =>
      intro hne ht
      by_contra hcon
      push Not at hcon
      obtain ⟨hpub, hm, hnil⟩ := hcon
      have hr := hf.sound.running
      have hnone := parsed_of_not_pub hpub
      have hp : rt.perform (.recv fromIp m now) =
          some ((rt.recvDiscoveryMsg fromIp m now).1, (rt.recvDiscoveryMsg fromIp m now).2) := rfl
      have hadds : rt.adds (.recv fromIp m now) = some (parsed m) := by
        simp [adds, hne, ht, hnone.2.2]
      have hnew : (rt.discovery.knownPublishers.addPublisher (parsed m)).2 = true := by
        rw [addPublisher_snd]
        intro x hx
        have hq : x.processUuid = [] :=
          (hf.sound.wellFormed.filed hx).2.trans hnone.1
        have hwatched := hw.known _ _ x hx (hq ▸ hf.sound.nonempty.symm)
        exact absurd (hq ▸ hwatched) hnil
      have hmem := ((knownAfter_perform hr hp).mem (parsed m).topic (parsed m).processUuid
        (parsed m)).mpr (.inr ⟨hadds, hnew, rfl, rfl⟩)
      have hwatched := (h _ rfl).known _ _ _ hmem (by
        rw [hnone.1, (kept_perform hr hp).processUuid]
        exact hf.sound.nonempty.symm)
      rw [hnone.1, mem_lastSeen_perform hr hp] at hwatched
      rcases hwatched with ⟨hseen, -⟩ | hhears
      · exact hnil hseen
      · simp only [hears, Bool.and_eq_true, decide_eq_true_eq] at hhears
        exact hm hhears.2.symm
  | _ => trivial

/-- **No immortal entry**, if and only if every ADVERTISE has a `pub` member (or the empty
uuid is watched too). -/
theorem always_watched_iff (processUuid processName hostAddr address : Str)
    (hne : processUuid ≠ []) (as : List Action) :
    Always next (fun rt => rt.Watched ∧
        (∀ t q, ∀ x ∈ rt.discovery.knownPublishers.pubsOf t q,
          x.processUuid ≠ rt.processUuid → rt.Mortal x.processUuid) ∧
        ∀ t q, ∀ x ∈ rt.remoteSubscribers.pubsOf t q, rt.Mortal x.processUuid)
      (init processUuid processName hostAddr address) as ↔
    Guarded next Enveloped (init processUuid processName hostAddr address) as := by
  have hinit : (init processUuid processName hostAddr address).Filed :=
    filed_init hne processName hostAddr address
  constructor
  · refine Always.guarded_of_stable (fun _ _ _ hf h => hf.step h) (fun rt a hf hw h => ?_) hinit
    exact enveloped_of_watched hf hw.1 fun rt' ht => (h rt' ht).1
  · intro hg
    refine always_of_invariant (fun rt a rt' (hi : rt.Filed ∧ rt.Watched) ha h =>
      ⟨hi.1.step h, hi.2.step hi.1 ha h⟩) (fun rt hi => ?_)
      ⟨hinit, ⟨fun t q x hx => ?_, fun t q x hx => ?_⟩⟩ hg
    · exact ⟨hi.2,
        fun t q x hx hne => mortal_of_lastSeen hi.1.sound.running (hi.2.known t q x hx hne),
        fun t q x hx => mortal_of_lastSeen hi.1.sound.running (hi.2.subscribers t q x hx)⟩
    · simp [init] at hx
    · simp [init] at hx

/-! ## Two runs -/

/-- Process `4a` on its host. -/
def example4a : MessageRuntime :=
  init (str "4a") (str "p") (str "10.0.0.1") (str "tcp://10.0.0.1:4000")

/-- A datagram of process `5b` on another host. -/
def datagramOf5b (type : Msgs.DiscoveryType) (contents : Msgs.DiscContents) : Action :=
  .recv (str "10.0.0.2") { processUuid := str "5b", type := type, contents := contents } 0

/-- The publisher that it advertises. -/
def publisherOf5b : Msgs.Publisher :=
  { topic := str "t", address := str "tcp://10.0.0.2:5000", nodeUuid := str "n1", scope := .all,
    pubType := .msgPub { ctrl := str "4a", msgType := str "A" } }

/-- An ADVERTISE, a registration, and silence. -/
def silenceRun : List Action :=
  [datagramOf5b .advertise (.pub publisherOf5b), datagramOf5b .newConnection (.pub publisherOf5b),
    .activity 4000000000 4000000001]

theorem always_watched_iff_silence :
    Always next (fun rt => rt.Watched ∧
        (∀ t q, ∀ x ∈ rt.discovery.knownPublishers.pubsOf t q,
          x.processUuid ≠ rt.processUuid → rt.Mortal x.processUuid) ∧
        ∀ t q, ∀ x ∈ rt.remoteSubscribers.pubsOf t q, rt.Mortal x.processUuid)
      example4a silenceRun :=
  (always_watched_iff (str "4a") (str "p") (str "10.0.0.1") (str "tcp://10.0.0.1:4000")
    (by decide) silenceRun).mpr
    ⟨fun _ _ => .inl ⟨_, rfl⟩, fun _ _ => ⟨nofun, fun _ _ => ⟨trivial, fun _ _ => trivial⟩⟩⟩

/-- An ADVERTISE whose oneof holds `sub`. -/
def subRun : List Action := [datagramOf5b .advertise (.sub (str "t"))]

/-- The entry that it makes is of a process that is not watched. -/
theorem subRun_not_watched : ∃ rt, exec next example4a subRun = some rt ∧ ¬ rt.Watched ∧
    ∃ x ∈ rt.discovery.knownPublishers.pubsOf (str "t") [],
      x.processUuid ≠ rt.processUuid ∧ x.processUuid ∉ rt.discovery.lastSeenByProcess := by
  have hentry : ∃ x ∈ ((exec next example4a subRun).getD
      example4a).discovery.knownPublishers.pubsOf (str "t") [],
      x.processUuid ≠ str "4a" ∧ x.processUuid ∉ ((exec next example4a subRun).getD
        example4a).discovery.lastSeenByProcess := by decide
  refine ⟨_, rfl, fun hw => ?_, hentry⟩
  obtain ⟨x, hx, hne, hseen⟩ := hentry
  exact hseen (hw.known _ _ x hx hne)

end MessageRuntime
end RfTrans
