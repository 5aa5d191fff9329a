import RfTrans.Discovery.Runs

/-!
# Processes that fall silent

`updateActivity` goes through the processes it has heard of, and through all topics for each
of them that it gives up, and calls back once it has let go of the lock.  This module has
the loop as it is written, and says what a tick does for every state that it can find: who is
given up, what is forgotten and who is reported, then and in the future.

## Main definitions

* `Discovery.sweep` — the loop.
* `Discovery.Silent` — a process whose last datagram is too long ago.
* `Discovery.silence_exact`
-/

namespace RfTrans
namespace Discovery

open PubLike TopicStorage

variable {π : Type} [PubLike π] (d : Discovery π)

/-- What the loop of `updateActivity` works on. -/
structure Sweep (π : Type) where
  known : TopicStorage π
  lastSeen : StrMap ℕ
  expired : List Str := []

/-- One pass of the loop. -/
def sweepStep (now : ℕ) (s : Sweep π) (x : Str × ℕ) : Sweep π :=
  if d.expired now x.2 then
    { known := (s.known.delPublishersByProc x.1).1
      lastSeen := s.lastSeen.erase x.1
      expired := s.expired ++ [x.1] }
  else s

/-- The loop of `updateActivity`. Erasing an entry leaves the iterators to others valid. -/
def sweep (now : ℕ) : Sweep π :=
  d.lastSeenByProcess.toList.foldl (d.sweepStep now) ⟨d.knownPublishers, d.lastSeenByProcess, []⟩

/-- The last datagram of a process came more than `silence_interval` whole milliseconds ago. -/
def Silent (now : ℕ) (q : Str) : Prop :=
  ∃ seen, d.lastSeenByProcess[q]? = some seen ∧ seen + (d.silenceInterval + 1) * 1000000 ≤ now

/-! ## The loop -/

variable {d} {now later : ℕ} {q : Str}

omit [PubLike π] in
theorem foldl_sweepStep (entries : List (Str × ℕ)) (s : Sweep π) :
    entries.foldl (d.sweepStep now) s =
      let gone := (entries.filter fun x => d.expired now x.2).map (·.1)
      { known := gone.foldl (fun st uuid => (st.delPublishersByProc uuid).1) s.known
        lastSeen := gone.foldl (fun seen uuid => seen.erase uuid) s.lastSeen
        expired := s.expired ++ gone } := by
  induction entries generalizing s with
  | nil => simp
  | cons x entries ih =>
      rw [List.foldl_cons, ih, sweepStep]
      by_cases h : d.expired now x.2 = true
      · simp [h]
      · simp [h]

/-- Entries that are erased one after the other. -/
theorem getElem?_foldl_erase {gone : List Str} {seen : StrMap ℕ} :
    (gone.foldl (fun seen uuid => seen.erase uuid) seen)[q]? =
      if q ∈ gone then none else seen[q]? := by
  induction gone generalizing seen with
  | nil => simp
  | cons uuid gone ih =>
      rw [List.foldl_cons, ih, Std.ExtTreeMap.getElem?_erase]
      by_cases hq : q = uuid
      · simp [hq]
      · have hcmp : ¬ compare uuid q = .eq := by
          rw [Std.LawfulEqCmp.compare_eq_iff_eq]
          exact Ne.symm hq
        simp [hq, hcmp]

omit [PubLike π] in
theorem expired_iff {seen : ℕ} :
    d.expired now seen = true ↔ seen + (d.silenceInterval + 1) * 1000000 ≤ now := by
  rw [expired, decide_eq_true_eq, Nat.lt_iff_add_one_le, Nat.le_div_iff_mul_le (by norm_num)]
  omega

omit [PubLike π] in
theorem mem_expiredProcesses_iff : q ∈ d.expiredProcesses now ↔ d.Silent now q := by
  rw [mem_expiredProcesses]
  simp only [expired_iff]
  rfl

omit [PubLike π] in
theorem getElem?_filter_expired :
    (d.lastSeenByProcess.filter fun _ seen => !d.expired now seen)[q]? =
      if q ∈ d.expiredProcesses now then none else d.lastSeenByProcess[q]? := by
  simp only [mem_expiredProcesses, Std.ExtTreeMap.getElem?_filter']
  cases h : d.lastSeenByProcess[q]? with
  | none => simp
  | some seen =>
      by_cases hexp : d.expired now seen = true
      · simp [Option.filter, hexp]
      · simp [Option.filter, hexp]

omit [PubLike π] in
/-- The loop erases what does not stay, and removes the publishers of the same processes. -/
theorem sweep_eq (d : Discovery π) (now : ℕ) : d.sweep now =
    { known := (d.expiredProcesses now).foldl (fun st uuid => (st.delPublishersByProc uuid).1)
        d.knownPublishers
      lastSeen := d.lastSeenByProcess.filter fun _ seen => !d.expired now seen
      expired := d.expiredProcesses now } := by
  rw [sweep, foldl_sweepStep]
  refine congrArg₂ (fun seen gone => Sweep.mk _ seen gone) ?_ (List.nil_append _)
  apply Std.ExtTreeMap.ext_getElem?
  intro q
  exact getElem?_foldl_erase.trans getElem?_filter_expired.symm

/-- A tick that is due does what the loop does. -/
theorem updateActivity_eq_sweep (hdue : d.timeNextActivity ≤ now) :
    (d.updateActivity now later).self =
        { d with
          knownPublishers := (d.sweep now).known
          lastSeenByProcess := (d.sweep now).lastSeen
          timeNextActivity := later + d.activityInterval * 1000000 } ∧
      (d.updateActivity now later).calls =
        if d.disconnectionCb then
          (d.sweep now).expired.map fun uuid => .disconnection (setProcessUuid default uuid)
        else [] := by
  rw [updateActivity, if_neg (by omega), sweep_eq]
  exact ⟨rfl, rfl⟩

/-! ## Senders -/

/-- The process that a datagram is from. -/
def Action.sender : Action π → Option Str
  | .recv _ m _ => some m.processUuid
  | _ => none

/-- A tick of `updateActivity`. -/
def Action.isActivity : Action π → Bool
  | .activity .. => true
  | _ => false

/-- A setter of the base class sets it. -/
class SetsBase (π : Type) [PubLike π] : Prop where
  base_setBase : ∀ (p : π) (b : PublisherInfo), base (setBase p b) = b

instance : SetsBase MessagePublisherInfo := ⟨fun _ _ => rfl⟩
instance : SetsBase ServicePublisherInfo := ⟨fun _ _ => rfl⟩

theorem processUuid_setProcessUuid [SetsBase π] (p : π) (q : Str) :
    PubLike.processUuid (setProcessUuid p q) = q := by
  rw [PubLike.processUuid, setProcessUuid, SetsBase.base_setBase]

variable {a : Action π} {as : List (Action π)} {p : π}

/-- What a process was last heard of is not changed by others. -/
theorem lastSeen_of_perform {seen : ℕ} (ha : a.sender ≠ some q)
    (h : (d.perform a).self.lastSeenByProcess[q]? = some seen) :
    d.lastSeenByProcess[q]? = some seen := by
  cases a with
  | advertise p =>
      simp only [perform, advertise] at h
      split at h
      case isTrue => split at h <;> exact h
      case isFalse => exact h
  | unadvertise topic nodeUuid =>
      simp only [perform, unadvertise] at h
      split at h
      case isTrue => split at h <;> exact h
      case isFalse => exact h
  | discover topic =>
      rw [perform, d.self_discover] at h
      exact h
  | recv fromIp m now =>
      by_cases hown : m.processUuid = d.processUuid
      · rw [perform, dispatchDiscoveryMsg, if_pos hown] at h
        exact h
      have hcmp : ¬ compare m.processUuid q = .eq := by
        rw [Std.LawfulEqCmp.compare_eq_iff_eq]
        intro hq
        exact ha (congrArg some hq)
      rw [perform, d.lastSeen_dispatch hown] at h
      split at h
      case isTrue =>
        rwa [Std.ExtTreeMap.getElem?_erase, if_neg hcmp, Std.ExtTreeMap.getElem?_insert,
          if_neg hcmp] at h
      case isFalse => rwa [Std.ExtTreeMap.getElem?_insert, if_neg hcmp] at h
  | heartbeat now later =>
      rw [perform, d.self_updateHeartbeat] at h
      exact h
  | activity now later =>
      simp only [perform, updateActivity] at h
      split at h
      case isTrue => exact h
      case isFalse =>
        rw [Std.ExtTreeMap.getElem?_filter'] at h
        exact Option.eq_some_of_filter_eq_some h

/-- Nobody starts to be watched without a datagram. -/
theorem not_lastSeen_perform (hq : q ∉ d.lastSeenByProcess) (ha : a.sender ≠ some q) :
    q ∉ (d.perform a).self.lastSeenByProcess := by
  intro hmem
  rw [← Std.ExtTreeMap.isSome_getElem?_iff_mem] at hmem
  obtain ⟨seen, hseen⟩ := Option.isSome_iff_exists.mp hmem
  have hbefore := lastSeen_of_perform ha hseen
  rw [Std.ExtTreeMap.getElem?_eq_none hq] at hbefore
  cases hbefore

theorem not_lastSeen_run (hq : q ∉ d.lastSeenByProcess) (has : ∀ a ∈ as, a.sender ≠ some q) :
    q ∉ (d.run as).lastSeenByProcess := by
  induction as generalizing d with
  | nil => exact hq
  | cons a as ih =>
      have hstep := not_lastSeen_perform hq (has a List.mem_cons_self)
      exact ih hstep fun b hb => has b (List.mem_cons_of_mem a hb)

/-- What a datagram takes away: its publisher, or all of its sender. -/
theorem disconnection_dispatch {fromIp : Str} {m : Msgs.Discovery} {now : ℕ}
    (h : .disconnection p ∈ (d.dispatchDiscoveryMsg fromIp m now).calls) :
    p = parse m ∨ p = setProcessUuid PubLike.default m.processUuid := by
  simp only [dispatchDiscoveryMsg] at h
  split at h
  case isTrue => simp at h
  case isFalse =>
    split at h
    case h_1 =>
      split at h
      case isTrue => simp at h
      case isFalse =>
        dsimp only at h
        split at h <;> simp at h
    case h_2 =>
      split at h
      case isTrue => simp at h
      case isFalse =>
        dsimp only at h
        split at h
        case isTrue => exact .inl (Callback.disconnection.inj (List.mem_singleton.mp h))
        case isFalse => simp at h
    case h_3 => split at h <;> simp at h
    case h_4 =>
      dsimp only at h
      split at h <;> simp at h
    case h_5 =>
      dsimp only at h
      split at h <;> simp at h
    case h_7 =>
      dsimp only at h
      split at h
      case isTrue => exact .inr (Callback.disconnection.inj (List.mem_singleton.mp h))
      case isFalse => simp at h
    all_goals simp at h

/-! ## Since when -/

/-- A datagram is the last one of its sender. -/
theorem lastSeen_dispatch_self {fromIp : Str} {m : Msgs.Discovery}
    (hne : m.processUuid ≠ d.processUuid) :
    (d.dispatchDiscoveryMsg fromIp m now).self.lastSeenByProcess[m.processUuid]? =
      if m.type = .bye then none else some now := by
  rw [d.lastSeen_dispatch hne]
  by_cases hbye : m.type = .bye
  · rw [if_pos hbye, if_pos hbye]
    exact Std.ExtTreeMap.getElem?_erase_self
  · rw [if_neg hbye, if_neg hbye]
    exact Std.ExtTreeMap.getElem?_insert_self

/-- **The table holds the time of the last datagram** of each process in it. -/
theorem lastSeen_run {uuid : Str} {seen : ℕ} (hd : Alert uuid d) (hq : q ∉ d.lastSeenByProcess)
    (h : (d.run as).lastSeenByProcess[q]? = some seen) :
    ∃ pre fromIp m post, as = pre ++ .recv fromIp m seen :: post ∧ m.processUuid = q ∧
      ∀ b ∈ post, b.sender ≠ some q := by
  induction as using List.reverseRecOn with
  | nil =>
      rw [run_nil, Std.ExtTreeMap.getElem?_eq_none hq] at h
      cases h
  | append_singleton as a ih =>
      rw [run_concat] at h
      by_cases ha : a.sender = some q
      · cases a with
        | recv fromIp m now =>
            obtain rfl := Option.some.inj ha
            have halert := hd.run as
            have hne : m.processUuid ≠ (d.run as).processUuid := by
              intro hown
              rw [perform, dispatchDiscoveryMsg, if_pos hown, hown, halert.identity,
                Std.ExtTreeMap.getElem?_eq_none halert.notSeen] at h
              cases h
            rw [perform, lastSeen_dispatch_self hne] at h
            split at h
            case isTrue => cases h
            case isFalse =>
              obtain rfl := Option.some.inj h
              exact ⟨as, fromIp, m, [], rfl, rfl, by simp⟩
        | advertise | unadvertise | discover | heartbeat | activity => cases ha
      · obtain ⟨pre, fromIp, m, post, rfl, hm, hpost⟩ := ih (lastSeen_of_perform ha h)
        refine ⟨pre, fromIp, m, post ++ [a], by simp, hm, ?_⟩
        intro b hb
        rcases List.mem_append.mp hb with hb | hb
        · exact hpost b hb
        · rw [List.mem_singleton.mp hb]
          exact ha

/-! ## Reports -/

variable [WirePub π] [SetsBase π]

/-- Who is reported as gone: the sender of a datagram, perhaps without its uuid, and on a
tick whom it gives up. -/
theorem disconnection_perform (h : .disconnection p ∈ (d.perform a).calls) :
    (a.isActivity = false ∧
      (a.sender = some (PubLike.processUuid p) ∨ PubLike.processUuid p = [])) ∨
    PubLike.processUuid p ∈ d.lastSeenByProcess := by
  cases a with
  | advertise x =>
      simp only [perform, advertise] at h
      split at h
      case isTrue =>
        split at h
        case isTrue =>
          dsimp only at h
          split at h <;> simp at h
        case isFalse => simp at h
      case isFalse => simp at h
  | unadvertise topic nodeUuid =>
      simp only [perform, unadvertise] at h
      split at h
      case isTrue => split at h <;> simp at h
      case isFalse => simp at h
  | discover topic =>
      simp only [perform, discover] at h
      split at h
      case isTrue =>
        dsimp only at h
        split at h <;> simp at h
      case isFalse => simp at h
  | recv fromIp m now =>
      left
      refine ⟨rfl, ?_⟩
      rcases disconnection_dispatch h with rfl | rfl
      · rcases processUuid_parse_or (π := π) m with huuid | huuid
        · exact .inl (congrArg some huuid.symm)
        · exact .inr huuid
      · exact .inl (congrArg some (processUuid_setProcessUuid ..).symm)
  | heartbeat now later =>
      simp only [perform, updateHeartbeat] at h
      split at h <;> simp at h
  | activity now later =>
      right
      simp only [perform, updateActivity] at h
      split at h
      case isTrue => simp at h
      case isFalse =>
        dsimp only at h
        split at h
        case isTrue =>
          obtain ⟨q, hq, hcall⟩ := List.mem_map.mp h
          obtain ⟨seen, hget, -⟩ := d.mem_expiredProcesses.mp hq
          obtain rfl := Callback.disconnection.inj hcall
          rw [processUuid_setProcessUuid, ← Std.ExtTreeMap.isSome_getElem?_iff_mem, hget]
          rfl
        case isFalse => simp at h

/-! ## A tick -/

instance (d : Discovery π) (now : ℕ) (q : Str) : Decidable (d.Silent now q) :=
  decidable_of_iff _ mem_expiredProcesses_iff

/-- **A tick that is due gives up exactly the silent processes**: they are dropped and their
entries removed in all topics, nobody else loses any, and each of them is reported once and
nobody else.  Whoever was dropped is not reported again before it is heard again. -/
theorem silence_exact (d : Discovery π) (now later : ℕ) (hdue : d.timeNextActivity ≤ now) :
    (∀ q, (d.updateActivity now later).self.lastSeenByProcess[q]? =
      if d.Silent now q then none else d.lastSeenByProcess[q]?) ∧
    (∀ t q, (d.updateActivity now later).self.knownPublishers.pubsOf t q =
      if d.Silent now q then [] else d.knownPublishers.pubsOf t q) ∧
    (∃ dropped : List Str, dropped.Nodup ∧ (∀ q, q ∈ dropped ↔ d.Silent now q) ∧
      (d.updateActivity now later).calls =
        if d.disconnectionCb then
          dropped.map fun q => .disconnection (setProcessUuid PubLike.default q)
        else []) ∧
    ∀ q, d.Silent now q → ∀ (as : List (Action π)) (a : Action π),
      (∀ b ∈ as ++ [a], b.sender ≠ some q) → (a.isActivity ∨ q ≠ []) →
        ∀ p, .disconnection p ∈ (((d.updateActivity now later).self.run as).perform a).calls →
          PubLike.processUuid p ≠ q := by
  obtain ⟨hself, hcalls⟩ := @updateActivity_eq_sweep _ _ d now later hdue
  rw [sweep_eq] at hself hcalls
  have hseen : ∀ q, (d.updateActivity now later).self.lastSeenByProcess[q]? =
      if d.Silent now q then none else d.lastSeenByProcess[q]? := by
    intro q
    rw [hself]
    simp only [← mem_expiredProcesses_iff]
    exact getElem?_filter_expired
  refine ⟨hseen, ?_, ?_, ?_⟩
  · intro t q
    rw [hself]
    simp only [pubsOf_foldl_delPublishersByProc, mem_expiredProcesses_iff]
  · refine ⟨d.expiredProcesses now, ?_, fun q => mem_expiredProcesses_iff, hcalls⟩
    refine (List.Pairwise.filter _ Std.ExtTreeMap.distinct_keys_toList).map _ ?_
    intro x y hxy heq
    exact hxy (Std.LawfulEqCmp.compare_eq_iff_eq.mpr heq)
  · intro q hsilent as a has hcase p hp hpq
    have hnot : q ∉ (d.updateActivity now later).self.lastSeenByProcess := by
      rw [← Std.ExtTreeMap.isSome_getElem?_iff_mem, hseen, if_pos hsilent]
      simp
    have hrun := not_lastSeen_run hnot fun b hb => has b (List.mem_append_left _ hb)
    rcases disconnection_perform hp with ⟨hkind, hsender | hempty⟩ | hwatched
    · rw [hpq] at hsender
      exact has a (by simp) hsender
    · rcases hcase with htick | hne
      · rw [htick] at hkind
        cases hkind
      · exact hne (hpq.symm.trans hempty)
    · rw [hpq] at hwatched
      exact hrun hwatched

/-- One process was heard of at the start, the other one four seconds later. -/
def twoWatched : Discovery MessagePublisherInfo :=
  { (start (str "3c") [] []) with
    lastSeenByProcess := (∅ : StrMap ℕ).insert (str "5b") 4000000000 |>.insert (str "4a") 0 }

theorem silence_exact_two :
    (twoWatched.updateActivity 5000000000 5000000000).self.lastSeenByProcess[str "4a"]? = none ∧
    (twoWatched.updateActivity 5000000000 5000000000).self.lastSeenByProcess[str "5b"]? =
      some 4000000000 := by
  obtain ⟨hseen, -⟩ := silence_exact twoWatched 5000000000 5000000000 (Nat.zero_le _)
  have h4a : twoWatched.lastSeenByProcess[str "4a"]? = some 0 :=
    Std.ExtTreeMap.getElem?_insert_self
  have h5b : twoWatched.lastSeenByProcess[str "5b"]? = some 4000000000 := by decide
  rw [hseen, hseen, h5b]
  refine ⟨if_pos ⟨0, h4a, by decide⟩, if_neg ?_⟩
  intro hsilent
  obtain ⟨seen, hget, hle⟩ := hsilent
  obtain rfl := Option.some.inj (hget.symm.trans h5b)
  exact absurd hle (by decide)

end Discovery
end RfTrans
