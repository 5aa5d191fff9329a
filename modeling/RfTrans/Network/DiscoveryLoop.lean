import RfTrans.Discovery.Silence
import RfTrans.Lib.Exec
import RfTrans.Node.FailedAdvertise

/-!
# The thread of a discovery instance

`loop` waits for a datagram, but not beyond the next heartbeat or the next activity check, and
then does what is due.  How late a heartbeat can be, and how long a process can be silent
without being noticed, depends on the timeout that it computes, on what a pass does in which
order and on how long its work takes.

## Main definitions

* `Discovery.nextTimeout`
* `DiscoveryLoop.next` — a pass, cut at its readings of the clock, with the calls of other
  threads in between.
* `DiscoveryLoop.Prompt` — a pass takes no longer than its timeout and some slack.
* `DiscoveryLoop.heartbeats_regular`, `DiscoveryLoop.silence_noticed`
-/

namespace RfTrans

open Exec

/-! ## The timeout -/

/-- `kTimeout` -/
def kTimeout : ℤ := 250

namespace Discovery
variable {π : Type} [PubLike π]

/-- `nextTimeout`, at a reading of the clock.  `duration_cast` rounds towards zero, and the
milliseconds become an `int`. -/
def nextTimeout (d : Discovery π) (now : ℕ) : ℤ :=
  let untilNextHeartbeat : ℤ := d.timeNextHeartbeat - now
  let untilNextActivity : ℤ := d.timeNextActivity - now
  let t := ((min untilNextActivity untilNextHeartbeat).tdiv 1000000).bmod (2 ^ 32)
  max (min t kTimeout) 0

/-- What nothing but the setters changes. -/
def settings (d : Discovery π) : Str × Str × ℕ × ℕ × ℕ :=
  (d.processUuid, d.processName, d.silenceInterval, d.activityInterval, d.heartbeatInterval)

/-- `advertise`, `unadvertise` and `discover`, which other threads call. -/
def Action.isCall : Action π → Bool
  | .advertise _ | .unadvertise .. | .discover _ => true
  | _ => false

end Discovery

/-- Where the thread stands in a pass. -/
inductive Pass
  | top
  | polling
  | polled
  | beaten
  deriving DecidableEq

/-- A heartbeat: the readings of the clock at the start and at the end of `updateHeartbeat`. -/
structure Beat where
  started : ℕ
  ended : ℕ

/-- A discovery instance with its thread. -/
structure DiscoveryLoop (π : Type) where
  self : Discovery π
  pass : Pass := .top
  /-- The last reading of the clock. -/
  clock : ℕ
  /-- When the poll of this pass returns at the latest. -/
  limit : ℕ
  /-- The heartbeats, the last one first. -/
  beats : List Beat := []

namespace DiscoveryLoop

variable {π : Type} [PubLike π]

inductive Action (π : Type)
  | call (a : Discovery.Action π)
  | ask (now : ℕ)
  | recv (fromIp : Str) (m : Msgs.Discovery) (now : ℕ)
  | wake
  | heartbeat (now later : ℕ)
  | activity (now later : ℕ)

/-- After `start`. -/
def start (d : Discovery π) (now : ℕ) : DiscoveryLoop π :=
  { self := d.startAt now, clock := now, limit := now }

/-- One step of `loop` or of another thread.  The clock does not go back. -/
def next (s : DiscoveryLoop π) : Action π → Option (DiscoveryLoop π)
  | .call a => if a.isCall then some { s with self := (s.self.perform a).self } else none
  | .ask now =>
    if s.pass = .top ∧ s.clock ≤ now then
      some
        { s with
          pass := .polling
          clock := now
          limit := now + (s.self.nextTimeout now).toNat * 1000000 }
    else none
  | .recv fromIp m now =>
    if s.pass = .polling ∧ s.clock ≤ now then
      some
        { s with
          self := (s.self.dispatchDiscoveryMsg fromIp m now).self
          pass := .polled
          clock := now }
    else none
  -- The poll times out or fails, or what came is no datagram of the protocol.
  | .wake => if s.pass = .polling then some { s with pass := .polled } else none
  | .heartbeat now later =>
    if s.pass = .polled ∧ s.clock ≤ now ∧ now ≤ later then
      some
        { s with
          self := (s.self.updateHeartbeat now later).self
          pass := .beaten
          clock := later
          beats := if now < s.self.timeNextHeartbeat then s.beats else ⟨now, later⟩ :: s.beats }
    else none
  | .activity now later =>
    if s.pass = .beaten ∧ s.clock ≤ now ∧ now ≤ later then
      some { s with self := (s.self.updateActivity now later).self, pass := .top, clock := later }
    else none

/-- From the end of the poll to the next poll it takes at most `ε`. -/
def Prompt (ε : ℕ) (s : DiscoveryLoop π) : Action π → Prop
  | .ask now | .recv _ _ now => now ≤ s.limit + ε
  | .heartbeat _ later | .activity _ later => later ≤ s.limit + ε
  | .call _ | .wake => True

instance (ε : ℕ) (s : DiscoveryLoop π) : ∀ a, Decidable (s.Prompt ε a)
  | .ask _ | .recv .. | .heartbeat .. | .activity .. => inferInstanceAs (Decidable (_ ≤ _))
  | .call _ | .wake => isTrue trivial

end DiscoveryLoop

/-! ## How long the poll takes -/

namespace Discovery
variable {π : Type} {d : Discovery π} {now : ℕ}

/-- The poll takes between nothing and a quarter of a second. -/
theorem nextTimeout_mem : 0 ≤ d.nextTimeout now ∧ d.nextTimeout now ≤ kTimeout := by
  simp only [nextTimeout, kTimeout]
  omega

/-- What is not far below zero does not grow when it becomes an `int`. -/
theorem bmod_le_self {x : ℤ} (h : -2 ^ 31 ≤ x) : x.bmod (2 ^ 32) ≤ x := by
  by_cases hsmall : x < 2 ^ 31
  · exact (Int.bmod_eq_of_le (by omega) (by omega)).le
  · have hle : x.bmod (2 ^ 32) ≤ (2 ^ 32 - 1) / 2 := Int.bmod_le (by norm_num)
    omega

/-- **The poll ends before the next deadline**, unless that is weeks ago. -/
theorem nextTimeout_le (d : Discovery π) (now : ℕ)
    (hheartbeat : now ≤ d.timeNextHeartbeat + 2 ^ 31 * 1000000)
    (hactivity : now ≤ d.timeNextActivity + 2 ^ 31 * 1000000) :
    now + (d.nextTimeout now).toNat * 1000000 ≤
      max now (min d.timeNextHeartbeat d.timeNextActivity) := by
  simp only [nextTimeout]
  generalize hm : min ((d.timeNextActivity : ℤ) - now) (d.timeNextHeartbeat - now) = m
  have hlow : -2 ^ 31 ≤ m.tdiv 1000000 := Int.le_tdiv_of_mul_le (by norm_num) (by omega)
  have hint := bmod_le_self hlow
  rcases le_total 0 m with hpos | hneg
  · have hdiv : 1000000 * m.tdiv 1000000 ≤ m := Int.mul_tdiv_self_le hpos
    omega
  · have hdiv : m.tdiv 1000000 ≤ 0 := (Int.tdiv_le_tdiv (by norm_num) hneg).trans (by simp)
    omega

variable [PubLike π]

/-- A call of another thread changes the table of publishers only. -/
theorem self_call {a : Action π} (ha : a.isCall = true) :
    ∃ known, (d.perform a).self = { d with knownPublishers := known } := by
  cases a with
  | advertise p =>
      simp only [perform, advertise]
      split
      case isTrue => split <;> exact ⟨_, rfl⟩
      case isFalse => exact ⟨_, rfl⟩
  | unadvertise topic nodeUuid =>
      simp only [perform, unadvertise]
      split
      case isTrue => split <;> exact ⟨_, rfl⟩
      case isFalse => exact ⟨_, rfl⟩
  | discover topic => exact ⟨d.knownPublishers, d.self_discover topic⟩
  | recv | heartbeat | activity => cases ha

/-- A check changes the tables and its own deadline. -/
theorem self_updateActivity (d : Discovery π) (now later : ℕ) :
    ∃ known seen, (d.updateActivity now later).self = { d with
      knownPublishers := known
      lastSeenByProcess := seen
      timeNextActivity := if now < d.timeNextActivity then d.timeNextActivity
        else later + d.activityInterval * 1000000 } := by
  simp only [updateActivity]
  split
  case isTrue => exact ⟨_, _, rfl⟩
  case isFalse => exact ⟨_, _, rfl⟩

end Discovery

/-! ## One step -/

namespace DiscoveryLoop
variable {π : Type} [PubLike π] {s s' : DiscoveryLoop π} {ε : ℕ} {a : Action π}

/-- When the next heartbeat and the next check are due, and how far the poll may go. -/
structure Timed (ε : ℕ) (s : DiscoveryLoop π) : Prop where
  clock_le : s.clock ≤ s.limit + ε
  heartbeat_near : s.limit ≤ s.self.timeNextHeartbeat + ε
  activity_near : s.limit ≤ s.self.timeNextActivity + ε
  heartbeat_due : s.limit ≤ max s.clock s.self.timeNextHeartbeat
  activity_due : s.limit ≤ max s.clock s.self.timeNextActivity
  beaten : s.pass = .beaten ∨ s.pass = .top → s.limit ≤ s.self.timeNextHeartbeat
  top : s.pass = .top → s.limit ≤ s.self.timeNextActivity
  heartbeat_soon : s.self.timeNextHeartbeat ≤ s.clock + s.self.heartbeatInterval * 1000000
  activity_soon : s.self.timeNextActivity ≤ s.clock + s.self.activityInterval * 1000000

omit [PubLike π] in
/-- A poll that is asked for in time ends before the next deadline. -/
theorem Timed.poll_le (hs : s.Timed ε) (hε : ε ≤ 2 ^ 31 * 1000000) {now : ℕ} (hpass : s.pass = .top)
    (hprompt : now ≤ s.limit + ε) : now + (s.self.nextTimeout now).toNat * 1000000 ≤
      max now (min s.self.timeNextHeartbeat s.self.timeNextActivity) := by
  have hlimitH := hs.beaten (.inr hpass)
  have hlimitA := hs.top hpass
  exact s.self.nextTimeout_le now (by omega) (by omega)

theorem Timed.next (hs : s.Timed ε) (hε : ε ≤ 2 ^ 31 * 1000000) (ha : s.Prompt ε a)
    (h : next s a = some s') : s'.Timed ε := by
  have hpoll := @hs.poll_le
  obtain ⟨hclock, hnearH, hnearA, hdueH, hdueA, hbeaten, htop, hsoonH, hsoonA⟩ := hs
  cases a with
  | call a =>
      obtain ⟨hcall, hsame⟩ := Option.ite_none_right_eq_some.mp h
      obtain rfl := Option.some.inj hsame
      obtain ⟨known, hself⟩ := Discovery.self_call (d := s.self) hcall
      constructor <;> simp only [hself] <;> assumption
  | ask now =>
      obtain ⟨⟨hpass, hnow⟩, hsame⟩ := Option.ite_none_right_eq_some.mp h
      obtain rfl := Option.some.inj hsame
      have hlimitH := hbeaten (.inr hpass)
      have hlimitA := htop hpass
      have hprompt : now ≤ s.limit + ε := ha
      have hends := hpoll hε hpass hprompt
      refine ⟨?_, ?_, ?_, ?_, ?_, by simp, by simp, ?_, ?_⟩ <;> simp only <;> omega
  | recv fromIp m now =>
      obtain ⟨⟨hpass, hnow⟩, hsame⟩ := Option.ite_none_right_eq_some.mp h
      obtain rfl := Option.some.inj hsame
      have hprompt : now ≤ s.limit + ε := ha
      obtain ⟨known, seen, hself⟩ := s.self.self_dispatch fromIp m now
      refine ⟨?_, ?_, ?_, ?_, ?_, by simp, by simp, ?_, ?_⟩ <;> simp only [hself] <;> omega
  | wake =>
      obtain ⟨hpass, hsame⟩ := Option.ite_none_right_eq_some.mp h
      obtain rfl := Option.some.inj hsame
      exact ⟨hclock, hnearH, hnearA, hdueH, hdueA, by simp, by simp, hsoonH, hsoonA⟩
  | heartbeat now later =>
      obtain ⟨⟨hpass, hnow, hlater⟩, hsame⟩ := Option.ite_none_right_eq_some.mp h
      obtain rfl := Option.some.inj hsame
      have hprompt : later ≤ s.limit + ε := ha
      have hself := s.self.self_updateHeartbeat now later
      by_cases hdue : now < s.self.timeNextHeartbeat
      · rw [if_pos hdue] at hself
        refine ⟨?_, ?_, ?_, ?_, ?_, ?_, by simp, ?_, ?_⟩ <;> simp only [hself] <;> omega
      · rw [if_neg hdue] at hself
        refine ⟨?_, ?_, ?_, ?_, ?_, ?_, by simp, ?_, ?_⟩ <;> simp only [hself] <;> omega
  | activity now later =>
      obtain ⟨⟨hpass, hnow, hlater⟩, hsame⟩ := Option.ite_none_right_eq_some.mp h
      obtain rfl := Option.some.inj hsame
      have hprompt : later ≤ s.limit + ε := ha
      have hlimitH := hbeaten (.inl hpass)
      obtain ⟨known, seen, hself⟩ := s.self.self_updateActivity now later
      by_cases hdue : now < s.self.timeNextActivity
      · rw [if_pos hdue] at hself
        constructor <;> simp only [hself] <;> omega
      · rw [if_neg hdue] at hself
        constructor <;> simp only [hself] <;> omega

abbrev settings (s : DiscoveryLoop π) : Str × Str × ℕ × ℕ × ℕ := s.self.settings

theorem settings_next (h : next s a = some s') : s'.settings = s.settings := by
  cases a with
  | call a =>
      obtain ⟨hcall, hsame⟩ := Option.ite_none_right_eq_some.mp h
      obtain rfl := Option.some.inj hsame
      obtain ⟨known, hself⟩ := Discovery.self_call (d := s.self) hcall
      simp only [settings, Discovery.settings, hself]
  | ask now =>
      obtain ⟨-, hsame⟩ := Option.ite_none_right_eq_some.mp h
      obtain rfl := Option.some.inj hsame
      rfl
  | recv fromIp m now =>
      obtain ⟨-, hsame⟩ := Option.ite_none_right_eq_some.mp h
      obtain rfl := Option.some.inj hsame
      obtain ⟨known, seen, hself⟩ := s.self.self_dispatch fromIp m now
      simp only [settings, Discovery.settings, hself]
  | wake =>
      obtain ⟨-, hsame⟩ := Option.ite_none_right_eq_some.mp h
      obtain rfl := Option.some.inj hsame
      rfl
  | heartbeat now later =>
      obtain ⟨-, hsame⟩ := Option.ite_none_right_eq_some.mp h
      obtain rfl := Option.some.inj hsame
      simp only [settings, Discovery.settings, s.self.self_updateHeartbeat]
  | activity now later =>
      obtain ⟨-, hsame⟩ := Option.ite_none_right_eq_some.mp h
      obtain rfl := Option.some.inj hsame
      obtain ⟨known, seen, hself⟩ := s.self.self_updateActivity now later
      simp only [settings, Discovery.settings, hself]

/-! ## Heartbeats -/

/-- A heartbeat comes after the one before it, but not by much. -/
def Follows (interval ε : ℕ) (b' b : Beat) : Prop :=
  b.ended + interval ≤ b'.started ∧ b'.started ≤ b.ended + interval + 2 * ε

/-- The heartbeats since the start at `t`, and when the next one is due. -/
structure Regular (t interval ε : ℕ) (s : DiscoveryLoop π) : Prop where
  follows : s.beats.IsChain (Follows interval ε)
  short : ∀ b ∈ s.beats, b.started ≤ b.ended ∧ b.ended ≤ b.started + ε
  first : ∀ b ∈ s.beats.getLast?, t ≤ b.started ∧ b.started ≤ t + 2 * ε
  due : s.self.timeNextHeartbeat = (s.beats.head?.map fun b => b.ended + interval).getD t

omit [PubLike π] in
theorem Regular.same {t interval : ℕ} (hs : s.Regular t interval ε)
    (hbeats : s'.beats = s.beats)
    (hdue : s'.self.timeNextHeartbeat = s.self.timeNextHeartbeat) : s'.Regular t interval ε := by
  refine ⟨?_, ?_, ?_, ?_⟩
  · rw [hbeats]
    exact hs.follows
  · rw [hbeats]
    exact hs.short
  · rw [hbeats]
    exact hs.first
  · rw [hbeats, hdue]
    exact hs.due

theorem Regular.next {t interval : ℕ} (hs : s.Regular t interval ε) (ht : s.Timed ε)
    (hinterval : s.self.heartbeatInterval * 1000000 = interval) (ha : s.Prompt ε a)
    (h : next s a = some s') : s'.Regular t interval ε := by
  cases a with
  | call a =>
      obtain ⟨hcall, hsame⟩ := Option.ite_none_right_eq_some.mp h
      obtain rfl := Option.some.inj hsame
      obtain ⟨known, hself⟩ := Discovery.self_call (d := s.self) hcall
      exact hs.same rfl (by simp only [hself])
  | ask now =>
      obtain ⟨-, hsame⟩ := Option.ite_none_right_eq_some.mp h
      obtain rfl := Option.some.inj hsame
      exact hs.same rfl rfl
  | recv fromIp m now =>
      obtain ⟨-, hsame⟩ := Option.ite_none_right_eq_some.mp h
      obtain rfl := Option.some.inj hsame
      obtain ⟨known, seen, hself⟩ := s.self.self_dispatch fromIp m now
      exact hs.same rfl (by simp only [hself])
  | wake =>
      obtain ⟨-, hsame⟩ := Option.ite_none_right_eq_some.mp h
      obtain rfl := Option.some.inj hsame
      exact hs.same rfl rfl
  | activity now later =>
      obtain ⟨-, hsame⟩ := Option.ite_none_right_eq_some.mp h
      obtain rfl := Option.some.inj hsame
      obtain ⟨known, seen, hself⟩ := s.self.self_updateActivity now later
      exact hs.same rfl (by simp only [hself])
  | heartbeat now later =>
      obtain ⟨⟨-, hnow, hlater⟩, hsame⟩ := Option.ite_none_right_eq_some.mp h
      obtain rfl := Option.some.inj hsame
      have hprompt : later ≤ s.limit + ε := ha
      have hself := s.self.self_updateHeartbeat now later
      have hnear := ht.heartbeat_near
      have hwait := ht.heartbeat_due
      by_cases hdue : now < s.self.timeNextHeartbeat
      · rw [if_pos hdue] at hself
        exact hs.same (if_pos hdue) (by simp only [hself])
      · rw [if_neg hdue, hinterval] at hself
        have hstarted : s.self.timeNextHeartbeat ≤ now ∧ now ≤ s.self.timeNextHeartbeat + 2 * ε :=
          by omega
        refine ⟨?_, ?_, ?_, ?_⟩ <;> simp only [if_neg hdue]
        · refine List.isChain_cons.mpr ⟨?_, hs.follows⟩
          intro b hb
          have hdeadline := hs.due
          rw [Option.mem_def.mp hb] at hdeadline
          simp only [Option.map_some, Option.getD_some] at hdeadline
          rw [hdeadline] at hstarted
          exact hstarted
        · intro b hb
          rcases List.mem_cons.mp hb with rfl | hold
          · exact ⟨hlater, by dsimp only; omega⟩
          · exact hs.short b hold
        · intro b hb
          cases hbeats : s.beats with
          | nil =>
              have hdeadline := hs.due
              rw [hbeats] at hb hdeadline
              obtain rfl := Option.some.inj hb
              simp only [List.head?_nil, Option.map_none, Option.getD_none] at hdeadline
              rw [hdeadline] at hstarted
              exact hstarted
          | cons b' beats =>
              rw [hbeats, List.getLast?_cons_cons, ← hbeats] at hb
              exact hs.first b hb
        · simp only [hself, List.head?_cons, Option.map_some, Option.getD_some]

/-- An instance that has been constructed. -/
structure Fresh (d : Discovery π) : Prop where
  disabled : d.enabled = false
  nonempty : d.processUuid ≠ []
  known : d.knownPublishers = {}
  lastSeen : d.lastSeenByProcess = ∅

omit [PubLike π] in
theorem timed_start {d : Discovery π} (hd : d.enabled = false) (now ε : ℕ) :
    (start d now).Timed ε := by
  constructor <;> simp [start, Discovery.startAt, hd]

omit [PubLike π] in
theorem regular_start {d : Discovery π} (hd : d.enabled = false) (t ε : ℕ) :
    (start d t).Regular t (d.heartbeatInterval * 1000000) ε where
  follows := List.isChain_nil
  short := by simp [start]
  first := by simp [start]
  due := by simp [start, Discovery.startAt, hd]

/-- **Heartbeats come regularly**, whatever is received and called: the first one at once, each
other one an interval after the end of the one before it, none of them later than twice the
slack, and each takes the slack at most. No poll goes past a deadline. -/
theorem heartbeats_regular (d : Discovery π) (hd : d.enabled = false) (t ε : ℕ)
    (hε : ε ≤ 2 ^ 31 * 1000000) (run : List (Action π)) (s : DiscoveryLoop π)
    (h : exec next (start d t) run = some s)
    (hprompt : Guarded next (Prompt ε) (start d t) run) :
    let interval := d.heartbeatInterval * 1000000
    s.beats.IsChain (Follows interval ε) ∧
    (∀ b ∈ s.beats, b.started ≤ b.ended ∧ b.ended ≤ b.started + ε) ∧
    (∀ b ∈ s.beats.getLast?, t ≤ b.started ∧ b.started ≤ t + 2 * ε) ∧
    s.clock ≤ (s.beats.head?.map fun b => b.ended + interval).getD t + 2 * ε ∧
    (∀ now, s.pass = .top → s.Prompt ε (.ask now) →
      now + (s.self.nextTimeout now).toNat * 1000000 ≤
        max now (min s.self.timeNextHeartbeat s.self.timeNextActivity)) := by
  have hinterval : (start d t).self.heartbeatInterval = d.heartbeatInterval := by
    simp [start, Discovery.startAt, hd]
  have hinv : s.Timed ε ∧ s.self.heartbeatInterval = d.heartbeatInterval ∧
      s.Regular t (d.heartbeatInterval * 1000000) ε := by
    refine invariant (P := fun s => s.Timed ε ∧ s.self.heartbeatInterval = d.heartbeatInterval ∧
      s.Regular t (d.heartbeatInterval * 1000000) ε) ?_ ?_ hprompt h
    · intro s a s' hs ha hnext
      obtain ⟨htimed, hsame, hregular⟩ := hs
      refine ⟨htimed.next hε ha hnext, ?_, ?_⟩
      · have hsettings := settings_next hnext
        simp only [settings, Discovery.settings, Prod.mk.injEq] at hsettings
        exact hsettings.2.2.2.2.trans hsame
      · exact hregular.next htimed (congrArg (· * 1000000) hsame) ha hnext
    · exact ⟨timed_start hd t ε, hinterval, regular_start hd t ε⟩
  obtain ⟨htimed, -, hregular⟩ := hinv
  refine ⟨hregular.follows, hregular.short, hregular.first, ?_,
    fun now hpass hprompt => htimed.poll_le hε hpass hprompt⟩
  have hdue := hregular.due
  have hclock := htimed.clock_le
  have hnear := htimed.heartbeat_near
  omega

/-! ## Silence -/

/-- What a step is for the instance. -/
def Action.toDiscovery : Action π → Option (Discovery.Action π)
  | .call a => some a
  | .recv fromIp m now => some (.recv fromIp m now)
  | .heartbeat now later => some (.heartbeat now later)
  | .activity now later => some (.activity now later)
  | .ask _ | .wake => none

theorem self_next (h : next s a = some s') : s'.self = s.self.run a.toDiscovery.toList := by
  cases a with
  | call a =>
      obtain ⟨-, hsame⟩ := Option.ite_none_right_eq_some.mp h
      obtain rfl := Option.some.inj hsame
      rfl
  | ask | recv | wake | heartbeat | activity =>
      obtain ⟨-, hsame⟩ := Option.ite_none_right_eq_some.mp h
      obtain rfl := Option.some.inj hsame
      rfl

/-- **The thread and the calls make a run of the instance**, in which anything may come at any
time. -/
theorem self_exec {as : List (Action π)} (h : exec next s as = some s') :
    s'.self = s.self.run (as.filterMap Action.toDiscovery) := by
  induction as generalizing s with
  | nil =>
      obtain rfl := Option.some.inj h
      rfl
  | cons a as ih =>
      obtain ⟨t, ht, hrest⟩ := Option.bind_eq_some_iff.mp h
      rw [ih hrest, self_next ht]
      cases htype : a.toDiscovery with
      | none => simp [htype]
      | some b => simp [htype]

theorem isCall_of_exec {as : List (Action π)} (h : exec next s as = some s')
    {b : Discovery.Action π} (hb : .call b ∈ as) : b.isCall = true := by
  obtain ⟨pre, post, rfl⟩ := List.append_of_mem hb
  obtain ⟨t, -, hrest⟩ := exec_append_eq_some h
  obtain ⟨u, hstep, -⟩ := Option.bind_eq_some_iff.mp hrest
  exact (Option.ite_none_right_eq_some.mp hstep).1

/-- Publishers are advertised under the uuid of their process. -/
def Action.Own (uuid : Str) : Action π → Prop
  | .call (.advertise p) => PubLike.processUuid p = uuid
  | _ => True

instance (uuid : Str) : ∀ a : Action π, Decidable (a.Own uuid)
  | .call (.advertise _) => inferInstanceAs (Decidable (_ = _))
  | .call (.unadvertise ..) | .call (.discover _) | .call (.recv ..) | .call (.heartbeat ..)
  | .call (.activity ..) | .ask _ | .recv .. | .wake | .heartbeat .. | .activity .. =>
    isTrue trivial

/-- The next check comes in time for everybody who is watched. -/
def InTime (ε : ℕ) (s : DiscoveryLoop π) : Prop :=
  ∀ (q : Str) (seen : ℕ), s.self.lastSeenByProcess[q]? = some seen → s.self.timeNextActivity ≤
    seen + (s.self.silenceInterval + 1) * 1000000 + s.self.activityInterval * 1000000 + ε

variable [WirePub π] [Discovery.SetsBase π]

omit [WirePub π] [Discovery.SetsBase π] in
theorem InTime.recv (hs : s.InTime ε) (ht : s.Timed ε) {fromIp : Str} {m : Msgs.Discovery}
    {now : ℕ} (hnow : s.clock ≤ now) {q : Str} {seen : ℕ}
    (hseen : (s.self.dispatchDiscoveryMsg fromIp m now).self.lastSeenByProcess[q]? = some seen) :
    s.self.timeNextActivity ≤ seen + (s.self.silenceInterval + 1) * 1000000 +
      s.self.activityInterval * 1000000 + ε := by
  by_cases hown : m.processUuid = s.self.processUuid
  · rw [Discovery.dispatchDiscoveryMsg, if_pos hown] at hseen
    exact hs q seen hseen
  by_cases hq : m.processUuid = q
  · subst hq
    rw [Discovery.lastSeen_dispatch_self hown] at hseen
    split at hseen
    case isTrue => cases hseen
    case isFalse =>
      obtain rfl := Option.some.inj hseen
      have hsoon := ht.activity_soon
      omega
  · have hold := Discovery.lastSeen_of_perform (d := s.self) (a := .recv fromIp m now)
      (by simpa [Discovery.Action.sender] using hq) hseen
    exact hs q seen hold

omit [WirePub π] [Discovery.SetsBase π] in
theorem InTime.next (hs : s.InTime ε) (ht : s.Timed ε) (ha : s.Prompt ε a)
    (h : next s a = some s') : s'.InTime ε := by
  intro q seen hseen
  cases a with
  | call a =>
      obtain ⟨hcall, hsame⟩ := Option.ite_none_right_eq_some.mp h
      obtain rfl := Option.some.inj hsame
      obtain ⟨known, hself⟩ := Discovery.self_call (d := s.self) hcall
      simp only [hself] at hseen ⊢
      exact hs q seen hseen
  | ask now =>
      obtain ⟨-, hsame⟩ := Option.ite_none_right_eq_some.mp h
      obtain rfl := Option.some.inj hsame
      exact hs q seen hseen
  | recv fromIp m now =>
      obtain ⟨⟨-, hnow⟩, hsame⟩ := Option.ite_none_right_eq_some.mp h
      obtain rfl := Option.some.inj hsame
      have hbound := hs.recv ht hnow hseen
      obtain ⟨known, table, hself⟩ := s.self.self_dispatch fromIp m now
      simp only [hself]
      exact hbound
  | wake =>
      obtain ⟨-, hsame⟩ := Option.ite_none_right_eq_some.mp h
      obtain rfl := Option.some.inj hsame
      exact hs q seen hseen
  | heartbeat now later =>
      obtain ⟨-, hsame⟩ := Option.ite_none_right_eq_some.mp h
      obtain rfl := Option.some.inj hsame
      simp only [s.self.self_updateHeartbeat] at hseen ⊢
      exact hs q seen hseen
  | activity now later =>
      obtain ⟨⟨-, hnow, hlater⟩, hsame⟩ := Option.ite_none_right_eq_some.mp h
      obtain rfl := Option.some.inj hsame
      have hprompt : later ≤ s.limit + ε := ha
      by_cases hdue : now < s.self.timeNextActivity
      · simp only [Discovery.updateActivity, if_pos hdue] at hseen ⊢
        exact hs q seen hseen
      · -- Whoever is left was heard after `now` less the silence interval.
        have hwait := ht.activity_due
        simp only [Discovery.updateActivity, if_neg hdue, Std.ExtTreeMap.getElem?_filter']
          at hseen ⊢
        have hkept := Option.eq_some_of_filter_eq_some hseen
        rw [hkept, Option.filter_eq_some_iff] at hseen
        have hheard : ¬ s.self.expired now seen = true := by simpa using hseen.2
        rw [Discovery.expired_iff] at hheard
        omega

end DiscoveryLoop

namespace Discovery
variable {π : Type} [PubLike π] {d : Discovery π}

/-- Who is known is watched. -/
def WatchesKnown (d : Discovery π) : Prop :=
  ∀ t q, q ≠ d.processUuid → q ≠ [] → ∀ x ∈ d.knownPublishers.pubsOf t q,
    q ∈ d.lastSeenByProcess

theorem WatchesKnown.activity (hd : d.WatchesKnown) (now later : ℕ) :
    (d.updateActivity now later).self.WatchesKnown := by
  intro t q hq hnonempty x hx
  rw [mem_lastSeen_activity]
  by_cases hdue : now < d.timeNextActivity
  · rw [updateActivity, if_pos hdue] at hx hq
    exact ⟨hd t q hq hnonempty x hx, fun hnot => hnot.1 hdue⟩
  · rw [updateActivity, if_neg hdue] at hx hq
    obtain ⟨hx, hkept⟩ := (TopicStorage.mem_pubsOf_foldl_delPublishersByProc _).mp hx
    exact ⟨hd t q hq hnonempty x hx, fun hgone => hkept hgone.2⟩

theorem WatchesKnown.advertise (hd : d.WatchesKnown) {p : π}
    (hp : PubLike.processUuid p = d.processUuid) : (d.advertise p).1.self.WatchesKnown := by
  simp only [Discovery.advertise]
  split
  case isFalse => exact hd
  case isTrue =>
    have hadded :
        WatchesKnown { d with knownPublishers := (d.knownPublishers.addPublisher p).1 } := by
      intro t q hq hnonempty x hx
      rcases (TopicStorage.mem_pubsOf_addPublisher _).mp hx with hold | ⟨-, -, hown, -⟩
      · exact hd t q hq hnonempty x hold
      · exact absurd (hown.trans hp) hq
    split <;> exact hadded

theorem WatchesKnown.unadvertise (hd : d.WatchesKnown) (topic nodeUuid : Str) :
    (d.unadvertise topic nodeUuid).1.self.WatchesKnown := by
  simp only [Discovery.unadvertise]
  split
  case isFalse => exact hd
  case isTrue =>
    split
    case h_1 => exact hd
    case h_2 =>
      intro t q hq hnonempty x hx
      exact hd t q hq hnonempty x ((TopicStorage.mem_pubsOf_delPublishersByNode _).mp hx).1

theorem WatchesKnown.recv [WirePub π] (hd : d.WatchesKnown) (fromIp : Str) (m : Msgs.Discovery)
    (now : ℕ) : (d.dispatchDiscoveryMsg fromIp m now).self.WatchesKnown := by
  intro t q hq hnonempty x hx
  obtain ⟨known, seen, hself⟩ := d.self_dispatch fromIp m now
  have hsame : (d.dispatchDiscoveryMsg fromIp m now).self.processUuid = d.processUuid := by
    rw [hself]
  rw [hsame] at hq
  by_cases hown : m.processUuid = d.processUuid
  · rw [dispatchDiscoveryMsg, if_pos hown] at hx ⊢
    exact hd t q hq hnonempty x hx
  by_cases hfrom : m.processUuid = q
  · by_cases hbye : m.type = .bye
    · simp only [dispatchDiscoveryMsg, if_neg hown, hbye] at hx
      exact absurd hfrom.symm ((TopicStorage.mem_pubsOf_delPublishersByProc _).mp hx).2
    · exact (d.mem_lastSeen_dispatch fromIp m now q).mpr (.inr ⟨hown, hbye, hfrom.symm⟩)
  · rw [pubsOf_dispatch_of_ne hfrom hnonempty] at hx
    refine (d.mem_lastSeen_dispatch fromIp m now q).mpr (.inl ⟨hd t q hq hnonempty x hx, ?_⟩)
    intro hbye
    exact hfrom hbye.2.2.symm

end Discovery

namespace DiscoveryLoop
variable {π : Type} [PubLike π] [WirePub π] {s s' : DiscoveryLoop π} {a : Action π}

theorem watchesKnown_next (hs : s.self.WatchesKnown) (ha : a.Own s.self.processUuid)
    (h : next s a = some s') : s'.self.WatchesKnown := by
  cases a with
  | call a =>
      obtain ⟨hcall, hsame⟩ := Option.ite_none_right_eq_some.mp h
      obtain rfl := Option.some.inj hsame
      cases a with
      | advertise p => exact hs.advertise ha
      | unadvertise topic nodeUuid => exact hs.unadvertise topic nodeUuid
      | discover topic =>
          simp only [Discovery.perform, s.self.self_discover]
          exact hs
      | recv | heartbeat | activity => cases hcall
  | ask | wake =>
      obtain ⟨-, hsame⟩ := Option.ite_none_right_eq_some.mp h
      obtain rfl := Option.some.inj hsame
      exact hs
  | recv fromIp m now =>
      obtain ⟨-, hsame⟩ := Option.ite_none_right_eq_some.mp h
      obtain rfl := Option.some.inj hsame
      exact hs.recv fromIp m now
  | heartbeat now later =>
      obtain ⟨-, hsame⟩ := Option.ite_none_right_eq_some.mp h
      obtain rfl := Option.some.inj hsame
      simp only [s.self.self_updateHeartbeat]
      exact hs
  | activity now later =>
      obtain ⟨-, hsame⟩ := Option.ite_none_right_eq_some.mp h
      obtain rfl := Option.some.inj hsame
      exact hs.activity now later

/-- **Silence is noticed.**  Whenever a publisher of another process is known, a datagram of that
process was received at most the silence interval, the activity interval, a millisecond and
three times the slack ago. -/
theorem silence_noticed [Discovery.SetsBase π] (d : Discovery π) (hd : Fresh d) (t ε : ℕ)
    (hε : ε ≤ 2 ^ 31 * 1000000) (run : List (Action π)) (s : DiscoveryLoop π)
    (h : exec next (start d t) run = some s) (hprompt : Guarded next (Prompt ε) (start d t) run)
    (hown : ∀ a ∈ run, a.Own d.processUuid) (topic q : Str) (hq : q ≠ d.processUuid)
    (hnonempty : q ≠ []) (hknown : s.self.knownPublishers.pubsOf topic q ≠ []) :
    ∃ fromIp m seen, .recv fromIp m seen ∈ run ∧ m.processUuid = q ∧
      s.clock ≤ seen + (d.silenceInterval + d.activityInterval + 1) * 1000000 + 3 * ε := by
  have hstart : (start d t).self =
      { d with enabled := true, timeNextActivity := t, timeNextHeartbeat := t } := by
    simp [start, Discovery.startAt, hd.disabled]
  have hinit : (start d t).settings = d.settings := by rw [settings, hstart]; rfl
  have hinv : s.Timed ε ∧ s.InTime ε ∧ s.self.WatchesKnown ∧ s.settings = d.settings := by
    refine invariant (P := fun s => s.Timed ε ∧ s.InTime ε ∧ s.self.WatchesKnown ∧
      s.settings = d.settings) ?_ ?_ (hprompt.and (guarded_of_forall (fun a ha _ => hown a ha) _)) h
    · intro s a s' hs ha hnext
      obtain ⟨htimed, hintime, hwatches, hsame⟩ := hs
      refine ⟨htimed.next hε ha.1 hnext, hintime.next htimed ha.1 hnext, ?_,
        (settings_next hnext).trans hsame⟩
      have huuid : s.self.processUuid = d.processUuid := congrArg Prod.fst hsame
      exact watchesKnown_next hwatches (huuid ▸ ha.2) hnext
    · refine ⟨timed_start hd.disabled t ε, ?_, ?_, hinit⟩
      · intro q seen hseen
        rw [hstart] at hseen
        simp only [hd.lastSeen] at hseen
        simp at hseen
      · intro topic q _ _ x hx
        rw [hstart] at hx
        simp only [hd.known] at hx
        simp at hx
  obtain ⟨htimed, hintime, hwatches, hsame⟩ := hinv
  simp only [settings, Discovery.settings, Prod.mk.injEq] at hsame
  obtain ⟨huuid, -, hsilence, hactivity, -⟩ := hsame
  obtain ⟨x, hx⟩ := List.exists_mem_of_ne_nil _ hknown
  have hmem := hwatches topic q (huuid ▸ hq) hnonempty x hx
  rw [← Std.ExtTreeMap.isSome_getElem?_iff_mem] at hmem
  obtain ⟨seen, hseen⟩ := Option.isSome_iff_exists.mp hmem
  have hbound := hintime q seen hseen
  rw [hsilence, hactivity] at hbound
  have halert : Discovery.Alert d.processUuid (start d t).self := by
    rw [hstart]
    refine ⟨rfl, rfl, hd.nonempty, ?_⟩
    simp only [hd.lastSeen]
    exact Std.ExtTreeMap.not_mem_empty
  have hnot : q ∉ (start d t).self.lastSeenByProcess := by
    rw [hstart]
    simp only [hd.lastSeen]
    exact Std.ExtTreeMap.not_mem_empty
  rw [self_exec h] at hseen
  obtain ⟨pre, fromIp, m, post, hrun, hm, -⟩ := Discovery.lastSeen_run halert hnot hseen
  have hin : Discovery.Action.recv fromIp m seen ∈ run.filterMap Action.toDiscovery := by
    rw [hrun]
    simp
  obtain ⟨a, ha, hrecv⟩ := List.mem_filterMap.mp hin
  have hclock := htimed.clock_le
  have hnear := htimed.activity_near
  refine ⟨fromIp, m, seen, ?_, hm, by omega⟩
  cases a with
  | recv fromIp' m' now =>
      obtain ⟨rfl, rfl, rfl⟩ := Discovery.Action.recv.inj (Option.some.inj hrecv)
      exact ha
  | call b =>
      obtain rfl := Option.some.inj hrecv
      cases isCall_of_exec h ha
  | ask | wake | heartbeat | activity => cases hrecv

/-! ## Two passes -/

/-- An instance that sends a heartbeat every tenth of a second. -/
def hasty : Discovery MessagePublisherInfo :=
  { processUuid := str "4a", hostAddr := str "10.0.0.1", heartbeatInterval := 100,
    enabled := false }

/-- The instance hears of a publisher in its first pass, and the second pass is up to a
heartbeat. -/
def twoPasses : List (Action MessagePublisherInfo) :=
  [.ask 0, .recv (str "10.0.0.1") (Discovery.datagramOf5b .advertise) 1, .heartbeat 2 5,
    .activity 5 6, .ask 7, .wake, .heartbeat 100000006 100000007]

theorem fresh_hasty : Fresh hasty := ⟨rfl, by decide, rfl, rfl⟩

theorem heartbeats_regular_two : ∃ s, exec next (start hasty 0) twoPasses = some s ∧
    s.beats.length = 2 ∧ s.beats.IsChain (Follows 100000000 1000000) := by
  refine ⟨_, rfl, rfl, ?_⟩
  exact (heartbeats_regular hasty rfl 0 1000000 (by norm_num) twoPasses _ rfl (by decide)).1

theorem silence_noticed_two : ∃ s, exec next (start hasty 0) twoPasses = some s ∧
    ∃ fromIp m seen, .recv fromIp m seen ∈ twoPasses ∧ m.processUuid = str "5b" ∧
      s.clock ≤ seen + (3000 + 200 + 1) * 1000000 + 3 * 1000000 := by
  refine ⟨_, rfl, ?_⟩
  exact silence_noticed hasty fresh_hasty 0 1000000 (by norm_num) twoPasses _ rfl (by decide)
    (by decide) (str "t") (str "5b") (by decide) (by decide) (by decide)

end DiscoveryLoop
end RfTrans
