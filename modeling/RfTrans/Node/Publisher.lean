import RfTrans.Discovery.PublisherInfo
import RfTrans.Lib.Exec
import RfTrans.Lib.Rounding
import RfTrans.Lib.Timing
import Mathlib.Algebra.Order.Archimedean.Real.Basic

/-!
# The rate of a publisher

A `Publisher` whose record has a rate lets a message pass when one period has gone by since
the last one that passed.  The period is a `double`, and the clock is read twice: once to
decide, and once more for the time that is kept.

## Main definitions

* `Publisher`, `Publisher.publishImpl`
* `Publisher.throttledUpdateReady_iff` — the rounded comparison is the exact one.
* `PublisherUse.next` — one thread that uses a publisher.
* `PublisherUse.rate_limited`
-/

namespace RfTrans

open Exec

/-- An integer as a `double`. -/
def toDouble (n : ℤ) : ℚ := Rounding.nearest 53 n

/-- `1e9 / getMsgsPerSec()`, where a division by zero is infinite. -/
def nanosPerMsg (msgsPerSec : UInt64) : WithTop ℚ :=
  if msgsPerSec = 0 then ⊤
  else ↑(Rounding.nearest 53 (10 ^ 9 / toDouble msgsPerSec.toNat))

/-- What the constructors leave in `period_ns_`: nothing where there is no rate. -/
def AdvertiseMessageOptions.periodNs (o : AdvertiseMessageOptions) : Option (WithTop ℚ) :=
  if o.throttled then some (nanosPerMsg o.msgsPerSec) else none

/-- `Publisher` -/
structure Publisher where
  messagePublisher : MessagePublisherInfo := {}
  lastPubTime : ℤ := 0
  periodNs : Option (WithTop ℚ) := messagePublisher.msgOpts.periodNs
  periodNs_eq : periodNs = messagePublisher.msgOpts.periodNs := by rfl

/-- What comes of an attempt to publish. -/
inductive Attempt
  /-- It returns `false`. -/
  | refused
  /-- It returns `true`, but the message goes nowhere. -/
  | heldBack
  /-- The message goes to `publishMessage`. -/
  | passed
  deriving DecidableEq

namespace Publisher

/-- The constructor. -/
def make (publisher : MessagePublisherInfo) : Publisher := { messagePublisher := publisher }

variable (p : Publisher)

/-- `throttled()` of the options. -/
def throttled : Bool := p.messagePublisher.msgOpts.throttled

/-- `valid` -/
def valid : Bool := p.messagePublisher.topic ≠ []

/-- `throttledUpdateReady` -/
def throttledUpdateReady (now : ℤ) : Bool :=
  if ¬ p.throttled then true
  else p.periodNs.any fun period => period ≤ ↑(toDouble (now - p.lastPubTime))

/-- `updateThrottling`, which reads the clock again once it is ready. -/
def updateThrottling (now later : ℤ) : Publisher × Bool :=
  if ¬ p.throttled then (p, true)
  else if ¬ p.throttledUpdateReady now then (p, false)
  else ({ p with lastPubTime := later }, true)

/-- `publishImpl` of a message of type `msgType`. -/
def publishImpl (msgType : Str) (now later : ℤ) : Publisher × Attempt :=
  if ¬ p.valid then (p, .refused)
  else if p.messagePublisher.msgType ≠ msgType then (p, .refused)
  else
    let (p, update) := p.updateThrottling now later
    if ¬ update then (p, .heldBack) else (p, .passed)

/-- The rate that the publisher is limited to. -/
def msgsPerSec : ℕ := p.messagePublisher.msgOpts.msgsPerSec.toNat

end Publisher

/-! ## The period -/

section Period

variable {r : ℕ} {n : ℤ}

theorem toDouble_natCast (h : r < 2 ^ 53) : toDouble r = r := by
  rw [toDouble, Int.cast_natCast, Rounding.nearest_natCast h]

theorem toDouble_nonpos (h : n ≤ 0) : toDouble n ≤ 0 := by
  have hn : (n : ℚ) ≤ 0 := by exact_mod_cast h
  have hmove := (abs_le.mp (Rounding.abs_nearest_sub_le 53 n)).2
  rw [abs_of_nonpos hn] at hmove
  rw [toDouble]
  linarith

/-- A large integer stays large. -/
theorem le_toDouble (h : 2 ^ 53 ≤ n) : 2 ^ 53 - 1 ≤ toDouble n := by
  have hn : (2 : ℚ) ^ 53 ≤ n := by exact_mod_cast h
  have hmove := (abs_le.mp (Rounding.abs_nearest_sub_le 53 n)).1
  rw [abs_of_nonneg (by linarith)] at hmove
  rw [toDouble]
  linarith

theorem toDouble_pos (h : 0 < r) : 0 < toDouble r :=
  Rounding.nearest_pos (by decide) (by exact_mod_cast h)

/-- The period is positive. -/
theorem period_pos (h : 0 < r) : 0 < Rounding.nearest 53 (10 ^ 9 / toDouble r) := by
  have hr := toDouble_pos h
  exact Rounding.nearest_pos (by decide) (by positivity)

/-- The period is at most little more than a second. -/
theorem period_le (h : 0 < r) : Rounding.nearest 53 (10 ^ 9 / toDouble r) ≤ 2 * 10 ^ 9 := by
  have hone : 1 ≤ toDouble r := by
    by_cases hlarge : r < 2 ^ 53
    · rw [toDouble_natCast hlarge]
      exact_mod_cast h
    · have := le_toDouble (n := r) (by exact_mod_cast not_lt.mp hlarge)
      linarith
  have hdiv : 10 ^ 9 / toDouble r ≤ 10 ^ 9 := div_le_self (by norm_num) hone
  have hmove := (abs_le.mp (Rounding.abs_nearest_sub_le 53 (10 ^ 9 / toDouble r))).2
  rw [abs_of_pos (by positivity)] at hmove
  linarith

/-- At a rate that no `double` has exactly, the period is below one. -/
theorem period_lt_one (h : 2 ^ 53 ≤ r) : Rounding.nearest 53 (10 ^ 9 / toDouble r) < 1 := by
  have hr := le_toDouble (n := r) (by exact_mod_cast h)
  have hdiv : 10 ^ 9 / toDouble r ≤ 1 / 2 := by
    rw [div_le_iff₀ (by linarith)]
    linarith
  have hmove := (abs_le.mp (Rounding.abs_nearest_sub_le 53 (10 ^ 9 / toDouble r))).2
  rw [abs_of_pos (div_pos (by norm_num) (by linarith))] at hmove
  linarith

/-- A rounded period and the exact one are on the same side of every integer: they differ by
less than one part in `r`, and an integer that is not the period differs from it by more. -/
theorem period_le_natCast_iff {m : ℕ} (h : 0 < r) :
    Rounding.nearest 53 (10 ^ 9 / (r : ℚ)) ≤ m ↔ 10 ^ 9 ≤ m * r := by
  have hr : (0 : ℚ) < r := by exact_mod_cast h
  have hmove := abs_le.mp (Rounding.abs_nearest_sub_le 53 (10 ^ 9 / (r : ℚ)))
  have hsmall : |10 ^ 9 / (r : ℚ)| / 2 ^ 53 < 1 / (r : ℚ) := by
    rw [abs_of_pos (by positivity), div_div, div_lt_div_iff₀ (by positivity) hr]
    linarith
  constructor
  · intro hle
    by_contra! hlt
    have hgap : (m : ℚ) + 1 / (r : ℚ) ≤ 10 ^ 9 / r := by
      rw [le_div_iff₀ hr, add_mul, one_div_mul_cancel hr.ne']
      exact_mod_cast hlt
    linarith [hmove.1]
  · intro hle
    rcases hle.eq_or_lt with heq | hlt
    · have hexact : 10 ^ 9 / (r : ℚ) = m := by
        rw [div_eq_iff hr.ne']
        exact_mod_cast heq
      have hm : m < 2 ^ 53 := by nlinarith
      rw [hexact, Rounding.nearest_natCast hm]
    · have hgap : 10 ^ 9 / (r : ℚ) + 1 / (r : ℚ) ≤ m := by
        rw [← add_div, div_le_iff₀ hr]
        exact_mod_cast hlt
      linarith [hmove.2]

/-- **The comparison of the code is the exact one.** -/
theorem nearest_period_le_iff (h : 0 < r) :
    Rounding.nearest 53 (10 ^ 9 / toDouble r) ≤ toDouble n ↔ 10 ^ 9 ≤ n * r := by
  have hr : (0 : ℤ) < r := by exact_mod_cast h
  rcases le_or_gt n 0 with hn | hn
  · have hleft := (toDouble_nonpos hn).trans_lt (period_pos h)
    have hright : n * r ≤ 0 := mul_nonpos_of_nonpos_of_nonneg hn hr.le
    constructor <;> intro hle <;> linarith
  · lift n to ℕ using hn.le
    by_cases hlarge : 2 ^ 53 ≤ n
    · have hleft := le_toDouble (n := n) (by exact_mod_cast hlarge)
      have hright : 2 ^ 53 ≤ n * r := hlarge.trans (Nat.le_mul_of_pos_right n h)
      have hbound := period_le h
      constructor
      · intro _
        exact_mod_cast (show 10 ^ 9 ≤ n * r by omega)
      · intro _
        linarith
    · rw [toDouble_natCast (not_le.mp hlarge)]
      by_cases hrate : r < 2 ^ 53
      · rw [toDouble_natCast hrate, period_le_natCast_iff h]
        exact_mod_cast Iff.rfl
      · have hn' : 0 < n := by exact_mod_cast hn
        have hleft := period_lt_one (not_lt.mp hrate)
        have hone : (1 : ℚ) ≤ n := by exact_mod_cast hn'
        have hright : r ≤ n * r := Nat.le_mul_of_pos_left r hn'
        constructor
        · intro _
          exact_mod_cast (show 10 ^ 9 ≤ n * r by omega)
        · intro _
          linarith

end Period

/-! ## One attempt -/

namespace Publisher

variable {p : Publisher}

theorem periodNs_of_throttled (h : p.throttled = true) :
    p.periodNs = some (nanosPerMsg p.messagePublisher.msgOpts.msgsPerSec) := by
  rw [p.periodNs_eq, AdvertiseMessageOptions.periodNs]
  exact if_pos h

/-- **When the limiter is ready**: a period of exactly `10 ^ 9 / msgsPerSec` has gone by. -/
theorem throttledUpdateReady_iff (hr : 1 ≤ p.msgsPerSec) (now : ℤ) :
    p.throttledUpdateReady now = true ↔
      (p.throttled = true → 10 ^ 9 ≤ (now - p.lastPubTime) * p.msgsPerSec) := by
  by_cases h : p.throttled = true
  · have hne : p.messagePublisher.msgOpts.msgsPerSec ≠ 0 := by
      intro hzero
      rw [msgsPerSec, hzero] at hr
      exact absurd hr (by decide)
    have hperiod := nearest_period_le_iff (r := p.msgsPerSec) (n := now - p.lastPubTime) hr
    simp only [throttledUpdateReady, h, periodNs_of_throttled h, nanosPerMsg, hne]
    simpa [msgsPerSec, toDouble] using hperiod
  · simp [throttledUpdateReady, h]

/-- A message that the publisher was advertised for. -/
def Accepts (p : Publisher) (msgType : Str) : Prop :=
  p.valid = true ∧ p.messagePublisher.msgType = msgType

/-- **What an attempt does.** -/
theorem publishImpl_cases (p : Publisher) (msgType : Str) (now later : ℤ) :
    (¬ p.Accepts msgType ∧ p.publishImpl msgType now later = (p, .refused)) ∨
    (p.Accepts msgType ∧ p.throttledUpdateReady now = false ∧
      p.publishImpl msgType now later = (p, .heldBack)) ∨
    (p.Accepts msgType ∧ p.throttled = false ∧
      p.publishImpl msgType now later = (p, .passed)) ∨
    (p.Accepts msgType ∧ p.throttled = true ∧ p.throttledUpdateReady now = true ∧
      p.publishImpl msgType now later = ({ p with lastPubTime := later }, .passed)) := by
  by_cases hvalid : p.valid = true
  · by_cases htype : p.messagePublisher.msgType = msgType
    · have haccepts : p.Accepts msgType := ⟨hvalid, htype⟩
      cases hthrottled : p.throttled with
      | false => simp [publishImpl, updateThrottling, haccepts, hvalid, htype, hthrottled]
      | true =>
          cases hready : p.throttledUpdateReady now with
          | false =>
              simp [publishImpl, updateThrottling, haccepts, hvalid, htype, hthrottled, hready]
          | true =>
              simp [publishImpl, updateThrottling, haccepts, hvalid, htype, hthrottled, hready]
    · simp [publishImpl, Accepts, hvalid, htype]
  · simp [publishImpl, Accepts, hvalid]

end Publisher

/-! ## Runs -/

/-- A publisher, the last reading of the clock, and the attempts that passed, each with the
time that was kept for it. -/
structure PublisherUse where
  publisher : Publisher
  clock : ℤ
  passed : List (Option ℤ) := []

namespace PublisherUse

/-- The public member functions that read the clock, with what they read. -/
inductive Action
  | publish (msgType : Str) (now later : ℤ)
  | throttledUpdateReady (now : ℤ)

/-- The kept times, in order. -/
def times (s : PublisherUse) : List ℤ := s.passed.reduceOption

/-- One call.  Nothing is kept for a message of a publisher without a rate. -/
def next (s : PublisherUse) : Action → Option PublisherUse
  | .publish msgType now later =>
    if s.clock ≤ now ∧ now ≤ later then
      match s.publisher.publishImpl msgType now later with
      | (p, .passed) =>
        let kept := if p.throttled then some p.lastPubTime else none
        some { publisher := p, clock := later, passed := s.passed ++ [kept] }
      | (p, _) => some { s with publisher := p, clock := later }
    else none
  | .throttledUpdateReady now => if s.clock ≤ now then some { s with clock := now } else none

/-- What the rate promises at a point of a run. -/
structure RateKept (s : PublisherUse) : Prop where
  /-- Whatever passes comes a period after what passed before. -/
  spaced : ∀ (msgType : Str) (now later : ℤ), s.clock ≤ now → now ≤ later →
    (s.publisher.publishImpl msgType now later).2 = .passed →
    ∀ t, s.passed.getLast? = some (some t) → (10 ^ 9 / s.publisher.msgsPerSec : ℚ) ≤ (now - t : ℤ)
  /-- How many attempts pass in an interval. -/
  window : ∀ a L : ℝ,
    ((s.times.map (Int.cast : ℤ → ℝ)).filter fun t => a ≤ t ∧ t ≤ a + L).length ≤
      1 + ⌊L * s.publisher.msgsPerSec / 10 ^ 9⌋₊
  /-- Whatever comes a period after the kept time passes. -/
  passes : ∀ (msgType : Str) (now later : ℤ), s.publisher.Accepts msgType →
    (10 ^ 9 / s.publisher.msgsPerSec : ℚ) ≤ (now - s.publisher.lastPubTime : ℤ) →
    (s.publisher.publishImpl msgType now later).2 = .passed
  /-- With a rate, every attempt that passes leaves its time. -/
  recorded : ∀ x ∈ s.passed, x.isSome = s.publisher.throttled
  /-- The kept time is the last of them. -/
  last : ∀ t, s.passed.getLast? = some (some t) → s.publisher.lastPubTime = t

/-- The invariant. -/
structure Kept (info : MessagePublisherInfo) (s : PublisherUse) : Prop where
  publisher : s.publisher.messagePublisher = info
  spaced : Spacing.Spaced (10 ^ 9 / s.publisher.msgsPerSec : ℝ) (s.times.map (Int.cast : ℤ → ℝ))
  le : ∀ t ∈ s.times, t ≤ s.publisher.lastPubTime
  recorded : ∀ x ∈ s.passed, x.isSome = s.publisher.throttled
  last : ∀ t, s.passed.getLast? = some (some t) → s.publisher.lastPubTime = t

variable {info : MessagePublisherInfo} {s t : PublisherUse} {a : Action}

theorem kept_start (info : MessagePublisherInfo) (clock : ℤ) :
    Kept info { publisher := Publisher.make info, clock := clock } where
  publisher := rfl
  spaced := Spacing.spaced_nil
  le := by simp [times]
  recorded := by simp
  last := by simp

/-- An attempt that passes and leaves its time. -/
theorem Kept.concat (hs : Kept info s) (hr : 1 ≤ s.publisher.msgsPerSec) {now later : ℤ}
    (hthrottled : s.publisher.throttled = true) (hlater : now ≤ later)
    (hready : 10 ^ 9 ≤ (now - s.publisher.lastPubTime) * s.publisher.msgsPerSec) :
    Kept info
      { publisher := { s.publisher with lastPubTime := later }
        clock := later
        passed := s.passed ++ [some later] } := by
  have htimes : (s.passed ++ [some later]).reduceOption = s.times ++ [later] := by
    simp [times, List.reduceOption_append]
  have hgap : s.publisher.lastPubTime ≤ now := by
    by_contra! hlt
    have := mul_nonpos_of_nonpos_of_nonneg (b := (s.publisher.msgsPerSec : ℤ))
      (sub_nonpos.mpr hlt.le) (Int.natCast_nonneg _)
    omega
  constructor
  case publisher => exact hs.publisher
  case spaced =>
    simp only [times, htimes, List.map_append, List.map_singleton]
    refine hs.spaced.concat ?_
    intro y hy
    obtain ⟨t, ht, rfl⟩ := List.mem_map.mp hy
    have hpos : (0 : ℝ) < s.publisher.msgsPerSec := by exact_mod_cast hr
    have helapsed : (10 ^ 9 / s.publisher.msgsPerSec : ℝ) ≤ now - s.publisher.lastPubTime := by
      rw [div_le_iff₀ hpos]
      exact_mod_cast hready
    have hbefore : (t : ℝ) ≤ s.publisher.lastPubTime := by exact_mod_cast hs.le t ht
    have hafter : (now : ℝ) ≤ later := by exact_mod_cast hlater
    change (t : ℝ) + 10 ^ 9 / s.publisher.msgsPerSec ≤ later
    linarith
  case le =>
    intro t ht
    simp only [times, htimes, List.mem_append, List.mem_singleton] at ht
    rcases ht with ht | rfl
    · exact (hs.le t ht).trans (hgap.trans hlater)
    · exact le_rfl
  case recorded =>
    intro x hx
    rcases List.mem_append.mp hx with hx | hx
    · exact hs.recorded x hx
    · rw [List.mem_singleton.mp hx]
      exact hthrottled.symm
  case last =>
    intro t ht
    simpa using ht

/-- An attempt that passes and leaves no time. -/
theorem Kept.concat_none (hs : Kept info s) (hthrottled : s.publisher.throttled = false)
    (clock : ℤ) : Kept info { s with clock := clock, passed := s.passed ++ [none] } where
  publisher := hs.publisher
  spaced := by simpa [times, List.reduceOption_append] using hs.spaced
  le := by simpa [times, List.reduceOption_append] using hs.le
  recorded := by
    intro x hx
    rcases List.mem_append.mp hx with hx | hx
    · exact hs.recorded x hx
    · rw [List.mem_singleton.mp hx]
      exact hthrottled.symm
  last := by simp

/-- **A step keeps it.** -/
theorem Kept.next (hr : 1 ≤ info.msgOpts.msgsPerSec.toNat) (hs : Kept info s)
    (h : s.next a = some t) : Kept info t := by
  have hrate : 1 ≤ s.publisher.msgsPerSec := by rwa [Publisher.msgsPerSec, hs.publisher]
  cases a with
  | publish msgType now later =>
      simp only [PublisherUse.next] at h
      split at h
      case isFalse => cases h
      case isTrue hclock =>
        rcases s.publisher.publishImpl_cases msgType now later with
          ⟨-, heq⟩ | ⟨-, -, heq⟩ | ⟨-, hthrottled, heq⟩ | ⟨-, hthrottled, hready, heq⟩
        · simp only [heq] at h
          cases h
          exact ⟨hs.publisher, hs.spaced, hs.le, hs.recorded, hs.last⟩
        · simp only [heq] at h
          cases h
          exact ⟨hs.publisher, hs.spaced, hs.le, hs.recorded, hs.last⟩
        · simp only [heq, hthrottled] at h
          cases h
          exact hs.concat_none hthrottled later
        · have helapsed := (Publisher.throttledUpdateReady_iff hrate now).mp hready hthrottled
          have hkept : ({ s.publisher with lastPubTime := later } : Publisher).throttled = true :=
            hthrottled
          simp only [heq, if_pos hkept] at h
          cases h
          exact hs.concat hrate hthrottled hclock.2 helapsed
  | throttledUpdateReady now =>
      simp only [PublisherUse.next] at h
      split at h
      case isFalse => cases h
      case isTrue =>
        cases h
        exact ⟨hs.publisher, hs.spaced, hs.le, hs.recorded, hs.last⟩

/-- What the invariant says of the rate. -/
theorem Kept.rateKept (hr : 1 ≤ s.publisher.msgsPerSec) (hs : Kept info s) : s.RateKept := by
  have hpos : (0 : ℚ) < s.publisher.msgsPerSec := by exact_mod_cast hr
  constructor
  case spaced =>
    intro msgType now later _ _ hpass t ht
    have hmem := List.mem_of_getLast? ht
    have hthrottled : s.publisher.throttled = true := (hs.recorded _ hmem).symm
    rw [div_le_iff₀ hpos]
    rcases s.publisher.publishImpl_cases msgType now later with
      ⟨-, heq⟩ | ⟨-, -, heq⟩ | ⟨-, hunthrottled, heq⟩ | ⟨-, -, hready, heq⟩
    · rw [heq] at hpass
      cases hpass
    · rw [heq] at hpass
      cases hpass
    · rw [hthrottled] at hunthrottled
      cases hunthrottled
    · have helapsed := (Publisher.throttledUpdateReady_iff hr now).mp hready hthrottled
      rw [hs.last t ht] at helapsed
      exact_mod_cast helapsed
  case window =>
    intro a L
    have hpos' : (0 : ℝ) < s.publisher.msgsPerSec := by exact_mod_cast hr
    have hcount := Spacing.length_filter_le (a := a) (L := L) hs.spaced (by positivity)
    rwa [div_div_eq_mul_div] at hcount
  case passes =>
    intro msgType now later haccepts helapsed
    rw [div_le_iff₀ hpos] at helapsed
    have hready : s.publisher.throttledUpdateReady now = true :=
      (Publisher.throttledUpdateReady_iff hr now).mpr fun _ => by exact_mod_cast helapsed
    rcases s.publisher.publishImpl_cases msgType now later with
      ⟨hrefused, -⟩ | ⟨-, hbusy, -⟩ | ⟨-, -, heq⟩ | ⟨-, -, -, heq⟩
    · exact absurd haccepts hrefused
    · rw [hready] at hbusy
      cases hbusy
    · rw [heq]
    · rw [heq]
  case recorded => exact hs.recorded
  case last => exact hs.last

/-- **The rate limit holds over every run.** -/
theorem rate_limited (info : MessagePublisherInfo) (hr : 1 ≤ info.msgOpts.msgsPerSec.toNat)
    (clock : ℤ) {actions : List Action} {s : PublisherUse}
    (h : exec next { publisher := Publisher.make info, clock := clock } actions = some s) :
    s.publisher.messagePublisher = info ∧ s.RateKept := by
  have hs : Kept info s := stable (fun _ _ _ hs hnext => hs.next hr hnext)
    (kept_start info clock) h
  refine ⟨hs.publisher, hs.rateKept ?_⟩
  rwa [Publisher.msgsPerSec, hs.publisher]

/-- Three messages a second. -/
def chatter : MessagePublisherInfo :=
  { topic := str "chatter", msgType := str "Text", msgOpts := { msgsPerSec := 3 } }

/-- Three attempts, the second too early. -/
def chatterActions : List Action :=
  [.publish (str "Text") 400000000 400000500, .publish (str "Text") 733333833 733333900,
    .publish (str "Text") 733333900 733334000]

/-- The first and the last pass, and the limit holds. -/
theorem chatter_rate_limited :
    ∃ s, exec next { publisher := Publisher.make chatter, clock := 0 } chatterActions = some s ∧
      s.times = [400000500, 733334000] ∧ s.RateKept := by
  have htimes : (exec next { publisher := Publisher.make chatter, clock := 0 }
      chatterActions).map times = some [400000500, 733334000] := by decide +kernel
  obtain ⟨s, hs, hkept⟩ := Option.map_eq_some_iff.mp htimes
  exact ⟨s, hs, hkept, (rate_limited chatter (by decide) 0 hs).2⟩

end PublisherUse
end RfTrans
