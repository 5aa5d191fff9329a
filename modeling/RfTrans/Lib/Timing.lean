import Mathlib.Algebra.Order.Field.Basic
import Mathlib.Algebra.Order.Floor.Semiring
import Mathlib.Data.List.Induction
import Mathlib.Data.Nat.Find
import Mathlib.Order.Defs.PartialOrder
import Mathlib.Tactic.Linarith
import Mathlib.Tactic.Ring

/-!
# Points in time

Three facts about events and when they happen.

Points in order, each at least `d` after the one before: an interval of length `L` holds at
most `1 + ⌊L / d⌋` of them.

A queue of points: a new one is put at the back, and then points leave at the front as long as
the first one is too old.  Where the points come in order, the queue holds those that are not
too old, and no others.

A sender that gives a sign of life at least every `gap`: a sign takes at most `delay` if it is
not lost, and of `losses + 1` signs in a row at least one is not.  Then whoever listens has
always heard of the sender not long ago.

## Main definitions

* `Spacing.Spaced`, `Spacing.length_filter_le`
* `SlidingWindow.record` — one more point.
* `SlidingWindow.Ages` — what is meant by too old.
* `SlidingWindow.foldl_record`
* `Heartbeat.Spread` — the signs come soon enough, the first one after the start.
* `Heartbeat.heard_within`
-/

namespace Spacing

variable {K : Type*} [Field K] [LinearOrder K]

/-- Each point is at least `d` after all before it. -/
def Spaced (d : K) (l : List K) : Prop := l.Pairwise fun x y => x + d ≤ y

variable {d a L x : K} {l : List K}

theorem spaced_nil : Spaced d [] := List.Pairwise.nil

theorem Spaced.filter (h : Spaced d l) (p : K → Bool) : Spaced d (l.filter p) :=
  List.Pairwise.filter p h

/-- A point that keeps the distance from all others can be added. -/
theorem Spaced.concat (h : Spaced d l) (hx : ∀ y ∈ l, y + d ≤ x) : Spaced d (l ++ [x]) := by
  refine List.pairwise_append.mpr ⟨h, List.pairwise_singleton _ _, ?_⟩
  intro y hy z hz
  rw [List.mem_singleton.mp hz]
  exact hx y hy

variable [IsStrictOrderedRing K]

/-- The last of some points is far from the first. -/
theorem Spaced.add_mul_le {b : K} (h : Spaced d (x :: l)) (hb : ∀ y ∈ x :: l, y ≤ b) :
    x + l.length * d ≤ b := by
  induction l generalizing x with
  | nil => simpa using hb x List.mem_cons_self
  | cons y l ih =>
      obtain ⟨hx, htail⟩ := List.pairwise_cons.mp h
      have hstep := hx y List.mem_cons_self
      have hrest := ih htail fun z hz => hb z (List.mem_cons_of_mem x hz)
      rw [List.length_cons, Nat.cast_add, Nat.cast_one]
      linarith

/-- **How many points an interval holds.** -/
theorem length_filter_le [FloorSemiring K] (h : Spaced d l) (hd : 0 < d) :
    (l.filter fun y => a ≤ y ∧ y ≤ a + L).length ≤ 1 + ⌊L / d⌋₊ := by
  have hwindow := h.filter fun y => a ≤ y ∧ y ≤ a + L
  have hmem : ∀ y ∈ l.filter fun y => a ≤ y ∧ y ≤ a + L, a ≤ y ∧ y ≤ a + L :=
    fun y hy => of_decide_eq_true (List.mem_filter.mp hy).2
  generalize (l.filter fun y => a ≤ y ∧ y ≤ a + L) = points at hwindow hmem
  cases points with
  | nil => exact Nat.zero_le _
  | cons x points =>
      have hfar := hwindow.add_mul_le fun y hy => (hmem y hy).2
      have hfirst := (hmem x List.mem_cons_self).1
      have hcount : (points.length : K) ≤ L / d := by
        rw [le_div_iff₀ hd]
        linarith
      rw [List.length_cons, add_comm]
      exact Nat.add_le_add_left (Nat.le_floor hcount) 1

end Spacing

namespace SlidingWindow

variable {τ : Type*} {old : τ → τ → Bool} {p : τ → Bool} {l : List τ} {now : τ}

/-- A point is put at the back; `old now x` says whether `x` is too old. -/
def record (old : τ → τ → Bool) (queue : List τ) (now : τ) : List τ :=
  (queue ++ [now]).dropWhile (old now)

/-- What is too old stays so, and so is what came before it. -/
structure Ages [Preorder τ] (old : τ → τ → Bool) : Prop where
  before : ∀ {now x y}, x ≤ y → old now y = true → old now x = true
  stays : ∀ {now now' x}, now ≤ now' → old now x = true → old now' x = true

/-- Where a predicate holds of a prefix, dropping and filtering are the same. -/
theorem dropWhile_eq_filter (h : l.Pairwise fun x y => p y = true → p x = true) :
    l.dropWhile p = l.filter fun x => !p x := by
  induction l with
  | nil => rfl
  | cons a l ih =>
      obtain ⟨hhead, htail⟩ := List.pairwise_cons.mp h
      cases ha : p a with
      | true => simp [ha, ih htail]
      | false =>
          have hall : ∀ x ∈ l, p x = false := by
            intro x hx
            by_contra hpx
            rw [hhead x hx (Bool.not_eq_false _ ▸ hpx)] at ha
            cases ha
          have hfilter : (l.filter fun x => !p x) = l :=
            List.filter_eq_self.mpr fun x hx => by rw [hall x hx, Bool.not_false]
          simp [ha, hfilter]

variable [Preorder τ]

/-- **What the queue holds.** -/
theorem foldl_record (hold : Ages old) (h : (l ++ [now]).Pairwise (· ≤ ·)) :
    (l ++ [now]).foldl (record old) [] = (l ++ [now]).filter fun x => !old now x := by
  induction l using List.reverseRecOn generalizing now with
  | nil =>
      rw [List.nil_append, List.foldl_cons, List.foldl_nil, record, List.nil_append]
      exact dropWhile_eq_filter (List.pairwise_singleton _ _)
  | append_singleton l x ih =>
      have hprefix := (List.pairwise_append.mp h).1
      have hnow : x ≤ now := (List.pairwise_append.mp h).2.2 x (by simp) now (by simp)
      -- what was dropped before is still too old
      have hdropped : ∀ y, (!old now y && !old x y) = !old now y := by
        intro y
        cases hy : old x y with
        | true => rw [hold.stays hnow hy, Bool.not_true, Bool.and_self]
        | false => rw [Bool.not_false, Bool.and_true]
      have hsorted : (((l ++ [x]).filter fun y => !old x y) ++ [now]).Pairwise (· ≤ ·) :=
        h.sublist (List.filter_sublist.append_right _)
      rw [List.foldl_append, ih hprefix, List.foldl_cons, List.foldl_nil, record,
        dropWhile_eq_filter (hsorted.imp fun hxy => hold.before hxy), List.filter_append,
        List.filter_filter, List.filter_append (l ++ [x])]
      simp only [hdropped]

end SlidingWindow

namespace Heartbeat

variable {n gap delay losses slack start now heard : ℕ} {sign : ℕ → ℕ} {lost : ℕ → Prop}

/-- The signs `0, …, n - 1` until `now`. -/
structure Spread (n gap slack start now : ℕ) (sign : ℕ → ℕ) : Prop where
  first : 0 < n → sign 0 ≤ start + slack
  none : n = 0 → now ≤ start + slack
  step : ∀ i, i + 1 < n → sign (i + 1) ≤ sign i + gap
  last : ∀ i, i + 1 = n → now ≤ sign i + gap

/-- The signs, followed by `now`. -/
def extend (n now : ℕ) (sign : ℕ → ℕ) (i : ℕ) : ℕ := if i < n then sign i else now

theorem Spread.extend_succ (h : Spread n gap slack start now sign) {i : ℕ} (hi : i < n) :
    extend n now sign (i + 1) ≤ extend n now sign i + gap := by
  simp only [extend, if_pos hi]
  by_cases hnext : i + 1 < n
  · rw [if_pos hnext]
    exact h.step i hnext
  · rw [if_neg hnext]
    exact h.last i (by omega)

/-- What `j` steps bridge. -/
theorem Spread.extend_add (h : Spread n gap slack start now sign) {i j : ℕ} (hij : i + j ≤ n) :
    extend n now sign (i + j) ≤ extend n now sign i + j * gap := by
  induction j with
  | zero => simp
  | succ j ih =>
      have hstep := h.extend_succ (i := i + j) (by omega)
      have hrest := ih (by omega)
      calc extend n now sign (i + (j + 1)) ≤ extend n now sign (i + j) + gap := hstep
        _ ≤ extend n now sign i + j * gap + gap := Nat.add_le_add_right hrest gap
        _ = extend n now sign i + (j + 1) * gap := by ring

/-- **A sign was heard not long ago**, or the sender has only started then. -/
theorem heard_within (h : Spread n gap slack start now sign)
    (hlost : ∀ i, i + losses < n → ∃ j ≤ losses, ¬ lost (i + j))
    (hheard : ∀ i < n, ¬ lost i → sign i + delay < now → sign i ≤ heard) (hstart : start ≤ heard) :
    now ≤ heard + (losses + 1) * gap + delay + slack := by
  -- The first sign that may still be on its way; `now` itself counts as one.
  have hex : ∃ i, i ≤ n ∧ now ≤ extend n now sign i + delay := ⟨n, le_rfl, by simp [extend]⟩
  have hspec := Nat.find_spec hex
  have hmin : ∀ i, i < Nat.find hex → extend n now sign i + delay < now := by
    intro i hi
    have hnot := Nat.find_min hex hi
    have hle := hspec.1
    omega
  generalize Nat.find hex = k at hspec hmin
  obtain ⟨hk, hnow⟩ := hspec
  by_cases hmany : losses < k
  · obtain ⟨j, hj, hkept⟩ := hlost (k - 1 - losses) (by omega)
    generalize hi : k - 1 - losses + j = i at hkept
    have hold := hmin i (by omega)
    have hsign : extend n now sign i = sign i := if_pos (by omega)
    have hle : sign i ≤ heard := by
      refine hheard i (by omega) hkept ?_
      omega
    have hreach := h.extend_add (i := i) (j := k - i) (by omega)
    have hcount : (k - i) * gap ≤ (losses + 1) * gap := Nat.mul_le_mul_right gap (by omega)
    rw [Nat.add_sub_cancel' (by omega)] at hreach
    omega
  · have hreach := h.extend_add (i := 0) (j := k) (by omega)
    have hcount : k * gap ≤ (losses + 1) * gap := Nat.mul_le_mul_right gap (by omega)
    have hzero : extend n now sign 0 ≤ start + slack := by
      by_cases hn : 0 < n
      · rw [extend, if_pos hn]
        exact h.first hn
      · rw [extend, if_neg hn]
        exact h.none (by omega)
    rw [Nat.zero_add] at hreach
    omega

end Heartbeat
