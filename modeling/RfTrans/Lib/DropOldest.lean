import RfTrans.Lib.Framing
import Mathlib.Data.List.DropRight

/-!
# A bounded queue that is swapped out

One party appends to a queue that drops its front when it has become too long; another one
takes everything at once.  What it takes is the end of what was appended since it last did.

## Main definitions

* `DropOldest.run` — the queue after some operations, and the batches that were taken.
* `DropOldest.cut` — what was appended, cut up by the swaps.
* `DropOldest.run_eq` — the one in terms of the other.
-/

namespace DropOldest

open Framing

variable {α : Type*} (limit : ℕ)

/-- What is done to a queue. -/
inductive Op (α : Type*)
  | push (x : α)
  | swap

/-- A queue and the batches that were swapped out. -/
structure Queue (α : Type*) where
  items : List α := []
  batches : List (List α) := []

/-- One operation. -/
def step (q : Queue α) : Op α → Queue α
  | .push x => { q with items := enqueue (some limit) q.items x }
  | .swap => ⟨[], q.batches ++ [q.items]⟩

/-- The queue after some operations. -/
def run (ops : List (Op α)) : Queue α := ops.foldl (step limit) {}

/-- The elements between two swaps, and those since the last one. -/
structure Cut (α : Type*) where
  closed : List (List α) := []
  since : List α := []

def Cut.step (c : Cut α) : Op α → Cut α
  | .push x => { c with since := c.since ++ [x] }
  | .swap => ⟨c.closed ++ [c.since], []⟩

/-- What was appended, cut up by the swaps. -/
def cut (ops : List (Op α)) : Cut α := ops.foldl Cut.step {}

/-- What was appended. -/
def pushed : List (Op α) → List α
  | [] => []
  | .push x :: ops => x :: pushed ops
  | .swap :: ops => pushed ops

/-! ## The end of a list -/

variable {limit}

theorem length_rtake_le (l : List α) (n : ℕ) : (l.rtake n).length ≤ n := by
  rw [List.rtake, List.length_drop]
  omega

theorem rtake_sublist (l : List α) (n : ℕ) : (l.rtake n).Sublist l := List.drop_sublist _ l

/-- The queue keeps the end of what is appended. -/
theorem enqueue_rtake (l : List α) (x : α) :
    enqueue (some limit) (l.rtake limit) x = (l ++ [x]).rtake limit := by
  have hlength : (l.rtake limit ++ [x]).length = min l.length limit + 1 := by
    rw [List.length_append, List.length_singleton, List.rtake, List.length_drop]
    omega
  simp only [enqueue, Option.any_some, decide_eq_true_eq, hlength]
  split
  case isTrue hlong =>
    rw [List.rtake, List.rtake, ← List.drop_one, ← List.drop_append_of_le_length (by omega),
      List.drop_drop, List.length_append, List.length_singleton]
    congr 1
    omega
  case isFalse hshort =>
    have hall : l.length - limit = 0 := by omega
    have hall' : (l ++ [x]).length - limit = 0 := by
      rw [List.length_append, List.length_singleton]
      omega
    rw [List.rtake, List.rtake, hall, hall', List.drop_zero, List.drop_zero]

/-- An element is in the end of a list unless too much comes after it. -/
theorem rtake_append_cons (l : List α) (x : α) (r : List α) (n : ℕ) :
    (l ++ x :: r).rtake n =
      if r.length < n then l.rtake (n - (r.length + 1)) ++ x :: r else r.rtake n := by
  have hlength : (l ++ x :: r).length = l.length + (r.length + 1) := by simp
  rw [List.rtake, hlength]
  split
  case isTrue hshort =>
    rw [List.drop_append_of_le_length (by omega), List.rtake]
    congr 2
    omega
  case isFalse hlong =>
    have hskip : l.length + (r.length + 1) - n = l.length + 1 + (r.length - n) := by omega
    rw [hskip, ← List.drop_drop, ← List.drop_drop, List.drop_left, List.drop_one, List.tail_cons,
      List.rtake]

/-! ## Runs -/

variable {ops ops' : List (Op α)}

theorem run_append_singleton (op : Op α) :
    run limit (ops ++ [op]) = step limit (run limit ops) op := by
  rw [run, List.foldl_append]
  rfl

theorem cut_append_singleton (op : Op α) : cut (ops ++ [op]) = (cut ops).step op := by
  rw [cut, List.foldl_append]
  rfl

/-- **Every batch is the end of what was appended for it**, and so is the queue. -/
theorem run_eq (limit : ℕ) (ops : List (Op α)) : run limit ops =
    { items := (cut ops).since.rtake limit
      batches := (cut ops).closed.map fun l => l.rtake limit } := by
  induction ops using List.reverseRecOn with
  | nil => simp [run, cut]
  | append_singleton ops op ih =>
      rw [run_append_singleton, cut_append_singleton, ih]
      cases op with
      | push x => exact congrArg (Queue.mk · _) (enqueue_rtake ..)
      | swap => simp [step, Cut.step]

theorem pushed_append : pushed (ops ++ ops') = pushed ops ++ pushed ops' := by
  induction ops with
  | nil => rfl
  | cons op ops ih =>
      cases op with
      | push x => exact congrArg (x :: ·) ih
      | swap => exact ih

/-- The pieces are all there is. -/
theorem flatten_cut : (cut ops).closed.flatten ++ (cut ops).since = pushed ops := by
  induction ops using List.reverseRecOn with
  | nil => rfl
  | append_singleton ops op ih =>
      rw [cut_append_singleton, pushed_append, ← ih]
      cases op with
      | push x => simp [Cut.step, pushed]
      | swap => simp [Cut.step, pushed]

/-- What is taken comes in the order in which it was appended, and nothing twice. -/
theorem flatten_batches_sublist : (run limit ops).batches.flatten.Sublist (pushed ops) := by
  rw [run_eq, ← flatten_cut]
  refine List.Sublist.trans ?_ (List.sublist_append_left ..)
  induction (cut ops).closed with
  | nil => exact List.Sublist.slnil
  | cons l closed ih => exact (rtake_sublist l limit).append ih

theorem length_items_le : (run limit ops).items.length ≤ limit := by
  rw [run_eq]
  exact length_rtake_le ..

/-- No swap, nothing is cut. -/
theorem cut_append_pushed (h : ∀ op ∈ ops', ∃ x, op = .push x) :
    cut (ops ++ ops') = ⟨(cut ops).closed, (cut ops).since ++ pushed ops'⟩ := by
  induction ops' using List.reverseRecOn with
  | nil => simp [pushed]
  | append_singleton ops' op ih =>
      obtain ⟨x, rfl⟩ := h op (by simp)
      rw [← List.append_assoc, cut_append_singleton, ih fun op hop => h op (by simp [hop]),
        pushed_append]
      simp [Cut.step, pushed]

/-- A swap starts over. -/
theorem cut_append_swap : cut (ops ++ .swap :: ops') =
    ⟨(cut ops).closed ++ [(cut ops).since] ++ (cut ops').closed, (cut ops').since⟩ := by
  induction ops' using List.reverseRecOn with
  | nil => rw [cut_append_singleton]; simp [Cut.step, cut]
  | append_singleton ops' op ih =>
      rw [← List.cons_append, ← List.append_assoc, cut_append_singleton, cut_append_singleton, ih]
      cases op with
      | push x => rfl
      | swap => simp [Cut.step]

theorem mem_pushed_of_mem_batches {x : α}
    (h : x ∈ ((cut ops).closed.map fun l => l.rtake limit).flatten) : x ∈ pushed ops := by
  have hbatches : (run limit ops).batches = (cut ops).closed.map fun l => l.rtake limit := by
    rw [run_eq]
  rw [← hbatches] at h
  exact flatten_batches_sublist.subset h

/-- **What is dropped**: an element is in no batch exactly if as many as the limit were
appended between it and the next swap. -/
theorem mem_batches_iff {before mid after : List (Op α)} {x : α}
    (hmid : ∀ op ∈ mid, ∃ y, op = .push y) (hbefore : x ∉ pushed before)
    (hsince : x ∉ pushed mid) (hafter : x ∉ pushed after) :
    x ∈ (run limit (before ++ .push x :: (mid ++ .swap :: after))).batches.flatten ↔
      (pushed mid).length < limit := by
  have hops : before ++ .push x :: (mid ++ .swap :: after) =
      (before ++ .push x :: mid) ++ .swap :: after := by simp
  have hpushes : ∀ op ∈ Op.push x :: mid, ∃ y, op = .push y := by
    intro op hop
    rcases List.mem_cons.mp hop with rfl | hop
    · exact ⟨x, rfl⟩
    · exact hmid op hop
  have hpiece : x ∈ ((cut before).since ++ x :: pushed mid).rtake limit ↔
      (pushed mid).length < limit := by
    rw [rtake_append_cons]
    split
    case isTrue hlt => simp [hlt]
    case isFalse hle =>
      refine iff_of_false ?_ hle
      intro hx
      exact hsince ((rtake_sublist _ limit).subset hx)
  rw [run_eq, hops, cut_append_swap, cut_append_pushed hpushes]
  simp only [List.map_append, List.flatten_append, List.mem_append, List.map_cons, List.map_nil,
    List.flatten_cons, List.flatten_nil, List.append_nil, pushed]
  rw [← hpiece]
  constructor
  · intro hx
    rcases hx with (hx | hx) | hx
    · exact absurd (mem_pushed_of_mem_batches hx) hbefore
    · exact hx
    · exact absurd (mem_pushed_of_mem_batches hx) hafter
  · intro hx
    exact .inl (.inr hx)

end DropOldest
