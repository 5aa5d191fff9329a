import Mathlib.Data.Set.Insert

/-!
# Replicas kept by announcements

A replica of a set is kept by operations that arrive in the order in which they were
sent.  The writer changes its set first and sends the operation later, so several
operations may be waiting, some of them overtaken by newer changes.

## Main definitions

* `Op` — put a key into the replica, or drop it.
* `settle` — the replica once everything in flight has arrived.
* `settleList` — the same for a replica that is kept as a list.
* `Covered` — where the replica will differ, an operation that puts it right is waiting.
* `Covered.write`, `Covered.send` — what keeps it so.
-/

namespace Replica

universe u
variable {κ : Type u}

/-- An operation on a replica. -/
inductive Op (κ : Type u)
  | put (k : κ)
  | drop (k : κ)
  deriving DecidableEq

/-- The key that an operation is about. -/
def Op.key : Op κ → κ
  | put k => k
  | drop k => k

/-- The operation says of its key what holds of it. -/
def Op.Agrees (truth : Set κ) : Op κ → Prop
  | put k => k ∈ truth
  | drop k => k ∉ truth

instance (truth : Set κ) [∀ k, Decidable (k ∈ truth)] : ∀ o : Op κ, Decidable (o.Agrees truth)
  | .put k => inferInstanceAs (Decidable (k ∈ truth))
  | .drop k => inferInstanceAs (Decidable (k ∉ truth))

/-- An operation arrives. -/
def apply (s : Set κ) : Op κ → Set κ
  | .put k => insert k s
  | .drop k => s \ {k}

/-- All operations in flight arrive. -/
def settle (s : Set κ) (ops : List (Op κ)) : Set κ := ops.foldl apply s

variable {s truth truth' : Set κ} {o : Op κ} {k : κ} {waiting waiting' : Op κ → Prop}

@[simp] theorem settle_nil (s : Set κ) : settle s [] = s := rfl

@[simp] theorem settle_cons (s : Set κ) (o : Op κ) (ops : List (Op κ)) :
    settle s (o :: ops) = settle (apply s o) ops := rfl

theorem settle_append (s : Set κ) (ops ops' : List (Op κ)) :
    settle s (ops ++ ops') = settle (settle s ops) ops' :=
  List.foldl_append

theorem mem_apply_of_ne (h : k ≠ o.key) : k ∈ apply s o ↔ k ∈ s := by
  cases o with
  | put k' => exact Set.mem_insert_iff.trans (or_iff_right h)
  | drop k' => exact ⟨And.left, fun hk => ⟨hk, h⟩⟩

/-- After an operation the replica has its key right if and only if the operation does. -/
theorem mem_apply_key : (o.key ∈ apply s o ↔ o.key ∈ truth) ↔ o.Agrees truth := by
  cases o with
  | put k =>
      have hk : k ∈ apply s (.put k) := Set.mem_insert k s
      exact ⟨fun h => h.mp hk, fun h => ⟨fun _ => h, fun _ => hk⟩⟩
  | drop k =>
      have hk : k ∉ apply s (.drop k) := fun h => h.2 rfl
      constructor
      · intro h hmem
        exact hk (h.mpr hmem)
      · intro h
        exact iff_of_false hk h

/-- Operations on other keys leave a key alone. -/
theorem mem_settle_of_ne {ops : List (Op κ)} (h : ∀ o ∈ ops, o.key ≠ k) :
    k ∈ settle s ops ↔ k ∈ s := by
  induction ops generalizing s with
  | nil => rfl
  | cons o ops ih =>
      rw [settle_cons, ih fun o' ho' => h o' (List.mem_cons_of_mem _ ho')]
      exact mem_apply_of_ne (h o List.mem_cons_self).symm

/-- Puts add their keys. -/
theorem mem_settle_puts {ops : List (Op κ)} (h : ∀ o ∈ ops, ∃ k', o = .put k') :
    k ∈ settle s ops ↔ k ∈ s ∨ .put k ∈ ops := by
  induction ops generalizing s with
  | nil => simp
  | cons o ops ih =>
      obtain ⟨k', rfl⟩ := h o List.mem_cons_self
      rw [settle_cons, ih fun o' ho' => h o' (List.mem_cons_of_mem _ ho')]
      have hput : k ∈ apply s (.put k') ↔ k = k' ∨ k ∈ s := Set.mem_insert_iff
      rw [hput, List.mem_cons, Op.put.injEq, or_comm (a := k = k'), or_assoc]

/-- Drops of a key, if there are any, remove it. -/
theorem mem_settle_drops {ops : List (Op κ)} (h : ∀ o ∈ ops, o = .drop k) :
    k ∈ settle s ops ↔ k ∈ s ∧ ops = [] := by
  induction ops generalizing s with
  | nil => simp
  | cons o ops ih =>
      obtain rfl := h o List.mem_cons_self
      rw [settle_cons, ih fun o' ho' => h o' (List.mem_cons_of_mem _ ho')]
      have hdrop : k ∉ apply s (.drop k) := fun hk => hk.2 rfl
      simp [hdrop]

section Lists
variable [DecidableEq κ]

/-- An operation arrives at a replica that is kept as a list. -/
def applyList (l : List κ) : Op κ → List κ
  | .put k => k :: l
  | .drop k => l.filter (· ≠ k)

/-- All operations arrive at it. -/
def settleList (l : List κ) (ops : List (Op κ)) : List κ := ops.foldl applyList l

theorem setOf_applyList (l : List κ) (o : Op κ) :
    {k | k ∈ applyList l o} = apply {k | k ∈ l} o := by
  ext k
  cases o with
  | put k' => simp [applyList, apply]
  | drop k' => simp [applyList, apply]

theorem mem_settleList {l : List κ} {ops : List (Op κ)} :
    k ∈ settleList l ops ↔ k ∈ settle {k | k ∈ l} ops := by
  induction ops generalizing l with
  | nil => rfl
  | cons o ops ih =>
      rw [settle_cons, ← setOf_applyList]
      exact ih

end Lists

/-- Where the replica is wrong, an operation that puts it right is waiting. -/
def Covered (truth s : Set κ) (waiting : Op κ → Prop) : Prop :=
  ∀ k, (k ∈ s ↔ k ∈ truth) ∨ ∃ o, waiting o ∧ o.key = k ∧ o.Agrees truth

/-- Whether an operation agrees depends on its key only. -/
theorem Op.agrees_congr (h : o.key ∈ truth ↔ o.key ∈ truth') :
    o.Agrees truth ↔ o.Agrees truth' := by
  cases o with
  | put k => exact h
  | drop k => exact not_congr h

/-- The writer changes its set at one key and lets an operation wait that says so. -/
theorem Covered.write (h : Covered truth s waiting)
    (hsame : ∀ k', k' ≠ k → (k' ∈ truth ↔ k' ∈ truth'))
    (hkeep : ∀ o, waiting o → o.key ≠ k → waiting' o)
    (hnew : ∃ o, waiting' o ∧ o.key = k ∧ o.Agrees truth') : Covered truth' s waiting' := by
  intro k'
  by_cases hk : k' = k
  · exact .inr (hk ▸ hnew)
  · rcases h k' with hs | ⟨o, ho, hkey, hagrees⟩
    · exact .inl (hs.trans (hsame k' hk))
    · have hne : o.key ≠ k := hkey ▸ hk
      exact .inr ⟨o, hkeep o ho hne, hkey, (Op.agrees_congr (hsame _ hne)).mp hagrees⟩

/-- Nothing is changed, and nothing that waits is given up. -/
theorem Covered.mono (h : Covered truth s waiting) (hkeep : ∀ o, waiting o → waiting' o) :
    Covered truth s waiting' := by
  intro k
  rcases h k with hs | ⟨o, ho, hkey, hagrees⟩
  · exact .inl hs
  · exact .inr ⟨o, hkeep o ho, hkey, hagrees⟩

/-- **A waiting operation is sent.** If it does not agree, one that does must wait. -/
theorem Covered.send (h : Covered truth s waiting)
    (hkeep : ∀ o', waiting o' → o' = o ∨ waiting' o')
    (hlast : o.Agrees truth ∨ ∃ o', waiting' o' ∧ o'.key = o.key ∧ o'.Agrees truth) :
    Covered truth (apply s o) waiting' := by
  intro k
  by_cases hk : k = o.key
  · subst hk
    exact hlast.imp mem_apply_key.mpr id
  · rcases h k with hs | ⟨o', ho, hkey, hagrees⟩
    · exact .inl ((mem_apply_of_ne hk).trans hs)
    · rcases hkeep o' ho with rfl | ho
      · exact absurd hkey.symm hk
      · exact .inr ⟨o', ho, hkey, hagrees⟩

/-- When nothing waits the replica is right. -/
theorem Covered.eq (h : Covered truth s waiting) (hnone : ∀ o, ¬ waiting o) : s = truth := by
  ext k
  rcases h k with hs | ⟨o, ho, -⟩
  · exact hs
  · exact absurd ho (hnone o)

end Replica
