import Mathlib.Data.List.Basic
import Mathlib.Data.Multiset.DershowitzManna
import Mathlib.Data.Option.Basic
import Mathlib.Order.WellFounded

/-!
# Runs of a partial step function

A system is given by a step function `next : σ → α → Option σ`: the action holds
everything the environment decides, and `none` means that the action is not
enabled.  A run is a list of actions.  This module supplies the vocabulary in
which run properties are stated and the induction rules that prove them.

Some systems come to rest: there is work to do, every item of it at a level, and a step
takes one item and may leave any number of new ones at lower levels.  However many these
are, there is an end to it.

## Main definitions

* `exec next s as` — perform the actions of `as` in order.
* `Guarded next G s as` — every action of the run is taken from a state that
  admits it under `G`.
* `Always next P s as` — `P` in every state the run passes through.
* `invariant` — what the guarded steps preserve holds at the end of the run.
* `Cascade.Falls` — an item gives way to items of lower levels.
* `Cascade.eventually_still` — an infinite run falls finitely often.
* `Cascade.exists_done` — a run that does all the work.
-/

namespace Exec

universe u v
variable {σ : Type u} {α : Type v} {next : σ → α → Option σ}
variable {G H : σ → α → Prop} {P Q : σ → Prop}

/-- Perform the actions in order, stopping with `none` at the first one that is
not enabled. -/
def exec (next : σ → α → Option σ) (s : σ) (as : List α) : Option σ := as.foldlM next s

/-- Every action of the run is taken from a state that admits it under `G`. -/
def Guarded (next : σ → α → Option σ) (G : σ → α → Prop) : σ → List α → Prop
  | _, [] => True
  | s, a :: as => G s a ∧ ∀ t, next s a = some t → Guarded next G t as

/-- `P` holds in every state the run passes through, the first and the last
included. -/
def Always (next : σ → α → Option σ) (P : σ → Prop) : σ → List α → Prop
  | s, [] => P s
  | s, a :: as => P s ∧ ∀ t, next s a = some t → Always next P t as

@[simp] theorem exec_nil (s : σ) : exec next s [] = some s := rfl

@[simp] theorem exec_cons (s : σ) (a : α) (as : List α) :
    exec next s (a :: as) = (next s a).bind fun t => exec next t as := rfl

@[simp] theorem guarded_nil (s : σ) : Guarded next G s [] := trivial

@[simp] theorem guarded_cons (s : σ) (a : α) (as : List α) :
    Guarded next G s (a :: as) ↔ G s a ∧ ∀ t, next s a = some t → Guarded next G t as := Iff.rfl

/-- A guarded run with one more step in front. -/
theorem guarded_step {s t : σ} {a : α} {as : List α} (h : next s a = some t) (ha : G s a)
    (hg : Guarded next G t as) : Guarded next G s (a :: as) := by
  refine ⟨ha, fun u hu => ?_⟩
  obtain rfl := Option.some.inj (h.symm.trans hu)
  exact hg

/-- Guards that can be decided can be decided along a run. -/
instance decidableGuarded [∀ s a, Decidable (G s a)] :
    ∀ (s : σ) (as : List α), Decidable (Guarded next G s as)
  | _, [] => isTrue trivial
  | s, a :: as =>
    match h : next s a with
    | none => decidable_of_iff (G s a) (by simp [h])
    | some t =>
      have := decidableGuarded t as
      decidable_of_iff (G s a ∧ Guarded next G t as) (by simp [h])

theorem exec_append (s : σ) (as bs : List α) :
    exec next s (as ++ bs) = (exec next s as).bind fun t => exec next t bs :=
  List.foldlM_append

/-- One run after another. -/
theorem exec_trans {s t u : σ} {as bs : List α} (h : exec next s as = some t)
    (h' : exec next t bs = some u) : exec next s (as ++ bs) = some u := by
  rw [exec_append, h, Option.bind_some, h']

/-- A run splits at any of its actions. -/
theorem exec_append_eq_some {s u : σ} {as bs : List α} (h : exec next s (as ++ bs) = some u) :
    ∃ t, exec next s as = some t ∧ exec next t bs = some u := by
  rw [exec_append] at h
  exact Option.bind_eq_some_iff.mp h

theorem Guarded.mono (h : ∀ s a, G s a → H s a) {s : σ} {as : List α}
    (hg : Guarded next G s as) : Guarded next H s as := by
  induction as generalizing s with
  | nil => trivial
  | cons a as ih => exact ⟨h s a hg.1, fun t ht => ih (hg.2 t ht)⟩

theorem Guarded.and {s : σ} {as : List α} (hg : Guarded next G s as)
    (hh : Guarded next H s as) : Guarded next (fun s a => G s a ∧ H s a) s as := by
  induction as generalizing s with
  | nil => trivial
  | cons a as ih => exact ⟨⟨hg.1, hh.1⟩, fun t ht => ih (hg.2 t ht) (hh.2 t ht)⟩

/-- A guard that the actions of the run meet anywhere. -/
theorem guarded_of_forall {as : List α} (h : ∀ a ∈ as, ∀ s, G s a) (s : σ) :
    Guarded next G s as := by
  induction as generalizing s with
  | nil => trivial
  | cons a as ih =>
      refine ⟨h a List.mem_cons_self s, fun t _ => ?_⟩
      exact ih (fun b hb => h b (List.mem_cons_of_mem _ hb)) t

theorem guarded_append {s : σ} {as bs : List α} :
    Guarded next G s (as ++ bs) ↔
      Guarded next G s as ∧ ∀ t, exec next s as = some t → Guarded next G t bs := by
  induction as generalizing s with
  | nil => simp
  | cons a as ih =>
      simp only [List.cons_append, guarded_cons, ih, exec_cons]
      constructor
      · rintro ⟨ha, h⟩
        refine ⟨⟨ha, fun t ht => (h t ht).1⟩, fun u hu => ?_⟩
        obtain ⟨t, ht, htu⟩ := Option.bind_eq_some_iff.mp hu
        exact (h t ht).2 u htu
      · rintro ⟨⟨ha, h⟩, hb⟩
        refine ⟨ha, fun t ht => ⟨h t ht, fun u hu => hb u ?_⟩⟩
        simp [ht, hu]

/-- **The invariant rule.**  What holds at the start and is preserved by every
guarded step holds at the end of every guarded run. -/
theorem invariant (hstep : ∀ s a t, P s → G s a → next s a = some t → P t)
    {s t : σ} {as : List α} (h0 : P s) (hg : Guarded next G s as)
    (he : exec next s as = some t) : P t := by
  induction as generalizing s with
  | nil => simpa using Option.some.inj he ▸ h0
  | cons a as ih =>
      obtain ⟨u, hu, hut⟩ := Option.bind_eq_some_iff.mp he
      exact ih (hstep s a u h0 hg.1 hu) (hg.2 u hu) hut

theorem guarded_true (s : σ) (as : List α) : Guarded next (fun _ _ => True) s as := by
  induction as generalizing s with
  | nil => trivial
  | cons a as ih => exact ⟨trivial, fun t _ => ih t⟩

/-- The invariant rule for what every step preserves. -/
theorem stable (hstep : ∀ s a t, P s → next s a = some t → P t) {s t : σ} {as : List α}
    (h0 : P s) (he : exec next s as = some t) : P t :=
  invariant (fun s a t hs _ h => hstep s a t hs h) h0 (guarded_true s as) he

/-- The invariant rule for the property of a whole run. -/
theorem always_of_invariant (hstep : ∀ s a t, P s → G s a → next s a = some t → P t)
    (hPQ : ∀ s, P s → Q s) {s : σ} {as : List α} (h0 : P s) (hg : Guarded next G s as) :
    Always next Q s as := by
  induction as generalizing s with
  | nil => exact hPQ s h0
  | cons a as ih => exact ⟨hPQ s h0, fun t ht => ih (hstep s a t h0 hg.1 ht) (hg.2 t ht)⟩

/-- A guarded run of an invariant system satisfies every guard the invariant
implies. -/
theorem guarded_of_invariant (hstep : ∀ s a t, P s → G s a → next s a = some t → P t)
    (hPH : ∀ s a, P s → G s a → H s a) {s : σ} {as : List α} (h0 : P s)
    (hg : Guarded next G s as) : Guarded next H s as := by
  induction as generalizing s with
  | nil => trivial
  | cons a as ih => exact ⟨hPH s a h0 hg.1, fun t ht => ih (hstep s a t h0 hg.1 ht) (hg.2 t ht)⟩

/-- What always holds along a run holds where the run ends. -/
theorem Always.end_of_exec {s t : σ} {as : List α} (h : Always next P s as)
    (he : exec next s as = some t) : P t := by
  induction as generalizing s with
  | nil => exact Option.some.inj he ▸ h
  | cons a as ih =>
      obtain ⟨u, hu, hut⟩ := Option.bind_eq_some_iff.mp he
      exact ih (h.2 u hu) hut

theorem Always.start {s : σ} {as : List α} (h : Always next P s as) : P s := by
  cases as with
  | nil => exact h
  | cons a as => exact h.1

/-- If every step from a `P`-state into a `P`-state satisfies `G`, a run through `P`-states
only is guarded by `G`; what every step preserves may be used. -/
theorem Always.guarded_of_stable {I : σ → Prop} (hI : ∀ s a t, I s → next s a = some t → I t)
    (hstep : ∀ s a, I s → P s → (∀ t, next s a = some t → P t) → G s a) {s : σ} {as : List α}
    (h0 : I s) (h : Always next P s as) : Guarded next G s as := by
  induction as generalizing s with
  | nil => trivial
  | cons a as ih =>
      refine ⟨hstep s a h0 h.1 fun t ht => (h.2 t ht).start, fun t ht => ?_⟩
      exact ih (hI s a t h0 ht) (h.2 t ht)

theorem Always.guarded (hstep : ∀ s a, P s → (∀ t, next s a = some t → P t) → G s a)
    {s : σ} {as : List α} (h : Always next P s as) : Guarded next G s as :=
  h.guarded_of_stable (fun _ _ _ _ _ => trivial) (fun s a _ hs => hstep s a hs) trivial

end Exec

namespace Cascade

open Exec Multiset

universe u v
variable {σ : Type u} {α : Type v}

/-- An item gives way to items of lower levels. -/
def Falls (before after : Multiset ℕ) : Prop :=
  ∃ kept new item, before = item ::ₘ kept ∧ after = kept + new ∧ ∀ x ∈ new, x < item

theorem Falls.lt {before after : Multiset ℕ} (h : Falls before after) :
    IsDershowitzMannaLT after before := by
  obtain ⟨kept, new, item, rfl, rfl, hnew⟩ := h
  refine ⟨kept, new, {item}, by simp, rfl, ?_, fun x hx => ⟨item, by simp, hnew x hx⟩⟩
  rw [add_comm, singleton_add]

/-- Something is added to both sides. -/
theorem Falls.add {before after : Multiset ℕ} (h : Falls before after) (rest : Multiset ℕ) :
    Falls (before + rest) (after + rest) := by
  obtain ⟨kept, new, item, rfl, rfl, hnew⟩ := h
  exact ⟨kept + rest, new, item, cons_add .., add_right_comm .., hnew⟩

theorem lt_irrefl (s : Multiset ℕ) : ¬ IsDershowitzMannaLT s s :=
  wellFounded_isDershowitzMannaLT.irrefl.irrefl s

/-- **An infinite run falls finitely often**, where the other steps leave the work as it is. -/
theorem eventually_still (pending : σ → Multiset ℕ) (run : ℕ → σ)
    (hstep : ∀ k, Falls (pending (run k)) (pending (run (k + 1))) ∨
      pending (run (k + 1)) = pending (run k)) :
    ∃ k, ∀ l, k ≤ l → ¬ Falls (pending (run l)) (pending (run (l + 1))) := by
  obtain ⟨-, ⟨k, rfl⟩, hleast⟩ := wellFounded_isDershowitzMannaLT.has_min
    (Set.range fun k => pending (run k)) ⟨_, 0, rfl⟩
  have hmin : ∀ l, ¬ IsDershowitzMannaLT (pending (run l)) (pending (run k)) :=
    fun l => hleast _ ⟨l, rfl⟩
  -- from the least amount of work on, nothing is done
  have hsame : ∀ l, k ≤ l → pending (run l) = pending (run k) := by
    intro l hl
    induction l, hl using Nat.le_induction with
    | base => rfl
    | succ l hl ih =>
        rcases hstep l with hfalls | hstill
        · exact absurd (ih ▸ hfalls.lt) (hmin (l + 1))
        · exact hstill.trans ih
  refine ⟨k, ?_⟩
  intro l hl hfalls
  have hlt := hfalls.lt
  rw [hsame l hl, hsame (l + 1) (by omega)] at hlt
  exact lt_irrefl _ hlt

/-- **The work can be done** by steps of a kind if one of them falls wherever there is work. -/
theorem exists_done {next : σ → α → Option σ} (pending : σ → Multiset ℕ) {P : σ → Prop}
    {G : α → Prop} (hstep : ∀ s, P s → pending s ≠ 0 →
      ∃ a t, G a ∧ next s a = some t ∧ P t ∧ Falls (pending s) (pending t)) {s : σ} (hs : P s) :
    ∃ as t, (∀ a ∈ as, G a) ∧ exec next s as = some t ∧ pending t = 0 := by
  have hwork := (InvImage.wf pending wellFounded_isDershowitzMannaLT).apply s
  induction hwork with
  | intro s _ ih =>
      by_cases hdone : pending s = 0
      · exact ⟨[], s, by simp, rfl, hdone⟩
      · obtain ⟨a, t, ha, ht, hPt, hfalls⟩ := hstep s hs hdone
        obtain ⟨as, u, has, hu, hend⟩ := ih t hfalls.lt hPt
        refine ⟨a :: as, u, List.forall_mem_cons.mpr ⟨ha, has⟩, ?_, hend⟩
        rw [exec_cons, ht, Option.bind_some, hu]

end Cascade
