import Mathlib.Data.Nat.Notation
import Mathlib.Logic.Function.Basic

/-!
# What one thread may rely on while others run

Two patterns of threads that share memory without a common lock.

In the first one they file things in shared tables and look afterwards what the others have
filed.  A pair that is there is either served, or some thread has not looked yet and owes it.
Whoever files second sees what was filed first, so no pair is missed.  What a thread owes is
read off its phase.  A step changes the phase of one thread; the step rule asks what becomes
of the pairs, and the end rule says that once no thread owes anything, every pair is served.

The second one is a family of cells, each with a version number, where a writer makes the
version odd while it changes the cell and even again when it is done.  Optimistic readers
compare versions before and after they look.  The two facts that make this work do not depend
on what a cell is or how the writers proceed: versions never decrease, and a cell whose version
is even and stays the same is not changed.

## Main definitions

* `Handshake.Covered` — every pair that is there is served or owed.
* `Handshake.Covered.step` — a step of one thread.
* `Handshake.Covered.all_served` — the end rule.
* `Seqlock.Stable ver val s t` — the step from `s` to `t` keeps to the rules.
* `Seqlock.Pinned ver val P s i v` — what an observer may remember about cell `i`:
  it satisfied `P` while its version was `v`, so it still does if the version is
  still `v`.
-/

namespace Handshake

universe u v w
variable {ι : Type u} {φ : Type v} {κ : Type w}
variable {here here' served served' : κ → Prop} {phase phase' : ι → φ} {owes : φ → κ → Prop}

/-- Every pair that is there is served or owed by some thread. -/
def Covered (here served : κ → Prop) (phase : ι → φ) (owes : φ → κ → Prop) : Prop :=
  ∀ k, here k → served k ∨ ∃ i, owes (phase i) k

/-- **The step rule.** The thread that moves owes what it files itself, and what it owed
before it serves or still owes. -/
theorem Covered.step (h : Covered here served phase owes) (i : ι)
    (hothers : ∀ j, j ≠ i → phase' j = phase j) (hserved : ∀ k, served k → served' k)
    (hnew : ∀ k, here' k → here k ∨ served' k ∨ owes (phase' i) k)
    (hkept : ∀ k, here' k → owes (phase i) k → served' k ∨ owes (phase' i) k) :
    Covered here' served' phase' owes := by
  intro k hk
  rcases hnew k hk with hold | hs | ho
  · rcases h k hold with hs | ⟨j, hj⟩
    · exact .inl (hserved k hs)
    · by_cases hji : j = i
      · subst hji
        exact (hkept k hk hj).imp_right fun ho => ⟨j, ho⟩
      · exact .inr ⟨j, (hothers j hji).symm ▸ hj⟩
  · exact .inl hs
  · exact .inr ⟨i, ho⟩

/-- A step that changes neither the phases nor what is there. -/
theorem Covered.mono (h : Covered here served phase owes) (hhere : ∀ k, here' k → here k)
    (hserved : ∀ k, served k → served' k) : Covered here' served' phase owes :=
  fun k hk => (h k (hhere k hk)).imp_left (hserved k)

/-- **The end rule.** When no thread owes anything, nothing was missed. -/
theorem Covered.all_served (h : Covered here served phase owes) (hdone : ∀ i k, ¬ owes (phase i) k)
    {k : κ} (hk : here k) : served k := by
  rcases h k hk with hs | ⟨i, hi⟩
  · exact hs
  · exact absurd hi (hdone i k)

end Handshake

namespace Seqlock

universe u v w
variable {σ : Type u} {ι : Type v} {β : Type w} {ver : σ → ι → ℕ} {val : σ → ι → β}
variable {P Q : β → Prop} {s t : σ} {i : ι} {n : ℕ}

/-- Versions do not decrease, and a cell changes only with an odd version or a
new one. -/
def Stable (ver : σ → ι → ℕ) (val : σ → ι → β) (s t : σ) : Prop :=
  ∀ i, ver s i ≤ ver t i ∧ (ver s i % 2 = 0 → ver t i = ver s i → val t i = val s i)

/-- The even version `n` is not in the future of cell `i`, and the cell satisfies
`P` if it is still at that version. -/
structure Pinned (ver : σ → ι → ℕ) (val : σ → ι → β) (P : β → Prop) (s : σ) (i : ι)
    (n : ℕ) : Prop where
  even : n % 2 = 0
  le : n ≤ ver s i
  holds : ver s i = n → P (val s i)

theorem Stable.refl (s : σ) : Stable ver val s s := fun _ => ⟨Nat.le_refl _, fun _ _ => rfl⟩

/-- A step that leaves every cell and version alone. -/
theorem Stable.of_eq (hver : ver t = ver s) (hval : val t = val s) : Stable ver val s t :=
  fun i => by simp [hver, hval]

/-- **What an observer remembers survives every stable step.** If the version is
still `n` after the step, it was `n` before, and nothing changed in between. -/
theorem Pinned.step (h : Pinned ver val P s i n) (hs : Stable ver val s t) :
    Pinned ver val P t i n where
  even := h.even
  le := Nat.le_trans h.le (hs i).1
  holds := by
    intro ht
    have hsn : ver s i = n := Nat.le_antisymm (ht ▸ (hs i).1) h.le
    have heven : ver s i % 2 = 0 := hsn ▸ h.even
    rw [(hs i).2 heven (ht.trans hsn.symm)]
    exact h.holds hsn

/-- Two memories of one version, checked at that version, are about one value. -/
theorem Pinned.both (hp : Pinned ver val P s i n) (hq : Pinned ver val Q s i n)
    (h : ver s i = n) : ∃ x, P x ∧ Q x :=
  ⟨val s i, hp.holds h, hq.holds h⟩

end Seqlock
