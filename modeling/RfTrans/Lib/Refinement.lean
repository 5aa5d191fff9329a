import Mathlib.Data.List.Basic

/-!
# Refinement of machines that answer

A machine takes operations one by one and answers each with an output.  One machine
refines another if related states stay related and give the same answers.

## Main definitions

* `run step s as` — the last state, and the answers in order.
* `Simulates` — every step keeps the states related and answers alike.
* `Keyed key` — a finite collection with at most one entry for each key, in the order in
  which the entries were added.
-/

namespace Refinement

universe u
variable {σ τ α β : Type u}

/-- Perform the operations in order and collect the answers. -/
def run (step : σ → α → σ × β) : σ → List α → σ × List β
  | s, [] => (s, [])
  | s, a :: as => ((run step (step s a).1 as).1, (step s a).2 :: (run step (step s a).1 as).2)

/-- Related states answer alike and stay related. -/
structure Simulates (R : σ → τ → Prop) (step : σ → α → σ × β) (step' : τ → α → τ × β) : Prop where
  answer : ∀ s t a, R s t → (step s a).2 = (step' t a).2
  state : ∀ s t a, R s t → R (step s a).1 (step' t a).1

/-- **The run rule.** -/
theorem Simulates.run {R : σ → τ → Prop} {step : σ → α → σ × β} {step' : τ → α → τ × β}
    (h : Simulates R step step') {s : σ} {t : τ} (hst : R s t) (as : List α) :
    R (run step s as).1 (run step' t as).1 ∧ (run step s as).2 = (run step' t as).2 := by
  induction as generalizing s t with
  | nil => exact ⟨hst, rfl⟩
  | cons a as ih =>
      obtain ⟨hstate, hanswers⟩ := ih (h.state s t a hst)
      refine ⟨hstate, ?_⟩
      simp only [Refinement.run, h.answer s t a hst, hanswers]

/-! ## Collections with keys -/

variable {κ : Type u}

/-- Entries with different keys, in the order in which they were added. -/
structure Keyed (key : α → κ) where
  entries : List α
  distinct : entries.Pairwise fun x y => key x ≠ key y

namespace Keyed

variable {key : α → κ}

def empty : Keyed key := ⟨[], .nil⟩

/-- An entry whose key is there already is not added. -/
def add [DecidableEq κ] (c : Keyed key) (x : α) : Keyed key × Bool :=
  if h : ∃ y ∈ c.entries, key y = key x then (c, false)
  else
    (⟨c.entries ++ [x], List.pairwise_append.mpr ⟨c.distinct, List.pairwise_singleton _ _,
      fun y hy _ hz => List.mem_singleton.mp hz ▸ fun hyx => h ⟨y, hy, hyx⟩⟩⟩, true)

/-- The entries that match go; the answer says whether there were any. -/
def remove (c : Keyed key) (gone : α → Bool) : Keyed key × Bool :=
  (⟨c.entries.filter fun x => !gone x, c.distinct.filter _⟩, c.entries.any gone)

theorem entries_add [DecidableEq κ] (c : Keyed key) (x : α) :
    (c.add x).1.entries = if (c.add x).2 then c.entries ++ [x] else c.entries := by
  simp only [add]
  split <;> rfl

theorem add_snd [DecidableEq κ] (c : Keyed key) (x : α) :
    (c.add x).2 = true ↔ ∀ y ∈ c.entries, key y ≠ key x := by
  simp only [add]
  split
  case isTrue h => simpa using h
  case isFalse h => simpa using h

theorem remove_snd (c : Keyed key) (gone : α → Bool) :
    (c.remove gone).2 = true ↔ ∃ x ∈ c.entries, gone x = true := by
  simp [remove]

theorem mem_remove (c : Keyed key) (gone : α → Bool) (x : α) :
    x ∈ (c.remove gone).1.entries ↔ x ∈ c.entries ∧ gone x = false := by
  simp [remove]

theorem mem_add [DecidableEq κ] (c : Keyed key) (x y : α) :
    y ∈ (c.add x).1.entries ↔ y ∈ c.entries ∨ y = x ∧ ∀ z ∈ c.entries, key z ≠ key x := by
  rw [entries_add, ← add_snd]
  cases (c.add x).2 with
  | false => simp
  | true => simp

end Keyed

/-! ## Searches -/

/-- In a list in strict order the first match is the least one. -/
theorem find?_eq_some_iff_least {R : α → α → Prop} (hasymm : ∀ x y, R x y → ¬ R y x)
    {l : List α} (hl : l.Pairwise R) {p : α → Bool} {x : α} :
    l.find? p = some x ↔ x ∈ l ∧ p x = true ∧ ∀ y ∈ l, p y = true → y = x ∨ R x y := by
  induction hl with
  | nil => simp
  | @cons a l ha _ ih =>
      cases hp : p a with
      | true =>
          rw [List.find?_cons_of_pos hp]
          constructor
          · intro h
            obtain rfl := Option.some.inj h
            refine ⟨List.mem_cons_self, hp, fun y hy _ => ?_⟩
            rcases List.mem_cons.mp hy with rfl | hy
            · exact .inl rfl
            · exact .inr (ha y hy)
          · rintro ⟨hx, -, hleast⟩
            rcases List.mem_cons.mp hx with rfl | hx
            · rfl
            rcases hleast a List.mem_cons_self hp with rfl | hxa
            · rfl
            · exact absurd hxa (hasymm a x (ha x hx))
      | false =>
          have hne : ∀ y, p y = true → y ≠ a := by
            rintro y hy rfl
            rw [hp] at hy
            cases hy
          rw [List.find?_cons_of_neg (by simp [hp]), ih]
          constructor
          · rintro ⟨hx, hpx, hleast⟩
            refine ⟨List.mem_cons_of_mem a hx, hpx, fun y hy hpy => ?_⟩
            exact hleast y (List.mem_of_ne_of_mem (hne y hpy) hy) hpy
          · rintro ⟨hx, hpx, hleast⟩
            refine ⟨List.mem_of_ne_of_mem (hne x hpx) hx, hpx, fun y hy hpy => ?_⟩
            exact hleast y (List.mem_cons_of_mem a hy) hpy

end Refinement
