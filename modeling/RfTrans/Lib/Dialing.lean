import RfTrans.Lib.Exec
import Mathlib.Data.List.Nodup

/-!
# A record of whom one has called

Whoever is not on record is called when wanted, and put on record when the call is taken.
An entry may also be struck from the record, which ends no call.  The record and the calls
stay in step as long as no entry is struck and nobody is called again in vain.

## Main definitions

* `Dialing.Line` — the record, and all calls.
* `Dialing.InStep` — the record is what was taken, and nobody was called twice.
* `Dialing.inStep_iff_guarded` — when they are in step at the end of a run.
-/

namespace Dialing

open Exec

universe u
variable {α : Type u}

/-- What is done about an address: it is wanted, which calls it if need be, and the call is
taken or not; or it is struck from the record. -/
inductive Op (α : Type u)
  | dial (a : α) (taken : Bool)
  | strike (a : α)
  deriving DecidableEq

/-- The record and the calls so far, in order. -/
structure Line (α : Type u) where
  record : List α := []
  calls : List (α × Bool) := []

/-- The record is what was taken, and nobody was called twice. -/
structure InStep (l : Line α) : Prop where
  record : ∀ a, a ∈ l.record ↔ (a, true) ∈ l.calls
  once : (l.calls.map Prod.fst).Nodup

/-- Who is on record took a call. -/
def Taken (l : Line α) : Prop := ∀ a ∈ l.record, (a, true) ∈ l.calls

variable {l : Line α} {op : Op α} {ops : List (Op α)}

theorem inStep_empty : InStep ({} : Line α) where
  record := by simp
  once := List.nodup_nil

theorem InStep.taken (h : InStep l) : Taken l := fun a => (h.record a).mp

/-- A call was taken or not. -/
theorem not_mem_calls (h : InStep l) {a : α} (ha : a ∉ l.record) (hno : (a, false) ∉ l.calls) :
    a ∉ l.calls.map Prod.fst := by
  intro hmem
  obtain ⟨⟨b, taken⟩, hb, rfl⟩ := List.mem_map.mp hmem
  cases taken with
  | false => exact hno hb
  | true => exact ha ((h.record _).mpr hb)

variable [DecidableEq α]

/-- One operation. -/
def step (l : Line α) : Op α → Line α
  | .dial a taken =>
    if a ∈ l.record then l
    else
      { record := if taken then l.record ++ [a] else l.record
        calls := l.calls ++ [(a, taken)] }
  | .strike a => { l with record := l.record.filter (· ≠ a) }

/-- The operations in order. -/
def run (l : Line α) (ops : List (Op α)) : Line α := ops.foldl step l

/-- The step as one that is always enabled. -/
def next (l : Line α) (op : Op α) : Option (Line α) := some (step l op)

/-- The operation strikes nobody, and calls nobody who did not take a call before. -/
def Keeps (l : Line α) : Op α → Prop
  | .dial a _ => a ∈ l.record ∨ (a, false) ∉ l.calls
  | .strike a => a ∉ l.record

instance (l : Line α) (op : Op α) : Decidable (Keeps l op) := by
  cases op with
  | dial a taken => exact inferInstanceAs (Decidable (_ ∨ _))
  | strike a => exact inferInstanceAs (Decidable (¬ _))

@[simp] theorem run_nil : run l [] = l := rfl

@[simp] theorem run_cons : run l (op :: ops) = run (step l op) ops := rfl

theorem run_append (ops' : List (Op α)) : run l (ops ++ ops') = run (run l ops) ops' :=
  List.foldl_append

theorem Taken.step (h : Taken l) : Taken (step l op) := by
  cases op with
  | strike a => exact fun b hb => h b (List.mem_filter.mp hb).1
  | dial a taken =>
      simp only [Dialing.step]
      split
      case isTrue => exact h
      case isFalse =>
        intro b hb
        dsimp only at hb ⊢
        rw [List.mem_append, List.mem_singleton]
        split at hb
        case isFalse => exact .inl (h b hb)
        case isTrue ht =>
          rcases List.mem_append.mp hb with hold | hnew
          · exact .inl (h b hold)
          · rw [List.mem_singleton.mp hnew, ht]
            exact .inr rfl

theorem Taken.run (h : Taken l) : Taken (run l ops) := by
  induction ops generalizing l with
  | nil => exact h
  | cons op ops ih => exact ih h.step

/-- The calls only become more. -/
theorem calls_prefix_step : l.calls <+: (step l op).calls := by
  cases op with
  | strike a => exact List.prefix_refl _
  | dial a taken =>
      simp only [step]
      split
      case isTrue => exact List.prefix_refl _
      case isFalse => exact List.prefix_append ..

/-- **One operation** keeps them in step exactly when it strikes nobody and calls nobody
again. -/
theorem inStep_step_iff (h : InStep l) : InStep (step l op) ↔ Keeps l op := by
  cases op with
  | strike a =>
      constructor
      · intro hs ha
        have hback := (hs.record a).mpr ((h.record a).mp ha)
        simp [step] at hback
      · intro hk
        have hsame : step l (.strike a) = l := by
          have hfilter : l.record.filter (· ≠ a) = l.record := by
            rw [List.filter_eq_self]
            intro b hb
            exact decide_eq_true fun hba => hk (hba ▸ hb)
          simp only [step, hfilter]
        rw [hsame]
        exact h
  | dial a taken =>
      by_cases ha : a ∈ l.record
      · have hsame : step l (.dial a taken) = l := by simp only [step, if_pos ha]
        rw [hsame]
        exact iff_of_true h (.inl ha)
      · simp only [Keeps, ha, false_or]
        constructor
        · intro hs hno
          have honce := hs.once
          simp only [step, if_neg ha, List.map_append, List.map_cons, List.map_nil] at honce
          exact (List.nodup_append.mp honce).2.2 a (List.mem_map_of_mem hno) a (by simp) rfl
        · intro hno
          have hnew := not_mem_calls h ha hno
          constructor
          · intro b
            simp only [step, if_neg ha, List.mem_append, List.mem_singleton, Prod.mk.injEq]
            cases taken with
            | false => simp [h.record b]
            | true => simp [h.record b]
          · simp only [step, if_neg ha, List.map_append, List.map_cons, List.map_nil]
            refine List.nodup_append.mpr ⟨h.once, List.nodup_singleton a, ?_⟩
            intro b hb c hc hbc
            rw [hbc, List.mem_singleton.mp hc] at hb
            exact hnew hb

/-- Out of step once is out of step forever. -/
theorem inStep_of_step (ht : Taken l) (h : InStep (step l op)) : InStep l := by
  have hmore : l.calls <+: (step l op).calls := calls_prefix_step
  refine ⟨fun a => ⟨ht a, ?_⟩, h.once.sublist (hmore.sublist.map _)⟩
  intro hcall
  have hrecord := (h.record a).mpr (hmore.subset hcall)
  cases op with
  | strike b => exact (List.mem_filter.mp hrecord).1
  | dial b taken =>
      by_cases hb : b ∈ l.record
      · simpa only [step, if_pos hb] using hrecord
      · simp only [step, if_neg hb] at hrecord
        split at hrecord
        case isFalse => exact hrecord
        case isTrue =>
          rcases List.mem_append.mp hrecord with hold | hnew
          · exact hold
          · -- it would have been called twice
            have honce := h.once
            simp only [step, if_neg hb, List.map_append, List.map_cons, List.map_nil] at honce
            have hmem : b ∈ l.calls.map Prod.fst :=
              List.mem_map.mpr ⟨_, hcall, List.mem_singleton.mp hnew⟩
            exact absurd rfl ((List.nodup_append.mp honce).2.2 b hmem b (by simp))

theorem inStep_of_run (ht : Taken l) (h : InStep (run l ops)) : InStep l := by
  induction ops generalizing l with
  | nil => exact h
  | cons op ops ih => exact inStep_of_step ht (ih ht.step h)

/-- **A run of operations.** -/
theorem inStep_iff_guarded (h : InStep l) :
    InStep (run l ops) ↔ Guarded next Keeps l ops := by
  induction ops generalizing l with
  | nil => exact iff_of_true h trivial
  | cons op ops ih =>
      rw [run_cons, guarded_cons, ← inStep_step_iff h]
      constructor
      · intro hrun
        have hone := inStep_of_run h.taken.step hrun
        refine ⟨hone, ?_⟩
        intro t ht
        obtain rfl := Option.some.inj ht
        exact (ih hone).mp hrun
      · intro hall
        exact (ih hall.1).mpr (hall.2 _ rfl)

end Dialing
