import RfTrans.Lib.Exec

/-!
# A thread that waits for messages

Others append to a queue under a mutex and notify.  The thread waits for a message, with a
timeout, on a condition variable, takes all that is there and works on it.  A flag ends it; the
flag is set, and the thread notified, without the mutex.

## Main definitions

* `Mailbox.Kind` — what differs between such threads.
* `Mailbox.next` — the steps of the thread and of the others.
* `Mailbox.Idle` — the invariant: the thread does not sleep on a message.
* `Mailbox.toTake`, `Mailbox.toDone` — how far the thread is from what it is to do next.
-/

universe u v

namespace Mailbox

/-- What differs between such threads: how a message joins the queue, in which order a batch is
worked on, and whether an empty batch is passed over. -/
structure Kind (α : Type u) where
  add : List α → α → List α
  order : List α → List α
  passesEmpty : Bool
  add_ne_nil : ∀ q m, add q m ≠ []

/-- Where the thread stands. -/
inductive Stage (α : Type u)
  /-- Before the test of the flag. -/
  | top
  /-- It waits for the mutex. -/
  | entering
  /-- It has the mutex and looks whether there is something to do. -/
  | testing (timedOut : Bool)
  /-- It has the mutex and has found nothing to do. -/
  | dozing
  | asleep
  /-- It waits for the mutex again. -/
  | awoken (timedOut : Bool)
  /-- It has the mutex and has stopped waiting. -/
  | leaving
  | working (batch : List α)
  | done

end Mailbox

/-- A thread with its queue, and what it has worked on in which surroundings. -/
structure Mailbox (α : Type u) (ω : Type v) where
  queue : List α := []
  exit : Bool := false
  stage : Mailbox.Stage α := .top
  handled : List (α × ω) := []

namespace Mailbox

open Exec

variable {α : Type u} {ω : Type v}

/-- The steps: of the others, of the clock, and of the thread. -/
inductive Action (α : Type u) (ω : Type v)
  | push (m : α)
  | setExit
  | notifyAll
  | timeout
  | spurious
  | advance (w : ω)

/-- Whoever sleeps is woken. -/
def Stage.notify : Stage α → Stage α
  | .asleep => .awoken false
  | stage => stage

/-- The thread has the mutex. -/
def Stage.locks : Stage α → Bool
  | .testing _ | .dozing | .leaving => true
  | _ => false

/-- What is left of the batch. -/
def Stage.batch : Stage α → List α
  | .working batch => batch
  | _ => []

/-- The next step of the thread. -/
def advance (k : Kind α) (s : Mailbox α ω) (w : ω) : Option (Mailbox α ω) :=
  match s.stage with
  | .top => some { s with stage := if s.exit then .done else .entering }
  | .entering => some { s with stage := .testing false }
  | .testing timedOut =>
    some { s with stage := if s.queue ≠ [] ∨ s.exit ∨ timedOut then .leaving else .dozing }
  | .dozing => some { s with stage := .asleep }
  | .asleep => none
  | .awoken timedOut => some { s with stage := .testing timedOut }
  | .leaving =>
    if s.exit then some { s with stage := .done }
    else if s.queue = [] ∧ k.passesEmpty then some { s with stage := .top }
    else some { s with queue := [], stage := .working (k.order s.queue) }
  | .working [] => some { s with stage := .top }
  | .working (m :: rest) =>
    some { s with stage := .working rest, handled := s.handled ++ [(m, w)] }
  | .done => none

/-- One step.  Appending and notifying happen under the mutex. -/
def next (k : Kind α) (s : Mailbox α ω) : Action α ω → Option (Mailbox α ω)
  | .push m =>
    if s.stage.locks then none
    else some { s with queue := k.add s.queue m, stage := s.stage.notify }
  | .setExit => some { s with exit := true }
  | .notifyAll => some { s with stage := s.stage.notify }
  | .timeout =>
    match s.stage with
    | .asleep | .awoken _ => some { s with stage := .awoken true }
    | _ => none
  | .spurious =>
    match s.stage with
    | .asleep => some { s with stage := .awoken false }
    | _ => none
  | .advance w => advance k s w

/-- A step of the thread. -/
def Action.isAdvance : Action α ω → Bool
  | .advance _ => true
  | _ => false

/-- The step takes the queue. -/
def Takes (s : Mailbox α ω) (a : Action α ω) : Prop := a.isAdvance = true ∧ s.stage = .leaving

/-- How many steps the thread is from taking what is in the queue. -/
def Stage.toTake : Stage α → ℕ
  | .leaving => 1
  | .testing _ => 2
  | .entering | .awoken _ => 3
  | .top => 4
  | .working batch => batch.length + 5
  | .dozing | .asleep | .done => 0

/-- How many steps the thread is from its end, once it is to end. -/
def Stage.toDone : Stage α → ℕ
  | .done => 0
  | .top | .leaving => 1
  | .testing _ => 2
  | .entering | .awoken _ => 3
  | .asleep => 4
  | .dozing => 5
  | .working batch => batch.length + 2

variable {k : Kind α} {s t : Mailbox α ω} {a : Action α ω} {w : ω}

theorem Stage.batch_notify (stage : Stage α) : stage.notify.batch = stage.batch := by
  cases stage <;> rfl

/-! ## Waiting -/

/-- Who waits has nothing to do, and who has ended was told to. -/
structure Idle (s : Mailbox α ω) : Prop where
  dozing : s.stage = .dozing → s.queue = []
  asleep : s.stage = .asleep → s.queue = []
  ended : s.stage = .done → s.exit = true

theorem idle_start : Idle ({} : Mailbox α ω) where
  dozing _ := rfl
  asleep _ := rfl
  ended h := by cases h

theorem Idle.advance (hs : s.Idle) (h : advance k s w = some t) : t.Idle := by
  simp only [Mailbox.advance] at h
  split at h
  case h_1 =>
    obtain rfl := Option.some.inj h
    cases s.exit <;> constructor <;> simp
  case h_3 hstage =>
    obtain rfl := Option.some.inj h
    by_cases hwake : s.queue ≠ [] ∨ s.exit = true ∨ ‹Bool› = true
    · constructor <;> simp [if_pos hwake]
    · push Not at hwake
      constructor <;> simp [hwake.1, hwake.2]
  case h_4 hstage =>
    obtain rfl := Option.some.inj h
    constructor <;> simp [hs.dozing hstage]
  case h_7 =>
    split at h
    case isTrue hexit =>
      obtain rfl := Option.some.inj h
      constructor <;> simp [hexit]
    case isFalse =>
      split at h <;> obtain rfl := Option.some.inj h <;> constructor <;> simp
  case h_5 | h_10 => cases h
  all_goals
    obtain rfl := Option.some.inj h
    constructor <;> simp

/-- **No wake-up is lost** on a message. -/
theorem Idle.next (hs : s.Idle) (h : next k s a = some t) : t.Idle := by
  cases a with
  | push m =>
      obtain ⟨hfree, hsame⟩ := Option.ite_none_left_eq_some.mp h
      obtain rfl := Option.some.inj hsame
      cases hstage : s.stage <;> simp [hstage, Stage.locks] at hfree <;>
        constructor <;> simp [Stage.notify, hs.ended, hstage]
  | setExit =>
      obtain rfl := Option.some.inj h
      exact ⟨hs.dozing, hs.asleep, fun _ => rfl⟩
  | notifyAll =>
      obtain rfl := Option.some.inj h
      cases hstage : s.stage <;> constructor <;>
        simp [Stage.notify, hs.dozing, hs.ended, hstage]
  | timeout =>
      simp only [Mailbox.next] at h
      split at h
      case h_3 => cases h
      all_goals
        obtain rfl := Option.some.inj h
        constructor <;> simp
  | spurious =>
      simp only [Mailbox.next] at h
      split at h
      case h_1 =>
        obtain rfl := Option.some.inj h
        constructor <;> simp
      case h_2 => cases h
  | advance w => exact hs.advance h

theorem idle_exec {as : List (Action α ω)} (h : exec (next k) {} as = some s) : s.Idle :=
  stable (P := Idle) (fun _ _ _ hs hnext => hs.next hnext) idle_start h

/-! ## Taking the queue -/

/-- Who has something to do can go on. -/
theorem exists_advance (hs : s.Idle) (hqueue : s.queue ≠ []) (hexit : s.exit = false) (w : ω) :
    ∃ t, next k s (.advance w) = some t := by
  simp only [next, advance]
  split
  case h_5 hstage => exact absurd (hs.asleep hstage) hqueue
  case h_7 =>
    split
    case isTrue => exact ⟨_, rfl⟩
    case isFalse => split <;> exact ⟨_, rfl⟩
  case h_10 hstage =>
    rw [hs.ended hstage] at hexit
    cases hexit
  all_goals exact ⟨_, rfl⟩

/-- With something to do each step of the thread brings it closer to taking the queue. -/
theorem toTake_advance (hs : s.Idle) (hqueue : s.queue ≠ []) (hexit : s.exit = false)
    (hkeeps : s.stage ≠ .leaving) (h : advance k s w = some t) :
    t.queue = s.queue ∧ t.exit = s.exit ∧ t.stage.toTake + 1 = s.stage.toTake := by
  simp only [advance] at h
  split at h
  case h_4 hstage => exact absurd (hs.dozing hstage) hqueue
  case h_5 | h_10 => cases h
  case h_7 hstage => exact absurd hstage hkeeps
  all_goals
    rename_i hstage
    obtain rfl := Option.some.inj h
    refine ⟨rfl, rfl, ?_⟩
    simp [hstage, hexit, hqueue, Stage.toTake]

/-- What the others do does not set it back. -/
theorem toTake_next (hs : s.Idle) (hqueue : s.queue ≠ []) (hexit : s.exit = false)
    (hkeeps : ¬ s.Takes a) (ha : a ≠ .setExit) (h : next k s a = some t) :
    t.queue ≠ [] ∧ t.exit = false ∧
      t.stage.toTake + (if a.isAdvance then 1 else 0) = s.stage.toTake := by
  have hawake : s.stage ≠ .asleep := fun hstage => hqueue (hs.asleep hstage)
  cases a with
  | push m =>
      obtain ⟨-, hsame⟩ := Option.ite_none_left_eq_some.mp h
      obtain rfl := Option.some.inj hsame
      refine ⟨k.add_ne_nil _ _, hexit, ?_⟩
      cases hstage : s.stage <;> simp [Stage.notify, Action.isAdvance, hstage] at hawake ⊢
  | setExit => exact absurd rfl ha
  | notifyAll =>
      obtain rfl := Option.some.inj h
      refine ⟨hqueue, hexit, ?_⟩
      cases hstage : s.stage <;> simp [Stage.notify, Action.isAdvance, hstage] at hawake ⊢
  | timeout =>
      simp only [Mailbox.next] at h
      split at h
      case h_1 hstage => exact absurd hstage hawake
      case h_2 hstage =>
        obtain rfl := Option.some.inj h
        exact ⟨hqueue, hexit, by simp [hstage, Action.isAdvance, Stage.toTake]⟩
      case h_3 => cases h
  | spurious =>
      simp only [Mailbox.next] at h
      cases h
  | advance w =>
      have hstay : s.stage ≠ .leaving := fun hstage => hkeeps ⟨rfl, hstage⟩
      obtain ⟨hq, he, hrank⟩ := toTake_advance hs hqueue hexit hstay h
      exact ⟨hq ▸ hqueue, he.trans hexit, by simpa [Action.isAdvance] using hrank⟩

/-- **The queue is taken soon**: without having taken it the thread has only so many steps. -/
theorem toTake_exec {as : List (Action α ω)} (hs : s.Idle) (hqueue : s.queue ≠ [])
    (hexit : s.exit = false) (hkeeps : Guarded (next k) (fun s a => ¬ s.Takes a) s as)
    (hnotold : .setExit ∉ as) (h : exec (next k) s as = some t) :
    t.queue ≠ [] ∧ t.exit = false ∧
      t.stage.toTake + as.countP Action.isAdvance = s.stage.toTake := by
  induction as generalizing s with
  | nil =>
      obtain rfl := Option.some.inj h
      exact ⟨hqueue, hexit, by simp⟩
  | cons a as ih =>
      obtain ⟨u, hu, hrest⟩ := Option.bind_eq_some_iff.mp h
      have ha : a ≠ .setExit := fun heq => hnotold (heq ▸ List.mem_cons_self)
      obtain ⟨hq, he, hrank⟩ := toTake_next hs hqueue hexit hkeeps.1 ha hu
      obtain ⟨hq', he', hrank'⟩ := ih (hs.next hu) hq he (hkeeps.2 u hu)
        (fun hmem => hnotold (List.mem_cons_of_mem a hmem)) hrest
      refine ⟨hq', he', ?_⟩
      rw [List.countP_cons]
      omega

theorem Stage.toTake_le (stage : Stage α) : stage.toTake ≤ stage.batch.length + 5 := by
  cases stage <;> simp [Stage.toTake, Stage.batch]

theorem Idle.one_le_toTake (hs : s.Idle) (hqueue : s.queue ≠ []) (hexit : s.exit = false) :
    1 ≤ s.stage.toTake := by
  cases hstage : s.stage <;> simp [Stage.toTake]
  case dozing => exact hqueue (hs.dozing hstage)
  case asleep => exact hqueue (hs.asleep hstage)
  case done =>
    rw [hs.ended hstage] at hexit
    cases hexit

/-! ## The end -/

theorem Stage.toDone_le (stage : Stage α) : stage.toDone ≤ stage.batch.length + 5 := by
  cases stage <;> simp [Stage.toDone, Stage.batch]

/-- Who is to end can go on, if only when the time is over. -/
theorem exists_step (hstage : s.stage ≠ .done) (w : ω) :
    (∃ t, next k s (.advance w) = some t) ∨ ∃ t, next k s .timeout = some t := by
  cases h : s.stage with
  | asleep =>
      right
      simp only [next, h]
      exact ⟨_, rfl⟩
  | done => exact absurd h hstage
  | leaving =>
      left
      simp only [next, advance, h]
      split
      case isTrue => exact ⟨_, rfl⟩
      case isFalse => split <;> exact ⟨_, rfl⟩
  | working batch =>
      left
      cases batch <;> simp only [next, advance, h] <;> exact ⟨_, rfl⟩
  | _ =>
      left
      simp only [next, advance, h]
      exact ⟨_, rfl⟩

/-- Once it is to end, each step of the thread brings it closer to its end; it works on what
is left of its batch and on nothing else. -/
theorem toDone_next (hexit : s.exit = true) (h : next k s a = some t) :
    t.exit = true ∧ t.stage.toDone + (if a.isAdvance then 1 else 0) ≤ s.stage.toDone ∧
      ∃ new, t.handled = s.handled ++ new ∧ new.map Prod.fst ++ t.stage.batch = s.stage.batch := by
  cases a with
  | push m =>
      obtain ⟨-, hsame⟩ := Option.ite_none_left_eq_some.mp h
      obtain rfl := Option.some.inj hsame
      refine ⟨hexit, ?_, [], by simp, s.stage.batch_notify⟩
      cases hstage : s.stage <;> simp [Stage.notify, Stage.toDone, Action.isAdvance]
  | setExit =>
      obtain rfl := Option.some.inj h
      exact ⟨rfl, by simp [Action.isAdvance], [], by simp, rfl⟩
  | notifyAll =>
      obtain rfl := Option.some.inj h
      refine ⟨hexit, ?_, [], by simp, s.stage.batch_notify⟩
      cases hstage : s.stage <;> simp [Stage.notify, Stage.toDone, Action.isAdvance]
  | timeout =>
      simp only [next] at h
      split at h
      case h_3 => cases h
      all_goals
        rename_i hstage
        obtain rfl := Option.some.inj h
        exact ⟨hexit, by simp [hstage, Stage.toDone, Action.isAdvance], [], by simp,
          by simp [hstage, Stage.batch]⟩
  | spurious =>
      simp only [next] at h
      split at h
      case h_1 hstage =>
        obtain rfl := Option.some.inj h
        exact ⟨hexit, by simp [hstage, Stage.toDone, Action.isAdvance], [], by simp,
          by simp [hstage, Stage.batch]⟩
      case h_2 => cases h
  | advance w =>
      simp only [next, advance] at h
      split at h
      case h_5 | h_10 => cases h
      case h_7 hstage =>
        rw [if_pos hexit] at h
        obtain rfl := Option.some.inj h
        exact ⟨hexit, by simp [hstage, Stage.toDone, Action.isAdvance], [], by simp,
          by simp [hstage, Stage.batch]⟩
      case h_9 m rest hstage =>
        obtain rfl := Option.some.inj h
        exact ⟨hexit, by simp [hstage, Stage.toDone, Action.isAdvance], [(m, w)], rfl,
          by simp [hstage, Stage.batch]⟩
      all_goals
        rename_i hstage
        obtain rfl := Option.some.inj h
        exact ⟨hexit, by simp [hstage, hexit, Stage.toDone, Action.isAdvance], [], by simp,
          by simp [hstage, hexit, Stage.batch]⟩

/-- **The thread ends**, after what is left of its batch. -/
theorem toDone_exec {as : List (Action α ω)} (hexit : s.exit = true)
    (h : exec (next k) s as = some t) :
    t.stage.toDone + as.countP Action.isAdvance ≤ s.stage.toDone ∧
      ∃ new, t.handled = s.handled ++ new ∧ new.map Prod.fst ++ t.stage.batch = s.stage.batch := by
  induction as generalizing s with
  | nil =>
      obtain rfl := Option.some.inj h
      exact ⟨by simp, [], by simp, rfl⟩
  | cons a as ih =>
      obtain ⟨u, hu, hrest⟩ := Option.bind_eq_some_iff.mp h
      obtain ⟨he, hrank, new, hnew, hbatch⟩ := toDone_next hexit hu
      obtain ⟨hrank', new', hnew', hbatch'⟩ := ih he hrest
      refine ⟨?_, new ++ new', ?_, ?_⟩
      · rw [List.countP_cons]
        omega
      · rw [hnew', hnew, List.append_assoc]
      · rw [List.map_append, List.append_assoc, hbatch', hbatch]

end Mailbox
