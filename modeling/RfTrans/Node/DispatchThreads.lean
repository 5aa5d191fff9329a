import RfTrans.Lib.Mailbox
import RfTrans.Runtime.LocalDelivery
import RfTrans.Runtime.RemoteQueue
import RfTrans.Service.ServiceRuntime

/-!
# The threads that call handlers

`localDispatchLoop`, `remoteDispatchLoop` and `serviceHandleLoop` wait for messages in the same
way: they sleep for half a second at most on a condition variable that is notified whenever a
message joins the queue, and by `stop`.  A message is appended and notified of under the mutex;
`stop` sets its flag without it.

## Main definitions

* `localDispatchLoop`, `remoteDispatchLoop`, `serviceHandleLoop` — what each of them does.
* `DispatchThread.takes_soon`, `DispatchThread.ends_soon`
* `remoteDispatchLoop_refines` — the queue without the waiting.
-/

namespace RfTrans

open Exec Mailbox

/-- `localDispatchLoop`, and the end of `publish`. -/
def localDispatchLoop (μ : Type) : Kind (PublishMsgDetails μ) where
  add queue details := queue ++ [details]
  order queue := queue
  passesEmpty := true
  add_ne_nil := by simp

/-- `remoteDispatchLoop`, and the end of `receiveMessage`. -/
def remoteDispatchLoop : Kind RemoteMsg where
  add := Framing.enqueue (some kMsgQueueLimit)
  order queue := queue
  passesEmpty := false
  add_ne_nil queue message := by
    simp only [Framing.enqueue]
    split
    case isTrue hlong =>
      intro hnil
      have hlength := congrArg List.length hnil
      simp only [Option.any_some, decide_eq_true_eq, List.length_append, List.length_singleton,
        kMsgQueueLimit] at hlong
      simp only [List.length_tail, List.length_append, List.length_singleton, List.length_nil]
        at hlength
      omega
    case isFalse => simp

/-- `serviceHandleLoop`, and the ends of `receiveRequest` and `receiveResponse`.  It has a queue of
requests and one of responses, and does the requests first. -/
def serviceHandleLoop : Kind (RemoteRequest ⊕ RemoteResponse) where
  add queue message := queue ++ [message]
  order queue := queue.filter Sum.isLeft ++ queue.filter Sum.isRight
  passesEmpty := false
  add_ne_nil := by simp

/-- The threads. -/
inductive DispatchThread
  | localDispatch
  | remoteDispatch
  | serviceHandle

namespace DispatchThread

/-- What a thread waits for. -/
def Message (μ : Type) : DispatchThread → Type
  | localDispatch => PublishMsgDetails μ
  | remoteDispatch => RemoteMsg
  | serviceHandle => RemoteRequest ⊕ RemoteResponse

def loop (μ : Type) : ∀ thread : DispatchThread, Kind (thread.Message μ)
  | localDispatch => localDispatchLoop μ
  | remoteDispatch => remoteDispatchLoop
  | serviceHandle => serviceHandleLoop

variable {μ ω : Type}

/-- **No message waits for the clock.**  While a thread sleeps its queue is empty.  As long as
there is something in the queue and the thread is not to end, it can go on by itself, and before
it has taken the queue it makes at most four steps more than there are messages in its batch. -/
theorem takes_soon (thread : DispatchThread) (run : List (Action (thread.Message μ) ω))
    (s : Mailbox (thread.Message μ) ω) (h : exec (next (thread.loop μ)) {} run = some s) :
    (s.stage = .asleep → s.queue = []) ∧
    (s.queue ≠ [] → s.exit = false →
      (∀ w, ∃ t, next (thread.loop μ) s (.advance w) = some t) ∧
      ∀ rest t, exec (next (thread.loop μ)) s rest = some t → .setExit ∉ rest →
        Guarded (next (thread.loop μ)) (fun s a => ¬ s.Takes a) s rest →
          rest.countP Action.isAdvance ≤ s.stage.batch.length + 4) := by
  have hs : s.Idle := idle_exec h
  refine ⟨hs.asleep, fun hqueue hexit => ⟨exists_advance hs hqueue hexit, ?_⟩⟩
  intro rest t ht hgoes hkeeps
  obtain ⟨hqueue', hexit', hcount⟩ := toTake_exec hs hqueue hexit hkeeps hgoes ht
  have hleft := (idle_exec (exec_trans h ht)).one_le_toTake hqueue' hexit'
  have hfar := s.stage.toTake_le
  omega

/-- **A thread that is to end does so** by itself, if need be when its half second is over: it
makes at most five steps more than there are messages in its batch, calls the handlers of what
is left of the batch in their order, and of nothing else. -/
theorem ends_soon (thread : DispatchThread) (s : Mailbox (thread.Message μ) ω)
    (hexit : s.exit = true) :
    (s.stage ≠ .done → ∀ w, (∃ t, next (thread.loop μ) s (.advance w) = some t) ∨
      ∃ t, next (thread.loop μ) s .timeout = some t) ∧
    ∀ rest t, exec (next (thread.loop μ)) s rest = some t →
      rest.countP Action.isAdvance ≤ s.stage.batch.length + 5 ∧
      ∃ new, t.handled = s.handled ++ new ∧ new.map Prod.fst ++ t.stage.batch = s.stage.batch := by
  refine ⟨exists_step, ?_⟩
  intro rest t ht
  obtain ⟨hcount, hnew⟩ := toDone_exec hexit ht
  have hfar := s.stage.toDone_le
  exact ⟨by omega, hnew⟩

/-- A message arrives while the remote thread is on its way to bed. -/
def lateMessage : List (Action RemoteMsg Unit) :=
  [.advance (), .advance (), .advance (), .advance (),
    .push ⟨str "t", str "tcp://a", [], str "A", false⟩]

theorem takes_soon_late : ∃ s, exec (next remoteDispatchLoop) {} lateMessage = some s ∧
    s.queue.length = 1 ∧ ∃ t, next remoteDispatchLoop s (.advance ()) = some t := by
  refine ⟨_, rfl, rfl, ?_⟩
  exact ((@takes_soon Unit Unit .remoteDispatch lateMessage _ rfl).2
    (List.cons_ne_nil _ []) rfl).1 ()

/-- The thread has found nothing to do, `stop` sets the flag and notifies, and only then it is
asleep: it has missed the call. -/
def missedCall : List (Action RemoteMsg Unit) :=
  [.advance (), .advance (), .advance (), .setExit, .notifyAll, .advance ()]

theorem ends_soon_missed : ∃ s, exec (next remoteDispatchLoop) {} missedCall = some s ∧
    next remoteDispatchLoop s (.advance ()) = none ∧
    ∃ t, next remoteDispatchLoop s .timeout = some t := by
  refine ⟨_, rfl, rfl, ?_⟩
  refine ((@ends_soon Unit Unit .remoteDispatch _ rfl).1 ?_ ()).resolve_left ?_
  · intro hdone
    cases hdone
  · intro hgoes
    obtain ⟨t, ht⟩ := hgoes
    have hnone : none = some t := ht
    cases hnone

end DispatchThread

/-! ## The queue without the waiting -/

variable {T : Type} [ProtoTypes T]

/-- What the remote thread works with: the rings and the handlers that it finds. -/
abbrev Surroundings (T : Type) [ProtoTypes T] := ShmView × HandlerStorage (Option (TypedHandler T))

/-- The same messages are queued, are in the batch and have been dispatched. -/
structure ShowsQueue (s : Mailbox RemoteMsg (Surroundings T)) (r : RemoteQueue T) : Prop where
  queue : r.queue.map Prod.fst = s.queue
  batch : r.batch.map Prod.fst = s.stage.batch
  dispatched : (r.dispatched.map fun d => (d.message.1, d.calls)) =
    s.handled.map fun x => (x.1, remoteDispatch x.2.1 x.2.2 x.1)

variable {s t : Mailbox RemoteMsg (Surroundings T)} {r : RemoteQueue T}

theorem map_enqueue {α β : Type} (f : α → β) (limit : Option ℕ) (queue : List α) (x : α) :
    (Framing.enqueue limit queue x).map f = Framing.enqueue limit (queue.map f) (f x) := by
  have hmap : queue.map f ++ [f x] = (queue ++ [x]).map f := by simp
  simp only [Framing.enqueue, hmap, List.length_map]
  split
  case isTrue => exact List.map_tail
  case isFalse => rfl

/-- A step of the thread is a swap, a dispatch, or nothing that the queue notices. -/
theorem ShowsQueue.advance (h : ShowsQueue s r) {w : Surroundings T}
    (hstep : Mailbox.advance remoteDispatchLoop s w = some t) :
    ∃ as r', exec RemoteQueue.next r as = some r' ∧ ShowsQueue t r' := by
  obtain ⟨hqueue, hbatch, hdispatched⟩ := h
  simp only [Mailbox.advance] at hstep
  split at hstep
  case h_5 | h_10 => cases hstep
  case h_7 hstage =>
    split at hstep
    case isTrue =>
      obtain rfl := Option.some.inj hstep
      exact ⟨[], r, rfl, hqueue, by rw [hbatch, hstage]; rfl, hdispatched⟩
    case isFalse =>
      rw [if_neg (by simp [remoteDispatchLoop])] at hstep
      obtain rfl := Option.some.inj hstep
      have hempty : r.batch = [] := by simpa [hstage, Stage.batch] using hbatch
      refine ⟨[.swap], { r with queue := [], batch := r.queue }, ?_, rfl, hqueue, hdispatched⟩
      simp [RemoteQueue.next, hempty]
  case h_9 m rest hstage =>
    obtain rfl := Option.some.inj hstep
    rw [hstage] at hbatch
    obtain ⟨message, rest', hcons, rfl, hrest⟩ := List.map_eq_cons_iff.mp hbatch
    refine ⟨[.dispatch w.1 w.2], { r with
      batch := rest'
      dispatched := r.dispatched ++ [⟨message, remoteDispatch w.1 w.2 message.1⟩] }, ?_, hqueue,
      hrest, ?_⟩
    · simp [RemoteQueue.next, hcons]
    · simp [hdispatched]
  case h_1 hstage =>
    obtain rfl := Option.some.inj hstep
    refine ⟨[], r, rfl, hqueue, ?_, hdispatched⟩
    rw [hbatch, hstage]
    split <;> rfl
  case h_3 hstage =>
    obtain rfl := Option.some.inj hstep
    refine ⟨[], r, rfl, hqueue, ?_, hdispatched⟩
    rw [hbatch, hstage]
    split <;> rfl
  all_goals
    rename_i hstage
    obtain rfl := Option.some.inj hstep
    refine ⟨[], r, rfl, hqueue, ?_, hdispatched⟩
    rw [hbatch, hstage]
    rfl

theorem ShowsQueue.next (h : ShowsQueue s r) {a : Action RemoteMsg (Surroundings T)}
    (hstep : Mailbox.next remoteDispatchLoop s a = some t) :
    ∃ as r', exec RemoteQueue.next r as = some r' ∧ ShowsQueue t r' := by
  cases a with
  | push message =>
      obtain ⟨-, hsame⟩ := Option.ite_none_left_eq_some.mp hstep
      obtain rfl := Option.some.inj hsame
      refine ⟨[.receive message], _, rfl, ?_, ?_, h.dispatched⟩
      · rw [map_enqueue, h.queue]
        rfl
      · rw [Stage.batch_notify]
        exact h.batch
  | setExit =>
      obtain rfl := Option.some.inj hstep
      exact ⟨[], r, rfl, h.queue, h.batch, h.dispatched⟩
  | notifyAll =>
      obtain rfl := Option.some.inj hstep
      exact ⟨[], r, rfl, h.queue, h.batch.trans (Stage.batch_notify _).symm, h.dispatched⟩
  | timeout =>
      simp only [Mailbox.next] at hstep
      split at hstep
      case h_3 => cases hstep
      all_goals
        rename_i hstage
        obtain rfl := Option.some.inj hstep
        exact ⟨[], r, rfl, h.queue, by rw [h.batch, hstage]; rfl, h.dispatched⟩
  | spurious =>
      simp only [Mailbox.next] at hstep
      split at hstep
      case h_1 hstage =>
        obtain rfl := Option.some.inj hstep
        exact ⟨[], r, rfl, h.queue, by rw [h.batch, hstage]; rfl, h.dispatched⟩
      case h_2 => cases hstep
  | advance w => exact h.advance hstep

/-- **The queue of the remote thread** is the one whose swaps and dispatches come at any time. -/
theorem remoteDispatchLoop_refines {run : List (Action RemoteMsg (Surroundings T))}
    (h : exec (Mailbox.next remoteDispatchLoop) {} run = some s) :
    ∃ as r, exec RemoteQueue.next {} as = some r ∧ ShowsQueue s r := by
  refine stable
    (P := fun s => ∃ as r, exec RemoteQueue.next {} as = some r ∧ ShowsQueue s r) ?_ ?_ h
  · intro s a t hs hnext
    obtain ⟨as, r, has, hshows⟩ := hs
    obtain ⟨bs, r', hbs, hshows'⟩ := hshows.next hnext
    exact ⟨as ++ bs, r', exec_trans has hbs, hshows'⟩
  · exact ⟨[], {}, rfl, rfl, rfl, rfl⟩

end RfTrans
