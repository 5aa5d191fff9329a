import RfTrans.Lib.DropOldest
import RfTrans.Lib.Exec
import RfTrans.Runtime.RemoteMsg

/-!
# The queue between the two threads

`receiveMessage` appends to `remote_message_queue_`, from which it drops the front beyond
`kMsgQueueLimit`; `remoteDispatchLoop` swaps the queue out and dispatches the messages of the
batch one after the other, each with the handlers that it then finds.  Both take the mutex,
so that appending and swapping are one step each, in any order.

A message carries the number of messages that were received before it, which the code does
not have.

## Main definitions

* `RemoteQueue` — the queue, the batch and what was dispatched.
* `RemoteQueue.next`
* `RemoteQueue.drops_oldest_only`
-/

namespace RfTrans

open Exec DropOldest

variable {T : Type} [ProtoTypes T]

/-- A received message with its number. -/
abbrev Numbered := RemoteMsg × ℕ

/-- A message that was dispatched, with the calls. -/
structure Dispatched (T : Type) [ProtoTypes T] where
  message : Numbered
  calls : List (TypedCall T)

/-- `remote_message_queue_` and what is left of `remote_messages`. -/
structure RemoteQueue (T : Type) [ProtoTypes T] where
  queue : List Numbered := []
  batch : List Numbered := []
  arrived : ℕ := 0
  dispatched : List (Dispatched T) := []

namespace RemoteQueue

/-- The steps of the two threads. -/
inductive Action (T : Type)
  /-- `receiveMessage`, once it has a message. -/
  | receive (message : RemoteMsg)
  | swap
  /-- The body of the loop, with the rings and the handlers that it finds. -/
  | dispatch (shm : ShmView) (handlers : HandlerStorage (Option (TypedHandler T)))

/-- One step. A swap follows the last message of the batch before. -/
def next (s : RemoteQueue T) : Action T → Option (RemoteQueue T)
  | .receive message =>
    some { s with
      queue := Framing.enqueue (some kMsgQueueLimit) s.queue (message, s.arrived)
      arrived := s.arrived + 1 }
  | .swap =>
    match s.batch with
    | [] => some { s with queue := [], batch := s.queue }
    | _ :: _ => none
  | .dispatch shm handlers =>
    match s.batch with
    | [] => none
    | message :: rest =>
      some { s with
        batch := rest
        dispatched := s.dispatched ++ [⟨message, remoteDispatch shm handlers message.1⟩] }

/-- The messages received, in order. -/
def received : List (Action T) → List RemoteMsg
  | [] => []
  | .receive message :: as => message :: received as
  | .swap :: as => received as
  | .dispatch .. :: as => received as

/-- The messages received since the last swap. -/
def sinceSwap (as : List (Action T)) : List RemoteMsg :=
  as.foldl
    (fun l a =>
      match a with
      | .receive message => l ++ [message]
      | .swap => []
      | .dispatch .. => l) []

/-- The messages that a handler was called with, one for each call. -/
def seenBy (s : RemoteQueue T) (nodeUuid handlerUuid : Str) : List Numbered :=
  s.dispatched.flatMap fun d =>
    (d.calls.filter fun c => c.nodeUuid = nodeUuid ∧ c.handlerUuid = handlerUuid).map
      fun _ => d.message

/-- What the queue notices of a step. -/
def opsOf (arrived : ℕ) : Action T → List (Op Numbered)
  | .receive message => [.push (message, arrived)]
  | .swap => [.swap]
  | .dispatch .. => []

/-- What the queue notices of a run. -/
def opsFrom : ℕ → List (Action T) → List (Op Numbered)
  | _, [] => []
  | k, a :: as => opsOf k a ++ opsFrom (k + (pushed (opsOf k a)).length) as

/-! ## The queue -/

/-- The queue is the library's, and what has been taken from it is being dispatched. -/
structure Refines (s : RemoteQueue T) (ops : List (Op Numbered)) : Prop where
  arrived : s.arrived = (pushed ops).length
  queue : s.queue = (run kMsgQueueLimit ops).items
  taken : s.dispatched.map (·.message) ++ s.batch = (run kMsgQueueLimit ops).batches.flatten

variable {s t : RemoteQueue T} {ops : List (Op Numbered)} {a : Action T} {as : List (Action T)}

theorem next_swap (h : s.next .swap = some t) :
    s.batch = [] ∧ t = { s with queue := [], batch := s.queue } := by
  simp only [RemoteQueue.next] at h
  split at h
  case h_1 hbatch => exact ⟨hbatch, (Option.some.inj h).symm⟩
  case h_2 => cases h

theorem next_dispatch {shm : ShmView} {handlers : HandlerStorage (Option (TypedHandler T))}
    (h : s.next (.dispatch shm handlers) = some t) :
    ∃ message rest, s.batch = message :: rest ∧ t = { s with
      batch := rest
      dispatched := s.dispatched ++ [⟨message, remoteDispatch shm handlers message.1⟩] } := by
  simp only [RemoteQueue.next] at h
  split at h
  case h_1 => cases h
  case h_2 message rest hbatch => exact ⟨message, rest, hbatch, (Option.some.inj h).symm⟩

theorem Refines.next (h : Refines s ops) (ha : s.next a = some t) :
    Refines t (ops ++ opsOf s.arrived a) := by
  cases a with
  | receive message =>
      obtain rfl := Option.some.inj ha
      constructor
      · rw [opsOf, pushed_append, List.length_append, ← h.arrived]
        rfl
      · rw [opsOf, run_append_singleton, h.queue]
        rfl
      · rw [opsOf, run_append_singleton]
        exact h.taken
  | swap =>
      obtain ⟨hbatch, rfl⟩ := next_swap ha
      have htaken := h.taken
      rw [hbatch, List.append_nil] at htaken
      constructor
      · rw [opsOf, pushed_append, List.length_append]
        exact h.arrived
      · rw [opsOf, run_append_singleton]
        rfl
      · rw [opsOf, run_append_singleton, htaken, h.queue]
        simp [step]
  | dispatch shm handlers =>
      obtain ⟨message, rest, hbatch, rfl⟩ := next_dispatch ha
      rw [opsOf, List.append_nil]
      constructor
      · exact h.arrived
      · exact h.queue
      · rw [← h.taken, hbatch, List.map_append, List.append_assoc]
        rfl

theorem Refines.exec (h : Refines s ops) (hs : Exec.exec RemoteQueue.next s as = some t) :
    Refines t (ops ++ opsFrom s.arrived as) := by
  induction as generalizing s ops with
  | nil =>
      obtain rfl := Option.some.inj hs
      rw [opsFrom, List.append_nil]
      exact h
  | cons a as ih =>
      obtain ⟨u, hu, hut⟩ := Option.bind_eq_some_iff.mp hs
      have hnext := h.next hu
      have harrived : u.arrived = s.arrived + (pushed (opsOf s.arrived a)).length := by
        rw [hnext.arrived, pushed_append, List.length_append, ← h.arrived]
      have hrest := ih hnext hut
      rwa [List.append_assoc, harrived] at hrest

theorem refines_start : Refines ({} : RemoteQueue T) [] where
  arrived := rfl
  queue := rfl
  taken := rfl

theorem refines_exec (h : Exec.exec next {} as = some s) : Refines s (opsFrom 0 as) :=
  refines_start.exec h

/-! ## What was received -/

omit [ProtoTypes T] in
theorem pushed_opsFrom (k : ℕ) (as : List (Action T)) :
    pushed (opsFrom k as) = (received as).zipIdx k := by
  induction as generalizing k with
  | nil => rfl
  | cons a as ih =>
      rw [opsFrom, pushed_append, ih]
      cases a with
      | receive message => rfl
      | swap => rfl
      | dispatch shm handlers => rfl

omit [ProtoTypes T] in
theorem opsFrom_append (k : ℕ) (as bs : List (Action T)) :
    opsFrom k (as ++ bs) = opsFrom k as ++ opsFrom (k + (received as).length) bs := by
  induction as generalizing k with
  | nil => rfl
  | cons a as ih =>
      rw [List.cons_append, opsFrom, opsFrom, ih, List.append_assoc]
      cases a with
      | receive message =>
          simp only [opsOf, pushed, received, List.length_cons, List.length_nil]
          congr 3
          omega
      | swap => rfl
      | dispatch shm handlers => rfl

omit [ProtoTypes T] in
theorem since_opsFrom (as : List (Action T)) :
    (cut (opsFrom 0 as)).since.map (·.1) = sinceSwap as := by
  induction as using List.reverseRecOn with
  | nil => rfl
  | append_singleton as a ih =>
      rw [opsFrom_append, sinceSwap, List.foldl_append, ← sinceSwap, ← ih]
      cases a with
      | receive message =>
          simp only [opsFrom, opsOf, List.append_nil, List.foldl_cons, List.foldl_nil]
          rw [cut_append_singleton]
          simp [Cut.step]
      | swap =>
          simp only [opsFrom, opsOf, List.append_nil, List.foldl_cons, List.foldl_nil]
          rw [cut_append_singleton]
          rfl
      | dispatch shm handlers =>
          simp only [opsFrom, opsOf, List.append_nil, List.foldl_cons, List.foldl_nil]

/-- The queue holds the end of what was received since the last swap. -/
theorem queue_eq (h : Exec.exec next {} as = some s) :
    s.queue.map (·.1) = (sinceSwap as).rtake kMsgQueueLimit := by
  rw [(refines_exec h).queue, run_eq, ← since_opsFrom]
  simp only [List.rtake, List.length_map, List.map_drop]

/-! ## What the handlers see -/

/-- A record calls no handler twice. -/
theorem nodup_remoteDispatch (shm : ShmView) (handlers : HandlerStorage (Option (TypedHandler T)))
    (message : RemoteMsg) :
    ((remoteDispatch shm handlers message).map fun c => (c.nodeUuid, c.handlerUuid)).Nodup := by
  rw [remoteDispatch_eq]
  split
  case h_1 =>
    rw [List.map_map]
    exact nodup_matchingHandlers
  case h_2 => exact List.nodup_nil

/-- The handlers are called as `remoteDispatch` has it. -/
def Logged (s : RemoteQueue T) : Prop :=
  ∀ d ∈ s.dispatched, (d.calls.map fun c => (c.nodeUuid, c.handlerUuid)).Nodup

theorem Logged.next (h : Logged s) (ha : s.next a = some t) : Logged t := by
  cases a with
  | receive message =>
      obtain rfl := Option.some.inj ha
      exact h
  | swap =>
      obtain ⟨-, rfl⟩ := next_swap ha
      exact h
  | dispatch shm handlers =>
      obtain ⟨message, rest, -, rfl⟩ := next_dispatch ha
      intro d hd
      rcases List.mem_append.mp hd with hold | hnew
      · exact h d hold
      · rw [List.mem_singleton.mp hnew]
        exact nodup_remoteDispatch ..

theorem sublist_map_of_le_one {α β : Type} {f : α → List β} {g : α → β} {l : List α}
    (h : ∀ x ∈ l, (f x).Sublist [g x]) : (l.flatMap f).Sublist (l.map g) := by
  induction l with
  | nil => exact List.Sublist.slnil
  | cons x l ih =>
      rw [List.flatMap_cons, List.map_cons]
      have hrest := ih fun y hy => h y (List.mem_cons_of_mem x hy)
      exact (h x List.mem_cons_self).append hrest

/-- A handler sees no message twice, and none that was not dispatched. -/
theorem Logged.seenBy_sublist (h : Logged s) (n u : Str) :
    (s.seenBy n u).Sublist (s.dispatched.map (·.message)) := by
  apply sublist_map_of_le_one
  intro d hd
  let calls := d.calls.filter fun c => c.nodeUuid = n ∧ c.handlerUuid = u
  have hsame : calls.map (fun c => (c.nodeUuid, c.handlerUuid)) =
      List.replicate calls.length (n, u) := by
    rw [List.eq_replicate_iff]
    refine ⟨List.length_map .., ?_⟩
    intro x hx
    obtain ⟨c, hc, rfl⟩ := List.mem_map.mp hx
    have hplace := of_decide_eq_true (List.mem_filter.mp hc).2
    rw [hplace.1, hplace.2]
  have hnodup := (h d hd).sublist (List.filter_sublist.map _ : (calls.map _).Sublist _)
  rw [hsame, List.nodup_replicate] at hnodup
  change (calls.map fun _ => d.message).Sublist [d.message]
  rw [List.map_const', ← List.replicate_one]
  exact List.replicate_sublist_replicate _ |>.mpr hnodup

/-! ## Whole runs -/

theorem logged_exec (h : Exec.exec next {} as = some s) : Logged s :=
  stable (P := Logged) (fun _ _ _ hs ha => hs.next ha) (by simp [Logged]) h

omit [ProtoTypes T] in
/-- No swap, only appends. -/
theorem opsFrom_pushes (k : ℕ) (h : Action.swap ∉ as) :
    ∀ op ∈ opsFrom k as, ∃ x, op = .push x := by
  induction as generalizing k with
  | nil => exact fun op hop => by cases hop
  | cons a as ih =>
      rw [List.mem_cons, not_or] at h
      intro op hop
      rw [opsFrom] at hop
      rcases List.mem_append.mp hop with hfirst | hrest
      · cases a with
        | receive message => exact ⟨_, List.mem_singleton.mp hfirst⟩
        | swap => exact absurd rfl h.1
        | dispatch shm handlers => cases hfirst
      · exact ih _ h.2 op hrest

/-- **Only the oldest are dropped.**  In every interleaving the queue stays within its limit,
every batch is the end of what was received since the swap before, every handler sees some of
the messages in the order in which they came, and a message is dropped exactly if as many
messages as the limit came between it and the next swap. -/
theorem drops_oldest_only (as : List (Action T)) (s : RemoteQueue T)
    (h : Exec.exec next {} as = some s) :
    s.queue.length ≤ kMsgQueueLimit ∧
    (∀ before after, as = before ++ .swap :: after →
      ∃ t, Exec.exec next {} (before ++ [.swap]) = some t ∧ t.queue = [] ∧
        t.batch.map (·.1) = (sinceSwap before).rtake kMsgQueueLimit) ∧
    (∀ n u, (s.seenBy n u).Sublist (received as).zipIdx) ∧
    ∀ before message mid after, as = before ++ .receive message :: (mid ++ .swap :: after) →
      .swap ∉ mid →
        ((message, (received before).length) ∉ s.dispatched.map (·.message) ++ s.batch ↔
          kMsgQueueLimit ≤ (received mid).length) := by
  have hrefines := refines_exec h
  refine ⟨?_, ?_, ?_, ?_⟩
  · rw [hrefines.queue]
    exact length_items_le
  · intro before after has
    rw [has, List.append_cons] at h
    obtain ⟨t, ht, -⟩ := exec_append_eq_some h
    obtain ⟨u, hu, hut⟩ := exec_append_eq_some ht
    refine ⟨t, ht, ?_⟩
    have hswap : u.next .swap = some t := by simpa using hut
    obtain ⟨-, rfl⟩ := next_swap hswap
    exact ⟨rfl, queue_eq hu⟩
  · intro n u
    refine ((logged_exec h).seenBy_sublist n u).trans ?_
    refine (List.sublist_append_left _ s.batch).trans ?_
    rw [hrefines.taken, ← pushed_opsFrom]
    exact flatten_batches_sublist
  · intro before message mid after has hmid
    have hops : opsFrom 0 as = opsFrom 0 before ++
        .push (message, (received before).length) ::
          (opsFrom ((received before).length + 1) mid ++
            .swap :: opsFrom ((received before).length + 1 + (received mid).length) after) := by
      rw [has, opsFrom_append, opsFrom, opsFrom_append, opsFrom]
      simp [opsOf, pushed]
    have hfresh : ∀ k (bs : List (Action T)), (received before).length < k →
        (message, (received before).length) ∉ pushed (opsFrom k bs) := by
      intro k bs hk hmem
      rw [pushed_opsFrom] at hmem
      have hle := (List.mem_zipIdx hmem).1
      omega
    have hbefore : (message, (received before).length) ∉ pushed (opsFrom 0 before) := by
      intro hmem
      rw [pushed_opsFrom] at hmem
      have hlt := (List.mem_zipIdx hmem).2.1
      omega
    rw [hrefines.taken, hops, mem_batches_iff (opsFrom_pushes _ hmid) hbefore
      (hfresh _ _ (by omega)) (hfresh _ _ (by omega)), pushed_opsFrom, List.length_zipIdx, not_lt]

/-- Two messages, one of which comes while the other one is dispatched. -/
def twoMessages : List (Action EmptyOnly) :=
  [.receive wholeRecord, .swap, .receive brokenRecord, .dispatch noRings oneHandler, .swap]

theorem drops_oldest_only_two : ∃ s, Exec.exec next {} twoMessages = some s ∧
    s.queue.length ≤ kMsgQueueLimit ∧
    (s.seenBy (str "n1") (str "h1")).Sublist [(wholeRecord, 0), (brokenRecord, 1)] ∧
    ((wholeRecord, 0) ∉ s.dispatched.map (·.message) ++ s.batch ↔ kMsgQueueLimit ≤ 0) := by
  refine ⟨_, rfl, ?_⟩
  obtain ⟨hlength, -, hseen, hdropped⟩ := drops_oldest_only twoMessages _ rfl
  refine ⟨hlength, hseen (str "n1") (str "h1"), ?_⟩
  exact hdropped [] wholeRecord [] [.receive brokenRecord, .dispatch noRings oneHandler, .swap]
    rfl (by simp)

end RemoteQueue
end RfTrans
