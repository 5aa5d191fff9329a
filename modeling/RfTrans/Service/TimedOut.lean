import RfTrans.Service.Answers

/-!
# Synchronous requests that time out

A synchronous `Node::request` files its handler, waits for the reply and gives up after a
time.  It returns without taking the handler out of the table again: only a response does
that.  A responder that is found later is sent the request of a caller who is gone.

## Main definitions

* `SyncThreads` — the threads of the service runtime, some of them in a synchronous request.
* `ServiceThreads.Held` — a request without a reply is in the table.
* `SyncThreads.TimesOut` — a wait ends without the reply.
* `SyncThreads.timed_out_dead_iff`
-/

namespace RfTrans

open Exec

namespace ServiceThreads

variable {T : Type} [ProtoTypes T] {s t : ServiceThreads T}

/-- `rep_available_` -/
def Available? (s : ServiceThreads T) (u : Str) : Bool := (s.rt.reqState u).repAvailable

/-- The handler is in the table. -/
def Pending (s : ServiceThreads T) (x : Filed T) : Prop :=
  s.rt.requestHandlers.handler? x.topic x.nodeUuid x.handler.handlerUuid = some x.handler

/-- A request without a reply is in the table, and what is taken out has one. -/
structure Held (s : ServiceThreads T) : Prop where
  pending : ∀ x ∈ s.filed, s.Available? x.handler.handlerUuid = false → s.Pending x
  removing : ∀ r rest, s.server = .removing r rest → s.Available? r.reqUuid = true

/-- A step that files nothing and makes no reply available. -/
theorem Held.of_same (hs : s.Held) (hfiled : t.filed = s.filed)
    (hstates : ∀ u, t.Available? u = s.Available? u) (hserver : t.server = s.server)
    (htable : ∀ x, s.Pending x → t.Pending x) : t.Held where
  pending x hx hno := by
    rw [hfiled] at hx
    rw [hstates] at hno
    exact htable x (hs.pending x hx hno)
  removing r rest h := by
    rw [hserver] at h
    rw [hstates]
    exact hs.removing r rest h

/-- Sending marks a request and does no more to it. -/
theorem available_advance {i : ℕ} {io : SocketIo} (h : s.advance i io = some t) (u : Str) :
    t.Available? u = s.Available? u := by
  rcases (kept_advance h).2 with ⟨-, hstates⟩ | ⟨target, responder, x, rest, hc⟩
  · simp only [Available?, ServiceRuntime.reqState, hstates]
  · simp only [advance, hc] at h
    obtain rfl := Option.some.inj h
    rcases ServiceRuntime.sendPending_cases io responder target.topic target.reqType
      target.repType { self := s.rt } x with hsame | ⟨data, -, hsent⟩
    · simp only [Available?, goto, hsame]
    · simp only [Available?, goto, hsent, ServiceRuntime.reqState_setReqState]
      split
      case isTrue heq => rw [heq]
      case isFalse => rfl

/-- A handler is filed and added at once. -/
theorem Held.adding (hs : s.Held) (ht : s.Tracked) {i : ℕ} {io : SocketIo}
    {topic nodeUuid : Str} {handler : ReqHandler T}
    (hc : s.calls i = .adding topic nodeUuid handler) (h : s.advance i io = some t) : t.Held := by
  have hk := (kept_advance h).1
  have hstates := available_advance h
  have hcarries : (s.calls i).carries = some handler := by rw [hc]; rfl
  obtain ⟨-, hnew, -⟩ := ht.carried i handler hcarries
  simp only [advance, hc] at h
  obtain rfl := Option.some.inj h
  refine ⟨fun x hx hno => ?_, fun r rest hserver => hs.removing r rest hserver⟩
  rcases List.mem_cons.mp hx with rfl | hx
  · -- no handler stands in the way of a new uuid
    have hnone : s.rt.requestHandlers.handler? topic nodeUuid handler.handlerUuid = none := by
      by_contra hsome
      obtain ⟨h', hh⟩ := Option.ne_none_iff_exists'.mp hsome
      obtain ⟨huuid, hfiled⟩ := ht.table _ _ _ _ hh
      exact hnew _ hfiled huuid
    show HandlerStorage.handler? (s.rt.requestHandlers.addHandler ..) _ _ _ = some handler
    rw [HandlerStorage.handler?_addHandler, if_pos ⟨rfl, rfl, rfl, hnone⟩]
  · exact hk.table _ _ _ _ (hs.pending x hx hno)

theorem Held.serve (hs : s.Held) (h : s.serve = some t) : t.Held := by
  cases hserver : s.server with
  | waiting =>
      simp only [ServiceThreads.serve, hserver] at h
      cases h
  | handling batch =>
      cases batch with
      | nil =>
          simp only [ServiceThreads.serve, hserver] at h
          obtain rfl := Option.some.inj h
          exact ⟨hs.pending, fun _ _ h => by cases h⟩
      | cons r rest =>
          simp only [ServiceThreads.serve, hserver] at h
          split at h
          all_goals
            obtain rfl := Option.some.inj h
            exact ⟨hs.pending, fun _ _ h => by cases h⟩
  | notifying r handler rest =>
      simp only [ServiceThreads.serve, hserver] at h
      obtain rfl := Option.some.inj h
      have hset : ∀ (h : ReqHandler T) (st : ReqState T) (rep : Str) (result : Bool),
          (h.notifyResult st rep result).repAvailable = true := fun _ _ _ _ => rfl
      refine ⟨fun x hx hno => ?_, fun r' rest' heq => ?_⟩
      · refine hs.pending x hx ?_
        simp only [Available?, ServiceRuntime.reqState_setReqState] at hno
        split at hno
        case isTrue =>
          rw [hset] at hno
          cases hno
        case isFalse => exact hno
      · obtain ⟨rfl, rfl⟩ := Server.removing.inj heq
        simp only [Available?, ServiceRuntime.reqState_setReqState, if_pos]
        exact hset ..
  | removing r rest =>
      have hdone := hs.removing r rest hserver
      simp only [ServiceThreads.serve, hserver] at h
      obtain rfl := Option.some.inj h
      refine ⟨fun x hx hno => ?_, fun _ _ h => by cases h⟩
      have hne : x.handler.handlerUuid ≠ r.reqUuid := by
        intro heq
        have hyes : s.Available? x.handler.handlerUuid = true := heq ▸ hdone
        exact Bool.false_ne_true (hno.symm.trans hyes)
      show HandlerStorage.handler? (s.rt.requestHandlers.removeHandler ..).1 _ _ _ = _
      rw [HandlerStorage.handler?_removeHandler, if_neg fun hc => hne hc.2.2]
      exact hs.pending x hx hno

/-- **One step of one of the threads.** -/
theorem Held.next (hs : s.Held) (ht : s.Tracked) {a : Action T} (h : s.next a = some t) :
    t.Held := by
  cases a with
  | request i topic nodeUuid handler =>
      simp only [ServiceThreads.next] at h
      split at h
      case h_1 =>
        split at h
        case isTrue => cases h
        case isFalse =>
          obtain rfl := Option.some.inj h
          exact ⟨hs.pending, hs.removing⟩
      case h_2 => cases h
  | datagram i fromIp m now =>
      simp only [ServiceThreads.next] at h
      split at h
      case h_1 =>
        split at h
        case isTrue =>
          obtain rfl := Option.some.inj h
          exact hs
        case isFalse =>
          split at h
          all_goals
            obtain rfl := Option.some.inj h
            exact ⟨hs.pending, hs.removing⟩
      case h_2 => cases h
  | advance i io =>
      rcases frame_advance h with ⟨topic, nodeUuid, handler, hc⟩ | hf
      · exact hs.adding ht hc h
      · have hk := (kept_advance h).1
        exact hs.of_same hf.filed (available_advance h) hk.server
          fun x hx => hk.table _ _ _ _ hx
  | receive r =>
      simp only [ServiceThreads.next] at h
      split at h
      case h_1 => cases h
      case h_2 =>
        obtain rfl := Option.some.inj h
        exact ⟨hs.pending, hs.removing⟩
  | takeBatch =>
      simp only [ServiceThreads.next] at h
      split at h
      case h_1 =>
        obtain rfl := Option.some.inj h
        exact ⟨hs.pending, fun _ _ h => by cases h⟩
      case h_2 => cases h
  | serve => exact hs.serve h

theorem held_start (processUuid processName hostAddr replierUuid replierAddress : Str) :
    (start processUuid processName hostAddr replierUuid replierAddress : ServiceThreads T).Held :=
  ⟨nofun, nofun⟩

/-! ## Whose step it is -/

/-- The thread that a step belongs to, unless it is the receive or the service thread. -/
def Action.thread : Action T → Option ℕ
  | .request i .. | .datagram i .. | .advance i _ => some i
  | _ => none

theorem calls_join (s : ServiceThreads T) {i j : ℕ} (io : SocketIo) (addr : Str) (c : Call T)
    (hj : j ≠ i) : (s.join i io addr c).calls j = s.calls j := by
  simp only [join]
  split
  case isTrue => exact calls_goto_of_ne _ hj _
  case isFalse =>
    split
    case isTrue => exact calls_goto_of_ne _ hj _
    case isFalse => exact calls_release_of_ne _ hj

theorem calls_advance {i j : ℕ} {io : SocketIo} (h : s.advance i io = some t) (hj : j ≠ i) :
    t.calls j = s.calls j := by
  have hgoto : ∀ (s' : ServiceThreads T) (c : Call T), s'.calls = s.calls →
      (s'.goto i c).calls j = s.calls j := fun s' c hs' => by
    rw [calls_goto_of_ne _ hj, hs']
  simp only [advance] at h
  split at h
  case h_1 => cases h
  case h_2 => split at h <;> obtain rfl := Option.some.inj h <;> exact hgoto _ _ rfl
  case h_3 =>
    obtain rfl := Option.some.inj h
    exact hgoto _ _ rfl
  case h_4 target locked _ =>
    split at h
    case h_1 =>
      obtain rfl := Option.some.inj h
      cases locked with
      | true => exact calls_release_of_ne _ hj
      | false => exact hgoto _ _ rfl
    case h_2 =>
      obtain rfl := Option.some.inj h
      exact hgoto _ _ rfl
  case h_5 =>
    split at h
    case h_1 => cases h
    case h_2 =>
      obtain rfl := Option.some.inj h
      exact hgoto _ _ rfl
  case h_6 =>
    obtain rfl := Option.some.inj h
    exact calls_join s io _ _ hj
  case h_7 =>
    split at h
    case h_1 =>
      obtain rfl := Option.some.inj h
      exact calls_release_of_ne _ hj
    case h_2 =>
      obtain rfl := Option.some.inj h
      exact hgoto _ _ rfl
  case h_8 =>
    obtain rfl := Option.some.inj h
    exact calls_release_of_ne _ hj
  case h_9 =>
    obtain rfl := Option.some.inj h
    exact hgoto _ _ rfl
  case h_10 =>
    obtain rfl := Option.some.inj h
    exact hgoto _ _ rfl
  case h_11 =>
    split at h
    case h_1 => cases h
    case h_2 =>
      obtain rfl := Option.some.inj h
      exact hgoto _ _ rfl
  case h_12 =>
    obtain rfl := Option.some.inj h
    exact calls_join s io _ _ hj
  case h_13 =>
    split at h
    case h_1 =>
      obtain rfl := Option.some.inj h
      exact calls_release_of_ne _ hj
    case h_2 =>
      obtain rfl := Option.some.inj h
      exact hgoto _ _ rfl

theorem calls_serve (h : s.serve = some t) : t.calls = s.calls ∧ t.filed = s.filed := by
  simp only [serve] at h
  split at h
  case h_1 => cases h
  case h_3 =>
    split at h
    all_goals
      obtain rfl := Option.some.inj h
      exact ⟨rfl, rfl⟩
  all_goals
    obtain rfl := Option.some.inj h
    exact ⟨rfl, rfl⟩

/-- The other threads stay where they are, and what was filed stays filed. -/
theorem others_next {a : Action T} (h : s.next a = some t) :
    (∀ j, a.thread ≠ some j → t.calls j = s.calls j) ∧ ∀ x ∈ s.filed, x ∈ t.filed := by
  cases a with
  | request i topic nodeUuid handler =>
      simp only [ServiceThreads.next] at h
      split at h
      case h_1 =>
        split at h
        case isTrue => cases h
        case isFalse =>
          obtain rfl := Option.some.inj h
          exact ⟨fun j hj => calls_goto_of_ne _ (fun heq => hj (congrArg some heq.symm)) _,
            fun _ => id⟩
      case h_2 => cases h
  | datagram i fromIp m now =>
      simp only [ServiceThreads.next] at h
      split at h
      case h_1 =>
        split at h
        case isTrue =>
          obtain rfl := Option.some.inj h
          exact ⟨fun _ _ => rfl, fun _ => id⟩
        case isFalse =>
          split at h
          case isTrue =>
            obtain rfl := Option.some.inj h
            exact ⟨fun _ _ => rfl, fun _ => id⟩
          case isFalse =>
            obtain rfl := Option.some.inj h
            exact ⟨fun j hj => calls_goto_of_ne _ (fun heq => hj (congrArg some heq.symm)) _,
            fun _ => id⟩
      case h_2 => cases h
  | advance i io =>
      refine ⟨fun j hj => calls_advance h fun heq => hj (congrArg some heq.symm), fun x hx => ?_⟩
      rcases frame_advance h with ⟨topic, nodeUuid, handler, hc⟩ | hf
      · have hstep : s.advance i io = some t := h
        simp only [advance, hc] at hstep
        obtain rfl := Option.some.inj hstep
        exact List.mem_cons_of_mem _ hx
      · rw [hf.filed]
        exact hx
  | receive r =>
      simp only [ServiceThreads.next] at h
      split at h
      case h_1 => cases h
      case h_2 =>
        obtain rfl := Option.some.inj h
        exact ⟨fun _ _ => rfl, fun _ => id⟩
  | takeBatch =>
      simp only [ServiceThreads.next] at h
      split at h
      case h_1 =>
        obtain rfl := Option.some.inj h
        exact ⟨fun _ _ => rfl, fun _ => id⟩
      case h_2 => cases h
  | serve =>
      obtain ⟨hcalls, hfiled⟩ := calls_serve h
      exact ⟨fun j _ => by rw [hcalls], fun x hx => by rw [hfiled]; exact hx⟩

end ServiceThreads

/-! ## Synchronous requests -/

/-- Where a thread stands in a synchronous `Node::request`. -/
inductive Caller (T : Type) [ProtoTypes T]
  | free
  /-- In `requestRemoteService`. -/
  | requesting (x : Filed T)
  /-- In `waitFor`. -/
  | waiting (x : Filed T)

/-- The threads of the service runtime with those that are in a synchronous request, and the
requests that have timed out. -/
structure SyncThreads (T : Type) [ProtoTypes T] where
  base : ServiceThreads T
  callers : ℕ → Caller T := fun _ => .free
  timedOut : List (Filed T) := []

namespace SyncThreads

variable {T : Type} [ProtoTypes T]

/-- The steps of the threads. -/
inductive Action (T : Type) [ProtoTypes T]
  /-- A thread calls the synchronous `Node::request`, and there is no local responder. -/
  | request (i : ℕ) (x : Filed T)
  /-- Any step of the service runtime. -/
  | base (a : ServiceThreads.Action T)
  /-- `waitFor` returns: the reply is there. -/
  | wake (i : ℕ)
  /-- `waitFor` returns: the time is over. -/
  | timeOut (i : ℕ)

/-- What `requestRemoteService` returned when the call, which stood at `c`, has ended: false
when the topic is unknown, nothing when a connect has thrown. -/
def returned (x : Filed T) : Call T → Caller T
  | .checking .. | .connecting .. => .free
  | _ => .waiting x

/-- A thread in a synchronous request after a step of its call. -/
def follow (s : SyncThreads T) (b : ServiceThreads T) (i : ℕ) : Caller T :=
  match s.callers i, b.calls i with
  | .requesting x, .idle => returned x (s.base.calls i)
  | c, _ => c

/-- Whether a thread is in no synchronous request. -/
def idle (s : SyncThreads T) (i : ℕ) : Bool :=
  match s.callers i with
  | .free => true
  | _ => false

/-- The service runtime and a caller go on. -/
def put (s : SyncThreads T) (b : ServiceThreads T) (i : ℕ) (c : Caller T) : SyncThreads T :=
  { s with base := b, callers := Function.update s.callers i c }

/-- One step of one of the threads. -/
def next (s : SyncThreads T) : Action T → Option (SyncThreads T)
  | .request i x =>
    if s.idle i ∧ x.handler.cb = false then
      (s.base.next (.request i x.topic x.nodeUuid x.handler)).map fun b =>
        s.put b i (.requesting x)
    else none
  | .base a =>
    match a with
    | .request i _ _ _ | .datagram i _ _ _ =>
      if s.idle i then (s.base.next a).map fun b => { s with base := b } else none
    | .advance i _ =>
      (s.base.next a).map fun b => s.put b i (s.follow b i)
    | _ => (s.base.next a).map fun b => { s with base := b }
  | .wake i =>
    match s.callers i with
    | .waiting x =>
      if s.base.Available? x.handler.handlerUuid then
        some (s.put s.base i .free)
      else none
    | _ => none
  | .timeOut i =>
    match s.callers i with
    | .waiting x =>
      if s.base.Available? x.handler.handlerUuid then none
      else some { s.put s.base i .free with timedOut := x :: s.timedOut }
    | _ => none

/-- A wait ends without the reply: the synchronous request returns false. -/
def TimesOut (s : SyncThreads T) : Action T → Prop
  | .timeOut i => ∃ x, s.callers i = .waiting x ∧ s.base.Available? x.handler.handlerUuid = false
  | _ => False

/-- The requests that have timed out are in the table no more. -/
def Forgotten (s : SyncThreads T) : Prop :=
  ∀ x ∈ s.timedOut,
    s.base.rt.requestHandlers.handler? x.topic x.nodeUuid x.handler.handlerUuid = none

/-- The step sends none of the requests that have timed out and notifies none of them. -/
def LeftAlone (s : SyncThreads T) (a : Action T) : Prop :=
  ∀ t, s.next a = some t → ∀ x ∈ s.timedOut,
    t.base.sent.countP (·.reqUuid = x.handler.handlerUuid) =
        s.base.sent.countP (·.reqUuid = x.handler.handlerUuid) ∧
      t.base.notified.countP (·.handlerUuid = x.handler.handlerUuid) =
        s.base.notified.countP (·.handlerUuid = x.handler.handlerUuid)

variable {s t : SyncThreads T}

@[simp] theorem base_put (s : SyncThreads T) (b : ServiceThreads T) (i : ℕ) (c : Caller T) :
    (s.put b i c).base = b := rfl

theorem callers_put_self (s : SyncThreads T) (b : ServiceThreads T) (i : ℕ) (c : Caller T) :
    (s.put b i c).callers i = c := Function.update_self ..

theorem callers_put_of_ne (s : SyncThreads T) (b : ServiceThreads T) {i j : ℕ} (h : j ≠ i)
    (c : Caller T) : (s.put b i c).callers j = s.callers j := Function.update_of_ne h ..

/-- Where the threads in synchronous requests stand. -/
structure Inv (s : SyncThreads T) : Prop where
  tracked : s.base.Tracked
  held : s.base.Held
  requesting : ∀ i x, s.callers i = .requesting x →
    s.base.calls i = .checking x.topic x.nodeUuid x.handler ∨
      s.base.calls i = .adding x.topic x.nodeUuid x.handler ∨ x ∈ s.base.filed
  waiting : ∀ i x, s.callers i = .waiting x → x ∈ s.base.filed

/-- A step of the service runtime that is not of a thread in a synchronous request. -/
theorem Inv.others (h : s.Inv) {a : ServiceThreads.Action T} {b : ServiceThreads T}
    (hb : s.base.next a = some b) (ha : ∀ i, a.thread = some i → s.callers i = .free) :
    Inv { s with base := b } := by
  obtain ⟨hcalls, hfiled⟩ := ServiceThreads.others_next hb
  refine ⟨h.tracked.next hb, h.held.next h.tracked hb, fun j x hj => ?_, fun j x hj => ?_⟩
  · have hother : a.thread ≠ some j := by
      intro heq
      rw [ha j heq] at hj
      cases hj
    rw [hcalls j hother]
    exact (h.requesting j x hj).imp_right (Or.imp_right (hfiled x))
  · exact hfiled x (h.waiting j x hj)

/-- A wait is over. -/
theorem Inv.freed (h : s.Inv) {i : ℕ} (hb : t.base = s.base)
    (hc : t.callers = Function.update s.callers i .free) : t.Inv := by
  have hother : ∀ j c, c ≠ .free → t.callers j = c → s.callers j = c := by
    intro j c hne hj
    rw [hc] at hj
    by_cases hji : j = i
    · subst hji
      rw [Function.update_self] at hj
      exact absurd hj.symm hne
    · rwa [Function.update_of_ne hji] at hj
  refine ⟨hb ▸ h.tracked, hb ▸ h.held, fun j x hj => ?_, fun j x hj => ?_⟩
  · rw [hb]
    exact h.requesting j x (hother j _ nofun hj)
  · rw [hb]
    exact h.waiting j x (hother j _ nofun hj)

/-- A thread begins a synchronous request. -/
theorem Inv.request (h : s.Inv) {i : ℕ} {x : Filed T} (ht : s.next (.request i x) = some t) :
    t.Inv := by
  simp only [next] at ht
  split at ht
  case isFalse => cases ht
  case isTrue =>
    obtain ⟨b, hb, rfl⟩ := Option.map_eq_some_iff.mp ht
    obtain ⟨hcalls, hfiled⟩ := ServiceThreads.others_next hb
    refine ⟨h.tracked.next hb, h.held.next h.tracked hb, fun j y hj => ?_, fun j y hj => ?_⟩
    · by_cases hji : j = i
      · subst hji
        rw [callers_put_self] at hj
        obtain rfl := Caller.requesting.inj hj
        left
        simp only [ServiceThreads.next] at hb
        split at hb
        case h_1 =>
          split at hb
          case isTrue => cases hb
          case isFalse =>
            obtain rfl := Option.some.inj hb
            exact ServiceThreads.calls_goto_self ..
        case h_2 => cases hb
      · rw [callers_put_of_ne _ _ hji] at hj
        rw [base_put, hcalls j fun heq => hji (Option.some.inj heq).symm]
        exact (h.requesting j y hj).imp_right (Or.imp_right (hfiled y))
    · by_cases hji : j = i
      · subst hji
        rw [callers_put_self] at hj
        cases hj
      · rw [callers_put_of_ne _ _ hji] at hj
        exact hfiled y (h.waiting j y hj)

/-- A thread in a synchronous request goes on: it waits once its handler is filed. -/
theorem Inv.advance (h : s.Inv) {i : ℕ} {io : SocketIo} {b : ServiceThreads T}
    (hb : s.base.advance i io = some b) :
    (s.put b i (s.follow b i)).Inv := by
  have hnext : s.base.next (.advance i io) = some b := hb
  obtain ⟨hcalls, hfiled⟩ := ServiceThreads.others_next hnext
  -- what a call of its own does for a thread that is requesting
  have hstep : ∀ x, s.callers i = .requesting x →
      (b.calls i = .adding x.topic x.nodeUuid x.handler ∨ x ∈ b.filed) ∨
        b.calls i = .idle ∧ s.base.calls i = .checking x.topic x.nodeUuid x.handler := by
    intro x hx
    rcases h.requesting i x hx with hc | hc | hx
    · simp only [ServiceThreads.advance, hc] at hb
      split at hb
      case isTrue =>
        obtain rfl := Option.some.inj hb
        exact .inr ⟨ServiceThreads.calls_goto_self .., hc⟩
      case isFalse =>
        obtain rfl := Option.some.inj hb
        exact .inl (.inl (ServiceThreads.calls_goto_self ..))
    · simp only [ServiceThreads.advance, hc] at hb
      obtain rfl := Option.some.inj hb
      exact .inl (.inr List.mem_cons_self)
    · exact .inl (.inr (hfiled x hx))
  refine ⟨h.tracked.next hnext, h.held.next h.tracked hnext, fun j x hj => ?_, fun j x hj => ?_⟩
  · by_cases hji : j = i
    · subst hji
      rw [callers_put_self] at hj
      simp only [follow] at hj
      split at hj
      case h_1 y hy hidle =>
        simp only [returned] at hj
        split at hj <;> cases hj
      case h_2 hno =>
        rcases hstep x hj with hs | ⟨hidle, -⟩
        · exact .inr hs
        · exact absurd hidle (hno x hj)
    · rw [callers_put_of_ne _ _ hji] at hj
      rw [base_put, hcalls j fun heq => hji (Option.some.inj heq).symm]
      exact (h.requesting j x hj).imp_right (Or.imp_right (hfiled x))
  · by_cases hji : j = i
    · subst hji
      rw [callers_put_self] at hj
      simp only [follow] at hj
      split at hj
      case h_1 y hy hidle =>
        rcases hstep y hy with (hadd | hy') | ⟨-, hchecking⟩
        · rw [hidle] at hadd
          cases hadd
        · simp only [returned] at hj
          split at hj
          case h_1 => cases hj
          case h_2 => cases hj
          case h_3 =>
            obtain rfl := Caller.waiting.inj hj
            exact hy'
        · rw [hchecking] at hj
          cases hj
      case h_2 => exact hfiled x (h.waiting j x hj)
    · rw [callers_put_of_ne _ _ hji] at hj
      exact hfiled x (h.waiting j x hj)

/-- A thread that makes no synchronous request does something else. -/
theorem Inv.idle (h : s.Inv) {i : ℕ} {a : ServiceThreads.Action T} (ha : a.thread = some i)
    (ht : (if s.idle i then (s.base.next a).map fun b => { s with base := b } else none) =
      some t) : t.Inv := by
  split at ht
  case isFalse => cases ht
  case isTrue hi =>
    obtain ⟨b, hb, rfl⟩ := Option.map_eq_some_iff.mp ht
    refine h.others hb fun j hj => ?_
    rw [ha] at hj
    obtain rfl := Option.some.inj hj
    simp only [SyncThreads.idle] at hi
    split at hi
    case h_1 hfree => exact hfree
    case h_2 => cases hi

theorem Inv.step (h : s.Inv) {a : Action T} (ht : s.next a = some t) : t.Inv := by
  cases a with
  | request i x => exact h.request ht
  | base a =>
      cases a with
      | request i topic nodeUuid handler => exact h.idle rfl ht
      | datagram i fromIp m now => exact h.idle rfl ht
      | advance i io =>
          obtain ⟨b, hb, rfl⟩ := Option.map_eq_some_iff.mp ht
          exact h.advance hb
      | receive r =>
          obtain ⟨b, hb, rfl⟩ := Option.map_eq_some_iff.mp ht
          exact h.others hb nofun
      | takeBatch =>
          obtain ⟨b, hb, rfl⟩ := Option.map_eq_some_iff.mp ht
          exact h.others hb nofun
      | serve =>
          obtain ⟨b, hb, rfl⟩ := Option.map_eq_some_iff.mp ht
          exact h.others hb nofun
  | wake i =>
      simp only [next] at ht
      split at ht
      case h_2 => cases ht
      case h_1 =>
        split at ht
        case isFalse => cases ht
        case isTrue =>
          obtain rfl := Option.some.inj ht
          exact h.freed rfl rfl
  | timeOut i =>
      simp only [next] at ht
      split at ht
      case h_2 => cases ht
      case h_1 =>
        split at ht
        case isTrue => cases ht
        case isFalse =>
          obtain rfl := Option.some.inj ht
          exact h.freed rfl rfl

/-! ## Runs -/

/-- A started process. -/
def start (processUuid processName hostAddr replierUuid replierAddress : Str) : SyncThreads T :=
  { base := .start processUuid processName hostAddr replierUuid replierAddress }

theorem inv_start (processUuid processName hostAddr replierUuid replierAddress : Str) :
    (start processUuid processName hostAddr replierUuid replierAddress : SyncThreads T).Inv :=
  ⟨ServiceThreads.tracked_start .., ServiceThreads.held_start .., nofun, nofun⟩

/-- **A request that times out stays in the table.** -/
theorem Inv.pending_of_timesOut (h : s.Inv) {a : Action T} (ha : s.TimesOut a) :
    ∃ t x, s.next a = some t ∧ x ∈ t.timedOut ∧ t.base.Pending x := by
  cases a with
  | timeOut i =>
      obtain ⟨x, hx, hno⟩ := ha
      have hpending := h.held.pending x (h.waiting i x hx) hno
      refine ⟨{ s.put s.base i .free with timedOut := x :: s.timedOut }, x, ?_,
        List.mem_cons_self, hpending⟩
      simp [next, hx, hno]
  | _ => exact ha.elim

/-- Only a time-out makes a request one that has timed out. -/
theorem timedOut_next {a : Action T} (ha : ¬ s.TimesOut a) (ht : s.next a = some t) :
    t.timedOut = s.timedOut := by
  cases a with
  | request i x =>
      simp only [next] at ht
      split at ht
      case isFalse => cases ht
      case isTrue =>
        obtain ⟨b, -, rfl⟩ := Option.map_eq_some_iff.mp ht
        rfl
  | base a =>
      cases a with
      | request i topic nodeUuid handler =>
          simp only [next] at ht
          split at ht
          case isFalse => cases ht
          case isTrue =>
            obtain ⟨b, -, rfl⟩ := Option.map_eq_some_iff.mp ht
            rfl
      | datagram i fromIp m now =>
          simp only [next] at ht
          split at ht
          case isFalse => cases ht
          case isTrue =>
            obtain ⟨b, -, rfl⟩ := Option.map_eq_some_iff.mp ht
            rfl
      | _ =>
          obtain ⟨b, -, rfl⟩ := Option.map_eq_some_iff.mp ht
          rfl
  | wake i =>
      simp only [next] at ht
      split at ht
      case h_2 => cases ht
      case h_1 =>
        split at ht
        case isFalse => cases ht
        case isTrue =>
          obtain rfl := Option.some.inj ht
          rfl
  | timeOut i =>
      simp only [next] at ht
      split at ht
      case h_2 => cases ht
      case h_1 x hx =>
        split at ht
        case isTrue => cases ht
        case isFalse hno => exact absurd ⟨x, hx, Bool.eq_false_iff.mpr hno⟩ ha

/-- **No request that has timed out is dead**: in a run, those that have timed out are out of
the table, not sent and not notified if and only if none has timed out. -/
theorem timed_out_dead_iff (processUuid processName hostAddr replierUuid replierAddress : Str)
    (run : List (Action T)) :
    (Always next Forgotten
        (start processUuid processName hostAddr replierUuid replierAddress : SyncThreads T) run ∧
      Guarded next LeftAlone
        (start processUuid processName hostAddr replierUuid replierAddress) run) ↔
      Guarded next (fun s a => ¬ TimesOut s a)
        (start processUuid processName hostAddr replierUuid replierAddress) run := by
  constructor
  · rintro ⟨hforgotten, -⟩
    have hstep : ∀ (s : SyncThreads T) (a : Action T) (t : SyncThreads T), s.Inv →
        s.next a = some t → t.Inv := fun _ _ _ hs ht => hs.step ht
    refine hforgotten.guarded_of_stable hstep ?_ (inv_start ..)
    intro s a hs _ hafter htimes
    obtain ⟨t, x, ht, hx, hpending⟩ := hs.pending_of_timesOut htimes
    rw [ServiceThreads.Pending, hafter t ht x hx] at hpending
    cases hpending
  · intro hnone
    have hempty : ∀ (s : SyncThreads T) (a : Action T) (t : SyncThreads T), s.timedOut = [] →
        ¬ s.TimesOut a → s.next a = some t → t.timedOut = [] :=
      fun s a t hs ha ht => (timedOut_next ha ht).trans hs
    constructor
    · refine always_of_invariant hempty (fun s hs x hx => ?_) rfl hnone
      rw [hs] at hx
      cases hx
    · refine guarded_of_invariant hempty (fun s a hs _ t _ x hx => ?_) rfl hnone
      rw [hs] at hx
      cases hx

/-! ## A responder that comes too late -/

def exampleStart : SyncThreads EmptyOnly :=
  start (str "4a") [] (str "10.0.0.1") (str "r") (str "tcp://r")

/-- A synchronous request, for topic s. -/
def exampleSyncRequest : Filed EmptyOnly :=
  ⟨str "s", str "n", { ServiceThreads.exampleRequest with cb := false }⟩

/-- A responder of other types is known; thread 1 makes the request, which is accepted and not
sent, and times out. -/
def givingUp : List (Action EmptyOnly) :=
  .base (.datagram 0 (str "10.0.0.2")
    (ServiceThreads.advertisementOf (str "A") (str "B") (str "n1")) 0) ::
  List.replicate 4 (.base (.advance 0 exampleIo)) ++
  .request 1 exampleSyncRequest :: List.replicate 3 (.base (.advance 1 exampleIo)) ++ [.timeOut 1]

/-- A responder of its types is found and answers. -/
def tooLate : List (Action EmptyOnly) :=
  .base (.datagram 0 (str "10.0.0.2")
    (ServiceThreads.advertisementOf exampleSyncRequest.handler.getReqTypeName
      exampleSyncRequest.handler.getRepTypeName (str "n2")) 1) ::
  List.replicate 9 (.base (.advance 0 exampleIo)) ++
  .base (.receive (ServiceThreads.responseTo (str "q") "1")) :: .base .takeBatch ::
  List.replicate 3 (.base .serve)

/-- The request that has timed out is still in the table; later it is sent and notified. -/
theorem late_responder_served : ∃ s t,
    exec next exampleStart givingUp = some s ∧ s.timedOut = [exampleSyncRequest] ∧
    s.base.Pending exampleSyncRequest ∧ s.base.sent = [] ∧ s.base.notified = [] ∧
    exec next s tooLate = some t ∧
    t.base.sent.countP (·.reqUuid = str "q") = 1 ∧
    t.base.notified.countP (·.handlerUuid = str "q") = 1 :=
  ⟨(exec next exampleStart givingUp).getD exampleStart,
    (exec next exampleStart (givingUp ++ tooLate)).getD exampleStart, rfl, rfl, rfl, rfl, rfl, rfl,
    by decide, by decide⟩

end SyncThreads
end RfTrans
