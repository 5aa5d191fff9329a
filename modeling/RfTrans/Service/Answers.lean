import RfTrans.Service.Stranded

/-!
# Requests are sent and answered once

Requests are sent from application threads and from the discovery thread, under
`mutex_` and with the requested flag of the handler; they are answered by the service
thread alone, which takes the handler out of the table before it looks at the next
response.

## Main definitions

* `ServiceThreads.SentOnce` — what is sent is marked, and was not sent before.
* `ServiceThreads.AnsweredOnce` — a handler that was notified is on its way out.
* `ServiceThreads.sent_and_answered_once`
-/

namespace RfTrans

open Exec

namespace Server

/-- The responses of the batch that are not done with. -/
def batch {T : Type} [ProtoTypes T] : Server T → List RemoteResponse
  | .waiting => []
  | .handling rest => rest
  | .notifying r _ rest => r :: rest
  | .removing r rest => r :: rest

end Server

namespace ServiceThreads

variable {T : Type} [ProtoTypes T] {s t : ServiceThreads T}

/-! ## Sending -/

/-- A call leaves the service thread's part and the handlers of the table alone. -/
structure Kept (s t : ServiceThreads T) : Prop where
  responseQueue : t.responseQueue = s.responseQueue
  server : t.server = s.server
  received : t.received = s.received
  notified : t.notified = s.notified
  table : ∀ n n' u h, s.rt.requestHandlers.handler? n n' u = some h →
    t.rt.requestHandlers.handler? n n' u = some h

theorem kept_join (s : ServiceThreads T) (i : ℕ) (io : SocketIo) (addr : Str) (c : Call T) :
    Kept s (s.join i io addr c) ∧ (s.join i io addr c).sent = s.sent ∧
      (s.join i io addr c).rt.reqStates = s.rt.reqStates := by
  simp only [join]
  split
  case isTrue => exact ⟨⟨rfl, rfl, rfl, rfl, fun _ _ _ _ => id⟩, rfl, rfl⟩
  case isFalse => split <;> exact ⟨⟨rfl, rfl, rfl, rfl, fun _ _ _ _ => id⟩, rfl, rfl⟩

/-- Only a round of the loop sends and marks anything. -/
theorem kept_advance {i : ℕ} {io : SocketIo} (h : s.advance i io = some t) :
    Kept s t ∧ ((t.sent = s.sent ∧ t.rt.reqStates = s.rt.reqStates) ∨
      ∃ target responder x rest, s.calls i = .sending target responder (x :: rest)) := by
  simp only [advance] at h
  split at h
  case h_1 => cases h
  case h_2 =>
    split at h
    all_goals
      obtain rfl := Option.some.inj h
      exact ⟨⟨rfl, rfl, rfl, rfl, fun _ _ _ _ => id⟩, .inl ⟨rfl, rfl⟩⟩
  case h_3 topic nodeUuid handler _ =>
    obtain rfl := Option.some.inj h
    refine ⟨⟨rfl, rfl, rfl, rfl, fun n n' u h' hh => ?_⟩, .inl ⟨rfl, rfl⟩⟩
    show HandlerStorage.handler? (s.rt.requestHandlers.addHandler ..) n n' u = some h'
    rw [HandlerStorage.handler?_addHandler]
    split
    case isTrue hnew =>
      obtain ⟨rfl, rfl, rfl, hnone⟩ := hnew
      rw [hnone] at hh
      cases hh
    case isFalse => exact hh
  case h_4 target locked _ =>
    split at h
    case h_1 =>
      obtain rfl := Option.some.inj h
      cases locked <;> exact ⟨⟨rfl, rfl, rfl, rfl, fun _ _ _ _ => id⟩, .inl ⟨rfl, rfl⟩⟩
    case h_2 =>
      obtain rfl := Option.some.inj h
      exact ⟨⟨rfl, rfl, rfl, rfl, fun _ _ _ _ => id⟩, .inl ⟨rfl, rfl⟩⟩
  case h_5 =>
    split at h
    case h_1 => cases h
    case h_2 =>
      obtain rfl := Option.some.inj h
      exact ⟨⟨rfl, rfl, rfl, rfl, fun _ _ _ _ => id⟩, .inl ⟨rfl, rfl⟩⟩
  case h_6 =>
    obtain rfl := Option.some.inj h
    obtain ⟨hk, hsent, hstates⟩ := kept_join s i io _ _
    exact ⟨hk, .inl ⟨hsent, hstates⟩⟩
  case h_7 =>
    split at h
    all_goals
      obtain rfl := Option.some.inj h
      exact ⟨⟨rfl, rfl, rfl, rfl, fun _ _ _ _ => id⟩, .inl ⟨rfl, rfl⟩⟩
  case h_8 =>
    obtain rfl := Option.some.inj h
    exact ⟨⟨rfl, rfl, rfl, rfl, fun _ _ _ _ => id⟩, .inl ⟨rfl, rfl⟩⟩
  case h_9 target responder x rest hc =>
    obtain rfl := Option.some.inj h
    refine ⟨⟨rfl, rfl, rfl, rfl, fun n n' u h' hh => ?_⟩, .inr ⟨target, responder, x, rest, hc⟩⟩
    exact (congrArg (fun table => HandlerStorage.handler? table n n' u)
      (requestHandlers_sendPending ..)).trans hh
  case h_10 =>
    obtain rfl := Option.some.inj h
    exact ⟨⟨rfl, rfl, rfl, rfl, fun _ _ _ _ => id⟩, .inl ⟨rfl, rfl⟩⟩
  case h_11 =>
    split at h
    case h_1 => cases h
    case h_2 =>
      obtain rfl := Option.some.inj h
      exact ⟨⟨rfl, rfl, rfl, rfl, fun _ _ _ _ => id⟩, .inl ⟨rfl, rfl⟩⟩
  case h_12 =>
    obtain rfl := Option.some.inj h
    obtain ⟨hk, hsent, hstates⟩ := kept_join s i io _ _
    exact ⟨hk, .inl ⟨hsent, hstates⟩⟩
  case h_13 =>
    split at h
    all_goals
      obtain rfl := Option.some.inj h
      exact ⟨⟨rfl, rfl, rfl, rfl, fun _ _ _ _ => id⟩, .inl ⟨rfl, rfl⟩⟩

/-- What was sent is marked, and no request was sent twice. -/
structure SentOnce (s : ServiceThreads T) : Prop where
  marked : ∀ m ∈ s.sent, (s.rt.reqState m.reqUuid).requested = true
  once : ∀ u, s.sent.countP (·.reqUuid = u) ≤ 1

theorem SentOnce.of_same (hs : s.SentOnce) (hsent : t.sent = s.sent)
    (hmarks : ∀ u, (s.rt.reqState u).requested = true → (t.rt.reqState u).requested = true) :
    t.SentOnce where
  marked := by
    rw [hsent]
    exact fun m hm => hmarks _ (hs.marked m hm)
  once := by
    rw [hsent]
    exact hs.once

/-- A round sends what is not marked, and marks it. -/
theorem SentOnce.sending (hs : s.SentOnce) {i : ℕ} {io : SocketIo} {target : Target}
    {responder : ServicePublisherInfo} {x : ServiceRuntime.Pending T}
    {rest : List (ServiceRuntime.Pending T)}
    (hc : s.calls i = .sending target responder (x :: rest))
    (h : s.advance i io = some t) : t.SentOnce := by
  simp only [advance, hc] at h
  obtain rfl := Option.some.inj h
  have hcases := ServiceRuntime.sendPending_cases io responder target.topic target.reqType
    target.repType { self := s.rt } x
  by_cases hreq : (s.rt.reqState x.2.1).requested = true
  · have hsame : ServiceRuntime.sendPending io responder target.topic target.reqType
        target.repType { self := s.rt } x = { self := s.rt } := if_pos (.inl hreq)
    rw [hsame]
    exact hs.of_same (List.append_nil _) fun _ => id
  · have hnew : ∀ m ∈ s.sent, m.reqUuid ≠ x.2.1 := fun m hm hu => hreq (hu ▸ hs.marked m hm)
    rcases hcases with hsame | ⟨data, -, hsent⟩
    · rw [hsame]
      exact hs.of_same (List.append_nil _) fun _ => id
    · rw [hsent]
      refine ⟨fun m hm => ?_, fun u => ?_⟩
      · have hmark : ∀ u, (s.rt.reqState u).requested = true ∨ u = x.2.1 →
            ((s.rt.setReqState x.2.1 { s.rt.reqState x.2.1 with requested := true }).reqState
              u).requested = true := by
          intro u hu
          rw [ServiceRuntime.reqState_setReqState]
          split
          case isTrue => rfl
          case isFalse hne => exact hu.resolve_right hne
        rcases List.mem_append.mp hm with hm | hm
        · exact hmark _ (.inl (hs.marked m hm))
        · obtain rfl := List.mem_singleton.mp hm
          exact hmark _ (.inr rfl)
      · show (s.sent ++ [_]).countP _ ≤ 1
        rw [List.countP_append]
        by_cases hu : x.2.1 = u
        · have hzero : s.sent.countP (fun m => decide (m.reqUuid = u)) = 0 := by
            rw [List.countP_eq_zero]
            intro m hm
            simpa [hu] using hnew m hm
          rw [hzero, Nat.zero_add]
          exact List.countP_le_length
        · have hzero : [ServiceRuntime.frames responder target.topic target.reqType
              target.repType x data].countP (fun m => decide (m.reqUuid = u)) = 0 := by
            rw [List.countP_eq_zero]
            intro m hm
            obtain rfl := List.mem_singleton.mp hm
            exact fun hsame => hu (of_decide_eq_true hsame)
          rw [hzero, Nat.add_zero]
          exact hs.once u

/-- `notifyResult` leaves the mark alone. -/
theorem requested_notifyResult (h : ReqHandler T) (st : ReqState T) (rep : Str) (result : Bool) :
    (h.notifyResult st rep result).requested = st.requested := by
  simp only [ReqHandler.notifyResult]
  split <;> rfl

theorem SentOnce.next (hs : s.SentOnce) {a : Action T} (h : s.next a = some t) : t.SentOnce := by
  cases a with
  | request i topic nodeUuid handler =>
      simp only [ServiceThreads.next] at h
      split at h
      case h_1 =>
        split at h
        case isTrue => cases h
        case isFalse =>
          obtain rfl := Option.some.inj h
          exact hs.of_same rfl fun _ => id
      case h_2 => cases h
  | datagram i fromIp m now =>
      simp only [ServiceThreads.next] at h
      split at h
      case h_1 =>
        split at h
        case isTrue =>
          obtain rfl := Option.some.inj h
          exact hs
        case isFalse =>
          split at h
          case isTrue =>
            obtain rfl := Option.some.inj h
            exact hs.of_same rfl fun _ => id
          case isFalse =>
            obtain rfl := Option.some.inj h
            exact hs.of_same rfl fun _ => id
      case h_2 => cases h
  | advance i io =>
      rcases (kept_advance h).2 with ⟨hsent, hstates⟩ | ⟨target, responder, x, rest, hc⟩
      · refine hs.of_same hsent fun u hu => ?_
        simpa only [ServiceRuntime.reqState, hstates] using hu
      · exact hs.sending hc h
  | receive r =>
      simp only [ServiceThreads.next] at h
      split at h
      case h_1 => cases h
      case h_2 =>
        obtain rfl := Option.some.inj h
        exact hs.of_same rfl fun _ => id
  | takeBatch =>
      simp only [ServiceThreads.next] at h
      split at h
      case h_1 =>
        obtain rfl := Option.some.inj h
        exact hs.of_same rfl fun _ => id
      case h_2 => cases h
  | serve =>
      have hserve : s.serve = some t := h
      simp only [serve] at hserve
      split at hserve
      case h_1 => cases hserve
      case h_2 =>
        obtain rfl := Option.some.inj hserve
        exact hs.of_same rfl fun _ => id
      case h_3 =>
        split at hserve
        all_goals
          obtain rfl := Option.some.inj hserve
          exact hs.of_same rfl fun _ => id
      case h_4 r handler rest _ =>
        obtain rfl := Option.some.inj hserve
        refine hs.of_same rfl fun u hu => ?_
        rw [ServiceRuntime.reqState_setReqState]
        split
        case isTrue heq =>
          rw [requested_notifyResult, ← heq]
          exact hu
        case isFalse => exact hu
      case h_5 =>
        obtain rfl := Option.some.inj hserve
        exact hs.of_same rfl fun _ => id

/-! ## Answering -/

end ServiceThreads

/-- The call has the data and the result of a response that names the handler. -/
def Notification.Answers {T : Type} [ProtoTypes T] (n : Notification) (r : RemoteResponse)
    (x : Filed T) : Prop :=
  (r.topic = x.topic ∧ r.nodeUuid = x.nodeUuid ∧ r.reqUuid = x.handler.handlerUuid) ∧
    n = ⟨x.handler.handlerUuid, r.repData, decide (r.resultStr = str "1")⟩

namespace ServiceThreads

variable {T : Type} [ProtoTypes T] {s t : ServiceThreads T}

/-- The table has nothing under the names of the handler, or is about to have nothing. -/
def Gone (s : ServiceThreads T) (x : Filed T) : Prop :=
  s.rt.requestHandlers.handler? x.topic x.nodeUuid x.handler.handlerUuid = none ∨
    ∃ r rest, s.server = .removing r rest ∧ r.topic = x.topic ∧ r.nodeUuid = x.nodeUuid ∧
      r.reqUuid = x.handler.handlerUuid

/-- A handler is notified once, of a response that was received, and is gone then. -/
structure AnsweredOnce (s : ServiceThreads T) : Prop where
  queued : ∀ r ∈ s.responseQueue, r ∈ s.received
  taken : ∀ r ∈ s.server.batch, r ∈ s.received
  once : ∀ u, s.notified.countP (·.handlerUuid = u) ≤ 1
  genuine : ∀ n ∈ s.notified, ∃ x ∈ s.filed, ∃ r ∈ s.received, n.Answers r x
  gone : ∀ n ∈ s.notified, ∀ x ∈ s.filed, x.handler.handlerUuid = n.handlerUuid → s.Gone x
  current : ∀ r h rest, s.server = .notifying r h rest →
    s.rt.requestHandlers.handler? r.topic r.nodeUuid r.reqUuid = some h

/-- The service thread does nothing, and the responses that it has not taken stay. -/
theorem AnsweredOnce.calm (hs : s.AnsweredOnce) (hf : Frame s t) (hserver : t.server = s.server)
    (hnotified : t.notified = s.notified) (hqueued : ∀ r ∈ t.responseQueue, r ∈ t.received)
    (hreceived : ∀ r ∈ s.received, r ∈ t.received)
    (htable : ∀ n n' u h, s.rt.requestHandlers.handler? n n' u = some h →
      t.rt.requestHandlers.handler? n n' u = some h) : t.AnsweredOnce where
  queued := hqueued
  taken r hr := by
    rw [hserver] at hr
    exact hreceived r (hs.taken r hr)
  once := by
    rw [hnotified]
    exact hs.once
  genuine n hn := by
    rw [hnotified] at hn
    rw [hf.filed]
    obtain ⟨x, hx, r, hr, ha⟩ := hs.genuine n hn
    exact ⟨x, hx, r, hreceived r hr, ha⟩
  gone n hn x hx hu := by
    rw [hnotified] at hn
    rw [hf.filed] at hx
    rcases hs.gone n hn x hx hu with hnone | hremoving
    · left
      rw [Option.eq_none_iff_forall_ne_some] at hnone ⊢
      exact fun h hh => hnone h (hf.table _ _ _ _ hh)
    · right
      rwa [hserver]
  current r h rest hnotifying := by
    rw [hserver] at hnotifying
    exact htable _ _ _ _ (hs.current r h rest hnotifying)

/-- A handler that is added was not notified before. -/
theorem AnsweredOnce.adding (hs : s.AnsweredOnce) (ht : s.Tracked) {i : ℕ} {io : SocketIo}
    {topic nodeUuid : Str} {handler : ReqHandler T}
    (hc : s.calls i = .adding topic nodeUuid handler) (h : s.advance i io = some t) :
    t.AnsweredOnce := by
  have hk := (kept_advance h).1
  have hcarries : (s.calls i).carries = some handler := by rw [hc]; rfl
  obtain ⟨-, hnew, -⟩ := ht.carried i handler hcarries
  simp only [advance, hc] at h
  obtain rfl := Option.some.inj h
  refine ⟨hs.queued, hs.taken, hs.once, ?_, ?_, ?_⟩
  · intro n hn
    obtain ⟨x, hx, r, hr, ha⟩ := hs.genuine n hn
    exact ⟨x, List.mem_cons_of_mem _ hx, r, hr, ha⟩
  · intro n hn x hx hu
    obtain ⟨y, hy, r, hr, -, hn'⟩ := hs.genuine n hn
    have hyn : y.handler.handlerUuid = n.handlerUuid := by rw [hn']
    rcases List.mem_cons.mp hx with rfl | hx
    · exact absurd (hyn.trans hu.symm) (hnew y hy)
    · refine (hs.gone n hn x hx hu).imp_left fun hnone => ?_
      show HandlerStorage.handler? (s.rt.requestHandlers.addHandler ..) _ _ _ = none
      rw [HandlerStorage.handler?_addHandler, if_neg fun hsame => hnew x hx hsame.2.2.1]
      exact hnone
  · intro r h rest hnotifying
    exact hk.table _ _ _ _ (hs.current r h rest hnotifying)

/-- `notifyResult` is called for a handler that is in the table, so for the first time. -/
theorem AnsweredOnce.notifying (hs : s.AnsweredOnce) (ht : s.Tracked) {r : RemoteResponse}
    {h : ReqHandler T} {rest : List RemoteResponse} (hserver : s.server = .notifying r h rest)
    (hserve : s.serve = some t) : t.AnsweredOnce := by
  have htable := hs.current r h rest hserver
  obtain ⟨huuid, hfiled⟩ := ht.table _ _ _ _ htable
  have hfirst : ∀ n ∈ s.notified, n.handlerUuid ≠ h.handlerUuid := by
    intro n hn hu
    rcases hs.gone n hn _ hfiled hu.symm with hnone | ⟨r', rest', hremoving, -⟩
    · rw [huuid, htable] at hnone
      cases hnone
    · rw [hserver] at hremoving
      cases hremoving
  have hr : r ∈ s.received := hs.taken r (by rw [hserver]; exact List.mem_cons_self)
  simp only [serve, hserver] at hserve
  obtain rfl := Option.some.inj hserve
  refine ⟨hs.queued, ?_, ?_, ?_, ?_, fun _ _ _ h => by cases h⟩
  · intro r' hr'
    refine hs.taken r' ?_
    rw [hserver]
    exact hr'
  · intro u
    show List.countP _ (_ :: s.notified) ≤ 1
    rw [List.countP_cons]
    by_cases hu : h.handlerUuid = u
    · have hzero : s.notified.countP (fun n => decide (n.handlerUuid = u)) = 0 := by
        rw [List.countP_eq_zero]
        intro n hn hsame
        exact hfirst n hn ((of_decide_eq_true hsame).trans hu.symm)
      rw [hzero, if_pos (decide_eq_true hu)]
    · rw [if_neg fun hsame => hu (of_decide_eq_true hsame)]
      exact hs.once u
  · intro n hn
    rcases List.mem_cons.mp hn with rfl | hn
    · exact ⟨_, hfiled, r, hr, ⟨rfl, rfl, huuid.symm⟩, rfl⟩
    · exact hs.genuine n hn
  · intro n hn x hx hu
    rcases List.mem_cons.mp hn with rfl | hn
    · obtain rfl := ht.distinct x hx _ hfiled hu
      exact .inr ⟨r, rest, rfl, rfl, rfl, huuid.symm⟩
    · refine .inl ((hs.gone n hn x hx hu).resolve_right ?_)
      rintro ⟨r', rest', hremoving, -⟩
      rw [hserver] at hremoving
      cases hremoving

/-- The handler that was notified leaves the table. -/
theorem AnsweredOnce.removing (hs : s.AnsweredOnce) {r : RemoteResponse}
    {rest : List RemoteResponse} (hserver : s.server = .removing r rest)
    (hserve : s.serve = some t) : t.AnsweredOnce := by
  simp only [serve, hserver] at hserve
  obtain rfl := Option.some.inj hserve
  refine ⟨hs.queued, ?_, hs.once, hs.genuine, ?_, fun _ _ _ h => by cases h⟩
  · intro r' hr'
    refine hs.taken r' ?_
    rw [hserver]
    exact List.mem_cons_of_mem _ hr'
  · intro n hn x hx hu
    left
    rw [HandlerStorage.handler?_removeHandler]
    split
    case isTrue => rfl
    case isFalse hother =>
      refine (hs.gone n hn x hx hu).resolve_right ?_
      rintro ⟨r', rest', hremoving, ht', hn', hu'⟩
      rw [hserver] at hremoving
      cases hremoving
      exact hother ⟨ht'.symm, hn'.symm, hu'.symm⟩

/-- The service thread goes on without touching the table. -/
theorem AnsweredOnce.moved (hs : s.AnsweredOnce) {server : Server T}
    (hbatch : ∀ r ∈ server.batch, r ∈ s.received)
    (hremoving : ∀ r rest, s.server ≠ .removing r rest)
    (hcurrent : ∀ r h rest, server = .notifying r h rest →
      s.rt.requestHandlers.handler? r.topic r.nodeUuid r.reqUuid = some h) :
    AnsweredOnce { s with server := server } where
  queued := hs.queued
  taken := hbatch
  once := hs.once
  genuine := hs.genuine
  gone n hn x hx hu := by
    refine .inl ((hs.gone n hn x hx hu).resolve_right ?_)
    rintro ⟨r, rest, h, -⟩
    exact hremoving r rest h
  current := hcurrent

theorem AnsweredOnce.serve (hs : s.AnsweredOnce) (ht : s.Tracked) (h : s.serve = some t) :
    t.AnsweredOnce := by
  cases hserver : s.server with
  | waiting =>
      simp only [ServiceThreads.serve, hserver] at h
      cases h
  | handling batch =>
      have hmoved : ∀ r rest, s.server ≠ .removing r rest := by simp [hserver]
      cases batch with
      | nil =>
          simp only [ServiceThreads.serve, hserver] at h
          obtain rfl := Option.some.inj h
          exact hs.moved (fun _ h => by cases h) hmoved (fun _ _ _ h => by cases h)
      | cons r rest =>
          have hbatch : ∀ r' ∈ r :: rest, r' ∈ s.received := by
            intro r' hr'
            refine hs.taken r' ?_
            rw [hserver]
            exact hr'
          simp only [ServiceThreads.serve, hserver] at h
          split at h
          case h_1 =>
            obtain rfl := Option.some.inj h
            exact hs.moved (fun r' hr' => hbatch r' (List.mem_cons_of_mem _ hr')) hmoved
              (fun _ _ _ h => by cases h)
          case h_2 handler hhandler =>
            obtain rfl := Option.some.inj h
            refine hs.moved hbatch hmoved fun r' h' rest' hnotifying => ?_
            cases hnotifying
            rwa [HandlerStorage.getHandler_eq] at hhandler
  | notifying r handler rest => exact hs.notifying ht hserver h
  | removing r rest => exact hs.removing hserver h

/-- **One step of one of the threads.** -/
theorem AnsweredOnce.next (hs : s.AnsweredOnce) (ht : s.Tracked) {a : Action T}
    (h : s.next a = some t) : t.AnsweredOnce := by
  cases a with
  | request i topic nodeUuid handler =>
      simp only [ServiceThreads.next] at h
      split at h
      case h_1 =>
        split at h
        case isTrue => cases h
        case isFalse =>
          obtain rfl := Option.some.inj h
          exact ⟨hs.queued, hs.taken, hs.once, hs.genuine, hs.gone, hs.current⟩
      case h_2 => cases h
  | datagram i fromIp m now =>
      simp only [ServiceThreads.next] at h
      split at h
      case h_1 =>
        split at h
        case isTrue =>
          obtain rfl := Option.some.inj h
          exact hs
        case isFalse =>
          split at h
          all_goals
            obtain rfl := Option.some.inj h
            exact ⟨hs.queued, hs.taken, hs.once, hs.genuine, hs.gone, hs.current⟩
      case h_2 => cases h
  | advance i io =>
      rcases frame_advance h with ⟨topic, nodeUuid, handler, hc⟩ | hf
      · exact hs.adding ht hc h
      · have hk := (kept_advance h).1
        refine hs.calm hf hk.server hk.notified ?_ ?_ hk.table
        · rw [hk.responseQueue, hk.received]
          exact hs.queued
        · rw [hk.received]
          exact fun _ => id
  | receive r =>
      simp only [ServiceThreads.next] at h
      split at h
      case h_1 => cases h
      case h_2 =>
        obtain rfl := Option.some.inj h
        refine hs.calm ⟨rfl, rfl, fun _ _ _ _ => id, fun _ _ => id⟩ rfl rfl ?_
          (fun _ hr => List.mem_cons_of_mem _ hr) fun _ _ _ _ => id
        intro r' hr'
        rcases List.mem_append.mp hr' with hr' | hr'
        · exact List.mem_cons_of_mem _ (hs.queued r' hr')
        · obtain rfl := List.mem_singleton.mp hr'
          exact List.mem_cons_self
  | takeBatch =>
      simp only [ServiceThreads.next] at h
      split at h
      case h_1 hserver =>
        obtain rfl := Option.some.inj h
        have hmoved : AnsweredOnce { s with server := .handling s.responseQueue } :=
          hs.moved hs.queued (by simp [hserver]) (fun _ _ _ h => by cases h)
        exact ⟨(fun _ h => by cases h), hmoved.taken, hmoved.once, hmoved.genuine, hmoved.gone,
          hmoved.current⟩
      case h_2 => cases h
  | serve => exact hs.serve ht h

/-- **Requests are sent and answered at most once, and answers are not mixed up.** -/
theorem sent_and_answered_once
    (processUuid processName hostAddr replierUuid replierAddress : Str) (run : List (Action T))
    (h : exec next (start processUuid processName hostAddr replierUuid replierAddress) run = some s)
    (x : Filed T) (hx : x ∈ s.filed) :
    s.sent.countP (·.reqUuid = x.handler.handlerUuid) ≤ 1 ∧
      s.notified.countP (·.handlerUuid = x.handler.handlerUuid) ≤ 1 ∧
      ∀ n ∈ s.notified, n.handlerUuid = x.handler.handlerUuid →
        ∃ r ∈ s.received, n.Answers r x := by
  have hinv : s.Tracked ∧ s.SentOnce ∧ s.AnsweredOnce :=
    stable (P := fun s => s.Tracked ∧ s.SentOnce ∧ s.AnsweredOnce)
      (fun _ _ _ hs h => ⟨hs.1.next h, hs.2.1.next h, hs.2.2.next hs.1 h⟩)
      ⟨tracked_start .., ⟨nofun, fun _ => Nat.zero_le 1⟩,
        ⟨nofun, nofun, fun _ => Nat.zero_le 1, nofun, nofun, nofun⟩⟩ h
  obtain ⟨htracked, hsent, hanswered⟩ := hinv
  refine ⟨hsent.once _, hanswered.once _, fun n hn hu => ?_⟩
  obtain ⟨y, hy, r, hr, ha⟩ := hanswered.genuine n hn
  have hyn : y.handler.handlerUuid = n.handlerUuid := by rw [ha.2]
  obtain rfl := htracked.distinct y hy x hx (hyn.trans hu)
  exact ⟨r, hr, ha⟩

/-! ## A response that comes twice -/

/-- A response to the request with the given uuid. -/
def responseTo (reqUuid : Str) (result : String) : RemoteResponse :=
  ⟨str "s", str "n", reqUuid, [], str result⟩

/-- The responder answers an unknown request and answers q three times, twice in one batch. -/
def answering : List (Action EmptyOnly) :=
  crossing ++ [.receive (responseTo (str "z") "1"), .receive (responseTo (str "q") "1"),
    .receive (responseTo (str "q") "0"), .takeBatch, .receive (responseTo (str "q") "1")] ++
    List.replicate 6 .serve ++ [.takeBatch, .serve, .serve]

/-- The state in which the example run ends. -/
def answered : ServiceThreads EmptyOnly := (exec next exampleStart answering).getD exampleStart

theorem sent_and_answered_once_duplicate :
    answered.sent.countP (·.reqUuid = str "q") ≤ 1 ∧
      answered.notified.countP (·.handlerUuid = str "q") ≤ 1 ∧
      ∀ n ∈ answered.notified, n.handlerUuid = str "q" →
        ∃ r ∈ answered.received, n.Answers r ⟨str "s", str "n", exampleRequest⟩ :=
  sent_and_answered_once (str "4a") [] (str "10.0.0.1") (str "r") (str "tcp://r") answering
    (s := answered) rfl ⟨str "s", str "n", exampleRequest⟩ List.mem_cons_self

end ServiceThreads
end RfTrans
