import RfTrans.Discovery.Runs
import RfTrans.Service.Answers

/-!
# What a process sends and takes in

The frames that go out are those of handlers that were filed, and a response that came in is
dealt with by the time the service thread has done with its batch.  Besides `request` and the
ADVERTISEs of others there are the other uses of the discovery instance, which end in the same
callbacks.

## Main definitions

* `RequestFrames.Carries` — the request of a handler.
* `ServiceThreads.discovery` — a use of the discovery instance, with its callbacks.
* `ServiceThreads.SentFiled`, `ServiceThreads.Served`
-/

namespace RfTrans

variable {T : Type} [ProtoTypes T]

/-- The frames are those of the request of a handler. -/
structure RequestFrames.Carries (m : RequestFrames) (x : Filed T) : Prop where
  topic : m.topic = x.topic
  nodeUuid : m.nodeUuid = x.nodeUuid
  reqUuid : m.reqUuid = x.handler.handlerUuid
  reqData : x.handler.serialize = some m.reqData
  reqType : m.reqType = x.handler.getReqTypeName
  repType : m.repType = x.handler.getRepTypeName

/-- The response names the handler. -/
def RemoteResponse.Names (r : RemoteResponse) (x : Filed T) : Prop :=
  r.topic = x.topic ∧ r.nodeUuid = x.nodeUuid ∧ r.reqUuid = x.handler.handlerUuid

/-- A round of the loop sends nothing, or the request of its handler. -/
theorem ServiceRuntime.sent_sendPending (io : SocketIo) (responder : ServicePublisherInfo)
    (topic reqType repType : Str) (rt : ServiceRuntime T) {x : Pending T}
    (huuid : x.2.2.handlerUuid = x.2.1) :
    (sendPending io responder topic reqType repType { self := rt } x).sent = [] ∨
      ∃ m : RequestFrames,
        (sendPending io responder topic reqType repType { self := rt } x).sent = [m] ∧
          m.socketId = responder.socketId ∧ m.Carries (⟨topic, x.1, x.2.2⟩ : Filed T) := by
  simp only [sendPending]
  split
  case isTrue => exact .inl rfl
  case isFalse hpass =>
    have hreq : x.2.2.getReqTypeName = reqType := by
      by_contra hne
      exact hpass (.inr (.inl hne))
    have hrep : x.2.2.getRepTypeName = repType := by
      by_contra hne
      exact hpass (.inr (.inr hne))
    cases hdata : x.2.2.serialize with
    | none => exact .inl rfl
    | some data =>
        by_cases hsend : io.send responder.socketId = true
        · right
          simp only [if_pos hsend]
          exact ⟨_, rfl, rfl, rfl, rfl, huuid.symm, hdata, hreq.symm, hrep.symm⟩
        · left
          simp only [if_neg hsend]

/-- A call is in the loop of `sendPendingRequests`. -/
def Call.isSending : Call T → Bool
  | .sending _ _ _ => true
  | _ => false

namespace ServiceThreads

variable {s t : ServiceThreads T}

/-! ## The steps of a call -/

/-- What a step of a call does: it goes on elsewhere, it enters the loop, or it makes a round. -/
inductive Advanced (s t : ServiceThreads T) (i : ℕ) (io : SocketIo) : Prop
  | other (c : Call T) (calls : t.calls = Function.update s.calls i c)
      (sent : t.sent = s.sent) (sending : c.isSending = false)
  | enter (target : Target) (responder : ServicePublisherInfo)
      (handlers : StrMap (StrMap (ReqHandler T)))
      (found : s.rt.requestHandlers.getHandlers target.topic = some handlers)
      (calls : t.calls = Function.update s.calls i
        (.sending target responder (ServiceRuntime.pendingOf handlers)))
      (sent : t.sent = s.sent)
  | round (target : Target) (responder : ServicePublisherInfo) (x : ServiceRuntime.Pending T)
      (rest : List (ServiceRuntime.Pending T))
      (call : s.calls i = .sending target responder (x :: rest))
      (calls : t.calls = Function.update s.calls i (.sending target responder rest))
      (sent : t.sent = s.sent ++ (ServiceRuntime.sendPending io responder target.topic
        target.reqType target.repType { self := s.rt } x).sent)

theorem advanced_join {i : ℕ} {io : SocketIo} {addr : Str} {c : Call T}
    (hc : c.isSending = false) : Advanced s (s.join i io addr c) i io := by
  simp only [join]
  split
  case isTrue => exact .other c rfl rfl hc
  case isFalse =>
    split
    case isTrue => exact .other c rfl rfl hc
    case isFalse => exact .other .idle rfl rfl rfl

/-- **One step of a call**, with what it files. -/
theorem advanced {i : ℕ} {io : SocketIo} (h : s.advance i io = some t) :
    Advanced s t i io ∧ ∀ x ∈ s.filed, x ∈ t.filed := by
  have hfiled : ∀ x ∈ s.filed, x ∈ t.filed := by
    rcases frame_advance h with ⟨topic, nodeUuid, handler, hc⟩ | hf
    · simp only [advance, hc] at h
      obtain rfl := Option.some.inj h
      exact fun x hx => List.mem_cons_of_mem _ hx
    · rw [hf.filed]
      exact fun x => id
  refine ⟨?_, hfiled⟩
  cases hc : s.calls i with
  | idle =>
      simp only [advance, hc] at h
      cases h
  | checking topic nodeUuid handler =>
      simp only [advance, hc] at h
      split at h
      all_goals
        obtain rfl := Option.some.inj h
        exact .other _ rfl rfl rfl
  | adding topic nodeUuid handler =>
      simp only [advance, hc] at h
      obtain rfl := Option.some.inj h
      exact .other _ rfl rfl rfl
  | reading target locked =>
      simp only [advance, hc] at h
      split at h
      case h_1 =>
        obtain rfl := Option.some.inj h
        cases locked with
        | true => exact .other .idle rfl rfl rfl
        | false => exact .other .idle rfl rfl rfl
      case h_2 =>
        obtain rfl := Option.some.inj h
        cases locked with
        | true => exact .other _ rfl rfl rfl
        | false => exact .other _ rfl rfl rfl
  | locking target responder =>
      simp only [advance, hc] at h
      split at h
      case h_1 => cases h
      case h_2 =>
        obtain rfl := Option.some.inj h
        exact .other _ rfl rfl rfl
  | connecting target responder =>
      simp only [advance, hc] at h
      obtain rfl := Option.some.inj h
      exact advanced_join rfl
  | scanning target responder =>
      simp only [advance, hc] at h
      split at h
      case h_1 =>
        obtain rfl := Option.some.inj h
        exact .other .idle rfl rfl rfl
      case h_2 handlers hfound =>
        obtain rfl := Option.some.inj h
        exact .enter target responder handlers hfound rfl rfl
  | sending target responder rest =>
      cases rest with
      | nil =>
          simp only [advance, hc] at h
          obtain rfl := Option.some.inj h
          exact .other .idle rfl rfl rfl
      | cons x rest =>
          simp only [advance, hc] at h
          obtain rfl := Option.some.inj h
          exact .round target responder x rest hc rfl rfl
  | arrived pub =>
      simp only [advance, hc] at h
      obtain rfl := Option.some.inj h
      refine .other _ rfl rfl ?_
      split <;> rfl
  | connected pub =>
      simp only [advance, hc] at h
      split at h
      case h_1 => cases h
      case h_2 =>
        obtain rfl := Option.some.inj h
        exact .other _ rfl rfl rfl
  | joining pub =>
      simp only [advance, hc] at h
      obtain rfl := Option.some.inj h
      exact advanced_join rfl
  | seeking pub =>
      simp only [advance, hc] at h
      split at h
      case h_1 =>
        obtain rfl := Option.some.inj h
        exact .other .idle rfl rfl rfl
      case h_2 =>
        obtain rfl := Option.some.inj h
        exact .other _ rfl rfl rfl

/-! ## Other uses of the discovery instance -/

/-- The callback waits for `mutex_`. -/
def isDisconnection : Callback ServicePublisherInfo → Bool
  | .disconnection _ => true
  | _ => false

/-- A callback of the discovery instance, in a thread whose call goes on with it. -/
def onCallback (i : ℕ) (s : ServiceThreads T) :
    Callback ServicePublisherInfo → ServiceThreads T
  | .connection pub => s.goto i (.connected pub)
  | .disconnection pub => { s with rt := s.rt.onServiceDisconnected pub }
  | .registration _ | .unregistration _ => s

/-- A thread uses the discovery instance: `advertise` and `unadvertise`, a datagram, a
heartbeat, an activity check.  Nothing calls `discover`. -/
def discovery (s : ServiceThreads T) (i : ℕ) (a : Discovery.Action ServicePublisherInfo) :
    Option (ServiceThreads T) :=
  match s.calls i, a with
  | .idle, .discover _ => none
  | .idle, a =>
    let o := s.rt.discovery.perform a
    if s.mutex.isSome ∧ o.calls.any isDisconnection then none
    else some (o.calls.foldl (onCallback i) { s with rt.discovery := o.self })
  | _, _ => none

/-- A call of the discovery instance leaves the requests and the responses alone. -/
theorem discovery_eq {i : ℕ} {a : Discovery.Action ServicePublisherInfo}
    (h : s.discovery i a = some t) :
    ∃ d connections c, Call.carries c = none ∧ Call.isSending c = false ∧
      t = { s with
        rt := { s.rt with discovery := d, requesterConnections := connections }
        calls := Function.update s.calls i c } := by
  have hfold : ∀ (calls : List (Callback ServicePublisherInfo)) (s : ServiceThreads T),
      Call.carries (s.calls i) = none → Call.isSending (s.calls i) = false →
      ∃ connections c, Call.carries c = none ∧ Call.isSending c = false ∧
        calls.foldl (onCallback i) s = { s with
          rt.requesterConnections := connections
          calls := Function.update s.calls i c } := by
    intro calls
    induction calls with
    | nil =>
        intro s hcarries hsending
        exact ⟨s.rt.requesterConnections, s.calls i, hcarries, hsending, by simp⟩
    | cons callback calls ih =>
        intro s hcarries hsending
        cases callback with
        | connection pub =>
            obtain ⟨connections, c, hc, hs, heq⟩ := ih (s.goto i (.connected pub))
              (by rw [calls_goto_self]; rfl) (by rw [calls_goto_self]; rfl)
            refine ⟨connections, c, hc, hs, ?_⟩
            rw [List.foldl_cons, onCallback, heq]
            simp [goto]
        | disconnection pub =>
            obtain ⟨connections, c, hc, hs, heq⟩ :=
              ih { s with rt := s.rt.onServiceDisconnected pub } hcarries hsending
            refine ⟨connections, c, hc, hs, ?_⟩
            rw [List.foldl_cons, onCallback, heq]
            rfl
        | registration pub => exact ih s hcarries hsending
        | unregistration pub => exact ih s hcarries hsending
  simp only [discovery] at h
  split at h
  case h_1 => cases h
  case h_2 b _ _ hidle _ =>
    split at h
    case isTrue => cases h
    case isFalse =>
      obtain rfl := Option.some.inj h
      obtain ⟨connections, c, hc, hs, heq⟩ := hfold (s.rt.discovery.perform b).calls
        { s with rt.discovery := (s.rt.discovery.perform b).self }
        (by simp [hidle, Call.carries]) (by simp [hidle, Call.isSending])
      exact ⟨_, connections, c, hc, hs, heq⟩
  case h_3 => cases h

/-! ## What is sent -/

/-- What is sent, or about to be sent, are requests of handlers that were filed. -/
structure SentFiled (s : ServiceThreads T) : Prop where
  pending : ∀ i target responder rest, s.calls i = .sending target responder rest →
    ∀ x ∈ rest, x.2.2.handlerUuid = x.2.1 ∧ ⟨target.topic, x.1, x.2.2⟩ ∈ s.filed
  sent : ∀ m ∈ s.sent, ∃ x ∈ s.filed, m.Carries x

/-- A call goes on elsewhere. -/
theorem SentFiled.update (hs : s.SentFiled) {i : ℕ} {c : Call T}
    (hcalls : t.calls = Function.update s.calls i c) (hfiled : ∀ x ∈ s.filed, x ∈ t.filed)
    (hc : ∀ target responder rest, c = .sending target responder rest →
      ∀ x ∈ rest, x.2.2.handlerUuid = x.2.1 ∧ ⟨target.topic, x.1, x.2.2⟩ ∈ s.filed)
    (hsent : ∀ m ∈ t.sent, m ∈ s.sent ∨ ∃ x ∈ s.filed, m.Carries x) : t.SentFiled where
  pending j target responder rest hj x hx := by
    rw [hcalls] at hj
    by_cases hji : j = i
    · subst hji
      rw [Function.update_self] at hj
      have hpending := hc target responder rest hj x hx
      exact ⟨hpending.1, hfiled _ hpending.2⟩
    · rw [Function.update_of_ne hji] at hj
      have hpending := hs.pending j target responder rest hj x hx
      exact ⟨hpending.1, hfiled _ hpending.2⟩
  sent m hm := by
    rcases hsent m hm with hm | ⟨x, hx, hcarries⟩
    · obtain ⟨x, hx, hcarries⟩ := hs.sent m hm
      exact ⟨x, hfiled x hx, hcarries⟩
    · exact ⟨x, hfiled x hx, hcarries⟩

theorem SentFiled.advance (hs : s.SentFiled) (ht : s.Tracked) {i : ℕ} {io : SocketIo}
    (h : s.advance i io = some t) : t.SentFiled := by
  obtain ⟨hstep, hfiled⟩ := advanced h
  cases hstep with
  | other c calls sent sending =>
      refine hs.update calls hfiled ?_ fun m hm => .inl (sent ▸ hm)
      rintro target responder rest rfl
      cases sending
  | enter target responder handlers found calls sent =>
      refine hs.update calls hfiled ?_ fun m hm => .inl (sent ▸ hm)
      intro target' responder' rest hrest x hx
      cases hrest
      exact ht.table _ _ _ _ ((ServiceRuntime.mem_pendingOf s.rt target.topic x found).mp hx)
  | round target responder x rest call calls sent =>
      have hpending := hs.pending i target responder (x :: rest) call
      refine hs.update calls hfiled ?_ ?_
      · intro target' responder' rest' hrest y hy
        cases hrest
        exact hpending y (List.mem_cons_of_mem _ hy)
      · intro m hm
        obtain ⟨huuid, hx⟩ := hpending x List.mem_cons_self
        rw [sent, List.mem_append] at hm
        refine hm.imp_right fun hm => ?_
        rcases ServiceRuntime.sent_sendPending io responder target.topic target.reqType
          target.repType s.rt huuid with hnil | ⟨m', hone, -, hcarries⟩
        · rw [hnil] at hm
          cases hm
        · rw [hone, List.mem_singleton] at hm
          exact ⟨_, hx, hm ▸ hcarries⟩

/-- A step leaves what was filed and what was sent, and takes in what `receiveResponse` reads. -/
theorem grows {a : Action T} (h : s.next a = some t) :
    (∀ x ∈ s.filed, x ∈ t.filed) ∧ (∃ new, t.sent = s.sent ++ new) ∧
      (t.received = s.received ∨ ∃ r, a = .receive r ∧ t.received = r :: s.received) := by
  have hsame : ∀ t : ServiceThreads T, t.filed = s.filed → t.sent = s.sent →
      t.received = s.received → (∀ x ∈ s.filed, x ∈ t.filed) ∧ (∃ new, t.sent = s.sent ++ new) ∧
        (t.received = s.received ∨ ∃ r, a = .receive r ∧ t.received = r :: s.received) := by
    intro t hfiled hsent hreceived
    rw [hfiled, hsent]
    exact ⟨fun x => id, ⟨[], (List.append_nil _).symm⟩, .inl hreceived⟩
  cases a with
  | request i topic nodeUuid handler =>
      simp only [next] at h
      split at h
      case h_1 =>
        split at h
        case isTrue => cases h
        case isFalse =>
          obtain rfl := Option.some.inj h
          exact hsame _ rfl rfl rfl
      case h_2 => cases h
  | datagram i fromIp m now =>
      simp only [next] at h
      split at h
      case h_1 =>
        split at h
        case isTrue =>
          obtain rfl := Option.some.inj h
          exact hsame _ rfl rfl rfl
        case isFalse =>
          split at h
          all_goals
            obtain rfl := Option.some.inj h
            exact hsame _ rfl rfl rfl
      case h_2 => cases h
  | advance i io =>
      obtain ⟨hstep, hfiled⟩ := advanced h
      refine ⟨hfiled, ?_, .inl (kept_advance h).1.received⟩
      cases hstep with
      | other c calls sent sending => exact ⟨[], sent.trans (List.append_nil _).symm⟩
      | enter target responder handlers found calls sent =>
          exact ⟨[], sent.trans (List.append_nil _).symm⟩
      | round target responder x rest call calls sent => exact ⟨_, sent⟩
  | receive r =>
      simp only [next] at h
      split at h
      case h_1 => cases h
      case h_2 =>
        obtain rfl := Option.some.inj h
        exact ⟨fun x => id, ⟨[], (List.append_nil _).symm⟩, .inr ⟨r, rfl, rfl⟩⟩
  | takeBatch =>
      simp only [next] at h
      split at h
      case h_1 =>
        obtain rfl := Option.some.inj h
        exact hsame _ rfl rfl rfl
      case h_2 => cases h
  | serve =>
      simp only [next, serve] at h
      split at h
      case h_1 => cases h
      case h_3 =>
        split at h
        all_goals
          obtain rfl := Option.some.inj h
          exact hsame _ rfl rfl rfl
      all_goals
        obtain rfl := Option.some.inj h
        exact hsame _ rfl rfl rfl

/-- The service thread and the receive thread leave the calls alone. -/
theorem unsent_serve (h : s.serve = some t) :
    t.calls = s.calls ∧ t.filed = s.filed ∧ t.sent = s.sent := by
  simp only [serve] at h
  split at h
  case h_1 => cases h
  case h_2 =>
    obtain rfl := Option.some.inj h
    exact ⟨rfl, rfl, rfl⟩
  case h_3 =>
    split at h
    all_goals
      obtain rfl := Option.some.inj h
      exact ⟨rfl, rfl, rfl⟩
  case h_4 =>
    obtain rfl := Option.some.inj h
    exact ⟨rfl, rfl, rfl⟩
  case h_5 =>
    obtain rfl := Option.some.inj h
    exact ⟨rfl, rfl, rfl⟩

theorem SentFiled.of_same (hs : s.SentFiled) (hcalls : t.calls = s.calls)
    (hfiled : t.filed = s.filed) (hsent : t.sent = s.sent) : t.SentFiled where
  pending := by
    rw [hcalls, hfiled]
    exact hs.pending
  sent := by
    rw [hsent, hfiled]
    exact hs.sent

/-- A call goes to a place outside the loop. -/
theorem SentFiled.elsewhere (hs : s.SentFiled) {i : ℕ} {c : Call T}
    (hcalls : t.calls = Function.update s.calls i c) (hc : c.isSending = false)
    (hfiled : t.filed = s.filed) (hsent : t.sent = s.sent) : t.SentFiled := by
  refine hs.update hcalls (fun x hx => hfiled ▸ hx) ?_ fun m hm => .inl (hsent ▸ hm)
  rintro target responder rest rfl
  cases hc

theorem SentFiled.next (hs : s.SentFiled) (ht : s.Tracked) {a : Action T}
    (h : s.next a = some t) : t.SentFiled := by
  cases a with
  | request i topic nodeUuid handler =>
      simp only [ServiceThreads.next] at h
      split at h
      case h_1 =>
        split at h
        case isTrue => cases h
        case isFalse =>
          obtain rfl := Option.some.inj h
          exact hs.elsewhere (c := .checking topic nodeUuid handler) rfl rfl rfl rfl
      case h_2 => cases h
  | datagram i fromIp m now =>
      simp only [ServiceThreads.next] at h
      split at h
      case h_1 =>
        split at h
        case isTrue =>
          obtain rfl := Option.some.inj h
          exact hs
        case isFalse =>
          split at h
          case isTrue =>
            obtain rfl := Option.some.inj h
            exact hs.of_same rfl rfl rfl
          case isFalse =>
            obtain rfl := Option.some.inj h
            exact hs.elsewhere rfl rfl rfl rfl
      case h_2 => cases h
  | advance i io => exact hs.advance ht h
  | receive r =>
      simp only [ServiceThreads.next] at h
      split at h
      case h_1 => cases h
      case h_2 =>
        obtain rfl := Option.some.inj h
        exact hs.of_same rfl rfl rfl
  | takeBatch =>
      simp only [ServiceThreads.next] at h
      split at h
      case h_1 =>
        obtain rfl := Option.some.inj h
        exact hs.of_same rfl rfl rfl
      case h_2 => cases h
  | serve =>
      obtain ⟨hcalls, hfiled, hsent⟩ := unsent_serve h
      exact hs.of_same hcalls hfiled hsent

/-! ## The invariants together -/

/-- The invariants of requests. -/
structure Orderly (s : ServiceThreads T) : Prop where
  tracked : s.Tracked
  sentOnce : s.SentOnce
  answeredOnce : s.AnsweredOnce
  sentFiled : s.SentFiled

theorem Orderly.next (hs : s.Orderly) {a : Action T} (h : s.next a = some t) : t.Orderly where
  tracked := hs.tracked.next h
  sentOnce := hs.sentOnce.next h
  answeredOnce := hs.answeredOnce.next hs.tracked h
  sentFiled := hs.sentFiled.next hs.tracked h

/-- The tables of responders and publishers and the connections are no part of them, and a call
may begin with a callback. -/
theorem Orderly.beside (hs : s.Orderly) (d : Discovery ServicePublisherInfo)
    (connections : List Str) (handlers : HandlerStorage (RepHandler T)) {i : ℕ} {c : Call T}
    (hcarries : c.carries = none) (hsending : c.isSending = false) :
    Orderly { s with
      rt := { s.rt with
        discovery := d, requesterConnections := connections, responseHandlers := handlers }
      calls := Function.update s.calls i c } where
  tracked := hs.tracked.frame (Frame.of_empty rfl rfl rfl rfl hcarries)
  sentOnce := hs.sentOnce.of_same rfl fun _ => id
  answeredOnce := hs.answeredOnce.calm (Frame.of_empty rfl rfl rfl rfl hcarries) rfl rfl
    hs.answeredOnce.queued (fun _ => id) fun _ _ _ _ => id
  sentFiled := hs.sentFiled.elsewhere rfl hsending rfl rfl

theorem Orderly.discovery (hs : s.Orderly) {i : ℕ} {a : Discovery.Action ServicePublisherInfo}
    (h : s.discovery i a = some t) : t.Orderly := by
  obtain ⟨d, connections, c, hcarries, hsending, rfl⟩ := discovery_eq h
  exact hs.beside d connections s.rt.responseHandlers hcarries hsending

theorem Orderly.responders (hs : s.Orderly) (handlers : HandlerStorage (RepHandler T)) :
    Orderly { s with rt.responseHandlers := handlers } where
  tracked := hs.tracked.frame ⟨rfl, rfl, fun _ _ _ _ => id, fun _ _ => id⟩
  sentOnce := hs.sentOnce.of_same rfl fun _ => id
  answeredOnce := hs.answeredOnce.calm ⟨rfl, rfl, fun _ _ _ _ => id, fun _ _ => id⟩ rfl rfl
    hs.answeredOnce.queued (fun _ => id) fun _ _ _ _ => id
  sentFiled := hs.sentFiled.of_same rfl rfl rfl

theorem orderly_start (processUuid processName hostAddr replierUuid replierAddress : Str) :
    (start processUuid processName hostAddr replierUuid replierAddress :
      ServiceThreads T).Orderly where
  tracked := tracked_start ..
  sentOnce := ⟨nofun, fun _ => Nat.zero_le 1⟩
  answeredOnce := ⟨nofun, nofun, fun _ => Nat.zero_le 1, nofun, nofun, nofun⟩
  sentFiled := ⟨nofun, nofun⟩

/-! ## What is taken in -/

/-- A handler was notified. -/
def Notified (s : ServiceThreads T) (u : Str) : Prop := ∃ n ∈ s.notified, n.handlerUuid = u

/-- A filed handler waits in the table until it is notified, and a response that came in waits
until its handler was notified. -/
structure Served (s : ServiceThreads T) : Prop where
  table : ∀ x ∈ s.filed,
    s.rt.requestHandlers.handler? x.topic x.nodeUuid x.handler.handlerUuid = some x.handler ∨
      s.Notified x.handler.handlerUuid
  received : ∀ r ∈ s.received,
    r ∈ s.responseQueue ∨ r ∈ s.server.batch ∨ s.Notified r.reqUuid
  removing : ∀ r rest, s.server = .removing r rest → s.Notified r.reqUuid

/-- The service thread does nothing, and what was in the table stays there. -/
theorem Served.kept (hs : s.Served) (hk : Kept s t)
    (hfiled : ∀ x ∈ t.filed, x ∈ s.filed ∨
      t.rt.requestHandlers.handler? x.topic x.nodeUuid x.handler.handlerUuid = some x.handler) :
    t.Served where
  table x hx := by
    rcases hfiled x hx with hx | htable
    · rcases hs.table x hx with htable | ⟨n, hn, hu⟩
      · exact .inl (hk.table _ _ _ _ htable)
      · exact .inr ⟨n, hk.notified ▸ hn, hu⟩
    · exact .inl htable
  received r hr := by
    rw [hk.received] at hr
    rw [hk.responseQueue, hk.server]
    refine (hs.received r hr).imp_right (Or.imp_right ?_)
    rintro ⟨n, hn, hu⟩
    exact ⟨n, hk.notified ▸ hn, hu⟩
  removing r rest hr := by
    obtain ⟨n, hn, hu⟩ := hs.removing r rest (hk.server ▸ hr)
    exact ⟨n, hk.notified ▸ hn, hu⟩

/-- A new handler is in the table. -/
theorem Served.adding (hs : s.Served) (ht : s.Tracked) {i : ℕ} {io : SocketIo}
    {topic nodeUuid : Str} {handler : ReqHandler T}
    (hc : s.calls i = .adding topic nodeUuid handler) (h : s.advance i io = some t) :
    t.Served := by
  have hk := (kept_advance h).1
  have hcarries : (s.calls i).carries = some handler := by rw [hc]; rfl
  obtain ⟨-, hnew, -⟩ := ht.carried i handler hcarries
  have habsent : s.rt.requestHandlers.handler? topic nodeUuid handler.handlerUuid = none := by
    rw [Option.eq_none_iff_forall_ne_some]
    intro h hh
    obtain ⟨huuid, hfiled⟩ := ht.table _ _ _ _ hh
    exact hnew _ hfiled huuid
  refine hs.kept hk ?_
  simp only [advance, hc] at h
  obtain rfl := Option.some.inj h
  intro x hx
  rcases List.mem_cons.mp hx with rfl | hx
  · right
    show HandlerStorage.handler? (s.rt.requestHandlers.addHandler ..) _ _ _ = _
    rw [HandlerStorage.handler?_addHandler, if_pos ⟨rfl, rfl, rfl, habsent⟩]
  · exact .inl hx

/-- The service thread looks up the handler of a response. -/
theorem Served.looked (hs : s.Served) {r : RemoteResponse} {rest : List RemoteResponse}
    (hserver : s.server = .handling (r :: rest)) (hnames : ∃ x ∈ s.filed, r.Names x)
    (h : s.serve = some t) : t.Served := by
  simp only [serve, hserver] at h
  split at h
  case h_1 hnone =>
    obtain rfl := Option.some.inj h
    -- a filed handler that is not in the table was notified
    have hdone : s.Notified r.reqUuid := by
      obtain ⟨x, hx, htopic, hnode, huuid⟩ := hnames
      rw [HandlerStorage.getHandler_eq, htopic, hnode, huuid] at hnone
      rcases hs.table x hx with htable | hnotified
      · rw [hnone] at htable
        cases htable
      · exact huuid ▸ hnotified
    refine ⟨hs.table, fun r' hr' => ?_, fun _ _ h => by cases h⟩
    rcases hs.received r' hr' with hq | hb | hn
    · exact .inl hq
    · rw [hserver] at hb
      rcases List.mem_cons.mp hb with rfl | hb
      · exact .inr (.inr hdone)
      · exact .inr (.inl hb)
    · exact .inr (.inr hn)
  case h_2 handler _ =>
    obtain rfl := Option.some.inj h
    refine ⟨hs.table, fun r' hr' => ?_, fun _ _ h => by cases h⟩
    refine (hs.received r' hr').imp_right (Or.imp_left fun hb => ?_)
    rw [hserver] at hb
    exact hb

theorem Served.serve (hs : s.Served) (ht : s.Tracked) (ha : s.AnsweredOnce)
    (hnames : ∀ r ∈ s.received, ∃ x ∈ s.filed, r.Names x) (h : s.serve = some t) : t.Served := by
  cases hserver : s.server with
  | waiting =>
      simp only [ServiceThreads.serve, hserver] at h
      cases h
  | handling batch =>
      cases batch with
      | nil =>
          simp only [ServiceThreads.serve, hserver] at h
          obtain rfl := Option.some.inj h
          refine ⟨hs.table, fun r hr => ?_, fun _ _ h => by cases h⟩
          refine (hs.received r hr).imp_right (Or.imp_left fun hb => ?_)
          rw [hserver] at hb
          exact hb
      | cons r rest =>
          have hr : r ∈ s.received := ha.taken r (by rw [hserver]; exact List.mem_cons_self)
          exact hs.looked hserver (hnames r hr) h
  | notifying r handler rest =>
      have hcurrent := ha.current r handler rest hserver
      have huuid := (ht.table _ _ _ _ hcurrent).1
      simp only [ServiceThreads.serve, hserver] at h
      obtain rfl := Option.some.inj h
      refine ⟨fun x hx => ?_, fun r' hr' => ?_, fun r' rest' hremoving => ?_⟩
      · refine (hs.table x hx).imp_right fun hnotified => ?_
        obtain ⟨n, hn, hu⟩ := hnotified
        exact ⟨n, List.mem_cons_of_mem _ hn, hu⟩
      · rcases hs.received r' hr' with hq | hb | ⟨n, hn, hu⟩
        · exact .inl hq
        · rw [hserver] at hb
          exact .inr (.inl hb)
        · exact .inr (.inr ⟨n, List.mem_cons_of_mem _ hn, hu⟩)
      · cases hremoving
        exact ⟨_, List.mem_cons_self, huuid⟩
  | removing r rest =>
      have hnotified := hs.removing r rest hserver
      simp only [ServiceThreads.serve, hserver] at h
      obtain rfl := Option.some.inj h
      refine ⟨fun x hx => ?_, fun r' hr' => ?_, fun _ _ h => by cases h⟩
      · rcases hs.table x hx with htable | hn
        · by_cases hsame : x.topic = r.topic ∧ x.nodeUuid = r.nodeUuid ∧
              x.handler.handlerUuid = r.reqUuid
          · right
            rw [hsame.2.2]
            exact hnotified
          · left
            rw [HandlerStorage.handler?_removeHandler, if_neg hsame]
            exact htable
        · exact .inr hn
      · rcases hs.received r' hr' with hq | hb | hn
        · exact .inl hq
        · rw [hserver] at hb
          rcases List.mem_cons.mp hb with rfl | hb
          · exact .inr (.inr hnotified)
          · exact .inr (.inl hb)
        · exact .inr (.inr hn)

/-- **One step**, where responses are to requests that were filed. -/
theorem Served.next (hs : s.Served) (ho : s.Orderly)
    (hnames : ∀ r ∈ s.received, ∃ x ∈ s.filed, r.Names x) {a : Action T}
    (h : s.next a = some t) : t.Served := by
  cases a with
  | request i topic nodeUuid handler =>
      simp only [ServiceThreads.next] at h
      split at h
      case h_1 =>
        split at h
        case isTrue => cases h
        case isFalse =>
          obtain rfl := Option.some.inj h
          exact ⟨hs.table, hs.received, hs.removing⟩
      case h_2 => cases h
  | datagram i fromIp m now =>
      simp only [ServiceThreads.next] at h
      split at h
      case h_1 =>
        split at h
        case isTrue =>
          obtain rfl := Option.some.inj h
          exact hs
        case isFalse =>
          split at h
          all_goals
            obtain rfl := Option.some.inj h
            exact ⟨hs.table, hs.received, hs.removing⟩
      case h_2 => cases h
  | advance i io =>
      rcases frame_advance h with ⟨topic, nodeUuid, handler, hc⟩ | hf
      · exact hs.adding ho.tracked hc h
      · exact hs.kept (kept_advance h).1 fun x hx => .inl (hf.filed ▸ hx)
  | receive r =>
      simp only [ServiceThreads.next] at h
      split at h
      case h_1 => cases h
      case h_2 =>
        obtain rfl := Option.some.inj h
        refine ⟨hs.table, fun r' hr' => ?_, hs.removing⟩
        rcases List.mem_cons.mp hr' with rfl | hr'
        · exact .inl (List.mem_append_right _ List.mem_cons_self)
        · exact (hs.received r' hr').imp_left (List.mem_append_left _)
  | takeBatch =>
      simp only [ServiceThreads.next] at h
      split at h
      case h_1 hserver =>
        obtain rfl := Option.some.inj h
        refine ⟨hs.table, fun r hr => ?_, fun _ _ h => by cases h⟩
        rcases hs.received r hr with hq | hb | hn
        · exact .inr (.inl hq)
        · rw [hserver] at hb
          cases hb
        · exact .inr (.inr hn)
      case h_2 => cases h
  | serve => exact hs.serve ho.tracked ho.answeredOnce hnames h

theorem Served.discovery (hs : s.Served) {i : ℕ} {a : Discovery.Action ServicePublisherInfo}
    (h : s.discovery i a = some t) : t.Served := by
  obtain ⟨d, connections, c, -, -, rfl⟩ := discovery_eq h
  exact ⟨hs.table, hs.received, hs.removing⟩

end ServiceThreads
end RfTrans
