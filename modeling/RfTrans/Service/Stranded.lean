import RfTrans.Service.Threads

/-!
# No request is stranded

A call of `request` files its handler and then looks for a responder; the discovery
thread files a responder and then looks for handlers.  Neither holds a lock over both,
but whichever files second finds what the other has filed and sends the request.

## Main definitions

* `ServiceThreads.Available`, `Requested` — a filed request with a responder, and that it
  was sent.
* `Call.owes` — the requests that a call will still come to.
* `ServiceThreads.no_request_stranded`
-/

namespace RfTrans

open Exec Handshake

namespace Target

/-- The request is one of those that `sendPendingRequests` sends. -/
def Fits {T : Type} [ProtoTypes T] (target : Target) (x : Filed T) : Prop :=
  target.topic = x.topic ∧ target.reqType = x.handler.getReqTypeName ∧
    target.repType = x.handler.getRepTypeName

/-- What `onServiceConnected` calls `sendPendingRequests` with. -/
def ofPub (pub : ServicePublisherInfo) : Target := ⟨pub.topic, pub.reqTypeName, pub.repTypeName⟩

end Target

/-- The requests that a call will still come to, unless they have been sent by then. -/
def Call.owes {T : Type} [ProtoTypes T] : Call T → Filed T → Prop
  | .reading target _, x => target.Fits x
  | .locking target _, x => target.Fits x
  | .connecting target _, x => target.Fits x
  | .scanning target _, x => target.Fits x
  | .sending target _ rest, x =>
    target.Fits x ∧ (x.nodeUuid, x.handler.handlerUuid, x.handler) ∈ rest
  | .connected pub, x => (Target.ofPub pub).Fits x
  | .joining pub, x => (Target.ofPub pub).Fits x
  | .seeking pub, x => (Target.ofPub pub).Fits x
  | .idle, _ => False
  | .checking _ _ _, _ => False
  | .adding _ _ _, _ => False
  | .arrived _, _ => False

namespace ServiceThreads

variable {T : Type} [ProtoTypes T]

/-- A responder of the types of the request is known for its topic. -/
def HasResponder (s : ServiceThreads T) (x : Filed T) : Prop :=
  ∃ process, ∃ pub ∈ s.rt.discovery.knownPublishers.pubsOf x.topic process,
    pub.reqTypeName = x.handler.getReqTypeName ∧ pub.repTypeName = x.handler.getRepTypeName

/-- A request that was filed and has a responder. -/
def Available (s : ServiceThreads T) (x : Filed T) : Prop := x ∈ s.filed ∧ s.HasResponder x

/-- `hasRequested` -/
def Requested (s : ServiceThreads T) (x : Filed T) : Prop :=
  (s.rt.reqState x.handler.handlerUuid).requested = true

/-- A step in which connecting, serializing and sending succeed, and no response comes in. -/
def Smooth : ServiceThreads T → Action T → Prop
  | _, .request _ _ _ handler => handler.serialize.isSome
  | _, .datagram _ _ _ _ => True
  | _, .advance _ io => io.Up
  | _, .receive _ => False
  | _, .takeBatch => False
  | _, .serve => False

/-- No call is under way. -/
def Finished (s : ServiceThreads T) : Prop := ∀ i, s.calls i = .idle

/-! ## The invariant -/

/-- What holds between the steps. -/
structure Unstranded (s : ServiceThreads T) : Prop where
  tracked : s.Tracked
  kept : ∀ x ∈ s.filed,
    s.rt.requestHandlers.handler? x.topic x.nodeUuid x.handler.handlerUuid = some x.handler
  serializes : ∀ x ∈ s.filed, x.handler.serialize.isSome
  carried : ∀ i h, (s.calls i).carries = some h → h.serialize.isSome
  covered : Covered s.Available s.Requested s.calls Call.owes

variable {s t : ServiceThreads T}

/-- `sendPendingRequests` finds a responder if there is one. -/
theorem responder_ne_none {x : Filed T} (hx : s.HasResponder x) {target : Target}
    (hfit : target.Fits x) :
    s.rt.responder target.topic target.reqType target.repType ≠ none := by
  obtain ⟨process, pub, hpub, hreq, hrep⟩ := hx
  obtain ⟨htopic, hq, hp⟩ := hfit
  intro hnone
  simp only [ServiceRuntime.responder, List.find?_eq_none] at hnone
  rw [htopic] at hnone
  cases hget : s.rt.discovery.knownPublishers.getPublishers x.topic with
  | none => exact TopicStorage.pubsOf_of_getPublishers _ hget process pub hpub
  | some mp =>
      rw [hget] at hnone
      refine hnone pub ((TopicStorage.mem_flatMap_getPublishers _ hget).mpr ⟨process, hpub⟩) ?_
      rw [hreq, hrep, hq, hp]
      simp

/-- A call goes on and changes nothing that the others see. -/
theorem Covered.update (h : Covered s.Available s.Requested s.calls Call.owes) {i : ℕ}
    {c : Call T} (hcalls : t.calls = Function.update s.calls i c) (hfiled : t.filed = s.filed)
    (hknown : t.rt.discovery.knownPublishers = s.rt.discovery.knownPublishers)
    (hstates : t.rt.reqStates = s.rt.reqStates)
    (howes : ∀ x, s.Available x → (s.calls i).owes x → c.owes x) :
    Covered t.Available t.Requested t.calls Call.owes := by
  have havail : ∀ x, t.Available x → s.Available x := by
    intro x hx
    simpa only [Available, HasResponder, hfiled, hknown] using hx
  refine Covered.step h i ?_ ?_ (fun x hx => .inl (havail x hx)) ?_
  · intro j hj
    rw [hcalls, Function.update_of_ne hj]
  · intro x hx
    simpa only [Requested, ServiceRuntime.reqState, hstates] using hx
  · intro x hx hold
    rw [hcalls, Function.update_self]
    exact .inr (howes x (havail x hx) hold)

/-- The invariant is kept by a thread that goes on, where the runtime stays the same. -/
theorem Unstranded.update (hs : s.Unstranded) {i : ℕ} {c : Call T}
    (hcalls : t.calls = Function.update s.calls i c) (huuids : t.uuids = s.uuids)
    (hfiled : t.filed = s.filed) (htable : t.rt.requestHandlers = s.rt.requestHandlers)
    (hknown : t.rt.discovery.knownPublishers = s.rt.discovery.knownPublishers)
    (hstates : t.rt.reqStates = s.rt.reqStates)
    (hc : ∀ h, c.carries = some h → (s.calls i).carries = some h)
    (howes : ∀ x, s.Available x → (s.calls i).owes x → c.owes x) : t.Unstranded := by
  have hf : Frame s t := Frame.of_update huuids hfiled htable hcalls hc
  refine ⟨hs.tracked.frame hf, ?_, ?_, fun j h hj => hs.carried j h (hf.carried j h hj),
    Covered.update hs.covered hcalls hfiled hknown hstates howes⟩
  · rw [hfiled, htable]
    exact hs.kept
  · rw [hfiled]
    exact hs.serializes

/-- A call that owes nothing ends. -/
theorem Unstranded.idle (hs : s.Unstranded) {i : ℕ}
    (hcalls : t.calls = Function.update s.calls i .idle)
    (huuids : t.uuids = s.uuids) (hfiled : t.filed = s.filed) (hrt : t.rt = s.rt)
    (hnone : ∀ x, s.Available x → ¬ (s.calls i).owes x) : t.Unstranded :=
  hs.update hcalls huuids hfiled (by rw [hrt]) (by rw [hrt]) (by rw [hrt]) nofun
    fun x hx ho => absurd ho (hnone x hx)

theorem Unstranded.join (hs : s.Unstranded) {i : ℕ} {io : SocketIo} (hio : io.Up) (addr : Str)
    {c : Call T} (hc : c.carries = none)
    (howes : ∀ x, s.Available x → (s.calls i).owes x → c.owes x) :
    (s.join i io addr c).Unstranded := by
  have hnone : ∀ h, c.carries = some h → (s.calls i).carries = some h := by
    intro h hh
    rw [hc] at hh
    cases hh
  simp only [ServiceThreads.join, hio.connect, if_true]
  split
  case isTrue => exact hs.update rfl rfl rfl rfl rfl rfl hnone howes
  case isFalse => exact hs.update rfl rfl rfl rfl rfl rfl hnone howes

/-- The handler of a request that fits is in the table of its topic. -/
theorem Unstranded.mem_pendingOf (hs : s.Unstranded) {x : Filed T} (hx : x ∈ s.filed)
    {handlers} (h : s.rt.requestHandlers.getHandlers x.topic = some handlers) :
    (x.nodeUuid, x.handler.handlerUuid, x.handler) ∈ ServiceRuntime.pendingOf handlers :=
  (ServiceRuntime.mem_pendingOf s.rt x.topic
    (x.nodeUuid, x.handler.handlerUuid, x.handler) h).mpr (hs.kept x hx)

/-- A call files its handler and owes it from then on. -/
theorem Unstranded.adding (hs : s.Unstranded) {i : ℕ} {io : SocketIo} {topic nodeUuid : Str}
    {handler : ReqHandler T} (hc : s.calls i = .adding topic nodeUuid handler)
    (h : s.advance i io = some t) : t.Unstranded := by
  have htracked := hs.tracked.adding hc h
  simp only [advance, hc] at h
  obtain rfl := Option.some.inj h
  have hcarries : (s.calls i).carries = some handler := by rw [hc]; rfl
  obtain ⟨-, hnew, -⟩ := hs.tracked.carried i handler hcarries
  have hadd : ∀ n n' u, (s.rt.requestHandlers.addHandler topic nodeUuid handler.handlerUuid
      handler).handler? n n' u = if n = topic ∧ n' = nodeUuid ∧ u = handler.handlerUuid then
        some handler else s.rt.requestHandlers.handler? n n' u := by
    intro n n' u
    have habsent : s.rt.requestHandlers.handler? topic nodeUuid handler.handlerUuid = none := by
      rw [Option.eq_none_iff_forall_ne_some]
      intro h hh
      obtain ⟨huuid, hfiled⟩ := hs.tracked.table _ _ _ _ hh
      exact hnew _ hfiled huuid
    rw [HandlerStorage.handler?_addHandler]
    simp only [habsent, and_true]
  refine ⟨htracked, ?_, ?_, ?_, ?_⟩
  · intro x hx
    refine (hadd _ _ _).trans ?_
    rcases List.mem_cons.mp hx with rfl | hx
    · rw [if_pos ⟨rfl, rfl, rfl⟩]
    · rw [if_neg fun hsame => hnew x hx hsame.2.2]
      exact hs.kept x hx
  · intro x hx
    rcases List.mem_cons.mp hx with rfl | hx
    · exact hs.carried i handler hcarries
    · exact hs.serializes x hx
  · intro j h hj
    by_cases hji : j = i
    · subst hji
      rw [calls_goto_self] at hj
      cases hj
    · rw [calls_goto_of_ne _ hji] at hj
      exact hs.carried j h hj
  · refine Covered.step hs.covered i (fun j hj => calls_goto_of_ne _ hj _) (fun x => id) ?_ ?_
    · rintro x ⟨hx, hresp⟩
      rcases List.mem_cons.mp hx with rfl | hx
      · right
        right
        rw [calls_goto_self]
        exact ⟨rfl, rfl, rfl⟩
      · exact .inl ⟨hx, hresp⟩
    · intro x _ hold
      rw [hc] at hold
      exact hold.elim

/-- A responder is filed, and its callback owes the requests that have been waiting. -/
theorem Unstranded.arrived (hs : s.Unstranded) {i : ℕ} {io : SocketIo}
    {pub : ServicePublisherInfo} (hc : s.calls i = .arrived pub)
    (h : s.advance i io = some t) : t.Unstranded := by
  have hf : Frame s t := by
    apply frame_of_not_adding h
    rw [hc]
    exact nofun
  simp only [advance, hc] at h
  obtain rfl := Option.some.inj h
  refine ⟨hs.tracked.frame hf, hs.kept, hs.serializes,
    fun j h hj => hs.carried j h (hf.carried j h hj), ?_⟩
  refine Covered.step hs.covered i (fun j hj => calls_goto_of_ne _ hj _) (fun x => id) ?_ ?_
  · rintro x ⟨hx, process, y, hy, hreq, hrep⟩
    rcases (TopicStorage.mem_pubsOf_addPublisher _).mp hy with hold | ⟨hadded, htopic, -, rfl⟩
    · exact .inl ⟨hx, process, y, hold, hreq, hrep⟩
    · right
      right
      rw [calls_goto_self, if_pos hadded]
      exact ⟨htopic.symm, hreq, hrep⟩
  · intro x _ hold
    rw [hc] at hold
    exact hold.elim

/-- One round of the loop sends the request or finds it sent. -/
theorem Unstranded.sending (hs : s.Unstranded) {i : ℕ} {io : SocketIo} (hio : io.Up)
    {target : Target} {responder : ServicePublisherInfo} {x : ServiceRuntime.Pending T}
    {rest : List (ServiceRuntime.Pending T)}
    (hc : s.calls i = .sending target responder (x :: rest))
    (h : s.advance i io = some t) : t.Unstranded := by
  have hf : Frame s t := by
    apply frame_of_not_adding h
    rw [hc]
    exact nofun
  simp only [advance, hc] at h
  obtain rfl := Option.some.inj h
  have hcases := ServiceRuntime.sendPending_cases io responder target.topic target.reqType
    target.repType { self := s.rt } x
  generalize ho : ServiceRuntime.sendPending io responder target.topic target.reqType
    target.repType { self := s.rt } x = o at hcases hf ⊢
  have hknown : o.self.discovery = s.rt.discovery := by
    rcases hcases with rfl | ⟨data, -, rfl⟩
    · rfl
    · rfl
  have htable : o.self.requestHandlers = s.rt.requestHandlers := by
    rcases hcases with rfl | ⟨data, -, rfl⟩
    · rfl
    · rfl
  have hmono : ∀ u, (s.rt.reqState u).requested = true → (o.self.reqState u).requested = true := by
    intro u hu
    rcases hcases with rfl | ⟨data, -, rfl⟩
    · exact hu
    · rw [ServiceRuntime.reqState_setReqState]
      split
      case isTrue => rfl
      case isFalse => exact hu
  refine ⟨hs.tracked.frame hf, fun y hy => ?_, hs.serializes,
    fun j h hj => hs.carried j h (hf.carried j h hj), ?_⟩
  · exact (congrArg (fun table => HandlerStorage.handler? table _ _ _) htable).trans (hs.kept y hy)
  refine Covered.step hs.covered i (fun j hj => calls_goto_of_ne _ hj _)
    (fun y => hmono y.handler.handlerUuid) ?_ ?_
  · rintro y ⟨hy, process, pub, hpub, hmatch⟩
    refine .inl ⟨hy, process, pub, ?_, hmatch⟩
    exact hknown ▸ hpub
  · rintro y ⟨hy, -⟩ hold
    rw [hc] at hold
    obtain ⟨hfit, hmem⟩ := hold
    rcases List.mem_cons.mp hmem with rfl | hmem
    · left
      obtain ⟨data, hdata⟩ := Option.isSome_iff_exists.mp (hs.serializes y hy)
      show (o.self.reqState y.handler.handlerUuid).requested = true
      by_cases hreq : (s.rt.reqState y.handler.handlerUuid).requested = true
      · exact hmono _ hreq
      · rw [← ho]
        simp [ServiceRuntime.sendPending, hreq, hfit.2.1, hfit.2.2, hdata, hio.send]
    · right
      rw [calls_goto_self]
      exact ⟨hfit, hmem⟩

/-- **One step of a call.** -/
theorem Unstranded.advance (hs : s.Unstranded) {i : ℕ} {io : SocketIo} (hio : io.Up)
    (h : s.advance i io = some t) : t.Unstranded := by
  cases hc : s.calls i with
  | idle =>
      simp only [ServiceThreads.advance, hc] at h
      cases h
  | checking topic nodeUuid handler =>
      simp only [ServiceThreads.advance, hc] at h
      split at h
      case isTrue =>
        obtain rfl := Option.some.inj h
        refine hs.idle rfl rfl rfl rfl fun x _ => ?_
        rw [hc]
        exact id
      case isFalse =>
        obtain rfl := Option.some.inj h
        refine hs.update (c := .adding topic nodeUuid handler) rfl rfl rfl rfl rfl rfl ?_ ?_
        · rw [hc]
          exact fun _ => id
        · rw [hc]
          exact fun _ _ => id
  | adding topic nodeUuid handler => exact hs.adding hc h
  | reading target locked =>
      simp only [ServiceThreads.advance, hc] at h
      split at h
      case h_1 hnone =>
        have howes : ∀ x, s.Available x → ¬ (s.calls i).owes x := by
          intro x hx ho
          rw [hc] at ho
          exact responder_ne_none hx.2 ho hnone
        obtain rfl := Option.some.inj h
        cases locked with
        | true => exact hs.idle rfl rfl rfl rfl howes
        | false => exact hs.idle rfl rfl rfl rfl howes
      case h_2 responder _ =>
        obtain rfl := Option.some.inj h
        cases locked with
        | true =>
            refine hs.update (c := .connecting target responder) rfl rfl rfl rfl rfl rfl
              (fun _ h => by cases h) ?_
            rw [hc]
            exact fun _ _ => id
        | false =>
            refine hs.update (c := .locking target responder) rfl rfl rfl rfl rfl rfl
              (fun _ h => by cases h) ?_
            rw [hc]
            exact fun _ _ => id
  | locking target responder =>
      simp only [ServiceThreads.advance, hc] at h
      split at h
      case h_1 => cases h
      case h_2 =>
        obtain rfl := Option.some.inj h
        refine hs.update (c := .connecting target responder) rfl rfl rfl rfl rfl rfl
          (fun _ h => by cases h) ?_
        rw [hc]
        exact fun _ _ => id
  | connecting target responder =>
      simp only [ServiceThreads.advance, hc] at h
      obtain rfl := Option.some.inj h
      refine hs.join hio responder.addr rfl ?_
      rw [hc]
      exact fun _ _ => id
  | scanning target responder =>
      simp only [ServiceThreads.advance, hc] at h
      split at h
      case h_1 hnone =>
        obtain rfl := Option.some.inj h
        refine hs.idle rfl rfl rfl rfl fun x hx ho => ?_
        rw [hc] at ho
        have hkept := hs.kept x hx.1
        have hdata : s.rt.requestHandlers.data[x.topic]? = none := ho.1 ▸ hnone
        simp [HandlerStorage.handler?, hdata] at hkept
      case h_2 handlers hsome =>
        obtain rfl := Option.some.inj h
        refine hs.update (c := .sending target responder (ServiceRuntime.pendingOf handlers))
          rfl rfl rfl rfl rfl rfl (fun _ h => by cases h) ?_
        rw [hc]
        exact fun x hx hfit => ⟨hfit, hs.mem_pendingOf hx.1 (hfit.1 ▸ hsome)⟩
  | sending target responder rest =>
      cases rest with
      | nil =>
          simp only [ServiceThreads.advance, hc] at h
          obtain rfl := Option.some.inj h
          refine hs.idle rfl rfl rfl rfl fun x _ => ?_
          rw [hc]
          exact fun ho => by cases ho.2
      | cons x rest => exact hs.sending hio hc h
  | arrived pub => exact hs.arrived hc h
  | connected pub =>
      simp only [ServiceThreads.advance, hc] at h
      split at h
      case h_1 => cases h
      case h_2 =>
        obtain rfl := Option.some.inj h
        refine hs.update (c := .joining pub) rfl rfl rfl rfl rfl rfl (fun _ h => by cases h) ?_
        rw [hc]
        exact fun _ _ => id
  | joining pub =>
      simp only [ServiceThreads.advance, hc] at h
      obtain rfl := Option.some.inj h
      refine hs.join hio pub.addr rfl ?_
      rw [hc]
      exact fun _ _ => id
  | seeking pub =>
      simp only [ServiceThreads.advance, hc] at h
      split at h
      case h_1 hnone =>
        obtain rfl := Option.some.inj h
        refine hs.idle rfl rfl rfl rfl fun x hx ho => ?_
        rw [hc] at ho
        have hmem : x.handler ∈ s.rt.requestHandlers.handlersOf pub.topic :=
          (HandlerStorage.mem_handlersOf _).mpr ⟨x.nodeUuid, x.handler.handlerUuid,
            (congrArg (fun t => HandlerStorage.handler? _ t _ _) ho.1).trans (hs.kept x hx.1)⟩
        exact List.find?_eq_none.mp hnone _ hmem (decide_eq_true ⟨ho.2.1, ho.2.2⟩)
      case h_2 =>
        obtain rfl := Option.some.inj h
        refine hs.update (c := .reading ⟨pub.topic, pub.reqTypeName, pub.repTypeName⟩ true)
          rfl rfl rfl rfl rfl rfl (fun _ h => by cases h) ?_
        rw [hc]
        exact fun _ _ => id

theorem Unstranded.next (hs : s.Unstranded) {a : Action T} (hg : s.Smooth a)
    (h : s.next a = some t) : t.Unstranded := by
  cases a with
  | request i topic nodeUuid handler =>
      have htracked := hs.tracked.next h
      simp only [ServiceThreads.next] at h
      split at h
      case h_1 hc =>
        split at h
        case isTrue => cases h
        case isFalse =>
          obtain rfl := Option.some.inj h
          refine ⟨htracked, hs.kept, hs.serializes, fun j h hj => ?_, ?_⟩
          · by_cases hji : j = i
            · subst hji
              rw [calls_goto_self] at hj
              obtain rfl := Option.some.inj hj
              exact hg
            · rw [calls_goto_of_ne _ hji] at hj
              exact hs.carried j h hj
          · refine Covered.update hs.covered rfl rfl rfl rfl fun x _ ho => ?_
            rw [hc] at ho
            exact ho.elim
      case h_2 => cases h
  | datagram i fromIp m now =>
      simp only [ServiceThreads.next] at h
      split at h
      case h_1 hc =>
        split at h
        case isTrue =>
          obtain rfl := Option.some.inj h
          exact hs
        case isFalse =>
          split at h
          case isTrue =>
            obtain rfl := Option.some.inj h
            refine hs.update (c := s.calls i) ?_ rfl rfl rfl rfl rfl (fun _ => id) fun _ _ => id
            exact (Function.update_eq_self i s.calls).symm
          case isFalse =>
            obtain rfl := Option.some.inj h
            refine hs.update (c := .arrived _) rfl rfl rfl rfl rfl rfl (fun _ h => by cases h)
              fun x _ ho => ?_
            rw [hc] at ho
            exact ho.elim
      case h_2 => cases h
  | advance i io => exact hs.advance hg h
  | receive r => exact hg.elim
  | takeBatch => exact hg.elim
  | serve => exact hg.elim

theorem unstranded_start (processUuid processName hostAddr replierUuid replierAddress : Str) :
    (start processUuid processName hostAddr replierUuid replierAddress :
      ServiceThreads T).Unstranded where
  tracked := tracked_start ..
  kept x hx := by cases hx
  serializes x hx := by cases hx
  carried i h hc := by cases hc
  covered x hx := by cases hx.1

/-- **No pending request is stranded.**  When all calls and callbacks have finished, every
request that was filed and has a responder has been sent. -/
theorem no_request_stranded (processUuid processName hostAddr replierUuid replierAddress : Str)
    (run : List (Action T))
    (hrun : Guarded next Smooth
      (start processUuid processName hostAddr replierUuid replierAddress) run)
    (h : exec next (start processUuid processName hostAddr replierUuid replierAddress) run = some s)
    (hdone : s.Finished) (x : Filed T) (hx : x ∈ s.filed) (hresp : s.HasResponder x) :
    (s.rt.reqState x.handler.handlerUuid).requested = true := by
  have hs : s.Unstranded := invariant (P := Unstranded) (fun _ _ _ hs hg h => hs.next hg h)
    (unstranded_start ..) hrun h
  refine hs.covered.all_served (fun i y ho => ?_) ⟨hx, hresp⟩
  rw [hdone i] at ho
  exact ho

/-! ## A responder that comes while the request looks for one -/

/-- An ADVERTISE of process 5b for topic s. -/
def advertisementOf (reqType repType : Str) (nodeUuid : Str) : Msgs.Discovery :=
  ServicePublisherInfo.fillDiscovery (ServicePublisherInfo.make (str "s") (str "tcp://b")
    (str "rep") (str "5b") nodeUuid reqType repType {})
    { version := kWireVersion, type := .advertise, processUuid := str "5b" }

/-- The process of the example. -/
def exampleStart : ServiceThreads EmptyOnly :=
  start (str "4a") [] (str "10.0.0.1") (str "r") (str "tcp://r")

/-- A request of the example. -/
def exampleRequest : ReqHandler EmptyOnly :=
  { req := .empty, rep := .empty, nodeUuid := str "n", handlerUuid := str "q"
    reqMsg := exampleMsg, cb := true }

/-- Thread 1 has looked for a responder in vain when thread 0 files it. -/
def crossing : List (Action EmptyOnly) :=
  [.datagram 0 (str "10.0.0.2") (advertisementOf (str "A") (str "B") (str "n1")) 0] ++
    List.replicate 4 (.advance 0 exampleIo) ++
    [.request 1 (str "s") (str "n") exampleRequest, .advance 1 exampleIo, .advance 1 exampleIo,
      .datagram 0 (str "10.0.0.2") (advertisementOf exampleRequest.getReqTypeName
        exampleRequest.getRepTypeName (str "n2")) 1, .advance 1 exampleIo] ++
    List.replicate 9 (.advance 0 exampleIo)

/-- The state in which the example run ends. -/
def crossed : ServiceThreads EmptyOnly := (exec next exampleStart crossing).getD exampleStart

theorem no_request_stranded_crossing : (crossed.rt.reqState (str "q")).requested = true :=
  no_request_stranded (str "4a") [] (str "10.0.0.1") (str "r") (str "tcp://r") crossing
    (guarded_of_forall (by
      have hup : exampleIo.Up := ⟨fun _ => rfl, fun _ => rfl⟩
      intro a ha s
      simp only [crossing, List.mem_append, List.mem_cons, List.mem_replicate,
        List.not_mem_nil, or_false] at ha
      rcases ha with ((rfl | ⟨-, rfl⟩) | rfl | rfl | rfl | rfl | rfl) | ⟨-, rfl⟩
      all_goals first | exact hup | exact rfl | trivial) _)
    (s := crossed) rfl
    (fun i => match i with | 0 => rfl | 1 => rfl | _ + 2 => rfl)
    ⟨str "s", str "n", exampleRequest⟩ List.mem_cons_self
    ⟨str "5b", _, List.mem_cons_of_mem _ List.mem_cons_self, rfl, rfl⟩

end ServiceThreads
end RfTrans
