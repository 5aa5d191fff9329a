import RfTrans.Lib.Dialing
import RfTrans.Service.Discovered

/-!
# Whom the requester socket is connected to

`onServiceConnected` and `sendPendingRequests` connect the requester to an address that is
not in `requester_connections_`, and put it there.  `onServiceDisconnected` takes an address
out again, but disconnects nothing, and all services of a process share one address.

## Main definitions

* `Requester` — the runtime, with the calls of `requester_->connect` that it has made.
* `ServiceRuntime.performOps` — where an action looks at `requester_connections_`.
* `ServiceRuntime.line_perform` — the set and the calls, from these places.
* `Requester.ConnectsOnce` — the set is what was connected, and nothing was connected twice.
* `Requester.connects_once_iff`
-/

namespace RfTrans

open Exec

variable {T : Type} [ProtoTypes T]

namespace ServiceRuntime

/-! ## The places -/

/-- `sendPendingRequests` -/
def pendingOps (rt : ServiceRuntime T) (io : SocketIo) (topic reqType repType : Str) :
    List (Dialing.Op Str) :=
  match rt.responder topic reqType repType with
  | none => []
  | some responder => [.dial responder.addr (io.connect responder.addr)]

/-- `onServiceConnected`; an exception of `connect` ends it. -/
def connectedOps (rt : ServiceRuntime T) (io : SocketIo) (pub : ServicePublisherInfo) :
    List (Dialing.Op Str) :=
  .dial pub.addr (io.connect pub.addr) ::
    if ¬ pub.addr ∈ rt.requesterConnections ∧ io.connect pub.addr = false then []
    else
      match rt.requestHandlers.getFirstHandler pub.topic
          (matchesTypes pub.reqTypeName pub.repTypeName) with
      | none => []
      | some _ => rt.pendingOps io pub.topic pub.reqTypeName pub.repTypeName

/-- Where the callbacks look at `requester_connections_`. -/
def callbackOps (rt : ServiceRuntime T) (io : SocketIo) :
    Callback ServicePublisherInfo → List (Dialing.Op Str)
  | .connection pub => rt.connectedOps io pub
  | .disconnection pub => [.strike pub.addr]
  | .registration _ => []
  | .unregistration _ => []

/-- The callbacks in order, as long as none of them throws. -/
def absorbOps (io : SocketIo) : Outcome T → List (Callback ServicePublisherInfo) →
    List (Dialing.Op Str)
  | _, [] => []
  | o, c :: calls =>
    if o.thrown then []
    else o.self.callbackOps io c ++ absorbOps io (onCallback io o c) calls

/-- The callbacks of a member function of the discovery instance. -/
def discoveryOps (rt : ServiceRuntime T) (io : SocketIo)
    (o : RfTrans.Outcome ServicePublisherInfo) : List (Dialing.Op Str) :=
  absorbOps io { self := { rt with discovery := o.self } } o.calls

/-- Where an action looks at `requester_connections_`. -/
def performOps (rt : ServiceRuntime T) (io : SocketIo) : Action T → List (Dialing.Op Str)
  | .advertise topic nodeUuid handler reqType repType options =>
    let rt := { rt with
      responseHandlers :=
        rt.responseHandlers.addHandler topic nodeUuid handler.handlerUuid handler }
    rt.discoveryOps io (rt.discovery.advertise (ServicePublisherInfo.make topic rt.replierAddress
      rt.replierUuid rt.processUuid nodeUuid reqType repType options)).1
  | .unadvertise topic nodeUuid =>
    let rt := { rt with
      responseHandlers := (rt.responseHandlers.removeHandlersForNode topic nodeUuid).1 }
    rt.discoveryOps io (rt.discovery.unadvertise topic nodeUuid).1
  | .request topic nodeUuid handler =>
    if (rt.discovery.knownPublishers.getPublishers topic).isNone then []
    else
      let rt := { rt with
        requestHandlers :=
          rt.requestHandlers.addHandler topic nodeUuid handler.handlerUuid handler }
      rt.pendingOps io topic handler.getReqTypeName handler.getRepTypeName
  | .recv fromIp m now => rt.discoveryOps io (rt.discovery.dispatchDiscoveryMsg fromIp m now)
  | .heartbeat now later => rt.discoveryOps io (rt.discovery.updateHeartbeat now later)
  | .activity now later => rt.discoveryOps io (rt.discovery.updateActivity now later)
  | .handleResponses _ => []

/-- The set after a function of the runtime, and the calls of `connect` with those it made. -/
def Outcome.line (o : Outcome T) (calls : List (Str × Bool)) : Dialing.Line Str :=
  ⟨o.self.requesterConnections, calls ++ o.connects⟩

variable (rt : ServiceRuntime T) (io : SocketIo)

/-- An address that is connected to if need be. -/
theorem step_dial (addr : Str) (calls : List (Str × Bool)) :
    Dialing.step ⟨rt.requesterConnections, calls⟩ (.dial addr (io.connect addr)) =
      { record :=
          if ¬ addr ∈ rt.requesterConnections ∧ io.connect addr = false then
            rt.requesterConnections
          else if addr ∈ rt.requesterConnections then rt.requesterConnections
          else rt.requesterConnections ++ [addr]
        calls := calls ++
          if addr ∈ rt.requesterConnections then [] else [(addr, io.connect addr)] } := by
  by_cases haddr : addr ∈ rt.requesterConnections
  · simp [Dialing.step, haddr]
  · cases hok : io.connect addr with
    | false => simp [Dialing.step, haddr]
    | true => simp [Dialing.step, haddr]

/-- Sending connects to nothing. -/
@[simp] theorem line_sendAll (responder : ServicePublisherInfo) (topic reqType repType : Str)
    (pending : List (Pending T)) (o : Outcome T) (calls : List (Str × Bool)) :
    (sendAll io responder topic reqType repType pending o).line calls = o.line calls := by
  induction pending generalizing o with
  | nil => rfl
  | cons x pending ih =>
      rw [sendAll_cons, ih]
      rcases sendPending_cases io responder topic reqType repType o x with h | ⟨data, -, h⟩
      · rw [h]
      · rw [h]
        rfl

/-- **`sendPendingRequests`** connects as its places say. -/
theorem line_sendPendingRequests (topic reqType repType : Str) (calls : List (Str × Bool)) :
    (rt.sendPendingRequests io topic reqType repType).line calls =
      Dialing.run ⟨rt.requesterConnections, calls⟩ (rt.pendingOps io topic reqType repType) := by
  simp only [sendPendingRequests, pendingOps]
  cases rt.responder topic reqType repType with
  | none => simp [Outcome.line]
  | some responder =>
      simp only [Dialing.run_cons, Dialing.run_nil, step_dial]
      split
      case isTrue => rfl
      case isFalse =>
        split
        case h_1 => split <;> rfl
        case h_2 =>
          rw [line_sendAll]
          split <;> rfl

/-- **`onServiceConnected`** connects as its places say. -/
theorem line_onServiceConnected (pub : ServicePublisherInfo) (calls : List (Str × Bool)) :
    (rt.onServiceConnected io pub).line calls =
      Dialing.run ⟨rt.requesterConnections, calls⟩ (rt.connectedOps io pub) := by
  simp only [onServiceConnected, connectedOps, Dialing.run_cons, step_dial]
  by_cases hbad : ¬ pub.addr ∈ rt.requesterConnections ∧ io.connect pub.addr = false
  · simp only [if_pos hbad]
    rfl
  · simp only [if_neg hbad]
    generalize (if pub.addr ∈ rt.requesterConnections then []
      else [(pub.addr, io.connect pub.addr)]) = connects
    generalize hrt : (if pub.addr ∈ rt.requesterConnections then rt
      else { rt with requesterConnections := rt.requesterConnections ++ [pub.addr] }) = rt'
    have hsame : rt'.requestHandlers = rt.requestHandlers ∧ rt'.discovery = rt.discovery ∧
        rt'.requesterConnections = if pub.addr ∈ rt.requesterConnections then
          rt.requesterConnections else rt.requesterConnections ++ [pub.addr] := by
      rw [← hrt]
      split <;> exact ⟨rfl, rfl, rfl⟩
    obtain ⟨hhandlers, hdiscovery, hrecord⟩ := hsame
    have hpending : rt'.pendingOps io pub.topic pub.reqTypeName pub.repTypeName =
        rt.pendingOps io pub.topic pub.reqTypeName pub.repTypeName := by
      simp only [pendingOps, responder, hdiscovery]
    rw [hhandlers, ← hrecord]
    cases rt.requestHandlers.getFirstHandler pub.topic
        (matchesTypes pub.reqTypeName pub.repTypeName) with
    | none => rfl
    | some handler =>
        have hsend := rt'.line_sendPendingRequests io pub.topic pub.reqTypeName pub.repTypeName
          (calls ++ connects)
        rw [hpending] at hsend
        rw [← hsend]
        simp only [Outcome.line, List.append_assoc]

theorem line_onCallback (o : Outcome T) (c : Callback ServicePublisherInfo)
    (calls : List (Str × Bool)) :
    (onCallback io o c).line calls = Dialing.run (o.line calls) (o.self.callbackOps io c) := by
  cases c with
  | connection pub =>
      refine Eq.trans ?_ (o.self.line_onServiceConnected io pub (calls ++ o.connects))
      simp only [onCallback, Outcome.line, List.append_assoc]
  | disconnection pub => rfl
  | registration pub => rfl
  | unregistration pub => rfl

theorem foldl_of_thrown (calls : List (Callback ServicePublisherInfo)) {o : Outcome T}
    (h : o.thrown = true) :
    calls.foldl (fun o c => if o.thrown then o else onCallback io o c) o = o := by
  induction calls with
  | nil => rfl
  | cons c calls ih =>
      rw [List.foldl_cons, if_pos h]
      exact ih

theorem line_foldl (callbacks : List (Callback ServicePublisherInfo)) (o : Outcome T)
    (calls : List (Str × Bool)) :
    (callbacks.foldl (fun o c => if o.thrown then o else onCallback io o c) o).line calls =
      Dialing.run (o.line calls) (absorbOps io o callbacks) := by
  induction callbacks generalizing o with
  | nil => rfl
  | cons c callbacks ih =>
      by_cases hthrown : o.thrown = true
      · rw [foldl_of_thrown io _ hthrown, absorbOps, if_pos hthrown]
        rfl
      · rw [List.foldl_cons, absorbOps, if_neg hthrown, if_neg hthrown, Dialing.run_append, ih,
          line_onCallback]

/-- The callbacks of a member function connect as their places say, one after the other. -/
theorem line_absorb (o : RfTrans.Outcome ServicePublisherInfo) (calls : List (Str × Bool)) :
    (rt.absorb io o).line calls =
      Dialing.run ⟨rt.requesterConnections, calls⟩ (rt.discoveryOps io o) := by
  refine (line_foldl io o.calls { self := { rt with discovery := o.self } } calls).trans ?_
  simp only [Outcome.line, List.append_nil]
  rfl

/-- **Every action** changes the set and makes the calls that its places say. -/
theorem line_perform (a : Action T) (calls : List (Str × Bool)) :
    (rt.perform io a).line calls =
      Dialing.run ⟨rt.requesterConnections, calls⟩ (rt.performOps io a) := by
  cases a with
  | advertise topic nodeUuid handler reqType repType options => exact line_absorb _ io _ calls
  | unadvertise topic nodeUuid => exact line_absorb _ io _ calls
  | request topic nodeUuid handler =>
      simp only [perform, request, performOps]
      split
      case isTrue => simp [Outcome.line]
      case isFalse => exact line_sendPendingRequests _ io _ _ _ calls
  | recv fromIp m now => exact rt.line_absorb io _ calls
  | heartbeat now later => exact rt.line_absorb io _ calls
  | activity now later => exact rt.line_absorb io _ calls
  | handleResponses responses =>
      simp only [perform, performOps, Dialing.run_nil, Outcome.line, List.append_nil]
      congr 1
      induction responses generalizing rt with
      | nil => rfl
      | cons r responses ih =>
          refine (ih (rt.handleResponse r)).trans ?_
          simp only [handleResponse]
          split <;> rfl

/-! ## What is struck -/

section Strikes
variable {fromIp : Str} {m : Msgs.Discovery} {now later : ℕ}

/-- An UNADVERTISE of another process strikes the address that it carries. -/
theorem performOps_unadvertise (hcb : rt.discovery.disconnectionCb = true)
    (hm : m.processUuid ≠ rt.discovery.processUuid) (htype : m.type = .unadvertise)
    (hhidden : Discovery.hidden (PubLike.setFromDiscovery PubLike.default m : ServicePublisherInfo)
      (rt.discovery.isSenderLocal fromIp) = false) :
    rt.performOps io (.recv fromIp m now) =
      [.strike (PubLike.setFromDiscovery PubLike.default m : ServicePublisherInfo).addr] := by
  have hcalls : (rt.discovery.dispatchDiscoveryMsg fromIp m now).calls =
      [.disconnection (PubLike.setFromDiscovery PubLike.default m)] := by
    simp only [Discovery.dispatchDiscoveryMsg, if_neg hm, htype, hhidden, hcb, Bool.false_eq_true,
      if_false, if_true]
  simp only [performOps, discoveryOps, hcalls]
  rfl

/-- A BYE strikes the empty address. -/
theorem performOps_bye (hcb : rt.discovery.disconnectionCb = true)
    (hm : m.processUuid ≠ rt.discovery.processUuid) (htype : m.type = .bye) :
    rt.performOps io (.recv fromIp m now) = [.strike []] := by
  simp only [performOps, discoveryOps, Discovery.dispatchDiscoveryMsg, if_neg hm, htype, hcb,
    if_true]
  rfl

/-- For every process that is given up the empty address is struck. -/
theorem performOps_activity (hcb : rt.discovery.disconnectionCb = true)
    (hdue : rt.discovery.timeNextActivity ≤ now) :
    rt.performOps io (.activity now later) =
      (rt.discovery.expiredProcesses now).map fun _ => .strike [] := by
  have hops : ∀ (gone : List Str) (o : Outcome T), o.thrown = false →
      absorbOps io o (gone.map fun uuid =>
        .disconnection (PubLike.setProcessUuid PubLike.default uuid)) =
          gone.map fun _ => .strike [] := by
    intro gone
    induction gone with
    | nil => exact fun _ _ => rfl
    | cons uuid gone ih =>
        intro o ho
        simp only [List.map_cons, absorbOps, ho, Bool.false_eq_true, if_false, ih (onCallback io o
          (.disconnection (PubLike.setProcessUuid PubLike.default uuid))) ho]
        rfl
  simp only [performOps, discoveryOps, Discovery.updateActivity, if_neg (not_lt.mpr hdue), hcb,
    if_true]
  exact hops _ _ rfl

end Strikes

end ServiceRuntime

/-- The runtime, and the calls of `requester_->connect` that it has made, with what became of
them. -/
structure Requester (T : Type) [ProtoTypes T] where
  rt : ServiceRuntime T
  connects : List (Str × Bool) := []

namespace Requester

open ServiceRuntime

/-- The set and the calls. -/
def line (s : Requester T) : Dialing.Line Str := ⟨s.rt.requesterConnections, s.connects⟩

/-- An action, while the sockets are as the first part says. -/
def next (s : Requester T) (x : SocketIo × Action T) : Option (Requester T) :=
  let o := s.rt.perform x.1 x.2
  some { rt := o.self, connects := s.connects ++ o.connects }

/-- After `initialize` and `start`. -/
def start (processUuid processName hostAddr replierUuid replierAddress : Str) : Requester T :=
  { rt := init processUuid processName hostAddr replierUuid replierAddress }

/-- The set is what was connected, and nothing was connected twice. -/
structure ConnectsOnce (s : Requester T) : Prop where
  connected : ∀ addr, addr ∈ s.rt.requesterConnections ↔ (addr, true) ∈ s.connects
  once : (s.connects.map Prod.fst).Nodup

/-- The action takes no address out of the set, and connects to none that a `connect` has
thrown for before. -/
def Undisturbed (s : Requester T) (x : SocketIo × Action T) : Prop :=
  Guarded Dialing.next Dialing.Keeps s.line (s.rt.performOps x.1 x.2)

variable {s t : Requester T} {x : SocketIo × Action T}

theorem connectsOnce_iff : s.ConnectsOnce ↔ Dialing.InStep s.line :=
  ⟨fun h => ⟨h.connected, h.once⟩, fun h => ⟨h.record, h.once⟩⟩

/-- The runtime follows the record. -/
theorem line_next (h : s.next x = some t) :
    t.line = Dialing.run s.line (s.rt.performOps x.1 x.2) := by
  obtain rfl := Option.some.inj h
  exact s.rt.line_perform x.1 x.2 s.connects

/-- **One action.** -/
theorem connectsOnce_next_iff (hs : s.ConnectsOnce) (h : s.next x = some t) :
    t.ConnectsOnce ↔ s.Undisturbed x := by
  rw [connectsOnce_iff, line_next h]
  exact Dialing.inStep_iff_guarded (connectsOnce_iff.mp hs)

/-- **The requester connects once for each address** as long as nothing is struck from the
set, and exactly then. -/
theorem connects_once_iff (processUuid processName hostAddr replierUuid replierAddress : Str)
    (run : List (SocketIo × Action T)) :
    Always next ConnectsOnce
        (start processUuid processName hostAddr replierUuid replierAddress) run ↔
      Guarded next Undisturbed
        (start processUuid processName hostAddr replierUuid replierAddress) run := by
  constructor
  · intro h
    refine h.guarded ?_
    intro s x hs ht
    exact (connectsOnce_next_iff hs rfl).mp (ht _ rfl)
  · intro h
    refine always_of_invariant (P := ConnectsOnce) ?_ (fun _ hs => hs) ?_ h
    · intro s x t hs hx ht
      exact (connectsOnce_next_iff hs ht).mpr hx
    · exact connectsOnce_iff.mpr Dialing.inStep_empty

/-! ## A service that is withdrawn -/

/-- A responder comes, goes and comes again. -/
def withdrawnRun : List (SocketIo × Action EmptyOnly) :=
  let io : SocketIo := ⟨fun _ => true, fun _ => true⟩
  let m := advertisementAt (str "tcp://10.0.0.2:7000")
  [(io, .recv (str "10.0.0.2") m 0), (io, .recv (str "10.0.0.2") { m with type := .unadvertise } 1),
    (io, .recv (str "10.0.0.2") m 2)]

/-- **Connected twice**, and in between connected but not in the set. -/
theorem withdrawn_connects_twice : ∃ s t : Requester EmptyOnly,
    exec next (start (str "4a") (str "p") (str "10.0.0.1") (str "r") (str "tcp://10.0.0.1:7000"))
        (withdrawnRun.take 2) = some s ∧
      s.rt.requesterConnections = [] ∧ s.connects = [(str "tcp://10.0.0.2:7000", true)] ∧
      exec next (start (str "4a") (str "p") (str "10.0.0.1") (str "r")
        (str "tcp://10.0.0.1:7000")) withdrawnRun = some t ∧
      t.connects = [(str "tcp://10.0.0.2:7000", true), (str "tcp://10.0.0.2:7000", true)] ∧
      ¬ t.ConnectsOnce := by
  refine ⟨_, _, rfl, by decide, by decide, rfl, by decide, fun h => ?_⟩
  exact absurd h.once (by decide)

end Requester
end RfTrans
