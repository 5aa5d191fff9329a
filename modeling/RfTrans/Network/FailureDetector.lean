import RfTrans.Lib.Timing
import RfTrans.Network.DiscoveryLoop

/-!
# Heartbeats and silence between two processes

One process sends heartbeats, another one watches it.  A datagram may be lost, and it may be
late, because of the network or because the thread of the receiver has other things to do.  The
intervals say how much of both a process may suffer before it is given up by mistake.

## Main definitions

* `Monitored` — both processes with the heartbeats on their way.
* `Monitored.Timely` — how late and how lossy they may be.
* `Monitored.never_given_up`
-/

namespace RfTrans

open Exec

/-- A heartbeat on its way, with its number and the time at which it was sent. -/
structure Packet where
  number : ℕ
  sentAt : ℕ
  m : Msgs.Discovery

/-- A process, another one that watches it, and what is between them. -/
structure Monitored (π : Type) where
  sender : DiscoveryLoop π
  receiver : DiscoveryLoop π
  clock : ℕ
  wire : List Packet := []
  lost : List ℕ := []

namespace DiscoveryLoop

variable {π : Type} [PubLike π] {s s' : DiscoveryLoop π} {a : Action π}

/-- The first reading of the clock in a step. -/
def Action.now : Action π → Option ℕ
  | .ask now | .recv _ _ now | .heartbeat now _ | .activity now _ => some now
  | .call _ | .wake => none

/-- The heartbeat that a step sends. -/
def packets (s : DiscoveryLoop π) : Action π → List Packet
  | .heartbeat now _ =>
    if now < s.self.timeNextHeartbeat then []
    else s.self.sendHeartbeat.map fun m => ⟨s.beats.length, now, m⟩
  | _ => []

/-- When a heartbeat was sent. -/
def signAt (s : DiscoveryLoop π) (i : ℕ) : ℕ := ((s.beats.reverse[i]?).map Beat.started).getD 0

end DiscoveryLoop

namespace Monitored

variable {π : Type} [PubLike π]

inductive Action (π : Type)
  | sender (a : DiscoveryLoop.Action π)
  /-- What the receiver does, other datagrams included. -/
  | receiver (a : DiscoveryLoop.Action π)
  | deliver (fromIp : Str) (i now : ℕ)
  | lose (i : ℕ)

/-- The first reading of the clock in a step. -/
def Action.now : Action π → Option ℕ
  | .sender a | .receiver a => a.now
  | .deliver _ _ now => some now
  | .lose _ => none

/-- One step. Both threads read the same clock. -/
def next (s : Monitored π) : Action π → Option (Monitored π)
  | .sender a =>
    if ∀ now ∈ a.now, s.clock ≤ now then
      (s.sender.next a).map fun sender =>
        { s with
          sender := sender
          clock := a.now.getD s.clock
          wire := s.wire ++ s.sender.packets a }
    else none
  | .receiver a =>
    if ∀ now ∈ a.now, s.clock ≤ now then
      (s.receiver.next a).map fun receiver =>
        { s with receiver := receiver, clock := a.now.getD s.clock }
    else none
  | .deliver fromIp i now =>
    if s.clock ≤ now then
      (s.wire[i]?).bind fun p => (s.receiver.next (.recv fromIp p.m now)).map fun receiver =>
        { s with receiver := receiver, clock := now, wire := s.wire.eraseIdx i }
    else none
  | .lose i =>
    (s.wire[i]?).map fun p => { s with wire := s.wire.eraseIdx i, lost := p.number :: s.lost }

/-- The sender has just started; the receiver may have been there before. -/
def start (d : Discovery π) (t : ℕ) (receiver : DiscoveryLoop π) : Monitored π :=
  { sender := .start d t, receiver := receiver, clock := t }

/-- The thread of the sender takes no longer for a pass than its timeout and `ε`; no heartbeat
is on its way for more than `delay`; of `losses + 1` in a row one is not lost; and nobody says
BYE for the sender. -/
def Timely (ε delay losses : ℕ) (s : Monitored π) (a : Action π) : Prop :=
  (∀ now ∈ a.now, now ≤ s.sender.limit + ε ∧ ∀ p ∈ s.wire, now ≤ p.sentAt + delay) ∧
  match a with
  | .sender a => s.sender.Prompt ε a
  | .receiver (.recv _ m _) => m.processUuid = s.sender.self.processUuid → m.type ≠ .bye
  | .lose i => ∀ p ∈ s.wire[i]?, ∀ first, ∃ j ≤ losses, first + j ∉ p.number :: s.lost
  | _ => True

/-- A check neither forgets the sender nor reports it as gone. -/
def LeavesSender (s : Monitored π) : Action π → Prop
  | .receiver (.activity now later) =>
    let checked := s.receiver.self.updateActivity now later
    let uuid := s.sender.self.processUuid
    checked.self.lastSeenByProcess[uuid]? = s.receiver.self.lastSeenByProcess[uuid]? ∧
    (∀ topic, checked.self.knownPublishers.pubsOf topic uuid =
      s.receiver.self.knownPublishers.pubsOf topic uuid) ∧
    ∀ p, .disconnection p ∈ checked.calls → PubLike.processUuid p ≠ uuid
  | _ => True

/-- The sender is not silent when a check is due. -/
def Spares (s : Monitored π) : Action π → Prop
  | .receiver (.activity now _) => s.receiver.self.timeNextActivity ≤ now →
      ¬ s.receiver.self.Silent now s.sender.self.processUuid
  | _ => True

end Monitored

/-! ## What the receiver has heard -/

namespace Discovery

variable {π : Type} [PubLike π] {d : Discovery π}

omit [PubLike π] in
theorem sendHeartbeat_congr {d' : Discovery π} (huuid : d'.processUuid = d.processUuid)
    (hname : d'.processName = d.processName) : d'.sendHeartbeat = d.sendHeartbeat := by
  simp only [sendHeartbeat, sendMsg, message, huuid, hname]

/-- A datagram says nothing of the processes that did not send it. -/
theorem lastSeen_dispatch_of_ne (fromIp : Str) {m : Msgs.Discovery} (now : ℕ) {q : Str}
    (hq : m.processUuid ≠ q) :
    (d.dispatchDiscoveryMsg fromIp m now).self.lastSeenByProcess[q]? =
      d.lastSeenByProcess[q]? := by
  by_cases hown : m.processUuid = d.processUuid
  · rw [dispatchDiscoveryMsg, if_pos hown]
  have hcmp : ¬ compare m.processUuid q = .eq := by
    rwa [Std.LawfulEqCmp.compare_eq_iff_eq]
  rw [d.lastSeen_dispatch hown]
  by_cases hbye : m.type = .bye
  · rw [if_pos hbye, Std.ExtTreeMap.getElem?_erase, if_neg hcmp, Std.ExtTreeMap.getElem?_insert,
      if_neg hcmp]
  · rw [if_neg hbye, Std.ExtTreeMap.getElem?_insert, if_neg hcmp]

end Discovery

namespace DiscoveryLoop

variable {π : Type} [PubLike π] {s s' : DiscoveryLoop π} {a : Action π} {q : Str}

/-- A watched process stays as it is, or something new is heard of it. -/
theorem lastSeen_next [WirePub π] [Discovery.SetsBase π] (hq : q ≠ s.self.processUuid)
    (h : next s a = some s')
    (hbye : ∀ fromIp m now, a = .recv fromIp m now → m.processUuid = q → m.type ≠ .bye)
    (hspared : ∀ now later, a = .activity now later → s.self.timeNextActivity ≤ now →
      ¬ s.self.Silent now q) :
    s'.self.lastSeenByProcess[q]? = s.self.lastSeenByProcess[q]? ∨
      ∃ fromIp m now, a = .recv fromIp m now ∧ m.processUuid = q ∧
        s'.self.lastSeenByProcess[q]? = some now := by
  cases a with
  | call a =>
      obtain ⟨hcall, hsame⟩ := Option.ite_none_right_eq_some.mp h
      obtain rfl := Option.some.inj hsame
      obtain ⟨known, hself⟩ := Discovery.self_call (d := s.self) hcall
      exact .inl (by simp only [hself])
  | ask | wake =>
      obtain ⟨-, hsame⟩ := Option.ite_none_right_eq_some.mp h
      obtain rfl := Option.some.inj hsame
      exact .inl rfl
  | recv fromIp m now =>
      obtain ⟨-, hsame⟩ := Option.ite_none_right_eq_some.mp h
      obtain rfl := Option.some.inj hsame
      by_cases hfrom : m.processUuid = q
      · right
        have hown : m.processUuid ≠ s.self.processUuid := hfrom.trans_ne hq
        refine ⟨fromIp, m, now, rfl, hfrom, ?_⟩
        rw [← hfrom, Discovery.lastSeen_dispatch_self hown, if_neg (hbye fromIp m now rfl hfrom)]
      · exact .inl (Discovery.lastSeen_dispatch_of_ne fromIp now hfrom)
  | heartbeat now later =>
      obtain ⟨-, hsame⟩ := Option.ite_none_right_eq_some.mp h
      obtain rfl := Option.some.inj hsame
      exact .inl (by simp only [s.self.self_updateHeartbeat])
  | activity now later =>
      obtain ⟨-, hsame⟩ := Option.ite_none_right_eq_some.mp h
      obtain rfl := Option.some.inj hsame
      left
      by_cases hdue : now < s.self.timeNextActivity
      · simp only [Discovery.updateActivity, if_pos hdue]
      · have hkept := hspared now later rfl (by omega)
        rw [← Discovery.mem_expiredProcesses_iff] at hkept
        simp only [Discovery.updateActivity, if_neg hdue]
        exact Discovery.getElem?_filter_expired.trans (if_neg hkept)

/-! ## When heartbeats are sent -/

/-- The clock of a thread does not go back. -/
theorem beats_next (h : next s a = some s') :
    s'.beats = s.beats ∧ s.packets a = [] ∨ ∃ now later, a = .heartbeat now later ∧
      s'.beats = ⟨now, later⟩ :: s.beats ∧
      s.packets a = s.self.sendHeartbeat.map fun m => ⟨s.beats.length, now, m⟩ := by
  cases a with
  | call | ask | recv | wake | activity =>
      obtain ⟨-, hsame⟩ := Option.ite_none_right_eq_some.mp h
      obtain rfl := Option.some.inj hsame
      exact .inl ⟨rfl, rfl⟩
  | heartbeat now later =>
      obtain ⟨-, hsame⟩ := Option.ite_none_right_eq_some.mp h
      obtain rfl := Option.some.inj hsame
      by_cases hdue : now < s.self.timeNextHeartbeat
      · exact .inl ⟨if_pos hdue, if_pos hdue⟩
      · exact .inr ⟨now, later, rfl, if_neg hdue, if_neg hdue⟩

omit [PubLike π] in
theorem signAt_cons {b : Beat} (h : s'.beats = b :: s.beats) {i : ℕ} :
    s'.signAt i = if i < s.beats.length then s.signAt i
      else if i = s.beats.length then b.started else 0 := by
  simp only [signAt, h, List.reverse_cons]
  rcases lt_trichotomy i s.beats.length with hlt | heq | hgt
  · rw [if_pos hlt, List.getElem?_append_left (by simpa using hlt)]
  · rw [if_neg (by omega), if_pos heq, List.getElem?_append_right (by simp [heq])]
    simp [heq]
  · rw [if_neg (by omega), if_neg (by omega), List.getElem?_eq_none (by simp; omega)]
    rfl

omit [PubLike π] in
theorem signAt_eq {i : ℕ} (h : i < s.beats.length) :
    s.signAt i = (s.beats[s.beats.length - 1 - i]).started := by
  simp [signAt, h]

omit [PubLike π] in
/-- **Regular heartbeats are signs of life** in time. -/
theorem Regular.spread {t interval ε now : ℕ} (hs : s.Regular t interval ε)
    (hnow : now ≤ s.self.timeNextHeartbeat + 2 * ε) :
    Heartbeat.Spread s.beats.length (interval + 3 * ε) (2 * ε) t now s.signAt where
  first := by
    intro hpos
    have hlast := hs.first (s.beats[s.beats.length - 1]) (by
      rw [Option.mem_def, List.getLast?_eq_getElem?]
      exact List.getElem?_eq_getElem _)
    rw [signAt_eq hpos]
    exact hlast.2
  none := by
    intro hzero
    have hdue := hs.due
    rw [List.eq_nil_of_length_eq_zero hzero] at hdue
    simp only [List.head?_nil, Option.map_none, Option.getD_none] at hdue
    omega
  step := by
    intro i hi
    have hfollows := List.isChain_iff_getElem.mp hs.follows (s.beats.length - 1 - (i + 1))
      (by omega)
    have hindex : s.beats.length - 1 - (i + 1) + 1 = s.beats.length - 1 - i := by omega
    simp only [hindex, Follows] at hfollows
    have hshort := hs.short _ (List.getElem_mem (by omega : s.beats.length - 1 - i <
      s.beats.length))
    rw [signAt_eq hi, signAt_eq (by omega)]
    omega
  last := by
    intro i hi
    have hpos : 0 < s.beats.length := by omega
    have hdue := hs.due
    rw [List.head?_eq_getElem?, List.getElem?_eq_getElem hpos] at hdue
    simp only [Option.map_some, Option.getD_some] at hdue
    have hshort := hs.short _ (List.getElem_mem hpos)
    have hindex : s.beats.length - 1 - i = 0 := by omega
    rw [signAt_eq (by omega)]
    simp only [hindex]
    omega

end DiscoveryLoop

/-! ## One step -/

namespace Monitored

variable {π : Type} [PubLike π] {s s' : Monitored π} {a : Action π} {t ε delay losses : ℕ}

/-- What has become of a heartbeat. -/
inductive Fate (s : Monitored π) (i : ℕ) : Prop
  | lost (h : i ∈ s.lost)
  | travels (p : Packet) (hp : p ∈ s.wire) (hnumber : p.number = i)
  | heard (seen : ℕ) (hseen : s.receiver.self.lastSeenByProcess[s.sender.self.processUuid]? =
      some seen) (hle : s.sender.signAt i ≤ seen)

/-- What holds of both processes and of what is between them. -/
structure Sound (t interval ε losses : ℕ) (s : Monitored π) : Prop where
  timed : s.sender.Timed ε
  regular : s.sender.Regular t interval ε
  interval : s.sender.self.heartbeatInterval * 1000000 = interval
  strangers : s.sender.self.processUuid ≠ s.receiver.self.processUuid
  sends : s.sender.self.sendHeartbeat ≠ []
  started : t ≤ s.clock
  past : ∀ i < s.sender.beats.length, s.sender.signAt i ≤ s.clock
  wire : ∀ p ∈ s.wire, p.number < s.sender.beats.length ∧ p.sentAt = s.sender.signAt p.number ∧
    p.m.processUuid = s.sender.self.processUuid ∧ p.m.type = .heartbeat
  fate : ∀ i < s.sender.beats.length, s.Fate i
  few : ∀ first, ∃ j ≤ losses, first + j ∉ s.lost
  since : ∀ seen, s.receiver.self.lastSeenByProcess[s.sender.self.processUuid]? = some seen →
    t ≤ seen

omit [PubLike π] in
/-- **The sender was heard not long ago**, if it was heard at all. -/
theorem Sound.near {interval now seen : ℕ} (hs : s.Sound t interval ε losses)
    (hnow : now ≤ s.sender.limit + ε) (hwire : ∀ p ∈ s.wire, now ≤ p.sentAt + delay)
    (hseen : s.receiver.self.lastSeenByProcess[s.sender.self.processUuid]? = some seen) :
    now ≤ seen + (losses + 1) * (interval + 3 * ε) + delay + 2 * ε := by
  have hdue := hs.timed.heartbeat_near
  have hspread : Heartbeat.Spread s.sender.beats.length (interval + 3 * ε) (2 * ε) t now
      s.sender.signAt := hs.regular.spread (by omega)
  refine Heartbeat.heard_within hspread (fun i _ => hs.few i) ?_ (hs.since seen hseen)
  intro i hi hkept hold
  cases hs.fate i hi with
  | lost h => exact absurd h hkept
  | travels p hp hnumber =>
      have hlate := hwire p hp
      rw [(hs.wire p hp).2.1, hnumber] at hlate
      omega
  | heard seen' hseen' hle =>
      obtain rfl := Option.some.inj (hseen.symm.trans hseen')
      exact hle

omit [PubLike π] in
/-- What the receiver hears, and what the network loses. -/
theorem Sound.received {interval : ℕ} (hs : s.Sound t interval ε losses)
    (hsender : s'.sender = s.sender) (hclock : s.clock ≤ s'.clock)
    (hown : s'.receiver.self.processUuid = s.receiver.self.processUuid)
    (hseen : s'.receiver.self.lastSeenByProcess[s.sender.self.processUuid]? =
        s.receiver.self.lastSeenByProcess[s.sender.self.processUuid]? ∨
      ∃ now, s.clock ≤ now ∧
        s'.receiver.self.lastSeenByProcess[s.sender.self.processUuid]? = some now)
    (hwire : ∀ p ∈ s'.wire, p ∈ s.wire) (hlost : ∀ i ∈ s.lost, i ∈ s'.lost)
    (hgone : ∀ p ∈ s.wire, p ∈ s'.wire ∨ p.number ∈ s'.lost ∨ ∃ now, s.clock ≤ now ∧
      s'.receiver.self.lastSeenByProcess[s.sender.self.processUuid]? = some now)
    (hfew : ∀ first, ∃ j ≤ losses, first + j ∉ s'.lost) : s'.Sound t interval ε losses where
  timed := by
    rw [hsender]
    exact hs.timed
  regular := by
    rw [hsender]
    exact hs.regular
  interval := by
    rw [hsender]
    exact hs.interval
  strangers := by
    rw [hsender, hown]
    exact hs.strangers
  sends := by
    rw [hsender]
    exact hs.sends
  started := hs.started.trans hclock
  past := by
    rw [hsender]
    intro i hi
    exact (hs.past i hi).trans hclock
  wire := by
    rw [hsender]
    intro p hp
    exact hs.wire p (hwire p hp)
  fate := by
    rw [hsender]
    intro i hi
    have hheard : ∀ now, s.clock ≤ now →
        s'.receiver.self.lastSeenByProcess[s.sender.self.processUuid]? = some now → s'.Fate i := by
      intro now hnow hnew
      refine .heard now (hsender ▸ hnew) ?_
      rw [hsender]
      exact (hs.past i hi).trans hnow
    cases hs.fate i hi with
    | lost h => exact .lost (hlost i h)
    | travels p hp hnumber =>
        rcases hgone p hp with hstill | hdrop | ⟨now, hnow, hnew⟩
        · exact .travels p hstill hnumber
        · exact .lost (hnumber ▸ hdrop)
        · exact hheard now hnow hnew
    | heard seen hold hle =>
        rcases hseen with hsame | ⟨now, hnow, hnew⟩
        · refine .heard seen ?_ (hsender ▸ hle)
          rw [hsender, hsame]
          exact hold
        · exact hheard now hnow hnew
  few := hfew
  since := by
    rw [hsender]
    intro seen hnew
    rcases hseen with hsame | ⟨now, hnow, hnow'⟩
    · exact hs.since seen (hsame ▸ hnew)
    · obtain rfl := Option.some.inj (hnew.symm.trans hnow')
      exact hs.started.trans hnow

/-- What the sender does. -/
theorem Sound.sent {interval : ℕ} (hs : s.Sound t interval ε losses) (hε : ε ≤ 2 ^ 31 * 1000000)
    {b : DiscoveryLoop.Action π} (hb : s.sender.Prompt ε b) (h : next s (.sender b) = some s') :
    s'.Sound t interval ε losses := by
  obtain ⟨hclock, hmap⟩ := Option.ite_none_right_eq_some.mp h
  obtain ⟨sender, hsender, rfl⟩ := Option.map_eq_some_iff.mp hmap
  have hsettings := DiscoveryLoop.settings_next hsender
  simp only [DiscoveryLoop.settings, Discovery.settings, Prod.mk.injEq] at hsettings
  obtain ⟨huuid, hname, -, -, hinterval⟩ := hsettings
  have hlater : s.clock ≤ b.now.getD s.clock := by
    cases hnow : b.now with
    | none => exact le_rfl
    | some now => exact hclock now hnow
  have hold : ∀ i < s.sender.beats.length, sender.signAt i = s.sender.signAt i := by
    intro i hi
    rcases DiscoveryLoop.beats_next hsender with ⟨hbeats, -⟩ | ⟨now, later, -, hbeats, -⟩
    · rw [DiscoveryLoop.signAt, hbeats, DiscoveryLoop.signAt]
    · rw [DiscoveryLoop.signAt_cons hbeats, if_pos hi]
  have hfate : ∀ i < s.sender.beats.length, Fate
      { s with
        sender := sender
        clock := b.now.getD s.clock
        wire := s.wire ++ s.sender.packets b } i := by
    intro i hi
    cases hs.fate i hi with
    | lost h => exact .lost h
    | travels p hp hnumber => exact .travels p (List.mem_append_left _ hp) hnumber
    | heard seen hseen hle => exact .heard seen (huuid ▸ hseen) ((hold i hi).trans_le hle)
  refine
    { timed := hs.timed.next hε hb hsender
      regular := hs.regular.next hs.timed hs.interval hb hsender
      interval := hinterval ▸ hs.interval
      strangers := huuid.trans_ne hs.strangers
      sends := Discovery.sendHeartbeat_congr huuid hname ▸ hs.sends
      started := hs.started.trans hlater
      past := ?_
      wire := ?_
      fate := ?_
      few := hs.few
      since := huuid ▸ hs.since }
  · intro i hi
    rcases DiscoveryLoop.beats_next hsender with ⟨hbeats, -⟩ | ⟨now, later, rfl, hbeats, -⟩
    · rw [hbeats] at hi
      rw [hold i hi]
      exact (hs.past i hi).trans hlater
    · rw [DiscoveryLoop.signAt_cons hbeats]
      rw [hbeats, List.length_cons] at hi
      split
      case isTrue hi => exact (hs.past i hi).trans hlater
      case isFalse hnew =>
        rw [if_pos (by omega)]
        exact le_rfl
  · intro p hp
    rcases List.mem_append.mp hp with hp | hp
    · obtain ⟨hnumber, hsent, hm⟩ := hs.wire p hp
      refine ⟨?_, hsent.trans (hold _ hnumber).symm, huuid ▸ hm⟩
      rcases DiscoveryLoop.beats_next hsender with ⟨hbeats, -⟩ | ⟨now, later, -, hbeats, -⟩
      · rwa [hbeats]
      · rw [hbeats, List.length_cons]
        omega
    · rcases DiscoveryLoop.beats_next hsender with ⟨-, hnone⟩ | ⟨now, later, -, hbeats, hone⟩
      · rw [hnone] at hp
        cases hp
      · rw [hone] at hp
        obtain ⟨m, hm, rfl⟩ := List.mem_map.mp hp
        refine ⟨by rw [hbeats]; simp, ?_, huuid ▸ Discovery.mem_sendHeartbeat hm⟩
        rw [DiscoveryLoop.signAt_cons hbeats, if_neg (by simp), if_pos rfl]
  · intro i hi
    rcases DiscoveryLoop.beats_next hsender with ⟨hbeats, -⟩ | ⟨now, later, -, hbeats, hone⟩
    · exact hfate i (hbeats ▸ hi)
    · rw [hbeats, List.length_cons] at hi
      by_cases hi' : i < s.sender.beats.length
      · exact hfate i hi'
      · obtain ⟨m, hm⟩ := List.exists_mem_of_ne_nil _ hs.sends
        refine .travels ⟨s.sender.beats.length, now, m⟩ (List.mem_append_right _ ?_) ?_
        · rw [hone]
          exact List.mem_map_of_mem hm
        · dsimp only
          omega

/-- A step of the receiver, which other datagrams may be part of. -/
theorem Sound.watched [WirePub π] [Discovery.SetsBase π] {interval : ℕ}
    (hs : s.Sound t interval ε losses) {b : DiscoveryLoop.Action π}
    (hbye : ∀ fromIp m now, b = .recv fromIp m now →
      m.processUuid = s.sender.self.processUuid → m.type ≠ .bye)
    (hspared : s.Spares (.receiver b)) (h : next s (.receiver b) = some s') :
    s'.Sound t interval ε losses := by
  obtain ⟨hclock, hmap⟩ := Option.ite_none_right_eq_some.mp h
  obtain ⟨receiver, hreceiver, rfl⟩ := Option.map_eq_some_iff.mp hmap
  have hsettings := DiscoveryLoop.settings_next hreceiver
  simp only [DiscoveryLoop.settings, Discovery.settings, Prod.mk.injEq] at hsettings
  have hlater : s.clock ≤ b.now.getD s.clock := by
    cases hnow : b.now with
    | none => exact le_rfl
    | some now => exact hclock now hnow
  have hkept : ∀ now later, b = .activity now later → s.receiver.self.timeNextActivity ≤ now →
      ¬ s.receiver.self.Silent now s.sender.self.processUuid := by
    intro now later hb
    subst hb
    exact hspared
  refine hs.received rfl hlater hsettings.1 ?_ (fun p hp => hp) (fun i hi => hi)
    (fun p hp => .inl hp) hs.few
  rcases DiscoveryLoop.lastSeen_next hs.strangers hreceiver hbye hkept with hsame |
    ⟨fromIp, m, now, rfl, -, hnew⟩
  · exact .inl hsame
  · exact .inr ⟨now, hclock now rfl, hnew⟩

/-- A heartbeat that arrives. -/
theorem Sound.delivered [WirePub π] [Discovery.SetsBase π] {interval : ℕ}
    (hs : s.Sound t interval ε losses) {fromIp : Str} {i now : ℕ}
    (h : next s (.deliver fromIp i now) = some s') : s'.Sound t interval ε losses := by
  obtain ⟨hclock, hbind⟩ := Option.ite_none_right_eq_some.mp h
  obtain ⟨p, hp, hmap⟩ := Option.bind_eq_some_iff.mp hbind
  obtain ⟨receiver, hreceiver, rfl⟩ := Option.map_eq_some_iff.mp hmap
  obtain ⟨hi, rfl⟩ := List.getElem?_eq_some_iff.mp hp
  obtain ⟨-, -, hfrom, htype⟩ := hs.wire _ (List.getElem_mem hi)
  have hown := (DiscoveryLoop.settings_next hreceiver)
  simp only [DiscoveryLoop.settings, Discovery.settings, Prod.mk.injEq] at hown
  have hnew : receiver.self.lastSeenByProcess[s.sender.self.processUuid]? = some now := by
    obtain ⟨-, hsame⟩ := Option.ite_none_right_eq_some.mp hreceiver
    obtain rfl := Option.some.inj hsame
    have hne : s.wire[i].m.processUuid ≠ s.receiver.self.processUuid := by
      rw [hfrom]
      exact hs.strangers
    rw [← hfrom, Discovery.lastSeen_dispatch_self hne, htype, if_neg (by simp)]
  exact hs.received rfl hclock hown.1 (.inr ⟨now, hclock, hnew⟩)
    (fun p => List.mem_of_mem_eraseIdx) (fun i hi => hi)
    (fun p _ => .inr (.inr ⟨now, hclock, hnew⟩)) hs.few

omit [PubLike π] in
theorem mem_eraseIdx_or {i : ℕ} {p q : Packet} {wire : List Packet} (hp : wire[i]? = some p)
    (hq : q ∈ wire) : q = p ∨ q ∈ wire.eraseIdx i := by
  obtain ⟨hi, rfl⟩ := List.getElem?_eq_some_iff.mp hp
  exact List.mem_cons.mp ((List.getElem_cons_eraseIdx_perm hi).mem_iff.mpr hq)

/-- **One step.** -/
theorem Sound.next [WirePub π] [Discovery.SetsBase π] {interval : ℕ}
    (hs : s.Sound t interval ε losses) (hε : ε ≤ 2 ^ 31 * 1000000)
    (ha : s.Timely ε delay losses a) (hspared : s.Spares a) (h : next s a = some s') :
    s'.Sound t interval ε losses := by
  cases a with
  | sender b => exact hs.sent hε ha.2 h
  | receiver b =>
      refine hs.watched ?_ hspared h
      intro fromIp m now hb
      subst hb
      exact ha.2
  | deliver fromIp i now => exact hs.delivered h
  | lose i =>
      obtain ⟨p, hp, rfl⟩ := Option.map_eq_some_iff.mp h
      refine hs.received rfl le_rfl rfl (.inl rfl) (fun p => List.mem_of_mem_eraseIdx)
        (fun i hi => List.mem_cons_of_mem _ hi) ?_ (ha.2 p hp)
      intro q hq
      rcases mem_eraseIdx_or hp hq with rfl | hstill
      · exact .inr (.inl List.mem_cons_self)
      · exact .inl hstill

omit [PubLike π] in
/-- A check that comes in time for the margin spares the sender. -/
theorem Sound.spares {interval : ℕ} (hs : s.Sound t interval ε losses)
    (ha : s.Timely ε delay losses a)
    (hmargin : (losses + 1) * (interval + 3 * ε) + delay + 2 * ε <
      (s.receiver.self.silenceInterval + 1) * 1000000) : s.Spares a := by
  cases a with
  | receiver b =>
      cases b with
      | activity now later =>
          intro _ hsilent
          obtain ⟨seen, hseen, hlong⟩ := hsilent
          have hread := ha.1 now rfl
          have hnear := hs.near hread.1 hread.2 hseen
          omega
      | call | ask | recv | wake | heartbeat => trivial
  | sender | deliver | lose => trivial

theorem silenceInterval_next (h : next s a = some s') :
    s'.receiver.self.silenceInterval = s.receiver.self.silenceInterval := by
  have hkept : ∀ {b : DiscoveryLoop.Action π} {receiver : DiscoveryLoop π},
      s.receiver.next b = some receiver →
      receiver.self.silenceInterval = s.receiver.self.silenceInterval := by
    intro b receiver hnext
    have hsettings := DiscoveryLoop.settings_next hnext
    simp only [DiscoveryLoop.settings, Discovery.settings, Prod.mk.injEq] at hsettings
    exact hsettings.2.2.1
  cases a with
  | sender b =>
      obtain ⟨-, hmap⟩ := Option.ite_none_right_eq_some.mp h
      obtain ⟨sender, -, rfl⟩ := Option.map_eq_some_iff.mp hmap
      rfl
  | receiver b =>
      obtain ⟨-, hmap⟩ := Option.ite_none_right_eq_some.mp h
      obtain ⟨receiver, hreceiver, rfl⟩ := Option.map_eq_some_iff.mp hmap
      exact hkept hreceiver
  | deliver fromIp i now =>
      obtain ⟨-, hbind⟩ := Option.ite_none_right_eq_some.mp h
      obtain ⟨p, -, hmap⟩ := Option.bind_eq_some_iff.mp hbind
      obtain ⟨receiver, hreceiver, rfl⟩ := Option.map_eq_some_iff.mp hmap
      exact hkept hreceiver
  | lose i =>
      obtain ⟨p, -, rfl⟩ := Option.map_eq_some_iff.mp h
      rfl

theorem Spares.leavesSender [Discovery.SetsBase π] (h : s.Spares a) : s.LeavesSender a := by
  cases a with
  | receiver b =>
      cases b with
      | activity now later =>
          by_cases hdue : now < s.receiver.self.timeNextActivity
          · simp only [LeavesSender, Discovery.updateActivity, if_pos hdue]
            exact ⟨trivial, fun _ => trivial, fun p hp => by cases hp⟩
          · have hkept : s.sender.self.processUuid ∉ s.receiver.self.expiredProcesses now := by
              rw [Discovery.mem_expiredProcesses_iff]
              exact h (by omega)
            simp only [LeavesSender, Discovery.updateActivity, if_neg hdue]
            refine ⟨?_, ?_, ?_⟩
            · exact Discovery.getElem?_filter_expired.trans (if_neg hkept)
            · intro topic
              exact (TopicStorage.pubsOf_foldl_delPublishersByProc _ _ topic _).trans (if_neg hkept)
            · intro p hp huuid
              split at hp
              case isTrue =>
                obtain ⟨q, hq, hcall⟩ := List.mem_map.mp hp
                obtain rfl := Callback.disconnection.inj hcall
                rw [Discovery.processUuid_setProcessUuid] at huuid
                exact hkept (huuid ▸ hq)
              case isFalse => cases hp
      | call | ask | recv | wake | heartbeat => trivial
  | sender | deliver | lose => trivial

/-- **A live process is never given up.**  If the silence interval outlasts as many heartbeats as
may be lost in a row and one more, with their delay, then no check of the receiver ever gives
up the sender, whatever else the receiver does and hears. -/
theorem never_given_up [WirePub π] [Discovery.SetsBase π] (d : Discovery π)
    (hd : d.enabled = false) (hsends : d.sendHeartbeat ≠ []) (receiver : DiscoveryLoop π)
    (hstrangers : d.processUuid ≠ receiver.self.processUuid)
    (hunseen : d.processUuid ∉ receiver.self.lastSeenByProcess) (t ε delay losses : ℕ)
    (hε : ε ≤ 2 ^ 31 * 1000000)
    (hmargin : (losses + 1) * (d.heartbeatInterval * 1000000 + 3 * ε) + delay + 2 * ε <
      (receiver.self.silenceInterval + 1) * 1000000)
    (run : List (Action π))
    (htimely : Guarded next (Timely ε delay losses) (start d t receiver) run) :
    Guarded next LeavesSender (start d t receiver) run := by
  have hspared : ∀ (s : Monitored π) (a : Action π),
      s.Sound t (d.heartbeatInterval * 1000000) ε losses ∧
        s.receiver.self.silenceInterval = receiver.self.silenceInterval →
      s.Timely ε delay losses a → s.Spares a := by
    intro s a hs ha
    exact hs.1.spares ha (hs.2 ▸ hmargin)
  refine Guarded.mono (G := Spares) (fun s a => Spares.leavesSender) ?_
  refine guarded_of_invariant (P := fun s => s.Sound t (d.heartbeatInterval * 1000000) ε losses ∧
    s.receiver.self.silenceInterval = receiver.self.silenceInterval) ?_ hspared ⟨?_, rfl⟩ htimely
  · intro s a s' hs ha hnext
    exact ⟨hs.1.next hε ha (hspared s a hs ha) hnext, (silenceInterval_next hnext).trans hs.2⟩
  · have hstart : (DiscoveryLoop.start d t).self =
        { d with enabled := true, timeNextActivity := t, timeNextHeartbeat := t } := by
      simp [DiscoveryLoop.start, Discovery.startAt, hd]
    refine
      { timed := DiscoveryLoop.timed_start hd t ε
        regular := DiscoveryLoop.regular_start hd t ε
        interval := by simp only [start, hstart]
        strangers := by simpa only [start, hstart] using hstrangers
        sends := ?_
        started := le_rfl
        past := by simp [start, DiscoveryLoop.start]
        wire := by simp [start]
        fate := by simp [start, DiscoveryLoop.start]
        few := ?_
        since := ?_ }
    · simp only [start, hstart]
      exact (Discovery.sendHeartbeat_congr rfl rfl).trans_ne hsends
    · intro first
      exact ⟨0, Nat.zero_le _, List.not_mem_nil⟩
    · intro seen hseen
      simp only [start, hstart] at hseen
      rw [Std.ExtTreeMap.getElem?_eq_none hunseen] at hseen
      cases hseen

/-! ## A heartbeat is lost -/

/-- Another instance, which watches. -/
def watcher : DiscoveryLoop MessagePublisherInfo :=
  .start { processUuid := str "5b", hostAddr := str "10.0.0.1", enabled := false } 0

/-- The first heartbeat of a hasty process is lost, the second one arrives. -/
def oneLost : List (Action MessagePublisherInfo) :=
  [.sender (.ask 0), .sender .wake, .sender (.heartbeat 1 2), .sender (.activity 3 3), .lose 0,
    .sender (.ask 4), .receiver (.ask 4), .sender .wake, .sender (.heartbeat 100000002 100000003),
    .deliver (str "10.0.0.2") 0 100000003, .receiver (.heartbeat 100000003 100000003),
    .receiver (.activity 100000003 100000003)]

theorem timely_oneLost :
    Guarded next (Timely 1000000 500000000 1) (start DiscoveryLoop.hasty 0 watcher) oneLost := by
  refine guarded_step rfl ⟨by decide, by decide⟩ ?_
  refine guarded_step rfl ⟨by decide, by decide⟩ ?_
  refine guarded_step rfl ⟨by decide, by decide⟩ ?_
  refine guarded_step rfl ⟨by decide, by decide⟩ ?_
  refine guarded_step rfl ⟨by decide, ?_⟩ ?_
  · intro p hp first
    obtain rfl := Option.some.inj hp
    have hone : first + 1 ∉ [0] := by simp
    exact ⟨1, le_rfl, hone⟩
  refine guarded_step rfl ⟨by decide, by decide⟩ ?_
  refine guarded_step rfl ⟨by decide, trivial⟩ ?_
  refine guarded_step rfl ⟨by decide, by decide⟩ ?_
  refine guarded_step rfl ⟨by decide, by decide⟩ ?_
  refine guarded_step rfl ⟨by decide, trivial⟩ ?_
  refine guarded_step rfl ⟨by decide, trivial⟩ ?_
  exact guarded_step rfl ⟨by decide, trivial⟩ trivial

theorem never_given_up_oneLost :
    Guarded next LeavesSender (start DiscoveryLoop.hasty 0 watcher) oneLost :=
  never_given_up DiscoveryLoop.hasty rfl (by decide) watcher (by decide) (by decide) 0 1000000
    500000000 1 (by norm_num) (by decide) oneLost timely_oneLost

end Monitored
end RfTrans
