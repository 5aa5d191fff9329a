import Mathlib.Logic.Function.Basic
import RfTrans.Lib.Exec
import RfTrans.Runtime.Known

/-!
# Processes on a network

Any number of processes that hear each other's multicasts.  Between two processes
datagrams arrive in the order in which they were sent, unless they are lost.  A
process also hears its own datagrams.

## Main definitions

* `Hosts` — who the processes are.
* `Net` — their states, and the datagrams in flight from one to another.
* `Net.next` — one step: of a process, or of a datagram that arrives or is lost.
* `Net.Healthy` — every process is sound and still itself.
-/

namespace RfTrans

open Exec

/-- The identities of the processes of a network. -/
structure Hosts (ι : Type) where
  uuid : ι → Str
  name : ι → Str
  hostAddr : ι → Str
  address : ι → Str
  uuid_inj : Function.Injective uuid
  uuid_ne : ∀ i, uuid i ≠ []

/-- The uuids of the examples. -/
theorem exampleUuid_injective :
    Function.Injective fun i : Bool => if i then str "4a" else str "5b" := by
  decide

theorem exampleUuid_ne_nil (i : Bool) : (if i then str "4a" else str "5b") ≠ [] := by
  cases i with
  | false => decide
  | true => decide

/-- A network: the processes, and for each two of them what is in flight. -/
structure Net (ι : Type) where
  proc : ι → MessageRuntime
  chan : ι → ι → List Msgs.Discovery

namespace Net

variable {ι : Type} [DecidableEq ι]

/-- A step of the network. -/
inductive Action (ι : Type)
  /-- A process acts by itself. -/
  | act (i : ι) (a : MessageRuntime.Action)
  /-- The next datagram from `i` reaches `j`, at a reading of its clock. -/
  | deliver (i j : ι) (now : ℕ)
  /-- The next datagram from `i` to `j` is lost. -/
  | lose (i j : ι)

/-- What a process can do by itself. -/
def own : MessageRuntime.Action → Bool
  | .recv .. => false
  | _ => true

/-- A process has moved on and multicasts. -/
def emit (n : Net ι) (i : ι) (rt : MessageRuntime) (sent : List Msgs.Discovery) : Net ι where
  proc := Function.update n.proc i rt
  chan j k := if j = i then n.chan j k ++ sent else n.chan j k

/-- The datagrams left between two processes. -/
def setChan (n : Net ι) (i j : ι) (ms : List Msgs.Discovery) : Net ι :=
  { n with chan := fun i' j' => if i' = i ∧ j' = j then ms else n.chan i' j' }

/-- One step; a datagram comes with the address of its sender. -/
def next (n : Net ι) : Action ι → Option (Net ι)
  | .act i a =>
    if own a then ((n.proc i).perform a).map fun x => n.emit i x.1 x.2 else none
  | .deliver i j now =>
    match n.chan i j with
    | [] => none
    | m :: rest =>
      let x := (n.proc j).recvDiscoveryMsg (n.proc i).discovery.hostAddr m now
      some ((n.setChan i j rest).emit j x.1 x.2)
  | .lose i j =>
    match n.chan i j with
    | [] => none
    | _ :: rest => some (n.setChan i j rest)

/-- All processes have just started. -/
def start (c : Hosts ι) : Net ι where
  proc i := MessageRuntime.init (c.uuid i) (c.name i) (c.hostAddr i) (c.address i)
  chan _ _ := []

/-- A state of the network that a run reaches. -/
def Reachable (c : Hosts ι) (n : Net ι) : Prop := ∃ as, exec next (start c) as = some n

/-! ## Steps of one process -/

/-- What process `i` does in a step. -/
def localAction (n : Net ι) (i : ι) : Action ι → Option MessageRuntime.Action
  | .act j a => if j = i ∧ own a then some a else none
  | .deliver j k now =>
    if k = i then (n.chan j k).head?.map fun m => .recv (n.proc j).discovery.hostAddr m now
    else none
  | .lose _ _ => none

/-- A process acts by itself. -/
theorem next_act_eq_some {n n' : Net ι} {i : ι} {b : MessageRuntime.Action}
    (h : next n (.act i b) = some n') :
    own b = true ∧ ∃ rt sent, (n.proc i).perform b = some (rt, sent) ∧ n' = n.emit i rt sent := by
  simp only [next] at h
  split at h
  case isFalse => cases h
  case isTrue hown =>
    obtain ⟨⟨rt, sent⟩, hp, rfl⟩ := Option.map_eq_some_iff.mp h
    exact ⟨hown, rt, sent, hp, rfl⟩

/-- **A step of the network is a step of each process**, or none. -/
theorem proc_next {n n' : Net ι} {a : Action ι} (h : next n a = some n') (i : ι) :
    (localAction n i a = none ∧ n'.proc i = n.proc i) ∨
      ∃ b sent, localAction n i a = some b ∧ (n.proc i).perform b = some (n'.proc i, sent) := by
  cases a with
  | act j b =>
      obtain ⟨hown, rt, sent, hp, rfl⟩ := next_act_eq_some h
      by_cases hj : j = i
      · subst hj
        right
        exact ⟨b, sent, by simp [localAction, hown], by simpa [emit] using hp⟩
      · left
        exact ⟨by simp [localAction, hj], Function.update_of_ne (Ne.symm hj) _ _⟩
  | deliver j k now =>
      simp only [next] at h
      split at h
      case h_1 => cases h
      case h_2 m rest hm =>
        obtain rfl := Option.some.inj h
        by_cases hk : k = i
        · subst hk
          right
          let x := (n.proc k).recvDiscoveryMsg (n.proc j).discovery.hostAddr m now
          refine ⟨.recv (n.proc j).discovery.hostAddr m now, x.2, by simp [localAction, hm], ?_⟩
          simp [emit, MessageRuntime.perform, x]
        · left
          exact ⟨by simp [localAction, hk], Function.update_of_ne (Ne.symm hk) _ _⟩
  | lose j k =>
      simp only [next] at h
      split at h
      case h_1 => cases h
      case h_2 m rest hm =>
        obtain rfl := Option.some.inj h
        exact .inl ⟨rfl, rfl⟩

/-- What is in flight was in flight before, or has just been sent. -/
theorem mem_chan_next {n n' : Net ι} {a : Action ι} (h : next n a = some n') {i j : ι}
    {m : Msgs.Discovery} (hm : m ∈ n'.chan i j) :
    m ∈ n.chan i j ∨ ∃ b sent, localAction n i a = some b ∧
      (n.proc i).perform b = some (n'.proc i, sent) ∧ m ∈ sent := by
  have hsub : ∀ {n : Net ι} {i j i' j' : ι} {m m' : Msgs.Discovery} {rest : List Msgs.Discovery},
      n.chan i j = m' :: rest → m ∈ (n.setChan i j rest).chan i' j' → m ∈ n.chan i' j' := by
    intro n i j i' j' m m' rest hc hm
    simp only [setChan] at hm
    split at hm
    case isTrue heq =>
      rw [heq.1, heq.2, hc]
      exact List.mem_cons_of_mem _ hm
    case isFalse => exact hm
  cases a with
  | act k b =>
      obtain ⟨hown, rt, sent, hp, rfl⟩ := next_act_eq_some h
      by_cases hi : i = k
      · subst hi
        have hm' : m ∈ n.chan i j ++ sent := by simpa [emit] using hm
        rcases List.mem_append.mp hm' with hm | hm
        · exact .inl hm
        · exact .inr ⟨b, sent, by simp [localAction, hown], by simpa [emit] using hp, hm⟩
      · exact .inl (by simpa [emit, hi] using hm)
  | deliver k l now =>
      simp only [next] at h
      split at h
      case h_1 => cases h
      case h_2 m' rest hc =>
        obtain rfl := Option.some.inj h
        let x := (n.proc l).recvDiscoveryMsg (n.proc k).discovery.hostAddr m' now
        by_cases hi : i = l
        · subst hi
          have hm' : m ∈ (n.setChan k i rest).chan i j ++ x.2 := by simpa [emit] using hm
          rcases List.mem_append.mp hm' with hm | hm
          · exact .inl (hsub hc hm)
          · refine .inr ⟨.recv (n.proc k).discovery.hostAddr m' now, x.2,
              by simp [localAction, hc], ?_, hm⟩
            simp [emit, MessageRuntime.perform, x]
        · exact .inl (hsub hc (by simpa [emit, hi] using hm))
  | lose k l =>
      simp only [next] at h
      split at h
      case h_1 => cases h
      case h_2 m' rest hc =>
        obtain rfl := Option.some.inj h
        exact .inl (hsub hc hm)

/-- A datagram that a process receives was in flight to it. -/
theorem mem_chan_of_recv {n : Net ι} {a : Action ι} {i : ι} {fromIp : Str} {m : Msgs.Discovery}
    {now : ℕ} (h : localAction n i a = some (.recv fromIp m now)) :
    ∃ j, m ∈ n.chan j i ∧ fromIp = (n.proc j).discovery.hostAddr := by
  cases a with
  | act k b =>
      simp only [localAction] at h
      split at h
      case isTrue hb =>
        obtain rfl := Option.some.inj h
        cases hb.2
      case isFalse => cases h
  | deliver k l now' =>
      simp only [localAction] at h
      split at h
      case isTrue hl =>
        subst hl
        obtain ⟨m', hm', heq⟩ := Option.map_eq_some_iff.mp h
        cases heq
        exact ⟨k, List.mem_of_mem_head? hm', rfl⟩
      case isFalse => cases h
  | lose k l => cases h

/-- Every process is sound and still itself. -/
structure Healthy (c : Hosts ι) (n : Net ι) : Prop where
  sound : ∀ i, (n.proc i).Sound
  uuid : ∀ i, (n.proc i).processUuid = c.uuid i
  name : ∀ i, (n.proc i).discovery.processName = c.name i
  hostAddr : ∀ i, (n.proc i).discovery.hostAddr = c.hostAddr i
  address : ∀ i, (n.proc i).address = c.address i

omit [DecidableEq ι] in
theorem healthy_start (c : Hosts ι) : Healthy c (start c) :=
  ⟨fun i => MessageRuntime.sound_init (c.uuid_ne i) _ _ _, fun _ => rfl, fun _ => rfl,
    fun _ => rfl, fun _ => rfl⟩

theorem Healthy.step {c : Hosts ι} {n n' : Net ι} {a : Action ι} (hn : Healthy c n)
    (h : next n a = some n') : Healthy c n' := by
  have hproc : ∀ i, (n'.proc i).Sound ∧ MessageRuntime.Kept (n.proc i) (n'.proc i) := by
    intro i
    rcases proc_next h i with ⟨-, heq⟩ | ⟨b, sent, -, hp⟩
    · rw [heq]
      exact ⟨hn.sound i, MessageRuntime.Kept.refl _⟩
    · exact ⟨(hn.sound i).step hp, MessageRuntime.kept_perform (hn.sound i).running hp⟩
  refine ⟨fun i => (hproc i).1, fun i => ?_, fun i => ?_, fun i => ?_, fun i => ?_⟩
  · rw [(hproc i).2.processUuid, hn.uuid]
  · obtain ⟨known, seen, heartbeat, activity, hd⟩ := (hproc i).2.discovery
    rw [hd]
    exact hn.name i
  · obtain ⟨known, seen, heartbeat, activity, hd⟩ := (hproc i).2.discovery
    rw [hd]
    exact hn.hostAddr i
  · rw [(hproc i).2.address, hn.address]

theorem Reachable.healthy {c : Hosts ι} {n : Net ι} (h : Reachable c n) : Healthy c n := by
  obtain ⟨as, has⟩ := h
  exact stable (fun _ _ _ hn h => hn.step h) (healthy_start c) has

end Net
end RfTrans
