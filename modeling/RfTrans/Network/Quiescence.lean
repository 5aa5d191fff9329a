import Mathlib.Algebra.BigOperators.Group.Finset.Basic
import Mathlib.Data.Fintype.Basic
import RfTrans.Lib.Exec
import RfTrans.Network.Healing

/-!
# Discovery comes to rest

A SUBSCRIBE is answered by ADVERTISEs, an ADVERTISE makes a subscriber queue commands, and a
command sends NEW_CONNECTIONs, to which nobody replies.  So the datagrams that a call or a
heartbeat sets off run out, whatever the order in which they arrive or are lost.

## Main definitions

* `Net.Reacts`, `Net.Ticks` — the steps that nobody asked for.
* `Net.pending` — what is in flight and what is queued, by its level.
* `Net.comes_to_rest`
-/

namespace RfTrans
namespace Net

open Exec Cascade MessageRuntime

variable {ι : Type} [DecidableEq ι]

/-- A datagram arrives or is lost, or a receive thread takes a command. -/
def Reacts : Action ι → Prop
  | .act _ (.applyCommand _) => True
  | .act _ _ => False
  | .deliver .. => True
  | .lose .. => True

/-- A process looks for silent ones. -/
def Ticks : Action ι → Prop
  | .act _ (.activity ..) => True
  | _ => False

/-- Nothing is in flight, and no command is queued. -/
def AtRest (n : Net ι) : Prop :=
  (∀ i j, n.chan i j = []) ∧ ∀ i, (n.proc i).subscriberCommands = []

/-- How much a datagram may set off. A command is at level 1. -/
def level (m : Msgs.Discovery) : ℕ :=
  match m.type with
  | .subscribe => 3
  | .advertise => 2
  | _ => 0

variable [Fintype ι]

/-- The levels of what is in flight. -/
def inFlight (n : Net ι) : Multiset ℕ := ∑ i, ∑ j, ↑((n.chan i j).map level)

/-- The levels of what is queued. -/
def queued (n : Net ι) : Multiset ℕ :=
  ∑ i, Multiset.replicate (n.proc i).subscriberCommands.length 1

/-- What is left to do. -/
def pending (n : Net ι) : Multiset ℕ := n.inFlight + n.queued

variable {n n' : Net ι} {i j : ι} {rt : MessageRuntime} {m : Msgs.Discovery}
  {m' : Msgs.Discovery} {sent rest : List Msgs.Discovery}

/-! ## Sums -/

/-- A sum in which one term has grown. -/
theorem sum_eq_sum_add {M : Type} [AddCommMonoid M] {f g : ι → M} {x : M} (i : ι)
    (hi : f i = g i + x) (hrest : ∀ k, k ≠ i → f k = g k) : ∑ k, f k = ∑ k, g k + x := by
  rw [← Finset.add_sum_erase _ f (Finset.mem_univ i),
    ← Finset.add_sum_erase _ g (Finset.mem_univ i), hi,
    Finset.sum_congr rfl fun k hk => hrest k (Finset.ne_of_mem_erase hk), add_right_comm]

/-- A datagram is taken out. -/
theorem inFlight_setChan (h : n.chan i j = m :: rest) :
    n.inFlight = level m ::ₘ (n.setChan i j rest).inFlight := by
  rw [← Multiset.singleton_add, add_comm]
  refine sum_eq_sum_add i (sum_eq_sum_add j ?_ ?_) ?_
  · simp only [setChan, h, and_self, if_true]
    rw [List.map_cons, ← Multiset.cons_coe, add_comm, Multiset.singleton_add]
  · intro k hk
    simp only [setChan, hk, and_false, if_false]
  · intro k hk
    simp only [setChan, hk, false_and, if_false]

/-- Datagrams are sent, to everybody. -/
theorem inFlight_emit : (n.emit i rt sent).inFlight =
    n.inFlight + ∑ _j : ι, (↑(sent.map level) : Multiset ℕ) := by
  refine sum_eq_sum_add i ?_ ?_
  · rw [← Finset.sum_add_distrib]
    refine Finset.sum_congr rfl fun j _ => ?_
    simp only [emit, if_true, List.map_append, Multiset.coe_add]
  · intro k hk
    simp only [emit, hk, if_false]

omit [Fintype ι] in
theorem proc_emit_self : (n.emit i rt sent).proc i = rt := Function.update_self ..

omit [Fintype ι] in
theorem proc_emit_of_ne {k : ι} (h : k ≠ i) : (n.emit i rt sent).proc k = n.proc k :=
  Function.update_of_ne h ..

theorem queued_setChan : (n.setChan i j rest).queued = n.queued := rfl

/-- The queue of the process that moves on. -/
theorem queued_emit {new : List SubscriberCommand}
    (h : rt.subscriberCommands = (n.proc i).subscriberCommands ++ new) :
    (n.emit i rt sent).queued = n.queued + Multiset.replicate new.length 1 := by
  refine sum_eq_sum_add i ?_ ?_
  · rw [proc_emit_self, h, List.length_append, Multiset.replicate_add]
  · intro k hk
    rw [proc_emit_of_ne hk]

theorem queued_emit_tail {c : SubscriberCommand} {cs : List SubscriberCommand}
    (hq : (n.proc i).subscriberCommands = c :: cs) (h : rt.subscriberCommands = cs) :
    n.queued = 1 ::ₘ (n.emit i rt sent).queued := by
  rw [← Multiset.singleton_add, add_comm]
  refine sum_eq_sum_add i ?_ ?_
  · rw [proc_emit_self, h, hq, List.length_cons, Multiset.replicate_succ,
      ← Multiset.singleton_add, add_comm]
  · intro k hk
    rw [proc_emit_of_ne hk]

omit [DecidableEq ι] in
theorem exists_of_mem_sum {x : ℕ} (h : x ∈ ∑ _j : ι, (↑(sent.map level) : Multiset ℕ)) :
    ∃ m ∈ sent, level m = x := by
  obtain ⟨-, -, hx⟩ := Multiset.mem_sum.mp h
  exact List.mem_map.mp (Multiset.mem_coe.mp hx)

/-! ## Steps -/

omit [Fintype ι] in
/-- A datagram is answered by datagrams of a lower level. -/
theorem level_sent_recv {fromIp : Str} {now : ℕ}
    (hm : m ∈ (rt.recvDiscoveryMsg fromIp m' now).2) : level m < level m' := by
  obtain ⟨-, hsubscribe, topic, -, hanswer⟩ := Discovery.mem_sent_dispatch hm
  obtain ⟨x, -, -, hx⟩ := Discovery.mem_answerSubscribe hanswer
  have htype : m.type = .advertise := by
    rw [((Discovery.mem_sendMsg _ (.inl rfl)).mp hx).1]
    rfl
  simp only [level, htype, hsubscribe]
  decide

/-- Only an ADVERTISE makes a process queue commands. -/
theorem commands_recv_cases (hr : rt.Running) (fromIp : Str) (m : Msgs.Discovery) (now : ℕ) :
    ∃ new, (rt.recvDiscoveryMsg fromIp m now).1.subscriberCommands = rt.subscriberCommands ++ new ∧
      (new = [] ∨ level m = 2) := by
  refine ⟨_, commands_recv hr fromIp m now, ?_⟩
  by_cases hadvertise : m.type = .advertise
  · right
    simp only [level, hadvertise]
  · left
    have hadds : rt.adds (.recv fromIp m now) = none := by simp [adds, hadvertise]
    rw [hadds]
    rfl

/-- **A step that nobody asked for** takes something from what is left to do, and leaves only
what is at lower levels. -/
theorem falls_of_reacts (hrun : ∀ i, (n.proc i).Running) {a : Action ι} (ha : Reacts a)
    (h : next n a = some n') : Falls n.pending n'.pending := by
  cases a with
  | act i b =>
      cases b with
      | applyCommand ok =>
          obtain ⟨-, rt, sent, hp, rfl⟩ := next_act_eq_some h
          obtain ⟨c, rest, hq, hrt, -⟩ := perform_applyCommand _ hp
          have hcommands : rt.subscriberCommands = rest := by rw [hrt, commands_applyCommand]
          refine ⟨n.inFlight + (n.emit i rt sent).queued,
            ∑ _k : ι, (↑(sent.map level) : Multiset ℕ), 1, ?_, ?_, ?_⟩
          · rw [pending, queued_emit_tail hq hcommands, Multiset.add_cons]
          · rw [pending, inFlight_emit, add_right_comm]
          · intro x hx
            obtain ⟨m, hm, rfl⟩ := exists_of_mem_sum hx
            obtain ⟨t, regs, rest, -, r, -, hr⟩ := mem_sent_applyNext hp hm
            rw [((Discovery.mem_sendMsg _ (.inr (.inr (.inl rfl)))).mp hr).1]
            exact Nat.zero_lt_one
      | _ => cases ha
  | deliver i j now =>
      simp only [next] at h
      split at h
      case h_1 => cases h
      case h_2 m rest hc =>
        obtain rfl := Option.some.inj h
        have hlevel : ∀ m' ∈ ((n.proc j).recvDiscoveryMsg (n.proc i).discovery.hostAddr m now).2,
            level m' < level m := fun m' hm' => level_sent_recv hm'
        obtain ⟨new, hnew, hcases⟩ :=
          commands_recv_cases (hrun j) (n.proc i).discovery.hostAddr m now
        generalize (n.proc j).recvDiscoveryMsg (n.proc i).discovery.hostAddr m now = x
          at hlevel hnew
        obtain ⟨rt, sent⟩ := x
        have hqueued : ((n.setChan i j rest).emit j rt sent).queued =
            n.queued + Multiset.replicate new.length 1 := queued_emit hnew
        refine ⟨(n.setChan i j rest).inFlight + n.queued,
          (∑ _k : ι, (↑(sent.map level) : Multiset ℕ)) + Multiset.replicate new.length 1, level m,
          ?_, ?_, ?_⟩
        · rw [pending, inFlight_setChan hc, Multiset.cons_add]
        · rw [pending, hqueued, inFlight_emit, add_add_add_comm]
        · intro x hx
          rcases Multiset.mem_add.mp hx with hx | hx
          · obtain ⟨m', hm', rfl⟩ := exists_of_mem_sum hx
            exact hlevel m' hm'
          · obtain ⟨hne, rfl⟩ := Multiset.mem_replicate.mp hx
            rcases hcases with rfl | htwo
            · exact absurd rfl hne
            · omega
  | lose i j =>
      simp only [next] at h
      split at h
      case h_1 => cases h
      case h_2 m rest hc =>
        obtain rfl := Option.some.inj h
        refine ⟨(n.setChan i j rest).inFlight + n.queued, 0, level m, ?_, ?_, by simp⟩
        · rw [pending, inFlight_setChan hc, Multiset.cons_add]
        · rw [pending, queued_setChan, add_zero]

/-- Looking for silent processes sends nothing and queues nothing. -/
theorem pending_of_ticks (hrun : ∀ i, (n.proc i).Running) {a : Action ι} (ha : Ticks a)
    (h : next n a = some n') : n'.pending = n.pending := by
  cases a with
  | act i b =>
      cases b with
      | activity now later =>
          obtain ⟨-, rt, sent, hp, rfl⟩ := next_act_eq_some h
          obtain ⟨rfl, rfl⟩ := fst_snd_of_some hp
          have hcommands : ((n.proc i).updateActivity now later).1.subscriberCommands =
              (n.proc i).subscriberCommands ++ [] := by
            rw [commands_activity (hrun i), List.append_nil]
          have hsent : ((n.proc i).updateActivity now later).2 = [] := by
            simp only [updateActivity, sent_absorb, Discovery.updateActivity]
            split <;> rfl
          rw [hsent, pending, queued_emit hcommands, inFlight_emit]
          simp [pending]
      | _ => cases ha
  | deliver | lose => cases ha

omit [DecidableEq ι] in
theorem pending_eq_zero_iff : n.pending = 0 ↔ n.AtRest := by
  have hempty : ∀ k, Multiset.replicate k 1 = 0 ↔ k = 0 := by
    intro k
    rw [← Multiset.card_eq_zero, Multiset.card_replicate]
  simp only [pending, inFlight, queued, AtRest, add_eq_zero, Finset.sum_eq_zero_iff,
    Finset.mem_univ, true_implies, Multiset.coe_eq_zero, List.map_eq_nil_iff, hempty,
    List.length_eq_zero_iff]

/-- Where there is something left to do, a step can be taken. -/
theorem exists_reacts (h : n.pending ≠ 0) : ∃ a n', Reacts a ∧ next n a = some n' := by
  rw [ne_eq, pending_eq_zero_iff, AtRest, not_and_or] at h
  rcases h with hchan | hqueue
  · push Not at hchan
    obtain ⟨i, j, hne⟩ := hchan
    obtain ⟨m, rest, hc⟩ := List.exists_cons_of_ne_nil hne
    exact ⟨.lose i j, n.setChan i j rest, trivial, by simp only [next, hc]⟩
  · push Not at hqueue
    obtain ⟨i, hne⟩ := hqueue
    obtain ⟨c, rest, hq⟩ := List.exists_cons_of_ne_nil hne
    obtain ⟨x, hx⟩ : ∃ x, (n.proc i).perform (.applyCommand true) = some x := by
      simp [perform, applyNextCommand, hq]
    exact ⟨.act i (.applyCommand true), n.emit i x.1 x.2, trivial, by simp [next, own, hx]⟩

/-- **Discovery comes to rest.**  In a run without calls and heartbeats only finitely many
datagrams arrive or are lost and only finitely many commands are taken, in whatever order and
however the processes look for silent ones in between; and from every state the steps of the
network and of the receive threads lead to one where nothing is in flight or queued. -/
theorem comes_to_rest (c : Hosts ι) (n : Net ι) (hn : Reachable c n) :
    (∀ (run : ℕ → Net ι) (acts : ℕ → Action ι), run 0 = n →
      (∀ k, next (run k) (acts k) = some (run (k + 1))) →
      (∀ k, Reacts (acts k) ∨ Ticks (acts k)) →
        ∃ k, ∀ l, k ≤ l → Ticks (acts l) ∧ ¬ Reacts (acts l)) ∧
    ∃ as n', (∀ a ∈ as, Reacts a) ∧ exec next n as = some n' ∧ AtRest n' := by
  have hrunning : ∀ n, Reachable c n → ∀ i, (n.proc i).Running :=
    fun n hn i => (hn.healthy.sound i).running
  have hreach : ∀ n n' a, Reachable c n → next n a = some n' → Reachable c n' := by
    intro n n' a hn h
    obtain ⟨as, has⟩ := hn
    exact ⟨as ++ [a], exec_trans has (by rw [exec_cons, h, Option.bind_some, exec_nil])⟩
  constructor
  · intro run acts hstart hnext hkinds
    have hall : ∀ k, Reachable c (run k) := by
      intro k
      induction k with
      | zero => exact hstart ▸ hn
      | succ k ih => exact hreach _ _ _ ih (hnext k)
    have hstep : ∀ k, Falls (run k).pending (run (k + 1)).pending ∨
        (run (k + 1)).pending = (run k).pending := by
      intro k
      rcases hkinds k with hreacts | hticks
      · exact .inl (falls_of_reacts (hrunning _ (hall k)) hreacts (hnext k))
      · exact .inr (pending_of_ticks (hrunning _ (hall k)) hticks (hnext k))
    obtain ⟨k, hk⟩ := eventually_still pending run hstep
    refine ⟨k, fun l hl => ?_⟩
    have hnot : ¬ Reacts (acts l) := fun hreacts =>
      hk l hl (falls_of_reacts (hrunning _ (hall l)) hreacts (hnext l))
    exact ⟨(hkinds l).resolve_left hnot, hnot⟩
  · have hstep : ∀ n : Net ι, Reachable c n → n.pending ≠ 0 →
        ∃ a n', Reacts a ∧ next n a = some n' ∧ Reachable c n' ∧ Falls n.pending n'.pending := by
      intro n hn hpending
      obtain ⟨a, n', ha, h⟩ := exists_reacts hpending
      exact ⟨a, n', ha, h, hreach _ _ _ hn h, falls_of_reacts (hrunning _ hn) ha h⟩
    obtain ⟨as, n', has, h, hdone⟩ := exists_done pending hstep hn
    exact ⟨as, n', has, h, pending_eq_zero_iff.mp hdone⟩

/-- A node of `5b` subscribes, before the ADVERTISE of `4a` has arrived. -/
def askingRun : List (Action Bool) :=
  [.act false (.subscribe (str "t") (str "n2") ⟨str "h", str "n2", str "A"⟩),
    .act true (.advertise (str "t") (str "n1") (str "A") {})]

theorem comes_to_rest_asking : ∃ as n', (∀ a ∈ as, Reacts a) ∧
    exec next (stateAfter askingRun) as = some n' ∧ AtRest n' :=
  (comes_to_rest exampleHosts (stateAfter askingRun) ⟨askingRun, rfl⟩).2

end Net
end RfTrans
