import RfTrans.Lib.Exec
import RfTrans.Runtime.Effects

/-!
# Registrations by message type

A NEW_CONNECTION registers a node of another process for a topic and a message type.
`TopicStorage::addPublisher` keeps one record for each address and node and does not
look at the type, `hasTopic` asks for the type.  A registration is therefore in
effect as long as its node has not registered with another type before.

## Main definitions

* `Registrar` — a process, and the registrations made with it that have not ended.
* `Registrar.NoClash` — no step hits a registration of another type.
* `always_served` — then every registration takes effect until it ends.
-/

namespace RfTrans

open Exec

/-- A registration, as its NEW_CONNECTION names it. -/
structure Registration where
  topic : Str
  processUuid : Str
  nodeUuid : Str
  msgType : Str
  deriving DecidableEq

/-- The registration of a record. -/
def Registration.ofInfo (pub : MessagePublisherInfo) : Registration :=
  ⟨pub.topic, pub.processUuid, pub.nodeUuid, pub.msgType⟩

/-- A process, with the registrations that it was sent and that have not ended. -/
structure Registrar where
  runtime : MessageRuntime
  live : List Registration := []

namespace Registrar

open MessageRuntime TopicStorage

/-- The registrations after a step, by the datagrams and the clock alone. -/
def liveAfter (s : Registrar) (a : Action) : List Registration :=
  ((s.runtime.registers a).map Registration.ofInfo).toList ++
    s.live.filter fun r => !s.runtime.ends a r.topic r.processUuid r.nodeUuid

def next (s : Registrar) (a : Action) : Option Registrar :=
  (s.runtime.perform a).map fun x => { runtime := x.1, live := s.liveAfter a }

/-- A registration does not meet one of the same node and address with another type,
and no UNADVERTISE without topic and node stands in for a BYE of a registered
process. -/
def NoClash (s : Registrar) (a : Action) : Prop :=
  (∀ pub ∈ s.runtime.registers a,
    ∀ x ∈ s.runtime.remoteSubscribers.pubsOf pub.topic pub.processUuid,
      sameEndpoint x pub = true → typeMatches pub.msgType x = true) ∧
  ∀ r ∈ s.live, s.runtime.wipes a r.processUuid = false

instance (s : Registrar) (a : Action) : Decidable (NoClash s a) :=
  inferInstanceAs (Decidable (_ ∧ _))

/-- A registration is in effect: publishing its topic and type takes the remote path. -/
def Effective (rt : MessageRuntime) (r : Registration) : Prop :=
  rt.remoteSubscribers.hasTopicOf r.topic r.msgType = true ∧
    ∀ publisher : MessagePublisherInfo, publisher.topic = r.topic → publisher.msgType = r.msgType →
      ∀ shmSent, (rt.publish publisher shmSent true).1 ≠ []

/-- Every registration that has not ended is in effect. -/
def Served (s : Registrar) : Prop := ∀ r ∈ s.live, Effective s.runtime r

/-- A record that stands for the registration. -/
def Backs (rs : TopicStorage MessagePublisherInfo) (r : Registration) : Prop :=
  ∃ x ∈ rs.pubsOf r.topic r.processUuid, x.nodeUuid = r.nodeUuid ∧ typeMatches r.msgType x = true

/-- The invariant. -/
structure Inv (s : Registrar) : Prop where
  running : s.runtime.Running
  backed : ∀ r ∈ s.live, Backs s.runtime.remoteSubscribers r

theorem Backs.effective {rt : MessageRuntime} {r : Registration}
    (h : Backs rt.remoteSubscribers r) : Effective rt r := by
  obtain ⟨x, hx, -, hty⟩ := h
  have htopic : rt.remoteSubscribers.hasTopicOf r.topic r.msgType = true :=
    (hasTopicOf_iff _).mpr ⟨r.processUuid, x, hx, hty⟩
  refine ⟨htopic, ?_⟩
  intro publisher ht hm shmSent
  have hremote : rt.haveRemote publisher.topic publisher.msgType = true := by
    rw [ht, hm]
    exact htopic
  simp only [publish, if_pos hremote]
  split
  case isTrue => simp
  case isFalse => simp

theorem Inv.served {s : Registrar} (hi : s.Inv) : s.Served :=
  fun r hr => (hi.backed r hr).effective

/-- A new registration is backed by its own record or by the one in its place. -/
theorem backs_ofInfo {rs rs' : TopicStorage MessagePublisherInfo} {pub : MessagePublisherInfo}
    (hnew : (rs.addPublisher pub).2 = true → pub ∈ rs'.pubsOf pub.topic pub.processUuid)
    (hold : ∀ x ∈ rs.pubsOf pub.topic pub.processUuid, x ∈ rs'.pubsOf pub.topic pub.processUuid)
    (hclash : ∀ x ∈ rs.pubsOf pub.topic pub.processUuid,
      sameEndpoint x pub = true → typeMatches pub.msgType x = true) :
    Backs rs' (Registration.ofInfo pub) := by
  by_cases hadd : (rs.addPublisher pub).2 = true
  · exact ⟨pub, hnew hadd, rfl, by simp [typeMatches, Registration.ofInfo]⟩
  · rw [addPublisher_snd] at hadd
    push Not at hadd
    obtain ⟨x, hx, hsame⟩ := hadd
    have hnode : x.nodeUuid = pub.nodeUuid := by
      simp only [sameEndpoint, decide_eq_true_eq] at hsame
      exact hsame.2
    exact ⟨x, hold x hx, hnode, hclash x hx hsame⟩

/-- **The step lemma.** -/
theorem Inv.step {s s' : Registrar} {a : Action} (hi : s.Inv) (hg : NoClash s a)
    (h : next s a = some s') : s'.Inv := by
  obtain ⟨⟨rt', sent⟩, hp, rfl⟩ := Option.map_eq_some_iff.mp h
  have hafter := registrationsAfter_perform hi.running hp
  refine ⟨(kept_perform hi.running hp).running hi.running, ?_⟩
  intro r hr
  rcases List.mem_append.mp hr with hr | hr
  · -- the registration that this step makes
    obtain ⟨pub, hpub, rfl⟩ : ∃ pub, s.runtime.registers a = some pub ∧
        Registration.ofInfo pub = r := by simpa using hr
    have hkeep : ∀ x ∈ s.runtime.remoteSubscribers.pubsOf pub.topic pub.processUuid,
        x ∈ rt'.remoteSubscribers.pubsOf pub.topic pub.processUuid := by
      intro x hx
      have hquiet := not_ends_of_registers hpub
      exact (hafter _ _ _).mpr (.inl ⟨hx, hquiet.1 _ _ _, hquiet.2 _⟩)
    refine backs_ofInfo ?_ hkeep (hg.1 pub hpub)
    intro hadd
    exact (hafter _ _ _).mpr (.inr ⟨hpub, hadd, rfl, rfl⟩)
  · -- an earlier one that has not ended
    obtain ⟨hlive, hends⟩ := List.mem_filter.mp hr
    obtain ⟨x, hx, hnode, hty⟩ := hi.backed r hlive
    refine ⟨x, (hafter _ _ _).mpr (.inl ⟨hx, ?_, hg.2 r hlive⟩), hnode, hty⟩
    rw [hnode]
    simpa using hends

/-- A process that has just started. -/
def start (processUuid processName hostAddr address : Str) : Registrar :=
  { runtime := MessageRuntime.init processUuid processName hostAddr address }

theorem inv_start (processUuid processName hostAddr address : Str) :
    (start processUuid processName hostAddr address).Inv :=
  ⟨running_init .., fun r hr => by cases hr⟩

/-- **No registration is lost** in a run without clashing types. -/
theorem always_served (processUuid processName hostAddr address : Str) (as : List Action)
    (hg : Guarded next NoClash (start processUuid processName hostAddr address) as) :
    Always next Served (start processUuid processName hostAddr address) as :=
  always_of_invariant (fun _ _ _ hi hg h => hi.step hg h) (fun _ hi => hi.served)
    (inv_start processUuid processName hostAddr address) hg

/-! ## Two runs -/

/-- The NEW_CONNECTION of a node of process `5b` for a message type of a topic. -/
def newConnection (nodeUuid topic msgType : Str) : Action :=
  .recv (str "10.0.0.2")
    { version := kWireVersion
      processUuid := str "5b"
      type := .newConnection
      contents := .pub
        { topic := topic
          address := str "tcp://10.0.0.1:4000"
          nodeUuid := nodeUuid
          pubType := .msgPub { ctrl := str "4a", msgType := msgType } } } 0

/-- The process that the NEW_CONNECTION datagrams are sent to. -/
def example4a : Registrar := start (str "4a") (str "p") (str "10.0.0.1") (str "tcp://10.0.0.1:4000")

/-- Two nodes register with one type each. -/
def twoNodesRun : List Action :=
  [newConnection (str "n1") (str "t") (str "A"), newConnection (str "n2") (str "t") (str "B"),
    newConnection (str "n1") (str "t") (str "A")]

theorem always_served_two_nodes :
    (exec next example4a twoNodesRun).map (fun s => s.live.map (·.msgType)) =
      some [str "A", str "B", str "A"] ∧ Always next Served example4a twoNodesRun :=
  ⟨by decide, always_served _ _ _ _ twoNodesRun (by decide)⟩

/-- One node registers with two types of a topic. -/
def twoTypesRun : List Action :=
  [newConnection (str "n1") (str "t") (str "A"), newConnection (str "n1") (str "t") (str "B")]

/-- The second registration is dropped: the table has the node already. -/
theorem twoTypesRun_not_served : ¬ Always next Served example4a twoTypesRun := by
  intro h
  have hend := h.end_of_exec rfl
  have heff := hend ⟨str "t", str "5b", str "n1", str "B"⟩ List.mem_cons_self
  exact absurd heff.1 (by decide)

end Registrar
end RfTrans
