import RfTrans.Lib.Exec
import RfTrans.Runtime.Effects

/-!
# Scopes and registrations

`publish` looks for a registration of the topic and the message type, whichever publisher the
registration is owed to and whatever datagram made it; the scope of the publisher it does not
look at.  So a scope holds on the data plane as long as nobody outside of it is registered for
the topic of the publisher.

## Main definitions

* `MessageRuntime.Contained` — what a publisher's scope promises about `publish`.
* `Advertiser` — a process, with the publishers that it has given out.
* `Advertiser.contained_iff` — in which runs the promise is kept, for arbitrary datagrams.
-/

namespace RfTrans

open Exec TopicStorage

namespace MessageRuntime

-- The processes of this host.
variable (here : Str → Prop)

/-- Publishing through a publisher of process scope sends nothing, and publishing through
one of host scope sends nothing unless all that are registered for the topic are
processes of this host. -/
def Contained (rt : MessageRuntime) (p : MessagePublisherInfo) : Prop :=
  ∀ shmSent serialized,
    (p.msgOpts.scope = .process → (rt.publish p shmSent serialized).1 = []) ∧
    (p.msgOpts.scope = .host → (rt.publish p shmSent serialized).1 ≠ [] →
      ∀ q, rt.remoteSubscribers.pubsOf p.topic q ≠ [] → here q)

/-- A process is outside the scope of a publisher: every process is outside of process scope,
the processes of other hosts are outside of host scope. -/
def Outside (p : MessagePublisherInfo) (q : Str) : Prop :=
  p.msgOpts.scope = .process ∨ p.msgOpts.scope = .host ∧ ¬ here q

/-- Nobody outside the scope is registered for the topic, or nobody at all with the type of the
publisher or the generic one. -/
def Unexposed (rs : TopicStorage MessagePublisherInfo) (p : MessagePublisherInfo) : Prop :=
  (∀ q, rs.pubsOf p.topic q ≠ [] → ¬ Outside here p q) ∨
    ∀ q, ∀ x ∈ rs.pubsOf p.topic q, typeMatches p.msgType x = false

variable {here} {rt : MessageRuntime} {p : MessagePublisherInfo}

theorem Unexposed.anti {rs rs' : TopicStorage MessagePublisherInfo} (h : Unexposed here rs p)
    (hfewer : ∀ q, ∀ x ∈ rs'.pubsOf p.topic q, x ∈ rs.pubsOf p.topic q) :
    Unexposed here rs' p := by
  rcases h with hinside | hnone
  · refine .inl fun q hq => hinside q ?_
    obtain ⟨x, hx⟩ := List.exists_mem_of_ne_nil _ hq
    exact List.ne_nil_of_mem (hfewer q x hx)
  · exact .inr fun q x hx => hnone q x (hfewer q x hx)

/-- Whoever is registered with the right type is sent what is published. -/
theorem publish_ne_nil (h : rt.haveRemote p.topic p.msgType = true) :
    (rt.publish p false true).1 ≠ [] := by
  simp [publish, h]

theorem haveRemote_of_publish {shmSent serialized : Bool}
    (h : (rt.publish p shmSent serialized).1 ≠ []) : rt.haveRemote p.topic p.msgType = true := by
  by_contra hnone
  simp only [publish, if_neg hnone] at h
  exact h rfl

/-- **One call of `publish`.** -/
theorem contained_iff_unexposed :
    rt.Contained here p ↔ Unexposed here rt.remoteSubscribers p := by
  constructor
  · intro h
    by_cases hremote : rt.haveRemote p.topic p.msgType = true
    · -- the message is sent, so it has to stay within the scope
      obtain ⟨hprocess, hhost⟩ := h false true
      have hsent := publish_ne_nil hremote
      refine .inl fun q hq => ?_
      rintro (hscope | ⟨hscope, hother⟩)
      · exact hsent (hprocess hscope)
      · exact hother (hhost hscope hsent q hq)
    · refine .inr fun q x hx => Bool.eq_false_iff.mpr fun htype => hremote ?_
      exact (hasTopicOf_iff _).mpr ⟨q, x, hx, htype⟩
  · intro h shmSent serialized
    have hunsent : (∀ q, ∀ x ∈ rt.remoteSubscribers.pubsOf p.topic q,
        typeMatches p.msgType x = false) → (rt.publish p shmSent serialized).1 = [] := by
      intro hnone
      by_contra hsent
      obtain ⟨q, x, hx, htype⟩ := (hasTopicOf_iff _).mp (haveRemote_of_publish hsent)
      rw [hnone q x hx] at htype
      cases htype
    refine ⟨fun hscope => ?_, fun hscope hsent q hq => ?_⟩
    · rcases h with hout | hnone
      · refine hunsent fun q x hx => absurd (.inl hscope) (hout q ?_)
        exact List.ne_nil_of_mem hx
      · exact hunsent hnone
    · rcases h with hout | hnone
      · by_contra hother
        exact hout q hq (.inr ⟨hscope, hother⟩)
      · exact absurd (hunsent hnone) hsent

end MessageRuntime

/-! ## Runs -/

/-- A process, with the publishers that `advertise` has returned so far. -/
structure Advertiser where
  runtime : MessageRuntime
  handles : List MessagePublisherInfo := []

namespace Advertiser

open MessageRuntime

/-- The publisher that a step gives out. -/
def given (s : Advertiser) : Action → Option MessagePublisherInfo
  | .advertise topic nodeUuid msgType options =>
    (s.runtime.advertise topic nodeUuid msgType options).2.2
  | _ => none

/-- One step, with any datagram from anybody among them. -/
def next (s : Advertiser) (a : Action) : Option Advertiser :=
  (s.runtime.perform a).map fun x =>
    { runtime := x.1, handles := (s.given a).toList ++ s.handles }

/-- A process that has just started. -/
def start (processUuid processName hostAddr address : Str) : Advertiser where
  runtime := .init processUuid processName hostAddr address

variable (here : Str → Prop)

/-- A NEW_CONNECTION exposes no publisher of its topic when it is filed, and a publisher is
not exposed by those who are registered when it is advertised. -/
structure Befits (s : Advertiser) (a : Action) : Prop where
  registered : ∀ x, s.runtime.registers a = some x → ∀ p ∈ s.handles, p.topic = x.topic →
    Unexposed here (s.runtime.remoteSubscribers.addPublisher x).1 p
  given : ∀ p, s.given a = some p → Unexposed here s.runtime.remoteSubscribers p

/-- The invariant of a run that keeps to the condition. -/
structure Inv (s : Advertiser) : Prop where
  running : s.runtime.Running
  unexposed : ∀ p ∈ s.handles, Unexposed here s.runtime.remoteSubscribers p

variable {here} {s t : Advertiser} {a : Action}

/-- A NEW_CONNECTION to this process is filed, and gives out no publisher. -/
theorem next_of_registers (hr : s.runtime.Running) {x : MessagePublisherInfo}
    (h : s.runtime.registers a = some x) :
    ∃ t, s.next a = some t ∧ t.handles = s.handles ∧
      t.runtime.remoteSubscribers = (s.runtime.remoteSubscribers.addPublisher x).1 := by
  cases a with
  | recv fromIp m now =>
      simp only [registers] at h
      split at h
      case isFalse => cases h
      case isTrue hreg =>
        obtain ⟨hne, ht, hctrl⟩ := hreg
        obtain rfl := Option.some.inj h
        refine ⟨_, rfl, rfl, ?_⟩
        have hfiled := @recv_newConnection s.runtime fromIp m now hr hne ht
        simp [hfiled, onSubscriberRegistered, seen, hctrl]
  | _ => cases h

/-- Advertising does not touch the registrations. -/
theorem next_of_given {p : MessagePublisherInfo} (h : s.given a = some p) :
    ∃ t, s.next a = some t ∧ p ∈ t.handles ∧
      t.runtime.remoteSubscribers = s.runtime.remoteSubscribers := by
  cases a with
  | advertise topic nodeUuid msgType options =>
      refine ⟨_, rfl, ?_, remoteSubscribers_advertise ..⟩
      exact List.mem_append_left _ (Option.mem_toList.mpr h)
  | _ => cases h

theorem running_step (hr : s.runtime.Running) (h : s.next a = some t) : t.runtime.Running := by
  obtain ⟨⟨rt', sent⟩, hp, rfl⟩ := Option.map_eq_some_iff.mp h
  exact (kept_perform hr hp).running hr

/-- A step that files nothing only ends registrations. -/
theorem pubsOf_of_unregistered (hr : s.runtime.Running) (hreg : s.runtime.registers a = none)
    (h : s.next a = some t) {topic q : Str} {x : MessagePublisherInfo}
    (hx : x ∈ t.runtime.remoteSubscribers.pubsOf topic q) :
    x ∈ s.runtime.remoteSubscribers.pubsOf topic q := by
  obtain ⟨⟨rt', sent⟩, hp, rfl⟩ := Option.map_eq_some_iff.mp h
  rcases (registrationsAfter_perform hr hp _ _ _).mp hx with ⟨hold, -⟩ | ⟨hnew, -⟩
  · exact hold
  · rw [hreg] at hnew
    cases hnew

/-- **The step lemma.** -/
theorem Inv.step (hi : s.Inv here) (hb : s.Befits here a) (h : s.next a = some t) :
    t.Inv here := by
  refine ⟨running_step hi.running h, fun p hmem => ?_⟩
  cases hreg : s.runtime.registers a with
  | some x =>
      obtain ⟨u, hu, hhandles, hfiled⟩ := next_of_registers hi.running hreg
      obtain rfl := Option.some.inj (h.symm.trans hu)
      rw [hhandles] at hmem
      rw [hfiled]
      by_cases htopic : p.topic = x.topic
      · exact hb.registered x hreg p hmem htopic
      · -- registrations for another topic
        refine (hi.unexposed p hmem).anti fun q y hy => ?_
        rcases (mem_pubsOf_addPublisher _).mp hy with hold | ⟨-, ht, -⟩
        · exact hold
        · exact absurd ht htopic
  | none =>
      have hfewer := @pubsOf_of_unregistered s t a hi.running hreg h p.topic
      obtain ⟨⟨rt', sent⟩, -, rfl⟩ := Option.map_eq_some_iff.mp h
      rcases List.mem_append.mp hmem with hnew | hmem
      · exact (hb.given p (Option.mem_toList.mp hnew)).anti fun q y => hfewer
      · exact (hi.unexposed p hmem).anti fun q y => hfewer

/-- A step that leads from contained publishers to contained publishers meets the condition. -/
theorem befits_of_contained (hr : s.runtime.Running)
    (hstep : ∀ t, s.next a = some t → ∀ p ∈ t.handles, t.runtime.Contained here p) :
    s.Befits here a where
  registered x hreg p hp _ := by
    obtain ⟨t, ht, hhandles, hfiled⟩ := next_of_registers hr hreg
    rw [← hfiled]
    exact contained_iff_unexposed.mp (hstep t ht p (hhandles ▸ hp))
  given p hgiven := by
    obtain ⟨t, ht, hp, hsame⟩ := next_of_given hgiven
    rw [← hsame]
    exact contained_iff_unexposed.mp (hstep t ht p hp)

/-- **Scopes on the data plane**, whatever datagrams arrive: the scopes of all publishers hold
in every state of a run if and only if no NEW_CONNECTION that is filed and no `advertise`
leaves a publisher exposed, in whichever order they come. -/
theorem contained_iff (here : Str → Prop) (processUuid processName hostAddr address : Str)
    (run : List Action) :
    Always next (fun s => ∀ p ∈ s.handles, s.runtime.Contained here p)
        (start processUuid processName hostAddr address) run ↔
      Guarded next (Befits here) (start processUuid processName hostAddr address) run := by
  constructor
  · intro h
    refine h.guarded_of_stable (I := fun s => s.runtime.Running) (fun _ _ _ => running_step)
      (fun _ _ hr _ => befits_of_contained hr) ?_
    exact running_init ..
  · intro h
    refine always_of_invariant (P := Inv here) (fun _ _ _ hs hb h => hs.step hb h)
      (fun s hs p hp => contained_iff_unexposed.mpr (hs.unexposed p hp)) ?_ h
    exact ⟨running_init .., fun _ hp => by cases hp⟩

end Advertiser
end RfTrans
