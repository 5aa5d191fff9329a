import RfTrans.Network.Network
import RfTrans.Runtime.Scopes
import RfTrans.Runtime.Sends

/-!
# Scopes in a network

The scope of a publisher restricts who is told of it, and in a network in which all
processes run this code only those who are told of a publisher register for its topic.  So
a scope holds on the data plane as long as the process has advertised no publisher of the
same topic with a wider scope.

## Main definitions

* `Scoped` — a network, with the publisher handles given out so far.
* `Contained` — what a publisher's scope promises about `publish`.
* `contained_of_noWider` — it is kept where no wider publisher shares the topic.
-/

namespace RfTrans

open Exec TopicStorage

variable {ι : Type} [DecidableEq ι]

/-- Whether `j` takes the datagrams of `i` for those of its own host. -/
def Hosts.sameHost (c : Hosts ι) (i j : ι) : Bool :=
  c.hostAddr i = c.hostAddr j || (str "127.").isPrefixOf (c.hostAddr i)

/-- A network, with the publishers that each process has advertised so far. -/
structure Scoped (ι : Type) where
  net : Net ι
  handles : ι → List MessagePublisherInfo := fun _ => []

namespace Scoped

open MessageRuntime

/-- The handles after a step: a successful `advertise` gives one out. -/
def handlesAfter (s : Scoped ι) : Net.Action ι → ι → List MessagePublisherInfo
  | .act i (.advertise topic nodeUuid msgType options) =>
    Function.update s.handles i
      (((s.net.proc i).advertise topic nodeUuid msgType options).2.2.toList ++ s.handles i)
  | _ => s.handles

def next (s : Scoped ι) (a : Net.Action ι) : Option (Scoped ι) :=
  (s.net.next a).map fun n => { net := n, handles := s.handlesAfter a }

def start (c : Hosts ι) : Scoped ι := { net := Net.start c }

/-- No publisher of the same topic has a wider scope. -/
def NoWider (handles : List MessagePublisherInfo) (p : MessagePublisherInfo) : Prop :=
  ∀ p' ∈ handles, p'.topic = p.topic →
    (p.msgOpts.scope = .process → p'.msgOpts.scope = .process) ∧
    (p.msgOpts.scope = .host → p'.msgOpts.scope ≠ .all)

instance (handles : List MessagePublisherInfo) (p : MessagePublisherInfo) :
    Decidable (NoWider handles p) :=
  inferInstanceAs (Decidable (∀ p' ∈ handles, _))

/-- The scope of the publisher holds when it publishes; the processes that take the datagrams
of `i` for their host's are on its host. -/
def Contained (c : Hosts ι) (n : Net ι) (i : ι) (p : MessagePublisherInfo) : Prop :=
  (n.proc i).Contained (fun q => ∃ j, c.uuid j = q ∧ c.sameHost i j = true) p

/-! ## The invariant -/

/-- Process `k` has advertised a publisher of the topic that `j` may see. -/
def Seen (c : Hosts ι) (s : Scoped ι) (k : ι) (topic : Str) (j : ι) : Prop :=
  ∃ p ∈ s.handles k, p.topic = topic ∧ Discovery.hidden p (c.sameHost k j) = false

/-- A datagram of process `i` speaks of publishers that there are, and registers for
topics that it has heard of. -/
structure Genuine (c : Hosts ι) (s : Scoped ι) (i : ι) (m : Msgs.Discovery) : Prop where
  processUuid : m.processUuid = c.uuid i
  advertise : m.type = .advertise →
    ∃ p ∈ s.handles i, parsed m = p.received (c.uuid i) (c.name i)
  newConnection : m.type = .newConnection → (parsed m).processUuid = c.uuid i ∧
    ∀ k, (parsed m).ctrl = c.uuid k → Seen c s k (parsed m).topic i

omit [DecidableEq ι] in
theorem Genuine.of_type {c : Hosts ι} {s : Scoped ι} {i : ι} {m : Msgs.Discovery}
    (hu : m.processUuid = c.uuid i) (h₁ : m.type ≠ .advertise) (h₂ : m.type ≠ .newConnection) :
    Genuine c s i m :=
  ⟨hu, fun ht => absurd ht h₁, fun ht => absurd ht h₂⟩

/-- Whoever knows of a topic or is registered for it has seen a publisher of it. -/
structure Inv (c : Hosts ι) (s : Scoped ι) : Prop where
  healthy : Net.Healthy c s.net
  made : ∀ {i p}, p ∈ s.handles i → p.opts.scope = p.msgOpts.scope
  own : ∀ {i t x}, x ∈ (s.net.proc i).discovery.knownPublishers.pubsOf t (c.uuid i) →
    x ∈ s.handles i
  known : ∀ {j k t x}, j ≠ k →
    x ∈ (s.net.proc j).discovery.knownPublishers.pubsOf t (c.uuid k) → Seen c s k t j
  queued : ∀ {j t regs r k}, .subscribe t regs ∈ (s.net.proc j).subscriberCommands → r ∈ regs →
    r.ctrl = c.uuid k → Seen c s k r.topic j
  registered : ∀ {k t q x}, x ∈ (s.net.proc k).remoteSubscribers.pubsOf t q →
    ∃ j, q = c.uuid j ∧ Seen c s k t j
  genuine : ∀ {i j m}, m ∈ s.net.chan i j → Genuine c s i m

omit [DecidableEq ι] in
theorem inv_start (c : Hosts ι) : Inv c (start c) where
  healthy := Net.healthy_start c
  made hp := by cases hp
  own hx := by simp [start, Net.start, MessageRuntime.init] at hx
  known _ hx := by simp [start, Net.start, MessageRuntime.init] at hx
  queued hq := by simp [start, Net.start, MessageRuntime.init] at hq
  registered hx := by simp [start, Net.start, MessageRuntime.init] at hx
  genuine hm := by cases hm

section Step
variable {c : Hosts ι} {s s' : Scoped ι} {a : Net.Action ι}

omit [DecidableEq ι] in
theorem Inv.discoveryUuid (hi : Inv c s) (i : ι) :
    (s.net.proc i).discovery.processUuid = c.uuid i := by
  rw [(hi.healthy.sound i).running.uuid, hi.healthy.uuid]

omit [DecidableEq ι] in
theorem Inv.isSenderLocal (hi : Inv c s) (i j : ι) :
    (s.net.proc j).discovery.isSenderLocal (c.hostAddr i) = c.sameHost i j := by
  simp only [Discovery.isSenderLocal, Hosts.sameHost, hi.healthy.hostAddr]

theorem handles_mono (h : next s a = some s') {i : ι} {p : MessagePublisherInfo}
    (hp : p ∈ s.handles i) : p ∈ s'.handles i := by
  obtain ⟨n, -, rfl⟩ := Option.map_eq_some_iff.mp h
  simp only [handlesAfter]
  split
  case h_1 k topic nodeUuid msgType options =>
    by_cases hi : i = k
    · subst hi
      simp [hp]
    · simpa [Function.update_of_ne hi] using hp
  case h_2 => exact hp

theorem Seen.mono (h : next s a = some s') {k j : ι} {topic : Str} (hs : Seen c s k topic j) :
    Seen c s' k topic j := by
  obtain ⟨p, hp, ht, hv⟩ := hs
  exact ⟨p, handles_mono h hp, ht, hv⟩

theorem Genuine.mono (h : next s a = some s') {i : ι} {m : Msgs.Discovery}
    (hg : Genuine c s i m) : Genuine c s' i m := by
  refine ⟨hg.processUuid, fun ht => ?_, fun ht => ?_⟩
  · obtain ⟨p, hp, heq⟩ := hg.advertise ht
    exact ⟨p, handles_mono h hp, heq⟩
  · obtain ⟨hq, hseen⟩ := hg.newConnection ht
    exact ⟨hq, fun k hk => (hseen k hk).mono h⟩

theorem net_next (h : next s a = some s') : s.net.next a = some s'.net := by
  obtain ⟨n, hn, rfl⟩ := Option.map_eq_some_iff.mp h
  exact hn

/-- A process moves as it does on its own, or not at all. -/
theorem proc_step (h : next s a = some s') (i : ι) :
    s'.net.proc i = s.net.proc i ∨ ∃ b sent, s.net.localAction i a = some b ∧
      (s.net.proc i).perform b = some (s'.net.proc i, sent) := by
  rcases Net.proc_next (net_next h) i with ⟨-, heq⟩ | hb
  · exact .inl heq
  · exact .inr hb

/-- A publisher that is advertised is among the handles. -/
theorem mem_handles_of_advertise (hi : Inv c s) (h : next s a = some s') {i : ι}
    {topic nodeUuid msgType : Str} {options : AdvertiseMessageOptions}
    (hb : s.net.localAction i a = some (.advertise topic nodeUuid msgType options))
    {x : MessagePublisherInfo}
    (hx : (s.net.proc i).adds (.advertise topic nodeUuid msgType options) = some x)
    (hnew : ((s.net.proc i).discovery.knownPublishers.addPublisher x).2 = true) :
    x ∈ s'.handles i := by
  obtain rfl := Option.some.inj hx
  obtain ⟨n, -, rfl⟩ := Option.map_eq_some_iff.mp h
  cases a with
  | act k b =>
      simp only [Net.localAction] at hb
      split at hb
      case isFalse => cases hb
      case isTrue hk =>
        obtain rfl := Option.some.inj hb
        obtain ⟨rfl, -⟩ := hk
        have hok := advertise_ok (hi.healthy.sound k).running.enabled hnew
        simp [handlesAfter, hok]
  | deliver k l now =>
      simp only [Net.localAction] at hb
      split at hb
      case isTrue =>
        obtain ⟨m, -, hm⟩ := Option.map_eq_some_iff.mp hb
        cases hm
      case isFalse => cases hb
  | lose k l => cases hb

/-- A publisher that a datagram tells of was advertised by the datagram's sender. -/
theorem seen_of_adds (hi : Inv c s) {j k : ι} {fromIp : Str} {m : Msgs.Discovery} {now : ℕ}
    (hb : s.net.localAction j a = some (.recv fromIp m now)) {x : MessagePublisherInfo}
    (hx : (s.net.proc j).adds (.recv fromIp m now) = some x) (hk : x.processUuid = c.uuid k) :
    Seen c s k x.topic j := by
  obtain ⟨i, hm, rfl⟩ := Net.mem_chan_of_recv hb
  have hg := hi.genuine hm
  simp only [adds] at hx
  split at hx
  case isFalse => cases hx
  case isTrue hadv =>
    obtain ⟨-, ht, hv⟩ := hadv
    obtain rfl := Option.some.inj hx
    obtain ⟨p, hp, heq⟩ := hg.advertise ht
    rw [heq] at hk hv ⊢
    obtain rfl : i = k := c.uuid_inj hk
    refine ⟨p, hp, rfl, ?_⟩
    rw [hi.healthy.hostAddr, hi.isSenderLocal] at hv
    simpa [Discovery.hidden, PubLike.scope, MessagePublisherInfo.received, hi.made hp] using hv

theorem Inv.made_step (hi : Inv c s) (h : next s a = some s') {i : ι} {p : MessagePublisherInfo}
    (hp : p ∈ s'.handles i) : p.opts.scope = p.msgOpts.scope := by
  obtain ⟨n, -, rfl⟩ := Option.map_eq_some_iff.mp h
  simp only [handlesAfter] at hp
  split at hp
  case h_1 k topic nodeUuid msgType options =>
    by_cases hk : i = k
    · subst hk
      rw [Function.update_self] at hp
      rcases List.mem_append.mp hp with hp | hp
      · rw [Option.mem_toList] at hp
        simp only [MessageRuntime.advertise] at hp
        split at hp
        case isTrue =>
          rw [← Option.some.inj hp]
          rfl
        case isFalse => cases hp
      · exact hi.made hp
    · rw [Function.update_of_ne hk] at hp
      exact hi.made hp
  case h_2 => exact hi.made hp

theorem Inv.own_step (hi : Inv c s) (h : next s a = some s') {i : ι} {t : Str}
    {x : MessagePublisherInfo}
    (hx : x ∈ (s'.net.proc i).discovery.knownPublishers.pubsOf t (c.uuid i)) :
    x ∈ s'.handles i := by
  rcases proc_step h i with heq | ⟨b, sent, hb, hp⟩
  · rw [heq] at hx
    exact handles_mono h (hi.own hx)
  · have hs := hi.healthy.sound i
    rcases ((knownAfter_perform hs.running hp).mem _ _ _).mp hx with ⟨hx, -⟩ | ⟨hadds, hnew, -, hq⟩
    · exact handles_mono h (hi.own hx)
    · cases b with
      | advertise topic nodeUuid msgType options =>
          exact mem_handles_of_advertise hi h hb hadds hnew
      | recv fromIp m now =>
          refine absurd ?_ (processUuid_adds hs.running.uuid hs.nonempty hadds)
          rw [← hq, hi.healthy.uuid]
      | _ => cases hadds

theorem Inv.known_step (hi : Inv c s) (h : next s a = some s') {j k : ι} {t : Str}
    {x : MessagePublisherInfo} (hjk : j ≠ k)
    (hx : x ∈ (s'.net.proc j).discovery.knownPublishers.pubsOf t (c.uuid k)) :
    Seen c s' k t j := by
  rcases proc_step h j with heq | ⟨b, sent, hb, hp⟩
  · rw [heq] at hx
    exact (hi.known hjk hx).mono h
  · have hs := hi.healthy.sound j
    rcases ((knownAfter_perform hs.running hp).mem _ _ _).mp hx with ⟨hx, -⟩ | ⟨hadds, -, rfl, hq⟩
    · exact (hi.known hjk hx).mono h
    · cases b with
      | advertise topic nodeUuid msgType options =>
          obtain rfl := Option.some.inj hadds
          have hjk' : c.uuid k = c.uuid j := hq.trans (hi.healthy.uuid j)
          exact absurd (c.uuid_inj hjk').symm hjk
      | recv fromIp m now => exact (seen_of_adds hi hb hadds hq.symm).mono h
      | _ => cases hadds

theorem Inv.queued_step (hi : Inv c s) (h : next s a = some s') {j k : ι} {t : Str}
    {regs : List MessagePublisherInfo} {r : MessagePublisherInfo}
    (hq : .subscribe t regs ∈ (s'.net.proc j).subscriberCommands) (hr : r ∈ regs)
    (hk : r.ctrl = c.uuid k) : Seen c s' k r.topic j := by
  rcases proc_step h j with heq | ⟨b, sent, hb, hp⟩
  · rw [heq] at hq
    exact (hi.queued hq hr hk).mono h
  · have hs := hi.healthy.sound j
    rcases queued_perform hs.running hp hq with hq | hq | ⟨pub, hrep, hne, heq⟩
    · exact (hi.queued hq hr hk).mono h
    · exact absurd rfl (hq t regs)
    · -- a registration with a publisher that `j` was told of
      cases heq
      obtain ⟨n, -, rfl⟩ := List.mem_map.mp hr
      have hk' : pub.processUuid = c.uuid k := hk
      rw [hi.healthy.uuid] at hne
      cases hrep with
      | discover hpub =>
          obtain ⟨rfl, rfl⟩ := hs.wellFormed.filed hpub
          have hjk : j ≠ k := fun hjk => hne (hjk ▸ hk')
          have hpub' : pub ∈ (s.net.proc j).discovery.knownPublishers.pubsOf pub.topic
              (c.uuid k) := by
            rw [← hk']
            exact hpub
          exact (hi.known hjk hpub').mono h
      | hear hadds => exact (seen_of_adds hi hb hadds hk').mono h

theorem Inv.genuine_step (hi : Inv c s) (h : next s a = some s') {i j : ι} {m : Msgs.Discovery}
    (hm : m ∈ s'.net.chan i j) : Genuine c s' i m := by
  rcases Net.mem_chan_next (net_next h) hm with hm | ⟨b, sent, hb, hp, hm⟩
  · exact (hi.genuine hm).mono h
  · have hs := hi.healthy.sound i
    have hparsed : ∀ type x, parsed ((s.net.proc i).discovery.announcement type x) =
        x.received (c.uuid i) (c.name i) := by
      intro type x
      rw [← hi.discoveryUuid i, ← hi.healthy.name i]
      exact Discovery.setFromDiscovery_announcement _ _ _
    have huuid := (sends_perform hs.running hp hm).processUuid
    rw [hi.discoveryUuid] at huuid
    cases sends_perform hs.running hp hm with
    | announce hx =>
        obtain ⟨t, hx⟩ := hx
        have hk := (kept_perform hs.running hp).discoveryUuid
        rw [hk, hi.discoveryUuid] at hx
        exact ⟨huuid, fun _ => ⟨_, hi.own_step h hx, hparsed _ _⟩, fun ht => (by cases ht)⟩
    | retract hx => exact .of_type huuid nofun nofun
    | register hq hr =>
        refine ⟨huuid, fun ht => (by cases ht), fun _ => ?_⟩
        rw [hparsed]
        have hhead := hq ▸ List.mem_cons_self
        exact ⟨rfl, fun k hk => (hi.queued hhead hr hk).mono h⟩
    | unregister => exact .of_type huuid nofun nofun
    | subscribe hu ht => exact .of_type huuid (by simp [ht]) (by simp [ht])
    | heartbeat hu ht => exact .of_type huuid (by simp [ht]) (by simp [ht])

theorem Inv.registered_step (hi : Inv c s) (h : next s a = some s') {k : ι} {t q : Str}
    {x : MessagePublisherInfo} (hx : x ∈ (s'.net.proc k).remoteSubscribers.pubsOf t q) :
    ∃ j, q = c.uuid j ∧ Seen c s' k t j := by
  rcases proc_step h k with heq | ⟨b, sent, hb, hp⟩
  · rw [heq] at hx
    obtain ⟨j, hq, hseen⟩ := hi.registered hx
    exact ⟨j, hq, hseen.mono h⟩
  · have hs := hi.healthy.sound k
    rcases (registrationsAfter_perform hs.running hp _ _ _).mp hx with ⟨hx, -⟩ | ⟨hreg, -, rfl, rfl⟩
    · obtain ⟨j, hq, hseen⟩ := hi.registered hx
      exact ⟨j, hq, hseen.mono h⟩
    · cases b with
      | recv fromIp m now =>
          simp only [registers] at hreg
          split at hreg
          case isFalse => cases hreg
          case isTrue hm =>
            obtain ⟨-, ht, hctrl⟩ := hm
            obtain rfl := Option.some.inj hreg
            obtain ⟨j, hm, -⟩ := Net.mem_chan_of_recv hb
            obtain ⟨hq, hseen⟩ := (hi.genuine hm).newConnection ht
            rw [hi.healthy.uuid] at hctrl
            exact ⟨j, hq, (hseen k hctrl).mono h⟩
      | _ => cases hreg

/-- **The step lemma.** -/
theorem Inv.step (hi : Inv c s) (h : next s a = some s') : Inv c s' where
  healthy := hi.healthy.step (net_next h)
  made := hi.made_step h
  own := hi.own_step h
  known := hi.known_step h
  queued := hi.queued_step h
  registered := hi.registered_step h
  genuine := hi.genuine_step h

end Step

/-! ## Publishing -/

omit [DecidableEq ι] in
/-- Whoever is registered has seen a publisher that is not wider, so it is within the scope. -/
theorem Inv.contained {c : Hosts ι} {s : Scoped ι} (hi : Inv c s) {i : ι}
    {p : MessagePublisherInfo} (hw : NoWider (s.handles i) p) : Contained c s.net i p := by
  refine contained_iff_unexposed.mpr (.inl fun q hq hout => ?_)
  obtain ⟨x, hx⟩ := List.exists_mem_of_ne_nil _ hq
  obtain ⟨j, rfl, p', hp', ht, hv⟩ := hi.registered hx
  obtain ⟨hprocess, hhost⟩ := hw p' hp' ht
  rcases hout with hscope | ⟨hscope, hother⟩
  · have hscope' : PubLike.scope p' = .process := hprocess hscope
    simp [Discovery.hidden, hscope'] at hv
  · refine hother ⟨j, rfl, ?_⟩
    have hall : PubLike.scope p' ≠ .all := hhost hscope
    cases hscope' : PubLike.scope p' with
    | process => simp [Discovery.hidden, hscope'] at hv
    | host => simpa [Discovery.hidden, hscope'] using hv
    | all => exact absurd hscope' hall

/-- **Scopes hold on the data plane** of every process in every reachable state of the network,
for each publisher whose topic the process has not advertised with a wider scope. -/
theorem contained_of_noWider (c : Hosts ι) (as : List (Net.Action ι)) (s : Scoped ι)
    (h : exec next (start c) as = some s) (i : ι) (p : MessagePublisherInfo)
    (hw : NoWider (s.handles i) p) : Contained c s.net i p :=
  (stable (fun _ _ _ hi h => hi.step h) (inv_start c) h).contained hw

/-! ## Two runs -/

/-- Two processes on two hosts; the first is `4a`. -/
def exampleHosts : Hosts Bool where
  uuid i := if i then str "4a" else str "5b"
  name _ := str "p"
  hostAddr i := if i then str "10.0.0.1" else str "10.0.0.2"
  address i := if i then str "tcp://10.0.0.1:4000" else str "tcp://10.0.0.2:4000"
  uuid_inj := exampleUuid_injective
  uuid_ne := exampleUuid_ne_nil

/-- `5b` subscribes to a topic, hears of a publisher and registers. -/
def registerRun (topic : Str) : List (Net.Action Bool) :=
  [.act false (.subscribe topic (str "n9") ⟨str "h9", str "n9", str "A"⟩), .deliver false true 0,
    .deliver true false 0, .act false (.applyCommand true), .act false (.applyCommand true),
    .deliver false true 0]

/-- `4a` advertises one topic to everybody and another one to nobody. -/
def twoTopicsRun : List (Net.Action Bool) :=
  [.act true (.advertise (str "t") (str "n1") (str "A") {}),
    .act true (.advertise (str "u") (str "n2") (str "A") { scope := .process })] ++
    registerRun (str "t")

/-- `4a` advertises one topic to everybody and to nobody. -/
def twoScopesRun : List (Net.Action Bool) :=
  [.act true (.advertise (str "t") (str "n1") (str "A") {}),
    .act true (.advertise (str "t") (str "n2") (str "A") { scope := .process })] ++
    registerRun (str "t")

/-- The state that a run leads to. -/
def stateAfter (as : List (Net.Action Bool)) : Scoped Bool :=
  (exec next (start exampleHosts) as).getD (start exampleHosts)

/-- The publisher of process scope. -/
def inner (topic : Str) : MessagePublisherInfo :=
  MessagePublisherInfo.make topic (str "tcp://10.0.0.1:4000") (str "unused") (str "4a") (str "n2")
    (str "A") { scope := .process }

theorem contained_of_noWider_two_topics :
    inner (str "u") ∈ (stateAfter twoTopicsRun).handles true ∧
      Contained exampleHosts (stateAfter twoTopicsRun).net true (inner (str "u")) :=
  ⟨by decide, contained_of_noWider exampleHosts twoTopicsRun (stateAfter twoTopicsRun) rfl true
    (inner (str "u")) (by decide)⟩

/-- What is published for this process alone is sent to the other host. -/
theorem twoScopesRun_not_contained :
    exec next (start exampleHosts) twoScopesRun = some (stateAfter twoScopesRun) ∧
      inner (str "t") ∈ (stateAfter twoScopesRun).handles true ∧
      ¬ Contained exampleHosts (stateAfter twoScopesRun).net true (inner (str "t")) := by
  refine ⟨rfl, by decide, fun h => ?_⟩
  exact absurd ((h false true).1 rfl) (by decide)

end Scoped
end RfTrans
