import Mathlib.Data.Set.Basic
import RfTrans.Network.Network
import RfTrans.Runtime.Sends

/-!
# What a heartbeat repairs

A heartbeat announces every own publisher again.  At an observer this can only add
entries, and only where the address and the node are not known yet: what the observer
does not know is repaired, what it knows wrongly is not.

## Main definitions

* `Endpoint` — what an observer is told about a publisher.
* `held`, `visible` — the endpoints an observer holds, and those it should hold.
* `Net.heartbeat_heals_iff` — when a heartbeat makes the two agree.
-/

namespace RfTrans

open Exec TopicStorage

/-- What an observer is told about a publisher. -/
structure Endpoint where
  topic : Str
  addr : Str
  nodeUuid : Str
  msgType : Str
  options : AdvertiseMessageOptions
  deriving DecidableEq

/-- The endpoint of a record. -/
def endpointOf (x : MessagePublisherInfo) : Endpoint :=
  ⟨x.topic, x.addr, x.nodeUuid, x.msgType, x.msgOpts⟩

namespace MessageRuntime

/-- The datagrams arrive one after the other, each at a reading of the clock. -/
def receiveAll (rt : MessageRuntime) (fromIp : Str) (ms : List (Msgs.Discovery × ℕ)) :
    MessageRuntime :=
  ms.foldl (fun rt m => (rt.recvDiscoveryMsg fromIp m.1 m.2).1) rt

/-- The own publishers that a peer may see. -/
def Offers (rt : MessageRuntime) (peerLocal : Bool) (x : MessagePublisherInfo) : Prop :=
  (∃ t, x ∈ rt.discovery.knownPublishers.pubsOf t rt.processUuid) ∧
    Discovery.hidden x peerLocal = false

/-- The endpoints of a process that an observer holds. -/
def held (rt : MessageRuntime) (processUuid : Str) : Set Endpoint :=
  {e | ∃ t, ∃ x ∈ rt.discovery.knownPublishers.pubsOf t processUuid, endpointOf x = e}

/-- The endpoints of a process that a peer may see. -/
def visible (rt : MessageRuntime) (peerLocal : Bool) : Set Endpoint :=
  {e | ∃ x, rt.Offers peerLocal x ∧ endpointOf x = e}

variable {rt : MessageRuntime}

/-! ## Receiving them -/

/-- The record that a datagram would add. -/
def heard (rt : MessageRuntime) (fromIp : Str) (m : Msgs.Discovery) : Option MessagePublisherInfo :=
  rt.adds (.recv fromIp m 0)

theorem Kept.heard {rt' : MessageRuntime} (h : Kept rt rt') (fromIp : Str) (m : Msgs.Discovery) :
    rt'.heard fromIp m = rt.heard fromIp m := by
  obtain ⟨known, seen, heartbeat, activity, hd⟩ := h.discovery
  simp only [MessageRuntime.heard, adds, hd]
  rfl

/-- Datagrams that remove nothing. -/
def Additive (m : Msgs.Discovery) : Prop := m.type = .heartbeat ∨ m.type = .advertise

theorem Additive.drops {m : Msgs.Discovery} (h : Additive m) (fromIp : Str) (now : ℕ)
    (t q n : Str) : rt.drops (.recv fromIp m now) t q n = false := by
  rcases h with h | h
  · simp [MessageRuntime.drops, h]
  · simp [MessageRuntime.drops, h]

theorem Running.receive (hr : rt.Running) (fromIp : Str) (m : Msgs.Discovery × ℕ) :
    (rt.recvDiscoveryMsg fromIp m.1 m.2).1.Running := (rt.kept_recv fromIp m.1 m.2).running hr

theorem Sound.receiveAll (hs : rt.Sound) (fromIp : Str) (ms : List (Msgs.Discovery × ℕ)) :
    (rt.receiveAll fromIp ms).Sound := by
  induction ms generalizing rt with
  | nil => exact hs
  | cons m ms ih => exact ih (hs.recv fromIp m.1 m.2)

/-- What is known stays known. -/
theorem subset_receiveAll {fromIp : Str} {ms : List (Msgs.Discovery × ℕ)}
    (hadd : ∀ m ∈ ms, Additive m.1) (hr : rt.Running) {t q : Str} {x : MessagePublisherInfo}
    (hx : x ∈ rt.discovery.knownPublishers.pubsOf t q) :
    x ∈ (rt.receiveAll fromIp ms).discovery.knownPublishers.pubsOf t q := by
  induction ms generalizing rt with
  | nil => exact hx
  | cons m ms ih =>
      refine ih (fun m' hm' => hadd m' (List.mem_cons_of_mem _ hm')) (hr.receive fromIp m) ?_
      rw [(knownAfter_recv hr fromIp m.1 m.2).mem]
      exact .inl ⟨hx, (hadd m List.mem_cons_self).drops fromIp m.2 _ _ _⟩

/-- What is new was heard. -/
theorem heard_of_mem_receiveAll {fromIp : Str} {ms : List (Msgs.Discovery × ℕ)} (hr : rt.Running)
    {t q : Str} {x : MessagePublisherInfo}
    (hx : x ∈ (rt.receiveAll fromIp ms).discovery.knownPublishers.pubsOf t q) :
    x ∈ rt.discovery.knownPublishers.pubsOf t q ∨
      q = x.processUuid ∧ ∃ m ∈ ms, rt.heard fromIp m.1 = some x := by
  induction ms generalizing rt with
  | nil => exact .inl hx
  | cons m ms ih =>
      rcases ih (hr.receive fromIp m) hx with hx | ⟨hq, m', hm', hheard⟩
      · have hcases := ((knownAfter_recv hr fromIp m.1 m.2).mem _ _ _).mp hx
        rcases hcases with ⟨hx, -⟩ | ⟨hadds, -, -, hq⟩
        · exact .inl hx
        · exact .inr ⟨hq, m, List.mem_cons_self, hadds⟩
      · rw [(rt.kept_recv fromIp m.1 m.2).heard] at hheard
        exact .inr ⟨hq, m', List.mem_cons_of_mem _ hm', hheard⟩

/-- What is heard is known in the end, or something else is known in its place. -/
theorem known_of_heard {fromIp : Str} {ms : List (Msgs.Discovery × ℕ)}
    (hadd : ∀ m ∈ ms, Additive m.1) (hr : rt.Running) {m : Msgs.Discovery × ℕ} (hm : m ∈ ms)
    {x : MessagePublisherInfo} (hx : rt.heard fromIp m.1 = some x) :
    ∃ y ∈ (rt.receiveAll fromIp ms).discovery.knownPublishers.pubsOf x.topic x.processUuid,
      sameEndpoint y x = true := by
  induction ms generalizing rt with
  | nil => cases hm
  | cons m' ms ih =>
      have hrest : ∀ m ∈ ms, Additive m.1 := fun m hm => hadd m (List.mem_cons_of_mem _ hm)
      rcases List.mem_cons.mp hm with rfl | hm
      · have hknown := knownAfter_recv hr fromIp m.1 m.2
        obtain ⟨y, hy, hsame⟩ : ∃ y ∈ (rt.recvDiscoveryMsg fromIp m.1
            m.2).1.discovery.knownPublishers.pubsOf x.topic x.processUuid,
            sameEndpoint y x = true := by
          by_cases hnew : (rt.discovery.knownPublishers.addPublisher x).2 = true
          · refine ⟨x, (hknown.mem _ _ _).mpr (.inr ⟨hx, hnew, rfl, rfl⟩), ?_⟩
            simp [sameEndpoint]
          · rw [addPublisher_snd] at hnew
            push Not at hnew
            obtain ⟨y, hy, hsame⟩ := hnew
            exact ⟨y, (hknown.mem _ _ _).mpr (.inl ⟨hy, (hadd m hm).drops _ _ _ _ _⟩), hsame⟩
        exact ⟨y, subset_receiveAll hrest (hr.receive fromIp m) hy, hsame⟩
      · refine ih hrest (hr.receive fromIp m') hm ?_
        rw [(rt.kept_recv fromIp m'.1 m'.2).heard]
        exact hx

/-! ## Own publishers at an observer -/

variable {peer : MessageRuntime}

/-- An own publisher reaches an observer as the same endpoint. -/
theorem Sound.received (hs : rt.Sound) {t : Str} {x : MessagePublisherInfo}
    (hx : x ∈ rt.discovery.knownPublishers.pubsOf t rt.processUuid) (name : Str) :
    endpointOf (x.received rt.processUuid name) = endpointOf x ∧
      ∀ b, Discovery.hidden (x.received rt.processUuid name) b = Discovery.hidden x b := by
  obtain ⟨n, ty, o, rfl⟩ := hs.own hx
  exact ⟨rfl, fun b => rfl⟩

/-- What an observer hears from an ADVERTISE. -/
theorem heard_announcement (hs : rt.Sound) (hr : peer.Running)
    (hne : rt.processUuid ≠ peer.processUuid)
    {t : Str} {x : MessagePublisherInfo}
    (hx : x ∈ rt.discovery.knownPublishers.pubsOf t rt.processUuid) (fromIp : Str) :
    peer.heard fromIp (rt.discovery.announcement .advertise x) =
      if Discovery.hidden x (peer.discovery.isSenderLocal fromIp) = false then
        some (x.received rt.processUuid rt.discovery.processName) else none := by
  have hparsed : parsed (rt.discovery.announcement .advertise x) =
      x.received rt.processUuid rt.discovery.processName := by
    rw [← hs.running.uuid]
    exact Discovery.setFromDiscovery_announcement _ _ _
  have hne' : (rt.discovery.announcement .advertise x).processUuid ≠
      peer.discovery.processUuid := by
    have huuid : (rt.discovery.announcement .advertise x).processUuid = rt.processUuid :=
      hs.running.uuid
    rw [hr.uuid, huuid]
    exact hne
  simp only [heard, adds, hparsed, (hs.received hx _).2]
  by_cases hv : Discovery.hidden x (peer.discovery.isSenderLocal fromIp) = false
  · rw [if_pos hv, if_pos ⟨hne', rfl, hv⟩]
  · rw [if_neg hv, if_neg fun h => hv h.2.2]

/-! ## When the tables agree -/

/-- Own publishers of a topic with the same address and node are the same. -/
theorem Sound.eq_of_key (hs : rt.Sound) {x y : MessagePublisherInfo} {b : Bool}
    (hx : rt.Offers b x) (hy : rt.Offers b y) (ht : x.topic = y.topic) (ha : x.addr = y.addr)
    (hn : x.nodeUuid = y.nodeUuid) : x = y := by
  obtain ⟨⟨t, hx⟩, -⟩ := hx
  obtain ⟨⟨t', hy⟩, -⟩ := hy
  have hxt : x.topic = t := (hs.wellFormed.filed hx).1
  have hyt : y.topic = t' := (hs.wellFormed.filed hy).1
  obtain rfl : t = t' := by rw [← hxt, ← hyt, ht]
  refine hs.wellFormed.eq_of_sameEndpoint hx hy ?_
  simp only [sameEndpoint, decide_eq_true_eq]
  exact ⟨ha, hn⟩

/-- All datagrams of a heartbeat that is due arrive at another process. -/
structure HeartbeatArrives (rt peer : MessageRuntime) (fromIp : Str) (b : Bool)
    (ms : List (Msgs.Discovery × ℕ)) : Prop where
  sound : rt.Sound
  peerSound : peer.Sound
  other : rt.processUuid ≠ peer.processUuid
  peerLocal : peer.discovery.isSenderLocal fromIp = b
  datagrams : ∃ now later, ¬ now < rt.discovery.timeNextHeartbeat ∧
    ms.map (·.1) = (rt.updateHeartbeat now later).2

section Arrives
variable {fromIp : Str} {b : Bool} {ms : List (Msgs.Discovery × ℕ)}

theorem HeartbeatArrives.mem (h : HeartbeatArrives rt peer fromIp b ms) {m : Msgs.Discovery} :
    (∃ now, (m, now) ∈ ms) ↔ m ∈ rt.discovery.sendHeartbeat ∨ m ∈ rt.discovery.readvertise := by
  obtain ⟨now, later, hdue, hms⟩ := h.datagrams
  have hsent : m ∈ (rt.updateHeartbeat now later).2 ↔
      m ∈ rt.discovery.sendHeartbeat ∨ m ∈ rt.discovery.readvertise :=
    Discovery.mem_sent_updateHeartbeat.trans (and_iff_right hdue)
  rw [← hsent, ← hms, List.mem_map]
  constructor
  · rintro ⟨now, hm⟩
    exact ⟨(m, now), hm, rfl⟩
  · rintro ⟨⟨m, now⟩, hm, rfl⟩
    exact ⟨now, hm⟩

theorem HeartbeatArrives.additive (h : HeartbeatArrives rt peer fromIp b ms) :
    ∀ m ∈ ms, Additive m.1 := by
  intro m hm
  rcases h.mem.mp ⟨m.2, hm⟩ with hm | hm
  · exact .inl (Discovery.mem_sendHeartbeat hm).2
  · obtain ⟨t, x, -, -, hx⟩ := Discovery.mem_readvertise.mp hm
    rw [((Discovery.mem_sendMsg _ (.inl rfl)).mp hx).1]
    exact .inr rfl

/-- What the observer hears are the publishers it may see. -/
theorem HeartbeatArrives.heard (h : HeartbeatArrives rt peer fromIp b ms)
    {y : MessagePublisherInfo} :
    (∃ m ∈ ms, peer.heard fromIp m.1 = some y) ↔
      ∃ x, rt.Offers b x ∧ Discovery.fits (rt.discovery.announcement .advertise x) = true ∧
        y = x.received rt.processUuid rt.discovery.processName := by
  constructor
  · rintro ⟨m, hm, hy⟩
    rcases h.mem.mp ⟨m.2, hm⟩ with hm | hm
    · have htype := (Discovery.mem_sendHeartbeat hm).2
      simp [MessageRuntime.heard, adds, htype] at hy
    · obtain ⟨t, x, hx, -, hm⟩ := Discovery.mem_readvertise.mp hm
      obtain ⟨hmx, hfits⟩ := (Discovery.mem_sendMsg _ (.inl rfl)).mp hm
      rw [h.sound.running.uuid] at hx
      rw [hmx, heard_announcement h.sound h.peerSound.running h.other hx, h.peerLocal] at hy
      split at hy
      case isTrue hv => exact ⟨x, ⟨⟨t, hx⟩, hv⟩, hfits, (Option.some.inj hy).symm⟩
      case isFalse => cases hy
  · rintro ⟨x, ⟨⟨t, hx⟩, hv⟩, hfits, rfl⟩
    have hscope : x.msgOpts.scope ≠ .process := by
      intro hscope
      have : PubLike.scope x = .process := hscope
      simp [Discovery.hidden, this] at hv
    obtain ⟨now, hm⟩ := h.mem.mpr (.inr (Discovery.mem_readvertise.mpr
      ⟨t, x, by rw [h.sound.running.uuid]; exact hx, hscope,
        (Discovery.mem_sendMsg _ (.inl rfl)).mpr ⟨rfl, hfits⟩⟩))
    refine ⟨_, hm, ?_⟩
    rw [heard_announcement h.sound h.peerSound.running h.other hx, h.peerLocal, if_pos hv]

theorem HeartbeatArrives.subset (h : HeartbeatArrives rt peer fromIp b ms) :
    peer.held rt.processUuid ⊆ (peer.receiveAll fromIp ms).held rt.processUuid := by
  rintro e ⟨t, x, hx, rfl⟩
  exact ⟨t, x, subset_receiveAll h.additive h.peerSound.running hx, rfl⟩

/-- The observer learns nothing but what it may see. -/
theorem HeartbeatArrives.new (h : HeartbeatArrives rt peer fromIp b ms) {e : Endpoint}
    (he : e ∈ (peer.receiveAll fromIp ms).held rt.processUuid) :
    e ∈ peer.held rt.processUuid ∨ ∃ x, rt.Offers b x ∧
      Discovery.fits (rt.discovery.announcement .advertise x) = true ∧ endpointOf x = e := by
  obtain ⟨t, y, hy, rfl⟩ := he
  rcases heard_of_mem_receiveAll h.peerSound.running hy with hy | ⟨-, hheard⟩
  · exact .inl ⟨t, y, hy, rfl⟩
  · obtain ⟨x, hx, hfits, rfl⟩ := h.heard.mp hheard
    obtain ⟨t, hxt⟩ := hx.1
    exact .inr ⟨x, hx, hfits, (h.sound.received hxt _).1.symm⟩

/-- What it may see and is told, it knows in the end by address and node. -/
theorem HeartbeatArrives.known (h : HeartbeatArrives rt peer fromIp b ms)
    {x : MessagePublisherInfo} (hx : rt.Offers b x)
    (hfits : Discovery.fits (rt.discovery.announcement .advertise x) = true) :
    ∃ e ∈ (peer.receiveAll fromIp ms).held rt.processUuid,
      e.topic = x.topic ∧ e.addr = x.addr ∧ e.nodeUuid = x.nodeUuid := by
  obtain ⟨m, hm, hheard⟩ := h.heard.mpr ⟨x, hx, hfits, rfl⟩
  obtain ⟨y, hy, hsame⟩ := known_of_heard h.additive h.peerSound.running hm hheard
  simp only [sameEndpoint, decide_eq_true_eq] at hsame
  have htopic : y.topic = x.topic :=
    ((h.peerSound.receiveAll fromIp ms).wellFormed.filed hy).1
  exact ⟨endpointOf y, ⟨x.topic, y, hy, rfl⟩, htopic, hsame.1, hsame.2⟩

/-- **A heartbeat repairs additions only.** Once all its datagrams have arrived, the
observer holds exactly what it may see if and only if all it held before was right and
what it lacked passes the size check of `sendMulticast`. -/
theorem HeartbeatArrives.held_iff (h : HeartbeatArrives rt peer fromIp b ms) :
    (peer.receiveAll fromIp ms).held rt.processUuid = rt.visible b ↔
      peer.held rt.processUuid ⊆ rt.visible b ∧
        ∀ x, rt.Offers b x → endpointOf x ∉ peer.held rt.processUuid →
          Discovery.fits (rt.discovery.announcement .advertise x) = true := by
  have hkey : ∀ {x y}, rt.Offers b x → rt.Offers b y → endpointOf x = endpointOf y → x = y := by
    intro x y hx hy hxy
    exact h.sound.eq_of_key hx hy (congrArg Endpoint.topic hxy) (congrArg Endpoint.addr hxy)
      (congrArg Endpoint.nodeUuid hxy)
  constructor
  · intro heq
    refine ⟨fun e he => heq ▸ h.subset he, fun x hx hnot => ?_⟩
    have he : endpointOf x ∈ (peer.receiveAll fromIp ms).held rt.processUuid :=
      heq ▸ ⟨x, hx, rfl⟩
    rcases h.new he with he | ⟨y, hy, hfits, hyx⟩
    · exact absurd he hnot
    · rw [hkey hx hy hyx.symm]
      exact hfits
  · rintro ⟨hsub, hfits⟩
    have hin : (peer.receiveAll fromIp ms).held rt.processUuid ⊆ rt.visible b := by
      intro e he
      rcases h.new he with he | ⟨x, hx, -, rfl⟩
      · exact hsub he
      · exact ⟨x, hx, rfl⟩
    refine Set.Subset.antisymm hin ?_
    rintro e ⟨x, hx, rfl⟩
    by_cases hheld : endpointOf x ∈ peer.held rt.processUuid
    · exact h.subset hheld
    · obtain ⟨e, he, ht, ha, hn⟩ := h.known hx (hfits x hx hheld)
      obtain ⟨y, hy, rfl⟩ := hin he
      obtain rfl := h.sound.eq_of_key hx hy ht.symm ha.symm hn.symm
      exact he

end Arrives

end MessageRuntime

namespace Net

variable {ι : Type} [DecidableEq ι]

/-- **Discovery heals after loss** exactly if the observer holds nothing wrong: in every
reachable state of the network, one heartbeat of `i` that reaches `j` makes the tables
agree if and only if every endpoint of `i` at `j` is one that `j` may see now (and those
it lacks pass the size check of `sendMulticast`). -/
theorem heartbeat_heals_iff (c : Hosts ι) (n : Net ι) (hn : Reachable c n) (i j : ι) (hij : i ≠ j)
    (now later : ℕ) (hdue : ¬ now < (n.proc i).discovery.timeNextHeartbeat)
    (ms : List (Msgs.Discovery × ℕ))
    (hms : ms.map (·.1) = ((n.proc i).updateHeartbeat now later).2) :
    let b := (n.proc j).discovery.isSenderLocal (c.hostAddr i)
    ((n.proc j).receiveAll (c.hostAddr i) ms).held (c.uuid i) = (n.proc i).visible b ↔
      (n.proc j).held (c.uuid i) ⊆ (n.proc i).visible b ∧
        ∀ x, (n.proc i).Offers b x → endpointOf x ∉ (n.proc j).held (c.uuid i) →
          Discovery.fits ((n.proc i).discovery.announcement .advertise x) = true := by
  have hh := hn.healthy
  rw [← hh.uuid i]
  refine MessageRuntime.HeartbeatArrives.held_iff
    ⟨hh.sound i, hh.sound j, ?_, rfl, now, later, hdue, hms⟩
  rw [hh.uuid, hh.uuid]
  exact fun h => hij (c.uuid_inj h)

/-! ## Two runs -/

/-- Two processes on one host: the first is `4a`. -/
def exampleHosts : Hosts Bool where
  uuid i := if i then str "4a" else str "5b"
  name _ := str "p"
  hostAddr _ := str "10.0.0.1"
  address i := if i then str "tcp://10.0.0.1:4000" else str "tcp://10.0.0.1:5000"
  uuid_inj := exampleUuid_injective
  uuid_ne := exampleUuid_ne_nil

/-- A node of `4a` advertises a topic, and `5b` hears of it. -/
def knownRun : List (Action Bool) :=
  [.act true (.advertise (str "t") (str "n1") (str "A") {}), .deliver true false 0]

/-- Then the node gives it up, and the UNADVERTISE is lost. -/
def lostRun : List (Action Bool) :=
  knownRun ++ [.act true (.unadvertise (str "t") (str "n1")), .lose true false]

/-- The state that a run leads to. -/
def stateAfter (as : List (Action Bool)) : Net Bool :=
  (exec next (start exampleHosts) as).getD (start exampleHosts)

/-- The datagrams of a heartbeat of `4a`. -/
def beats (n : Net Bool) : List (Msgs.Discovery × ℕ) :=
  ((n.proc true).updateHeartbeat 1000 1001).2.map fun m => (m, 2000)

theorem heartbeat_heals_iff_known :
    ((stateAfter knownRun).proc false |>.receiveAll (str "10.0.0.1")
      (beats (stateAfter knownRun))).held
        (str "4a") = ((stateAfter knownRun).proc true).visible true ↔
      ((stateAfter knownRun).proc false).held (str "4a") ⊆
          ((stateAfter knownRun).proc true).visible true ∧
        ∀ x, ((stateAfter knownRun).proc true).Offers true x →
          endpointOf x ∉ ((stateAfter knownRun).proc false).held (str "4a") →
          Discovery.fits (((stateAfter knownRun).proc true).discovery.announcement .advertise x) =
            true :=
  heartbeat_heals_iff exampleHosts (stateAfter knownRun) ⟨knownRun, rfl⟩ true false (by decide) 1000
    1001 (by decide) (beats (stateAfter knownRun)) (by decide)

/-- The endpoint that was given up is still there after the next heartbeat. -/
theorem lostRun_not_healed : Reachable exampleHosts (stateAfter lostRun) ∧
    ((stateAfter lostRun).proc false |>.receiveAll (str "10.0.0.1")
      (beats (stateAfter lostRun))).held
      (str "4a") ≠ ((stateAfter lostRun).proc true).visible true := by
  refine ⟨⟨lostRun, rfl⟩, fun h => ?_⟩
  have hheld : (⟨str "t", str "tcp://10.0.0.1:4000", str "n1", str "A", {}⟩ : Endpoint) ∈
      ((stateAfter lostRun).proc false |>.receiveAll (str "10.0.0.1")
        (beats (stateAfter lostRun))).held (str "4a") := by
    refine ⟨str "t", { MessagePublisherInfo.make (str "t") (str "tcp://10.0.0.1:4000")
      (str "unused") (str "4a") (str "n1") (str "A") {} with processName := str "p" }, ?_, rfl⟩
    decide
  rw [h] at hheld
  obtain ⟨x, ⟨⟨t, hx⟩, -⟩, -⟩ := hheld
  have hnone : ((stateAfter lostRun).proc true).discovery.knownPublishers.data = ∅ :=
    Std.ExtTreeMap.isEmpty_iff.mp (by decide)
  simp [pubsOf, hnone] at hx

end Net
end RfTrans
