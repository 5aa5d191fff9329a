import RfTrans.Cli.Endpoints
import RfTrans.Discovery.Runs

/-!
# What an observer shows

A `DiscoveryObserver` has two discovery instances that listen.  A snapshot goes through the
tables topic by topic and process by process, so it shows every known publisher once.

## Main definitions

* `DiscoveryObserver`
* `Discovery.wellFormed_run` — the tables of any instance.
* `filter_snapshotEndpoints` — what a snapshot has for one topic and one process.
-/

namespace RfTrans

open Std PubLike TopicStorage

/-- `DiscoveryObserver::Impl` -/
structure DiscoveryObserver where
  messageDiscovery : Discovery MessagePublisherInfo
  serviceDiscovery : Discovery ServicePublisherInfo

namespace DiscoveryObserver

/-- `messageEndpoints` -/
def messageEndpoints (o : DiscoveryObserver) : List MessageEndpointInfo :=
  snapshotMessageEndpoints o.messageDiscovery

/-- `serviceEndpoints` -/
def serviceEndpoints (o : DiscoveryObserver) : List ServiceEndpointInfo :=
  snapshotServiceEndpoints o.serviceDiscovery

/-- `hostAddress` -/
def hostAddress (o : DiscoveryObserver) : Str := o.messageDiscovery.hostAddr

end DiscoveryObserver

/-! ## The tables -/

namespace Discovery

variable {π : Type} [PubLike π] [WirePub π] {d : Discovery π} {uuid : Str}

omit [WirePub π] in
/-- **The table of an instance is well formed**, whatever happens to it. -/
theorem wellFormed_run (name hostAddr : Str) (huuid : uuid ≠ []) (as : List (Action π)) :
    ((start uuid name hostAddr).run as).knownPublishers.WellFormed := by
  induction as using List.reverseRecOn with
  | nil => exact wellFormed_empty
  | append_singleton as a ih =>
      rw [run_concat]
      exact ih.edited (((alert_start huuid name hostAddr).run as).edited a)

end Discovery

/-! ## Snapshots -/

/-- Where one element alone contributes, it contributes everything. -/
theorem flatMap_of_unique {α β : Type} {g : α → List β} {l : List α} (hl : l.Nodup) {a : α}
    (ha : a ∈ l) (h : ∀ x ∈ l, x ≠ a → g x = []) : l.flatMap g = g a := by
  induction l with
  | nil => cases ha
  | cons x l ih =>
      obtain ⟨hx, hrest⟩ := List.nodup_cons.mp hl
      rw [List.flatMap_cons]
      rcases List.mem_cons.mp ha with rfl | ha
      · have hnil : l.flatMap g = [] := List.flatMap_eq_nil_iff.mpr fun y hy =>
          h y (List.mem_cons_of_mem _ hy) fun heq => hx (heq ▸ hy)
        rw [hnil, List.append_nil]
      · rw [h x List.mem_cons_self fun heq => hx (heq ▸ ha), List.nil_append,
          ih hrest ha fun y hy => h y (List.mem_cons_of_mem _ hy)]

/-- What one key of a map contributes. -/
theorem flatMap_toList_of_unique {β γ : Type} {m : StrMap β} {g : Str × β → List γ} (k : Str)
    (h : ∀ x ∈ m.toList, x.1 ≠ k → g x = []) :
    m.toList.flatMap g = ((m[k]?).map fun v => g (k, v)).getD [] := by
  have hnodup : m.toList.Nodup := by
    refine ExtTreeMap.distinct_keys_toList.imp fun hne heq => hne ?_
    rw [heq]
    exact ReflCmp.compare_self
  have hkey : ∀ x ∈ m.toList, x.1 = k → m[k]? = some x.2 := fun x hx hk =>
    ExtTreeMap.mem_toList_iff_getElem?_eq_some.mp (hk ▸ hx)
  cases hget : m[k]? with
  | none =>
      refine List.flatMap_eq_nil_iff.mpr fun x hx => h x hx fun hk => ?_
      rw [hkey x hx hk] at hget
      cases hget
  | some v =>
      refine flatMap_of_unique hnodup (ExtTreeMap.mem_toList_iff_getElem?_eq_some.mpr hget)
        fun x hx hne => h x hx fun hk => hne ?_
      rw [hkey x hx hk] at hget
      exact Prod.ext hk (Option.some.inj hget)

section Snapshot

variable {π E : Type} [PubLike π] {ofPublisher : π → E} {topicOf processOf : E → Str}
  {d : Discovery π}

/-- What a snapshot shows of a topic. -/
def endpointsOf (ofPublisher : π → E) (d : Discovery π) (t : Str) : List E :=
  ((d.knownPublishers.getPublishers t).map fun publishers =>
    publishers.toList.flatMap fun process => process.2.map ofPublisher).getD []

theorem snapshotEndpoints_eq (ofPublisher : π → E) (d : Discovery π) :
    snapshotEndpoints ofPublisher d =
      d.knownPublishers.getTopicList.flatMap (endpointsOf ofPublisher d) := by
  refine List.flatMap_congr fun t _ => ?_
  rw [endpointsOf]
  cases d.knownPublishers.getPublishers t with
  | none => rfl
  | some publishers => rfl

/-- A snapshot has nothing but publishers of the table. -/
theorem exists_of_mem_snapshot {e : E} (he : e ∈ snapshotEndpoints ofPublisher d) :
    ∃ t q, ∃ p ∈ d.knownPublishers.pubsOf t q, ofPublisher p = e := by
  rw [snapshotEndpoints_eq] at he
  obtain ⟨t, -, he⟩ := List.mem_flatMap.mp he
  rw [endpointsOf] at he
  cases hget : d.knownPublishers.getPublishers t with
  | none =>
      rw [hget] at he
      cases he
  | some publishers =>
      rw [hget] at he
      obtain ⟨x, hx, he⟩ := List.mem_flatMap.mp he
      obtain ⟨p, hp, rfl⟩ := List.mem_map.mp he
      obtain ⟨q, hq⟩ := (mem_getPublishers _).mp ⟨publishers, hget, x, hx, hp⟩
      exact ⟨t, q, p, hq, rfl⟩

/-- What is filed in one place. -/
theorem filter_pubsOf (hw : d.knownPublishers.WellFormed)
    (htopic : ∀ p, topicOf (ofPublisher p) = PubLike.topic p)
    (hprocess : ∀ p, processOf (ofPublisher p) = PubLike.processUuid p) (t q t' q' : Str) :
    ((d.knownPublishers.pubsOf t' q').map ofPublisher).filter
        (fun e => topicOf e = t ∧ processOf e = q) =
      if t' = t ∧ q' = q then (d.knownPublishers.pubsOf t q).map ofPublisher else [] := by
  have htest : ∀ e ∈ (d.knownPublishers.pubsOf t' q').map ofPublisher,
      topicOf e = t' ∧ processOf e = q' := by
    intro e he
    obtain ⟨p, hp, rfl⟩ := List.mem_map.mp he
    rw [htopic, hprocess]
    exact hw.filed hp
  split
  case isTrue h =>
    obtain ⟨rfl, rfl⟩ := h
    exact List.filter_eq_self.mpr fun e he => decide_eq_true (htest e he)
  case isFalse h =>
    refine List.filter_eq_nil_iff.mpr fun e he => ?_
    obtain ⟨rfl, rfl⟩ := htest e he
    rwa [decide_eq_true_eq]

theorem filter_endpointsOf (hw : d.knownPublishers.WellFormed)
    (htopic : ∀ p, topicOf (ofPublisher p) = PubLike.topic p)
    (hprocess : ∀ p, processOf (ofPublisher p) = PubLike.processUuid p) (t q t' : Str) :
    (endpointsOf ofPublisher d t').filter (fun e => topicOf e = t ∧ processOf e = q) =
      if t' = t then (d.knownPublishers.pubsOf t q).map ofPublisher else [] := by
  rw [endpointsOf]
  cases hget : d.knownPublishers.getPublishers t' with
  | none =>
      split
      case isTrue ht =>
        have hnil : d.knownPublishers.pubsOf t q = [] := List.eq_nil_iff_forall_not_mem.mpr
          fun x => pubsOf_of_getPublishers _ (ht ▸ hget) q x
        rw [hnil]
        rfl
      case isFalse => rfl
  | some publishers =>
      have hlist : ∀ q' l, publishers[q']? = some l → l = d.knownPublishers.pubsOf t' q' := by
        intro q' l hl
        have hdata : d.knownPublishers.data[t']? = some publishers := hget
        rw [pubsOf_eq, hdata, Option.getD_some, hl, Option.getD_some]
      have hprocesses : ∀ x ∈ publishers.toList,
          (x.2.map ofPublisher).filter (fun e => topicOf e = t ∧ processOf e = q) =
            if t' = t ∧ x.1 = q then (d.knownPublishers.pubsOf t q).map ofPublisher else [] := by
        intro x hx
        rw [hlist x.1 x.2 (ExtTreeMap.mem_toList_iff_getElem?_eq_some.mp hx)]
        exact filter_pubsOf hw htopic hprocess t q t' x.1
      rw [Option.map_some, Option.getD_some, List.filter_flatMap,
        flatMap_toList_of_unique q fun x hx hq => by
          rw [hprocesses x hx, if_neg fun h => hq h.2]]
      cases hq : publishers[q]? with
      | none =>
          split
          case isTrue ht =>
            have hdata : d.knownPublishers.data[t]? = some publishers := ht ▸ hget
            rw [pubsOf_eq, hdata, Option.getD_some, hq]
            rfl
          case isFalse => rfl
      | some l =>
          have hmem : (q, l) ∈ publishers.toList :=
            ExtTreeMap.mem_toList_iff_getElem?_eq_some.mpr hq
          rw [Option.map_some, Option.getD_some, hprocesses _ hmem]
          simp

/-- **A snapshot shows what is known**: for a topic and a process the publishers that are filed
under them, each as often as it is filed, in their order. -/
theorem filter_snapshotEndpoints (hw : d.knownPublishers.WellFormed)
    (htopic : ∀ p, topicOf (ofPublisher p) = PubLike.topic p)
    (hprocess : ∀ p, processOf (ofPublisher p) = PubLike.processUuid p) (t q : Str) :
    ((snapshotEndpoints ofPublisher d).filter fun e => topicOf e = t ∧ processOf e = q) =
      (d.knownPublishers.pubsOf t q).map ofPublisher := by
  have hone := filter_endpointsOf hw htopic hprocess t q
  simp only [snapshotEndpoints_eq, List.filter_flatMap, hone]
  by_cases hmem : t ∈ d.knownPublishers.getTopicList
  · have hnodup : d.knownPublishers.getTopicList.Nodup := ExtTreeMap.nodup_keys
    rw [flatMap_of_unique hnodup hmem fun x _ hx => if_neg hx, if_pos rfl]
  · have hnil : d.knownPublishers.pubsOf t q = [] := by
      have hnone : d.knownPublishers.getPublishers t = none := by
        rw [getPublishers, ← Option.not_isSome_iff_eq_none, ExtTreeMap.isSome_getElem?_iff_mem]
        exact fun h => hmem (ExtTreeMap.mem_keys.mpr h)
      exact List.eq_nil_iff_forall_not_mem.mpr fun x => pubsOf_of_getPublishers _ hnone q x
    rw [hnil, List.map_nil]
    refine List.flatMap_eq_nil_iff.mpr fun x hx => if_neg ?_
    intro heq
    exact hmem (heq ▸ hx)

end Snapshot

end RfTrans
