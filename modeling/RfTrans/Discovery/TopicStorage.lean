import RfTrans.Discovery.PublisherInfo

/-!
# Topic storage

The table of publishers behind `Discovery` and `MessageRuntime`: topic to process
uuid to the publishers of that process, in the order they were added.  Every
operation is described by what it does to `pubsOf`, the list filed under one topic
and process; nothing else looks inside the maps.

## Main definitions

* `TopicStorage` and its operations.
* `TopicStorage.pubsOf` — the publishers filed under a topic and a process.
* `TopicStorage.WellFormed` — everything is filed under its own topic and process, and
  no key occurs twice.
-/

namespace RfTrans

open Std PubLike

/-- `kGenericMessageType` -/
def kGenericMessageType : Str := str "google.protobuf.Message"

/-- `TopicStorage<Pub>` -/
structure TopicStorage (π : Type) where
  data : StrMap (StrMap (List π)) := ∅

namespace TopicStorage

section Operations
variable {π : Type} [PubLike π]

/-- The duplicate test of `addPublisher`: same address and node. -/
def sameEndpoint (p q : π) : Bool := addr p = addr q ∧ nodeUuid p = nodeUuid q

/-- The message-type test of `hasTopic`. -/
def typeMatches (msgType : Str) (p : MessagePublisherInfo) : Bool :=
  p.msgType = msgType ∨ p.msgType = kGenericMessageType

/-- `addPublisher` -/
def addPublisher (st : TopicStorage π) (publisher : π) : TopicStorage π × Bool :=
  let mp := (st.data[topic publisher]?).getD ∅
  match mp[processUuid publisher]? with
  | some pubList =>
    if pubList.any (sameEndpoint · publisher) then (st, false)
    else (⟨st.data.insert (topic publisher)
      (mp.insert (processUuid publisher) (pubList ++ [publisher]))⟩, true)
  | none =>
    (⟨st.data.insert (topic publisher) (mp.insert (processUuid publisher) [publisher])⟩, true)

/-- `hasTopic` -/
def hasTopic (st : TopicStorage π) (topic : Str) : Bool := st.data.contains topic

/-- `hasTopic` for a message type. -/
def hasTopicOf (st : TopicStorage MessagePublisherInfo) (topic msgType : Str) : Bool :=
  match st.data[topic]? with
  | none => false
  | some mp => mp.toList.any fun x => x.2.any (typeMatches msgType)

/-- `hasAnyPublishers` -/
def hasAnyPublishers (st : TopicStorage π) (topic pUuid : Str) : Bool :=
  match st.data[topic]? with
  | none => false
  | some mp => mp.contains pUuid

/-- `hasPublisher` -/
def hasPublisher (st : TopicStorage π) (address : Str) : Bool :=
  st.data.toList.any fun x => x.2.toList.any fun y => y.2.any fun p => addr p = address

/-- `getPublisher`: the first publisher of the node. -/
def getPublisher (st : TopicStorage π) (topic pUuid nUuid : Str) : Option π :=
  match st.data[topic]? with
  | none => none
  | some mp =>
    match mp[pUuid]? with
    | none => none
    | some pubList => pubList.find? fun p => nodeUuid p = nUuid

/-- `getPublishers` -/
def getPublishers (st : TopicStorage π) (topic : Str) : Option (StrMap (List π)) := st.data[topic]?

/-- `delPublishersByNode` -/
def delPublishersByNode (st : TopicStorage π) (topic pUuid nUuid : Str) : TopicStorage π × Bool :=
  match st.data[topic]? with
  | none => (st, false)
  | some mp =>
    match mp[pUuid]? with
    | none => (st, false)
    | some pubList =>
      let rest := pubList.filter fun p => nodeUuid p ≠ nUuid
      let mp' := if rest.isEmpty then mp.erase pUuid else mp.insert pUuid rest
      let data' := if mp'.isEmpty then st.data.erase topic else st.data.insert topic mp'
      (⟨data'⟩, rest.length < pubList.length)

/-- `delPublishersByProc` -/
def delPublishersByProc (st : TopicStorage π) (pUuid : Str) : TopicStorage π × Bool :=
  (⟨st.data.filterMap fun _ mp =>
      let mp' := mp.erase pUuid
      if mp'.isEmpty then none else some mp'⟩,
    st.data.toList.any fun x => x.2.contains pUuid)

/-- The publishers that a process has in any topic, in the order of the topics. -/
def pubsOfProc (st : TopicStorage π) (pUuid : Str) : List π :=
  st.data.toList.flatMap fun x => (x.2[pUuid]?).getD []

/-- `pubs[pub.getNodeUuid()].push_back(pub)` -/
def pushByNode (pubs : StrMap (List π)) (p : π) : StrMap (List π) :=
  pubs.insert (nodeUuid p) ((pubs[nodeUuid p]?).getD [] ++ [p])

/-- `getPublishersByProc`: the publishers of a process by node. -/
def getPublishersByProc (st : TopicStorage π) (pUuid : Str) : StrMap (List π) :=
  (st.pubsOfProc pUuid).foldl pushByNode ∅

/-- `getPublishersByNode` -/
def getPublishersByNode (st : TopicStorage π) (pUuid nUuid : Str) : List π :=
  (st.pubsOfProc pUuid).filter fun p => nodeUuid p = nUuid

/-- `getTopicList` -/
def getTopicList (st : TopicStorage π) : List Str := st.data.keys

/-- The publishers filed under a topic and a process. -/
def pubsOf (st : TopicStorage π) (topic pUuid : Str) : List π :=
  ((st.data[topic]?).bind fun mp => mp[pUuid]?).getD []

end Operations

section Lookup
variable {π : Type} (st : TopicStorage π) {t q : Str}

@[simp] theorem pubsOf_empty (t q : Str) : ({} : TopicStorage π).pubsOf t q = [] := by
  simp [pubsOf]

/-- The list is that of the process in the topic's map. -/
theorem pubsOf_eq (t q : Str) : st.pubsOf t q = ((((st.data[t]?).getD ∅)[q]?).getD []) := by
  simp only [pubsOf]
  cases st.data[t]? with
  | none => simp
  | some mp => rfl

/-- Replacing the map of one topic. -/
theorem pubsOf_insert (t : Str) (mp : StrMap (List π)) (t' q : Str) :
    pubsOf ⟨st.data.insert t mp⟩ t' q =
      if t' = t then (mp[q]?).getD [] else st.pubsOf t' q := by
  by_cases h : t' = t
  · subst h
    simp [pubsOf]
  · simp [pubsOf, StrMap.getElem?_insert_of_ne _ h, h]

theorem mem_pubsOf_iff {x : π} :
    x ∈ st.pubsOf t q ↔ ∃ mp l, st.data[t]? = some mp ∧ mp[q]? = some l ∧ x ∈ l := by
  simp only [pubsOf]
  cases st.data[t]? with
  | none => simp
  | some mp =>
      cases hq : mp[q]? with
      | none => simp [hq]
      | some l => simp [hq]

/-- The publishers of the process leave every topic, all others stay. -/
theorem pubsOf_delPublishersByProc (q t' q' : Str) :
    (st.delPublishersByProc q).1.pubsOf t' q' = if q' = q then [] else st.pubsOf t' q' := by
  simp only [delPublishersByProc, pubsOf, ExtTreeMap.getElem?_filterMap']
  cases ht : st.data[t']? with
  | none => simp
  | some mp =>
      simp only [Option.bind_some]
      have hget : ((mp.erase q)[q']?).getD [] = if q' = q then [] else (mp[q']?).getD [] := by
        by_cases hq : q' = q
        · subst hq
          simp
        · rw [StrMap.getElem?_erase_of_ne _ hq, if_neg hq]
      rw [← hget]
      by_cases hempty : (mp.erase q).isEmpty
      · rw [if_pos hempty, ExtTreeMap.isEmpty_iff.mp hempty]
        simp
      · rw [if_neg hempty]
        rfl

/-- Removing several processes, one after the other. -/
theorem pubsOf_foldl_delPublishersByProc (gone : List Str) (t' q' : Str) :
    (gone.foldl (fun st uuid => (st.delPublishersByProc uuid).1) st).pubsOf t' q' =
      if q' ∈ gone then [] else st.pubsOf t' q' := by
  induction gone generalizing st with
  | nil => simp
  | cons uuid gone ih =>
      rw [List.foldl_cons, ih, pubsOf_delPublishersByProc]
      by_cases hq : q' = uuid
      · simp [hq]
      · simp [hq]

theorem mem_pubsOf_delPublishersByProc {q t' q' : Str} {x : π} :
    x ∈ (st.delPublishersByProc q).1.pubsOf t' q' ↔ x ∈ st.pubsOf t' q' ∧ q' ≠ q := by
  rw [pubsOf_delPublishersByProc]
  by_cases hq : q' = q
  · simp [hq]
  · simp [hq]

theorem mem_pubsOf_foldl_delPublishersByProc {gone : List Str} {t' q' : Str} {x : π} :
    x ∈ (gone.foldl (fun st uuid => (st.delPublishersByProc uuid).1) st).pubsOf t' q' ↔
      x ∈ st.pubsOf t' q' ∧ q' ∉ gone := by
  rw [pubsOf_foldl_delPublishersByProc]
  by_cases hq : q' ∈ gone
  · simp [hq]
  · simp [hq]

end Lookup

/-! ## What the operations do to `pubsOf` -/

variable {π : Type} [PubLike π] (st : TopicStorage π) {t q : Str} {p : π}

/-- `addPublisher` succeeds unless the endpoint is there already. -/
theorem addPublisher_snd :
    (st.addPublisher p).2 = true ↔
      ∀ x ∈ st.pubsOf (topic p) (processUuid p), ¬ sameEndpoint x p := by
  rw [pubsOf_eq]
  simp only [addPublisher]
  cases ((st.data[topic p]?).getD ∅)[processUuid p]? with
  | none => simp
  | some pubList =>
      by_cases h : pubList.any (sameEndpoint · p)
      · simp only [h, if_true, Option.getD_some, Bool.false_eq_true, false_iff]
        obtain ⟨x, hx, hxp⟩ := List.any_eq_true.mp h
        intro hall
        exact hall x hx hxp
      · simp only [h, Option.getD_some, Bool.false_eq_true, if_false, true_iff]
        intro x hx hxp
        exact h (List.any_eq_true.mpr ⟨x, hx, hxp⟩)

/-- A new publisher goes to the end of its list. -/
theorem pubsOf_addPublisher_of_added (h : (st.addPublisher p).2 = true) (t q : Str) :
    (st.addPublisher p).1.pubsOf t q =
      if t = topic p ∧ q = processUuid p then st.pubsOf t q ++ [p] else st.pubsOf t q := by
  have hins : ∀ l, ((((st.data[topic p]?).getD ∅)[processUuid p]?).getD []) = l →
      pubsOf ⟨st.data.insert (topic p)
        (((st.data[topic p]?).getD ∅).insert (processUuid p) (l ++ [p]))⟩ t q =
      if t = topic p ∧ q = processUuid p then st.pubsOf t q ++ [p] else st.pubsOf t q := by
    intro l hl
    rw [pubsOf_insert]
    by_cases ht : t = topic p
    · subst ht
      by_cases hq : q = processUuid p
      · subst hq
        simp [pubsOf_eq, hl]
      · simp [StrMap.getElem?_insert_of_ne _ hq, hq, pubsOf_eq]
    · simp [ht]
  simp only [addPublisher] at h ⊢
  cases hl : ((st.data[topic p]?).getD ∅)[processUuid p]? with
  | none => exact hins [] (by rw [hl]; rfl)
  | some pubList =>
      rw [hl] at h
      by_cases hany : pubList.any (sameEndpoint · p)
      · simp [hany] at h
      · simp only [hany]
        exact hins pubList (by rw [hl]; rfl)

/-- A duplicate changes nothing. -/
theorem addPublisher_of_not_added (h : (st.addPublisher p).2 = false) :
    (st.addPublisher p).1 = st := by
  simp only [addPublisher] at h ⊢
  cases hl : ((st.data[topic p]?).getD ∅)[processUuid p]? with
  | none => simp [hl] at h
  | some pubList =>
      rw [hl] at h
      by_cases hany : pubList.any (sameEndpoint · p)
      · simp [hany]
      · simp [hany] at h

/-- `addPublisher` as a whole. -/
theorem pubsOf_addPublisher (t q : Str) :
    (st.addPublisher p).1.pubsOf t q =
      if (st.addPublisher p).2 ∧ t = topic p ∧ q = processUuid p then st.pubsOf t q ++ [p]
      else st.pubsOf t q := by
  by_cases h : (st.addPublisher p).2 = true
  · rw [pubsOf_addPublisher_of_added st h]
    simp [h]
  · rw [addPublisher_of_not_added st (by simpa using h)]
    simp [h]

/-- What is filed after `addPublisher` was filed before or is the new publisher. -/
theorem mem_pubsOf_addPublisher {x : π} :
    x ∈ (st.addPublisher p).1.pubsOf t q ↔
      x ∈ st.pubsOf t q ∨
        ((st.addPublisher p).2 = true ∧ t = topic p ∧ q = processUuid p ∧ x = p) := by
  rw [pubsOf_addPublisher]
  by_cases h : (st.addPublisher p).2 = true ∧ t = topic p ∧ q = processUuid p
  · rw [if_pos h]
    simp [h]
  · rw [if_neg h]
    constructor
    · exact Or.inl
    · intro hx
      rcases hx with hx | ⟨h₁, h₂, h₃, -⟩
      · exact hx
      · exact absurd ⟨h₁, h₂, h₃⟩ h

/-- The publishers of the node leave, all others stay. -/
theorem pubsOf_delPublishersByNode (t q n t' q' : Str) :
    (st.delPublishersByNode t q n).1.pubsOf t' q' =
      if t' = t ∧ q' = q then (st.pubsOf t q).filter fun p => nodeUuid p ≠ n
      else st.pubsOf t' q' := by
  have hnone : st.pubsOf t q = [] → st.pubsOf t' q' =
      if t' = t ∧ q' = q then (st.pubsOf t q).filter fun p => nodeUuid p ≠ n
      else st.pubsOf t' q' := by
    intro h
    by_cases htq : t' = t ∧ q' = q
    · obtain ⟨rfl, rfl⟩ := htq
      simp [h]
    · simp [htq]
  simp only [delPublishersByNode]
  cases ht : st.data[t]? with
  | none => exact hnone (by simp [pubsOf, ht])
  | some mp =>
      cases hq : mp[q]? with
      | none => simpa [hq] using hnone (by simp [pubsOf, ht, hq])
      | some pubList =>
          have hlist : st.pubsOf t q = pubList := by simp [pubsOf, ht, hq]
          rw [hlist]
          -- What the new map of the topic has, whether it is kept or not.
          have hmp : ∀ mp', (mp' = if (pubList.filter fun p => nodeUuid p ≠ n).isEmpty
              then mp.erase q else mp.insert q (pubList.filter fun p => nodeUuid p ≠ n)) →
              ((mp' : StrMap (List π))[q']?).getD [] =
                if q' = q then pubList.filter fun p => nodeUuid p ≠ n else st.pubsOf t q' := by
            intro mp' hmp'
            rw [hmp']
            have hold : st.pubsOf t q' = (mp[q']?).getD [] := by simp [pubsOf, ht]
            by_cases hrest : (pubList.filter fun p => nodeUuid p ≠ n).isEmpty
            · simp only [hrest, if_true]
              by_cases hqq : q' = q
              · subst hqq
                rw [if_pos rfl, List.isEmpty_iff.mp hrest]
                simp
              · rw [if_neg hqq, StrMap.getElem?_erase_of_ne _ hqq, hold]
            · simp only [hrest]
              by_cases hqq : q' = q
              · subst hqq
                simp
              · rw [if_neg hqq, if_neg (by simp), StrMap.getElem?_insert_of_ne _ hqq, hold]
          simp only [hq]
          generalize hm : (if (pubList.filter fun p => nodeUuid p ≠ n).isEmpty
              then mp.erase q else mp.insert q (pubList.filter fun p => nodeUuid p ≠ n)) = mp'
          have hget := hmp mp' hm.symm
          by_cases ht' : t' = t
          · subst ht'
            simp only [true_and]
            rw [← hget]
            by_cases hempty : mp'.isEmpty
            · rw [ExtTreeMap.isEmpty_iff.mp hempty]
              simp [pubsOf]
            · simp [pubsOf, hempty]
          · by_cases hempty : mp'.isEmpty
            · simp [pubsOf, hempty, StrMap.getElem?_erase_of_ne _ ht', ht']
            · simp [pubsOf, hempty, StrMap.getElem?_insert_of_ne _ ht', ht']

theorem mem_pubsOf_delPublishersByNode {t q n t' q' : Str} {x : π} :
    x ∈ (st.delPublishersByNode t q n).1.pubsOf t' q' ↔
      x ∈ st.pubsOf t' q' ∧ ¬ (t' = t ∧ q' = q ∧ nodeUuid x = n) := by
  rw [pubsOf_delPublishersByNode]
  by_cases htq : t' = t ∧ q' = q
  · obtain ⟨rfl, rfl⟩ := htq
    simp
  · rw [if_neg htq]
    exact ⟨fun hx => ⟨hx, fun h => htq ⟨h.1, h.2.1⟩⟩, And.left⟩

/-! ## What the queries answer -/

theorem getPublisher_eq (t q n : Str) :
    st.getPublisher t q n = (st.pubsOf t q).find? fun p => nodeUuid p = n := by
  simp only [getPublisher, pubsOf]
  cases st.data[t]? with
  | none => rfl
  | some mp =>
      simp only [Option.bind_some]
      cases mp[q]? with
      | none => rfl
      | some pubList => rfl

theorem hasTopicOf_iff (st : TopicStorage MessagePublisherInfo) {t msgType : Str} :
    st.hasTopicOf t msgType = true ↔ ∃ q, ∃ x ∈ st.pubsOf t q, typeMatches msgType x := by
  simp only [hasTopicOf, mem_pubsOf_iff]
  cases ht : st.data[t]? with
  | none => simp
  | some mp =>
      simp only [List.any_eq_true]
      constructor
      · rintro ⟨⟨q, l⟩, hql, x, hx, hm⟩
        exact ⟨q, x, ⟨mp, l, rfl, ExtTreeMap.mem_toList_iff_getElem?_eq_some.mp hql, hx⟩, hm⟩
      · rintro ⟨q, x, ⟨mp', l, hmp, hl, hx⟩, hm⟩
        rw [← Option.some.inj hmp] at hl
        exact ⟨(q, l), ExtTreeMap.mem_toList_iff_getElem?_eq_some.mpr hl, x, hx, hm⟩

theorem hasPublisher_iff {a : Str} :
    st.hasPublisher a = true ↔ ∃ t q, ∃ x ∈ st.pubsOf t q, addr x = a := by
  simp only [hasPublisher, mem_pubsOf_iff, List.any_eq_true, decide_eq_true_eq]
  constructor
  · rintro ⟨⟨t, mp⟩, ht, ⟨q, l⟩, hq, x, hx, ha⟩
    exact ⟨t, q, x, ⟨mp, l, ExtTreeMap.mem_toList_iff_getElem?_eq_some.mp ht,
      ExtTreeMap.mem_toList_iff_getElem?_eq_some.mp hq, hx⟩, ha⟩
  · rintro ⟨t, q, x, ⟨mp, l, ht, hq, hx⟩, ha⟩
    exact ⟨(t, mp), ExtTreeMap.mem_toList_iff_getElem?_eq_some.mpr ht, (q, l),
      ExtTreeMap.mem_toList_iff_getElem?_eq_some.mpr hq, x, hx, ha⟩

omit [PubLike π] in
/-- `getPublishers` gives everything that is filed under the topic. -/
theorem mem_getPublishers {x : π} :
    (∃ mp, st.getPublishers t = some mp ∧ ∃ y ∈ mp.toList, x ∈ y.2) ↔ ∃ q, x ∈ st.pubsOf t q := by
  simp only [getPublishers, mem_pubsOf_iff]
  constructor
  · rintro ⟨mp, hmp, ⟨q, l⟩, hql, hx⟩
    exact ⟨q, mp, l, hmp, ExtTreeMap.mem_toList_iff_getElem?_eq_some.mp hql, hx⟩
  · rintro ⟨q, mp, l, hmp, hl, hx⟩
    exact ⟨mp, hmp, (q, l), ExtTreeMap.mem_toList_iff_getElem?_eq_some.mpr hl, hx⟩

omit [PubLike π] in
theorem mem_flatMap_getPublishers {mp : StrMap (List π)} (h : st.getPublishers t = some mp)
    {x : π} : (x ∈ mp.toList.flatMap fun proc => proc.2) ↔ ∃ q, x ∈ st.pubsOf t q := by
  rw [← mem_getPublishers, List.mem_flatMap]
  constructor
  · intro hx
    exact ⟨mp, h, hx⟩
  · rintro ⟨mp', hmp', hx⟩
    rw [h] at hmp'
    obtain rfl := Option.some.inj hmp'
    exact hx

omit [PubLike π] in
theorem pubsOf_of_getPublishers (h : st.getPublishers t = none) (q : Str) (x : π) :
    x ∉ st.pubsOf t q := by
  intro hx
  obtain ⟨mp, hmp, -⟩ := (mem_getPublishers st).mpr ⟨q, hx⟩
  rw [h] at hmp
  cases hmp

omit [PubLike π] in
theorem mem_pubsOfProc {x : π} : x ∈ st.pubsOfProc q ↔ ∃ t, x ∈ st.pubsOf t q := by
  simp only [pubsOfProc, List.mem_flatMap, mem_pubsOf_iff]
  constructor
  · rintro ⟨⟨t, mp⟩, ht, hx⟩
    cases hq : mp[q]? with
    | none => simp [hq] at hx
    | some l =>
        refine ⟨t, mp, l, ExtTreeMap.mem_toList_iff_getElem?_eq_some.mp ht, hq, ?_⟩
        simpa [hq] using hx
  · rintro ⟨t, mp, l, ht, hq, hx⟩
    exact ⟨(t, mp), ExtTreeMap.mem_toList_iff_getElem?_eq_some.mpr ht, by simpa [hq] using hx⟩

omit [PubLike π] in
theorem exists_mem_pubsOfProc {P : π → Prop} :
    (∃ x ∈ st.pubsOfProc q, P x) ↔ ∃ t, ∃ x ∈ st.pubsOf t q, P x := by
  constructor
  · rintro ⟨x, hx, hP⟩
    obtain ⟨t, hx⟩ := (mem_pubsOfProc st).mp hx
    exact ⟨t, x, hx, hP⟩
  · rintro ⟨t, x, hx, hP⟩
    exact ⟨x, (mem_pubsOfProc st).mpr ⟨t, hx⟩, hP⟩

/-- Grouping by node loses nothing and adds nothing. -/
theorem mem_foldl_pushByNode (ps : List π) (pubs : StrMap (List π)) {x : π} :
    (∃ y ∈ (ps.foldl pushByNode pubs).toList, x ∈ y.2) ↔
      (∃ y ∈ pubs.toList, x ∈ y.2) ∨ x ∈ ps := by
  induction ps generalizing pubs with
  | nil => simp
  | cons p ps ih =>
      rw [List.foldl_cons, ih]
      have hpush : (∃ y ∈ (pushByNode pubs p).toList, x ∈ y.2) ↔
          (∃ y ∈ pubs.toList, x ∈ y.2) ∨ x = p := by
        constructor
        · rintro ⟨⟨n, l⟩, hnl, hx⟩
          rw [ExtTreeMap.mem_toList_iff_getElem?_eq_some] at hnl
          obtain ⟨rfl, rfl⟩ | ⟨-, hnl⟩ := StrMap.getElem?_of_insert _ hnl
          · rcases List.mem_append.mp hx with hx | hx
            · cases hold : pubs[nodeUuid p]? with
              | none => simp [hold] at hx
              | some l =>
                  exact .inl ⟨(nodeUuid p, l), ExtTreeMap.mem_toList_iff_getElem?_eq_some.mpr hold,
                    by simpa [hold] using hx⟩
            · exact .inr (List.mem_singleton.mp hx)
          · exact .inl ⟨(n, l), ExtTreeMap.mem_toList_iff_getElem?_eq_some.mpr hnl, hx⟩
        · intro h
          have hself : (pushByNode pubs p)[nodeUuid p]? =
              some ((pubs[nodeUuid p]?).getD [] ++ [p]) := ExtTreeMap.getElem?_insert_self
          rcases h with ⟨⟨n, l⟩, hnl, hx⟩ | rfl
          · rw [ExtTreeMap.mem_toList_iff_getElem?_eq_some] at hnl
            by_cases hn : n = nodeUuid p
            · subst hn
              refine ⟨_, ExtTreeMap.mem_toList_iff_getElem?_eq_some.mpr hself, ?_⟩
              simp only [hnl, Option.getD_some]
              exact List.mem_append_left _ hx
            · exact ⟨(n, l), ExtTreeMap.mem_toList_iff_getElem?_eq_some.mpr
                ((StrMap.getElem?_insert_of_ne _ hn _).trans hnl), hx⟩
          · exact ⟨_, ExtTreeMap.mem_toList_iff_getElem?_eq_some.mpr hself,
              List.mem_append_right _ (List.mem_singleton_self _)⟩
      rw [hpush, List.mem_cons, or_assoc]

/-- `getPublishersByProc` gives everything that the process has in any topic. -/
theorem mem_getPublishersByProc {x : π} :
    (∃ y ∈ (st.getPublishersByProc q).toList, x ∈ y.2) ↔ ∃ t, x ∈ st.pubsOf t q := by
  rw [getPublishersByProc, mem_foldl_pushByNode, mem_pubsOfProc]
  simp

/-! ## Well-formed tables -/

/-- Everything is filed under its own topic and process, and no two publishers of a
topic and a process have the same address and node. -/
structure WellFormed (st : TopicStorage π) : Prop where
  filed : ∀ {t q : Str} {x : π}, x ∈ st.pubsOf t q → topic x = t ∧ processUuid x = q
  distinct : ∀ t q : Str, (st.pubsOf t q).Pairwise fun x y => ¬ sameEndpoint x y

variable {st}

theorem wellFormed_empty : WellFormed ({} : TopicStorage π) :=
  ⟨fun hx => by simp at hx, fun t q => by simp⟩

theorem WellFormed.addPublisher (h : st.WellFormed) (p : π) : (st.addPublisher p).1.WellFormed := by
  refine ⟨fun hx => ?_, fun t q => ?_⟩
  · rcases (mem_pubsOf_addPublisher st).mp hx with hx | ⟨-, rfl, rfl, rfl⟩
    · exact h.filed hx
    · exact ⟨rfl, rfl⟩
  · rw [pubsOf_addPublisher]
    split
    case isTrue hadd =>
      obtain ⟨hadd, rfl, rfl⟩ := hadd
      rw [List.pairwise_append]
      refine ⟨h.distinct _ _, List.pairwise_singleton _ _, ?_⟩
      intro x hx y hy
      obtain rfl := List.mem_singleton.mp hy
      exact (addPublisher_snd st).mp hadd x hx
    case isFalse => exact h.distinct t q

theorem WellFormed.delPublishersByNode (h : st.WellFormed) (t q n : Str) :
    (st.delPublishersByNode t q n).1.WellFormed := by
  refine ⟨fun hx => h.filed ((mem_pubsOf_delPublishersByNode st).mp hx).1, fun t' q' => ?_⟩
  rw [pubsOf_delPublishersByNode]
  split
  case isTrue => exact (h.distinct t q).filter _
  case isFalse => exact h.distinct t' q'

theorem WellFormed.delPublishersByProc (h : st.WellFormed) (q : Str) :
    (st.delPublishersByProc q).1.WellFormed := by
  refine ⟨fun hx => h.filed ((mem_pubsOf_delPublishersByProc st).mp hx).1, fun t' q' => ?_⟩
  rw [pubsOf_delPublishersByProc]
  split
  case isTrue => exact List.Pairwise.nil
  case isFalse => exact h.distinct t' q'

theorem WellFormed.foldl_delPublishersByProc (h : st.WellFormed) (gone : List Str) :
    (gone.foldl (fun st uuid => (st.delPublishersByProc uuid).1) st).WellFormed := by
  induction gone generalizing st with
  | nil => exact h
  | cons uuid gone ih => exact ih (h.delPublishersByProc uuid)

/-- The ways in which the runtimes change a table. -/
inductive Edited (st : TopicStorage π) : TopicStorage π → Prop
  | same : Edited st st
  | added (p : π) : Edited st (st.addPublisher p).1
  | removedNode (t q n : Str) : Edited st (st.delPublishersByNode t q n).1
  | removedProcs (gone : List Str) :
    Edited st (gone.foldl (fun st uuid => (st.delPublishersByProc uuid).1) st)

theorem WellFormed.edited {st' : TopicStorage π} (h : st.WellFormed) (he : Edited st st') :
    st'.WellFormed := by
  cases he with
  | same => exact h
  | added p => exact h.addPublisher p
  | removedNode t q n => exact h.delPublishersByNode t q n
  | removedProcs gone => exact h.foldl_delPublishersByProc gone

/-- Publishers of a topic and a process with the same address and node are the same. -/
theorem WellFormed.eq_of_sameEndpoint (h : st.WellFormed) {t q : Str} {x y : π}
    (hx : x ∈ st.pubsOf t q) (hy : y ∈ st.pubsOf t q) (hsame : sameEndpoint x y = true) :
    x = y := by
  have hsymm : Std.Symm fun x y : π => ¬ sameEndpoint x y := by
    refine ⟨fun x y hxy hyx => hxy ?_⟩
    simp only [sameEndpoint, decide_eq_true_eq] at hyx ⊢
    exact ⟨hyx.1.symm, hyx.2.symm⟩
  by_contra hne
  exact (h.distinct t q).forall hx hy hne hsame

end TopicStorage
end RfTrans
