import RfTrans.Discovery.TopicStorage
import RfTrans.Lib.Refinement

/-!
# Topic storage as a collection of publishers

What a `TopicStorage` stands for: a finite collection of publishers with at most one for
each topic, process, address and node.

## Main definitions

* `Collection` — the collection, and `Collection.step` — what an operation does to it.
* `TopicStorage.Represents` — a storage files exactly the collection.
* `TopicStorage.Answers` — every query of the storage is that of the collection.
* `TopicStorage.refines_collection`
-/

namespace RfTrans

open Std PubLike Refinement

/-- What distinguishes publishers. -/
structure PublisherKey where
  topic : Str
  processUuid : Str
  addr : Str
  nodeUuid : Str
  deriving DecidableEq

variable {π : Type} [PubLike π]

def publisherKey (p : π) : PublisherKey := ⟨topic p, processUuid p, addr p, nodeUuid p⟩

/-- A collection of publishers. -/
abbrev Collection (π : Type) [PubLike π] := Keyed (publisherKey : π → PublisherKey)

/-- The operations that change a storage. -/
inductive StorageOp (π : Type)
  | addPublisher (publisher : π)
  | delPublishersByNode (topic pUuid nUuid : Str)
  | delPublishersByProc (pUuid : Str)
  | clear

/-- What they do to the collection; `clear` has no answer. -/
def Collection.step (c : Collection π) : StorageOp π → Collection π × Bool
  | .addPublisher p => c.add p
  | .delPublishersByNode t q n =>
    c.remove fun x => topic x = t ∧ processUuid x = q ∧ nodeUuid x = n
  | .delPublishersByProc q => c.remove fun x => processUuid x = q
  | .clear => (Keyed.empty, true)

/-- A list that is there only if it has an element. -/
def someIfAny {α : Type} (l : List α) : Option (List α) := if l.isEmpty then none else some l

namespace TopicStorage

/-- `clear` -/
def clear (_ : TopicStorage π) : TopicStorage π := {}

/-- What they do to the storage. -/
def step (st : TopicStorage π) : StorageOp π → TopicStorage π × Bool
  | .addPublisher p => st.addPublisher p
  | .delPublishersByNode t q n => st.delPublishersByNode t q n
  | .delPublishersByProc q => st.delPublishersByProc q
  | .clear => (st.clear, true)

/-- No topic is left without a process, no process without a publisher. -/
structure Tight (st : TopicStorage π) : Prop where
  topics : ∀ {t : Str} {mp : StrMap (List π)}, st.data[t]? = some mp → mp ≠ ∅
  lists : ∀ {t q : Str} {mp : StrMap (List π)} {l : List π}, st.data[t]? = some mp →
    mp[q]? = some l → l ≠ []

/-- The storage files the publishers of the collection, each under its own topic and
process and in the order of the collection, and nothing else. -/
structure Represents (st : TopicStorage π) (c : Collection π) : Prop where
  filed : ∀ t q, st.pubsOf t q = c.entries.filter fun x => topic x = t ∧ processUuid x = q
  tight : st.Tight

/-- The queries, in terms of the collection. -/
structure Answers (st : TopicStorage π) (c : Collection π) : Prop where
  hasTopic : ∀ t, st.hasTopic t = c.entries.any fun x => topic x = t
  hasAnyPublishers : ∀ t q,
    st.hasAnyPublishers t q = c.entries.any fun x => topic x = t ∧ processUuid x = q
  hasPublisher : ∀ a, st.hasPublisher a = c.entries.any fun x => addr x = a
  getPublisher : ∀ t q n, st.getPublisher t q n =
    c.entries.find? fun x => topic x = t ∧ processUuid x = q ∧ nodeUuid x = n
  noPublishers : ∀ t, st.getPublishers t = none ↔ ∀ x ∈ c.entries, topic x ≠ t
  getPublishers : ∀ t mp, st.getPublishers t = some mp → ∀ q, mp[q]? =
    someIfAny (c.entries.filter fun x => topic x = t ∧ processUuid x = q)
  topicsOrdered : st.getTopicList.Pairwise fun t t' => compare t t' = .lt
  mem_getTopicList : ∀ t, t ∈ st.getTopicList ↔ ∃ x ∈ c.entries, topic x = t
  getPublishersByProc : ∀ q n, (st.getPublishersByProc q)[n]? =
    someIfAny (st.getTopicList.flatMap fun t =>
      c.entries.filter fun x => topic x = t ∧ processUuid x = q ∧ nodeUuid x = n)
  getPublishersByNode : ∀ q n, st.getPublishersByNode q n =
    st.getTopicList.flatMap fun t =>
      c.entries.filter fun x => topic x = t ∧ processUuid x = q ∧ nodeUuid x = n

/-! ## No empty maps -/

variable {st : TopicStorage π} {c : Collection π}

section Shape
omit [PubLike π]

theorem tight_empty : Tight ({} : TopicStorage π) :=
  ⟨fun h => by simp at h, fun h => by simp at h⟩

/-- One topic gets a map that is not empty and has no empty list. -/
theorem Tight.insert (h : st.Tight) {t : Str} {mp : StrMap (List π)} (hmp : mp ≠ ∅)
    (hlists : ∀ (q : Str) (l : List π), mp[q]? = some l → l ≠ []) :
    Tight ⟨st.data.insert t mp⟩ where
  topics := by
    intro t' mp' ht'
    rcases StrMap.getElem?_of_insert _ ht' with ⟨-, rfl⟩ | ⟨-, hold⟩
    · exact hmp
    · exact h.topics hold
  lists := by
    intro t' mp' q l ht' hq
    rcases StrMap.getElem?_of_insert _ ht' with ⟨-, rfl⟩ | ⟨-, hold⟩
    · exact hlists _ _ hq
    · exact h.lists hold hq

theorem Tight.erase (h : st.Tight) (t : Str) : Tight ⟨st.data.erase t⟩ where
  topics ht' := h.topics (StrMap.getElem?_of_erase _ ht').2
  lists ht' hq := h.lists (StrMap.getElem?_of_erase _ ht').2 hq

theorem Tight.delPublishersByProc (h : st.Tight) (q : Str) :
    (st.delPublishersByProc q).1.Tight := by
  have hdata : ∀ (t : Str) (mp : StrMap (List π)), (st.delPublishersByProc q).1.data[t]? = some mp →
      mp ≠ ∅ ∧ ∃ old, st.data[t]? = some old ∧ mp = old.erase q := by
    intro t mp hmp
    simp only [TopicStorage.delPublishersByProc, ExtTreeMap.getElem?_filterMap'] at hmp
    obtain ⟨old, hold, hmp⟩ := Option.bind_eq_some_iff.mp hmp
    split at hmp
    case isTrue => cases hmp
    case isFalse hne =>
      obtain rfl := Option.some.inj hmp
      exact ⟨fun heq => hne (by simp [heq]), old, hold, rfl⟩
  constructor
  · intro t mp hmp
    exact (hdata t mp hmp).1
  · intro t q' mp l hmp hl
    obtain ⟨-, old, hold, rfl⟩ := hdata t mp hmp
    exact h.lists hold (StrMap.getElem?_of_erase _ hl).2

end Shape

theorem Tight.addPublisher (h : st.Tight) (p : π) : (st.addPublisher p).1.Tight := by
  -- the lists of the topic, and the one of the process made longer
  have hins : ∀ l, Tight (⟨st.data.insert (topic p)
      (((st.data[topic p]?).getD ∅).insert (processUuid p) (l ++ [p]))⟩ : TopicStorage π) := by
    intro l
    refine h.insert ExtTreeMap.insert_ne_empty fun q l' hq => ?_
    rcases StrMap.getElem?_of_insert _ hq with ⟨-, rfl⟩ | ⟨-, hold⟩
    · simp
    · cases ht : st.data[topic p]? with
      | none => simp [ht] at hold
      | some mp => exact h.lists ht (by simpa [ht] using hold)
  simp only [TopicStorage.addPublisher]
  cases ((st.data[topic p]?).getD ∅)[processUuid p]? with
  | none => exact hins []
  | some pubList =>
      simp only
      split
      case isTrue => exact h
      case isFalse => exact hins pubList

theorem Tight.delPublishersByNode (h : st.Tight) (t q n : Str) :
    (st.delPublishersByNode t q n).1.Tight := by
  simp only [TopicStorage.delPublishersByNode]
  cases ht : st.data[t]? with
  | none => exact h
  | some mp =>
      cases hq : mp[q]? with
      | none => simpa [hq] using h
      | some pubList =>
          simp only [hq]
          generalize hrest : (pubList.filter fun p => nodeUuid p ≠ n) = rest
          generalize hmp : (if rest.isEmpty then mp.erase q else mp.insert q rest) = mp'
          have hlists : ∀ (q' : Str) l, mp'[q']? = some l → l ≠ [] := by
            intro q' l hl
            subst hmp
            split at hl
            case isTrue => exact h.lists ht (StrMap.getElem?_of_erase _ hl).2
            case isFalse hne =>
              rcases StrMap.getElem?_of_insert _ hl with ⟨-, rfl⟩ | ⟨-, hold⟩
              · simpa using hne
              · exact h.lists ht hold
          split
          case isTrue => exact h.erase t
          case isFalse hne => exact h.insert (fun heq => hne (by simp [heq])) hlists

/-! ## The operations -/

theorem sameEndpoint_iff {x p : π} (ht : topic x = topic p) (hq : processUuid x = processUuid p) :
    sameEndpoint x p = true ↔ publisherKey x = publisherKey p := by
  simp [sameEndpoint, publisherKey, ht, hq]

theorem Represents.mem (h : st.Represents c) {t q : Str} {x : π} :
    x ∈ st.pubsOf t q ↔ x ∈ c.entries ∧ topic x = t ∧ processUuid x = q := by
  rw [h.filed, List.mem_filter, decide_eq_true_eq]

theorem Represents.addPublisher (h : st.Represents c) (p : π) :
    (st.addPublisher p).2 = (c.add p).2 ∧ (st.addPublisher p).1.Represents (c.add p).1 := by
  have hadded : (st.addPublisher p).2 = (c.add p).2 := by
    rw [Bool.eq_iff_iff, addPublisher_snd, Keyed.add_snd]
    constructor
    · intro hnew x hx hkey
      have ht : topic x = topic p := congrArg PublisherKey.topic hkey
      have hq : processUuid x = processUuid p := congrArg PublisherKey.processUuid hkey
      exact hnew x (h.mem.mpr ⟨hx, ht, hq⟩) ((sameEndpoint_iff ht hq).mpr hkey)
    · intro hnew x hx hsame
      obtain ⟨hx, ht, hq⟩ := h.mem.mp hx
      exact hnew x hx ((sameEndpoint_iff ht hq).mp hsame)
  refine ⟨hadded, ?_, h.tight.addPublisher p⟩
  intro t q
  rw [pubsOf_addPublisher, hadded, Keyed.entries_add, h.filed]
  cases hadd : (c.add p).2 with
  | false => simp
  | true =>
      by_cases htq : topic p = t ∧ processUuid p = q
      · obtain ⟨rfl, rfl⟩ := htq
        simp
      · have hne : ¬ (t = topic p ∧ q = processUuid p) := fun h => htq ⟨h.1.symm, h.2.symm⟩
        simp [htq, hne]

theorem delPublishersByNode_snd (t q n : Str) :
    (st.delPublishersByNode t q n).2 = (st.pubsOf t q).any fun x => nodeUuid x = n := by
  simp only [TopicStorage.delPublishersByNode, pubsOf]
  cases st.data[t]? with
  | none => rfl
  | some mp =>
      cases hq : mp[q]? with
      | none => simp [hq]
      | some pubList =>
          simp only [hq, Option.bind_some, Option.getD_some]
          rw [Bool.eq_iff_iff, decide_eq_true_eq, List.length_filter_lt_length_iff_exists]
          simp

theorem Represents.delPublishersByNode (h : st.Represents c) (t q n : Str) :
    let gone : π → Bool := fun x => topic x = t ∧ processUuid x = q ∧ nodeUuid x = n
    (st.delPublishersByNode t q n).2 = (c.remove gone).2 ∧
      (st.delPublishersByNode t q n).1.Represents (c.remove gone).1 := by
  intro gone
  refine ⟨?_, fun t' q' => ?_, h.tight.delPublishersByNode t q n⟩
  · rw [delPublishersByNode_snd, h.filed, List.any_filter]
    simp only [Keyed.remove, gone, Bool.decide_and, Bool.and_assoc]
  · rw [pubsOf_delPublishersByNode, h.filed, h.filed, List.filter_filter]
    simp only [Keyed.remove, List.filter_filter]
    split
    case isTrue htq =>
      obtain ⟨rfl, rfl⟩ := htq
      refine List.filter_congr fun x _ => ?_
      by_cases hx : topic x = t' ∧ processUuid x = q'
      · simp [gone, hx]
      · simp [hx]
    case isFalse htq =>
      refine List.filter_congr fun x _ => ?_
      by_cases hx : topic x = t' ∧ processUuid x = q'
      · have hkeep : gone x = false := by
          refine decide_eq_false fun hgone => htq ⟨?_, ?_⟩
          · exact hx.1.symm.trans hgone.1
          · exact hx.2.symm.trans hgone.2.1
        simp [hkeep]
      · simp [hx]

/-- A process that has a list in some topic has a publisher. -/
theorem Represents.delPublishersByProc (h : st.Represents c) (q : Str) :
    let gone : π → Bool := fun x => processUuid x = q
    (st.delPublishersByProc q).2 = (c.remove gone).2 ∧
      (st.delPublishersByProc q).1.Represents (c.remove gone).1 := by
  intro gone
  refine ⟨?_, fun t' q' => ?_, h.tight.delPublishersByProc q⟩
  · rw [Bool.eq_iff_iff]
    simp only [TopicStorage.delPublishersByProc, Keyed.remove, List.any_eq_true]
    constructor
    · rintro ⟨⟨t, mp⟩, ht, hq⟩
      have hmp := ExtTreeMap.mem_toList_iff_getElem?_eq_some.mp ht
      rw [ExtTreeMap.contains_eq_isSome_getElem?] at hq
      obtain ⟨l, hl⟩ := Option.isSome_iff_exists.mp hq
      obtain ⟨x, hx⟩ := List.exists_mem_of_ne_nil l (h.tight.lists hmp hl)
      obtain ⟨hx, -, hxq⟩ := h.mem.mp ((mem_pubsOf_iff st).mpr ⟨mp, l, hmp, hl, hx⟩)
      exact ⟨x, hx, decide_eq_true hxq⟩
    · rintro ⟨x, hx, hxq⟩
      obtain ⟨mp, l, hmp, hl, -⟩ := (mem_pubsOf_iff st).mp
        (h.mem.mpr ⟨hx, rfl, of_decide_eq_true hxq⟩)
      refine ⟨(topic x, mp), ExtTreeMap.mem_toList_iff_getElem?_eq_some.mpr hmp, ?_⟩
      rw [ExtTreeMap.contains_eq_isSome_getElem?, hl]
      rfl
  · rw [pubsOf_delPublishersByProc, h.filed]
    simp only [Keyed.remove, List.filter_filter]
    split
    case isTrue hq =>
      subst hq
      refine (List.filter_eq_nil_iff.mpr fun x _ => ?_).symm
      simp only [gone]
      by_cases hx : processUuid x = q'
      · simp [hx]
      · simp [hx]
    case isFalse hq =>
      refine List.filter_congr fun x _ => ?_
      by_cases hx : processUuid x = q'
      · have hne : ¬ processUuid x = q := fun heq => hq (hx.symm.trans heq)
        simp [gone, hne]
      · simp [hx]

theorem represents_empty : Represents ({} : TopicStorage π) Keyed.empty :=
  ⟨fun t q => by simp [Keyed.empty], tight_empty⟩

/-- **A storage simulates a collection.** -/
theorem simulates : Simulates (Represents : TopicStorage π → Collection π → Prop) step
    Collection.step where
  answer := by
    intro st c op h
    cases op with
    | addPublisher p => exact (h.addPublisher p).1
    | delPublishersByNode t q n => exact (h.delPublishersByNode t q n).1
    | delPublishersByProc q => exact (h.delPublishersByProc q).1
    | clear => rfl
  state := by
    intro st c op h
    cases op with
    | addPublisher p => exact (h.addPublisher p).2
    | delPublishersByNode t q n => exact (h.delPublishersByNode t q n).2
    | delPublishersByProc q => exact (h.delPublishersByProc q).2
    | clear => exact represents_empty

/-! ## The queries -/

/-- A topic that has a map has a publisher. -/
theorem Represents.topic_iff (h : st.Represents c) (t : Str) :
    (∃ mp, st.data[t]? = some mp) ↔ ∃ x ∈ c.entries, topic x = t := by
  constructor
  · rintro ⟨mp, hmp⟩
    have hne : ¬ mp.toList = [] :=
      fun heq => h.tight.topics hmp (ExtTreeMap.toList_eq_nil_iff.mp heq)
    obtain ⟨⟨q, l⟩, hq⟩ := List.exists_mem_of_ne_nil _ hne
    have hl := ExtTreeMap.mem_toList_iff_getElem?_eq_some.mp hq
    obtain ⟨x, hx⟩ := List.exists_mem_of_ne_nil l (h.tight.lists hmp hl)
    obtain ⟨hx, ht, -⟩ := h.mem.mp ((mem_pubsOf_iff st).mpr ⟨mp, l, hmp, hl, hx⟩)
    exact ⟨x, hx, ht⟩
  · rintro ⟨x, hx, rfl⟩
    obtain ⟨mp, l, hmp, -, -⟩ := (mem_pubsOf_iff st).mp (h.mem.mpr ⟨hx, rfl, rfl⟩)
    exact ⟨mp, hmp⟩

/-- The list of a process in a topic is there if it has an element. -/
theorem Represents.list_eq (h : st.Represents c) {t : Str} {mp : StrMap (List π)}
    (hmp : st.data[t]? = some mp) (q : Str) :
    mp[q]? = someIfAny (c.entries.filter fun x => topic x = t ∧ processUuid x = q) := by
  rw [← h.filed, pubsOf, hmp, Option.bind_some, someIfAny]
  cases hl : mp[q]? with
  | none => rfl
  | some l =>
      have hne := h.tight.lists hmp hl
      simp [hne]

/-- The publishers of a process in the order of the topics. -/
theorem Represents.pubsOfProc_eq (h : st.Represents c) (q : Str) :
    st.pubsOfProc q = st.getTopicList.flatMap fun t =>
      c.entries.filter fun x => topic x = t ∧ processUuid x = q := by
  simp only [pubsOfProc, getTopicList, ← h.filed]
  rw [← ExtTreeMap.map_fst_toList_eq_keys, List.flatMap_map]
  refine List.flatMap_congr fun x hx => ?_
  have hmp := ExtTreeMap.mem_toList_iff_getElem?_eq_some.mp hx
  rw [pubsOf, hmp, Option.bind_some]

/-- Grouping by node keeps the order. -/
theorem getElem?_foldl_pushByNode (ps : List π) (pubs : StrMap (List π)) (n : Str) :
    (ps.foldl pushByNode pubs)[n]? =
      if (ps.filter fun x => nodeUuid x = n).isEmpty then pubs[n]?
      else some ((pubs[n]?).getD [] ++ ps.filter fun x => nodeUuid x = n) := by
  induction ps generalizing pubs with
  | nil => simp
  | cons p ps ih =>
      rw [List.foldl_cons, ih]
      by_cases hn : nodeUuid p = n
      · subst hn
        have hself : (pushByNode pubs p)[nodeUuid p]? =
            some ((pubs[nodeUuid p]?).getD [] ++ [p]) := ExtTreeMap.getElem?_insert_self
        simp only [hself, List.filter_cons, decide_true, if_true, List.isEmpty_cons,
          Bool.false_eq_true, if_false, Option.getD_some, List.append_assoc, List.singleton_append]
        split
        case isTrue hnil => rw [List.isEmpty_iff.mp hnil]
        case isFalse => rfl
      · have hother : (pushByNode pubs p)[n]? = pubs[n]? :=
          StrMap.getElem?_insert_of_ne _ (Ne.symm hn) _
        simp [hother, hn]

theorem filter_nodeUuid (l : List π) (t q n : Str) :
    ((l.filter fun x => topic x = t ∧ processUuid x = q).filter fun x => nodeUuid x = n) =
      l.filter fun x => topic x = t ∧ processUuid x = q ∧ nodeUuid x = n := by
  rw [List.filter_filter]
  refine List.filter_congr fun x _ => ?_
  simp [Bool.and_comm, Bool.and_assoc]

theorem Represents.answers (h : st.Represents c) : st.Answers c where
  hasTopic := by
    intro t
    rw [Bool.eq_iff_iff, List.any_eq_true]
    simp only [decide_eq_true_eq]
    rw [← h.topic_iff, TopicStorage.hasTopic, ExtTreeMap.contains_eq_isSome_getElem?]
    exact Option.isSome_iff_exists
  hasAnyPublishers := by
    intro t q
    rw [Bool.eq_iff_iff, List.any_eq_true]
    simp only [TopicStorage.hasAnyPublishers, decide_eq_true_eq]
    cases ht : st.data[t]? with
    | none =>
        refine iff_of_false Bool.false_ne_true ?_
        rintro ⟨x, hx, rfl, -⟩
        obtain ⟨mp, hmp⟩ := (h.topic_iff _).mpr ⟨x, hx, rfl⟩
        rw [ht] at hmp
        cases hmp
    | some mp =>
        simp only
        rw [ExtTreeMap.contains_eq_isSome_getElem?, h.list_eq ht, someIfAny]
        split
        case isTrue hnil =>
          refine iff_of_false Bool.false_ne_true ?_
          rintro ⟨x, hx, htq⟩
          have hmem : x ∈ c.entries.filter fun x => topic x = t ∧ processUuid x = q :=
            List.mem_filter.mpr ⟨hx, decide_eq_true htq⟩
          rw [List.isEmpty_iff.mp hnil] at hmem
          cases hmem
        case isFalse hne =>
          refine iff_of_true rfl ?_
          obtain ⟨x, hx⟩ := List.exists_mem_of_ne_nil _ (fun heq => hne (List.isEmpty_iff.mpr heq))
          obtain ⟨hx, htq⟩ := List.mem_filter.mp hx
          exact ⟨x, hx, of_decide_eq_true htq⟩
  hasPublisher := by
    intro a
    rw [Bool.eq_iff_iff, hasPublisher_iff, List.any_eq_true]
    simp only [decide_eq_true_eq, h.mem]
    constructor
    · rintro ⟨t, q, x, ⟨hx, -, -⟩, ha⟩
      exact ⟨x, hx, ha⟩
    · rintro ⟨x, hx, ha⟩
      exact ⟨topic x, processUuid x, x, ⟨hx, rfl, rfl⟩, ha⟩
  getPublisher := by
    intro t q n
    rw [getPublisher_eq, h.filed, List.find?_filter]
    refine congrArg (fun f => List.find? f c.entries) (funext fun x => ?_)
    simp [Bool.and_assoc]
  noPublishers := by
    intro t
    rw [TopicStorage.getPublishers, Option.eq_none_iff_forall_ne_some]
    have hiff := h.topic_iff t
    constructor
    · intro hnone x hx ht
      obtain ⟨mp, hmp⟩ := hiff.mpr ⟨x, hx, ht⟩
      exact hnone mp hmp
    · intro hno mp hmp
      obtain ⟨x, hx, ht⟩ := hiff.mp ⟨mp, hmp⟩
      exact hno x hx ht
  getPublishers := fun t mp hmp q => h.list_eq hmp q
  topicsOrdered := ExtTreeMap.ordered_keys
  mem_getTopicList := by
    intro t
    rw [← h.topic_iff, getTopicList, ExtTreeMap.mem_keys, ← ExtTreeMap.isSome_getElem?_iff_mem]
    exact Option.isSome_iff_exists
  getPublishersByProc := by
    intro q n
    rw [TopicStorage.getPublishersByProc, getElem?_foldl_pushByNode, h.pubsOfProc_eq,
      List.filter_flatMap]
    simp only [filter_nodeUuid, ExtTreeMap.getElem?_empty, Option.getD_none, List.nil_append,
      someIfAny]
  getPublishersByNode := by
    intro q n
    rw [TopicStorage.getPublishersByNode, h.pubsOfProc_eq, List.filter_flatMap]
    simp only [filter_nodeUuid]

/-- The message type form of `hasTopic`. -/
theorem Represents.hasTopicOf {st : TopicStorage MessagePublisherInfo}
    {c : Collection MessagePublisherInfo} (h : st.Represents c) (t msgType : Str) :
    st.hasTopicOf t msgType = c.entries.any fun x => topic x = t ∧ typeMatches msgType x := by
  rw [Bool.eq_iff_iff, hasTopicOf_iff, List.any_eq_true]
  simp only [decide_eq_true_eq, h.mem]
  constructor
  · rintro ⟨q, x, ⟨hx, ht, -⟩, htype⟩
    exact ⟨x, hx, ht, htype⟩
  · rintro ⟨x, hx, ht, htype⟩
    exact ⟨processUuid x, x, ⟨hx, ht, rfl⟩, htype⟩

/-- **A storage is a collection**: after any operations it files exactly the collection that
they make, has answered them as the collection does, and answers every query from it; for
the storages of the message runtime also the query for a message type. -/
theorem refines_collection :
    (∀ (π : Type) [PubLike π] (ops : List (StorageOp π)),
      let r := run step ({} : TopicStorage π) ops
      let c := run Collection.step Keyed.empty ops
      r.2 = c.2 ∧ r.1.Represents c.1 ∧ r.1.Answers c.1) ∧
    ∀ (ops : List (StorageOp MessagePublisherInfo)) (t msgType : Str),
      (run step {} ops).1.hasTopicOf t msgType =
        (run Collection.step Keyed.empty ops).1.entries.any fun x =>
          topic x = t ∧ typeMatches msgType x := by
  constructor
  · intro π _ ops
    obtain ⟨hr, hanswers⟩ := simulates.run represents_empty ops
    exact ⟨hanswers, hr, hr.answers⟩
  · intro ops t msgType
    obtain ⟨hr, -⟩ := simulates.run represents_empty ops
    exact hr.hasTopicOf t msgType

end TopicStorage
end RfTrans
