import RfTrans.Discovery.HandlerStorage
import RfTrans.Lib.Exec
import RfTrans.Lib.Refinement

/-!
# Handler storage as a map

What a `HandlerStorage` stands for: a finite map from topic, node uuid and handler uuid to
handlers.  Adding and removing do to the map what they say; the queries that look at keys
only are those of the map as long as `removeHandler` leaves no empty topic behind.

## Main definitions

* `HandlerMap` — the map, and `HandlerMap.step` — what an operation does to it.
* `HandlerStorage.Represents` — a storage holds exactly the map.
* `HandlerStorage.Answers` — every query of the storage is that of the map.
* `HandlerStorage.KeepsTopic` — the operation does not take a topic's last handler by
  `removeHandler`.
* `HandlerStorage.refines_map_iff`
-/

namespace RfTrans

open Std Refinement

/-- What handlers are filed under. -/
structure HandlerKey where
  topic : Str
  nodeUuid : Str
  handlerUuid : Str
  deriving DecidableEq

variable {τ : Type}

/-- A finite map of handlers. -/
abbrev HandlerMap (τ : Type) := Keyed (Prod.fst : HandlerKey × τ → HandlerKey)

/-- The operations that change a storage. -/
inductive HandlerOp (τ : Type)
  | addHandler (topic nodeUuid handlerUuid : Str) (handler : τ)
  | removeHandler (topic nodeUuid handlerUuid : Str)
  | removeHandlersForNode (topic nodeUuid : Str)

/-- What they do to the map; `addHandler` has no answer. -/
def HandlerMap.step (m : HandlerMap τ) : HandlerOp τ → HandlerMap τ × Bool
  | .addHandler t n u h => ((m.add (⟨t, n, u⟩, h)).1, true)
  | .removeHandler t n u => m.remove fun e => e.1 = ⟨t, n, u⟩
  | .removeHandlersForNode t n => m.remove fun e => e.1.topic = t ∧ e.1.nodeUuid = n

namespace HandlerStorage

/-- What they do to the storage. -/
def step (hs : HandlerStorage τ) : HandlerOp τ → HandlerStorage τ × Bool
  | .addHandler t n u h => (hs.addHandler t n u h, true)
  | .removeHandler t n u => hs.removeHandler t n u
  | .removeHandlersForNode t n => hs.removeHandlersForNode t n

/-- The storage holds exactly the handlers of the map, and no node without a handler. -/
structure Represents (hs : HandlerStorage τ) (m : HandlerMap τ) : Prop where
  holds : ∀ t n u h, hs.handler? t n u = some h ↔ (⟨t, n, u⟩, h) ∈ m.entries
  filled : hs.Filled

/-- No empty map is left, and the queries in terms of the map. -/
structure Answers (hs : HandlerStorage τ) (m : HandlerMap τ) : Prop where
  topicNonempty : ∀ (t : Str) (nodes : StrMap (StrMap τ)), hs.data[t]? = some nodes → nodes ≠ ∅
  nodeNonempty : ∀ (t n : Str) (nodes : StrMap (StrMap τ)) (handlers : StrMap τ),
    hs.data[t]? = some nodes → nodes[n]? = some handlers → handlers ≠ ∅
  hasTopic : ∀ t, hs.hasTopic t = m.entries.any fun e => e.1.topic = t
  noHandlers : ∀ t, hs.getHandlers t = none ↔ ∀ e ∈ m.entries, e.1.topic ≠ t
  getHandlers : ∀ t nodes, hs.getHandlers t = some nodes → ∀ n u h,
    (∃ handlers, nodes[n]? = some handlers ∧ handlers[u]? = some h) ↔
      (⟨t, n, u⟩, h) ∈ m.entries
  hasHandlersForTopic : ∀ t, hs.hasHandlersForTopic t = m.entries.any fun e => e.1.topic = t
  hasHandlersForNode : ∀ t n,
    hs.hasHandlersForNode t n = m.entries.any fun e => e.1.topic = t ∧ e.1.nodeUuid = n
  getHandler : ∀ t n u h, hs.getHandler t n u = some h ↔ (⟨t, n, u⟩, h) ∈ m.entries
  noFirstHandler : ∀ t test, hs.getFirstHandler t test = none ↔
    ∀ e ∈ m.entries, e.1.topic = t → test e.2 = false
  getFirstHandler : ∀ t test h, hs.getFirstHandler t test = some h ↔ ∃ n u,
    (⟨t, n, u⟩, h) ∈ m.entries ∧ test h = true ∧
      ∀ e ∈ m.entries, e.1.topic = t → test e.2 = true →
        compare n e.1.nodeUuid = .lt ∨
          n = e.1.nodeUuid ∧ (compare u e.1.handlerUuid = .lt ∨ u = e.1.handlerUuid)

/-- The storage beside the map. -/
def both (s : HandlerStorage τ × HandlerMap τ) (op : HandlerOp τ) :
    Option (HandlerStorage τ × HandlerMap τ) :=
  some ((s.1.step op).1, (s.2.step op).1)

/-- If `removeHandler` finds the handler, the topic has another one. -/
def KeepsTopic (m : HandlerMap τ) : HandlerOp τ → Prop
  | .removeHandler t n u => (∃ e ∈ m.entries, e.1 = ⟨t, n, u⟩) →
      ∃ e ∈ m.entries, e.1.topic = t ∧ e.1 ≠ ⟨t, n, u⟩
  | _ => True

variable {hs : HandlerStorage τ} {m : HandlerMap τ}

/-! ## The operations -/

theorem Filled.removeHandler (hf : hs.Filled) (t n u : Str) :
    (hs.removeHandler t n u).1.Filled := by
  intro t' n' hn'
  simp only [HandlerStorage.removeHandler] at hn'
  simp only [handler?_removeHandler]
  have hkeep : (hs.data[t']?.getD ∅).contains n' → ¬ (t' = t ∧ n' = n) →
      ∃ u' h', (if t' = t ∧ n' = n ∧ u' = u then none else hs.handler? t' n' u') = some h' := by
    intro hold hne
    obtain ⟨u', h', hh⟩ := hf t' n' hold
    refine ⟨u', h', ?_⟩
    rw [if_neg fun hc => hne ⟨hc.1, hc.2.1⟩]
    exact hh
  have hunchanged : (hs.data[t']?.getD ∅).contains n' → (hs.data[t]?.getD ∅)[n]? = none →
      ∃ u' h', (if t' = t ∧ n' = n ∧ u' = u then none else hs.handler? t' n' u') = some h' := by
    intro hold hnone
    refine hkeep hold ?_
    rintro ⟨rfl, rfl⟩
    rw [ExtTreeMap.contains_eq_isSome_getElem?, hnone] at hold
    cases hold
  cases ht : hs.data[t]? with
  | none =>
      rw [ht] at hn'
      exact hunchanged hn' (by simp [ht])
  | some nodes =>
      cases hn : nodes[n]? with
      | none =>
          simp only [ht, hn] at hn'
          exact hunchanged hn' (by simp [ht, hn])
      | some handlers =>
          simp only [ht, hn] at hn'
          by_cases htt : t' = t
          · subst htt
            rw [ExtTreeMap.getElem?_insert_self, Option.getD_some] at hn'
            generalize hm : (if (handlers.erase u).isEmpty then nodes.erase n
              else nodes.insert n (handlers.erase u)) = nodes' at hn'
            have hmem : nodes'.contains n' := by
              by_cases hempty : nodes'.isEmpty
              · rw [ExtTreeMap.isEmpty_iff.mp hempty] at hn'
                simp at hn'
              · simpa [hempty] using hn'
            by_cases hnn : n' = n
            · subst hnn
              -- the node is kept because another handler is left
              have hrest : ¬ (handlers.erase u).isEmpty := by
                intro hempty
                rw [if_pos hempty] at hm
                subst hm
                simp at hmem
              obtain ⟨u', hu'⟩ : ∃ u', u' ∈ handlers.erase u := by
                by_contra hno
                exact hrest (ExtTreeMap.isEmpty_iff.mpr
                  (ExtTreeMap.eq_empty_iff_forall_not_mem.mpr fun v hv => hno ⟨v, hv⟩))
              obtain ⟨h', hh⟩ := Option.isSome_iff_exists.mp
                (ExtTreeMap.isSome_getElem?_iff_mem.mpr hu')
              obtain ⟨hne, hold⟩ := StrMap.getElem?_of_erase _ hh
              refine ⟨u', h', ?_⟩
              rw [if_neg fun hc => hne hc.2.2]
              simpa [handler?, ht, hn] using hold
            · refine hkeep ?_ fun hc => hnn hc.2
              rw [ht, Option.getD_some]
              subst hm
              by_cases hempty : (handlers.erase u).isEmpty
              · rw [if_pos hempty, ExtTreeMap.contains_eq_isSome_getElem?,
                  StrMap.getElem?_erase_of_ne _ hnn] at hmem
                rwa [ExtTreeMap.contains_eq_isSome_getElem?]
              · rw [if_neg hempty, ExtTreeMap.contains_eq_isSome_getElem?,
                  StrMap.getElem?_insert_of_ne _ hnn] at hmem
                rwa [ExtTreeMap.contains_eq_isSome_getElem?]
          · rw [StrMap.getElem?_insert_of_ne _ htt] at hn'
            exact hkeep hn' fun hc => htt hc.1

theorem removeHandler_snd (t n u : Str) :
    (hs.removeHandler t n u).2 = true ↔ ∃ h, hs.handler? t n u = some h := by
  simp only [HandlerStorage.removeHandler, handler?]
  cases hs.data[t]? with
  | none => simp
  | some nodes =>
      cases hn : nodes[n]? with
      | none => simp [hn]
      | some handlers =>
          simp only [hn, Option.getD_some, ExtTreeMap.contains_eq_isSome_getElem?]
          exact Option.isSome_iff_exists

theorem removeHandlersForNode_snd (t n : Str) :
    (hs.removeHandlersForNode t n).2 = hs.hasHandlersForNode t n := by
  simp only [HandlerStorage.removeHandlersForNode, HandlerStorage.hasHandlersForNode]
  cases hs.data[t]? with
  | none => rfl
  | some nodes => rfl

theorem Represents.none_iff (h : hs.Represents m) (t n u : Str) :
    hs.handler? t n u = none ↔ ∀ e ∈ m.entries, e.1 ≠ ⟨t, n, u⟩ := by
  rw [Option.eq_none_iff_forall_ne_some]
  constructor
  · rintro hno ⟨k, x⟩ he rfl
    exact hno x ((h.holds t n u x).mpr he)
  · intro hno x hx
    exact hno _ ((h.holds t n u x).mp hx) rfl

theorem Represents.node_iff (h : hs.Represents m) (t n : Str) :
    hs.hasHandlersForNode t n = true ↔ ∃ e ∈ m.entries, e.1.topic = t ∧ e.1.nodeUuid = n := by
  rw [hasHandlersForNode_iff]
  constructor
  · intro hn
    obtain ⟨u, x, hx⟩ := h.filled t n (ExtTreeMap.contains_iff_mem.mpr hn)
    exact ⟨_, (h.holds t n u x).mp hx, rfl, rfl⟩
  · rintro ⟨⟨⟨t', n', u⟩, x⟩, he, rfl, rfl⟩
    have hx := (h.holds _ _ u x).mpr he
    rw [← ExtTreeMap.isSome_getElem?_iff_mem]
    cases hn : ((hs.data[t']?).getD ∅)[n']? with
    | none => simp [handler?, hn] at hx
    | some handlers => rfl

theorem Represents.addHandler (h : hs.Represents m) (t n u : Str) (x : τ) :
    (hs.addHandler t n u x).Represents (m.add (⟨t, n, u⟩, x)).1 := by
  refine ⟨fun t' n' u' y => ?_, h.filled.addHandler hs t n u x⟩
  rw [handler?_addHandler, Keyed.mem_add, ← h.none_iff, ← h.holds]
  split
  case isTrue hnew =>
    obtain ⟨rfl, rfl, rfl, hnone⟩ := hnew
    simp only [hnone, and_true, Prod.mk.injEq, true_and, Option.some.injEq, reduceCtorEq,
      false_or]
    exact eq_comm
  case isFalse hold =>
    refine (or_iff_left ?_).symm
    rintro ⟨heq, hnone⟩
    obtain ⟨hkey, -⟩ := Prod.mk.inj heq
    obtain ⟨rfl, rfl, rfl⟩ := HandlerKey.mk.inj hkey
    exact hold ⟨rfl, rfl, rfl, hnone⟩

theorem Represents.removeHandler (h : hs.Represents m) (t n u : Str) :
    let gone : HandlerKey × τ → Bool := fun e => e.1 = ⟨t, n, u⟩
    (hs.removeHandler t n u).2 = (m.remove gone).2 ∧
      (hs.removeHandler t n u).1.Represents (m.remove gone).1 := by
  intro gone
  refine ⟨?_, fun t' n' u' y => ?_, h.filled.removeHandler t n u⟩
  · rw [Bool.eq_iff_iff, removeHandler_snd, Keyed.remove_snd]
    constructor
    · rintro ⟨x, hx⟩
      exact ⟨_, (h.holds t n u x).mp hx, decide_eq_true rfl⟩
    · rintro ⟨⟨k, x⟩, he, hk⟩
      obtain rfl := of_decide_eq_true hk
      exact ⟨x, (h.holds t n u x).mpr he⟩
  · rw [handler?_removeHandler, Keyed.mem_remove, ← h.holds, decide_eq_false_iff_not,
      HandlerKey.mk.injEq]
    split
    case isTrue hgone => simp [hgone]
    case isFalse hkept => exact (and_iff_left hkept).symm

theorem Represents.removeHandlersForNode (h : hs.Represents m) (t n : Str) :
    let gone : HandlerKey × τ → Bool := fun e => e.1.topic = t ∧ e.1.nodeUuid = n
    (hs.removeHandlersForNode t n).2 = (m.remove gone).2 ∧
      (hs.removeHandlersForNode t n).1.Represents (m.remove gone).1 := by
  intro gone
  refine ⟨?_, fun t' n' u' y => ?_, h.filled.removeHandlersForNode hs t n⟩
  · rw [Bool.eq_iff_iff, removeHandlersForNode_snd, h.node_iff, Keyed.remove_snd]
    simp only [gone, decide_eq_true_eq]
  · rw [handler?_removeHandlersForNode, Keyed.mem_remove, ← h.holds, decide_eq_false_iff_not]
    split
    case isTrue hgone => simp [hgone]
    case isFalse hkept => exact (and_iff_left hkept).symm

theorem represents_empty : Represents ({} : HandlerStorage τ) Keyed.empty :=
  ⟨fun t n u h => by simp [handler?, Keyed.empty], filled_empty⟩

/-- **A storage simulates a map**, empty topics or not. -/
theorem simulates : Simulates (Represents : HandlerStorage τ → HandlerMap τ → Prop) step
    HandlerMap.step where
  answer := by
    intro hs m op h
    cases op with
    | addHandler t n u x => rfl
    | removeHandler t n u => exact (h.removeHandler t n u).1
    | removeHandlersForNode t n => exact (h.removeHandlersForNode t n).1
  state := by
    intro hs m op h
    cases op with
    | addHandler t n u x => exact h.addHandler t n u x
    | removeHandler t n u => exact (h.removeHandler t n u).2
    | removeHandlersForNode t n => exact (h.removeHandlersForNode t n).2

/-! ## No empty topics -/

/-- No topic is kept without a node. -/
def Occupied (hs : HandlerStorage τ) : Prop :=
  ∀ (t : Str) (nodes : StrMap (StrMap τ)), hs.data[t]? = some nodes → nodes ≠ ∅

theorem occupied_empty : Occupied ({} : HandlerStorage τ) := by
  intro t nodes h
  simp at h

theorem Occupied.insert (h : hs.Occupied) {t : Str} {nodes : StrMap (StrMap τ)}
    (hne : nodes ≠ ∅) : Occupied ⟨hs.data.insert t nodes⟩ := by
  intro t' nodes' ht'
  rcases StrMap.getElem?_of_insert _ ht' with ⟨-, rfl⟩ | ⟨-, hold⟩
  · exact hne
  · exact h t' nodes' hold

theorem Occupied.addHandler (h : hs.Occupied) (t n u : Str) (x : τ) :
    (hs.addHandler t n u x).Occupied :=
  h.insert ExtTreeMap.insert_ne_empty

theorem Occupied.removeHandlersForNode (h : hs.Occupied) (t n : Str) :
    (hs.removeHandlersForNode t n).1.Occupied := by
  simp only [HandlerStorage.removeHandlersForNode]
  cases hs.data[t]? with
  | none => exact h
  | some nodes =>
      simp only
      split
      case isTrue => exact fun t' nodes' ht' => h t' nodes' (StrMap.getElem?_of_erase _ ht').2
      case isFalse hne => exact h.insert fun heq => hne (by simp [heq])

/-- A topic with a handler has a map with a node. -/
theorem data_of_handler? {t n u : Str} {x : τ} (hx : hs.handler? t n u = some x) :
    ∃ nodes, hs.data[t]? = some nodes ∧ nodes ≠ ∅ := by
  cases ht : hs.data[t]? with
  | none => simp [handler?, ht] at hx
  | some nodes =>
      refine ⟨nodes, rfl, ?_⟩
      rintro rfl
      simp [handler?, ht] at hx

/-- `removeHandler` leaves the maps of the other topics. -/
theorem data_removeHandler_of_ne {t n u t' : Str} (ht : t' ≠ t) :
    (hs.removeHandler t n u).1.data[t']? = hs.data[t']? := by
  simp only [HandlerStorage.removeHandler]
  cases hs.data[t]? with
  | none => rfl
  | some nodes =>
      cases hn : nodes[n]? with
      | none => simp only [hn]
      | some handlers =>
          simp only [hn]
          exact StrMap.getElem?_insert_of_ne _ ht _

/-- `removeHandler` never erases a topic. -/
theorem data_removeHandler_isSome {t n u : Str} {nodes : StrMap (StrMap τ)}
    (ht : hs.data[t]? = some nodes) :
    ∃ nodes', (hs.removeHandler t n u).1.data[t]? = some nodes' := by
  simp only [HandlerStorage.removeHandler, ht]
  cases hn : nodes[n]? with
  | none => exact ⟨nodes, by simp [ht]⟩
  | some handlers =>
      simp only
      exact ⟨_, ExtTreeMap.getElem?_insert_self⟩

theorem Represents.occupied_removeHandler (h : hs.Represents m) (ho : hs.Occupied) {t n u : Str}
    (hkeep : KeepsTopic m (.removeHandler t n u)) : (hs.removeHandler t n u).1.Occupied := by
  intro t' nodes' ht'
  by_cases htt : t' = t
  · subst htt
    -- a handler of the topic is left: another one, or all of them
    have hleft : ∃ n' u' x, (hs.removeHandler t' n u).1.handler? t' n' u' = some x := by
      cases ht : hs.data[t']? with
      | none =>
          rw [HandlerStorage.removeHandler, ht] at ht'
          rw [ht] at ht'
          cases ht'
      | some nodes =>
          have hne : ¬ nodes.toList = [] :=
            fun heq => ho t' nodes ht (ExtTreeMap.toList_eq_nil_iff.mp heq)
          obtain ⟨⟨n', handlers⟩, hn'⟩ := List.exists_mem_of_ne_nil _ hne
          obtain ⟨u', x, hx⟩ := h.filled t' n' (by
            rw [ht, Option.getD_some, ExtTreeMap.contains_eq_isSome_getElem?,
              ExtTreeMap.mem_toList_iff_getElem?_eq_some.mp hn']
            rfl)
          by_cases hsame : n' = n ∧ u' = u
          · obtain ⟨rfl, rfl⟩ := hsame
            obtain ⟨⟨⟨t'', n'', u''⟩, y⟩, he, rfl, hother⟩ :=
              hkeep ⟨_, (h.holds t' n' u' x).mp hx, rfl⟩
            refine ⟨n'', u'', y, ?_⟩
            rw [handler?_removeHandler, if_neg fun hc => hother (by simp [hc])]
            exact (h.holds _ _ _ y).mpr he
          · refine ⟨n', u', x, ?_⟩
            rw [handler?_removeHandler, if_neg fun hc => hsame hc.2]
            exact hx
    obtain ⟨n', u', x, hx⟩ := hleft
    obtain ⟨nodes'', hnodes, hne⟩ := data_of_handler? hx
    rw [ht'] at hnodes
    exact Option.some.inj hnodes ▸ hne
  · rw [data_removeHandler_of_ne htt] at ht'
    exact ho t' nodes' ht'

/-! ## The queries -/

/-- A topic that has a map has a handler. -/
theorem Represents.topic_iff (h : hs.Represents m) (ho : hs.Occupied) (t : Str) :
    (∃ nodes, hs.data[t]? = some nodes) ↔ ∃ e ∈ m.entries, e.1.topic = t := by
  constructor
  · rintro ⟨nodes, ht⟩
    have hne : ¬ nodes.toList = [] :=
      fun heq => ho t nodes ht (ExtTreeMap.toList_eq_nil_iff.mp heq)
    obtain ⟨⟨n, handlers⟩, hn⟩ := List.exists_mem_of_ne_nil _ hne
    have hmem : n ∈ (hs.data[t]?).getD ∅ := by
      rw [ht, Option.getD_some, ← ExtTreeMap.isSome_getElem?_iff_mem,
        ExtTreeMap.mem_toList_iff_getElem?_eq_some.mp hn]
      rfl
    obtain ⟨e, he, htopic, -⟩ := (h.node_iff t n).mp ((hasHandlersForNode_iff hs t n).mpr hmem)
    exact ⟨e, he, htopic⟩
  · rintro ⟨⟨⟨t', n, u⟩, x⟩, he, rfl⟩
    obtain ⟨nodes, ht, -⟩ := data_of_handler? ((h.holds _ n u x).mpr he)
    exact ⟨nodes, ht⟩

/-- The handlers of a topic with their node and handler uuids. -/
def located (hs : HandlerStorage τ) (t : Str) : List ((Str × Str) × τ) :=
  ((hs.data[t]?).getD ∅).toList.flatMap fun node =>
    node.2.toList.map fun x => ((node.1, x.1), x.2)

/-- The order in which the maps are walked. -/
def Before (x y : (Str × Str) × τ) : Prop :=
  compare x.1.1 y.1.1 = .lt ∨ x.1.1 = y.1.1 ∧ compare x.1.2 y.1.2 = .lt

theorem compare_lt_asymm {a b : Str} (h : compare a b = .lt) : ¬ compare b a = .lt := by
  intro h'
  rw [OrientedCmp.gt_of_lt h] at h'
  cases h'

theorem before_asymm (x y : (Str × Str) × τ) (h : Before x y) : ¬ Before y x := by
  rintro (h' | ⟨heq', h'⟩)
  · rcases h with h | ⟨heq, -⟩
    · exact compare_lt_asymm h h'
    · rw [heq] at h'
      exact compare_lt_asymm h' h'
  · rcases h with h | ⟨-, h⟩
    · rw [heq'] at h
      exact compare_lt_asymm h h
    · exact compare_lt_asymm h h'

theorem handlersOf_eq_located (hs : HandlerStorage τ) (t : Str) :
    hs.handlersOf t = (hs.located t).map Prod.snd := by
  simp only [handlersOf, located, List.map_flatMap, List.map_map, Function.comp_def]

theorem mem_located {t : Str} {x : (Str × Str) × τ} :
    x ∈ hs.located t ↔ hs.handler? t x.1.1 x.1.2 = some x.2 := by
  obtain ⟨⟨n, u⟩, h⟩ := x
  simp only [located, List.mem_flatMap, List.mem_map]
  constructor
  · rintro ⟨⟨n', handlers⟩, hn, ⟨u', h'⟩, hu, heq⟩
    obtain ⟨hkey, rfl⟩ := Prod.mk.inj heq
    obtain ⟨rfl, rfl⟩ := Prod.mk.inj hkey
    exact hs.exists_mem_toList.mp ⟨handlers, hn, hu⟩
  · intro hu
    obtain ⟨handlers, hn, hu⟩ := hs.exists_mem_toList.mpr hu
    exact ⟨(n, handlers), hn, (u, h), hu, rfl⟩

theorem located_ordered (hs : HandlerStorage τ) (t : Str) : (hs.located t).Pairwise Before := by
  refine List.pairwise_flatMap.mpr ⟨fun node _ => ?_, ?_⟩
  · refine List.pairwise_map.mpr (ExtTreeMap.ordered_keys_toList.imp fun hlt => ?_)
    exact .inr ⟨rfl, hlt⟩
  · refine ExtTreeMap.ordered_keys_toList.imp fun hlt x hx y hy => ?_
    obtain ⟨x, -, rfl⟩ := List.mem_map.mp hx
    obtain ⟨y, -, rfl⟩ := List.mem_map.mp hy
    exact .inl hlt

/-- Without empty topics the storage answers from the map. -/
theorem Represents.answers (h : hs.Represents m) (ho : hs.Occupied) : hs.Answers m where
  topicNonempty := ho
  nodeNonempty := by
    rintro t n nodes handlers ht hn rfl
    obtain ⟨u, x, hx⟩ := h.filled t n (by
      rw [ht, Option.getD_some, ExtTreeMap.contains_eq_isSome_getElem?, hn]
      rfl)
    simp [handler?, ht, hn] at hx
  hasTopic := by
    intro t
    rw [Bool.eq_iff_iff, HandlerStorage.hasTopic, ExtTreeMap.contains_eq_isSome_getElem?,
      Option.isSome_iff_exists, h.topic_iff ho, List.any_eq_true]
    simp only [decide_eq_true_eq]
  noHandlers := by
    intro t
    rw [HandlerStorage.getHandlers, Option.eq_none_iff_forall_ne_some]
    have hiff := h.topic_iff ho t
    constructor
    · intro hnone e he ht
      obtain ⟨nodes, hnodes⟩ := hiff.mpr ⟨e, he, ht⟩
      exact hnone nodes hnodes
    · intro hno nodes hnodes
      obtain ⟨e, he, ht⟩ := hiff.mp ⟨nodes, hnodes⟩
      exact hno e he ht
  getHandlers := by
    intro t nodes ht n u x
    rw [HandlerStorage.getHandlers] at ht
    rw [← h.holds, handler?, ht, Option.getD_some]
    cases nodes[n]? with
    | none => simp
    | some handlers => simp
  hasHandlersForTopic := by
    intro t
    rw [Bool.eq_iff_iff, List.any_eq_true, hasHandlersForTopic_iff hs h.filled]
    simp only [mem_handlersOf, h.holds, decide_eq_true_eq]
    constructor
    · rintro ⟨x, n, u, he⟩
      exact ⟨_, he, rfl⟩
    · rintro ⟨⟨⟨t', n, u⟩, x⟩, he, rfl⟩
      exact ⟨x, n, u, he⟩
  hasHandlersForNode := by
    intro t n
    rw [Bool.eq_iff_iff, h.node_iff, List.any_eq_true]
    simp only [decide_eq_true_eq]
  getHandler := by
    intro t n u x
    rw [getHandler_eq]
    exact h.holds t n u x
  noFirstHandler := by
    intro t test
    rw [HandlerStorage.getFirstHandler, List.find?_eq_none]
    simp only [mem_handlersOf, h.holds, Bool.not_eq_true]
    constructor
    · rintro hno ⟨⟨t', n, u⟩, x⟩ he rfl
      exact hno x ⟨n, u, he⟩
    · rintro hno x ⟨n, u, he⟩
      exact hno _ he rfl
  getFirstHandler := by
    intro t test x
    rw [HandlerStorage.getFirstHandler, handlersOf_eq_located, List.find?_map]
    simp only [Option.map_eq_some_iff,
      find?_eq_some_iff_least before_asymm (located_ordered hs t), mem_located, h.holds,
      Function.comp_apply]
    constructor
    · rintro ⟨⟨⟨n, u⟩, y⟩, ⟨he, htest, hleast⟩, rfl⟩
      refine ⟨n, u, he, htest, ?_⟩
      rintro ⟨⟨t', n', u'⟩, y'⟩ he' rfl htest'
      rcases hleast ((n', u'), y') he' htest' with heq | hlt | ⟨hn, hlt⟩
      · obtain ⟨hkey, -⟩ := Prod.mk.inj heq
        obtain ⟨rfl, rfl⟩ := Prod.mk.inj hkey
        exact .inr ⟨rfl, .inr rfl⟩
      · exact .inl hlt
      · exact .inr ⟨hn, .inl hlt⟩
    · rintro ⟨n, u, he, htest, hleast⟩
      refine ⟨((n, u), x), ⟨he, htest, ?_⟩, rfl⟩
      rintro ⟨⟨n', u'⟩, y'⟩ he' htest'
      rcases hleast _ he' rfl htest' with hlt | ⟨rfl, hlt | rfl⟩
      · exact .inr (.inl hlt)
      · exact .inr (.inr ⟨rfl, hlt⟩)
      · have hx := (h.holds t n u x).mpr he
        rw [(h.holds t n u y').mpr he'] at hx
        exact .inl (by rw [Option.some.inj hx])

/-! ## Runs -/

/-- One step keeps the storage and the map related. -/
theorem represents_both (s : HandlerStorage τ × HandlerMap τ) (op : HandlerOp τ)
    (s' : HandlerStorage τ × HandlerMap τ) (h : s.1.Represents s.2) (hs' : both s op = some s') :
    s'.1.Represents s'.2 := by
  obtain rfl := Option.some.inj hs'
  exact simulates.state s.1 s.2 op h

/-- A step that keeps the topic keeps the storage without empty topics. -/
theorem occupied_both (s : HandlerStorage τ × HandlerMap τ) (op : HandlerOp τ)
    (s' : HandlerStorage τ × HandlerMap τ) (h : s.1.Represents s.2) (ho : s.1.Occupied)
    (hkeep : KeepsTopic s.2 op) (hs' : both s op = some s') : s'.1.Occupied := by
  obtain rfl := Option.some.inj hs'
  cases op with
  | addHandler t n u x => exact ho.addHandler t n u x
  | removeHandler t n u => exact h.occupied_removeHandler ho hkeep
  | removeHandlersForNode t n => exact ho.removeHandlersForNode t n

/-- The answers after a step tell that it kept the topic. -/
theorem keepsTopic_of_answers (s : HandlerStorage τ × HandlerMap τ) (op : HandlerOp τ)
    (h : s.1.Represents s.2) (hanswers : ∀ s', both s op = some s' → s'.1.Answers s'.2) :
    KeepsTopic s.2 op := by
  have hafter := hanswers _ rfl
  cases op with
  | addHandler t n u x => trivial
  | removeHandlersForNode t n => trivial
  | removeHandler t n u =>
      rintro ⟨⟨k, x⟩, he, rfl⟩
      obtain ⟨nodes, ht, -⟩ := data_of_handler? ((h.holds t n u x).mpr he)
      obtain ⟨nodes', ht'⟩ := data_removeHandler_isSome (n := n) (u := u) ht
      -- the topic is still a key, so a handler is left in the map
      have hnot :
          ¬ ∀ e ∈ (HandlerMap.step s.2 (.removeHandler t n u)).1.entries, e.1.topic ≠ t := by
        intro hno
        have hnone := (hafter.noHandlers t).mpr hno
        rw [HandlerStorage.getHandlers] at hnone
        exact absurd (ht'.symm.trans hnone) (by simp)
      simp only [not_forall, ne_eq, not_not] at hnot
      obtain ⟨e, he', htopic⟩ := hnot
      obtain ⟨hmem, hne⟩ := (Keyed.mem_remove _ _ _).mp he'
      exact ⟨e, hmem, htopic, of_decide_eq_false hne⟩

/-- **What a storage answers**: in every run it answers `removeHandler` and
`removeHandlersForNode` as the map does and holds the handlers of the map.  All its queries
are those of the map, in every state of the run, if and only if no `removeHandler` of the
run takes the last handler of its topic. -/
theorem refines_map_iff (ops : List (HandlerOp τ)) :
    ((run step {} ops).2 = (run HandlerMap.step Keyed.empty ops).2 ∧
      (run step {} ops).1.Represents (run HandlerMap.step Keyed.empty ops).1) ∧
    (Exec.Always both (fun s => s.1.Answers s.2) (({} : HandlerStorage τ), Keyed.empty) ops ↔
      Exec.Guarded both (fun s op => KeepsTopic s.2 op) ({}, Keyed.empty) ops) := by
  obtain ⟨hr, hanswers⟩ := simulates.run (represents_empty (τ := τ)) ops
  refine ⟨⟨hanswers, hr⟩, ?_, ?_⟩
  · intro h
    exact h.guarded_of_stable represents_both
      (fun s op hs _ hnext => keepsTopic_of_answers s op hs hnext) represents_empty
  · intro h
    refine Exec.always_of_invariant (P := fun s => s.1.Represents s.2 ∧ s.1.Occupied) ?_ ?_
      ⟨represents_empty, occupied_empty⟩ h
    · rintro s op s' ⟨hs, ho⟩ hkeep hs'
      exact ⟨represents_both s op s' hs hs', occupied_both s op s' hs ho hkeep hs'⟩
    · rintro s ⟨hs, ho⟩
      exact hs.answers ho

/-- The only handler of a topic is removed by its uuid. -/
def emptiedTopic : List (HandlerOp Nat) :=
  [.addHandler (str "t") (str "n") (str "u") 0, .removeHandler (str "t") (str "n") (str "u")]

/-- The topic is still there, with a map that is empty. -/
theorem emptiedTopic_not_answers :
    ¬ ∀ ops : List (HandlerOp Nat),
      (run step {} ops).1.Answers (run HandlerMap.step Keyed.empty ops).1 := by
  intro h
  have htopic := (h emptiedTopic).hasTopic (str "t")
  revert htopic
  decide

end HandlerStorage
end RfTrans
