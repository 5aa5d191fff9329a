import RfTrans.Basic

/-!
# Handler storage

The table of handlers behind both runtimes: topic to node uuid to handler uuid to
handler.

## Main definitions

* `HandlerStorage` and its operations.
* `HandlerStorage.handler?` — the handler under a topic, a node and a handler uuid.
* `HandlerStorage.Filled` — no node is kept without a handler.
-/

namespace RfTrans

open Std

/-- `HandlerStorage<T>` -/
structure HandlerStorage (τ : Type) where
  data : StrMap (StrMap (StrMap τ)) := ∅

namespace HandlerStorage

variable {τ : Type}

/-- `hasTopic` -/
def hasTopic (hs : HandlerStorage τ) (topic : Str) : Bool := hs.data.contains topic

/-- `addHandler`; a handler uuid that is there already keeps its handler. -/
def addHandler (hs : HandlerStorage τ) (topic nodeUuid handlerUuid : Str) (handler : τ) :
    HandlerStorage τ :=
  let nodes := (hs.data[topic]?).getD ∅
  let handlers := (nodes[nodeUuid]?).getD ∅
  let handlers := if handlers.contains handlerUuid then handlers
    else handlers.insert handlerUuid handler
  ⟨hs.data.insert topic (nodes.insert nodeUuid handlers)⟩

/-- `getHandlers` -/
def getHandlers (hs : HandlerStorage τ) (topic : Str) : Option (StrMap (StrMap τ)) :=
  hs.data[topic]?

/-- The handlers of a topic, in the order of the maps. -/
def handlersOf (hs : HandlerStorage τ) (topic : Str) : List τ :=
  ((hs.data[topic]?).getD ∅).toList.flatMap fun node => node.2.toList.map (·.2)

/-- `getFirstHandler`: the first handler of the topic that passes the type test. -/
def getFirstHandler (hs : HandlerStorage τ) (topic : Str) (test : τ → Bool) : Option τ :=
  (hs.handlersOf topic).find? test

/-- `getHandler` -/
def getHandler (hs : HandlerStorage τ) (topic nodeUuid handlerUuid : Str) : Option τ :=
  match hs.data[topic]? with
  | none => none
  | some nodes =>
    match nodes[nodeUuid]? with
    | none => none
    | some handlers => handlers[handlerUuid]?

/-- `hasHandlersForTopic` -/
def hasHandlersForTopic (hs : HandlerStorage τ) (topic : Str) : Bool :=
  match hs.data[topic]? with
  | none => false
  | some nodes => !nodes.isEmpty

/-- `hasHandlersForNode` -/
def hasHandlersForNode (hs : HandlerStorage τ) (topic nodeUuid : Str) : Bool :=
  match hs.data[topic]? with
  | none => false
  | some nodes => nodes.contains nodeUuid

/-- `removeHandler`. When the topic's map has become empty, the key `topic` is erased
from that map and not from the table. -/
def removeHandler (hs : HandlerStorage τ) (topic nodeUuid handlerUuid : Str) :
    HandlerStorage τ × Bool :=
  match hs.data[topic]? with
  | none => (hs, false)
  | some nodes =>
    match nodes[nodeUuid]? with
    | none => (hs, false)
    | some handlers =>
      let rest := handlers.erase handlerUuid
      let nodes := if rest.isEmpty then nodes.erase nodeUuid else nodes.insert nodeUuid rest
      let nodes := if nodes.isEmpty then nodes.erase topic else nodes
      (⟨hs.data.insert topic nodes⟩, handlers.contains handlerUuid)

/-- `removeHandlersForNode` -/
def removeHandlersForNode (hs : HandlerStorage τ) (topic nodeUuid : Str) :
    HandlerStorage τ × Bool :=
  match hs.data[topic]? with
  | none => (hs, false)
  | some nodes =>
    let rest := nodes.erase nodeUuid
    (⟨if rest.isEmpty then hs.data.erase topic else hs.data.insert topic rest⟩,
      nodes.contains nodeUuid)

/-! ## The table as one map -/

/-- The handler under a topic, a node and a handler uuid. -/
def handler? (hs : HandlerStorage τ) (topic nodeUuid handlerUuid : Str) : Option τ :=
  ((((hs.data[topic]?).getD ∅)[nodeUuid]?).getD ∅)[handlerUuid]?

/-- No node is kept without a handler. -/
def Filled (hs : HandlerStorage τ) : Prop :=
  ∀ (t n : Str), (hs.data[t]?.getD ∅).contains n → ∃ u h, hs.handler? t n u = some h

variable (hs : HandlerStorage τ) {t n u : Str} {h : τ}

theorem filled_empty : ({} : HandlerStorage τ).Filled := by
  intro t n hn
  simp at hn

/-- Going through the maps finds what looking up finds. -/
theorem exists_mem_toList :
    (∃ handlers, (n, handlers) ∈ (hs.data[t]?.getD ∅).toList ∧ (u, h) ∈ handlers.toList) ↔
      hs.handler? t n u = some h := by
  simp only [handler?, ExtTreeMap.mem_toList_iff_getElem?_eq_some]
  constructor
  · rintro ⟨handlers, hn, hu⟩
    simpa [hn] using hu
  · intro hu
    cases hn : ((hs.data[t]?).getD ∅)[n]? with
    | none => simp [hn] at hu
    | some handlers => exact ⟨handlers, rfl, by simpa [hn] using hu⟩

theorem mem_handlersOf : h ∈ hs.handlersOf t ↔ ∃ n u, hs.handler? t n u = some h := by
  simp only [handlersOf, List.mem_flatMap, List.mem_map]
  constructor
  · rintro ⟨⟨n, handlers⟩, hn, ⟨u, h'⟩, hu, rfl⟩
    exact ⟨n, u, hs.exists_mem_toList.mp ⟨handlers, hn, hu⟩⟩
  · rintro ⟨n, u, hu⟩
    obtain ⟨handlers, hn, hu⟩ := hs.exists_mem_toList.mpr hu
    exact ⟨(n, handlers), hn, (u, h), hu, rfl⟩

theorem handler?_addHandler (t n u : Str) (h : τ) (t' n' u' : Str) :
    (hs.addHandler t n u h).handler? t' n' u' =
      if t' = t ∧ n' = n ∧ u' = u ∧ hs.handler? t n u = none then some h
      else hs.handler? t' n' u' := by
  simp only [handler?, addHandler]
  by_cases ht : t' = t
  · subst ht
    simp only [ExtTreeMap.getElem?_insert_self, Option.getD_some, true_and]
    by_cases hn : n' = n
    · subst hn
      simp only [ExtTreeMap.getElem?_insert_self, Option.getD_some, true_and]
      generalize hm : (((hs.data[t']?).getD ∅)[n']?).getD ∅ = handlers
      by_cases hc : handlers.contains u
      · have hsome : handlers[u]? ≠ none := by
          rw [ExtTreeMap.contains_eq_isSome_getElem?] at hc
          exact Option.isSome_iff_ne_none.mp hc
        simp [hc, hsome]
      · have hnone : handlers[u]? = none := by
          rw [ExtTreeMap.contains_eq_isSome_getElem?] at hc
          exact Option.not_isSome_iff_eq_none.mp hc
        simp only [hc, hnone, and_true, Bool.false_eq_true, if_false]
        by_cases hu : u' = u
        · subst hu
          rw [if_pos rfl]
          exact ExtTreeMap.getElem?_insert_self
        · rw [if_neg hu]
          exact StrMap.getElem?_insert_of_ne _ hu h
    · simp [hn, StrMap.getElem?_insert_of_ne _ hn]
  · simp [ht, StrMap.getElem?_insert_of_ne _ ht]

/-- `addHandler` keeps the handlers of a topic and adds at most its own. -/
theorem mem_handlersOf_addHandler_of_mem {t n u t' : Str} {h h' : τ} (hh : h' ∈ hs.handlersOf t') :
    h' ∈ (hs.addHandler t n u h).handlersOf t' := by
  obtain ⟨n', u', hold⟩ := (mem_handlersOf hs).mp hh
  refine (mem_handlersOf _).mpr ⟨n', u', ?_⟩
  rw [handler?_addHandler, if_neg, hold]
  rintro ⟨rfl, rfl, rfl, hnone⟩
  rw [hnone] at hold
  cases hold

theorem mem_handlersOf_addHandler {t n u t' : Str} {h h' : τ}
    (hh : h' ∈ (hs.addHandler t n u h).handlersOf t') :
    h' ∈ hs.handlersOf t' ∨ t' = t ∧ h' = h := by
  obtain ⟨n', u', hnew⟩ := (mem_handlersOf _).mp hh
  rw [handler?_addHandler] at hnew
  split at hnew
  case isTrue hcond => exact .inr ⟨hcond.1, (Option.some.inj hnew).symm⟩
  case isFalse => exact .inl ((mem_handlersOf hs).mpr ⟨n', u', hnew⟩)

theorem handler?_removeHandlersForNode (t n t' n' u' : Str) :
    (hs.removeHandlersForNode t n).1.handler? t' n' u' =
      if t' = t ∧ n' = n then none else hs.handler? t' n' u' := by
  simp only [removeHandlersForNode]
  cases ht : hs.data[t]? with
  | none =>
      by_cases h : t' = t ∧ n' = n
      · obtain ⟨rfl, rfl⟩ := h
        simp [handler?, ht]
      · simp [h]
  | some nodes =>
      have hrest : (((nodes.erase n)[n']?).getD ∅)[u']? =
          if n' = n then none else ((nodes[n']?).getD ∅)[u']? := by
        by_cases hn : n' = n
        · subst hn
          simp
        · simp [hn, StrMap.getElem?_erase_of_ne _ hn]
      by_cases ht' : t' = t
      · subst ht'
        simp only [true_and, handler?, ht, Option.getD_some]
        rw [← hrest]
        by_cases hempty : (nodes.erase n).isEmpty
        · rw [ExtTreeMap.isEmpty_iff.mp hempty]
          simp
        · simp [hempty]
      · by_cases hempty : (nodes.erase n).isEmpty
        · simp [handler?, hempty, ht', StrMap.getElem?_erase_of_ne _ ht']
        · simp [handler?, hempty, ht', StrMap.getElem?_insert_of_ne _ ht']

theorem getHandler_eq (t n u : Str) : hs.getHandler t n u = hs.handler? t n u := by
  simp only [getHandler, handler?]
  cases hs.data[t]? with
  | none => simp
  | some nodes =>
      cases hn : nodes[n]? with
      | none => simp [hn]
      | some handlers => simp [hn]

/-- `removeHandler` removes the one handler. -/
theorem handler?_removeHandler (t n u t' n' u' : Str) :
    (hs.removeHandler t n u).1.handler? t' n' u' =
      if t' = t ∧ n' = n ∧ u' = u then none else hs.handler? t' n' u' := by
  have hnone : hs.handler? t n u = none → hs.handler? t' n' u' =
      if t' = t ∧ n' = n ∧ u' = u then none else hs.handler? t' n' u' := by
    intro h
    by_cases htnu : t' = t ∧ n' = n ∧ u' = u
    · obtain ⟨rfl, rfl, rfl⟩ := htnu
      simp [h]
    · simp [htnu]
  simp only [removeHandler]
  cases ht : hs.data[t]? with
  | none => exact hnone (by simp [handler?, ht])
  | some nodes =>
      cases hn : nodes[n]? with
      | none =>
          simp only [hn]
          exact hnone (by simp [handler?, ht, hn])
      | some handlers =>
          simp only [hn]
          by_cases ht' : t' = t
          · subst ht'
            have hrest : (((if (handlers.erase u).isEmpty then nodes.erase n
                else nodes.insert n (handlers.erase u))[n']?).getD ∅)[u']? =
                if n' = n ∧ u' = u then none else ((nodes[n']?).getD ∅)[u']? := by
              by_cases hn' : n' = n
              · subst hn'
                by_cases hu : u' = u
                · subst hu
                  by_cases hempty : (handlers.erase u').isEmpty
                  · simp [hempty]
                  · simp [hempty]
                · by_cases hempty : (handlers.erase u).isEmpty
                  · have hnil : (handlers.erase u)[u']? = none := by
                      rw [ExtTreeMap.isEmpty_iff.mp hempty]
                      simp
                    rw [StrMap.getElem?_erase_of_ne _ hu] at hnil
                    simp [hempty, hu, hn, hnil]
                  · simp [hempty, hu, hn, StrMap.getElem?_erase_of_ne _ hu]
              · by_cases hempty : (handlers.erase u).isEmpty
                · simp [hempty, hn', StrMap.getElem?_erase_of_ne _ hn']
                · simp [hempty, hn', StrMap.getElem?_insert_of_ne _ hn']
            simp only [handler?, ht, ExtTreeMap.getElem?_insert_self, Option.getD_some, true_and]
            rw [← hrest]
            generalize hm : (if (handlers.erase u).isEmpty then nodes.erase n
              else nodes.insert n (handlers.erase u)) = nodes'
            -- the slip: an empty map is left behind, which holds nothing either
            by_cases hempty : nodes'.isEmpty
            · rw [if_pos hempty, ExtTreeMap.isEmpty_iff.mp hempty]
              simp
            · rw [if_neg hempty]
          · simp [handler?, ht', StrMap.getElem?_insert_of_ne _ ht']

/-- `hasHandlersForTopic` in terms of handlers. -/
theorem hasHandlersForTopic_iff (hf : hs.Filled) :
    hs.hasHandlersForTopic t = true ↔ ∃ h, h ∈ hs.handlersOf t := by
  simp only [mem_handlersOf]
  constructor
  · intro htopic
    simp only [hasHandlersForTopic] at htopic
    cases ht : hs.data[t]? with
    | none => simp [ht] at htopic
    | some nodes =>
        rw [ht] at htopic
        have hne : nodes ≠ ∅ := by
          intro he
          simp [he] at htopic
        obtain ⟨n, hn⟩ : ∃ n, n ∈ nodes := by
          by_contra hno
          exact hne (ExtTreeMap.eq_empty_iff_forall_not_mem.mpr fun n hn => hno ⟨n, hn⟩)
        obtain ⟨u, h, hh⟩ := hf t n (by simpa [ht] using hn)
        exact ⟨h, n, u, hh⟩
  · rintro ⟨h, n, u, hh⟩
    simp only [handler?] at hh
    simp only [hasHandlersForTopic]
    cases ht : hs.data[t]? with
    | none => simp [ht] at hh
    | some nodes =>
        rw [ht] at hh
        by_cases hempty : nodes.isEmpty
        · rw [ExtTreeMap.isEmpty_iff.mp hempty] at hh
          simp at hh
        · simpa using hempty

theorem Filled.addHandler (hf : hs.Filled) (t n u : Str) (h : τ) :
    (hs.addHandler t n u h).Filled := by
  intro t' n' hn'
  by_cases htn : t' = t ∧ n' = n
  · obtain ⟨rfl, rfl⟩ := htn
    cases hold : hs.handler? t' n' u with
    | none => exact ⟨u, h, by simp [handler?_addHandler, hold]⟩
    | some h' => exact ⟨u, h', by simp [handler?_addHandler, hold]⟩
  · have hold : (hs.data[t']?.getD ∅).contains n' := by
      simp only [HandlerStorage.addHandler] at hn'
      by_cases ht : t' = t
      · subst ht
        have hne : n ≠ n' := fun e => htn ⟨rfl, e.symm⟩
        simpa [hne] using hn'
      · simpa [StrMap.getElem?_insert_of_ne _ ht] using hn'
    obtain ⟨u', h', hh⟩ := hf t' n' hold
    refine ⟨u', h', ?_⟩
    rw [handler?_addHandler, if_neg]
    · exact hh
    · exact fun hc => htn ⟨hc.1, hc.2.1⟩

theorem Filled.removeHandlersForNode (hf : hs.Filled) (t n : Str) :
    (hs.removeHandlersForNode t n).1.Filled := by
  intro t' n' hn'
  have hold : (hs.data[t']?.getD ∅).contains n' ∧ ¬ (t' = t ∧ n' = n) := by
    simp only [HandlerStorage.removeHandlersForNode] at hn'
    cases ht : hs.data[t]? with
    | none =>
        rw [ht] at hn'
        refine ⟨hn', ?_⟩
        rintro ⟨rfl, -⟩
        simp [ht] at hn'
    | some nodes =>
        rw [ht] at hn'
        by_cases htt : t' = t
        · subst htt
          by_cases hempty : (nodes.erase n).isEmpty
          · simp [hempty] at hn'
          · have hmem : n ≠ n' ∧ n' ∈ nodes := by
              simpa [hempty, ExtTreeMap.mem_erase] using hn'
            refine ⟨by simpa [ht] using hmem.2, ?_⟩
            rintro ⟨-, rfl⟩
            exact hmem.1 rfl
        · refine ⟨?_, fun h => htt h.1⟩
          by_cases hempty : (nodes.erase n).isEmpty
          · simpa [hempty, StrMap.getElem?_erase_of_ne _ htt] using hn'
          · simpa [hempty, StrMap.getElem?_insert_of_ne _ htt] using hn'
  obtain ⟨u', h', hh⟩ := hf t' n' hold.1
  refine ⟨u', h', ?_⟩
  rw [handler?_removeHandlersForNode, if_neg hold.2]
  exact hh

/-! ## The nodes of a topic -/

theorem hasHandlersForNode_iff (t n : Str) :
    hs.hasHandlersForNode t n = true ↔ n ∈ (hs.data[t]?).getD ∅ := by
  simp only [hasHandlersForNode]
  cases hs.data[t]? with
  | none => simp
  | some nodes => simp

theorem hasHandlersForNode_addHandler (t n u : Str) (h : τ) (t' n' : Str) :
    (hs.addHandler t n u h).hasHandlersForNode t' n' = true ↔
      (t' = t ∧ n' = n) ∨ hs.hasHandlersForNode t' n' = true := by
  rw [hasHandlersForNode_iff, hasHandlersForNode_iff]
  simp only [addHandler]
  by_cases ht : t' = t
  · subst ht
    rw [ExtTreeMap.getElem?_insert_self, Option.getD_some, ExtTreeMap.mem_insert,
      Std.LawfulEqCmp.compare_eq_iff_eq]
    simp only [true_and]
    exact or_congr_left eq_comm
  · rw [StrMap.getElem?_insert_of_ne _ ht]
    simp [ht]

/-- `removeHandlersForNode` forgets the node. -/
theorem hasHandlersForNode_removeHandlersForNode (t n t' n' : Str) :
    (hs.removeHandlersForNode t n).1.hasHandlersForNode t' n' = true ↔
      hs.hasHandlersForNode t' n' = true ∧ ¬ (t' = t ∧ n' = n) := by
  rw [hasHandlersForNode_iff, hasHandlersForNode_iff]
  simp only [removeHandlersForNode]
  cases ht : hs.data[t]? with
  | none =>
      by_cases htt : t' = t
      · subst htt
        simp [ht]
      · simp [htt]
  | some nodes =>
      have hrest : n' ∈ nodes.erase n ↔ n' ∈ nodes ∧ ¬ n' = n := by
        rw [ExtTreeMap.mem_erase, ne_eq, Std.LawfulEqCmp.compare_eq_iff_eq, and_comm, eq_comm]
      by_cases htt : t' = t
      · subst htt
        simp only [true_and, ht, Option.getD_some]
        rw [← hrest]
        by_cases hempty : (nodes.erase n).isEmpty
        · simp [ExtTreeMap.isEmpty_iff.mp hempty]
        · simp [hempty]
      · by_cases hempty : (nodes.erase n).isEmpty
        · simp [hempty, htt, StrMap.getElem?_erase_of_ne _ htt]
        · simp [hempty, htt, StrMap.getElem?_insert_of_ne _ htt]

end HandlerStorage
end RfTrans
