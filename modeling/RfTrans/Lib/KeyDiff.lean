import Mathlib.Algebra.Order.Group.Multiset
import Mathlib.Data.Multiset.Filter

/-!
# Differences of keyed collections

A collection is watched through the keys of its elements: from one state to the next, what
has a new key counts as added, and what had a key that is gone counts as removed.  This
module says when the differences rebuild the collection.

## Main definitions

* `Distinct`, `Agree` — the keys tell the elements apart, in one state and across two.
* `fresh` — what has a key that the other state has not.
* `Selects` — one element for each key.
* `update_eq_iff`, `Selects.update_eq_iff` — one difference.
-/

namespace KeyDiff

variable {E K : Type*} (key : E → K)

/-- No two elements share a key. -/
def Distinct (s : Multiset E) : Prop := (s.map key).Nodup

/-- Elements of the two that share a key are equal. -/
def Agree (s t : Multiset E) : Prop := ∀ e ∈ s, ∀ e' ∈ t, key e = key e' → e = e'

/-- One element of `s` for each key of `s`. -/
structure Selects (t s : Multiset E) : Prop where
  le : t ≤ s
  distinct : Distinct key t
  exists_mem : ∀ e ∈ s, ∃ e' ∈ t, key e' = key e

variable {key} {s t : Multiset E} {e e' : E}

theorem Distinct.nodup (h : Distinct key s) : s.Nodup := Multiset.Nodup.of_map key h

theorem Distinct.eq_of_mem (h : Distinct key s) (he : e ∈ s) (he' : e' ∈ s)
    (hkey : key e = key e') : e = e' :=
  Multiset.inj_on_of_nodup_map h e he e' he' hkey

@[simp] theorem distinct_zero : Distinct key 0 := Multiset.nodup_zero

@[simp] theorem agree_zero : Agree key 0 t := by
  intro e he
  cases Multiset.notMem_zero e he

/-- **What is selected is everything** when the keys tell the elements apart, and only
then. -/
theorem Selects.eq_iff (h : Selects key t s) : t = s ↔ Distinct key s := by
  constructor
  · intro heq
    exact heq ▸ h.distinct
  · intro hs
    refine (Multiset.Nodup.ext h.distinct.nodup hs.nodup).mpr fun e => ⟨?_, ?_⟩
    · exact Multiset.mem_of_le h.le
    · intro he
      obtain ⟨e', he', hkey⟩ := h.exists_mem e he
      exact hs.eq_of_mem (Multiset.mem_of_le h.le he') he hkey ▸ he'

variable [DecidableEq K]

variable (key) in
/-- What of `t` has a key that `s` has not. -/
def fresh (s t : Multiset E) : Multiset E := t.filter fun e => key e ∉ s.map key

variable (key) in
/-- What of `t` has a key of `s`. -/
def common (s t : Multiset E) : Multiset E := t.filter fun e => key e ∈ s.map key

variable (key) in
theorem common_add_fresh (s t : Multiset E) : common key s t + fresh key s t = t :=
  Multiset.filter_add_not _ t

theorem mem_common : e ∈ common key s t ↔ e ∈ t ∧ ∃ e' ∈ s, key e' = key e := by
  rw [common, Multiset.mem_filter, Multiset.mem_map]

theorem Distinct.common (h : Distinct key t) : (common key s t).Nodup :=
  h.nodup.filter _

/-- Two states have the same elements under their common keys when they agree, and only
then. -/
theorem common_eq_common_iff (hs : Distinct key s) (ht : Distinct key t) :
    common key t s = common key s t ↔ Agree key s t := by
  constructor
  · intro heq e he e' he' hkey
    have hmem : e ∈ common key s t := heq ▸ mem_common.mpr ⟨he, e', he', hkey.symm⟩
    exact ht.eq_of_mem (mem_common.mp hmem).1 he' hkey
  · intro hagree
    refine (Multiset.Nodup.ext hs.common ht.common).mpr fun e => ?_
    rw [mem_common, mem_common]
    constructor
    · intro h
      obtain ⟨he, e', he', hkey⟩ := h
      exact ⟨hagree e he e' he' hkey.symm ▸ he', e, he, rfl⟩
    · intro h
      obtain ⟨he, e', he', hkey⟩ := h
      exact ⟨hagree e' he' e he hkey ▸ he', e, he, rfl⟩

variable [DecidableEq E]

variable (key) in
/-- What is added joins what is kept. -/
theorem update_eq (s t : Multiset E) :
    s + fresh key s t - fresh key t s = common key t s + fresh key s t := by
  calc s + fresh key s t - fresh key t s
      = common key t s + fresh key t s + fresh key s t - fresh key t s := by
        rw [common_add_fresh key t s]
    _ = common key t s + fresh key s t := by
        rw [add_right_comm, Multiset.add_sub_cancel_right]

/-- After a difference there is still one element for each key. -/
theorem Distinct.update (hs : Distinct key s) (ht : Distinct key t) :
    Distinct key (s + fresh key s t - fresh key t s) := by
  rw [update_eq, Distinct, Multiset.map_add, Multiset.nodup_add]
  refine ⟨?_, ?_, ?_⟩
  · exact Multiset.nodup_of_le (Multiset.map_le_map (Multiset.filter_le _ s)) hs
  · exact Multiset.nodup_of_le (Multiset.map_le_map (Multiset.filter_le _ t)) ht
  · refine Multiset.disjoint_left.mpr fun {k} hold hnew => ?_
    obtain ⟨e, he, rfl⟩ := Multiset.mem_map.mp hold
    obtain ⟨e', he', hkey⟩ := Multiset.mem_map.mp hnew
    refine (Multiset.mem_filter.mp he').2 (hkey ▸ ?_)
    exact Multiset.mem_map_of_mem key (mem_common.mp he).1

/-- **One difference**: it leads from one state to the next when the two agree, and only
then. -/
theorem update_eq_iff (hs : Distinct key s) (ht : Distinct key t) :
    s + fresh key s t - fresh key t s = t ↔ Agree key s t := by
  calc s + fresh key s t - fresh key t s = t
      ↔ common key t s + fresh key s t = common key s t + fresh key s t := by
        rw [update_eq, common_add_fresh key s t]
    _ ↔ common key t s = common key s t := add_left_inj _
    _ ↔ Agree key s t := common_eq_common_iff hs ht

/-- **One difference to a selection** leads to the whole state when the selection is all of
it and the two states agree, and only then. -/
theorem Selects.update_eq_iff {r : Multiset E} (hs : Distinct key s) (h : Selects key r t) :
    s + fresh key s r - fresh key r s = t ↔ Distinct key t ∧ Agree key s t := by
  constructor
  · intro heq
    have ht : Distinct key t := heq ▸ hs.update h.distinct
    rw [h.eq_iff.mpr ht] at heq
    exact ⟨ht, (KeyDiff.update_eq_iff hs ht).mp heq⟩
  · intro hboth
    obtain ⟨ht, hagree⟩ := hboth
    rw [h.eq_iff.mpr ht]
    exact (KeyDiff.update_eq_iff hs ht).mpr hagree

end KeyDiff
