import RfTrans.Cli.Endpoints
import RfTrans.Lib.KeyDiff

/-!
# The watch stream

`watchEndpoints` takes snapshots and prints the difference of each to the one before.  It
files the endpoints of a snapshot under a key that joins their strings by line breaks, and
compares the keys alone.

## Main definitions

* `endpointMap`, `Watch.start`, `Watch.round`, `watchEndpoints`
* `replay` — the endpoints that the printed events leave.
* `Reconstructs` — after every round they are those of the last snapshot.
* `reconstructs_iff`
-/

namespace RfTrans

open Std

variable {E : Type} [EndpointInfo E]

/-- `endpointMap`, where `emplace` keeps the first endpoint of a key. -/
def endpointMap (endpoints : List E) : StrMap E :=
  endpoints.foldl (fun result e => result.insertIfNew (EndpointInfo.key e) e) ∅

/-- The endpoints of a map, in the order of their keys. -/
def values (m : StrMap E) : List E := m.toList.map (·.2)

/-- The loop of `watchEndpoints`: the last map, and what the printer was called with, the
event's text and the endpoints. -/
structure Watch (E : Type) where
  previous : StrMap E := ∅
  printed : List (Str × List E) := []

namespace Watch

/-- `if (!endpoints.empty()) printer(endpoints, event)` -/
def printer (event : Str) (endpoints : List E) : List (Str × List E) :=
  if endpoints.isEmpty then [] else [(event, endpoints)]

/-- What comes before the loop. -/
def start (snapshot : List E) : Watch E :=
  let previous := endpointMap snapshot
  { previous := previous, printed := printer (str "added") (values previous) }

/-- The endpoints whose keys the other map has not, in the order of the keys. -/
def newTo (other current : StrMap E) : List E :=
  (current.toList.filter fun item => ¬ item.1 ∈ other).map (·.2)

/-- The body of the loop. -/
def round (w : Watch E) (snapshot : List E) : Watch E :=
  let current := endpointMap snapshot
  let added := newTo w.previous current
  let removed := newTo current w.previous
  { previous := current
    printed := w.printed ++ printer (str "added") added ++ printer (str "removed") removed }

end Watch

/-- `watchEndpoints` over the snapshots that it takes before it is stopped. -/
def watchEndpoints : List (List E) → Watch E
  | [] => {}
  | snapshot :: snapshots => snapshots.foldl Watch.round (Watch.start snapshot)

/-! ## Replaying the events -/

section Replay

variable [DecidableEq E]

/-- An event: endpoints come, or endpoints go. -/
def replayEvent (endpoints : Multiset E) (event : Str × List E) : Multiset E :=
  if event.1 = str "added" then endpoints + event.2
  else if event.1 = str "removed" then endpoints - event.2
  else endpoints

/-- All events in order. -/
def replay (printed : List (Str × List E)) : Multiset E := printed.foldl replayEvent 0

/-- The last of some snapshots. -/
def latest (snapshots : List (List E)) : Multiset E := ↑(snapshots.getLast?.getD [])

/-- After every round the events give back the snapshot. -/
def Reconstructs (snapshots : List (List E)) : Prop :=
  ∀ taken, taken <+: snapshots → replay (watchEndpoints taken).printed = latest taken

end Replay

/-- The keys tell the endpoints of a snapshot apart. -/
def DistinctKeys (snapshot : List E) : Prop := (snapshot.map EndpointInfo.key).Nodup

/-- An endpoint that is there before and after has not changed. -/
def Unchanged (before after : List E) : Prop :=
  ∀ e ∈ before, ∀ e' ∈ after, EndpointInfo.key e = EndpointInfo.key e' → e = e'

instance (snapshot : List E) : Decidable (DistinctKeys snapshot) :=
  inferInstanceAs (Decidable (List.Nodup _))

/-! ## The map -/

theorem endpointMap_concat (endpoints : List E) (e : E) :
    endpointMap (endpoints ++ [e]) =
      (endpointMap endpoints).insertIfNew (EndpointInfo.key e) e := by
  simp [endpointMap]

/-- The map has the first endpoint of each key. -/
theorem getElem?_endpointMap (endpoints : List E) (k : Str) :
    (endpointMap endpoints)[k]? = endpoints.find? fun e => EndpointInfo.key e = k := by
  induction endpoints using List.reverseRecOn with
  | nil => simp [endpointMap]
  | append_singleton endpoints e ih =>
      rw [endpointMap_concat, ExtTreeMap.getElem?_insertIfNew, List.find?_append, ih]
      by_cases hk : EndpointInfo.key e = k
      · subst hk
        have hmem : EndpointInfo.key e ∈ endpointMap endpoints ↔
            (endpoints.find? fun e' => EndpointInfo.key e' = EndpointInfo.key e).isSome := by
          rw [ExtTreeMap.mem_iff_isSome_getElem?, ih]
        cases hfind : endpoints.find? fun e' => EndpointInfo.key e' = EndpointInfo.key e with
        | none => simp [hmem, hfind]
        | some e' => simp [hmem, hfind]
      · simp [hk]

theorem mem_values {endpoints : List E} {e : E} :
    e ∈ values (endpointMap endpoints) ↔
      (endpoints.find? fun e' => EndpointInfo.key e' = EndpointInfo.key e) = some e := by
  simp only [values, List.mem_map, Prod.exists, ExtTreeMap.mem_toList_iff_getElem?_eq_some,
    exists_eq_right, getElem?_endpointMap]
  constructor
  · intro h
    obtain ⟨k, hk⟩ := h
    have hkey : EndpointInfo.key e = k := by simpa using List.find?_some hk
    rwa [hkey]
  · intro h
    exact ⟨EndpointInfo.key e, h⟩

/-- An endpoint is filed under its key. -/
theorem key_of_mem_toList {endpoints : List E} {item : Str × E}
    (h : item ∈ (endpointMap endpoints).toList) : EndpointInfo.key item.2 = item.1 := by
  rw [ExtTreeMap.mem_toList_iff_getElem?_eq_some, getElem?_endpointMap] at h
  simpa using List.find?_some h

theorem map_key_values (endpoints : List E) :
    (values (endpointMap endpoints)).map EndpointInfo.key = (endpointMap endpoints).keys := by
  rw [values, List.map_map, ← ExtTreeMap.map_fst_toList_eq_keys]
  exact List.map_congr_left fun item hitem => key_of_mem_toList hitem

/-- The map has one endpoint for each key. -/
theorem selects_values (endpoints : List E) :
    KeyDiff.Selects EndpointInfo.key (values (endpointMap endpoints) : Multiset E) endpoints := by
  have hdistinct :
      KeyDiff.Distinct EndpointInfo.key (values (endpointMap endpoints) : Multiset E) := by
    rw [KeyDiff.Distinct, Multiset.map_coe, Multiset.coe_nodup, map_key_values]
    exact ExtTreeMap.nodup_keys
  constructor
  case le =>
    refine (Multiset.le_iff_subset hdistinct.nodup).mpr fun e he => ?_
    exact List.mem_of_find?_eq_some (mem_values.mp he)
  case distinct => exact hdistinct
  case exists_mem =>
    intro e he
    have hsome : (endpoints.find? fun e' => EndpointInfo.key e' = EndpointInfo.key e).isSome := by
      rw [List.find?_isSome]
      exact ⟨e, he, by simp⟩
    obtain ⟨e', he'⟩ := Option.isSome_iff_exists.mp hsome
    have hkey : EndpointInfo.key e' = EndpointInfo.key e := by simpa using List.find?_some he'
    refine ⟨e', mem_values.mpr ?_, hkey⟩
    rwa [hkey]

/-- What is new to a map is what has a new key. -/
theorem coe_newTo (before after : List E) :
    (Watch.newTo (endpointMap before) (endpointMap after) : Multiset E) =
      KeyDiff.fresh EndpointInfo.key (values (endpointMap before) : Multiset E)
        (values (endpointMap after)) := by
  have hmem : ∀ k, k ∈ (values (endpointMap before) : Multiset E).map EndpointInfo.key ↔
      k ∈ endpointMap before := by
    intro k
    rw [Multiset.map_coe, Multiset.mem_coe, map_key_values, ExtTreeMap.mem_keys]
  have hlist : Watch.newTo (endpointMap before) (endpointMap after) =
      (values (endpointMap after)).filter fun e => ¬ EndpointInfo.key e ∈ endpointMap before := by
    rw [Watch.newTo, values, List.filter_map]
    refine congrArg (List.map _) (List.filter_congr fun item hitem => ?_)
    simp [key_of_mem_toList hitem]
  rw [hlist, ← Multiset.filter_coe]
  exact Multiset.filter_congr fun e _ => not_congr (hmem _).symm

/-! ## A round -/

omit [EndpointInfo E] in
theorem newTo_empty (m : StrMap E) : Watch.newTo ∅ m = values m := by
  simp [Watch.newTo, values]

omit [EndpointInfo E] in
theorem empty_newTo (m : StrMap E) : Watch.newTo m (∅ : StrMap E) = [] := by
  simp [Watch.newTo]

/-- Before the loop comes a round that starts from nothing. -/
theorem start_eq_round (snapshot : List E) :
    Watch.start snapshot = ({} : Watch E).round snapshot := by
  simp [Watch.start, Watch.round, newTo_empty, empty_newTo, Watch.printer]

theorem watchEndpoints_concat (snapshots : List (List E)) (snapshot : List E) :
    watchEndpoints (snapshots ++ [snapshot]) = (watchEndpoints snapshots).round snapshot := by
  cases snapshots with
  | nil => exact start_eq_round snapshot
  | cons first snapshots => simp [watchEndpoints]

theorem previous_watchEndpoints (snapshots : List (List E)) :
    (watchEndpoints snapshots).previous = endpointMap (snapshots.getLast?.getD []) := by
  induction snapshots using List.reverseRecOn with
  | nil => simp [watchEndpoints, endpointMap]
  | append_singleton snapshots snapshot => simp [watchEndpoints_concat, Watch.round]

section Replay

variable [DecidableEq E]

omit [EndpointInfo E] in
theorem replay_append (before after : List (Str × List E)) :
    replay (before ++ after) = after.foldl replayEvent (replay before) :=
  List.foldl_append

omit [EndpointInfo E] in
/-- An empty list of endpoints is not printed, and would change nothing. -/
theorem foldl_printer (endpoints : Multiset E) (event : Str) (changes : List E) :
    (Watch.printer event changes).foldl replayEvent endpoints =
      replayEvent endpoints (event, changes) := by
  cases changes with
  | nil => simp [Watch.printer, replayEvent]
  | cons e changes => simp [Watch.printer]

/-- **What a round adds to the events.** -/
theorem replay_round (w : Watch E) (snapshot : List E) :
    replay (w.round snapshot).printed =
      replay w.printed + Watch.newTo w.previous (endpointMap snapshot) -
        Watch.newTo (endpointMap snapshot) w.previous := by
  have hne : str "removed" ≠ str "added" := by decide
  rw [Watch.round, replay_append, replay_append, foldl_printer, foldl_printer, replayEvent,
    replayEvent, if_neg hne, if_pos rfl, if_pos rfl]

omit [DecidableEq E] in
theorem distinct_iff (snapshot : List E) :
    KeyDiff.Distinct EndpointInfo.key (snapshot : Multiset E) ↔ DistinctKeys snapshot := by
  rw [KeyDiff.Distinct, Multiset.map_coe, Multiset.coe_nodup, DistinctKeys]

/-- **A round keeps the events right** when the keys of the new snapshot are distinct and
nothing has changed under its key, and only then. -/
theorem replay_round_eq_iff {w : Watch E} {before snapshot : List E}
    (hprevious : w.previous = endpointMap before) (hbefore : DistinctKeys before)
    (hreplay : replay w.printed = before) :
    replay (w.round snapshot).printed = snapshot ↔
      DistinctKeys snapshot ∧ Unchanged before snapshot := by
  have hdistinct := (distinct_iff before).mpr hbefore
  have hold : (values (endpointMap before) : Multiset E) = before :=
    (selects_values before).eq_iff.mpr hdistinct
  rw [replay_round, hprevious, hreplay, coe_newTo, coe_newTo, hold, ← distinct_iff]
  exact (selects_values snapshot).update_eq_iff hdistinct

omit [DecidableEq E] in
/-- The last snapshot and one more. -/
theorem isChain_concat (snapshots : List (List E)) (snapshot : List E) :
    (snapshots ++ [snapshot]).IsChain Unchanged ↔
      snapshots.IsChain Unchanged ∧ Unchanged (snapshots.getLast?.getD []) snapshot := by
  rw [List.isChain_append]
  cases snapshots.getLast? with
  | none => simp [Unchanged]
  | some before => simp

theorem reconstructs_concat (snapshots : List (List E)) (snapshot : List E) :
    Reconstructs (snapshots ++ [snapshot]) ↔
      Reconstructs snapshots ∧
        replay ((watchEndpoints snapshots).round snapshot).printed = snapshot := by
  simp only [Reconstructs, List.prefix_concat_iff, or_imp, forall_and, forall_eq,
    watchEndpoints_concat]
  rw [and_comm]
  simp [latest]

/-- **The stream reconstructs the endpoints** when the keys of each snapshot are distinct
and nothing changes under its key from one snapshot to the next, and only then. -/
theorem reconstructs_iff (snapshots : List (List E)) :
    Reconstructs snapshots ↔
      (∀ snapshot ∈ snapshots, DistinctKeys snapshot) ∧ snapshots.IsChain Unchanged := by
  induction snapshots using List.reverseRecOn with
  | nil => simp [Reconstructs, watchEndpoints, replay, latest]
  | append_singleton snapshots snapshot ih =>
      rw [reconstructs_concat, isChain_concat, List.forall_mem_append, List.forall_mem_singleton,
        ih, and_and_and_comm]
      refine and_congr_right fun hkept => ?_
      have hreplay := ih.mpr hkept snapshots List.prefix_rfl
      have hdistinct : DistinctKeys (snapshots.getLast?.getD []) := by
        cases hlast : snapshots.getLast? with
        | none => exact List.nodup_nil
        | some before => exact hkept.1 before (List.mem_of_getLast? hlast)
      exact replay_round_eq_iff (previous_watchEndpoints snapshots) hdistinct hreplay

/-! ## Where the strings have no line breaks -/

/-- No string of the identity has a line break. -/
def OneLine (e : E) : Prop := ∀ x ∈ EndpointInfo.identity e, 10 ∉ x

omit [DecidableEq E] in
/-- Then the key can be taken apart again. -/
theorem key_eq_iff {e e' : E} (h : OneLine e) (h' : OneLine e') :
    EndpointInfo.key e = EndpointInfo.key e' ↔
      EndpointInfo.identity e = EndpointInfo.identity e' := by
  constructor
  · intro hkey
    rw [EndpointInfo.key_eq, EndpointInfo.key_eq] at hkey
    rw [← List.splitOn_intercalate 10 h (EndpointInfo.identity_ne_nil e),
      ← List.splitOn_intercalate 10 h' (EndpointInfo.identity_ne_nil e')]
    exact congrArg _ hkey
  · intro hidentity
    rw [EndpointInfo.key_eq, EndpointInfo.key_eq, hidentity]

omit [DecidableEq E] in
theorem distinctKeys_iff_of_oneLine {snapshot : List E} (h : ∀ e ∈ snapshot, OneLine e) :
    DistinctKeys snapshot ↔ (snapshot.map EndpointInfo.identity).Nodup := by
  simp only [DistinctKeys, List.Nodup, List.pairwise_map]
  exact List.Pairwise.iff_of_mem fun he he' => not_congr (key_eq_iff (h _ he) (h _ he'))

/-- **Without line breaks** the stream reconstructs the endpoints, where no two of a
snapshot have one identity, unless an endpoint keeps its identity and changes. -/
theorem reconstructs_iff_of_oneLine {snapshots : List (List E)}
    (hline : ∀ snapshot ∈ snapshots, ∀ e ∈ snapshot, OneLine e)
    (hidentity : ∀ snapshot ∈ snapshots, (snapshot.map EndpointInfo.identity).Nodup) :
    Reconstructs snapshots ↔ snapshots.IsChain Unchanged := by
  rw [reconstructs_iff]
  refine and_iff_right fun snapshot hmem => ?_
  exact (distinctKeys_iff_of_oneLine (hline snapshot hmem)).mpr (hidentity snapshot hmem)

end Replay

/-- Topics and services. -/
theorem watch_reconstructs_iff (messages : List (List MessageEndpointInfo))
    (services : List (List ServiceEndpointInfo)) :
    (Reconstructs messages ↔
      (∀ snapshot ∈ messages, DistinctKeys snapshot) ∧ messages.IsChain Unchanged) ∧
    (Reconstructs services ↔
      (∀ snapshot ∈ services, DistinctKeys snapshot) ∧ services.IsChain Unchanged) :=
  ⟨reconstructs_iff messages, reconstructs_iff services⟩

/-- An endpoint of a node that withdraws its topic and advertises it again, with another
type, between two snapshots. -/
def readvertised (messageType : Str) : MessageEndpointInfo :=
  { topic := str "temperature", address := str "tcp://10.0.0.2:7000", processUuid := str "p"
    nodeUuid := str "n", messageType := messageType }

/-- Two endpoints whose strings are the same once they are joined. -/
def joined : List MessageEndpointInfo :=
  [{ topic := str "a", address := str "b\nc" }, { topic := str "a\nb", address := str "c" }]

/-- The stream keeps the old type, and of the two endpoints it shows one. -/
theorem readvertised_not_reconstructed :
    ¬ Reconstructs [[readvertised (str "Celsius")], [readvertised (str "Kelvin")]] ∧
      (joined.map EndpointInfo.identity).Nodup ∧ ¬ Reconstructs [joined] := by
  refine ⟨?_, by decide, ?_⟩
  · intro h
    exact absurd (h _ List.prefix_rfl) (by decide +kernel)
  · intro h
    exact absurd (h _ List.prefix_rfl) (by decide +kernel)

end RfTrans
