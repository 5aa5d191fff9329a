import Mathlib.Data.List.Basic
import Mathlib.Data.List.Count
import Mathlib.Data.List.Induction
import Mathlib.Data.List.Nodup
import Mathlib.Data.List.TakeWhile
import Mathlib.Logic.Function.Basic
import RfTrans.Lib.Exec

/-!
# Receivers that count frames

Messages of several frames arrive whole on some sockets.  One thread polls the sockets and
takes from each one that is ready a fixed number of frames, one after the other, whatever
message they belong to; it waits where a socket has none.  Frames carry the number of their
message here, which the receiver does not see.

The records that come into the queues are one message each, and none is missed, exactly if
every stream is well framed up to a tail that is too short to fill a record, and no tail
makes the thread wait while another socket has messages for it.

## Main definitions

* `Receiver` — the sockets, their frame counts and what is built from the frames.
* `Receiver.next` — an arrival, or a step of the thread.
* `Queued` — what has been in a queue at some moment of a run.
* `Genuine`, `Complete` — nothing but messages is queued, and all well framed ones are.
* `Tolerable` — the streams for which this is so, `Receiver.staysAligned_iff`.
-/

namespace Framing

open Exec

universe u v w
variable {ι : Type u} {φ : Type v} {ρ : Type w}

/-- A message has at least one frame. -/
abbrev Message (φ : Type v) := φ × List φ

def Message.frames (m : Message φ) : List φ := m.1 :: m.2

/-- Sockets, with the number of frames that is taken from each and what is built from
them, and the length at which a queue drops its front. -/
structure Receiver (ι : Type u) (φ : Type v) (ρ : Type w) where
  sockets : List ι
  nodup : sockets.Nodup
  mem_sockets : ∀ i, i ∈ sockets
  count : ι → ℕ
  count_pos : ∀ i, 0 < count i
  build : ι → List φ → Option ρ
  build_isSome : ∀ i l, (build i l).isSome = true ↔ l.length = count i
  limit : ι → Option ℕ
  limit_pos : ∀ i, limit i ≠ some 0

/-- Where the thread stands. -/
inductive Pos (ι : Type u) (φ : Type v)
  /-- The sockets that the last poll reported and that are still to be read. -/
  | ready (rest : List ι)
  /-- In the middle of a receive. -/
  | reading (i : ι) (held : List (ℕ × φ)) (rest : List ι)

/-- What is built, with the frames it is built from. -/
abbrev Record (φ : Type v) (ρ : Type w) := ρ × List (ℕ × φ)

/-- The sockets, the thread and the queues; all that arrived and all that was taken from the
sockets, which the invariant speaks of. -/
structure State (ι : Type u) (φ : Type v) (ρ : Type w) where
  inbox : ι → List (ℕ × φ) := fun _ => []
  pos : Pos ι φ := .ready []
  queue : ι → List (Record φ ρ) := fun _ => []
  arrived : ι → List (Message φ) := fun _ => []
  taken : ι → List (Record φ ρ) := fun _ => []

/-- The frames of a message with its number. -/
def tagged (k : ℕ) (m : Message φ) : List (ℕ × φ) := m.frames.map fun f => (k, f)

/-- The messages of a stream, tagged. -/
def tagAll (ms : List (Message φ)) : List (List (ℕ × φ)) := ms.mapIdx tagged

/-- A full queue drops its front. -/
def enqueue (limit : Option ℕ) (queue : List ρ) (r : ρ) : List ρ :=
  let queue := queue ++ [r]
  if limit.any (· < queue.length) then queue.tail else queue

inductive Action (ι : Type u) (φ : Type v)
  | arrive (i : ι) (m : Message φ)
  /-- The thread goes on. -/
  | advance
  /-- The queue of a socket is swapped out. -/
  | swap (i : ι)

variable [DecidableEq ι]

namespace Receiver

variable (R : Receiver ι φ ρ)

/-- The next step of the thread, if it need not wait. -/
def advance (s : State ι φ ρ) : Option (State ι φ ρ) :=
  match s.pos with
  | .ready [] =>
    let ready := R.sockets.filter fun i => !(s.inbox i).isEmpty
    if ready.isEmpty then none else some { s with pos := .ready ready }
  | .ready (i :: rest) => some { s with pos := .reading i [] rest }
  | .reading i held rest =>
    match s.inbox i with
    | [] => none
    | f :: fs =>
      let held := held ++ [f]
      let s := { s with inbox := Function.update s.inbox i fs }
      match R.build i (held.map Prod.snd) with
      | none => some { s with pos := .reading i held rest }
      | some r =>
        some { s with
          pos := .ready rest
          queue := Function.update s.queue i (enqueue (R.limit i) (s.queue i) (r, held))
          taken := Function.update s.taken i (s.taken i ++ [(r, held)]) }

/-- One step. -/
def next (s : State ι φ ρ) : Action ι φ → Option (State ι φ ρ)
  | .arrive i m =>
    some { s with
      inbox := Function.update s.inbox i (s.inbox i ++ tagged (s.arrived i).length m)
      arrived := Function.update s.arrived i (s.arrived i ++ [m]) }
  | .advance => R.advance s
  | .swap i => some { s with queue := Function.update s.queue i [] }

/-- The thread waits. -/
def Quiet (s : State ι φ ρ) : Prop := R.advance s = none

/-- The record is in the queue of the socket at some moment of the run. -/
def Queued (run : List (Action ι φ)) (i : ι) (x : Record φ ρ) : Prop :=
  ∃ pre t, pre <+: run ∧ exec R.next {} pre = some t ∧ x ∈ t.queue i

/-- The record is the `k`-th message, built from all of its frames and no others. -/
structure IsMessage (i : ι) (k : ℕ) (m : Message φ) (x : Record φ ρ) : Prop where
  length : m.frames.length = R.count i
  frames : x.2 = tagged k m
  built : R.build i m.frames = some x.1

/-- Whatever is queued is one of the messages, which has the expected number of frames. -/
def Genuine (ms : ι → List (Message φ)) (run : List (Action ι φ)) : Prop :=
  ∀ i x, R.Queued run i x → ∃ k m, (ms i)[k]? = some m ∧ R.IsMessage i k m x

/-- Every message with the expected number of frames is queued. -/
def Complete (ms : ι → List (Message φ)) (run : List (Action ι φ)) : Prop :=
  ∀ i k m, (ms i)[k]? = some m → m.frames.length = R.count i →
    ∃ x, R.Queued run i x ∧ R.IsMessage i k m x

/-- In every run over the streams nothing but messages is queued, and all well framed ones
have been once the thread waits. -/
def StaysAligned (ms : ι → List (Message φ)) : Prop :=
  ∀ run s, exec R.next {} run = some s → s.arrived = ms →
    R.Genuine ms run ∧ (R.Quiet s → R.Complete ms run)

end Receiver

/-- What a stream holds from its first message with another number of frames on. -/
def tail (n : ℕ) (ms : List (Message φ)) : List (Message φ) :=
  ms.dropWhile fun m => m.frames.length = n

/-- No tail fills a record, and no tail holds up the messages of another socket. -/
structure Receiver.Tolerable (R : Receiver ι φ ρ) (ms : ι → List (Message φ)) : Prop where
  short : ∀ i, ((tail (R.count i) (ms i)).flatMap Message.frames).length < R.count i
  alone : ∀ i, tail (R.count i) (ms i) ≠ [] → ∀ j, j ≠ i → ∀ m ∈ ms j,
    m.frames.length ≠ R.count j

/-! ## Cutting a stream -/

section Chunks
variable {α : Type u} {n : ℕ} {xs ys : List (List α)} {l r : List α}

/-- Two ways to cut a list into pieces of one length agree as far as both go. -/
theorem chunks_split (hx : ∀ x ∈ xs, x.length = n) (hy : ∀ y ∈ ys, y.length = n)
    (hl : l.length < n) (h : xs.flatten ++ l = ys.flatten ++ r) :
    ∃ zs, xs = ys ++ zs ∧ zs.flatten ++ l = r := by
  induction ys generalizing xs with
  | nil => exact ⟨xs, rfl, h⟩
  | cons y ys ih =>
      cases xs with
      | nil =>
          have hlen := congrArg List.length h
          have hyn := hy y List.mem_cons_self
          simp only [List.flatten_nil, List.nil_append, List.flatten_cons,
            List.length_append] at hlen
          omega
      | cons x xs =>
          rw [List.flatten_cons, List.flatten_cons, List.append_assoc, List.append_assoc] at h
          have hlen : x.length = y.length :=
            (hx x List.mem_cons_self).trans (hy y List.mem_cons_self).symm
          obtain ⟨rfl, hrest⟩ := List.append_inj h hlen
          obtain ⟨zs, rfl, hzs⟩ := ih (fun x' hx' => hx x' (List.mem_cons_of_mem x hx'))
            (fun y' hy' => hy y' (List.mem_cons_of_mem x hy')) hrest
          exact ⟨zs, rfl, hzs⟩

/-- Pieces that leave less than one piece are none. -/
theorem chunks_eq_nil (hx : ∀ x ∈ xs, x.length = n) (h : xs.flatten.length < n) : xs = [] := by
  cases xs with
  | nil => rfl
  | cons x xs =>
      have hxn := hx x List.mem_cons_self
      rw [List.flatten_cons, List.length_append] at h
      omega

end Chunks

section Streams
variable {n k : ℕ} {m : Message φ} {ms : List (Message φ)}

@[simp] theorem length_tagged (k : ℕ) (m : Message φ) :
    (tagged k m).length = m.frames.length := List.length_map ..

@[simp] theorem map_snd_tagged (k : ℕ) (m : Message φ) : (tagged k m).map Prod.snd = m.frames := by
  simp [tagged, Function.comp_def]

/-- The messages before the first one with another number of frames, tagged. -/
def wellFramed (n : ℕ) (ms : List (Message φ)) : List (List (ℕ × φ)) :=
  tagAll (ms.takeWhile fun m => m.frames.length = n)

/-- How many messages come before the tail. -/
def tailStart (n : ℕ) (ms : List (Message φ)) : ℕ :=
  (ms.takeWhile fun m => m.frames.length = n).length

/-- The tail, tagged with the numbers that its messages have. -/
def tailFrames (n : ℕ) (ms : List (Message φ)) : List (ℕ × φ) :=
  ((tail n ms).mapIdx fun k => tagged (k + tailStart n ms)).flatten

theorem stream_eq (n : ℕ) (ms : List (Message φ)) :
    (tagAll ms).flatten = (wellFramed n ms).flatten ++ tailFrames n ms := by
  rw [tailFrames, wellFramed, tagAll, tail, tagAll, tailStart, ← List.flatten_append,
    ← List.mapIdx_append, List.takeWhile_append_dropWhile]

theorem length_tailFrames (n : ℕ) (ms : List (Message φ)) :
    (tailFrames n ms).length = ((tail n ms).flatMap Message.frames).length := by
  rw [tailFrames, List.length_flatten, List.length_flatMap]
  generalize tailStart n ms = d
  induction tail n ms generalizing d with
  | nil => rfl
  | cons m l ih =>
      simp only [List.mapIdx_cons, List.map_cons, List.sum_cons, length_tagged]
      rw [← ih (d + 1)]
      simp only [Nat.add_assoc, Nat.add_comm 1 d]

/-- A tail starts with a message of another length. -/
theorem tail_cons {b : Message φ} {bs : List (Message φ)} (h : tail n ms = b :: bs) :
    b.frames.length ≠ n ∧ ms[tailStart n ms]? = some b ∧
      ∃ rest, tailFrames n ms = tagged (tailStart n ms) b ++ rest := by
  refine ⟨?_, ?_, ?_⟩
  · have hhead := List.head?_dropWhile_not (fun m : Message φ => decide (m.frames.length = n)) ms
    rw [← tail, h] at hhead
    exact of_decide_eq_false hhead
  · have hsplit : ms = ms.takeWhile (fun m => decide (m.frames.length = n)) ++ b :: bs := by
      rw [← h, tail, List.takeWhile_append_dropWhile]
    generalize hd : tailStart n ms = d
    rw [hsplit, List.getElem?_append_right (by rw [← hd, tailStart]), ← hd, tailStart]
    simp
  · rw [tailFrames, h, List.mapIdx_cons, List.flatten_cons, Nat.zero_add]
    exact ⟨_, rfl⟩

/-- A tagged message is one of the stream. -/
theorem mem_tagAll {c : List (ℕ × φ)} :
    c ∈ tagAll ms ↔ ∃ k m, ms[k]? = some m ∧ c = tagged k m := by
  rw [tagAll, List.mem_mapIdx]
  constructor
  · rintro ⟨k, hk, rfl⟩
    exact ⟨k, ms[k], List.getElem?_eq_getElem hk, rfl⟩
  · rintro ⟨k, m, hm, rfl⟩
    obtain ⟨hk, rfl⟩ := List.getElem?_eq_some_iff.mp hm
    exact ⟨k, hk, rfl⟩

theorem mem_wellFramed {c : List (ℕ × φ)} (h : c ∈ wellFramed n ms) :
    ∃ k m, ms[k]? = some m ∧ m.frames.length = n ∧ c = tagged k m := by
  obtain ⟨k, m, hk, rfl⟩ := mem_tagAll.mp h
  refine ⟨k, m, ?_, ?_, rfl⟩
  · obtain ⟨hlt, -⟩ := List.getElem?_eq_some_iff.mp hk
    rw [← hk, ← List.takeWhile_append_dropWhile (p := fun m => decide (m.frames.length = n))
      (l := ms), List.getElem?_append_left (by simpa using hlt)]
    simp
  · have hp := List.mem_takeWhile_imp (List.mem_of_getElem? hk)
    exact of_decide_eq_true hp

/-- A well framed message comes before the tail, unless the tail is long. -/
theorem tagged_mem_wellFramed (hshort : ((tail n ms).flatMap Message.frames).length < n)
    (hk : ms[k]? = some m) (hm : m.frames.length = n) : tagged k m ∈ wellFramed n ms := by
  refine mem_tagAll.mpr ⟨k, m, ?_, rfl⟩
  rw [← List.takeWhile_append_dropWhile (p := fun m => decide (m.frames.length = n))
    (l := ms)] at hk
  by_cases hlt : k < (ms.takeWhile fun m => decide (m.frames.length = n)).length
  · rwa [List.getElem?_append_left hlt] at hk
  · rw [List.getElem?_append_right (Nat.le_of_not_lt hlt)] at hk
    have hmem : m ∈ tail n ms := List.mem_of_getElem? hk
    have hframes := List.mem_map_of_mem (f := Message.frames) hmem
    have hle := (List.sublist_flatten_of_mem hframes).length_le
    rw [← List.flatMap_def] at hle
    omega

end Streams

/-! ## The invariant of the thread -/

/-- What the thread holds of a receive from the socket. -/
def Pos.held : Pos ι φ → ι → List (ℕ × φ)
  | .ready _, _ => []
  | .reading j held _, i => if j = i then held else []

/-- The thread turns to sockets that have something. -/
def Pos.Fed (inbox : ι → List (ℕ × φ)) : Pos ι φ → Prop
  | .ready rest => rest.Nodup ∧ ∀ j ∈ rest, inbox j ≠ []
  | .reading i held rest => (i :: rest).Nodup ∧ (∀ j ∈ rest, inbox j ≠ []) ∧
      (held = [] → inbox i ≠ [])

namespace Receiver

variable {R : Receiver ι φ ρ} {s t : State ι φ ρ}

structure Inv (R : Receiver ι φ ρ) (s : State ι φ ρ) : Prop where
  /-- The frames that arrived are those taken, those held and those not yet read. -/
  whole : ∀ i, (s.taken i).flatMap Prod.snd ++ (s.pos.held i ++ s.inbox i) =
    (tagAll (s.arrived i)).flatten
  built : ∀ i, ∀ x ∈ s.taken i, R.build i (x.2.map Prod.snd) = some x.1
  short : ∀ i, (s.pos.held i).length < R.count i
  fed : s.pos.Fed s.inbox
  queued : ∀ i, ∀ x ∈ s.queue i, x ∈ s.taken i

theorem inv_start : R.Inv {} where
  whole := fun i => rfl
  built := fun i x hx => by cases hx
  short := R.count_pos
  fed := ⟨List.nodup_nil, fun j hj => by cases hj⟩
  queued := fun i x hx => by cases hx

/-- Records are built from as many frames as expected. -/
theorem Inv.length (h : R.Inv s) {i : ι} {x : Record φ ρ} (hx : x ∈ s.taken i) :
    x.2.length = R.count i := by
  have hb := (R.build_isSome i _).mp (Option.isSome_iff_exists.mpr ⟨_, h.built i x hx⟩)
  rwa [List.length_map] at hb

theorem Inv.arrive (h : R.Inv s) (i : ι) (m : Message φ) :
    R.Inv { s with
      inbox := Function.update s.inbox i (s.inbox i ++ tagged (s.arrived i).length m)
      arrived := Function.update s.arrived i (s.arrived i ++ [m]) } := by
  have hmore : ∀ j, s.inbox j ≠ [] →
      Function.update s.inbox i (s.inbox i ++ tagged (s.arrived i).length m) j ≠ [] := by
    intro j hj
    by_cases hji : j = i
    · subst hji
      rw [Function.update_self]
      exact List.append_ne_nil_of_left_ne_nil hj _
    · rwa [Function.update_of_ne hji]
  refine ⟨fun j => ?_, h.built, h.short, ?_, h.queued⟩
  · by_cases hji : j = i
    · subst hji
      simp only [Function.update_self]
      rw [tagAll, List.mapIdx_concat, List.flatten_append, ← tagAll, ← h.whole j]
      simp [List.append_assoc]
    · simp only [Function.update_of_ne hji]
      exact h.whole j
  · have hfed := h.fed
    cases hpos : s.pos with
    | ready rest =>
        rw [hpos] at hfed
        exact ⟨hfed.1, fun j hj => hmore j (hfed.2 j hj)⟩
    | reading j held rest =>
        rw [hpos] at hfed
        exact ⟨hfed.1, fun k hk => hmore k (hfed.2.1 k hk), fun hnil => hmore j (hfed.2.2 hnil)⟩

theorem mem_of_mem_enqueue {limit : Option ℕ} {queue : List ρ} {r r' : ρ}
    (h : r' ∈ enqueue limit queue r) : r' ∈ queue ∨ r' = r := by
  have hmem : r' ∈ queue ++ [r] := by
    simp only [enqueue] at h
    split at h
    case isTrue => exact List.mem_of_mem_tail h
    case isFalse => exact h
  simpa using hmem

/-- The thread reads a frame. -/
theorem Inv.read (h : R.Inv s) {i : ι} {held : List (ℕ × φ)} {rest : List ι} {f : ℕ × φ}
    {fs : List (ℕ × φ)} (hpos : s.pos = .reading i held rest) (hin : s.inbox i = f :: fs)
    (ht : R.advance s = some t) : R.Inv t := by
  have hwhole : ∀ j, (s.taken j).flatMap Prod.snd ++ ((if i = j then held else []) ++ s.inbox j) =
      (tagAll (s.arrived j)).flatten := by
    intro j
    have := h.whole j
    rwa [hpos] at this
  have hshort : held.length < R.count i := by
    have := h.short i
    rw [hpos] at this
    simpa [Pos.held] using this
  have hfed := h.fed
  rw [hpos] at hfed
  obtain ⟨hnodup, hrest, -⟩ := hfed
  have hfed' : ∀ j ∈ rest, Function.update s.inbox i fs j ≠ [] := by
    intro j hj
    have hji : j ≠ i := by
      rintro rfl
      exact (List.nodup_cons.mp hnodup).1 hj
    rw [Function.update_of_ne hji]
    exact hrest j hj
  simp only [advance, hpos, hin] at ht
  cases hb : R.build i ((held ++ [f]).map Prod.snd) with
  | none =>
      -- the record is not complete
      simp only [hb, Option.some.injEq] at ht
      subst ht
      have hne : held.length + 1 ≠ R.count i := by
        intro heq
        have hsome := (R.build_isSome i ((held ++ [f]).map Prod.snd)).mpr (by simpa using heq)
        rw [hb] at hsome
        cases hsome
      refine ⟨fun j => ?_, h.built, fun j => ?_, ⟨hnodup, hfed', by simp⟩, h.queued⟩
      · by_cases hij : i = j
        · subst hij
          rw [← hwhole i, hin]
          simp [Pos.held]
        · rw [← hwhole j]
          simp [Pos.held, hij, Function.update_of_ne (Ne.symm hij)]
      · by_cases hij : i = j
        · subst hij
          simp only [Pos.held, if_true, List.length_append, List.length_singleton]
          omega
        · simp only [Pos.held, if_neg hij]
          exact R.count_pos j
  | some r =>
      simp only [hb, Option.some.injEq] at ht
      subst ht
      refine ⟨fun j => ?_, fun j x hx => ?_, fun j => R.count_pos j,
        ⟨(List.nodup_cons.mp hnodup).2, hfed'⟩, fun j r' hr' => ?_⟩
      · by_cases hij : i = j
        · subst hij
          rw [← hwhole i, hin]
          simp [Pos.held]
        · rw [← hwhole j]
          simp [Pos.held, hij, Function.update_of_ne (Ne.symm hij)]
      · by_cases hij : j = i
        · subst hij
          simp only [Function.update_self] at hx
          rcases List.mem_append.mp hx with hx | hx
          · exact h.built j x hx
          · obtain rfl := List.mem_singleton.mp hx
            exact hb
        · simp only [Function.update_of_ne hij] at hx
          exact h.built j x hx
      · by_cases hij : j = i
        · subst hij
          simp only [Function.update_self] at hr' ⊢
          rcases mem_of_mem_enqueue hr' with hr' | rfl
          · exact List.mem_append.mpr (.inl (h.queued j r' hr'))
          · exact List.mem_append.mpr (.inr List.mem_cons_self)
        · simp only [Function.update_of_ne hij] at hr' ⊢
          exact h.queued j r' hr'

theorem Inv.advance (h : R.Inv s) (ht : R.advance s = some t) : R.Inv t := by
  cases hpos : s.pos with
  | ready rest =>
      have hwhole : ∀ j, (s.taken j).flatMap Prod.snd ++ ([] ++ s.inbox j) =
          (tagAll (s.arrived j)).flatten := by
        intro j
        have := h.whole j
        rwa [hpos] at this
      have hfed := h.fed
      rw [hpos] at hfed
      cases rest with
      | nil =>
          simp only [Receiver.advance, hpos] at ht
          split at ht
          case isTrue => cases ht
          case isFalse =>
            obtain rfl := Option.some.inj ht
            refine ⟨hwhole, h.built, R.count_pos, ⟨R.nodup.filter _, fun j hj => ?_⟩, h.queued⟩
            simpa using (List.mem_filter.mp hj).2
      | cons i rest =>
          simp only [Receiver.advance, hpos, Option.some.injEq] at ht
          subst ht
          refine ⟨fun j => ?_, h.built, fun j => ?_, ⟨hfed.1, fun j hj => ?_, fun _ => ?_⟩,
            h.queued⟩
          · simpa [Pos.held] using hwhole j
          · simpa [Pos.held] using R.count_pos j
          · exact hfed.2 j (List.mem_cons_of_mem i hj)
          · exact hfed.2 i List.mem_cons_self
  | reading i held rest =>
      cases hin : s.inbox i with
      | nil => simp [Receiver.advance, hpos, hin] at ht
      | cons f fs => exact h.read hpos hin ht

/-- **One step.** -/
theorem Inv.step (h : R.Inv s) {a : Action ι φ} (ht : R.next s a = some t) : R.Inv t := by
  cases a with
  | arrive i m => exact Option.some.inj ht ▸ h.arrive i m
  | advance => exact h.advance ht
  | swap i =>
      obtain rfl := Option.some.inj ht
      refine ⟨h.whole, h.built, h.short, h.fed, fun j r hr => ?_⟩
      by_cases hji : j = i
      · subst hji
        simp at hr
      · exact h.queued j r (by simpa [Function.update_of_ne hji] using hr)

theorem inv_run {run : List (Action ι φ)} (h : exec R.next {} run = some s) : R.Inv s :=
  stable (fun _ _ _ hs ht => Inv.step hs ht) inv_start h

/-! ## What is taken is queued -/

theorem mem_enqueue {limit : Option ℕ} (hpos : limit ≠ some 0) (queue : List ρ) (r : ρ) :
    r ∈ enqueue limit queue r := by
  have hlast : r ∈ queue ++ [r] := List.mem_append.mpr (.inr List.mem_cons_self)
  simp only [enqueue]
  split
  case isTrue hfull =>
    -- a full queue had something before this record
    cases queue with
    | nil =>
        obtain ⟨n, rfl, hn⟩ := (Option.any_eq_true _ _).mp hfull
        have hzero : n = 0 := by simpa using hn
        exact absurd (congrArg some hzero) hpos
    | cons q queue => simp
  case isFalse => exact hlast

/-- A step takes at most one record from the sockets, and puts it into the queue. -/
theorem taken_next {a : Action ι φ} (ht : R.next s a = some t) (i : ι) :
    t.taken i = s.taken i ∨ ∃ x, t.taken i = s.taken i ++ [x] ∧ x ∈ t.queue i := by
  cases a with
  | arrive j m => exact .inl (Option.some.inj ht ▸ rfl)
  | swap j => exact .inl (Option.some.inj ht ▸ rfl)
  | advance =>
      simp only [next] at ht
      cases hpos : s.pos with
      | ready rest =>
          cases rest with
          | nil =>
              simp only [Receiver.advance, hpos] at ht
              split at ht
              case isTrue => cases ht
              case isFalse => exact .inl (Option.some.inj ht ▸ rfl)
          | cons j rest =>
              simp only [Receiver.advance, hpos] at ht
              exact .inl (Option.some.inj ht ▸ rfl)
      | reading j held rest =>
          cases hin : s.inbox j with
          | nil => simp [Receiver.advance, hpos, hin] at ht
          | cons f fs =>
              simp only [Receiver.advance, hpos, hin] at ht
              cases hbuild : R.build j ((held ++ [f]).map Prod.snd) with
              | none =>
                  simp only [hbuild] at ht
                  exact .inl (Option.some.inj ht ▸ rfl)
              | some r =>
                  simp only [hbuild] at ht
                  obtain rfl := Option.some.inj ht
                  by_cases hij : i = j
                  · subst hij
                    refine .inr ⟨(r, held ++ [f]), Function.update_self .., ?_⟩
                    simp only [Function.update_self]
                    exact mem_enqueue (R.limit_pos i) _ _
                  · exact .inl (Function.update_of_ne hij ..)

theorem mem_taken_of_exec {run : List (Action ι φ)} (h : exec R.next s run = some t) {i : ι}
    {x : Record φ ρ} (hx : x ∈ s.taken i) : x ∈ t.taken i := by
  refine stable (P := fun s => x ∈ s.taken i) (fun s a t hs ht => ?_) hx h
  rcases taken_next ht i with heq | ⟨y, heq, -⟩
  · rwa [heq]
  · rw [heq]
    exact List.mem_append.mpr (.inl hs)

/-- **What has been queued is what was taken from the socket**, whatever was swapped out or
dropped since. -/
theorem queued_iff {run : List (Action ι φ)} (h : exec R.next {} run = some s) {i : ι}
    {x : Record φ ρ} : R.Queued run i x ↔ x ∈ s.taken i := by
  constructor
  · rintro ⟨pre, t, ⟨rest, rfl⟩, ht, hx⟩
    obtain ⟨u, hu, hrest⟩ := exec_append_eq_some h
    obtain rfl := Option.some.inj (ht.symm.trans hu)
    exact mem_taken_of_exec hrest ((inv_run ht).queued i x hx)
  · induction run using List.reverseRecOn generalizing s with
    | nil =>
        obtain rfl := Option.some.inj h
        intro hx
        cases hx
    | append_singleton run a ih =>
        intro hx
        obtain ⟨t, ht, hlast⟩ := exec_append_eq_some h
        have hnext : R.next t a = some s := by simpa using hlast
        have hold : x ∈ t.taken i → R.Queued (run ++ [a]) i x := by
          intro hx
          obtain ⟨pre, u, hpre, hu, hq⟩ := ih ht hx
          exact ⟨pre, u, hpre.trans (List.prefix_append run [a]), hu, hq⟩
        rcases taken_next hnext i with heq | ⟨y, heq, hy⟩
        · exact hold (heq ▸ hx)
        · rw [heq] at hx
          rcases List.mem_append.mp hx with hx | hx
          · exact hold hx
          · obtain rfl := List.mem_singleton.mp hx
            exact ⟨run ++ [a], s, List.prefix_rfl, h, hy⟩

/-! ## Streams that can be tolerated -/

/-- The records taken from a socket, as pieces of its stream. -/
theorem Inv.pieces (h : R.Inv s) (i : ι) :
    (∀ c ∈ (s.taken i).map Prod.snd, c.length = R.count i) ∧
      ((s.taken i).map Prod.snd).flatten ++ (s.pos.held i ++ s.inbox i) =
        (wellFramed (R.count i) (s.arrived i)).flatten ++ tailFrames (R.count i) (s.arrived i) := by
  constructor
  · intro c hc
    obtain ⟨x, hx, rfl⟩ := List.mem_map.mp hc
    exact h.length hx
  · rw [← stream_eq, ← h.whole i, List.flatMap_def]

theorem length_of_mem_wellFramed {n : ℕ} {ms : List (Message φ)} {c : List (ℕ × φ)}
    (h : c ∈ wellFramed n ms) : c.length = n := by
  obtain ⟨k, m, -, hm, rfl⟩ := mem_wellFramed h
  rw [length_tagged, hm]

/-- With a short tail only well framed messages before it were taken; what was not is left
in front of the tail. -/
theorem Inv.taken_prefix (h : R.Inv s) {i : ι}
    (hshort : ((tail (R.count i) (s.arrived i)).flatMap Message.frames).length < R.count i) :
    ∃ zs, wellFramed (R.count i) (s.arrived i) = (s.taken i).map Prod.snd ++ zs ∧
      zs.flatten ++ tailFrames (R.count i) (s.arrived i) = s.pos.held i ++ s.inbox i := by
  obtain ⟨hlen, heq⟩ := h.pieces i
  refine chunks_split (fun c hc => length_of_mem_wellFramed hc) hlen ?_ heq.symm
  rwa [length_tailFrames]

theorem Inv.genuine (h : R.Inv s) (ht : R.Tolerable s.arrived) {i : ι} {x : Record φ ρ}
    (hx : x ∈ s.taken i) : ∃ k m, (s.arrived i)[k]? = some m ∧ R.IsMessage i k m x := by
  obtain ⟨zs, hzs, -⟩ := h.taken_prefix (ht.short i)
  have hmem : x.2 ∈ wellFramed (R.count i) (s.arrived i) := by
    rw [hzs]
    exact List.mem_append.mpr (.inl (List.mem_map_of_mem hx))
  obtain ⟨k, m, hk, hm, heq⟩ := mem_wellFramed hmem
  have hb := h.built i x hx
  rw [heq, map_snd_tagged] at hb
  exact ⟨k, m, hk, hm, heq, hb⟩

/-- A socket that has been read to the end: all messages before the tail are taken, and the
thread holds the tail. -/
theorem Inv.read_all (h : R.Inv s) {i : ι} (hin : s.inbox i = [])
    (hshort : ((tail (R.count i) (s.arrived i)).flatMap Message.frames).length < R.count i) :
    wellFramed (R.count i) (s.arrived i) = (s.taken i).map Prod.snd ∧
      tailFrames (R.count i) (s.arrived i) = s.pos.held i := by
  obtain ⟨zs, hzs, hrest⟩ := h.taken_prefix hshort
  rw [hin, List.append_nil] at hrest
  have hnil : zs = [] := by
    refine chunks_eq_nil (n := R.count i) (fun z hz => ?_) ?_
    · have hmem : z ∈ wellFramed (R.count i) (s.arrived i) := by
        rw [hzs]
        exact List.mem_append.mpr (.inr hz)
      exact length_of_mem_wellFramed hmem
    · have hlen := congrArg List.length hrest
      have hheld := h.short i
      rw [List.length_append] at hlen
      omega
  subst hnil
  exact ⟨hzs.trans (List.append_nil _), hrest⟩

theorem Inv.complete_of_read (h : R.Inv s) {i : ι} (hin : s.inbox i = [])
    (hshort : ((tail (R.count i) (s.arrived i)).flatMap Message.frames).length < R.count i)
    {k : ℕ} {m : Message φ} (hk : (s.arrived i)[k]? = some m) (hm : m.frames.length = R.count i) :
    ∃ x ∈ s.taken i, R.IsMessage i k m x := by
  have hmem := tagged_mem_wellFramed hshort hk hm
  rw [(h.read_all hin hshort).1] at hmem
  obtain ⟨x, hx, heq⟩ := List.mem_map.mp hmem
  have hb := h.built i x hx
  rw [heq, map_snd_tagged] at hb
  exact ⟨x, hx, hm, heq, hb⟩

/-- Where the thread waits it has read everything, or everything of the socket that it
holds frames of. -/
theorem Inv.quiet (h : R.Inv s) (hq : R.Quiet s) :
    (∀ i, s.inbox i = []) ∨ ∃ i, s.inbox i = [] ∧ s.pos.held i ≠ [] := by
  simp only [Quiet, Receiver.advance] at hq
  have hfed := h.fed
  cases hpos : s.pos with
  | ready rest =>
      cases rest with
      | nil =>
          simp only [hpos] at hq
          split at hq
          case isTrue hempty =>
            left
            intro i
            rw [List.isEmpty_iff, List.filter_eq_nil_iff] at hempty
            simpa using hempty i (R.mem_sockets i)
          case isFalse => cases hq
      | cons i rest => simp [hpos] at hq
  | reading i held rest =>
      rw [hpos] at hfed
      cases hin : s.inbox i with
      | nil =>
          right
          refine ⟨i, hin, ?_⟩
          simp only [Pos.held, if_true]
          exact fun hnil => hfed.2.2 hnil hin
      | cons f fs =>
          simp only [hpos, hin] at hq
          split at hq
          · cases hq
          · cases hq

theorem Inv.complete (h : R.Inv s) (ht : R.Tolerable s.arrived) (hq : R.Quiet s) {i : ι} {k : ℕ}
    {m : Message φ} (hk : (s.arrived i)[k]? = some m) (hm : m.frames.length = R.count i) :
    ∃ x ∈ s.taken i, R.IsMessage i k m x := by
  rcases h.quiet hq with hall | ⟨j, hin, hheld⟩
  · exact h.complete_of_read (hall i) (ht.short i) hk hm
  · by_cases hij : i = j
    · subst hij
      exact h.complete_of_read hin (ht.short i) hk hm
    · -- the thread waits for the rest of a tail, so this socket has nothing to offer
      refine absurd hm (ht.alone j ?_ i hij m (List.mem_of_getElem? hk))
      intro hnil
      have htail := (h.read_all hin (ht.short j)).2
      rw [tailFrames, hnil] at htail
      exact hheld htail.symm

/-! ## Streams that cannot -/

/-- A record that is cut out of a tail is not a message. -/
theorem Inv.short_of_genuine (h : R.Inv s) {i : ι} (hin : s.inbox i = [])
    (hg : ∀ x ∈ s.taken i, ∃ k m, (s.arrived i)[k]? = some m ∧ R.IsMessage i k m x) :
    ((tail (R.count i) (s.arrived i)).flatMap Message.frames).length < R.count i := by
  by_contra hlong
  rw [← length_tailFrames] at hlong
  obtain ⟨hlen, heq⟩ := h.pieces i
  rw [hin, List.append_nil] at heq
  obtain ⟨zs, hzs, hrest⟩ :=
    chunks_split hlen (fun c hc => length_of_mem_wellFramed hc) (h.short i) heq
  -- the first record of the tail starts with the frame that the tail starts with
  cases zs with
  | nil =>
      have hshort := h.short i
      rw [List.flatten_nil, List.nil_append] at hrest
      rw [← hrest] at hlong
      exact hlong hshort
  | cons z zs =>
      have hz : z ∈ (s.taken i).map Prod.snd := by
        rw [hzs]
        exact List.mem_append.mpr (.inr List.mem_cons_self)
      obtain ⟨x, hx, rfl⟩ := List.mem_map.mp hz
      obtain ⟨k, m, hk, hm, hxm, -⟩ := hg x hx
      rw [hxm, List.flatten_cons, List.append_assoc] at hrest
      cases htail : tail (R.count i) (s.arrived i) with
      | nil =>
          rw [tailFrames, htail] at hrest
          simp [tagged, Message.frames] at hrest
      | cons b bs =>
          obtain ⟨hbad, hb, rest, hframes⟩ := tail_cons htail
          rw [hframes] at hrest
          simp only [tagged, Message.frames, List.map_cons, List.cons_append, List.cons.injEq,
            Prod.mk.injEq] at hrest
          rw [hrest.1.1, hb] at hk
          exact hbad (Option.some.inj hk ▸ hm)

/-- Messages arrive on a socket. -/
theorem exec_arrive (i : ι) (ms : List (Message φ)) (s : State ι φ ρ) :
    ∃ inbox, exec R.next s (ms.map (.arrive i)) = some { s with
      inbox := Function.update s.inbox i inbox
      arrived := Function.update s.arrived i (s.arrived i ++ ms) } := by
  induction ms generalizing s with
  | nil => exact ⟨s.inbox i, by simp⟩
  | cons m ms ih =>
      obtain ⟨inbox, hrun⟩ := ih { s with
        inbox := Function.update s.inbox i (s.inbox i ++ tagged (s.arrived i).length m)
        arrived := Function.update s.arrived i (s.arrived i ++ [m]) }
      refine ⟨inbox, ?_⟩
      rw [List.map_cons, exec_cons, next, Option.bind_some, hrun]
      simp [List.append_assoc]

/-- The messages of other sockets arrive: the thread does not notice. -/
theorem exec_arrive_others (ms : ι → List (Message φ)) {i : ι} {l : List ι} (hl : l.Nodup)
    (hi : i ∉ l) (s : State ι φ ρ) :
    ∃ inbox, exec R.next s (l.flatMap fun j => (ms j).map (.arrive j)) = some { s with
      inbox := inbox
      arrived := fun j => if j ∈ l then s.arrived j ++ ms j else s.arrived j } ∧
      inbox i = s.inbox i := by
  induction l generalizing s with
  | nil => exact ⟨s.inbox, by simp⟩
  | cons j l ih =>
      obtain ⟨hj, hl⟩ := List.nodup_cons.mp hl
      obtain ⟨hne, hi⟩ := not_or.mp fun h => hi (List.mem_cons.mpr h)
      obtain ⟨inboxj, hrunj⟩ := exec_arrive (R := R) j (ms j) s
      obtain ⟨inbox, hrun, hsame⟩ := ih hl hi { s with
        inbox := Function.update s.inbox j inboxj
        arrived := Function.update s.arrived j (s.arrived j ++ ms j) }
      refine ⟨inbox, ?_, hsame.trans (Function.update_of_ne hne _ _)⟩
      rw [List.flatMap_cons, exec_trans hrunj hrun]
      refine congrArg (fun a => some { s with inbox := inbox, arrived := a }) (funext fun k => ?_)
      by_cases hkj : k = j
      · subst hkj
        simp [hj]
      · simp [hkj]

/-- The thread reads a socket to the end while the others are empty. -/
theorem exec_read (i : ι) (fs : List (ℕ × φ)) (s : State ι φ ρ) (hin : s.inbox i = fs)
    (hothers : ∀ j, j ≠ i → s.inbox j = [])
    (hpos : s.pos = .ready [] ∨ ∃ held, s.pos = .reading i held []) :
    ∃ run t, exec R.next s run = some t ∧ t.inbox = (fun _ => []) ∧ t.arrived = s.arrived := by
  induction fs generalizing s with
  | nil =>
      refine ⟨[], s, rfl, funext fun j => ?_, rfl⟩
      by_cases hj : j = i
      · exact hj ▸ hin
      · exact hothers j hj
  | cons f fs ih =>
      -- from a receive in progress, the frame is read
      have hread : ∀ u : State ι φ ρ, u.inbox = s.inbox → u.arrived = s.arrived →
          (∃ held, u.pos = .reading i held []) → ∃ run t, exec R.next u run = some t ∧
            t.inbox = (fun _ => []) ∧ t.arrived = s.arrived := by
        rintro u hu ha ⟨held, hheld⟩
        have hui : u.inbox i = f :: fs := by rw [hu, hin]
        have huj : ∀ j, j ≠ i → Function.update u.inbox i fs j = [] := by
          intro j hj
          rw [Function.update_of_ne hj, hu]
          exact hothers j hj
        obtain ⟨v, hv, hvin, hva, hvpos⟩ : ∃ v, R.advance u = some v ∧
            v.inbox = Function.update u.inbox i fs ∧ v.arrived = u.arrived ∧
            (v.pos = .ready [] ∨ ∃ held, v.pos = .reading i held []) := by
          simp only [Receiver.advance, hheld, hui]
          cases R.build i ((held ++ [f]).map Prod.snd) with
          | none => exact ⟨_, rfl, rfl, rfl, .inr ⟨_, rfl⟩⟩
          | some r => exact ⟨_, rfl, rfl, rfl, .inl rfl⟩
        obtain ⟨run, t, ht, htin, hta⟩ := ih v (by rw [hvin, Function.update_self])
          (fun j hj => by rw [hvin]; exact huj j hj) hvpos
        refine ⟨.advance :: run, t, ?_, htin, hta.trans (hva.trans ha)⟩
        rw [exec_cons, next, hv, Option.bind_some, ht]
      rcases hpos with hready | hreading
      · -- a poll reports this socket alone
        have hpoll : R.sockets.filter (fun j => !(s.inbox j).isEmpty) = [i] := by
          have hcongr : R.sockets.filter (fun j => !(s.inbox j).isEmpty) =
              R.sockets.filter (fun j => decide (j = i)) := by
            refine List.filter_congr fun j _ => ?_
            by_cases hj : j = i
            · simp [hj, hin]
            · simp [hj, hothers j hj]
          rw [hcongr, List.filter_eq, List.count_eq_one_of_mem R.nodup (R.mem_sockets i)]
          rfl
        obtain ⟨run, t, ht, htin, hta⟩ :=
          hread { s with pos := .reading i [] [] } rfl rfl ⟨[], rfl⟩
        refine ⟨.advance :: .advance :: run, t, ?_, htin, hta⟩
        have hfirst : R.advance s = some { s with pos := .ready [i] } := by
          simp [Receiver.advance, hready, hpoll]
        rw [exec_cons, next, hfirst, Option.bind_some, exec_cons, next]
        simpa [Receiver.advance] using ht
      · exact hread s rfl rfl hreading

/-- All messages of a socket may arrive and be read before those of the others arrive. -/
theorem exists_first (R : Receiver ι φ ρ) (ms : ι → List (Message φ)) (i : ι) :
    ∃ run s, exec R.next {} run = some s ∧ s.arrived = ms ∧ s.inbox i = [] ∧
      ∀ j, j ≠ i → s.taken j = [] := by
  obtain ⟨inbox, harrive⟩ := exec_arrive (R := R) i (ms i) {}
  obtain ⟨run, t, hread, htin, hta⟩ := exec_read (R := R) i inbox
    { inbox := Function.update (fun _ => []) i inbox
      arrived := Function.update (fun _ => []) i ([] ++ ms i) }
    (by simp) (fun j hj => by simp [hj]) (.inl rfl)
  have hfirst := exec_trans harrive hread
  have hinv := inv_run hfirst
  obtain ⟨inbox', hrest, hsame⟩ := exec_arrive_others (R := R) ms
    (R.nodup.filter fun j => decide (j ≠ i)) (i := i) (by simp) t
  refine ⟨_, _, exec_trans hfirst hrest, ?_, hsame.trans (congrFun htin i), ?_⟩
  · refine funext fun j => ?_
    by_cases hj : j = i
    · subst hj
      simp [hta]
    · simp [hta, hj, R.mem_sockets]
  · intro j hj
    -- nothing had arrived here when the thread stopped
    have hwhole := hinv.whole j
    rw [hta] at hwhole
    simp only [Function.update_of_ne hj, tagAll, List.mapIdx_nil, List.flatten_nil,
      List.append_eq_nil_iff] at hwhole
    cases htaken : t.taken j with
    | nil => rfl
    | cons x l =>
        have hlen := hinv.length (i := j) (x := x) (by rw [htaken]; exact List.mem_cons_self)
        have hpos := R.count_pos j
        rw [htaken, List.flatMap_cons, List.append_eq_nil_iff] at hwhole
        rw [hwhole.1.1, List.length_nil] at hlen
        omega

/-- A thread that holds frames of a socket without more waits. -/
theorem quiet_of_held {i : ι} (hin : s.inbox i = []) (hheld : s.pos.held i ≠ []) : R.Quiet s := by
  cases hpos : s.pos with
  | ready rest =>
      rw [hpos] at hheld
      exact absurd rfl hheld
  | reading j held rest =>
      rw [hpos, Pos.held] at hheld
      split at hheld
      case isTrue hj =>
        subst hj
        simp [Quiet, Receiver.advance, hpos, hin]
      case isFalse => exact absurd rfl hheld

/-- **The receiver stays aligned with the messages exactly of tolerable streams.** -/
theorem staysAligned_iff (R : Receiver ι φ ρ) (ms : ι → List (Message φ)) :
    R.StaysAligned ms ↔ R.Tolerable ms := by
  constructor
  · intro h
    have hshort : ∀ i, ((tail (R.count i) (ms i)).flatMap Message.frames).length < R.count i := by
      intro i
      obtain ⟨run, s, hrun, rfl, hin, -⟩ := exists_first R ms i
      obtain ⟨hgenuine, -⟩ := h run s hrun rfl
      exact (inv_run hrun).short_of_genuine hin fun x hx => hgenuine i x ((queued_iff hrun).mpr hx)
    refine ⟨hshort, fun i htail j hj m hm hlen => ?_⟩
    obtain ⟨run, s, hrun, rfl, hin, hothers⟩ := exists_first R ms i
    have hinv := inv_run hrun
    -- the tail is held, so the thread waits and never takes the message of the other socket
    have hheld : s.pos.held i ≠ [] := by
      obtain ⟨b, bs, hcons⟩ := List.exists_cons_of_ne_nil htail
      obtain ⟨-, -, rest, hframes⟩ := tail_cons hcons
      rw [← (hinv.read_all hin (hshort i)).2, hframes]
      simp [tagged, Message.frames]
    obtain ⟨k, hk⟩ := List.mem_iff_getElem?.mp hm
    obtain ⟨x, hx, -⟩ := (h run s hrun rfl).2 (quiet_of_held hin hheld) j k m hk hlen
    rw [queued_iff hrun, hothers j hj] at hx
    cases hx
  · rintro ht run s hrun rfl
    have hinv := inv_run hrun
    refine ⟨fun i x hx => hinv.genuine ht ((queued_iff hrun).mp hx), fun hq i k m hk hm => ?_⟩
    obtain ⟨x, hx, hmessage⟩ := hinv.complete ht hq hk hm
    exact ⟨x, (queued_iff hrun).mpr hx, hmessage⟩

end Receiver
end Framing
