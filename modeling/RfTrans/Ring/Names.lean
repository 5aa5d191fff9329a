import RfTrans.Lib.Exec
import RfTrans.Ring.Transport

/-!
# Who owns the name of a ring

`writer_rings_` holds a ring for each topic under `writer_rings_mutex_`; a publisher
that looked one up keeps a `shared_ptr` to it while it writes, and whoever gives up
the last one runs the destructor, which unlinks the name outside any lock.  This
module interleaves the publishers of any number of threads with `unadvertise` calls.

The threads have no names here: what they hold is kept as a multiset of references,
and a step is taken by whichever thread holds what it needs.

## Main definitions

* `WriterRings` — the table with its mutex, the references and the shm namespace.
* `WriterRings.next` — one step of one thread.
* `WriterRings.OwnsNames` — every ring of the table is what its name is bound to.
* `WriterRings.owns_names` — when that is so in every state.
-/

namespace RfTrans

open Exec

/-- An entry of `writer_rings_` with the slot size of the ring. -/
structure SizedRing extends WriterRing where
  slotSize : ℕ
  deriving DecidableEq

/-- How far `createAsWriter` is. -/
inductive CreateStage
  | begun
  /-- The name has been unlinked. -/
  | cleaned
  /-- `shm_open` has made the segment. -/
  | opened
  deriving DecidableEq

/-- What the thread that has `writer_rings_mutex_` is at. -/
inductive Locked
  | creating (topic : Str) (ring : SizedRing) (stage : CreateStage)
  /-- `removeWriterRing` runs the destructor of the ring it erased. -/
  | erasing (ring : SizedRing)

/-- `writer_rings_` in the middle of what the threads do with it. -/
structure WriterRings where
  writerRings : StrMap SizedRing := ∅
  /-- `writer_rings_mutex_`: free, or what its owner is at. -/
  mutex : Option Locked := none
  /-- One `shared_ptr` for each publish that writes. -/
  writing : List SizedRing := []
  /-- The rings whose last reference is gone and whose destructor is running. -/
  dying : List SizedRing := []
  /-- The names that `shm_open` finds. -/
  shm : StrMap ℕ := ∅
  created : ℕ := 0

namespace WriterRings

/-- The steps of the threads. -/
inductive Action
  /-- `writerRingFor` takes the mutex and looks the topic up. -/
  | lookUp (topic : Str) (requiredSize : ℕ)
  /-- `createAsWriter` unlinks the name. -/
  | cleanUp
  /-- `shm_open`; `ok` says whether the system can do it. -/
  | shmOpen (ok : Bool)
  /-- `ftruncate` and `mmap`, and the rest of `writerRingFor`. -/
  | map (ok : Bool)
  /-- A publish gives its reference up. -/
  | drop (ring : SizedRing)
  /-- `~ShmRing` unlinks the name. -/
  | destroy (ring : SizedRing)
  /-- `removeWriterRing` takes the mutex and erases the entry. -/
  | removeWriterRing (topic : Str)
  /-- `~ShmRing` of the erased ring, still under the mutex. -/
  | destroyErased
  deriving DecidableEq

variable (hash : Str → UInt64) (processUuid : Str)

/-- The name that a ring of the topic has in the shm namespace. -/
def shmName (topic : Str) : Str := cStr (makeShmName hash topic processUuid)

/-- A reference to the ring is left, in the table or with a publish. -/
def referenced (s : WriterRings) (ring : SizedRing) : Prop :=
  ring ∈ s.writing ∨ ring ∈ s.writerRings.toList.map (·.2)

instance (s : WriterRings) (ring : SizedRing) : Decidable (s.referenced ring) :=
  inferInstanceAs (Decidable (_ ∨ _))

/-- One step of one thread. -/
def next (s : WriterRings) : Action → Option WriterRings
  | .lookUp topic requiredSize =>
    match s.mutex with
    | some _ => none
    | none =>
      match s.writerRings[topic]? with
      | some ring =>
        if ring.slotSize < requiredSize then some s
        else some { s with writing := ring :: s.writing }
      | none =>
        let ring : SizedRing :=
          { name := makeShmName hash topic processUuid
            seg := s.created
            slotSize := Transport.slotSizeFor requiredSize }
        some { s with mutex := some (.creating topic ring .begun), created := s.created + 1 }
  | .cleanUp =>
    match s.mutex with
    | some (.creating topic ring .begun) =>
      some { s with
        mutex := some (.creating topic ring .cleaned)
        shm := s.shm.erase (cStr ring.name) }
    | _ => none
  | .shmOpen ok =>
    match s.mutex with
    | some (.creating topic ring .cleaned) =>
      if ok ∧ s.shm[cStr ring.name]? = none then
        some { s with
          mutex := some (.creating topic ring .opened)
          shm := s.shm.insert (cStr ring.name) ring.seg }
      else some { s with mutex := none }
    | _ => none
  | .map ok =>
    match s.mutex with
    | some (.creating topic ring .opened) =>
      if ok then
        some { s with
          mutex := none
          writerRings := s.writerRings.insert topic ring
          writing := ring :: s.writing }
      else some { s with mutex := none, shm := s.shm.erase (cStr ring.name) }
    | _ => none
  | .drop ring =>
    if ring ∈ s.writing then
      let s := { s with writing := s.writing.erase ring }
      if s.referenced ring then some s else some { s with dying := ring :: s.dying }
    else none
  | .destroy ring =>
    if ring ∈ s.dying then
      some { s with dying := s.dying.erase ring, shm := s.shm.erase (cStr ring.name) }
    else none
  | .removeWriterRing topic =>
    match s.mutex with
    | some _ => none
    | none =>
      match s.writerRings[topic]? with
      | none => some s
      | some ring =>
        let s := { s with writerRings := s.writerRings.erase topic }
        if s.referenced ring then some s else some { s with mutex := some (.erasing ring) }
  | .destroyErased =>
    match s.mutex with
    | some (.erasing ring) => some { s with mutex := none, shm := s.shm.erase (cStr ring.name) }
    | _ => none

/-- Every ring of the table is what its name is bound to, so that is what a reader opens. -/
def OwnsNames (s : WriterRings) : Prop :=
  ∀ (topic : Str) (ring : SizedRing), s.writerRings[topic]? = some ring →
    s.shm[cStr ring.name]? = some ring.seg ∧
    ∀ handle : SlotHandle,
      s.shm[(Transport.descriptorOf ring.toWriterRing handle).shmName]? = some ring.seg

/-- The name belongs to a ring of the table, or to one that is being created. -/
def Taken (s : WriterRings) (name : Str) : Prop :=
  (∃ (topic : Str) (ring : SizedRing), s.writerRings[topic]? = some ring ∧
      cStr ring.name = name) ∨
    ∃ topic ring, s.mutex = some (.creating topic ring .opened) ∧ cStr ring.name = name

instance (s : WriterRings) (name : Str) : Decidable (s.Taken name) :=
  have : Decidable (∃ topic ring, s.mutex = some (.creating topic ring .opened) ∧
      cStr ring.name = name) :=
    match h : s.mutex with
    | some (.creating topic ring .opened) =>
      decidable_of_iff (cStr ring.name = name) (by simp)
    | some (.creating _ _ .begun) | some (.creating _ _ .cleaned) | some (.erasing _) | none =>
      isFalse (by simp)
  decidable_of_iff ((∃ x ∈ s.writerRings.toList, cStr x.2.name = name) ∨ _)
    (or_congr_left (by simp [Std.ExtTreeMap.mem_toList_iff_getElem?_eq_some]))

/-- The guard: a destructor that runs outside the mutex finds its name unused. -/
def Outlived (s : WriterRings) : Action → Prop
  | .destroy ring => ¬ s.Taken (cStr ring.name)
  | _ => True

instance (s : WriterRings) : (a : Action) → Decidable (s.Outlived a)
  | .destroy ring => inferInstanceAs (Decidable (¬ s.Taken (cStr ring.name)))
  | .lookUp _ _ | .cleanUp | .shmOpen _ | .map _ | .drop _ | .removeWriterRing _
  | .destroyErased => isTrue trivial

/-- The topics that a run publishes. -/
def topicsOf (run : List Action) : Set Str := {topic | ∃ n, .lookUp topic n ∈ run}

/-! ## The invariant -/

/-- What holds between the steps, when the topics that are published are among `topics`. -/
structure Inv (topics : Set Str) (s : WriterRings) : Prop where
  named : ∀ (topic : Str) (ring : SizedRing), s.writerRings[topic]? = some ring →
    topic ∈ topics ∧ ring.name = makeShmName hash topic processUuid
  owned : ∀ (topic : Str) (ring : SizedRing), s.writerRings[topic]? = some ring →
    s.shm[cStr ring.name]? = some ring.seg
  creating : ∀ topic ring stage, s.mutex = some (.creating topic ring stage) →
    topic ∈ topics ∧ ring.name = makeShmName hash topic processUuid ∧
      s.writerRings[topic]? = none ∧
      (stage = .opened → s.shm[cStr ring.name]? = some ring.seg)
  erasing : ∀ ring, s.mutex = some (.erasing ring) →
    ∃ topic ∈ topics, ring.name = makeShmName hash topic processUuid ∧
      s.writerRings[topic]? = none

variable {hash processUuid} {topics : Set Str} {s t : WriterRings}

/-- A topic without an entry has a name that no entry has. -/
theorem Inv.name_ne (hi : s.Inv hash processUuid topics)
    (hnames : Set.InjOn (shmName hash processUuid) topics) {topic topic' : Str}
    {ring ring' : SizedRing} (ht : topic ∈ topics)
    (hname : ring.name = makeShmName hash topic processUuid)
    (hnone : s.writerRings[topic]? = none) (h : s.writerRings[topic']? = some ring') :
    cStr ring'.name ≠ cStr ring.name := by
  intro heq
  obtain ⟨ht', hname'⟩ := hi.named topic' ring' h
  rw [hname, hname'] at heq
  have htopic : topic' = topic := hnames ht' ht heq
  rw [htopic, hnone] at h
  cases h

/-- Unlinking a name that no entry has. -/
theorem Inv.owned_erase (hi : s.Inv hash processUuid topics) {name : Str}
    (hfree : ∀ (topic : Str) (ring : SizedRing), s.writerRings[topic]? = some ring →
      cStr ring.name ≠ name) (topic : Str) (ring : SizedRing)
    (h : s.writerRings[topic]? = some ring) :
    (s.shm.erase name)[cStr ring.name]? = some ring.seg := by
  rw [StrMap.getElem?_erase_of_ne _ (hfree topic ring h)]
  exact hi.owned topic ring h

/-- The table is free while no one creates or erases. -/
theorem Inv.of_unlocked (hnamed : ∀ (topic : Str) (ring : SizedRing),
      t.writerRings[topic]? = some ring →
      topic ∈ topics ∧ ring.name = makeShmName hash topic processUuid)
    (howned : ∀ (topic : Str) (ring : SizedRing), t.writerRings[topic]? = some ring →
      t.shm[cStr ring.name]? = some ring.seg) (hmutex : t.mutex = none) :
    t.Inv hash processUuid topics where
  named := hnamed
  owned := howned
  creating topic ring stage h := by
    rw [hmutex] at h
    cases h
  erasing ring h := by
    rw [hmutex] at h
    cases h

/-! ## Steps -/

theorem Inv.lookUp (hi : s.Inv hash processUuid topics) {topic : Str} {requiredSize : ℕ}
    (ht : topic ∈ topics) (h : next hash processUuid s (.lookUp topic requiredSize) = some t) :
    t.Inv hash processUuid topics := by
  simp only [next] at h
  cases hm : s.mutex with
  | some l =>
      rw [hm] at h
      cases h
  | none =>
      simp only [hm] at h
      cases hr : s.writerRings[topic]? with
      | some ring =>
          simp only [hr] at h
          by_cases hsize : ring.slotSize < requiredSize
          · rw [if_pos hsize] at h
            obtain rfl := Option.some.inj h
            exact hi
          · rw [if_neg hsize] at h
            obtain rfl := Option.some.inj h
            exact Inv.of_unlocked hi.named hi.owned rfl
      | none =>
          simp only [hr] at h
          obtain rfl := Option.some.inj h
          refine ⟨hi.named, hi.owned, ?_, nofun⟩
          intro topic' ring' stage hc
          injection hc with hc
          injection hc with htopic hring hstage
          subst htopic hring hstage
          exact ⟨ht, rfl, hr, nofun⟩

theorem Inv.cleanUp (hi : s.Inv hash processUuid topics)
    (hnames : Set.InjOn (shmName hash processUuid) topics)
    (h : next hash processUuid s .cleanUp = some t) : t.Inv hash processUuid topics := by
  simp only [next] at h
  split at h
  case h_1 topic ring hm =>
    obtain rfl := Option.some.inj h
    obtain ⟨ht, hname, hnone, -⟩ := hi.creating topic ring _ hm
    refine ⟨hi.named, ?_, ?_, nofun⟩
    · exact hi.owned_erase fun topic' ring' hr => hi.name_ne hnames ht hname hnone hr
    · intro topic' ring' stage hc
      injection hc with hc
      injection hc with htopic hring hstage
      subst htopic hring hstage
      exact ⟨ht, hname, hnone, nofun⟩
  case h_2 => cases h

theorem Inv.shmOpen (hi : s.Inv hash processUuid topics)
    (hnames : Set.InjOn (shmName hash processUuid) topics) {ok : Bool}
    (h : next hash processUuid s (.shmOpen ok) = some t) : t.Inv hash processUuid topics := by
  simp only [next] at h
  split at h
  case h_1 topic ring hm =>
    obtain ⟨ht, hname, hnone, -⟩ := hi.creating topic ring _ hm
    by_cases hok : ok = true ∧ s.shm[cStr ring.name]? = none
    · rw [if_pos hok] at h
      obtain rfl := Option.some.inj h
      refine ⟨hi.named, ?_, ?_, nofun⟩
      · intro topic' ring' hr
        refine Eq.trans ?_ (hi.owned topic' ring' hr)
        exact StrMap.getElem?_insert_of_ne _ (hi.name_ne hnames ht hname hnone hr) _
      · intro topic' ring' stage hc
        injection hc with hc
        injection hc with htopic hring hstage
        subst htopic hring hstage
        exact ⟨ht, hname, hnone, fun _ => Std.ExtTreeMap.getElem?_insert_self⟩
    · rw [if_neg hok] at h
      obtain rfl := Option.some.inj h
      exact Inv.of_unlocked hi.named hi.owned rfl
  case h_2 => cases h

theorem Inv.map (hi : s.Inv hash processUuid topics)
    (hnames : Set.InjOn (shmName hash processUuid) topics) {ok : Bool}
    (h : next hash processUuid s (.map ok) = some t) : t.Inv hash processUuid topics := by
  simp only [next] at h
  split at h
  case h_1 topic ring hm =>
    obtain ⟨ht, hname, hnone, hopened⟩ := hi.creating topic ring _ hm
    cases ok with
    | true =>
        obtain rfl := Option.some.inj h
        refine Inv.of_unlocked ?_ ?_ rfl
        · intro topic' ring' hr
          rcases StrMap.getElem?_of_insert _ hr with ⟨rfl, rfl⟩ | ⟨-, hr⟩
          · exact ⟨ht, hname⟩
          · exact hi.named topic' ring' hr
        · intro topic' ring' hr
          rcases StrMap.getElem?_of_insert _ hr with ⟨rfl, rfl⟩ | ⟨-, hr⟩
          · exact hopened rfl
          · exact hi.owned topic' ring' hr
    | false =>
        obtain rfl := Option.some.inj h
        refine Inv.of_unlocked hi.named ?_ rfl
        exact hi.owned_erase fun topic' ring' hr => hi.name_ne hnames ht hname hnone hr
  case h_2 => cases h

theorem Inv.drop (hi : s.Inv hash processUuid topics) {ring : SizedRing}
    (h : next hash processUuid s (.drop ring) = some t) : t.Inv hash processUuid topics := by
  simp only [next] at h
  split at h
  case isTrue =>
    split at h
    all_goals
      obtain rfl := Option.some.inj h
      exact ⟨hi.named, hi.owned, hi.creating, hi.erasing⟩
  case isFalse => cases h

theorem Inv.destroy (hi : s.Inv hash processUuid topics) {ring : SizedRing}
    (hfree : ¬ s.Taken (cStr ring.name))
    (h : next hash processUuid s (.destroy ring) = some t) : t.Inv hash processUuid topics := by
  simp only [next] at h
  by_cases hd : ring ∈ s.dying
  · rw [if_pos hd] at h
    obtain rfl := Option.some.inj h
    refine ⟨hi.named, ?_, ?_, hi.erasing⟩
    · exact hi.owned_erase fun topic' ring' hr hname => hfree (.inl ⟨topic', ring', hr, hname⟩)
    · intro topic' ring' stage hm
      obtain ⟨ht, hname, hnone, hopened⟩ := hi.creating topic' ring' stage hm
      refine ⟨ht, hname, hnone, ?_⟩
      rintro rfl
      refine Eq.trans ?_ (hopened rfl)
      exact StrMap.getElem?_erase_of_ne _ fun heq => hfree (.inr ⟨topic', ring', hm, heq⟩)
  · rw [if_neg hd] at h
    cases h

theorem Inv.removeWriterRing (hi : s.Inv hash processUuid topics) {topic : Str}
    (h : next hash processUuid s (.removeWriterRing topic) = some t) :
    t.Inv hash processUuid topics := by
  simp only [next] at h
  cases hm : s.mutex with
  | some l =>
      rw [hm] at h
      cases h
  | none =>
      simp only [hm] at h
      cases hr : s.writerRings[topic]? with
      | none =>
          simp only [hr] at h
          obtain rfl := Option.some.inj h
          exact hi
      | some ring =>
          simp only [hr] at h
          obtain ⟨ht, hname⟩ := hi.named topic ring hr
          have hnamed : ∀ (topic' : Str) (ring' : SizedRing),
              (s.writerRings.erase topic)[topic']? = some ring' →
              topic' ∈ topics ∧ ring'.name = makeShmName hash topic' processUuid :=
            fun topic' ring' hr' => hi.named topic' ring' (StrMap.getElem?_of_erase _ hr').2
          have howned : ∀ (topic' : Str) (ring' : SizedRing),
              (s.writerRings.erase topic)[topic']? = some ring' →
              s.shm[cStr ring'.name]? = some ring'.seg :=
            fun topic' ring' hr' => hi.owned topic' ring' (StrMap.getElem?_of_erase _ hr').2
          split at h
          case isTrue =>
            obtain rfl := Option.some.inj h
            exact Inv.of_unlocked hnamed howned rfl
          case isFalse =>
            obtain rfl := Option.some.inj h
            refine ⟨hnamed, howned, nofun, ?_⟩
            intro ring' hc
            injection hc with hc
            injection hc with hring
            subst hring
            exact ⟨topic, ht, hname, Std.ExtTreeMap.getElem?_erase_self⟩

theorem Inv.destroyErased (hi : s.Inv hash processUuid topics)
    (hnames : Set.InjOn (shmName hash processUuid) topics)
    (h : next hash processUuid s .destroyErased = some t) : t.Inv hash processUuid topics := by
  simp only [next] at h
  split at h
  case h_1 ring hm =>
    obtain rfl := Option.some.inj h
    obtain ⟨topic, ht, hname, hnone⟩ := hi.erasing ring hm
    refine Inv.of_unlocked hi.named ?_ rfl
    exact hi.owned_erase fun topic' ring' hr => hi.name_ne hnames ht hname hnone hr
  case h_2 => cases h

/-- **One step.** -/
theorem Inv.step (hi : s.Inv hash processUuid topics)
    (hnames : Set.InjOn (shmName hash processUuid) topics) {a : Action} (hg : s.Outlived a)
    (ha : ∀ topic n, a = .lookUp topic n → topic ∈ topics)
    (h : next hash processUuid s a = some t) : t.Inv hash processUuid topics := by
  cases a with
  | lookUp topic n => exact hi.lookUp (ha topic n rfl) h
  | cleanUp => exact hi.cleanUp hnames h
  | shmOpen ok => exact hi.shmOpen hnames h
  | map ok => exact hi.map hnames h
  | drop ring => exact hi.drop h
  | destroy ring => exact hi.destroy hg h
  | removeWriterRing topic => exact hi.removeWriterRing h
  | destroyErased => exact hi.destroyErased hnames h

theorem Inv.ownsNames (hi : s.Inv hash processUuid topics) : s.OwnsNames := by
  intro topic ring hr
  have howned := hi.owned topic ring hr
  refine ⟨howned, fun handle => ?_⟩
  have hname : (Transport.descriptorOf ring.toWriterRing handle).shmName = cStr ring.name := by
    simp only [Transport.descriptorOf, (hi.named topic ring hr).2, take_makeShmName]
  rw [hname]
  exact howned

/-- **A live ring owns its name.**  In every run in which a destructor that runs outside
the mutex finds its name unused, whatever the namespace held before. -/
theorem owns_names (hash : Str → UInt64) (processUuid : Str) (shm : StrMap ℕ) (run : List Action)
    (hnames : Set.InjOn (shmName hash processUuid) (topicsOf run))
    (hrun : Guarded (next hash processUuid) Outlived { shm := shm } run) :
    Always (next hash processUuid) OwnsNames { shm := shm } run := by
  have htopics : Guarded (next hash processUuid)
      (fun _ a => ∀ topic n, a = .lookUp topic n → topic ∈ topicsOf run) { shm := shm } run := by
    refine guarded_of_forall ?_ _
    rintro a ha - topic n rfl
    exact ⟨n, ha⟩
  have hstart : Inv hash processUuid (topicsOf run) { shm := shm } :=
    Inv.of_unlocked (by simp) (by simp) rfl
  exact always_of_invariant (fun s a t hi hg h => hi.step hnames hg.1 hg.2 h)
    (fun s hi => hi.ownsNames) hstart (hrun.and htopics)

/-- A destructor that finds the name in use takes it away from its owner. -/
theorem not_ownsNames_of_destroy {ring ring' : SizedRing} {topic : Str}
    (hr : s.writerRings[topic]? = some ring') (hname : cStr ring'.name = cStr ring.name)
    (h : next hash processUuid s (.destroy ring) = some t) : ¬ t.OwnsNames := by
  intro hown
  simp only [next] at h
  by_cases hd : ring ∈ s.dying
  · rw [if_pos hd] at h
    obtain rfl := Option.some.inj h
    have hbound : (s.shm.erase (cStr ring.name))[cStr ring'.name]? = some ring'.seg :=
      (hown topic ring' hr).1
    rw [hname, Std.ExtTreeMap.getElem?_erase_self] at hbound
    cases hbound
  · rw [if_neg hd] at h
    cases h

/-! ## Two publishers -/

/-- Creating a ring for the topic. -/
def creation (topic : Str) : List Action := [.lookUp topic 1, .cleanUp, .shmOpen true, .map true]

/-- The rings of process 4a for topic t. -/
def exampleRing (seg : ℕ) : SizedRing :=
  { name := makeShmName (fun _ => 7) (str "t") (str "4a"), seg := seg, slotSize := 4096 }

/-- A topic is given up while a publish still writes and created again once it is done. -/
def recreated : List Action :=
  creation (str "t") ++ [.removeWriterRing (str "t"), .drop (exampleRing 0),
    .destroy (exampleRing 0)] ++ creation (str "t")

theorem owns_names_recreated :
    Always (next (fun _ => 7) (str "4a")) OwnsNames {} recreated :=
  owns_names (fun _ => 7) (str "4a") ∅ recreated
    (by
      have htopics : topicsOf recreated = {str "t"} := by
        ext topic
        simp [topicsOf, recreated, creation]
      rw [htopics]
      exact Set.injOn_singleton _ _)
    (by decide)

/-- The topic is created again before the first publish is done. -/
def overtaken : List Action :=
  creation (str "t") ++ [.removeWriterRing (str "t")] ++ creation (str "t") ++
    [.drop (exampleRing 0), .destroy (exampleRing 0)]

/-- **The old ring takes the name of the new one with it.** -/
theorem overtaken_not_owned :
    ∃ s, exec (next (fun _ => 7) (str "4a")) {} overtaken = some s ∧
      s.writerRings[str "t"]? = some (exampleRing 1) ∧
      s.shm[cStr (exampleRing 1).name]? = none ∧ ¬ s.OwnsNames := by
  refine ⟨_, rfl, by decide, by decide, fun h => ?_⟩
  have hown := (h (str "t") (exampleRing 1) (by decide)).1
  revert hown
  decide

end WriterRings
end RfTrans
