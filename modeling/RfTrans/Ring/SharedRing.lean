import RfTrans.Ring.ShmRing

/-!
# A ring shared by writers and readers

Any number of threads publish through one ring and any number of readers look at
it.  A step of the machine is one atomic access of the code: the `fetch_add` of
`reserveWrite`, its store of the odd sequence value, a single payload byte, the
two stores of `commitWrite`, the sequence load of `beginRead`, the copy of a
single byte, the sequence load of `finishRead`.  Steps are sequentially consistent
and interleave freely.

## Main definitions

* `SharedRing` — the ring, the position of every thread and the commits made.
* `SharedRing.next` — one atomic step.
* `SharedRing.Step` — the same steps as a relation, for proofs by cases.
-/

namespace RfTrans

/-- Where a publishing thread is between `reserveWrite` and `commitWrite`. -/
inductive WriterPc
  /-- The thread holds no reservation. -/
  | idle
  /-- `fetch_add` returned the cursor; the odd value is not stored yet. -/
  | claimed (cursor size : ℕ)
  /-- `reserveWrite` returned; the payload is being written. -/
  | writing (reserved : ReservedSlot) (size : ℕ)
  /-- `commitWrite` stored the size; the even value is not stored yet. -/
  | sized (reserved : ReservedSlot) (size : ℕ)
  deriving DecidableEq

/-- Where a reader is between `beginRead` and `finishRead`, with the bytes it has
copied so far. -/
inductive ReaderPc
  | idle
  | reading (handle : SlotHandle) (copied : List (ℕ × UInt8))
  | finished (handle : SlotHandle) (copied : List (ℕ × UInt8)) (ok : Bool)
  deriving DecidableEq

/-- A handle that `commitWrite` returned and the payload of its slot at that
moment. -/
structure Commit where
  handle : SlotHandle
  payload : ℕ → UInt8

/-- One ring with its writer threads `ω` and its readers `ρ`. -/
structure SharedRing (ω ρ : Type) where
  ring : ShmRing
  writers : ω → WriterPc := fun _ => .idle
  readers : ρ → ReaderPc := fun _ => .idle
  commits : List Commit := []

namespace SharedRing

/-- The atomic steps. -/
inductive Action (ω ρ : Type)
  | fetchAdd (w : ω) (size : ℕ)
  | storeOdd (w : ω)
  | writeByte (w : ω) (off : ℕ) (b : UInt8)
  | storeSize (w : ω) (size : ℕ)
  | storeEven (w : ω)
  | abandon (w : ω)
  | beginRead (r : ρ) (handle : SlotHandle)
  | copyByte (r : ρ) (off : ℕ)
  | finishRead (r : ρ)

section Steps
variable {ω ρ : Type} [DecidableEq ω] [DecidableEq ρ]

/-- An access to the segment or the cursor. -/
def setRing (s : SharedRing ω ρ) (ring : ShmRing) : SharedRing ω ρ := { s with ring := ring }

/-- A thread moves on. -/
def setWriter (s : SharedRing ω ρ) (w : ω) (pc : WriterPc) : SharedRing ω ρ :=
  { s with writers := Function.update s.writers w pc }

/-- A reader moves on. -/
def setReader (s : SharedRing ω ρ) (r : ρ) (pc : ReaderPc) : SharedRing ω ρ :=
  { s with readers := Function.update s.readers r pc }

/-- `commitWrite` returns. -/
def addCommit (s : SharedRing ω ρ) (c : Commit) : SharedRing ω ρ :=
  { s with commits := c :: s.commits }

/-- The ring that `createAsWriter` sets up, before anyone uses it. -/
def create (slotSize slotCount : ℕ) : SharedRing ω ρ :=
  { ring := { slotSize := slotSize, slotCount := slotCount } }

/-- One atomic step of one thread. -/
def next (s : SharedRing ω ρ) : Action ω ρ → Option (SharedRing ω ρ)
  | .fetchAdd w size =>
    match s.writers w with
    | .idle =>
      -- An oversized request returns a null reservation and touches nothing.
      if s.ring.slotSize < size then some s
      else some ((s.setRing s.ring.fetchAdd).setWriter w (.claimed s.ring.writeCursor size))
    | _ => none
  | .storeOdd w =>
    match s.writers w with
    | .claimed cursor size =>
      let reserved := s.ring.reservation cursor
      some ((s.setRing (s.ring.storeSeq reserved.slotIndex reserved.beginSeq)).setWriter w
        (.writing reserved size))
    | _ => none
  | .writeByte w off b =>
    match s.writers w with
    | .writing reserved _ =>
      if off < s.ring.slotSize then
        some (s.setRing (s.ring.storeByte reserved.slotIndex off b))
      else none
    | _ => none
  | .storeSize w n =>
    match s.writers w with
    | .writing reserved size =>
      if n ≤ size then
        some ((s.setRing (s.ring.storeSize reserved.slotIndex (u32 n))).setWriter w
          (.sized reserved n))
      else none
    | _ => none
  | .storeEven w =>
    match s.writers w with
    | .sized reserved n =>
      let handle := ShmRing.handleOf reserved n
      let payload := (s.ring.slots handle.slotIndex).payload
      some (((s.setRing (s.ring.storeSeq handle.slotIndex handle.seq)).setWriter w .idle).addCommit
        ⟨handle, payload⟩)
    | _ => none
  | .abandon w =>
    match s.writers w with
    | .writing _ _ => some (s.setWriter w .idle)
    | _ => none
  | .beginRead r handle =>
    match s.readers r with
    | .reading _ _ => none
    | _ =>
      if (s.ring.beginRead handle).isSome then some (s.setReader r (.reading handle []))
      else some (s.setReader r .idle)
  | .copyByte r off =>
    match s.readers r with
    | .reading handle copied =>
      if off < handle.size then
        some (s.setReader r
          (.reading handle ((off, (s.ring.slots handle.slotIndex).payload off) :: copied)))
      else none
    | _ => none
  | .finishRead r =>
    match s.readers r with
    | .reading handle copied =>
      some (s.setReader r (.finished handle copied (s.ring.finishRead handle)))
    | _ => none

/-! ## What a step can do -/

/-- The steps one by one, with what must hold for each and where it leads. -/
inductive Step : SharedRing ω ρ → Action ω ρ → SharedRing ω ρ → Prop
  | reject {s w size} (hw : s.writers w = .idle) (hsize : s.ring.slotSize < size) :
      Step s (.fetchAdd w size) s
  | claim {s w size} (hw : s.writers w = .idle) (hsize : size ≤ s.ring.slotSize) :
      Step s (.fetchAdd w size)
        ((s.setRing s.ring.fetchAdd).setWriter w (.claimed s.ring.writeCursor size))
  | storeOdd {s w cursor size} (hw : s.writers w = .claimed cursor size) :
      Step s (.storeOdd w)
        ((s.setRing (s.ring.storeSeq (s.ring.reservation cursor).slotIndex
          (s.ring.reservation cursor).beginSeq)).setWriter w
            (.writing (s.ring.reservation cursor) size))
  | writeByte {s w off b reserved size} (hw : s.writers w = .writing reserved size)
      (hoff : off < s.ring.slotSize) :
      Step s (.writeByte w off b) 
        (s.setRing (s.ring.storeByte reserved.slotIndex off b))
  | storeSize {s w n reserved size} (hw : s.writers w = .writing reserved size)
      (hn : n ≤ size) :
      Step s (.storeSize w n)
        ((s.setRing (s.ring.storeSize reserved.slotIndex (u32 n))).setWriter w
          (.sized reserved n))
  | storeEven {s w n reserved} (hw : s.writers w = .sized reserved n) :
      Step s (.storeEven w)
        (((s.setRing (s.ring.storeSeq reserved.slotIndex
          (ShmRing.handleOf reserved n).seq)).setWriter w .idle).addCommit
            ⟨ShmRing.handleOf reserved n, (s.ring.slots reserved.slotIndex).payload⟩)
  | abandon {s w reserved size} (hw : s.writers w = .writing reserved size) :
      Step s (.abandon w) (s.setWriter w .idle)
  | beginFails {s r handle} (hr : ∀ h c, s.readers r ≠ .reading h c)
      (hb : ¬ (s.ring.beginRead handle).isSome) :
      Step s (.beginRead r handle) (s.setReader r .idle)
  | beginRead {s r handle} (hr : ∀ h c, s.readers r ≠ .reading h c)
      (hb : (s.ring.beginRead handle).isSome) :
      Step s (.beginRead r handle) (s.setReader r (.reading handle []))
  | copyByte {s r off handle copied} (hr : s.readers r = .reading handle copied)
      (hoff : off < handle.size) :
      Step s (.copyByte r off) (s.setReader r (.reading handle
        ((off, (s.ring.slots handle.slotIndex).payload off) :: copied)))
  | finishRead {s r handle copied} (hr : s.readers r = .reading handle copied) :
      Step s (.finishRead r)
        (s.setReader r (.finished handle copied (s.ring.finishRead handle)))

/-- The inversion of `next`; invariants are proved by cases on it. -/
theorem step_of_next {s t : SharedRing ω ρ} {a : Action ω ρ} (h : next s a = some t) :
    Step s a t := by
  cases a with
  | fetchAdd w size =>
      simp only [next] at h
      split at h
      case h_1 hw =>
        split at h
        case isTrue hsize => cases h; exact .reject hw hsize
        case isFalse hsize => cases h; exact .claim hw (Nat.le_of_not_lt hsize)
      case h_2 => cases h
  | storeOdd w =>
      simp only [next] at h
      split at h
      case h_1 hw => cases h; exact .storeOdd hw
      case h_2 => cases h
  | writeByte w off b =>
      simp only [next] at h
      split at h
      case h_1 hw =>
        split at h
        case isTrue hoff => cases h; exact .writeByte hw hoff
        case isFalse => cases h
      case h_2 => cases h
  | storeSize w n =>
      simp only [next] at h
      split at h
      case h_1 hw =>
        split at h
        case isTrue hn => cases h; exact .storeSize hw hn
        case isFalse => cases h
      case h_2 => cases h
  | storeEven w =>
      simp only [next] at h
      split at h
      case h_1 hw => cases h; exact .storeEven hw
      case h_2 => cases h
  | abandon w =>
      simp only [next] at h
      split at h
      case h_1 hw => cases h; exact .abandon hw
      case h_2 => cases h
  | beginRead r handle =>
      simp only [next] at h
      split at h
      case h_1 => cases h
      case h_2 hr =>
        split at h
        case isTrue hb => cases h; exact .beginRead hr hb
        case isFalse hb => cases h; exact .beginFails hr hb
  | copyByte r off =>
      simp only [next] at h
      split at h
      case h_1 hr =>
        split at h
        case isTrue hoff => cases h; exact .copyByte hr hoff
        case isFalse => cases h
      case h_2 => cases h
  | finishRead r =>
      simp only [next] at h
      split at h
      case h_1 hr => cases h; exact .finishRead hr
      case h_2 => cases h

end Steps

section Frame
variable {ω ρ : Type} (s : SharedRing ω ρ) (ring : ShmRing)

@[simp] theorem ring_setRing : (s.setRing ring).ring = ring := rfl
@[simp] theorem writers_setRing : (s.setRing ring).writers = s.writers := rfl
@[simp] theorem readers_setRing : (s.setRing ring).readers = s.readers := rfl
@[simp] theorem commits_setRing : (s.setRing ring).commits = s.commits := rfl
@[simp] theorem ring_addCommit (c : Commit) : (s.addCommit c).ring = s.ring := rfl
@[simp] theorem writers_addCommit (c : Commit) : (s.addCommit c).writers = s.writers := rfl
@[simp] theorem readers_addCommit (c : Commit) : (s.addCommit c).readers = s.readers := rfl
@[simp] theorem commits_addCommit (c : Commit) : (s.addCommit c).commits = c :: s.commits := rfl

section Writer
variable [DecidableEq ω] (w : ω)

@[simp] theorem ring_setWriter (pc : WriterPc) : (s.setWriter w pc).ring = s.ring := rfl
@[simp] theorem readers_setWriter (pc : WriterPc) : (s.setWriter w pc).readers = s.readers := rfl
@[simp] theorem commits_setWriter (pc : WriterPc) : (s.setWriter w pc).commits = s.commits := rfl
@[simp] theorem writers_setWriter_self (pc : WriterPc) : (s.setWriter w pc).writers w = pc :=
  Function.update_self ..
@[simp] theorem writers_setWriter_of_ne {w w' : ω} (h : w' ≠ w) (pc : WriterPc) :
    (s.setWriter w pc).writers w' = s.writers w' := Function.update_of_ne h ..

end Writer

section Reader
variable [DecidableEq ρ] (r : ρ)

@[simp] theorem ring_setReader (pc : ReaderPc) : (s.setReader r pc).ring = s.ring := rfl
@[simp] theorem writers_setReader (pc : ReaderPc) : (s.setReader r pc).writers = s.writers := rfl
@[simp] theorem commits_setReader (pc : ReaderPc) : (s.setReader r pc).commits = s.commits := rfl
@[simp] theorem readers_setReader_self (pc : ReaderPc) : (s.setReader r pc).readers r = pc :=
  Function.update_self ..
@[simp] theorem readers_setReader_of_ne {r r' : ρ} (h : r' ≠ r) (pc : ReaderPc) :
    (s.setReader r pc).readers r' = s.readers r' := Function.update_of_ne h ..

end Reader

end Frame

variable {ω ρ : Type}

/-- The sequence word of a slot. -/
def seqOf (s : SharedRing ω ρ) (i : ℕ) : ℕ := (s.ring.slots i).seq

/-- The payload of a slot. -/
def payloadOf (s : SharedRing ω ρ) (i : ℕ) : ℕ → UInt8 := (s.ring.slots i).payload

end SharedRing
end RfTrans
