import RfTrans.Basic
import RfTrans.Lib.Decimal

/-!
# Decoding a message without its schema

`decodeUnknownField` prints a field.  A length-delimited field is parsed again as a message,
and where that works its fields are printed in its place; the fields of a group are printed
where they are.  The parser belongs to protobuf and is a parameter.

## Main definitions

* `UnknownField`, `decodeUnknownField`, `decodeRawProtobuf`
* `FitsIn`, `Shrinks` — what is assumed of the parser.
* `Calls` — which calls a call of `decodeUnknownField` makes.
* `decodeRawProtobuf_terminates`
-/

namespace RfTrans

/-- `UnknownField` of protobuf, with its number. -/
inductive UnknownField
  | varint (number : ℕ) (value : UInt64)
  | fixed32 (number : ℕ) (value : UInt32)
  | fixed64 (number : ℕ) (value : UInt64)
  | lengthDelimited (number : ℕ) (bytes : Str)
  | group (number : ℕ) (fields : List UnknownField)

/-- `number()` -/
def UnknownField.number : UnknownField → ℕ
  | varint number _ => number
  | fixed32 number _ => number
  | fixed64 number _ => number
  | lengthDelimited number _ => number
  | group number _ => number

/-- `static_cast<int>` of a size. -/
def toInt (size : ℕ) : ℤ := (size : ℤ).bmod (2 ^ 32)

/-- A byte in a preview. -/
def previewByte (c : UInt8) : Str :=
  if c = 0x22 ∨ c = 0x5C then [0x5C, c]
  else if 0x20 ≤ c ∧ c < 0x7F then [c]
  else str "."

/-- `printablePreview` -/
def printablePreview (value : Str) (maxLen : ℕ) : Str :=
  str "\"" ++ (value.take maxLen).flatMap previewByte ++ str "\"" ++
    if maxLen < value.length then str "...(" ++ Decimal.text value.length ++ str "B)" else []

/-- The loops over fields: a blank between two texts. -/
def joinFields (texts : List Str) : Str := (str " ").intercalate texts

section Decoding

-- `UnknownFieldSet::ParseFromArray`, with `none` where it returns `false`
variable (parseFromArray : Str → ℤ → Option (List UnknownField))

/-- `UnknownFieldSet::ParseFromString` -/
def parseFromString (bytes : Str) : Option (List UnknownField) :=
  parseFromArray bytes (toInt bytes.length)

/-- `decodeUnknownField`, with calls nested at most so deep. -/
def decodeUnknownField : ℕ → UnknownField → Option Str
  | 0, _ => none
  | depth + 1, field =>
    let text :=
      match field with
      | .varint _ value => some (Decimal.text value.toNat)
      | .fixed32 _ value => some (Decimal.text value.toNat)
      | .fixed64 _ value => some (Decimal.text value.toNat)
      | .lengthDelimited _ bytes =>
        match if bytes.isEmpty then none else parseFromString parseFromArray bytes with
        | some nested =>
          (nested.mapM (decodeUnknownField depth)).map fun texts =>
            str "\x7b" ++ joinFields texts ++ str "\x7d"
        | none => some (printablePreview bytes 64)
      | .group _ fields =>
        (fields.mapM (decodeUnknownField depth)).map fun texts =>
          str "\x7b" ++ joinFields texts ++ str "\x7d"
    text.map fun text => Decimal.text field.number ++ str ":" ++ text

/-- The fields of the message, where there is one. -/
def topFields (rawData : Str) : Option (List UnknownField) :=
  if rawData.isEmpty then none else parseFromArray rawData (toInt rawData.length)

/-- `decodeRawProtobuf`, with calls nested at most so deep. -/
def decodeRawProtobuf (depth : ℕ) (rawData : Str) : Option Str :=
  match topFields parseFromArray rawData with
  | none => some (str "<undecodable>")
  | some fields => (fields.mapM (decodeUnknownField parseFromArray depth)).map joinFields

/-- The fields for which a call of `decodeUnknownField` calls it again. -/
def callees : UnknownField → List UnknownField
  | .lengthDelimited _ bytes =>
    (if bytes.isEmpty then none else parseFromString parseFromArray bytes).getD []
  | .group _ fields => fields
  | _ => []

/-- The call for `field` makes the call for `callee`. -/
def Calls (field callee : UnknownField) : Prop := callee ∈ callees parseFromArray field

end Decoding

/-- A field that was parsed from so many bytes: the payload, or the contents of a group, are
less. -/
inductive FitsIn : ℕ → UnknownField → Prop
  | varint {size : ℕ} (number : ℕ) (value : UInt64) (h : 0 < size) :
    FitsIn size (.varint number value)
  | fixed32 {size : ℕ} (number : ℕ) (value : UInt32) (h : 0 < size) :
    FitsIn size (.fixed32 number value)
  | fixed64 {size : ℕ} (number : ℕ) (value : UInt64) (h : 0 < size) :
    FitsIn size (.fixed64 number value)
  | lengthDelimited {size : ℕ} (number : ℕ) (bytes : Str) (h : bytes.length < size) :
    FitsIn size (.lengthDelimited number bytes)
  | group {size contents : ℕ} (number : ℕ) (fields : List UnknownField) (h : contents < size)
    (hfields : ∀ f ∈ fields, FitsIn contents f) : FitsIn size (.group number fields)

/-- What is assumed of the parser: the fields fit in the bytes that it was given. -/
def Shrinks (parseFromArray : Str → ℤ → Option (List UnknownField)) : Prop :=
  ∀ data size fields, parseFromArray data size = some fields → ∀ f ∈ fields, FitsIn size.toNat f

/-! ## The recursion -/

section Mapping

variable {α β : Type} {f g : α → Option β} {l : List α}

theorem exists_mapM (h : ∀ x ∈ l, ∃ y, f x = some y) : ∃ ys, l.mapM f = some ys := by
  induction l with
  | nil => exact ⟨[], rfl⟩
  | cons x l ih =>
      obtain ⟨y, hy⟩ := h x List.mem_cons_self
      obtain ⟨ys, hys⟩ := ih fun z hz => h z (List.mem_cons_of_mem x hz)
      exact ⟨y :: ys, by simp [List.mapM_cons, hy, hys]⟩

/-- What a larger bound leaves alone for each element it leaves alone for all. -/
theorem mapM_mono (h : ∀ x ∈ l, ∀ y, f x = some y → g x = some y) {ys : List β}
    (hys : l.mapM f = some ys) : l.mapM g = some ys := by
  induction l generalizing ys with
  | nil => exact hys
  | cons x l ih =>
      simp only [List.mapM_cons, Option.bind_eq_bind, Option.bind_eq_some_iff] at hys ⊢
      obtain ⟨y, hy, ys', hys', hcons⟩ := hys
      exact ⟨y, h x List.mem_cons_self y hy, ys',
        ih (fun z hz => h z (List.mem_cons_of_mem x hz)) hys', hcons⟩

end Mapping

variable {parseFromArray : Str → ℤ → Option (List UnknownField)} {depth size : ℕ}
  {field callee : UnknownField}

/-- `static_cast<int>` makes no size larger. -/
theorem toNat_toInt_le (size : ℕ) : (toInt size).toNat ≤ size := by
  have hle : ∀ m : ℕ, (size : ℤ).bmod m ≤ size := by
    intro m
    have hmod : ((size % m : ℕ) : ℤ) ≤ size := Int.ofNat_le.mpr (Nat.mod_le size m)
    rw [Int.bmod_eq_emod, ← Int.natCast_emod]
    split <;> omega
  exact Int.toNat_le.mpr (hle _)

/-- **A call descends**: the callee fits in less. -/
theorem Calls.fitsIn (hparse : Shrinks parseFromArray) (h : Calls parseFromArray field callee)
    (hfield : FitsIn size field) : ∃ n < size, FitsIn n callee := by
  cases hfield with
  | varint number value hsize => cases h
  | fixed32 number value hsize => cases h
  | fixed64 number value hsize => cases h
  | lengthDelimited number bytes hsize =>
      simp only [Calls, callees] at h
      split at h
      case isTrue => cases h
      case isFalse =>
        cases hnested : parseFromString parseFromArray bytes with
        | none =>
            rw [hnested] at h
            cases h
        | some nested =>
            rw [hnested, Option.getD_some] at h
            refine ⟨_, ?_, hparse _ _ _ hnested callee h⟩
            exact (toNat_toInt_le bytes.length).trans_lt hsize
  | group number fields hsize hfields => exact ⟨_, hsize, hfields callee h⟩

theorem FitsIn.pos (h : FitsIn size field) : 0 < size := by
  cases h with
  | varint number value hsize => exact hsize
  | fixed32 number value hsize => exact hsize
  | fixed64 number value hsize => exact hsize
  | lengthDelimited number bytes hsize => exact Nat.zero_lt_of_lt hsize
  | group number fields hsize hfields => exact Nat.zero_lt_of_lt hsize

/-- **A call returns** when the calls that it makes do. -/
theorem exists_decodeUnknownField
    (h : ∀ callee, Calls parseFromArray field callee →
      ∃ text, decodeUnknownField parseFromArray depth callee = some text) :
    ∃ text, decodeUnknownField parseFromArray (depth + 1) field = some text := by
  cases field with
  | varint number value => exact ⟨_, rfl⟩
  | fixed32 number value => exact ⟨_, rfl⟩
  | fixed64 number value => exact ⟨_, rfl⟩
  | lengthDelimited number bytes =>
      cases hnested : if bytes.isEmpty then none else parseFromString parseFromArray bytes with
      | none => exact ⟨_, by simp only [decodeUnknownField, hnested]; rfl⟩
      | some nested =>
          obtain ⟨texts, htexts⟩ : ∃ texts,
              nested.mapM (decodeUnknownField parseFromArray depth) = some texts := by
            refine exists_mapM fun callee hcallee => h callee ?_
            simp only [Calls, callees, hnested]
            exact hcallee
          exact ⟨_, by simp only [decodeUnknownField, hnested, htexts]; rfl⟩
  | group number fields =>
      obtain ⟨texts, htexts⟩ : ∃ texts,
          fields.mapM (decodeUnknownField parseFromArray depth) = some texts :=
        exists_mapM fun callee hcallee => h callee hcallee
      exact ⟨_, by simp only [decodeUnknownField, htexts]; rfl⟩

/-- **A field that fits in the depth is decoded.** -/
theorem FitsIn.exists_decode (hparse : Shrinks parseFromArray) (h : FitsIn size field)
    (hdepth : size ≤ depth) :
    ∃ text, decodeUnknownField parseFromArray depth field = some text := by
  induction depth generalizing size field with
  | zero => exact absurd h.pos (Nat.not_lt.mpr hdepth)
  | succ depth ih =>
      refine exists_decodeUnknownField fun callee hcall => ?_
      obtain ⟨n, hn, hcallee⟩ := hcall.fitsIn hparse h
      exact ih hcallee (by omega)

theorem map_mapM_succ {fields : List UnknownField} {F : List Str → Str} {text : Str}
    (ih : ∀ f t, decodeUnknownField parseFromArray depth f = some t →
      decodeUnknownField parseFromArray (depth + 1) f = some t)
    (h : (fields.mapM (decodeUnknownField parseFromArray depth)).map F = some text) :
    (fields.mapM (decodeUnknownField parseFromArray (depth + 1))).map F = some text := by
  obtain ⟨texts, htexts, rfl⟩ := Option.map_eq_some_iff.mp h
  exact Option.map_eq_some_iff.mpr ⟨texts, mapM_mono (fun f _ t => ih f t) htexts, rfl⟩

/-- **A larger depth changes nothing** once a field is decoded. -/
theorem decodeUnknownField_succ {text : Str}
    (h : decodeUnknownField parseFromArray depth field = some text) :
    decodeUnknownField parseFromArray (depth + 1) field = some text := by
  induction depth generalizing field text with
  | zero => cases h
  | succ depth ih =>
      cases field with
      | varint number value => exact h
      | fixed32 number value => exact h
      | fixed64 number value => exact h
      | lengthDelimited number bytes =>
          simp only [decodeUnknownField, Option.map_eq_some_iff] at h ⊢
          obtain ⟨text', htext, rfl⟩ := h
          refine ⟨text', ?_, rfl⟩
          cases hnested : if bytes.isEmpty then none else parseFromString parseFromArray bytes with
          | none =>
              simp only [hnested] at htext ⊢
              exact htext
          | some nested =>
              simp only [hnested] at htext ⊢
              exact map_mapM_succ (fun f t => ih) htext
      | group number fields =>
          simp only [decodeUnknownField, Option.map_eq_some_iff] at h ⊢
          obtain ⟨text', htext, rfl⟩ := h
          obtain ⟨texts, htexts, rfl⟩ := htext
          exact ⟨_, ⟨texts, mapM_mono (fun f _ t => ih) htexts, rfl⟩, rfl⟩

theorem decodeUnknownField_mono {text : Str} {depth' : ℕ} (hle : depth ≤ depth')
    (h : decodeUnknownField parseFromArray depth field = some text) :
    decodeUnknownField parseFromArray depth' field = some text := by
  induction depth', hle using Nat.le_induction with
  | base => exact h
  | succ depth' _ ih => exact decodeUnknownField_succ ih

/-- **Calls nested in each other** are at most so many. -/
theorem length_le_of_fitsIn (hparse : Shrinks parseFromArray) {calls : List UnknownField}
    (h : (field :: calls).IsChain (Calls parseFromArray)) (hfield : FitsIn size field) :
    (field :: calls).length ≤ size := by
  induction calls generalizing field size with
  | nil => exact hfield.pos
  | cons callee calls ih =>
      obtain ⟨hcall, hrest⟩ := List.isChain_cons_cons.mp h
      obtain ⟨n, hn, hcallee⟩ := hcall.fitsIn hparse hfield
      have hlength := ih hrest hcallee
      rw [List.length_cons]
      omega

theorem fitsIn_of_mem_topFields (hparse : Shrinks parseFromArray) {rawData : Str}
    {fields : List UnknownField} (h : topFields parseFromArray rawData = some fields)
    (hfield : field ∈ fields) : ∃ n ≤ rawData.length, FitsIn n field := by
  rw [topFields] at h
  split at h
  case isTrue => cases h
  case isFalse => exact ⟨_, toNat_toInt_le _, hparse _ _ _ h field hfield⟩

/-- **Raw decoding terminates**: to a depth of the length of the input it returns, beyond it
nothing changes, and no more calls than that are nested in each other. -/
theorem decodeRawProtobuf_terminates (hparse : Shrinks parseFromArray) (rawData : Str) :
    (∃ text, ∀ depth, rawData.length ≤ depth →
      decodeRawProtobuf parseFromArray depth rawData = some text) ∧
    ∀ fields, topFields parseFromArray rawData = some fields →
      ∀ field ∈ fields, ∀ calls, (field :: calls).IsChain (Calls parseFromArray) →
        (field :: calls).length ≤ rawData.length := by
  constructor
  · cases htop : topFields parseFromArray rawData with
    | none => exact ⟨str "<undecodable>", fun depth _ => by simp only [decodeRawProtobuf, htop]⟩
    | some fields =>
        obtain ⟨texts, htexts⟩ : ∃ texts,
            fields.mapM (decodeUnknownField parseFromArray rawData.length) = some texts := by
          refine exists_mapM fun field hfield => ?_
          obtain ⟨n, hn, hfits⟩ := fitsIn_of_mem_topFields hparse htop hfield
          exact hfits.exists_decode hparse hn
        refine ⟨joinFields texts, fun depth hdepth => ?_⟩
        have hmono := mapM_mono (fun f _ t => decodeUnknownField_mono hdepth) htexts
        simp only [decodeRawProtobuf, htop, hmono, Option.map_some]
  · intro fields htop field hfield calls hcalls
    obtain ⟨n, hn, hfits⟩ := fitsIn_of_mem_topFields hparse htop hfield
    exact (length_le_of_fitsIn hparse hcalls hfits).trans hn

/-- A group with a length-delimited field that is a message. -/
def sampleMessage : Str := [0x0B, 0x12, 0x02, 0x08, 0x01, 0x0C]

/-- What protobuf makes of it, and of the message inside. -/
def sampleParser (data : Str) (size : ℤ) : Option (List UnknownField) :=
  if data = sampleMessage ∧ size = 6 then some [.group 1 [.lengthDelimited 2 [0x08, 0x01]]]
  else if data = [0x08, 0x01] ∧ size = 2 then some [.varint 1 1]
  else none

theorem shrinks_sampleParser : Shrinks sampleParser := by
  intro data size fields h f hf
  rw [sampleParser] at h
  split at h
  case isTrue hdata =>
    cases h
    rw [List.mem_singleton.mp hf, hdata.2]
    have hsize : (4 : ℕ) < (6 : ℤ).toNat := by decide
    refine .group 1 _ hsize fun g hg => ?_
    rw [List.mem_singleton.mp hg]
    exact .lengthDelimited 2 _ (by decide)
  case isFalse =>
    split at h
    case isTrue hdata =>
      cases h
      rw [List.mem_singleton.mp hf, hdata.2]
      exact .varint 1 1 (by decide)
    case isFalse => cases h

/-- The message is decoded to its innermost field. -/
theorem sampleMessage_terminates :
    decodeRawProtobuf sampleParser 6 sampleMessage = some (str "1:\x7b2:\x7b1:1\x7d\x7d") ∧
      ∃ text, ∀ depth, sampleMessage.length ≤ depth →
        decodeRawProtobuf sampleParser depth sampleMessage = some text :=
  ⟨by decide +kernel, (decodeRawProtobuf_terminates shrinks_sampleParser sampleMessage).1⟩

end RfTrans
