import RfTrans.Cli.Printing
import RfTrans.Cli.RawDecode
import RfTrans.Lib.FixedPoint
import RfTrans.Lib.Timing

/-!
# Sniffing a topic

`topic sniff` prints a line for every message that arrives: what it carries, its fields by
their numbers, and the rate at which messages have come in the last two seconds.

## Main definitions

* `RateTracker`
* `fieldsJson`, `printSniffedMessage`
* `sniff` — the message callback, for one message after the other.
* `sniff_output_faithful`
-/

namespace RfTrans

/-- `SniffedMessage`; the steady clock counts nanoseconds. -/
structure SniffedMessage where
  topic : Str
  sender : Str
  rawData : Str
  msgType : Str
  receivedAt : ℤ

/-! ## The rate -/

/-- `RateTracker`, with its window in milliseconds. -/
structure RateTracker where
  window : ℕ
  timestamps : List ℤ := []

namespace RateTracker

/-- The first of the timestamps is dropped. -/
def tooOld (window : ℕ) (now timestamp : ℤ) : Bool := window * 1000000 < now - timestamp

/-- `recordAndGetRate`.  Halves of seconds, and what is divided by two, are exact. -/
def recordAndGetRate (t : RateTracker) (now : ℤ) : RateTracker × ℚ :=
  let timestamps := (t.timestamps ++ [now]).dropWhile (tooOld t.window now)
  ({ t with timestamps := timestamps }, timestamps.length / ((t.window : ℚ) / 1000))

end RateTracker

/-! ## The fields -/

/-- `unknownFieldWireType` -/
def unknownFieldWireType : UnknownField → Str
  | .varint .. => str "varint"
  | .fixed32 .. => str "fixed32"
  | .fixed64 .. => str "fixed64"
  | .lengthDelimited .. => str "length_delimited"
  | .group .. => str "group"

section Printing

-- `UnknownFieldSet::ParseFromArray`, and how deep calls are nested at most
variable (parseFromArray : Str → ℤ → Option (List UnknownField)) (depth : ℕ)

/-- `unknownFieldJsonValue` -/
def unknownFieldJsonValue (field : UnknownField) : Option Str :=
  match field with
  | .varint _ value => some (Decimal.text value.toNat)
  | .fixed32 _ value => some (Decimal.text value.toNat)
  | .fixed64 _ value => some (Decimal.text value.toNat)
  | .lengthDelimited _ bytes => some (quoteJson (printablePreview bytes 64))
  | .group .. => (decodeUnknownField parseFromArray depth field).map quoteJson

/-- The body of the loop in `fieldsJson`. -/
def fieldJson (field : UnknownField) : Option Str :=
  (unknownFieldJsonValue parseFromArray depth field).map fun value =>
    str "\x7b\"number\":" ++ Decimal.text field.number ++
    jsonMember "wire_type" (quoteJson (unknownFieldWireType field)) ++
    jsonMember "value" value ++ str "\x7d"

/-- `fieldsJson` -/
def fieldsJson (rawData : Str) : Option Str :=
  match topFields parseFromArray rawData with
  | none => some (str "[]")
  | some fields => (fields.mapM (fieldJson parseFromArray depth)).map fun texts =>
      str "[" ++ (str ",").intercalate texts ++ str "]"

/-- `printSniffedMessage` -/
def printSniffedMessage (message : SniffedMessage) (rate : ℚ) (output : OutputFormat)
    (out : OStream) : Option OStream :=
  if output = .table then
    (decodeRawProtobuf parseFromArray depth message.rawData).map fun fields => out.put <|
      str "size=" ++ Decimal.text message.rawData.length ++ str "B  rate=" ++
      Decimal.fixed 1 rate ++ str "Hz  sender=" ++ message.sender ++ str "  msg_type=" ++
      message.msgType ++ str "  " ++ fields ++ str "\n"
  else
    (fieldsJson parseFromArray depth message.rawData).map fun fields => out.put <|
      str "\x7b\"kind\":\"sniff\"" ++
      jsonMember "topic" (quoteJson message.topic) ++
      jsonMember "sender" (quoteJson message.sender) ++
      jsonMember "msg_type" (quoteJson message.msgType) ++
      jsonMember "size" (Decimal.text message.rawData.length) ++
      jsonMember "rate" (Decimal.fixed 3 rate) ++
      jsonMember "fields" fields ++ str "\x7d\n"

/-- The message callback that `run` sets. -/
def onSniffed (output : OutputFormat) (s : RateTracker × OStream) (message : SniffedMessage) :
    Option (RateTracker × OStream) :=
  let (rateTracker, rate) := s.1.recordAndGetRate message.receivedAt
  (printSniffedMessage parseFromArray depth message rate output s.2).map fun out =>
    (rateTracker, out)

/-- The messages arrive one after the other. -/
def sniff (output : OutputFormat) (messages : List SniffedMessage) :
    Option (RateTracker × OStream) :=
  messages.foldlM (onSniffed parseFromArray depth output) ({ window := 2000 }, {})

end Printing

/-! ## What a decoder makes of a line -/

section Value

variable (parseFromArray : Str → ℤ → Option (List UnknownField)) (depth : ℕ)

/-- The value of a field: a number, a preview of its bytes or the text of a group. -/
def fieldContents (field : UnknownField) : Json :=
  match field with
  | .varint _ value => .number value.toNat
  | .fixed32 _ value => .number value.toNat
  | .fixed64 _ value => .number value.toNat
  | .lengthDelimited _ bytes => .string (printablePreview bytes 64)
  | .group .. => .string ((decodeUnknownField parseFromArray depth field).getD [])

def fieldValue (field : UnknownField) : Json :=
  .object [(str "number", .number field.number),
    (str "wire_type", .string (unknownFieldWireType field)),
    (str "value", fieldContents parseFromArray depth field)]

def sniffValue (message : SniffedMessage) (rate : ℚ) : Json :=
  .object [(str "kind", .string (str "sniff")), (str "topic", .string message.topic),
    (str "sender", .string message.sender), (str "msg_type", .string message.msgType),
    (str "size", .number message.rawData.length), (str "rate", .number rate),
    (str "fields", .array (((topFields parseFromArray message.rawData).getD []).map
      (fieldValue parseFromArray depth)))]

end Value

/-- The messages of the two seconds up to this one, per second. -/
def rateAt (before : List SniffedMessage) (message : SniffedMessage) : ℚ :=
  ((before ++ [message]).countP fun m =>
    message.receivedAt - m.receivedAt ≤ 2000 * 1000000 : ℕ) / 2

/-- The strings that are printed as they are. -/
def SniffedMessage.Text (message : SniffedMessage) : Prop :=
  ∀ s ∈ [message.topic, message.sender, message.msgType], Utf8.Valid s

instance (message : SniffedMessage) : Decidable message.Text :=
  inferInstanceAs (Decidable (∀ s ∈ _, Utf8.Valid s))

/-! ## What is decoded is printable -/

/-- No control character, and nothing beyond ASCII. -/
def Printable (s : Str) : Prop := ∀ c ∈ s, 0x20 ≤ c ∧ c < 0x7F

instance (s : Str) : Decidable (Printable s) :=
  decidable_of_iff ((s.all fun c => 0x20 ≤ c ∧ c < 0x7F) = true) (by simp [Printable])

theorem Printable.append {s t : Str} (hs : Printable s) (ht : Printable t) : Printable (s ++ t) :=
  List.forall_mem_append.mpr ⟨hs, ht⟩

theorem Printable.valid {s : Str} (h : Printable s) : Utf8.Valid s :=
  Utf8.valid_of_forall_lt fun c hc => UInt8.lt_trans (h c hc).2 (by decide)

theorem printable_text (n : ℕ) : Printable (Decimal.text n) := by
  intro c hc
  have hdigit : 48 ≤ c ∧ c ≤ 57 := by
    simpa [Decimal.isDigit] using Decimal.isDigit_of_mem_text hc
  exact ⟨UInt8.le_trans (by decide) hdigit.1, UInt8.lt_of_le_of_lt hdigit.2 (by decide)⟩

theorem printable_previewByte (c : UInt8) : Printable (previewByte c) := by
  intro d hd
  rw [previewByte] at hd
  split at hd
  case isTrue hspecial =>
    rcases hspecial with rfl | rfl
    · exact (by decide : Printable [0x5C, 0x22]) d hd
    · exact (by decide : Printable [0x5C, 0x5C]) d hd
  case isFalse =>
    split at hd
    case isTrue hc => exact List.mem_singleton.mp hd ▸ hc
    case isFalse => exact (by decide : Printable (str ".")) d hd

theorem printable_preview (value : Str) (n : ℕ) : Printable (printablePreview value n) := by
  have hquote : Printable (str "\"") := by decide
  have hbody : Printable ((value.take n).flatMap previewByte) := by
    intro d hd
    obtain ⟨c, -, hd⟩ := List.mem_flatMap.mp hd
    exact printable_previewByte c d hd
  have hopen : Printable (str "...(") := by decide
  have hclose : Printable (str "B)") := by decide
  rw [printablePreview]
  refine ((hquote.append hbody).append hquote).append ?_
  split
  case isTrue => exact (hopen.append (printable_text _)).append hclose
  case isFalse => exact List.forall_mem_nil _

theorem printable_joinFields {texts : List Str} (h : ∀ t ∈ texts, Printable t) :
    Printable (joinFields texts) := by
  induction texts with
  | nil => exact List.forall_mem_nil _
  | cons t texts ih =>
      have ht := h t List.mem_cons_self
      have hrest := ih fun u hu => h u (List.mem_cons_of_mem t hu)
      cases texts with
      | nil => simpa [joinFields] using ht
      | cons u texts =>
          have hblank : Printable (str " ") := by decide
          rw [joinFields, List.intercalate_cons_cons]
          exact (ht.append hblank).append hrest

section Decode

variable {parseFromArray : Str → ℤ → Option (List UnknownField)} {depth : ℕ}

/-- What a loop returns, it returns for each element. -/
theorem forall_of_mapM {α β : Type} {f : α → Option β} {P : β → Prop} {l : List α} {ys : List β}
    (h : ∀ x ∈ l, ∀ y, f x = some y → P y) (hys : l.mapM f = some ys) : ∀ y ∈ ys, P y := by
  induction l generalizing ys with
  | nil =>
      cases hys
      exact List.forall_mem_nil P
  | cons x l ih =>
      simp only [List.mapM_cons, Option.bind_eq_bind, Option.bind_eq_some_iff] at hys
      obtain ⟨y, hy, ys', hys', hcons⟩ := hys
      cases hcons
      exact List.forall_mem_cons.mpr ⟨h x List.mem_cons_self y hy,
        ih (fun z hz => h z (List.mem_cons_of_mem x hz)) hys'⟩

theorem mapM_eq_map {α β : Type} {f : α → Option β} {g : α → β} {l : List α}
    (h : ∀ x ∈ l, f x = some (g x)) : l.mapM f = some (l.map g) := by
  induction l with
  | nil => rfl
  | cons x l ih =>
      have hx := h x List.mem_cons_self
      have hl := ih fun z hz => h z (List.mem_cons_of_mem x hz)
      simp [List.mapM_cons, hx, hl]

theorem printable_braces {texts : List Str} (h : ∀ t ∈ texts, Printable t) :
    Printable (str "\x7b" ++ joinFields texts ++ str "\x7d") := by
  have hopen : Printable (str "\x7b") := by decide
  have hclose : Printable (str "\x7d") := by decide
  exact (hopen.append (printable_joinFields h)).append hclose

/-- **Whatever the bytes are, the text of a field is printable.** -/
theorem printable_decode {field : UnknownField} {text : Str}
    (h : decodeUnknownField parseFromArray depth field = some text) : Printable text := by
  induction depth generalizing field text with
  | zero => cases h
  | succ depth ih =>
      have hcolon : Printable (str ":") := by decide
      have hfields : ∀ fields : List UnknownField, ∀ t,
          ((fields.mapM (decodeUnknownField parseFromArray depth)).map fun texts =>
            str "\x7b" ++ joinFields texts ++ str "\x7d") = some t → Printable t := by
        intro fields t ht
        obtain ⟨texts, htexts, rfl⟩ := Option.map_eq_some_iff.mp ht
        exact printable_braces (forall_of_mapM (fun f _ t => ih) htexts)
      unfold decodeUnknownField at h
      obtain ⟨contents, hcontents, rfl⟩ := Option.map_eq_some_iff.mp h
      refine ((printable_text _).append hcolon).append ?_
      cases field with
      | varint number value => exact Option.some.inj hcontents ▸ printable_text _
      | fixed32 number value => exact Option.some.inj hcontents ▸ printable_text _
      | fixed64 number value => exact Option.some.inj hcontents ▸ printable_text _
      | lengthDelimited number bytes =>
          simp only at hcontents
          split at hcontents
          case h_1 => exact hfields _ _ hcontents
          case h_2 => exact Option.some.inj hcontents ▸ printable_preview _ _
      | group number fields => exact hfields fields _ hcontents

/-- What is shown of bytes or of a group can be printed as it is. -/
theorem printable_contents {field : UnknownField} {text : Str}
    (h : fieldContents parseFromArray depth field = .string text) : Printable text := by
  cases field with
  | lengthDelimited number bytes => exact Json.string.inj h ▸ printable_preview bytes 64
  | group number fields =>
      obtain rfl := Json.string.inj h
      cases hdecode : decodeUnknownField parseFromArray depth (.group number fields) with
      | none => exact List.forall_mem_nil _
      | some decoded => exact printable_decode hdecode
  | _ => cases h

/-! ## A line of JSON -/

/-- The names of the members, and the texts of the code's own. -/
def sniffNames : List Str :=
  [str "kind", str "sniff", str "topic", str "sender", str "msg_type", str "size", str "rate",
    str "fields", str "number", str "wire_type", str "value", str "varint", str "fixed32",
    str "fixed64", str "length_delimited", str "group"]

theorem plainName_sniff : ∀ name ∈ sniffNames, PlainName name := by
  have hall : (sniffNames.all fun name =>
      name.all fun c => 0x20 ≤ c ∧ c < 0x80 ∧ c ≠ 0x22 ∧ c ≠ 0x5C) = true := by
    decide +kernel
  intro name hname c hc
  exact of_decide_eq_true (List.all_eq_true.mp (List.all_eq_true.mp hall name hname) c hc)

theorem wireType_mem (field : UnknownField) : unknownFieldWireType field ∈ sniffNames := by
  cases field <;> simp only [unknownFieldWireType] <;> decide

theorem writes_string {s : Str} (h : Utf8.Valid s) : Writes (quoteJson s) (.string s) :=
  writes_quoteJson h

theorem writes_natural (n : ℕ) : Writes (Decimal.text n) (.number n) := by
  have h := writes_number n
  simpa [scalarText] using h

/-- A rate, in halves, is written exactly. -/
theorem writes_rate (n : ℕ) : Writes (Decimal.fixed 3 (n / 2)) (.number (n / 2)) where
  reads := by
    have hexact : Decimal.units 3 ((n : ℚ) / 2) / 10 ^ 3 = (n : ℚ) / 2 := by
      refine @Decimal.units_div 3 (n * 500) _ ?_
      push_cast
      ring
    have hread := Json.reads_fixed (by decide : 0 < 3) ((n : ℚ) / 2)
    rwa [hexact] at hread
  valid := Utf8.valid_of_forall_lt fun c => Decimal.fixed_lt
  line := Decimal.newline_notMem_fixed

/-- An array of what is written. -/
theorem writes_array {l : List (Str × Json)} (h : ∀ x ∈ l, Writes x.1 x.2) :
    Writes (0x5B :: (Json.commas (l.map (·.1)) ++ [0x5D])) (.array (l.map (·.2))) where
  reads := Json.reads_array fun x hx => (h x hx).reads
  valid := by
    have hcommas : Utf8.Valid (Json.commas (l.map (·.1))) := by
      refine Json.valid_commas fun t ht => ?_
      obtain ⟨x, hx, rfl⟩ := List.mem_map.mp ht
      exact (h x hx).valid
    exact (hcommas.append (by decide)).cons (by decide)
  line := by
    have hcommas : 0x0A ∉ Json.commas (l.map (·.1)) := by
      refine Json.notMem_commas (by decide) fun t ht => ?_
      obtain ⟨x, hx, rfl⟩ := List.mem_map.mp ht
      exact (h x hx).line
    simp [hcommas]

/-- The value of a field is written. -/
theorem exists_fieldJsonValue {size : ℕ} {field : UnknownField} (hparse : Shrinks parseFromArray)
    (hfits : FitsIn size field) (hdepth : size ≤ depth) :
    ∃ value, unknownFieldJsonValue parseFromArray depth field = some value ∧
      Writes value (fieldContents parseFromArray depth field) := by
  cases field with
  | varint number value => exact ⟨_, rfl, writes_natural _⟩
  | fixed32 number value => exact ⟨_, rfl, writes_natural _⟩
  | fixed64 number value => exact ⟨_, rfl, writes_natural _⟩
  | lengthDelimited number bytes =>
      exact ⟨_, rfl, writes_string (printable_preview bytes 64).valid⟩
  | group number fields =>
      obtain ⟨text, htext⟩ := hfits.exists_decode hparse hdepth
      refine ⟨quoteJson text, by rw [unknownFieldJsonValue, htext]; rfl, ?_⟩
      rw [fieldContents, htext]
      exact writes_string (printable_decode htext).valid

/-- **A field is written.** -/
theorem exists_fieldJson {size : ℕ} {field : UnknownField} (hparse : Shrinks parseFromArray)
    (hfits : FitsIn size field) (hdepth : size ≤ depth) :
    ∃ text, fieldJson parseFromArray depth field = some text ∧
      Writes text (fieldValue parseFromArray depth field) := by
  obtain ⟨value, hvalue, hwrites⟩ := exists_fieldJsonValue hparse hfits hdepth
  refine ⟨_, by rw [fieldJson, hvalue]; rfl, ?_⟩
  have hmembers := @writes_named
    [(str "number", Decimal.text field.number, .number field.number),
      (str "wire_type", quoteJson (unknownFieldWireType field),
        .string (unknownFieldWireType field)),
      (str "value", value, fieldContents parseFromArray depth field)] (by
    simp only [List.forall_mem_cons]
    refine ⟨⟨plainName_sniff _ (by decide), writes_natural _⟩,
      ⟨plainName_sniff _ (by decide), ?_⟩, ⟨plainName_sniff _ (by decide), hwrites⟩,
      List.forall_mem_nil _⟩
    exact writes_string (plainName_sniff _ (wireType_mem field)).valid)
  have hopen : str "\x7b\"number\":" = 0x7B :: 0x22 :: (str "number" ++ [0x22, 0x3A]) := by decide
  have hcomma : str ",\"" = [0x2C, 0x22] := by decide
  have hquote : str "\":" = [0x22, 0x3A] := by decide
  have hclose : str "\x7d" = [0x7D] := by decide
  simpa [namedText, jsonMember, hopen, hcomma, hquote, hclose, fieldValue] using hmembers

/-- The fields of a message are written. -/
theorem exists_fieldsJson (hparse : Shrinks parseFromArray) {rawData : Str}
    (hdepth : rawData.length ≤ depth) :
    ∃ text, fieldsJson parseFromArray depth rawData = some text ∧
      Writes text (.array (((topFields parseFromArray rawData).getD []).map
        (fieldValue parseFromArray depth))) := by
  have hopen : str "[" = [0x5B] := by decide
  have hcomma : str "," = [0x2C] := by decide
  have hclose : str "]" = [0x5D] := by decide
  cases htop : topFields parseFromArray rawData with
  | none =>
      have hempty : str "[]" = [0x5B, 0x5D] := by decide
      refine ⟨str "[]", by rw [fieldsJson, htop], ?_⟩
      rw [hempty]
      exact writes_array (List.forall_mem_nil _)
  | some fields =>
      have hfield : ∀ f ∈ fields, ∃ text, fieldJson parseFromArray depth f = some text ∧
          Writes text (fieldValue parseFromArray depth f) := by
        intro f hf
        obtain ⟨n, hn, hfits⟩ := fitsIn_of_mem_topFields hparse htop hf
        exact exists_fieldJson hparse hfits (hn.trans hdepth)
      have htexts : fields.mapM (fieldJson parseFromArray depth) =
          some (fields.map fun f => (fieldJson parseFromArray depth f).getD []) := by
        refine mapM_eq_map fun f hf => ?_
        obtain ⟨text, htext, -⟩ := hfield f hf
        rw [htext, Option.getD_some]
      refine ⟨_, by rw [fieldsJson, htop]; simp only [htexts]; rfl, ?_⟩
      have harray := @writes_array (fields.map fun f =>
        ((fieldJson parseFromArray depth f).getD [], fieldValue parseFromArray depth f)) (by
          intro x hx
          obtain ⟨f, hf, rfl⟩ := List.mem_map.mp hx
          obtain ⟨text, htext, hwrites⟩ := hfield f hf
          rw [htext]
          exact hwrites)
      simpa [hopen, hcomma, hclose, Json.commas, Function.comp_def] using harray

/-- **A message is printed as one line of JSON.** -/
theorem exists_line (hparse : Shrinks parseFromArray) {output : OutputFormat}
    (houtput : output ≠ .table) {message : SniffedMessage} (htext : message.Text)
    (hdepth : message.rawData.length ≤ depth) (n : ℕ) (o : Str) :
    ∃ line, printSniffedMessage parseFromArray depth message (n / 2) output { out := o } =
        some { out := o ++ (line ++ [0x0A]) } ∧
      Writes line (sniffValue parseFromArray depth message (n / 2)) := by
  obtain ⟨fields, hfields, hwrites⟩ := exists_fieldsJson hparse hdepth
  simp only [SniffedMessage.Text, List.forall_mem_cons] at htext
  obtain ⟨htopic, hsender, htype, -⟩ := htext
  have hmembers := @writes_named
    [(str "kind", quoteJson (str "sniff"), .string (str "sniff")),
      (str "topic", quoteJson message.topic, .string message.topic),
      (str "sender", quoteJson message.sender, .string message.sender),
      (str "msg_type", quoteJson message.msgType, .string message.msgType),
      (str "size", Decimal.text message.rawData.length, .number message.rawData.length),
      (str "rate", Decimal.fixed 3 (n / 2), .number (n / 2)),
      (str "fields", fields, .array (((topFields parseFromArray message.rawData).getD []).map
        (fieldValue parseFromArray depth)))] (by
    have hname : ∀ name ∈ sniffNames, PlainName name := plainName_sniff
    have hkind : Utf8.Valid (str "sniff") := (hname _ (by decide)).valid
    simp only [List.forall_mem_cons]
    exact ⟨⟨hname _ (by decide), writes_string hkind⟩,
      ⟨hname _ (by decide), writes_string htopic⟩, ⟨hname _ (by decide), writes_string hsender⟩,
      ⟨hname _ (by decide), writes_string htype⟩, ⟨hname _ (by decide), writes_natural _⟩,
      ⟨hname _ (by decide), writes_rate n⟩, ⟨hname _ (by decide), hwrites⟩,
      List.forall_mem_nil _⟩)
  refine ⟨_, ?_, hmembers⟩
  have hopen : str "\x7b\"kind\":\"sniff\"" =
      0x7B :: namedText (str "kind") (quoteJson (str "sniff")) := by decide
  have hcomma : str ",\"" = [0x2C, 0x22] := by decide
  have hquote : str "\":" = [0x22, 0x3A] := by decide
  have hclose : str "\x7d\n" = [0x7D, 0x0A] := by decide
  rw [printSniffedMessage, if_neg houtput, hfields, Option.map_some, OStream.put_of_width rfl]
  simp [namedText, jsonMember, hopen, hcomma, hquote, hclose]

end Decode

/-! ## The rate of a run -/

/-- A timestamp becomes older, and an earlier one is older. -/
theorem RateTracker.ages (window : ℕ) : SlidingWindow.Ages (RateTracker.tooOld window) where
  before hxy hy := by
    simp only [RateTracker.tooOld, decide_eq_true_eq] at hy ⊢
    omega
  stays hnow hx := by
    simp only [RateTracker.tooOld, decide_eq_true_eq] at hx ⊢
    omega

/-- The tracker after some messages. -/
def trackerAfter (messages : List SniffedMessage) : RateTracker where
  window := 2000
  timestamps := (messages.map (·.receivedAt)).foldl
    (SlidingWindow.record (RateTracker.tooOld 2000)) []

/-- **The rate is that of the last two seconds.** -/
theorem recordAndGetRate_trackerAfter {before : List SniffedMessage} {message : SniffedMessage}
    (h : (before ++ [message]).Pairwise fun x y => x.receivedAt ≤ y.receivedAt) :
    (trackerAfter before).recordAndGetRate message.receivedAt =
      (trackerAfter (before ++ [message]), rateAt before message) := by
  have hsorted : (before.map (·.receivedAt) ++ [message.receivedAt]).Pairwise (· ≤ ·) := by
    have hmap := List.pairwise_map.mpr h
    rwa [List.map_append, List.map_singleton] at hmap
  have hrecord : ((trackerAfter before).timestamps ++ [message.receivedAt]).dropWhile
      (RateTracker.tooOld 2000 message.receivedAt) =
        (trackerAfter (before ++ [message])).timestamps := by
    simp only [trackerAfter, List.map_append, List.map_singleton, List.foldl_append]
    rfl
  have hcount : (trackerAfter (before ++ [message])).timestamps.length =
      (before ++ [message]).countP fun m =>
        message.receivedAt - m.receivedAt ≤ 2000 * 1000000 := by
    simp only [trackerAfter, List.map_append, List.map_singleton]
    rw [SlidingWindow.foldl_record (RateTracker.ages 2000) hsorted, ← List.countP_eq_length_filter,
      ← List.map_singleton, ← List.map_append, List.countP_map]
    refine List.countP_congr fun m _ => ?_
    simp [RateTracker.tooOld]
  have hwindow : (trackerAfter before).window = 2000 := rfl
  rw [RateTracker.recordAndGetRate, hwindow, hrecord, hcount, rateAt]
  norm_num [trackerAfter]

/-! ## The output -/

variable {parseFromArray : Str → ℤ → Option (List UnknownField)} {depth : ℕ}
  {output : OutputFormat} {messages : List SniffedMessage}

/-- The last of some messages, or an earlier one. -/
theorem append_singleton_eq_append_cons {α : Type} {l before after : List α} {x m : α}
    (h : l ++ [x] = before ++ m :: after) :
    (l = before ∧ x = m ∧ after = []) ∨ ∃ after', l = before ++ m :: after' := by
  rcases List.eq_nil_or_concat after with rfl | ⟨after', y, rfl⟩
  · obtain ⟨rfl, heq⟩ := List.append_inj' h rfl
    exact .inl ⟨rfl, (List.cons.inj heq).1, rfl⟩
  · right
    have hassoc : l ++ [x] = (before ++ m :: after') ++ [y] := by
      rw [h, List.concat_eq_append, List.append_assoc, List.cons_append]
    exact ⟨after', (List.append_inj' hassoc rfl).1⟩

/-- A line for every message so far. -/
theorem exists_lines (hparse : Shrinks parseFromArray) (houtput : output ≠ .table)
    (hsorted : messages.Pairwise fun x y => x.receivedAt ≤ y.receivedAt)
    (htext : ∀ m ∈ messages, m.Text) (hdepth : ∀ m ∈ messages, m.rawData.length ≤ depth) :
    ∃ lines : List Str,
      sniff parseFromArray depth output messages =
        some (trackerAfter messages, { out := lines.flatMap (· ++ [0x0A]) }) ∧
      lines.length = messages.length ∧
      ∀ before m after, messages = before ++ m :: after → ∃ line,
        lines[before.length]? = some line ∧
          Writes line (sniffValue parseFromArray depth m (rateAt before m)) := by
  induction messages using List.reverseRecOn with
  | nil => exact ⟨[], rfl, rfl, fun before m after h => by simp at h⟩
  | append_singleton messages x ih =>
      obtain ⟨lines, hrun, hlength, hlines⟩ := ih (List.pairwise_append.mp hsorted).1
        (fun m hm => htext m (List.mem_append_left _ hm))
        (fun m hm => hdepth m (List.mem_append_left _ hm))
      obtain ⟨line, hprint, hwrites⟩ := exists_line hparse houtput (htext x (by simp))
        (hdepth x (by simp)) ((messages ++ [x]).countP fun m =>
          x.receivedAt - m.receivedAt ≤ 2000 * 1000000) (lines.flatMap (· ++ [0x0A]))
      refine ⟨lines ++ [line], ?_, by simp [hlength], ?_⟩
      · rw [sniff] at hrun
        rw [sniff, List.foldlM_append, hrun]
        have hstep : onSniffed parseFromArray depth output
            (trackerAfter messages, { out := lines.flatMap (· ++ [0x0A]) }) x =
              some (trackerAfter (messages ++ [x]),
                { out := (lines ++ [line]).flatMap (· ++ [0x0A]) }) := by
          rw [onSniffed, recordAndGetRate_trackerAfter hsorted]
          simp only [rateAt, hprint, Option.map_some, List.flatMap_append, List.flatMap_singleton]
        simp [hstep]
      · intro before m after h
        rcases append_singleton_eq_append_cons h with ⟨rfl, rfl, -⟩ | ⟨after', rfl⟩
        · exact ⟨line, by simp [← hlength], hwrites⟩
        · obtain ⟨line', hline', hwrites'⟩ := hlines before m after' rfl
          refine ⟨line', ?_, hwrites'⟩
          rw [List.getElem?_append_left (List.getElem?_eq_some_iff.mp hline').1]
          exact hline'

/-- **The sniffer's output is faithful**: a line of JSON for every message, in order, with what
the message carries, every field of it, and the rate of the last two seconds.  Whatever the
bytes of a field are, what is shown of them is printable. -/
theorem sniff_output_faithful (hparse : Shrinks parseFromArray) (houtput : output ≠ .table)
    (hsorted : messages.Pairwise fun x y => x.receivedAt ≤ y.receivedAt)
    (htext : ∀ m ∈ messages, m.Text) (hdepth : ∀ m ∈ messages, m.rawData.length ≤ depth) :
    ∃ tracker out, ∃ lines : List Str,
      sniff parseFromArray depth output messages = some (tracker, out) ∧
      out.out = lines.flatMap (· ++ [0x0A]) ∧ lines.length = messages.length ∧
      ∀ before m after, messages = before ++ m :: after → ∃ line,
        lines[before.length]? = some line ∧ 0x0A ∉ line ∧
          Json.decode line = some (sniffValue parseFromArray depth m (rateAt before m)) ∧
          ∀ fields, topFields parseFromArray m.rawData = some fields → ∀ field ∈ fields,
            ∀ text, fieldContents parseFromArray depth field = .string text → Printable text := by
  obtain ⟨lines, hrun, hlength, hlines⟩ := exists_lines hparse houtput hsorted htext hdepth
  refine ⟨_, _, lines, hrun, rfl, hlength, fun before m after h => ?_⟩
  obtain ⟨line, hline, hwrites⟩ := hlines before m after h
  have hdecode := hwrites.reads.decode (List.forall_mem_nil _)
    (by rw [List.append_nil]; exact hwrites.valid)
  rw [List.append_nil] at hdecode
  exact ⟨line, hline, hwrites.line, hdecode, fun _ _ _ _ _ => printable_contents⟩

/-- A message with a group, and an empty one a second later. -/
def sampleSniffed (second : Bool) : SniffedMessage where
  topic := str "t"
  sender := str "tcp://a"
  rawData := if second then [] else sampleMessage
  msgType := str "A"
  receivedAt := if second then 1000000000 else 0

/-- The line of the second one has the rate of both. -/
theorem sniff_output_faithful_two :
    ∃ line, Json.decode line = some (sniffValue sampleParser 6 (sampleSniffed true) 1) := by
  have htopic : Utf8.Valid (str "t") := Utf8.valid_of_forall_lt (by simp [str])
  have hsender : Utf8.Valid (str "tcp://a") := Utf8.valid_of_forall_lt (by simp [str])
  have htype : Utf8.Valid (str "A") := Utf8.valid_of_forall_lt (by simp [str])
  have htext : ∀ m ∈ [sampleSniffed false, sampleSniffed true], m.Text := by
    simp [SniffedMessage.Text, sampleSniffed, htopic, hsender, htype]
  have hrate : rateAt [sampleSniffed false] (sampleSniffed true) = 1 := by
    norm_num [rateAt, sampleSniffed]
  obtain ⟨tracker, out, lines, -, -, -, hlines⟩ := @sniff_output_faithful sampleParser 6 .json
    [sampleSniffed false, sampleSniffed true] shrinks_sampleParser (by decide)
    (by simp [sampleSniffed]) htext (by simp [sampleSniffed, sampleMessage])
  obtain ⟨line, -, -, hdecode, -⟩ := hlines [sampleSniffed false] (sampleSniffed true) [] rfl
  rw [hrate] at hdecode
  exact ⟨line, hdecode⟩

end RfTrans
