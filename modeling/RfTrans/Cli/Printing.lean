import RfTrans.Cli.Endpoints
import RfTrans.Lib.Json

/-!
# What the tool prints

Endpoints are printed as a table, as one JSON array, or as one JSON object a line.  The
objects are put together by hand; strings are escaped byte by byte on a stream that is
switched to hexadecimal digits and back.

## Main definitions

* `OStream` — a stream with the state of its manipulators.
* `jsonEscape`, `messageJson`, `serviceJson`
* `printMessages`, `printServices`
* `json_output_faithful`
-/

namespace RfTrans

/-- `std::ostream`: what was written, and the format of what comes next. -/
structure OStream where
  out : Str := []
  hex : Bool := false
  left : Bool := false
  width : ℕ := 0
  fill : UInt8 := 32
  deriving DecidableEq

namespace OStream

variable (s : OStream)

/-- `<<` of text, which uses the width up. -/
def put (text : Str) : OStream :=
  let padding := List.replicate (s.width - text.length) s.fill
  { s with
    out := s.out ++ if s.left then text ++ padding else padding ++ text
    width := 0 }

/-- `<<` of an unsigned number. -/
def putUnsigned (n : ℕ) : OStream := s.put (if s.hex then RfTrans.hex n else Decimal.text n)

/-- `std::hex` -/
def setHex : OStream := { s with hex := true }

/-- `std::dec` -/
def setDec : OStream := { s with hex := false }

/-- `std::left` -/
def setLeft : OStream := { s with left := true }

/-- `std::setw` -/
def setw (n : ℕ) : OStream := { s with width := n }

/-- `std::setfill` -/
def setfill (c : UInt8) : OStream := { s with fill := c }

/-- Without a width the text is written as it is. -/
theorem put_of_width {s : OStream} (h : s.width = 0) (text : Str) :
    s.put text = { s with out := s.out ++ text } := by
  cases s
  subst h
  simp [put]

end OStream

/-- `OutputFormat` -/
inductive OutputFormat
  | table
  | json
  | jsonLines
  deriving DecidableEq

/-- `scopeName` -/
def scopeName : Scope → Str
  | .process => str "process"
  | .host => str "host"
  | .all => str "all"

/-- `processDisplayName` -/
def processDisplayName (processName : Str) : Str :=
  if processName.isEmpty then str "unknown" else processName

/-! ## JSON -/

/-- The body of the loop in `jsonEscape`. -/
def escapeByte (out : OStream) (c : UInt8) : OStream :=
  if c = 0x22 then out.put (str "\\\"")
  else if c = 0x5C then out.put (str "\\\\")
  else if c = 0x08 then out.put (str "\\b")
  else if c = 0x0C then out.put (str "\\f")
  else if c = 0x0A then out.put (str "\\n")
  else if c = 0x0D then out.put (str "\\r")
  else if c = 0x09 then out.put (str "\\t")
  else if c < 0x20 then
    ((((((out.put (str "\\u")).setHex).setw 4).setfill 48).putUnsigned c.toNat).setDec).setfill 32
  else out.put [c]

/-- `jsonEscape` -/
def jsonEscape (value : Str) : Str := (value.foldl escapeByte {}).out

/-- `quoteJson` -/
def quoteJson (value : Str) : Str := str "\"" ++ jsonEscape value ++ str "\""

/-- A further member of an object: `<< ",\"name\":" <<` and its value. -/
def jsonMember (name : String) (value : Str) : Str := str ",\"" ++ str name ++ str "\":" ++ value

/-- `messageJson` -/
def messageJson (endpoint : MessageEndpointInfo) (event : Str) : Str :=
  str "\x7b\"kind\":\"message\"" ++
  (if event.isEmpty then [] else jsonMember "event" (quoteJson event)) ++
  jsonMember "topic" (quoteJson endpoint.topic) ++
  jsonMember "address" (quoteJson endpoint.address) ++
  jsonMember "control_id" (quoteJson endpoint.controlId) ++
  jsonMember "process_name" (quoteJson endpoint.processName) ++
  jsonMember "node_uuid" (quoteJson endpoint.nodeUuid) ++
  jsonMember "message_type" (quoteJson endpoint.messageType) ++
  jsonMember "scope" (quoteJson (scopeName endpoint.scope)) ++
  jsonMember "throttled" (if endpoint.throttled then str "true" else str "false") ++
  jsonMember "messages_per_second"
    (if endpoint.throttled then Decimal.text endpoint.messagesPerSecond.toNat else str "null") ++
  str "\x7d"

/-- `serviceJson` -/
def serviceJson (endpoint : ServiceEndpointInfo) (event : Str) : Str :=
  str "\x7b\"kind\":\"service\"" ++
  (if event.isEmpty then [] else jsonMember "event" (quoteJson event)) ++
  jsonMember "topic" (quoteJson endpoint.topic) ++
  jsonMember "address" (quoteJson endpoint.address) ++
  jsonMember "socket_id" (quoteJson endpoint.socketId) ++
  jsonMember "process_name" (quoteJson endpoint.processName) ++
  jsonMember "node_uuid" (quoteJson endpoint.nodeUuid) ++
  jsonMember "request_type" (quoteJson endpoint.requestType) ++
  jsonMember "response_type" (quoteJson endpoint.responseType) ++
  jsonMember "scope" (quoteJson (scopeName endpoint.scope)) ++
  str "\x7d"

/-! ## Printing -/

section Printing

variable {E : Type}

/-- A column of a table: what stands above it, and what it shows. -/
structure Column (E : Type) where
  heading : Str
  getter : E → Str

/-- `longest` -/
def Column.longest (column : Column E) (endpoints : List E) : ℕ :=
  endpoints.foldl (fun width e => max width (column.getter e).length) column.heading.length

/-- A cell and the gap after it. -/
def putCell (out : OStream) (width : ℕ) (text : Str) : OStream :=
  ((out.setw width).put text).put (str "  ")

/-- The cells of a row. -/
def putCells (endpoints : List E) (columns : List (Column E)) (text : Column E → Str)
    (out : OStream) : OStream :=
  columns.foldl (fun out column => putCell out (column.longest endpoints) (text column)) out

/-- The column of the event, where there is one. -/
def putEvent (event text : Str) (out : OStream) : OStream :=
  if event.isEmpty then out else putCell out.setLeft 7 text

/-- What the two tables have in common. -/
def printTable (columns : List (Column E)) (process : Column E) (endpoints : List E) (event : Str)
    (out : OStream) : OStream :=
  let out := putEvent event (str "EVENT") out
  let out := (putCells endpoints columns (·.heading) out.setLeft).put (process.heading ++ str "\n")
  endpoints.foldl (fun out e =>
    let out := (putEvent event event out).setLeft
    let out := putCells endpoints columns (·.getter e) out
    ((out.setw (process.longest endpoints)).put (process.getter e)).put (str "\n")) out

/-- `printMessageTable` -/
def printMessageTable : List MessageEndpointInfo → Str → OStream → OStream :=
  printTable
    [⟨str "TOPIC", fun e => e.topic⟩, ⟨str "TYPE", fun e => e.messageType⟩,
      ⟨str "ADDRESS", fun e => e.address⟩, ⟨str "SCOPE", fun e => scopeName e.scope⟩]
    ⟨str "PROCESS", fun e => processDisplayName e.processName⟩

/-- `printServiceTable` -/
def printServiceTable : List ServiceEndpointInfo → Str → OStream → OStream :=
  printTable
    [⟨str "TOPIC", fun e => e.topic⟩, ⟨str "REQUEST TYPE", fun e => e.requestType⟩,
      ⟨str "RESPONSE TYPE", fun e => e.responseType⟩, ⟨str "SCOPE", fun e => scopeName e.scope⟩,
      ⟨str "ADDRESS", fun e => e.address⟩]
    ⟨str "PROCESS", fun e => processDisplayName e.processName⟩

/-- The endpoints with commas between them: the loop over the indices. -/
def putArray (json : E → Str) : List E → OStream → OStream
  | [], out => out
  | e :: endpoints, out =>
    endpoints.foldl (fun out e => (out.put (str ",")).put (json e)) (out.put (json e))

/-- What `printMessages` and `printServices` have in common. -/
def printEndpoints (table : List E → Str → OStream → OStream) (json : E → Str → Str)
    (endpoints : List E) (output : OutputFormat) (event : Str) (out : OStream) : OStream :=
  match output with
  | .table => table endpoints event out
  | .json => (putArray (json · event) endpoints (out.put (str "["))).put (str "]\n")
  | .jsonLines => endpoints.foldl (fun out e => (out.put (json e event)).put (str "\n")) out

/-- `printMessages` -/
def printMessages : List MessageEndpointInfo → OutputFormat → Str → OStream → OStream :=
  printEndpoints printMessageTable messageJson

/-- `printServices` -/
def printServices : List ServiceEndpointInfo → OutputFormat → Str → OStream → OStream :=
  printEndpoints printServiceTable serviceJson

end Printing
/-! ## Escaping -/

/-- What is written for a byte. -/
def escapeText (c : UInt8) : Str := (escapeByte {} c).out

/-- **Every byte leaves the stream as it found it**, back to decimal digits and blanks. -/
theorem escapeByte_eq (o : Str) (c : UInt8) :
    escapeByte { out := o } c = { out := o ++ escapeText c } := by
  simp only [escapeText, escapeByte]
  split_ifs <;>
    simp [OStream.put, OStream.setHex, OStream.setw, OStream.setfill, OStream.putUnsigned,
      OStream.setDec]

theorem jsonEscape_eq (value : Str) : jsonEscape value = value.flatMap escapeText := by
  have hfold : ∀ o : Str, value.foldl escapeByte { out := o } =
      { out := o ++ value.flatMap escapeText } := by
    induction value with
    | nil => simp
    | cons c value ih =>
        intro o
        rw [List.foldl_cons, escapeByte_eq, ih, List.flatMap_cons, List.append_assoc]
  rw [jsonEscape, hfold, List.nil_append]

/-- A digit of `std::hex`. -/
def hexByte (d : ℕ) : UInt8 := UInt8.ofNat (if d < 10 then 48 + d else 87 + d)

theorem hexDigit_hexByte : ∀ d < 16, Json.hexDigit (hexByte d) = some d := by
  decide

/-- A control character without a letter of its own. -/
theorem escapeText_control {c : UInt8} (h : c < 0x20)
    (hletter : c ∉ [0x08, 0x0C, 0x0A, 0x0D, 0x09]) :
    escapeText c =
      [0x5C, 0x75, 0x30, 0x30, hexByte (c.toNat / 16), hexByte (c.toNat % 16)] := by
  have hall : ∀ n < 32, UInt8.ofNat n ∉ ([0x08, 0x0C, 0x0A, 0x0D, 0x09] : List UInt8) →
      escapeText (UInt8.ofNat n) =
        [0x5C, 0x75, 0x30, 0x30, hexByte (n / 16), hexByte (n % 16)] := by
    decide +kernel
  have hc := hall c.toNat (UInt8.lt_iff_toNat_lt.mp h)
  rw [UInt8.ofNat_toNat] at hc
  exact hc hletter

/-- A byte that stays as it is. -/
theorem escapeText_unescaped {c : UInt8} (h : 0x20 ≤ c) (hquote : c ≠ 0x22) (hescape : c ≠ 0x5C) :
    escapeText c = [c] := by
  have hne : ∀ d < 0x20, c ≠ d := by
    intro d hd heq
    exact absurd (heq ▸ hd) (UInt8.not_lt.mpr h)
  simp [escapeText, escapeByte, hquote, hescape, hne 0x08 (by decide), hne 0x0C (by decide),
    hne 0x0A (by decide), hne 0x0D (by decide), hne 0x09 (by decide), UInt8.not_lt.mpr h,
    OStream.put]

/-- **A written byte stands for itself in a JSON string.** -/
theorem spells_escapeText (c : UInt8) : Json.Spells (escapeText c) [c] := by
  by_cases hlow : c < 0x20
  · by_cases hletter : c ∈ ([0x08, 0x0C, 0x0A, 0x0D, 0x09] : List UInt8)
    · simp only [List.mem_cons, List.not_mem_nil, or_false] at hletter
      rcases hletter with rfl | rfl | rfl | rfl | rfl <;>
        exact Json.spells_escape fun rest => rfl
    · rw [escapeText_control hlow hletter]
      refine Json.spells_escape fun rest => ?_
      have hnat : c.toNat < 32 := UInt8.lt_iff_toNat_lt.mp hlow
      have hzero : Json.hexDigit 0x30 = some 0 := rfl
      have hhigh := hexDigit_hexByte (c.toNat / 16) (by omega)
      have hlast := hexDigit_hexByte (c.toNat % 16) (by omega)
      have hsum : c.toNat / 16 * 16 + c.toNat % 16 = c.toNat := Nat.div_add_mod' c.toNat 16
      have hchar := Utf8.utf8EncodeChar_ofNat (UInt8.lt_trans hlow (by decide))
      have hlow' : ¬ (0xD800 ≤ c.toNat ∧ c.toNat ≤ 0xDBFF) := by omega
      have hhigh' : ¬ (0xDC00 ≤ c.toNat ∧ c.toNat ≤ 0xDFFF) := by omega
      simp [Json.escaped, Json.unicode, Json.hex4, hzero, hhigh, hlast, hsum, hchar, hlow',
        hhigh']
  · by_cases hspecial : c = 0x22 ∨ c = 0x5C
    · rcases hspecial with rfl | rfl
      · exact Json.spells_escape fun rest => rfl
      · exact Json.spells_escape fun rest => rfl
    · have hne := not_or.mp hspecial
      have hhigh := UInt8.not_lt.mp hlow
      rw [escapeText_unescaped hhigh hne.1 hne.2]
      exact Json.spells_unescaped hhigh hne.1 hne.2

theorem escapeText_lt : ∀ c < 0x80, ∀ d ∈ escapeText c, d < 0x80 := by
  have hall : ∀ n < 128, ((escapeText (UInt8.ofNat n)).all fun d => d < 0x80) = true := by
    decide +kernel
  intro c hc d hd
  have hc' := hall c.toNat (UInt8.lt_iff_toNat_lt.mp hc)
  rw [UInt8.ofNat_toNat, List.all_eq_true] at hc'
  exact of_decide_eq_true (hc' d hd)

theorem escapeText_high (c : UInt8) (h : 0x80 ≤ c) : escapeText c = [c] := by
  have hne : ∀ d < 0x80, c ≠ d := by
    intro d hd heq
    exact absurd (heq ▸ hd) (UInt8.not_lt.mpr h)
  exact escapeText_unescaped (UInt8.le_trans (by decide) h) (hne _ (by decide)) (hne _ (by decide))

theorem valid_jsonEscape {value : Str} (h : Utf8.Valid value) : Utf8.Valid (jsonEscape value) := by
  rw [jsonEscape_eq]
  exact h.flatMap escapeText_lt escapeText_high

theorem quoteJson_eq (value : Str) :
    quoteJson value = 0x22 :: (value.flatMap escapeText ++ [0x22]) := by
  rw [quoteJson, jsonEscape_eq]
  rfl

theorem valid_quoteJson {value : Str} (h : Utf8.Valid value) : Utf8.Valid (quoteJson value) :=
  ((valid_jsonEscape h).append (by decide)).cons (by decide)

/-- **A quoted string is read as the string.** -/
theorem reads_quoteJson (value : Str) : Json.Reads (quoteJson value) (.string value) := by
  rw [quoteJson_eq]
  exact (Json.closes_flatMap fun c _ => spells_escapeText c).reads

/-! ## The objects -/

/-- A text of a value, in one line. -/
structure Writes (text : Str) (j : Json) : Prop where
  reads : Json.Reads text j
  valid : Utf8.Valid text
  line : 0x0A ∉ text

/-- What is printed for a member's value. -/
def scalarText : Json → Str
  | .null => str "null"
  | .bool b => if b then str "true" else str "false"
  | .number q => Decimal.text q.num.toNat
  | .string s => quoteJson s
  | .array _ => []
  | .object _ => []

/-- What is printed for a member. -/
def memberText (member : Str × Json) : Str :=
  0x22 :: (member.1 ++ [0x22] ++ 0x3A :: scalarText member.2)

/-- A name that is written as it is. -/
def PlainName (name : Str) : Prop := ∀ c ∈ name, 0x20 ≤ c ∧ c < 0x80 ∧ c ≠ 0x22 ∧ c ≠ 0x5C

theorem newline_notMem_escapeText (c : UInt8) : 0x0A ∉ escapeText c := by
  by_cases hc : c < 0x80
  · have hall : ∀ n < 128, 0x0A ∉ escapeText (UInt8.ofNat n) := by decide +kernel
    have := hall c.toNat (UInt8.lt_iff_toNat_lt.mp hc)
    rwa [UInt8.ofNat_toNat] at this
  · rw [escapeText_high c (UInt8.not_lt.mp hc), List.mem_singleton]
    intro heq
    exact hc (heq ▸ by decide)

theorem writes_quoteJson {s : Str} (h : Utf8.Valid s) :
    Writes (scalarText (.string s)) (.string s) where
  reads := reads_quoteJson s
  valid := valid_quoteJson h
  line := by
    simp [scalarText, quoteJson_eq, newline_notMem_escapeText]

theorem writes_null : Writes (scalarText .null) .null :=
  ⟨Json.reads_null, by decide, by decide⟩

theorem writes_bool (b : Bool) : Writes (scalarText (.bool b)) (.bool b) := by
  cases b with
  | false => exact ⟨Json.reads_false, by decide, by decide⟩
  | true => exact ⟨Json.reads_true, by decide, by decide⟩

theorem writes_number (n : ℕ) : Writes (scalarText (.number n)) (.number n) := by
  have htext : scalarText (.number n) = Decimal.text n := by simp [scalarText]
  rw [htext]
  refine ⟨Json.reads_number n, Utf8.valid_of_forall_lt fun c hc => ?_, fun hc => ?_⟩
  · exact Decimal.isDigit_lt (Decimal.isDigit_of_mem_text hc)
  · exact absurd (Decimal.isDigit_of_mem_text hc) (by decide)

theorem PlainName.closes {name : Str} (h : PlainName name) : Json.Closes (name ++ [0x22]) name := by
  have hclose : Json.Closes (name.flatMap (fun c => [c]) ++ [0x22]) name :=
    Json.closes_flatMap fun c hc =>
      Json.spells_unescaped (h c hc).1 (h c hc).2.2.1 (h c hc).2.2.2
  rwa [List.flatMap_singleton'] at hclose

/-- What the members of an object must be. -/
def Writable (member : Str × Json) : Prop :=
  PlainName member.1 ∧ Writes (scalarText member.2) member.2

theorem PlainName.valid {name : Str} (h : PlainName name) : Utf8.Valid name :=
  Utf8.valid_of_forall_lt fun c hc => (h c hc).2.1

/-- What is printed for an object. -/
def objectText (members : List (Str × Json)) : Str :=
  0x7B :: (Json.commas (members.map memberText) ++ [0x7D])

/-- A name and what is printed for its value. -/
def namedText (name text : Str) : Str := 0x22 :: (name ++ [0x22] ++ 0x3A :: text)

/-- **Members that are written make an object.** -/
theorem writes_named {members : List (Str × Str × Json)}
    (h : ∀ m ∈ members, PlainName m.1 ∧ Writes m.2.1 m.2.2) :
    Writes (0x7B :: (Json.commas (members.map fun m => namedText m.1 m.2.1) ++ [0x7D]))
      (.object (members.map fun m => (m.1, m.2.2))) := by
  constructor
  case reads =>
    have hread : ∀ x ∈ members.map fun m => (namedText m.1 m.2.1, m.1, m.2.2),
        Json.ReadsMember x.1 x.2 := by
      intro x hx
      obtain ⟨m, hm, rfl⟩ := List.mem_map.mp hx
      exact (h m hm).1.closes.member (h m hm).2.reads
    simpa [Function.comp_def] using Json.reads_object hread
  case valid =>
    have hcommas : Utf8.Valid (Json.commas (members.map fun m => namedText m.1 m.2.1)) := by
      refine Json.valid_commas fun t ht => ?_
      obtain ⟨m, hm, rfl⟩ := List.mem_map.mp ht
      have hcolon : (0x3A : UInt8) < 0x80 := by decide
      have hvalue := (h m hm).2.valid.cons hcolon
      exact (((h m hm).1.valid.append (by decide)).append hvalue).cons (by decide)
    exact (hcommas.append (by decide)).cons (by decide)
  case line =>
    have hcommas : 0x0A ∉ Json.commas (members.map fun m => namedText m.1 m.2.1) := by
      refine Json.notMem_commas (by decide) fun t ht => ?_
      obtain ⟨m, hm, rfl⟩ := List.mem_map.mp ht
      have hname : 0x0A ∉ m.1 := fun hc => absurd ((h m hm).1 _ hc).1 (by decide)
      simp [namedText, hname, (h m hm).2.line]
    simp [hcommas]

/-- **An object is written.** -/
theorem writes_object {members : List (Str × Json)} (h : ∀ m ∈ members, Writable m) :
    Writes (objectText members) (.object members) := by
  have hnamed := @writes_named (members.map fun m => (m.1, scalarText m.2, m.2)) fun x hx => by
    obtain ⟨m, hm, rfl⟩ := List.mem_map.mp hx
    exact h m hm
  simp only [List.map_map, Function.comp_def, List.map_id'] at hnamed
  exact hnamed

/-- The event, where there is one. -/
def eventMembers (event : Str) : List (Str × Json) :=
  if event.isEmpty then [] else [(str "event", .string event)]

/-- What a message endpoint is printed as. -/
def messageMembers (e : MessageEndpointInfo) (event : Str) : List (Str × Json) :=
  (str "kind", .string (str "message")) :: (eventMembers event ++
    [(str "topic", .string e.topic), (str "address", .string e.address),
      (str "control_id", .string e.controlId), (str "process_name", .string e.processName),
      (str "node_uuid", .string e.nodeUuid), (str "message_type", .string e.messageType),
      (str "scope", .string (scopeName e.scope)), (str "throttled", .bool e.throttled),
      (str "messages_per_second",
        if e.throttled then .number e.messagesPerSecond.toNat else .null)])

/-- What a service endpoint is printed as. -/
def serviceMembers (e : ServiceEndpointInfo) (event : Str) : List (Str × Json) :=
  (str "kind", .string (str "service")) :: (eventMembers event ++
    [(str "topic", .string e.topic), (str "address", .string e.address),
      (str "socket_id", .string e.socketId), (str "process_name", .string e.processName),
      (str "node_uuid", .string e.nodeUuid), (str "request_type", .string e.requestType),
      (str "response_type", .string e.responseType),
      (str "scope", .string (scopeName e.scope))])

/-- An object with the commas written out. -/
theorem objectText_cons (m : Str × Json) (members : List (Str × Json)) :
    objectText (m :: members) =
      0x7B :: (memberText m ++ (members.flatMap fun m => 0x2C :: memberText m) ++ [0x7D]) := by
  have hcommas : ∀ m, Json.commas ((m :: members).map memberText) =
      memberText m ++ members.flatMap fun m => 0x2C :: memberText m := by
    induction members with
    | nil => simp
    | cons m' members ih =>
        intro m
        have hrest := ih m'
        rw [List.map_cons] at hrest
        rw [List.map_cons, List.map_cons, Json.commas_cons_cons, hrest, List.flatMap_cons]
        rfl
  rw [objectText, hcommas]

theorem cons_memberText (name : String) (j : Json) :
    0x2C :: memberText (str name, j) = jsonMember name (scalarText j) := by
  have hopen : str ",\"" = [0x2C, 0x22] := by decide
  have hclose : str "\":" = [0x22, 0x3A] := by decide
  simp [memberText, jsonMember, hopen, hclose]

theorem flatMap_eventMembers (event : Str) :
    ((eventMembers event).flatMap fun m => 0x2C :: memberText m) =
      if event.isEmpty then [] else jsonMember "event" (quoteJson event) := by
  cases event with
  | nil => rfl
  | cons c event => simp [eventMembers, cons_memberText, scalarText]

theorem messageJson_eq (e : MessageEndpointInfo) (event : Str) :
    messageJson e event = objectText (messageMembers e event) := by
  have hkind : str "\x7b\"kind\":\"message\"" =
      0x7B :: memberText (str "kind", .string (str "message")) := by decide
  have hclose : str "\x7d" = [0x7D] := by decide
  have hrate : scalarText (if e.throttled then .number e.messagesPerSecond.toNat else .null) =
      if e.throttled then Decimal.text e.messagesPerSecond.toNat else str "null" := by
    split <;> simp [scalarText]
  rw [messageMembers, objectText_cons, List.flatMap_append, flatMap_eventMembers, messageJson,
    hkind, hclose]
  simp only [List.flatMap_cons, List.flatMap_nil, cons_memberText, hrate, List.append_assoc,
    List.cons_append, List.append_nil]
  simp only [scalarText]

theorem serviceJson_eq (e : ServiceEndpointInfo) (event : Str) :
    serviceJson e event = objectText (serviceMembers e event) := by
  have hkind : str "\x7b\"kind\":\"service\"" =
      0x7B :: memberText (str "kind", .string (str "service")) := by decide
  have hclose : str "\x7d" = [0x7D] := by decide
  rw [serviceMembers, objectText_cons, List.flatMap_append, flatMap_eventMembers, serviceJson,
    hkind, hclose]
  simp only [List.flatMap_cons, List.flatMap_nil, cons_memberText, List.append_assoc,
    List.cons_append, List.append_nil]
  simp only [scalarText]

/-- What a decoder makes of a message endpoint: every field that is printed, and null for the
rate of one that is not throttled. -/
def messageValue (event : Str) (e : MessageEndpointInfo) : Json := .object (messageMembers e event)

/-- What a decoder makes of a service endpoint. -/
def serviceValue (event : Str) (e : ServiceEndpointInfo) : Json := .object (serviceMembers e event)

/-- The strings that are printed are text. -/
def MessageEndpointInfo.Text (e : MessageEndpointInfo) : Prop :=
  ∀ s ∈ [e.topic, e.address, e.controlId, e.processName, e.nodeUuid, e.messageType], Utf8.Valid s

/-- The strings that are printed are text. -/
def ServiceEndpointInfo.Text (e : ServiceEndpointInfo) : Prop :=
  ∀ s ∈ [e.topic, e.address, e.socketId, e.processName, e.nodeUuid, e.requestType,
    e.responseType], Utf8.Valid s

instance (e : MessageEndpointInfo) : Decidable e.Text :=
  inferInstanceAs (Decidable (∀ s ∈ _, Utf8.Valid s))

instance (e : ServiceEndpointInfo) : Decidable e.Text :=
  inferInstanceAs (Decidable (∀ s ∈ _, Utf8.Valid s))

/-- The names of the members, and the texts that are printed for a field of the code's own. -/
def plainNames : List Str :=
  [str "kind", str "event", str "topic", str "address", str "control_id", str "socket_id",
    str "process_name", str "node_uuid", str "message_type", str "request_type",
    str "response_type", str "scope", str "throttled", str "messages_per_second",
    str "message", str "service", str "process", str "host", str "all"]

theorem plainName_of_mem : ∀ name ∈ plainNames, PlainName name := by
  have hall : (plainNames.all fun name =>
      name.all fun c => 0x20 ≤ c ∧ c < 0x80 ∧ c ≠ 0x22 ∧ c ≠ 0x5C) = true := by
    decide +kernel
  intro name hname c hc
  exact of_decide_eq_true (List.all_eq_true.mp (List.all_eq_true.mp hall name hname) c hc)

theorem writable {name : Str} {j : Json} (hname : name ∈ plainNames)
    (h : Writes (scalarText j) j) : Writable (name, j) :=
  ⟨plainName_of_mem name hname, h⟩

theorem writable_string {name s : Str} (hname : name ∈ plainNames) (h : Utf8.Valid s) :
    Writable (name, .string s) :=
  writable hname (writes_quoteJson h)

theorem valid_of_mem {name : Str} (h : name ∈ plainNames) : Utf8.Valid name :=
  (plainName_of_mem name h).valid

theorem scopeName_mem (scope : Scope) : scopeName scope ∈ plainNames := by
  cases scope <;> decide

theorem writable_eventMembers {event : Str} (h : Utf8.Valid event) :
    ∀ m ∈ eventMembers event, Writable m := by
  intro m hm
  rw [eventMembers] at hm
  split at hm
  case isTrue => cases hm
  case isFalse =>
    rw [List.mem_singleton.mp hm]
    exact writable_string (by decide) h

/-- **A message endpoint is written as its value.** -/
theorem writes_messageJson {e : MessageEndpointInfo} {event : Str} (he : e.Text)
    (hevent : Utf8.Valid event) : Writes (messageJson e event) (messageValue event e) := by
  rw [messageJson_eq]
  refine writes_object ?_
  simp only [MessageEndpointInfo.Text, List.forall_mem_cons] at he
  obtain ⟨htopic, haddress, hcontrol, hprocess, hnode, htype, -⟩ := he
  have hrate : Writes
      (scalarText (if e.throttled then .number e.messagesPerSecond.toNat else .null))
      (if e.throttled then .number e.messagesPerSecond.toNat else .null) := by
    split
    case isTrue => exact writes_number _
    case isFalse => exact writes_null
  simp only [messageMembers, List.forall_mem_cons, List.forall_mem_append]
  refine ⟨writable_string (by decide) (valid_of_mem (by decide)), writable_eventMembers hevent,
    writable_string (by decide) htopic, writable_string (by decide) haddress,
    writable_string (by decide) hcontrol, writable_string (by decide) hprocess,
    writable_string (by decide) hnode, writable_string (by decide) htype,
    writable_string (by decide) (valid_of_mem (scopeName_mem _)),
    writable (by decide) (writes_bool _), writable (by decide) hrate, ?_⟩
  simp

/-- **A service endpoint is written as its value.** -/
theorem writes_serviceJson {e : ServiceEndpointInfo} {event : Str} (he : e.Text)
    (hevent : Utf8.Valid event) : Writes (serviceJson e event) (serviceValue event e) := by
  rw [serviceJson_eq]
  refine writes_object ?_
  simp only [ServiceEndpointInfo.Text, List.forall_mem_cons] at he
  obtain ⟨htopic, haddress, hsocket, hprocess, hnode, hrequest, hresponse, -⟩ := he
  simp only [serviceMembers, List.forall_mem_cons, List.forall_mem_append]
  refine ⟨writable_string (by decide) (valid_of_mem (by decide)), writable_eventMembers hevent,
    writable_string (by decide) htopic, writable_string (by decide) haddress,
    writable_string (by decide) hsocket, writable_string (by decide) hprocess,
    writable_string (by decide) hnode, writable_string (by decide) hrequest,
    writable_string (by decide) hresponse,
    writable_string (by decide) (valid_of_mem (scopeName_mem _)), ?_⟩
  simp

/-! ## The output -/

section Output

variable {E : Type} {table : List E → Str → OStream → OStream} {json : E → Str → Str}
  {value : E → Json} {event : Str} {endpoints : List E}

theorem putArray_eq (json : E → Str) (endpoints : List E) (o : Str) :
    putArray json endpoints { out := o } = { out := o ++ Json.commas (endpoints.map json) } := by
  have hput : ∀ o t : Str, ({ out := o } : OStream).put t = { out := o ++ t } :=
    fun o t => OStream.put_of_width rfl t
  cases endpoints with
  | nil => simp [putArray]
  | cons e endpoints =>
      rw [putArray, hput]
      induction endpoints generalizing e o with
      | nil => simp
      | cons e' endpoints ih =>
          have hrest := ih (o ++ json e ++ str ",") e'
          simp only [List.foldl_cons, hput, List.map_cons] at hrest ⊢
          rw [hrest, Json.commas_cons_cons]
          simp [str]

theorem printEndpoints_json :
    (printEndpoints table json endpoints .json event {}).out =
      0x5B :: (Json.commas (endpoints.map (json · event)) ++ [0x5D]) ++ [0x0A] := by
  have hopen : ({} : OStream).put (str "[") = { out := [0x5B] } := by decide
  have hclose : str "]\n" = [0x5D, 0x0A] := by decide
  rw [printEndpoints, hopen, putArray_eq, OStream.put_of_width rfl, hclose]
  simp

theorem printEndpoints_jsonLines :
    (printEndpoints table json endpoints .jsonLines event {}).out =
      endpoints.flatMap fun e => json e event ++ [0x0A] := by
  have hnewline : str "\n" = [0x0A] := by decide
  have hfold : ∀ o : Str, endpoints.foldl
      (fun out e => (out.put (json e event)).put (str "\n")) ({ out := o } : OStream) =
      { out := o ++ endpoints.flatMap fun e => json e event ++ [0x0A] } := by
    induction endpoints with
    | nil => simp
    | cons e endpoints ih =>
        intro o
        rw [List.foldl_cons, OStream.put_of_width rfl, OStream.put_of_width rfl, ih, hnewline]
        simp
  rw [printEndpoints, hfold, List.nil_append]

/-- **One array.** -/
theorem decode_json (h : ∀ e ∈ endpoints, Writes (json e event) (value e)) :
    Json.decode (printEndpoints table json endpoints .json event {}).out =
      some (.array (endpoints.map value)) := by
  have hread : ∀ x ∈ endpoints.map fun e => (json e event, value e), Json.Reads x.1 x.2 := by
    intro x hx
    obtain ⟨e, he, rfl⟩ := List.mem_map.mp hx
    exact (h e he).reads
  have harray := Json.reads_array hread
  simp only [List.map_map, Function.comp_def] at harray
  have hcommas : Utf8.Valid (Json.commas (endpoints.map (json · event))) := by
    refine Json.valid_commas fun t ht => ?_
    obtain ⟨e, he, rfl⟩ := List.mem_map.mp ht
    exact (h e he).valid
  have hnewline : ∀ c ∈ ([0x0A] : Str), Json.isSpace c = true := by
    simp [Json.isSpace]
  rw [printEndpoints_json]
  refine harray.decode hnewline ?_
  exact ((hcommas.append (by decide)).cons (by decide)).append (by decide)

/-- **One object a line.** -/
theorem decode_jsonLines (h : ∀ e ∈ endpoints, Writes (json e event) (value e)) :
    ∃ lines : List Str,
      (printEndpoints table json endpoints .jsonLines event {}).out =
        lines.flatMap (· ++ [0x0A]) ∧
      List.Forall₂ (fun line e => 0x0A ∉ line ∧ Json.decode line = some (value e)) lines
        endpoints := by
  refine ⟨endpoints.map (json · event), ?_, ?_⟩
  · rw [printEndpoints_jsonLines, List.flatMap_map]
  · rw [List.forall₂_map_left_iff, List.forall₂_same]
    intro e he
    have hdecode := (h e he).reads.decode (List.forall_mem_nil _)
      (by rw [List.append_nil]; exact (h e he).valid)
    rw [List.append_nil] at hdecode
    exact ⟨(h e he).line, hdecode⟩

end Output

/-- **The JSON output is faithful.** -/
theorem json_output_faithful {event : Str} (hevent : Utf8.Valid event) :
    (∀ endpoints : List MessageEndpointInfo, (∀ e ∈ endpoints, e.Text) →
      Json.decode (printMessages endpoints .json event {}).out =
        some (.array (endpoints.map (messageValue event))) ∧
      ∃ lines : List Str,
        (printMessages endpoints .jsonLines event {}).out = lines.flatMap (· ++ [0x0A]) ∧
        List.Forall₂ (fun line e => 0x0A ∉ line ∧
          Json.decode line = some (messageValue event e)) lines endpoints) ∧
    (∀ endpoints : List ServiceEndpointInfo, (∀ e ∈ endpoints, e.Text) →
      Json.decode (printServices endpoints .json event {}).out =
        some (.array (endpoints.map (serviceValue event))) ∧
      ∃ lines : List Str,
        (printServices endpoints .jsonLines event {}).out = lines.flatMap (· ++ [0x0A]) ∧
        List.Forall₂ (fun line e => 0x0A ∉ line ∧
          Json.decode line = some (serviceValue event e)) lines endpoints) := by
  constructor
  · intro endpoints h
    have hwrites : ∀ e ∈ endpoints, Writes (messageJson e event) (messageValue event e) :=
      fun e he => writes_messageJson (h e he) hevent
    exact ⟨decode_json hwrites, decode_jsonLines hwrites⟩
  · intro endpoints h
    have hwrites : ∀ e ∈ endpoints, Writes (serviceJson e event) (serviceValue event e) :=
      fun e he => writes_serviceJson (h e he) hevent
    exact ⟨decode_json hwrites, decode_jsonLines hwrites⟩

/-- A topic with everything that has to be escaped, and a character of two bytes. -/
def hostileTopic : Str := Utf8.encode ['"', '\\', '\n', Char.ofNat 1, 'é']

/-- A publisher and a responder of this topic are printed faithfully. -/
theorem hostileTopic_output_faithful :
    Json.decode (printMessages [{ topic := hostileTopic }] .json (str "added") {}).out =
      some (.array [messageValue (str "added") { topic := hostileTopic }]) ∧
    Json.decode (printServices [{ topic := hostileTopic }] .json (str "added") {}).out =
      some (.array [serviceValue (str "added") { topic := hostileTopic }]) := by
  have hevent : Utf8.Valid (str "added") := Utf8.valid_of_forall_lt (by simp [str])
  have hmessage : ({ topic := hostileTopic } : MessageEndpointInfo).Text := by
    simp [MessageEndpointInfo.Text, hostileTopic, Utf8.valid_encode]
  have hservice : ({ topic := hostileTopic } : ServiceEndpointInfo).Text := by
    simp [ServiceEndpointInfo.Text, hostileTopic, Utf8.valid_encode]
  have hfaithful := json_output_faithful hevent
  exact ⟨(hfaithful.1 _ (List.forall_mem_singleton.mpr hmessage)).1,
    (hfaithful.2 _ (List.forall_mem_singleton.mpr hservice)).1⟩

end RfTrans
