import RfTrans.Lib.Decimal
import RfTrans.Lib.Utf8
import Mathlib.Data.List.TakeWhile
import Mathlib.Data.Rat.Defs
import Mathlib.Algebra.Order.Field.Rat

/-!
# JSON texts

A reader for the JSON grammar, and what it makes of texts that are put together from smaller
ones.  A text is a sequence of bytes in UTF-8.  All structural characters are below 0x80 and
no byte of a longer character is, so the grammar is read off the bytes.

## Main definitions

* `Json`, `Json.decode`
* `Json.Spells` — a piece of text stands for a byte or more of a string.
* `Json.Reads` — a piece of text stands for a value.
* `Json.Reads.string`, `Json.Reads.array`, `Json.Reads.object`
-/

/-- A JSON value, its strings in UTF-8. -/
inductive Json
  | null
  | bool (b : Bool)
  | number (q : ℚ)
  | string (s : List UInt8)
  | array (values : List Json)
  | object (members : List (List UInt8 × Json))

namespace Json

/-! ## The grammar -/

/-- `ws` -/
def isSpace (c : UInt8) : Bool := c = 0x20 ∨ c = 0x09 ∨ c = 0x0A ∨ c = 0x0D

/-- What follows the white space. -/
def skip (cs : List UInt8) : List UInt8 := cs.dropWhile isSpace

/-- Digits and what follows them. -/
def digits (cs : List UInt8) : List UInt8 × List UInt8 :=
  (cs.takeWhile Decimal.isDigit, cs.dropWhile Decimal.isDigit)

/-- `int`: no zero before other digits. -/
def int (cs : List UInt8) : Option (ℕ × List UInt8) :=
  match digits cs with
  | ([], _) => none
  | (d :: ds, cs) => if d = 48 ∧ ds ≠ [] then none else some (Decimal.value (d :: ds), cs)

/-- `frac`, which may be absent. -/
def frac (cs : List UInt8) : Option (ℚ × List UInt8) :=
  match cs with
  | 0x2E :: cs =>
    match digits cs with
    | ([], _) => none
    | (ds, cs) => some (Decimal.value ds / 10 ^ ds.length, cs)
  | cs => some (0, cs)

/-- The digits of `exp`. -/
def expDigits (sign : ℤ) (cs : List UInt8) : Option (ℤ × List UInt8) :=
  match digits cs with
  | ([], _) => none
  | (ds, cs) => some (sign * Decimal.value ds, cs)

/-- `exp`, which may be absent. -/
def exp (cs : List UInt8) : Option (ℤ × List UInt8) :=
  match cs with
  | c :: cs' =>
    if c = 0x65 ∨ c = 0x45 then
      match cs' with
      | 0x2B :: cs => expDigits 1 cs
      | 0x2D :: cs => expDigits (-1) cs
      | cs => expDigits 1 cs
    else some (0, cs)
  | [] => some (0, [])

/-- `number` without its sign. -/
def unsigned (cs : List UInt8) : Option (ℚ × List UInt8) :=
  (int cs).bind fun (n, cs) =>
    (frac cs).bind fun (f, cs) =>
      (exp cs).map fun (e, cs) => ((n + f) * 10 ^ e, cs)

/-- `number` -/
def readNumber (cs : List UInt8) : Option (ℚ × List UInt8) :=
  match cs with
  | 0x2D :: cs => (unsigned cs).map fun (q, cs) => (-q, cs)
  | cs => unsigned cs

/-- `HEXDIG` -/
def hexDigit (c : UInt8) : Option ℕ :=
  if 0x30 ≤ c ∧ c ≤ 0x39 then some (c.toNat - 0x30)
  else if 0x41 ≤ c ∧ c ≤ 0x46 then some (c.toNat - 0x41 + 10)
  else if 0x61 ≤ c ∧ c ≤ 0x66 then some (c.toNat - 0x61 + 10)
  else none

/-- `4HEXDIG` -/
def hex4 (cs : List UInt8) : Option (ℕ × List UInt8) :=
  match cs with
  | a :: b :: c :: d :: cs =>
    (hexDigit a).bind fun a => (hexDigit b).bind fun b => (hexDigit c).bind fun c =>
      (hexDigit d).map fun d => (((a * 16 + b) * 16 + c) * 16 + d, cs)
  | _ => none

/-- What follows the first half of a surrogate pair. -/
def lowSurrogate (high : ℕ) (cs : List UInt8) : Option (List UInt8 × List UInt8) :=
  match cs with
  | 0x5C :: 0x75 :: cs =>
    (hex4 cs).bind fun (low, cs) =>
      if 0xDC00 ≤ low ∧ low ≤ 0xDFFF then
        let c := Char.ofNat (0x10000 + (high - 0xD800) * 0x400 + (low - 0xDC00))
        some (String.utf8EncodeChar c, cs)
      else none
  | _ => none

/-- What follows `\u`.  Half a surrogate pair is no character. -/
def unicode (cs : List UInt8) : Option (List UInt8 × List UInt8) :=
  (hex4 cs).bind fun (n, cs) =>
    if 0xD800 ≤ n ∧ n ≤ 0xDBFF then lowSurrogate n cs
    else if 0xDC00 ≤ n ∧ n ≤ 0xDFFF then none
    else some (String.utf8EncodeChar (Char.ofNat n), cs)

/-- What follows `escape`. -/
def escaped (cs : List UInt8) : Option (List UInt8 × List UInt8) :=
  match cs with
  | [] => none
  | c :: cs =>
    if c = 0x22 ∨ c = 0x5C ∨ c = 0x2F then some ([c], cs)
    else if c = 0x62 then some ([0x08], cs)
    else if c = 0x66 then some ([0x0C], cs)
    else if c = 0x6E then some ([0x0A], cs)
    else if c = 0x72 then some ([0x0D], cs)
    else if c = 0x74 then some ([0x09], cs)
    else if c = 0x75 then unicode cs
    else none

/-- What follows the first `quotation-mark` of a `string`. -/
def readString : ℕ → List UInt8 → Option (List UInt8 × List UInt8)
  | 0, _ => none
  | _, [] => none
  | n + 1, c :: cs =>
    if c = 0x22 then some ([], cs)
    else if c = 0x5C then
      (escaped cs).bind fun (s, cs) => (readString n cs).map fun (t, cs) => (s ++ t, cs)
    else if c < 0x20 then none
    else (readString n cs).map fun (t, cs) => (c :: t, cs)

section Items

variable {α : Type*}

/-- One or more items, a `value-separator` between them, and the closing bracket. -/
def readItems (item : List UInt8 → Option (α × List UInt8)) (close : UInt8) :
    ℕ → List UInt8 → Option (List α × List UInt8)
  | 0, _ => none
  | n + 1, cs =>
    (item cs).bind fun (x, cs) =>
      match skip cs with
      | [] => none
      | c :: cs =>
        if c = 0x2C then (readItems item close n cs).map fun (l, cs) => (x :: l, cs)
        else if c = close then some ([x], cs)
        else none

/-- What follows an opening bracket. -/
def readBracket (item : List UInt8 → Option (α × List UInt8)) (close : UInt8) (n : ℕ)
    (cs : List UInt8) : Option (List α × List UInt8) :=
  match skip cs with
  | [] => none
  | c :: rest => if c = close then some ([], rest) else readItems item close n cs

end Items

/-- `member`: a string, a `name-separator` and a value. -/
def readMember (value : List UInt8 → Option (Json × List UInt8)) (n : ℕ) (cs : List UInt8) :
    Option ((List UInt8 × Json) × List UInt8) :=
  match skip cs with
  | 0x22 :: cs =>
    (readString n cs).bind fun (name, cs) =>
      match skip cs with
      | 0x3A :: cs => (value cs).map fun (j, cs) => ((name, j), cs)
      | _ => none
  | _ => none

/-- One of the three literal names. -/
def readLiteral (name : List UInt8) (j : Json) (cs : List UInt8) : Option (Json × List UInt8) :=
  if name.isPrefixOf cs then some (j, cs.drop name.length) else none

/-- `value`, nested at most so deep. -/
def readValue : ℕ → List UInt8 → Option (Json × List UInt8)
  | 0, _ => none
  | n + 1, cs =>
    match skip cs with
    | [] => none
    | c :: cs =>
      if c = 0x22 then (readString n cs).map fun (s, cs) => (.string s, cs)
      else if c = 0x5B then
        (readBracket (readValue n) 0x5D n cs).map fun (l, cs) => (.array l, cs)
      else if c = 0x7B then
        (readBracket (readMember (readValue n) n) 0x7D n cs).map fun (l, cs) => (.object l, cs)
      else if c = 0x74 then readLiteral [0x72, 0x75, 0x65] (.bool true) cs
      else if c = 0x66 then readLiteral [0x61, 0x6C, 0x73, 0x65] (.bool false) cs
      else if c = 0x6E then readLiteral [0x75, 0x6C, 0x6C] .null cs
      else (readNumber (c :: cs)).map fun (q, cs) => (.number q, cs)

/-- `JSON-text`: one value, and the nesting is no deeper than the text is long. -/
def decode (text : List UInt8) : Option Json :=
  if Utf8.Valid text then
    (readValue text.length text).bind fun (j, cs) => if skip cs = [] then some j else none
  else none

/-! ## Pieces of text -/

variable {s t text rest : List UInt8} {j : Json} {n : ℕ}

@[simp] theorem skip_cons {c : UInt8} (h : isSpace c = false) (cs : List UInt8) :
    skip (c :: cs) = c :: cs := by
  simp [skip, h]

theorem skip_of_forall (h : ∀ c ∈ s, isSpace c = true) : skip s = [] := by
  rw [skip, List.dropWhile_eq_nil_iff]
  exact h

/-- A number before this is over. -/
def Ends (rest : List UInt8) : Prop :=
  ∀ c cs, rest = c :: cs → Decimal.isDigit c = false ∧ c ≠ 0x2E ∧ c ≠ 0x65 ∧ c ≠ 0x45

theorem ends_nil : Ends [] := by
  intro c cs h
  cases h

theorem ends_cons {c : UInt8} (h : Decimal.isDigit c = false ∧ c ≠ 0x2E ∧ c ≠ 0x65 ∧ c ≠ 0x45)
    (cs : List UInt8) : Ends (c :: cs) := by
  intro d ds heq
  cases heq
  exact h

/-- White space ends a number. -/
theorem ends_of_forall (h : ∀ c ∈ s, isSpace c = true) : Ends s := by
  cases s with
  | nil => exact ends_nil
  | cons c s =>
      refine ends_cons ?_ s
      have hc := h c List.mem_cons_self
      simp only [isSpace, decide_eq_true_eq] at hc
      rcases hc with rfl | rfl | rfl | rfl <;> decide

/-! ### Strings -/

/-- In a string `t` stands for `s`. -/
structure Spells (t s : List UInt8) : Prop where
  ne_nil : t ≠ []
  read : ∀ n rest, readString (n + 1) (t ++ rest) =
    (readString n rest).map fun (u, cs) => (s ++ u, cs)

/-- `unescaped` -/
theorem spells_unescaped {c : UInt8} (h : 0x20 ≤ c) (hquote : c ≠ 0x22) (hescape : c ≠ 0x5C) :
    Spells [c] [c] where
  ne_nil := List.cons_ne_nil c []
  read n rest := by
    simp [readString, hquote, hescape, UInt8.not_lt.mpr h]

/-- What `escape` leads in. -/
theorem spells_escape (h : ∀ rest, escaped (t ++ rest) = some (s, rest)) :
    Spells (0x5C :: t) s where
  ne_nil := List.cons_ne_nil _ t
  read n rest := by
    simp [readString, h]

/-- `t` is a string up to the closing `quotation-mark`, and stands for `s`. -/
def Closes (t s : List UInt8) : Prop :=
  ∀ n, t.length ≤ n → ∀ rest, readString n (t ++ rest) = some (s, rest)

/-- **A string is read byte by byte.** -/
theorem closes_flatMap {f : UInt8 → List UInt8} (h : ∀ c ∈ s, Spells (f c) [c]) :
    Closes (s.flatMap f ++ [0x22]) s := by
  induction s with
  | nil =>
      intro n hn rest
      obtain ⟨m, rfl⟩ := Nat.exists_eq_add_of_le' hn
      simp [readString]
  | cons c s ih =>
      intro n hn rest
      have hc := h c List.mem_cons_self
      have hpos := List.length_pos_iff.mpr hc.ne_nil
      simp only [List.flatMap_cons, List.append_assoc, List.length_append] at hn ⊢
      obtain ⟨m, rfl⟩ := Nat.exists_eq_add_of_le' (hpos.trans_le (Nat.le_of_add_right_le hn))
      have hrest := ih (fun d hd => h d (List.mem_cons_of_mem c hd)) m
        (by rw [List.length_append]; omega) rest
      rw [hc.read, ← List.append_assoc, hrest]
      rfl

/-! ### Values -/

/-- `text` stands for the value. -/
structure Reads (text : List UInt8) (j : Json) : Prop where
  starts : ∃ c cs, text = c :: cs ∧ isSpace c = false ∧ c ≠ 0x5D
  read : ∀ n, text.length ≤ n → ∀ rest, Ends rest → readValue n (text ++ rest) = some (j, rest)

theorem reads_null : Reads [0x6E, 0x75, 0x6C, 0x6C] .null where
  starts := ⟨_, _, rfl, by decide, by decide⟩
  read n hn rest _ := by
    obtain ⟨m, rfl⟩ := Nat.exists_eq_add_of_le' hn
    simp [readValue, readLiteral, skip, isSpace]

theorem reads_true : Reads [0x74, 0x72, 0x75, 0x65] (.bool true) where
  starts := ⟨_, _, rfl, by decide, by decide⟩
  read n hn rest _ := by
    obtain ⟨m, rfl⟩ := Nat.exists_eq_add_of_le' hn
    simp [readValue, readLiteral, skip, isSpace]

theorem reads_false : Reads [0x66, 0x61, 0x6C, 0x73, 0x65] (.bool false) where
  starts := ⟨_, _, rfl, by decide, by decide⟩
  read n hn rest _ := by
    obtain ⟨m, rfl⟩ := Nat.exists_eq_add_of_le' hn
    simp [readValue, readLiteral, skip, isSpace]

/-- A string. -/
theorem Closes.reads (h : Closes t s) : Reads (0x22 :: t) (.string s) where
  starts := ⟨_, _, rfl, by decide, by decide⟩
  read n hn rest _ := by
    obtain ⟨m, rfl⟩ := Nat.exists_eq_add_of_le' (Nat.le_of_add_left_le hn)
    have hclose := h m (Nat.le_of_succ_le_succ hn) rest
    simp [readValue, skip, isSpace, hclose]

/-- The digits of a number end where it does. -/
theorem digits_append {ds : List UInt8} (hds : ∀ c ∈ ds, Decimal.isDigit c = true)
    (hrest : Ends rest) : digits (ds ++ rest) = (ds, rest) := by
  rw [digits, List.takeWhile_append_of_pos hds, List.dropWhile_append_of_pos hds]
  cases rest with
  | nil => simp
  | cons c rest => simp [(hrest c rest rfl).1]

theorem frac_of_ends (h : Ends rest) : frac rest = some (0, rest) := by
  cases rest with
  | nil => rfl
  | cons c rest =>
      rw [frac]
      intro cs heq
      exact (h c rest rfl).2.1 (List.cons.inj heq).1

theorem exp_of_ends (h : Ends rest) : exp rest = some (0, rest) := by
  cases rest with
  | nil => rfl
  | cons c rest =>
      have hc := (h c rest rfl).2.2
      simp [exp, hc.1, hc.2]

theorem unsigned_text (n : ℕ) (h : Ends rest) :
    unsigned (Decimal.text n ++ rest) = some ((n : ℚ), rest) := by
  have hdigits : digits (Decimal.text n ++ rest) = (Decimal.text n, rest) :=
    digits_append (fun c hc => Decimal.isDigit_of_mem_text hc) h
  obtain ⟨c, ds, htext, -, hzero⟩ := Decimal.exists_text_eq n
  have hint : int (Decimal.text n ++ rest) = some (n, rest) := by
    rw [int, hdigits, htext]
    have hvalue : Decimal.value (c :: ds) = n := by rw [← htext, Decimal.value_text]
    simp only [hvalue]
    rw [if_neg]
    intro hboth
    exact hboth.2 (hzero hboth.1)
  simp [unsigned, hint, frac_of_ends h, exp_of_ends h]

theorem ne_of_isDigit {c d : UInt8} (hc : Decimal.isDigit c = true)
    (hd : Decimal.isDigit d = false) : c ≠ d := by
  intro h
  rw [h, hd] at hc
  cases hc

/-- What starts with a digit is a number. -/
theorem reads_unsigned {q : ℚ} {c : UInt8} (hdigit : Decimal.isDigit c = true)
    (h : ∀ rest, Ends rest → unsigned (c :: t ++ rest) = some (q, rest)) :
    Reads (c :: t) (.number q) := by
  have hne : ∀ d, Decimal.isDigit d = false → c ≠ d := fun d => ne_of_isDigit hdigit
  have hspace : isSpace c = false := by
    simp [isSpace, hne 0x20 (by decide), hne 0x09 (by decide), hne 0x0A (by decide),
      hne 0x0D (by decide)]
  refine ⟨⟨c, t, rfl, hspace, hne _ (by decide)⟩, ?_⟩
  intro n hn rest hrest
  have hnumber : readNumber (c :: (t ++ rest)) = some (q, rest) := by
    rw [readNumber]
    · exact h rest hrest
    · intro cs heq
      exact hne 0x2D (by decide) (List.cons.inj heq).1
  rw [List.length_cons] at hn
  obtain ⟨m, rfl⟩ := Nat.exists_eq_add_of_le' (Nat.le_of_add_left_le hn)
  simp only [List.cons_append, readValue, skip_cons hspace]
  rw [if_neg (hne _ (by decide)), if_neg (hne _ (by decide)), if_neg (hne _ (by decide)),
    if_neg (hne _ (by decide)), if_neg (hne _ (by decide)), if_neg (hne _ (by decide)), hnumber]
  rfl

/-- **A number.** -/
theorem reads_number (n : ℕ) : Reads (Decimal.text n) (.number n) := by
  obtain ⟨c, ds, htext, hdigit, -⟩ := Decimal.exists_text_eq n
  rw [htext]
  refine reads_unsigned hdigit fun rest hrest => ?_
  rw [← htext]
  exact unsigned_text n hrest

/-! ### Lists -/

section Items

variable {α : Type*} {item : List UInt8 → Option (α × List UInt8)} {close : UInt8}

/-- The texts with a `value-separator` between them. -/
def commas (texts : List (List UInt8)) : List UInt8 := [0x2C].intercalate texts

@[simp] theorem commas_nil : commas [] = [] := rfl

@[simp] theorem commas_singleton (x : List UInt8) : commas [x] = x := List.intercalate_singleton

@[simp] theorem commas_cons_cons (x y : List UInt8) (l : List (List UInt8)) :
    commas (x :: y :: l) = x ++ 0x2C :: commas (y :: l) := by
  simp [commas, List.intercalate_cons_cons]

theorem valid_commas {l : List (List UInt8)} (h : ∀ t ∈ l, Utf8.Valid t) :
    Utf8.Valid (commas l) := by
  induction l with
  | nil => exact Utf8.valid_nil
  | cons t l ih =>
      have ht := h t List.mem_cons_self
      have hl := ih fun u hu => h u (List.mem_cons_of_mem t hu)
      cases l with
      | nil => simpa using ht
      | cons u l =>
          rw [commas_cons_cons]
          exact ht.append (hl.cons (by decide))

theorem notMem_commas {c : UInt8} (hc : c ≠ 0x2C) {l : List (List UInt8)}
    (h : ∀ t ∈ l, c ∉ t) : c ∉ commas l := by
  induction l with
  | nil => simp
  | cons t l ih =>
      have ht := h t List.mem_cons_self
      have hl := ih fun u hu => h u (List.mem_cons_of_mem t hu)
      cases l with
      | nil => simpa using ht
      | cons u l => simp [ht, hl, hc]

theorem length_le_commas {x : List UInt8} {l : List (List UInt8)} (h : x ∈ l) :
    x.length ≤ (commas l).length := by
  induction l with
  | nil => cases h
  | cons y l ih =>
      cases l with
      | nil => simp [List.mem_singleton.mp h]
      | cons z l =>
          rw [commas_cons_cons, List.length_append, List.length_cons]
          rcases List.mem_cons.mp h with rfl | h
          · omega
          · have := ih h
            omega

theorem length_le_length_commas {l : List (List UInt8)} (h : ∀ x ∈ l, x ≠ []) :
    l.length ≤ (commas l).length := by
  induction l with
  | nil => exact Nat.le_refl 0
  | cons y l ih =>
      have hy := List.length_pos_iff.mpr (h y List.mem_cons_self)
      have hl := ih fun x hx => h x (List.mem_cons_of_mem y hx)
      cases l with
      | nil => simpa using Nat.succ_le_of_lt hy
      | cons z l =>
          simp only [commas_cons_cons, List.length_append, List.length_cons] at hl ⊢
          omega

theorem length_le_of_commas {l : List (List UInt8 × α)} (h : ∀ x ∈ l, x.1 ≠ [])
    (hn : (commas (l.map (·.1))).length ≤ n) : l.length ≤ n := by
  have hcount : (l.map (·.1)).length ≤ (commas (l.map (·.1))).length := by
    refine length_le_length_commas fun t ht => ?_
    obtain ⟨x, hx, rfl⟩ := List.mem_map.mp ht
    exact h x hx
  rw [List.length_map] at hcount
  exact hcount.trans hn

/-- A byte that closes a list. -/
structure Closing (close : UInt8) : Prop where
  space : isSpace close = false
  ne : close ≠ 0x2C
  ends : Decimal.isDigit close = false ∧ close ≠ 0x2E ∧ close ≠ 0x65 ∧ close ≠ 0x45

/-- **One or more items.** -/
theorem readItems_commas (hclose : Closing close) {l : List (List UInt8 × α)} (hne : l ≠ [])
    (h : ∀ x ∈ l, ∀ rest, Ends rest → item (x.1 ++ rest) = some (x.2, rest)) (hn : l.length ≤ n) :
    readItems item close n (commas (l.map (·.1)) ++ close :: rest) =
      some (l.map (·.2), rest) := by
  induction l generalizing n with
  | nil => exact absurd rfl hne
  | cons x l ih =>
      obtain ⟨m, rfl⟩ := Nat.exists_eq_add_of_le' (Nat.le_of_add_left_le hn)
      have hx := h x List.mem_cons_self
      cases l with
      | nil =>
          have hitem := hx (close :: rest) (ends_cons hclose.ends rest)
          simp [readItems, hitem, skip_cons hclose.space, hclose.ne]
      | cons y l =>
          have hrest := ih (List.cons_ne_nil y l) (fun z hz => h z (List.mem_cons_of_mem x hz))
            (Nat.le_of_succ_le_succ hn)
          have hitem := hx (0x2C :: (commas ((y :: l).map (·.1)) ++ close :: rest))
            (ends_cons (by decide) _)
          have hcomma : isSpace 0x2C = false := by decide
          simp only [List.map_cons, commas_cons_cons, List.append_assoc, List.cons_append]
          simp only [List.map_cons] at hrest hitem
          simp [readItems, hitem, skip_cons hcomma, hrest]

/-- **Items in brackets.** -/
theorem readBracket_commas (hclose : Closing close) {l : List (List UInt8 × α)}
    (hstarts : ∀ x ∈ l, ∃ c cs, x.1 = c :: cs ∧ isSpace c = false ∧ c ≠ close)
    (h : ∀ x ∈ l, ∀ rest, Ends rest → item (x.1 ++ rest) = some (x.2, rest)) (hn : l.length ≤ n) :
    readBracket item close n (commas (l.map (·.1)) ++ close :: rest) =
      some (l.map (·.2), rest) := by
  cases l with
  | nil => simp [readBracket, skip_cons hclose.space]
  | cons x l =>
      have hitems : readItems item close n (commas ((x :: l).map (·.1)) ++ close :: rest) =
          some ((x :: l).map (·.2), rest) := readItems_commas hclose (List.cons_ne_nil x l) h hn
      obtain ⟨c, cs, hx, hspace, hne⟩ := hstarts x List.mem_cons_self
      have hhead : ∃ ds, commas ((x :: l).map (·.1)) ++ close :: rest = c :: ds := by
        cases l with
        | nil => exact ⟨_, by simp [hx]; rfl⟩
        | cons y l => exact ⟨_, by simp [hx]; rfl⟩
      obtain ⟨ds, hds⟩ := hhead
      rw [hds] at hitems ⊢
      simp [readBracket, skip_cons hspace, hne, hitems]

end Items

/-- **An array.** -/
theorem reads_array {l : List (List UInt8 × Json)} (h : ∀ x ∈ l, Reads x.1 x.2) :
    Reads (0x5B :: (commas (l.map (·.1)) ++ [0x5D])) (.array (l.map (·.2))) where
  starts := ⟨_, _, rfl, by decide, by decide⟩
  read n hn rest _ := by
    have hopen : isSpace 0x5B = false := by decide
    have hclose : Closing 0x5D := ⟨by decide, by decide, by decide⟩
    obtain ⟨m, rfl⟩ := Nat.exists_eq_add_of_le' (Nat.le_of_add_left_le hn)
    have hinner : (commas (l.map (·.1))).length ≤ m := by
      simp only [List.length_cons, List.length_append] at hn
      omega
    have hne : ∀ x ∈ l, x.1 ≠ [] := by
      intro x hx
      obtain ⟨c, cs, hcs, -⟩ := (h x hx).starts
      simp [hcs]
    have hitems : readBracket (readValue m) 0x5D m (commas (l.map (·.1)) ++ 0x5D :: rest) =
        some (l.map (·.2), rest) :=
      readBracket_commas hclose (fun x hx => (h x hx).starts)
        (fun x hx rest hrest => (h x hx).read m
          ((length_le_commas (List.mem_map_of_mem hx)).trans hinner) rest hrest)
        (length_le_of_commas hne hinner)
    simp only [List.cons_append, List.append_assoc, List.nil_append, readValue, skip_cons hopen]
    simp [hitems]

/-- `text` stands for a member: `t` up to the end of its name, and the value. -/
structure ReadsMember (text : List UInt8) (member : List UInt8 × Json) : Prop where
  eq : ∃ t value, text = 0x22 :: (t ++ 0x3A :: value) ∧ Closes t member.1 ∧ Reads value member.2

theorem Closes.member {value : List UInt8} (h : Closes t s) (hvalue : Reads value j) :
    ReadsMember (0x22 :: (t ++ 0x3A :: value)) (s, j) :=
  ⟨t, value, rfl, h, hvalue⟩

theorem ReadsMember.starts {member : List UInt8 × Json} (h : ReadsMember text member) :
    ∃ c cs, text = c :: cs ∧ isSpace c = false ∧ c ≠ 0x7D := by
  obtain ⟨t, value, rfl, -, -⟩ := h.eq
  exact ⟨_, _, rfl, by decide, by decide⟩

theorem ReadsMember.read {member : List UInt8 × Json} (h : ReadsMember text member)
    (hn : text.length ≤ n) (hrest : Ends rest) :
    readMember (readValue n) n (text ++ rest) = some (member, rest) := by
  obtain ⟨t, value, rfl, hname, hvalue⟩ := h.eq
  simp only [List.length_cons, List.length_append] at hn
  have hquote : isSpace 0x22 = false := by decide
  have hcolon : isSpace 0x3A = false := by decide
  have hstring := hname n (by omega) (0x3A :: (value ++ rest))
  have hread := hvalue.read n (by omega) rest hrest
  simp [readMember, skip_cons hquote, skip_cons hcolon, hstring, hread]

/-- **An object.** -/
theorem reads_object {l : List (List UInt8 × List UInt8 × Json)}
    (h : ∀ x ∈ l, ReadsMember x.1 x.2) :
    Reads (0x7B :: (commas (l.map (·.1)) ++ [0x7D])) (.object (l.map (·.2))) where
  starts := ⟨_, _, rfl, by decide, by decide⟩
  read n hn rest _ := by
    have hopen : isSpace 0x7B = false := by decide
    have hclose : Closing 0x7D := ⟨by decide, by decide, by decide⟩
    obtain ⟨m, rfl⟩ := Nat.exists_eq_add_of_le' (Nat.le_of_add_left_le hn)
    have hinner : (commas (l.map (·.1))).length ≤ m := by
      simp only [List.length_cons, List.length_append] at hn
      omega
    have hne : ∀ x ∈ l, x.1 ≠ [] := by
      intro x hx
      obtain ⟨c, cs, hcs, -⟩ := (h x hx).starts
      simp [hcs]
    have hitems : readBracket (readMember (readValue m) m) 0x7D m
        (commas (l.map (·.1)) ++ 0x7D :: rest) = some (l.map (·.2), rest) :=
      readBracket_commas hclose (fun x hx => (h x hx).starts)
        (fun x hx rest hrest => (h x hx).read
          ((length_le_commas (List.mem_map_of_mem hx)).trans hinner) hrest)
        (length_le_of_commas hne hinner)
    simp only [List.cons_append, List.append_assoc, List.nil_append, readValue, skip_cons hopen]
    simp [hitems]

/-! ## Whole texts -/

/-- **A text is decoded**, with white space after it. -/
theorem Reads.decode (h : Reads text j) (hspace : ∀ c ∈ rest, isSpace c = true)
    (hvalid : Utf8.Valid (text ++ rest)) : decode (text ++ rest) = some j := by
  have hlength : text.length ≤ (text ++ rest).length := by simp
  have hread := h.read _ hlength rest (ends_of_forall hspace)
  rw [Json.decode, if_pos hvalid, hread, Option.bind_some]
  exact if_pos (skip_of_forall hspace)

end Json
