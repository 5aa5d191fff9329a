import RfTrans.Cli.Printing
import RfTrans.Lib.Strtoul

/-!
# The options of the tool

Numbers on the command line are read by `std::stoul`, which takes a minus sign for a
negation modulo 2 ^ 64, and are compared with their bounds after that.

## Main definitions

* `stoul`, `parseUnsigned`, `parseOptions`
* `ParsedExactly` — the accepted strings are the numerals of the accepted numbers.
* `parsedExactly_iff` — but for negative numbers that wrap around into the range.
* `parseOptions_ok` — what an accepted command line guarantees.
-/

namespace RfTrans

/-- What `std::stoul` throws. -/
inductive StoulError
  | invalidArgument
  | outOfRange
  deriving DecidableEq

/-- `std::stoul` to the base ten: the number, and `consumed`. -/
def stoul (value : Str) : Except StoulError (UInt64 × ℕ) :=
  let r := Strtoul.convert (cStr value)
  if r.consumed = 0 then .error .invalidArgument
  else if r.overflow then .error .outOfRange
  else .ok (r.value, r.consumed)

/-- `parseUnsigned`.  What it throws is an `std::invalid_argument` with this text. -/
def parseUnsigned (name value : Str) (maxValue : UInt64) : Except Str UInt32 :=
  match stoul value with
  | .error _ => .error (name ++ str " must be a positive integer")
  | .ok (parsed, consumed) =>
    if consumed ≠ value.length ∨ parsed = 0 ∨ maxValue < parsed then
      .error (name ++ str " is outside its accepted range")
    else .ok parsed.toUInt32

/-- `DiscoveryObserverOptions` -/
structure DiscoveryObserverOptions where
  multicastGroup : Str := str "239.255.0.7"
  messagePort : UInt16 := 10319
  servicePort : UInt16 := 10320
  hostAddress : Str := []
  deriving DecidableEq

/-- `Options` -/
structure Options where
  discovery : DiscoveryObserverOptions := {}
  output : OutputFormat := .table
  waitMs : UInt32 := 1200
  watchIntervalMs : UInt32 := 500
  namePrefix : Str := []
  positional : List Str := []
  deriving DecidableEq

/-- The formats of `--output`. -/
def parseOutput (value : Str) : Except Str OutputFormat :=
  if value = str "table" then .ok .table
  else if value = str "json" then .ok .json
  else if value = str "jsonl" then .ok .jsonLines
  else .error (str "--output must be table, json, or jsonl")

/-- The branches of `parseOptions` that take a value, and what they do with it. -/
def setOption (argument : Str) : Option (Options → Str → Except Str Options) :=
  if argument = str "--output" then
    some fun o value => (parseOutput value).map fun f => { o with output := f }
  else if argument = str "--wait-ms" then
    some fun o value => (parseUnsigned argument value 600000).map fun n => { o with waitMs := n }
  else if argument = str "--watch-interval-ms" then
    some fun o value =>
      (parseUnsigned argument value 600000).map fun n => { o with watchIntervalMs := n }
  else if argument = str "--host-ip" then
    some fun o value => .ok { o with discovery := { o.discovery with hostAddress := value } }
  else if argument = str "--discovery-group" then
    some fun o value => .ok { o with discovery := { o.discovery with multicastGroup := value } }
  else if argument = str "--message-port" then
    some fun o value => (parseUnsigned argument value 65535).map fun n =>
      { o with discovery := { o.discovery with messagePort := n.toUInt16 } }
  else if argument = str "--service-port" then
    some fun o value => (parseUnsigned argument value 65535).map fun n =>
      { o with discovery := { o.discovery with servicePort := n.toUInt16 } }
  else if argument = str "--prefix" then
    some fun o value => .ok { o with namePrefix := value }
  else none

/-- The loop of `parseOptions`, with `takeValue` where an option needs the next argument. -/
def parseArguments (o : Options) : List Str → Except Str Options
  | [] => .ok o
  | argument :: arguments =>
    match setOption argument with
    | some set =>
      match arguments with
      | [] => .error (argument ++ str " requires a value")
      | value :: arguments => (set o value).bind fun o => parseArguments o arguments
    | none =>
      if (str "--").isPrefixOf argument then .error (str "unknown option: " ++ argument)
      else parseArguments { o with positional := o.positional ++ [argument] } arguments

/-- `parseOptions` -/
def parseOptions (arguments : List Str) : Except Str Options := parseArguments {} arguments

/-! ## Numbers -/

/-- The string denotes the number: perhaps white space and a plus sign, and digits to its
end. -/
def Denotes (value : Str) (n : ℕ) : Prop :=
  ∃ ds, (Strtoul.Numeral value .none ds ∨ Strtoul.Numeral value .plus ds) ∧ Decimal.value ds = n

/-- The string denotes a negative number that a maximum of `max` lets pass once it has been
negated modulo 2 ^ 64. -/
def Wraps (value : Str) (max : UInt32) : Prop :=
  ∃ ds, Strtoul.Numeral value .minus ds ∧ Decimal.value ds < 2 ^ 64 ∧
    2 ^ 64 ≤ Decimal.value ds + max.toNat

/-- A string is accepted when it denotes a number in the range, as that number, and nothing
else is. -/
def ParsedExactly (value : Str) (max : UInt32) : Prop :=
  ∀ name,
    (∀ n, parseUnsigned name value max.toUInt64 = .ok n ↔
      Denotes value n.toNat ∧ 1 ≤ n ∧ n ≤ max) ∧
    ((∀ n : UInt32, Denotes value n.toNat → 1 ≤ n → ¬ n ≤ max) →
      ∃ message, parseUnsigned name value max.toUInt64 = .error message)

section Numbers

variable {value name : Str} {maxValue : UInt64} {n : UInt32} {sign : Strtoul.Sign} {ds : Str}

/-- A numeral has no null byte. -/
theorem cStr_of_numeral (h : Strtoul.Numeral value sign ds) : cStr value = value := by
  refine List.takeWhile_eq_self_iff.mpr fun c hc => ?_
  obtain ⟨spaces, hspaces, rfl⟩ := h.exists_spaces
  have hne : c ≠ 0 := by
    rintro rfl
    rcases List.mem_append.mp hc with hc | hc
    · cases hspaces 0 hc
    · rcases List.mem_append.mp hc with hc | hc
      · cases sign <;> simp [Strtoul.Sign.text] at hc
      · cases h.digits 0 hc
  simp [hne]

/-- `std::stoul` to the end of a numeral. -/
theorem stoul_of_numeral (h : Strtoul.Numeral value sign ds) :
    stoul value =
      if Decimal.value ds < 2 ^ 64 then .ok (sign.apply (Decimal.value ds), value.length)
      else .error .outOfRange := by
  have hne : value.length ≠ 0 := by
    obtain ⟨spaces, -, rfl⟩ := h.exists_spaces
    simp [h.ne_nil]
  rw [stoul, cStr_of_numeral h, Strtoul.convert_of_numeral h]
  split <;> simp

/-- What `std::stoul` reads to its end is a numeral. -/
theorem exists_numeral_of_stoul {parsed : UInt64} (h : stoul value = .ok (parsed, value.length)) :
    ∃ sign ds, Strtoul.Numeral value sign ds := by
  have hconsumed : (Strtoul.convert (cStr value)).consumed ≠ 0 ∧
      (Strtoul.convert (cStr value)).consumed = value.length := by
    simp only [stoul] at h
    split at h
    case isTrue => cases h
    case isFalse hne =>
      split at h
      case isTrue => cases h
      case isFalse => exact ⟨hne, congrArg Prod.snd (Except.ok.inj h)⟩
  have hsub : cStr value <+: value := List.takeWhile_prefix _
  have hle := hconsumed.2 ▸ Strtoul.consumed_le (cStr value)
  have heq : cStr value = value := hsub.eq_of_length (le_antisymm hsub.length_le hle)
  rw [heq] at hconsumed
  exact Strtoul.exists_numeral hconsumed.1 hconsumed.2

/-- **What `parseUnsigned` accepts**: a numeral, with any sign, whose number as `stoul` gives
it is in the range. -/
theorem parseUnsigned_eq_ok_iff :
    parseUnsigned name value maxValue = .ok n ↔
      ∃ sign ds, Strtoul.Numeral value sign ds ∧ Decimal.value ds < 2 ^ 64 ∧
        sign.apply (Decimal.value ds) ≠ 0 ∧ sign.apply (Decimal.value ds) ≤ maxValue ∧
        (sign.apply (Decimal.value ds)).toUInt32 = n := by
  constructor
  · intro h
    rw [parseUnsigned] at h
    split at h
    case h_1 => cases h
    case h_2 parsed consumed hstoul =>
      split at h
      case isTrue => cases h
      case isFalse hrange =>
        simp only [not_or, not_not, UInt64.not_lt] at hrange
        obtain ⟨hconsumed, hzero, hmax⟩ := hrange
        rw [hconsumed] at hstoul
        obtain ⟨sign, ds, hnumeral⟩ := exists_numeral_of_stoul hstoul
        rw [stoul_of_numeral hnumeral] at hstoul
        split at hstoul
        case isFalse => cases hstoul
        case isTrue hlt =>
          have hparsed : sign.apply (Decimal.value ds) = parsed :=
            congrArg Prod.fst (Except.ok.inj hstoul)
          refine ⟨sign, ds, hnumeral, hlt, ?_, ?_, ?_⟩
          · rwa [hparsed]
          · rwa [hparsed]
          · rw [hparsed]
            exact Except.ok.inj h
  · intro h
    obtain ⟨sign, ds, hnumeral, hlt, hzero, hmax, rfl⟩ := h
    rw [parseUnsigned, stoul_of_numeral hnumeral, if_pos hlt]
    simp [hzero, UInt64.not_lt.mpr hmax]

/-- A parameter of 32 bits accepts the same numerals, up to its own maximum. -/
theorem parseUnsigned_toUInt64_eq_ok_iff {max : UInt32} :
    parseUnsigned name value max.toUInt64 = .ok n ↔
      ∃ sign ds, Strtoul.Numeral value sign ds ∧ Decimal.value ds < 2 ^ 64 ∧
        (sign.apply (Decimal.value ds)).toNat = n.toNat ∧ 1 ≤ n ∧ n ≤ max := by
  rw [parseUnsigned_eq_ok_iff]
  refine exists_congr fun sign => exists_congr fun ds => and_congr_right fun _ =>
    and_congr_right fun _ => ?_
  generalize sign.apply (Decimal.value ds) = parsed
  rw [UInt64.le_iff_toNat_le, UInt32.toNat_toUInt64, UInt32.le_iff_toNat_le,
    UInt32.le_iff_toNat_le, ← UInt32.toNat_inj, UInt64.toNat_toUInt32, ne_eq, ← UInt64.toNat_inj]
  have hmax := max.toNat_lt
  have hn := n.toNat_lt
  simp only [UInt64.toNat_zero, UInt32.reduceToNat]
  omega

/-- **Numbers are parsed exactly** where no negative number wraps around into the range, and
only there. -/
theorem parsedExactly_iff (value : Str) (max : UInt32) :
    ParsedExactly value max ↔ ¬ Wraps value max := by
  constructor
  · intro hexact hwraps
    obtain ⟨ds, hnumeral, hlt, hle⟩ := hwraps
    obtain ⟨k, hk⟩ := Nat.exists_eq_add_of_lt hlt
    have hmax := max.toNat_lt
    have hsum : Decimal.value ds + (k + 1) = 2 ^ 64 := hk.symm
    have hnat : (UInt32.ofNat (k + 1)).toNat = k + 1 :=
      UInt32.toNat_ofNat_of_lt' (show k + 1 < 2 ^ 32 by omega)
    have hok : parseUnsigned [] value max.toUInt64 = .ok (UInt32.ofNat (k + 1)) := by
      refine parseUnsigned_toUInt64_eq_ok_iff.mpr ⟨.minus, ds, hnumeral, hlt, ?_, ?_, ?_⟩
      · rw [Strtoul.toNat_apply_minus hlt hsum, hnat]
        omega
      · rw [UInt32.le_iff_toNat_le, hnat]
        exact Nat.le_add_left 1 k
      · rw [UInt32.le_iff_toNat_le, hnat]
        omega
    obtain ⟨ds', hpositive, -⟩ := ((hexact []).1 _).mp hok |>.1
    rcases hpositive with h | h
    · cases (hnumeral.unique h).1
    · cases (hnumeral.unique h).1
  · intro hwraps name
    have hiff : ∀ n, parseUnsigned name value max.toUInt64 = .ok n ↔
        Denotes value n.toNat ∧ 1 ≤ n ∧ n ≤ max := by
      intro n
      have hn := n.toNat_lt
      rw [parseUnsigned_toUInt64_eq_ok_iff]
      constructor
      · intro h
        obtain ⟨sign, ds, hnumeral, hlt, happly, hone, hmax⟩ := h
        refine ⟨⟨ds, ?_⟩, hone, hmax⟩
        cases sign with
        | none => exact ⟨.inl hnumeral, by rw [← happly, Strtoul.toNat_apply_none hlt]⟩
        | plus => exact ⟨.inr hnumeral, by rw [← happly, Strtoul.toNat_apply_plus hlt]⟩
        | minus =>
            obtain ⟨k, hk⟩ := Nat.exists_eq_add_of_lt hlt
            refine absurd ⟨ds, hnumeral, hlt, ?_⟩ hwraps
            have hsum : Decimal.value ds + (k + 1) = 2 ^ 64 := hk.symm
            rw [Strtoul.toNat_apply_minus hlt hsum] at happly
            have hone' : 1 ≤ n.toNat := UInt32.le_iff_toNat_le.mp hone
            have hmax' : n.toNat ≤ max.toNat := UInt32.le_iff_toNat_le.mp hmax
            omega
      · intro h
        obtain ⟨⟨ds, hnumeral, hvalue⟩, hone, hmax⟩ := h
        have hlt : Decimal.value ds < 2 ^ 64 := by omega
        rcases hnumeral with hnumeral | hnumeral
        · exact ⟨.none, ds, hnumeral, hlt, by rw [Strtoul.toNat_apply_none hlt, hvalue], hone, hmax⟩
        · exact ⟨.plus, ds, hnumeral, hlt, by rw [Strtoul.toNat_apply_plus hlt, hvalue], hone, hmax⟩
    refine ⟨hiff, fun hnone => ?_⟩
    cases hparse : parseUnsigned name value max.toUInt64 with
    | error message => exact ⟨message, rfl⟩
    | ok n =>
        obtain ⟨hdenotes, hone, hmax⟩ := (hiff n).mp hparse
        exact absurd hmax (hnone n hdenotes hone)

/-- "-18446744073709551615" is accepted, as 1. -/
theorem wrapped_not_parsedExactly :
    parseUnsigned (str "--message-port") (str "-18446744073709551615") 65535 = .ok 1 ∧
      ¬ ParsedExactly (str "-18446744073709551615") 65535 := by
  have hok : parseUnsigned (str "--message-port") (str "-18446744073709551615") 65535 = .ok 1 := by
    decide +kernel
  refine ⟨hok, fun hexact => ?_⟩
  have hnumeral : Strtoul.Numeral (str "-18446744073709551615") .minus
      (str "18446744073709551615") :=
    ⟨by decide, by decide +kernel, [], List.forall_mem_nil _, by decide⟩
  obtain ⟨ds, hpositive, -⟩ := (((hexact (str "--message-port")).1 1).mp hok).1
  rcases hpositive with h | h
  · cases (hnumeral.unique h).1
  · cases (hnumeral.unique h).1

/-- An accepted number is in the range, even one that has wrapped around. -/
theorem parseUnsigned_mem (h : parseUnsigned name value maxValue = .ok n)
    (hmax : maxValue.toNat < 2 ^ 32) : 1 ≤ n.toNat ∧ n.toNat ≤ maxValue.toNat := by
  obtain ⟨sign, ds, -, -, hzero, hle, rfl⟩ := parseUnsigned_eq_ok_iff.mp h
  rw [UInt64.le_iff_toNat_le] at hle
  have hne : (sign.apply (Decimal.value ds)).toNat ≠ 0 := by
    intro heq
    exact hzero (UInt64.toNat_inj.mp heq)
  rw [UInt64.toNat_toUInt32]
  omega

end Numbers

/-! ## Command lines -/

/-- What an accepted command line guarantees: the waiting times and the ports are positive. -/
structure Options.Ok (o : Options) : Prop where
  waitMs : 1 ≤ o.waitMs.toNat ∧ o.waitMs.toNat ≤ 600000
  watchIntervalMs : 1 ≤ o.watchIntervalMs.toNat ∧ o.watchIntervalMs.toNat ≤ 600000
  messagePort : o.discovery.messagePort ≠ 0
  servicePort : o.discovery.servicePort ≠ 0

theorem Options.ok_default : ({} : Options).Ok := by
  constructor <;> decide

/-- A port keeps its value in 16 bits. -/
theorem toUInt16_ne_zero {n : UInt32} (h : 1 ≤ n.toNat) (hmax : n.toNat ≤ 65535) :
    n.toUInt16 ≠ 0 := by
  intro heq
  have hnat := congrArg UInt16.toNat heq
  rw [UInt32.toNat_toUInt16, UInt16.toNat_zero] at hnat
  omega

theorem map_eq_ok {ε α β : Type} {f : α → β} {x : Except ε α} {b : β} (h : x.map f = .ok b) :
    ∃ a, x = .ok a ∧ f a = b := by
  cases x with
  | error e => cases h
  | ok a => exact ⟨a, rfl, Except.ok.inj h⟩

/-- **An option keeps the guarantees.** -/
theorem Options.Ok.setOption {argument value : Str} {o o' : Options}
    {set : Options → Str → Except Str Options} (ho : o.Ok)
    (hset : RfTrans.setOption argument = some set) (h : set o value = .ok o') : o'.Ok := by
  unfold RfTrans.setOption at hset
  split_ifs at hset <;> cases hset
  case pos =>
    obtain ⟨f, -, rfl⟩ := map_eq_ok h
    exact ⟨ho.waitMs, ho.watchIntervalMs, ho.messagePort, ho.servicePort⟩
  case pos =>
    obtain ⟨n, hn, rfl⟩ := map_eq_ok h
    exact ⟨parseUnsigned_mem hn (by decide), ho.watchIntervalMs, ho.messagePort, ho.servicePort⟩
  case pos =>
    obtain ⟨n, hn, rfl⟩ := map_eq_ok h
    exact ⟨ho.waitMs, parseUnsigned_mem hn (by decide), ho.messagePort, ho.servicePort⟩
  case pos =>
    cases h
    exact ⟨ho.waitMs, ho.watchIntervalMs, ho.messagePort, ho.servicePort⟩
  case pos =>
    cases h
    exact ⟨ho.waitMs, ho.watchIntervalMs, ho.messagePort, ho.servicePort⟩
  case pos =>
    obtain ⟨n, hn, rfl⟩ := map_eq_ok h
    obtain ⟨hone, hmax⟩ := parseUnsigned_mem hn (by decide)
    exact ⟨ho.waitMs, ho.watchIntervalMs, toUInt16_ne_zero hone hmax, ho.servicePort⟩
  case pos =>
    obtain ⟨n, hn, rfl⟩ := map_eq_ok h
    obtain ⟨hone, hmax⟩ := parseUnsigned_mem hn (by decide)
    exact ⟨ho.waitMs, ho.watchIntervalMs, ho.messagePort, toUInt16_ne_zero hone hmax⟩
  case pos =>
    cases h
    exact ⟨ho.waitMs, ho.watchIntervalMs, ho.messagePort, ho.servicePort⟩

theorem Options.Ok.parseArguments {arguments : List Str} {o o' : Options} (ho : o.Ok)
    (h : RfTrans.parseArguments o arguments = .ok o') : o'.Ok := by
  fun_induction RfTrans.parseArguments o arguments with
  | case1 o =>
      cases h
      exact ho
  | case2 o argument set hset => cases h
  | case3 o argument set hset value arguments ih =>
      cases hvalue : set o value with
      | error message =>
          rw [hvalue] at h
          cases h
      | ok o₁ =>
          rw [hvalue] at h
          exact ih o₁ (ho.setOption hset hvalue) h
  | case4 o argument arguments hset hunknown => cases h
  | case5 o argument arguments hset hunknown ih =>
      exact ih ⟨ho.waitMs, ho.watchIntervalMs, ho.messagePort, ho.servicePort⟩ h

/-- **An accepted command line** has positive waiting times and ports. -/
theorem parseOptions_ok {arguments : List Str} {o : Options}
    (h : parseOptions arguments = .ok o) : o.Ok :=
  Options.ok_default.parseArguments h

end RfTrans
