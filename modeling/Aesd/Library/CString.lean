import Mathlib.Data.List.TakeWhile
import Mathlib.Data.UInt
import Mathlib.Tactic.Common

/-!
# Reading C strings

Functions of the C library that read memory forwards from an address. The memory
from the address on is a list of bytes. A zero byte ends a string, and the end of
the list is read as one.

`sscanf` is here for formats of `%d` and single characters. A conversion that has
succeeded does not depend on what is behind the byte that ends its number
(`scanInt_append`), so neither does a scan all of whose conversions succeed
(`sscanf_append`).
-/

namespace CString

/-- `strncmp`. -/
def strncmp : List UInt8 → List UInt8 → Nat → Int
  | _, _, 0 => 0
  | text, other, count + 1 =>
      let left := text.headD 0
      let right := other.headD 0
      if left ≠ right then left.toNat - right.toNat
      else if left = 0 then 0
      else strncmp text.tail other.tail count

theorem strncmp_cons (first byte : UInt8) (text other : List UInt8) (count : Nat) :
    strncmp (first :: text) (byte :: other) (count + 1) =
      if first ≠ byte then (first.toNat : Int) - byte.toNat
      else if first = 0 then 0
      else strncmp text other count := rfl

theorem strncmp_nil_cons (byte : UInt8) (other : List UInt8) (count : Nat) :
    strncmp [] (byte :: other) (count + 1) =
      if 0 ≠ byte then (0 : Int) - byte.toNat
      else if (0 : UInt8) = 0 then 0
      else strncmp [] other count := rfl

/-- A string of as many bytes as are compared is found as a prefix. -/
theorem strncmp_eq_zero_iff (text : List UInt8) {pattern : List UInt8}
    (noNul : 0 ∉ pattern) :
    strncmp text pattern pattern.length = 0 ↔ pattern <+: text := by
  induction pattern generalizing text with
  | nil => simp [strncmp]
  | cons byte pattern ih =>
      obtain ⟨nonzero, rest⟩ := not_or.mp (mt List.mem_cons.mpr noNul)
      cases text with
      | nil =>
          have different : (0 : UInt8).toNat ≠ byte.toNat := mt UInt8.toNat_inj.mp nonzero
          rw [UInt8.toNat_zero] at different
          rw [List.length_cons, strncmp_nil_cons, if_pos nonzero]
          exact iff_of_false (by omega) (by simp)
      | cons first text =>
          rw [List.length_cons, strncmp_cons, List.cons_prefix_cons]
          by_cases same : first = byte
          · rw [if_neg (not_not.mpr same), if_neg (same ▸ Ne.symm nonzero), ih text rest]
            exact (and_iff_right same.symm).symm
          · have different : first.toNat ≠ byte.toNat := mt UInt8.toNat_inj.mp same
            rw [if_pos same]
            exact iff_of_false (by omega) fun both => same both.1.symm

/-- `isspace` in the C locale. -/
def isspace (byte : UInt8) : Bool := byte = 32 || 9 ≤ byte && byte ≤ 13

/-- `isdigit`. -/
def isdigit (byte : UInt8) : Bool := 48 ≤ byte && byte ≤ 57

/-- The sign in front of a number, and the text behind it. -/
def splitSign : List UInt8 → Bool × List UInt8
  | [] => (false, [])
  | first :: rest =>
      if first = 45 then (true, rest)
      else if first = 43 then (false, rest)
      else (false, first :: rest)

/-- The value of a number, which saturates as that of `strtol` does. -/
def strtol (negative : Bool) (digits : List UInt8) : Int :=
  let magnitude : Nat := digits.foldl (fun value digit => 10 * value + (digit.toNat - 48)) 0
  if negative then max (-2 ^ 63) (-magnitude) else min (2 ^ 63 - 1) magnitude

/-- The conversion `%d`, and the text behind the number: white space is skipped, then come
an optional sign and at least one digit. The low 32 bits of the value are stored. -/
def scanInt (text : List UInt8) : Option (UInt32 × List UInt8) :=
  let (negative, body) := splitSign (text.dropWhile isspace)
  if body.takeWhile isdigit = [] then none
  else
    some (.ofNat (strtol negative (body.takeWhile isdigit) % 2 ^ 32).toNat,
      body.dropWhile isdigit)

/-- One directive of a format: `%d`, or a character that is not white space. -/
inductive Directive where
  | int
  | literal (byte : UInt8)
  deriving DecidableEq, Repr

/-- `sscanf`: the values it stores. The first directive that fails ends the scan, and the
targets of the later conversions are left alone. -/
def sscanf : List Directive → List UInt8 → List UInt32
  | [], _ => []
  | .int :: format, text =>
      match scanInt text with
      | none => []
      | some (value, rest) => value :: sscanf format rest
  | .literal _ :: _, [] => []
  | .literal byte :: format, first :: rest => if first = byte then sscanf format rest else []

/-! ## What a scan depends on -/

theorem splitSign_append {text : List UInt8} (nonempty : text ≠ []) (later : List UInt8) :
    splitSign (text ++ later) = ((splitSign text).1, (splitSign text).2 ++ later) := by
  cases text with
  | nil => exact absurd rfl nonempty
  | cons first rest =>
      simp only [List.cons_append, splitSign]
      split_ifs <;> rfl

theorem takeWhile_isdigit_append (body : List UInt8) {stop : UInt8}
    (notDigit : isdigit stop = false) (later : List UInt8) :
    (body ++ stop :: later).takeWhile isdigit = body.takeWhile isdigit := by
  rw [List.takeWhile_append, List.takeWhile_cons_of_neg (by simp [notDigit]), List.append_nil]
  split
  next whole =>
    exact ((List.takeWhile_prefix isdigit).eq_of_length whole).symm
  next => rfl

theorem dropWhile_isdigit_append (body : List UInt8) {stop : UInt8}
    (notDigit : isdigit stop = false) (later : List UInt8) :
    (body ++ stop :: later).dropWhile isdigit = body.dropWhile isdigit ++ stop :: later := by
  rw [List.dropWhile_append, List.dropWhile_cons_of_neg (by simp [notDigit])]
  split
  next whole => rw [List.isEmpty_iff.mp whole, List.nil_append]
  next => rfl

/-- A text that is not all white space is followed by something else. -/
theorem scanInt_append_of_ne_nil {text : List UInt8} (nonempty : text.dropWhile isspace ≠ [])
    {stop : UInt8} (notDigit : isdigit stop = false) (later : List UInt8) :
    scanInt (text ++ stop :: later) =
      (scanInt text).map fun found => (found.1, found.2 ++ stop :: later) := by
  have trimmed : (text ++ stop :: later).dropWhile isspace =
      text.dropWhile isspace ++ stop :: later := by
    rw [List.dropWhile_append, if_neg (by simpa using nonempty)]
  simp only [scanInt, trimmed, splitSign_append nonempty, takeWhile_isdigit_append _ notDigit,
    dropWhile_isdigit_append _ notDigit]
  split_ifs <;> rfl

/-- A number that is there is read as it is, whatever follows the byte behind it. -/
theorem scanInt_append {text rest : List UInt8} {value : UInt32}
    (found : scanInt text = some (value, rest)) {stop : UInt8}
    (notDigit : isdigit stop = false) (later : List UInt8) :
    scanInt (text ++ stop :: later) = some (value, rest ++ stop :: later) := by
  have nonempty : text.dropWhile isspace ≠ [] := by
    intro blank
    simp [scanInt, blank, splitSign] at found
  rw [scanInt_append_of_ne_nil nonempty notDigit, found, Option.map_some]

/-- White space at the end of a text does not make a number. -/
theorem scanInt_append_space {text : List UInt8} (missing : scanInt text = none) {space : UInt8}
    (white : isspace space = true) (notDigit : isdigit space = false) :
    scanInt (text ++ [space]) = none := by
  by_cases blank : text.dropWhile isspace = []
  · have trimmed : (text ++ [space]).dropWhile isspace = [] := by
      rw [List.dropWhile_append, if_pos (by simp [blank]), List.dropWhile_cons_of_pos white,
        List.dropWhile_nil]
    simp [scanInt, trimmed, splitSign]
  · rw [scanInt_append_of_ne_nil blank notDigit, missing, Option.map_none]

theorem length_sscanf_le (format : List Directive) (text : List UInt8) :
    (sscanf format text).length ≤ format.count .int := by
  induction format generalizing text with
  | nil => simp [sscanf]
  | cons directive format ih =>
      cases directive with
      | int =>
          simp only [sscanf, List.count_cons_self]
          cases scanInt text with
          | none => simp
          | some found => simpa using ih found.2
      | literal byte =>
          cases text with
          | nil => simp [sscanf]
          | cons first text =>
              simp only [sscanf]
              split
              · simpa using ih text
              · simp

/-- A scan all of whose conversions succeed stores the same values whatever follows the
text, as long as no digit does. -/
theorem sscanf_append {format : List Directive} {text : List UInt8}
    (complete : (sscanf format text).length = format.count .int) {stop : UInt8}
    (notDigit : isdigit stop = false) (later : List UInt8) :
    sscanf format (text ++ stop :: later) = sscanf format text := by
  induction format generalizing text with
  | nil => rfl
  | cons directive format ih =>
      cases directive with
      | int =>
          simp only [sscanf, List.count_cons_self] at complete ⊢
          cases found : scanInt text with
          | none => simp [found] at complete
          | some result =>
              rw [found] at complete
              rw [scanInt_append found notDigit]
              dsimp only
              rw [ih (by simpa using complete)]
      | literal byte =>
          have same : (Directive.literal byte :: format).count .int = format.count .int := by simp
          rw [same] at complete
          cases text with
          | nil =>
              have none : format.count .int = 0 := by simpa [sscanf] using complete.symm
              have short := length_sscanf_le format later
              rw [none, Nat.le_zero, List.length_eq_zero_iff] at short
              simp [sscanf, short]
          | cons first text =>
              simp only [sscanf, List.cons_append] at complete ⊢
              split
              next here => rw [if_pos here] at complete; exact ih complete
              next => rfl

/-- White space at the end of a text changes nothing, unless a directive asks for it. -/
theorem sscanf_append_space {format : List Directive} {space : UInt8}
    (white : isspace space = true) (notDigit : isdigit space = false)
    (unasked : .literal space ∉ format) (text : List UInt8) :
    sscanf format (text ++ [space]) = sscanf format text := by
  induction format generalizing text with
  | nil => rfl
  | cons directive format ih =>
      obtain ⟨other, rest⟩ := not_or.mp (mt List.mem_cons.mpr unasked)
      cases directive with
      | int =>
          simp only [sscanf]
          cases found : scanInt text with
          | none => rw [scanInt_append_space found white notDigit]
          | some result =>
              rw [scanInt_append found notDigit]
              dsimp only
              rw [ih rest]
      | literal byte =>
          have different : space ≠ byte := fun same => other (by rw [same])
          cases text with
          | nil => simp [sscanf, different]
          | cons first text => simp [sscanf, ih rest]

/-! ## Decimal numbers -/

/-- A number in decimal. -/
def decimal (value : Nat) : List UInt8 :=
  (Nat.toDigits 10 value).map fun digit => .ofNat digit.toNat

/-- What `%d` stores of a number without a sign. -/
def storedInt (value : Nat) : UInt32 := .ofNat (min value (2 ^ 63 - 1))

theorem decimal_ne_nil (value : Nat) : decimal value ≠ [] :=
  mt List.map_eq_nil_iff.mp Nat.toDigits_ne_nil

/-- The digits of a number, as bytes. -/
theorem digit_of_mem_toDigits {value : Nat} {digit : Char}
    (member : digit ∈ Nat.toDigits 10 value) : 48 ≤ digit.toNat ∧ digit.toNat ≤ 57 := by
  have isDigit := Nat.isDigit_of_mem_toDigits (by decide) (by decide) member
  simp only [Char.isDigit, Bool.and_eq_true, decide_eq_true_eq] at isDigit
  exact ⟨UInt32.le_iff_toNat_le.mp isDigit.1, UInt32.le_iff_toNat_le.mp isDigit.2⟩

theorem isdigit_of_mem_decimal {value : Nat} {byte : UInt8} (member : byte ∈ decimal value) :
    isdigit byte = true := by
  obtain ⟨digit, isDigit, rfl⟩ := List.mem_map.mp member
  obtain ⟨lower, upper⟩ := digit_of_mem_toDigits isDigit
  simp only [isdigit, Bool.and_eq_true, decide_eq_true_eq, UInt8.le_iff_toNat_le,
    UInt8.toNat_ofNat', UInt8.reduceToNat]
  omega

theorem foldl_decimal (value : Nat) :
    (decimal value).foldl (fun sofar digit => 10 * sofar + (digit.toNat - 48)) 0 = value := by
  have digits : ∀ (sofar : Nat) (list : List Char),
      (∀ digit ∈ list, digit ∈ Nat.toDigits 10 value) →
        (list.map fun digit => UInt8.ofNat digit.toNat).foldl
          (fun sofar digit => 10 * sofar + (digit.toNat - 48)) sofar =
            Nat.ofDigitChars 10 list sofar := by
    intro sofar list
    induction list generalizing sofar with
    | nil => simp
    | cons digit list ih =>
        intro members
        obtain ⟨-, upper⟩ := digit_of_mem_toDigits (members digit List.mem_cons_self)
        rw [List.map_cons, List.foldl_cons, Nat.ofDigitChars_cons, UInt8.toNat_ofNat',
          Nat.mod_eq_of_lt (by omega)]
        exact ih _ fun other member => members other (List.mem_cons_of_mem _ member)
  rw [decimal, digits 0 _ fun _ member => member, Nat.ofDigitChars_ten_toDigits]

theorem strtol_decimal (value : Nat) :
    UInt32.ofNat (strtol false (decimal value) % 2 ^ 32).toNat = storedInt value := by
  rw [strtol, foldl_decimal, if_neg Bool.false_ne_true, storedInt, ← UInt32.toNat_inj,
    UInt32.toNat_ofNat', UInt32.toNat_ofNat']
  omega

theorem scanInt_decimal (value : Nat) : scanInt (decimal value) = some (storedInt value, []) := by
  have digits : ∀ byte ∈ decimal value, isdigit byte = true := fun _ => isdigit_of_mem_decimal
  obtain ⟨first, rest, whole⟩ := List.exists_cons_of_ne_nil (decimal_ne_nil value)
  have firstDigit := digits first (by simp [whole])
  have bounds : 48 ≤ first.toNat ∧ first.toNat ≤ 57 := by
    simpa [isdigit, UInt8.le_iff_toNat_le] using firstDigit
  have notSpace : isspace first = false := by
    simp only [isspace, Bool.or_eq_false_iff, decide_eq_false_iff_not, Bool.and_eq_false_iff,
      UInt8.le_iff_toNat_le, ← UInt8.toNat_inj]
    simp only [UInt8.reduceToNat]
    omega
  have body : splitSign (decimal value) = (false, decimal value) := by
    rw [whole, splitSign, if_neg, if_neg]
    · rintro rfl
      simp at bounds
    · rintro rfl
      simp at bounds
  have trimmed : (decimal value).dropWhile isspace = decimal value := by
    rw [whole, List.dropWhile_cons_of_neg (by simp [notSpace])]
  have taken : (decimal value).takeWhile isdigit = decimal value :=
    List.takeWhile_eq_self_iff.mpr digits
  have dropped : (decimal value).dropWhile isdigit = [] :=
    List.dropWhile_eq_nil_iff.mpr digits
  simp only [scanInt, trimmed, body, taken, dropped, if_neg (decimal_ne_nil value),
    strtol_decimal]

end CString
