import ArosParadigm.Library.Binary64
import ArosParadigm.Library.Json.Text
import Mathlib.Data.Nat.Digits.Lemmas

/-!
# JavaScript numbers

Numbers are doubles. `Number::toString` in base ten writes the shortest decimal
that is rounded to the number, `JSON.parse` rounds the decimal of the token;
`numberFormat` puts the two together.
-/

namespace Json

open Binary64

/-- A JavaScript number. Zero has a sign. -/
inductive JsNumber where
  | nan
  | infinity (negative : Bool)
  | finite (negative : Bool) (magnitude : ℚ) (isDouble : IsDouble magnitude)
  deriving DecidableEq

/-- The number of a sign and a nonnegative rational. -/
def numberValue (negative : Bool) (magnitude : ℚ) (nonneg : 0 ≤ magnitude) :
    JsNumber :=
  if bounded : round64 magnitude < 2 ^ 1024 then
    .finite negative (round64 magnitude)
      ⟨round64_nonneg magnitude, bounded, round64_round64 nonneg⟩
  else
    .infinity negative

theorem numberValue_of_round {magnitude value : ℚ}
    (negative : Bool) (nonneg : 0 ≤ magnitude) (isDouble : IsDouble value)
    (isRounded : round64 magnitude = value) :
    numberValue negative magnitude nonneg =
      .finite negative value isDouble := by
  subst isRounded
  exact dif_pos isDouble.bounded

/-- `Number.isFinite`. -/
def JsNumber.isFinite : JsNumber → Bool
  | .finite .. => true
  | _ => false

/-- The rational number of a finite number. -/
def JsNumber.toRat : JsNumber → ℚ
  | .finite negative magnitude _ =>
      if negative then -magnitude else magnitude
  | _ => 0

theorem isDouble_zero : IsDouble 0 :=
  ⟨le_rfl, by positivity, round64_zero⟩

/-- Zero without a sign. -/
def JsNumber.zero : JsNumber :=
  .finite false 0 isDouble_zero

/-- The number of an exact sum; the sign of zero is given. -/
def numberOfSum (zeroSign : Bool) (sum : ℚ) : JsNumber :=
  if sum = 0 then .finite zeroSign 0 isDouble_zero
  else numberValue (decide (sum < 0)) |sum| (abs_nonneg sum)

/-- `Number::add`. The sum of two zeros has a sign only when both have it. -/
def JsNumber.add : JsNumber → JsNumber → JsNumber
  | .nan, _ => .nan
  | _, .nan => .nan
  | .infinity first, .infinity second =>
      if first = second then .infinity first else .nan
  | .infinity negative, _ => .infinity negative
  | _, .infinity negative => .infinity negative
  | .finite firstSign first firstDouble,
      .finite secondSign second secondDouble =>
      numberOfSum (firstSign && secondSign && decide (first = 0))
        (JsNumber.toRat (.finite firstSign first firstDouble) +
          JsNumber.toRat (.finite secondSign second secondDouble))

/-- A number that leaves a sum as it is: zero, or not finite. -/
def JsNumber.Negligible (number : JsNumber) : Prop :=
  number.toRat = 0

instance (number : JsNumber) : Decidable number.Negligible :=
  inferInstanceAs (Decidable (number.toRat = 0))

private theorem abs_toRat {negative : Bool} {magnitude : ℚ}
    (isDouble : IsDouble magnitude) :
    |JsNumber.toRat (.finite negative magnitude isDouble)| = magnitude := by
  rw [JsNumber.toRat]
  split_ifs
  · rw [abs_neg, abs_of_nonneg isDouble.nonneg]
  · exact abs_of_nonneg isDouble.nonneg

/-- What is added to zero is seen unless it is negligible. -/
theorem JsNumber.zero_add_eq_zero_iff {number : JsNumber}
    (finite : number.isFinite = true) :
    JsNumber.zero.add number = JsNumber.zero ↔ number.Negligible := by
  cases number with
  | nan =>
      cases finite
  | infinity negative =>
      cases finite
  | finite negative magnitude isDouble =>
      have isSum : JsNumber.zero.add (.finite negative magnitude isDouble) =
          numberOfSum false
            (JsNumber.toRat (.finite negative magnitude isDouble)) := by
        refine congrArg (numberOfSum false) ?_
        exact zero_add _
      have isMagnitude := @abs_toRat negative magnitude isDouble
      rw [isSum, numberOfSum, JsNumber.Negligible]
      generalize JsNumber.toRat (.finite negative magnitude isDouble) =
        value at isMagnitude
      by_cases isZero : value = 0
      · simp only [isZero, iff_true]
        rfl
      · simp only [isZero, iff_false]
        rw [numberValue_of_round _ _ isDouble
          (by rw [isMagnitude]; exact isDouble.rounded)]
        intro equal
        injection equal with _ magnitudeZero
        rw [magnitudeZero] at isMagnitude
        exact isZero (abs_eq_zero.mp isMagnitude)

/-- The code unit of a decimal digit. -/
def digitUnit (digit : ℕ) : CodeUnit :=
  Fin.ofNat 65536 (48 + digit)

/-- The decimal text of a natural number. -/
def decimalText (value : ℕ) : JsString :=
  if value = 0 then [48] else ((Nat.digits 10 value).map digitUnit).reverse

/-- A decimal of `count` digits that is rounded to `value`; the point stands
after the first `exponent` digits. -/
structure Decimal (value : ℚ) where
  significand : ℕ
  count : ℕ
  exponent : ℤ
  positive : 1 ≤ count
  least : 10 ^ (count - 1) ≤ significand
  most : significand < 10 ^ count
  denotes : round64 (significand * 10 ^ (exponent - count)) = value

/-- The number that a decimal writes. -/
def Decimal.magnitude {value : ℚ} (decimal : Decimal value) : ℚ :=
  decimal.significand * 10 ^ (decimal.exponent - decimal.count)

/-- A decimal, if it is rounded to the value. -/
def decimal? (value : ℚ) (significand count : ℕ) (exponent : ℤ) :
    Option (Decimal value) :=
  if valid : 1 ≤ count ∧ 10 ^ (count - 1) ≤ significand ∧
      significand < 10 ^ count ∧
      round64 (significand * 10 ^ (exponent - count)) = value then
    some ⟨significand, count, exponent, valid.1, valid.2.1, valid.2.2.1,
      valid.2.2.2⟩
  else
    none

/-- The closer one of the decimals below and above the value, the even one
between two. -/
def closest {value : ℚ} (below above : Option (Decimal value)) :
    Option (Decimal value) :=
  match below, above with
  | none, other => other
  | some decimal, none => some decimal
  | some lower, some upper =>
      let missing := value - lower.magnitude
      let excess := upper.magnitude - value
      if missing < excess then some lower
      else if excess < missing then some upper
      else if lower.significand % 2 = 0 then some lower
      else some upper

/-- The position of the decimal point of a positive value. -/
def pointOf (value : ℚ) : ℤ :=
  Int.log 10 value + 1

/-- The decimal of a given number of digits. The number above the largest one
has one digit more. -/
def decimalOf (value : ℚ) (count : ℕ) : Option (Decimal value) :=
  let below := ⌊value * 10 ^ (count - pointOf value)⌋₊
  closest (decimal? value below count (pointOf value))
    (if below + 1 = 10 ^ count then
      decimal? value (10 ^ (count - 1)) count (pointOf value + 1)
    else
      decimal? value (below + 1) count (pointOf value))

/-- The decimal with the smallest number of digits. -/
def shortest? (value : ℚ) : Option (Decimal value) :=
  (List.range' 1 ((pointOf value + 1074).toNat + 1)).findSome?
    (decimalOf value)

/-- The parts of a decimal literal. -/
structure Numeral where
  integer : JsString
  fraction : JsString
  exponent : Option ℤ

/-- The rational number of a decimal literal. -/
def Numeral.value (numeral : Numeral) : ℚ :=
  decimalValue (numeral.integer ++ numeral.fraction) *
    10 ^ (numeral.exponent.getD 0 - numeral.fraction.length)

/-- The text of a decimal literal. -/
def Numeral.text (numeral : Numeral) : JsString :=
  numeral.integer ++
    ((if numeral.fraction = [] then [] else 46 :: numeral.fraction) ++
    (match numeral.exponent with
    | none => []
    | some exponent =>
        101 :: (if exponent < 0 then 45 else 43) ::
          decimalText exponent.natAbs))

/-- `Number::toString` of a positive value. -/
def Decimal.numeral {value : ℚ} (decimal : Decimal value) : Numeral :=
  let digits := decimalText decimal.significand
  let count : ℤ := decimal.count
  let point := decimal.exponent
  if count ≤ point ∧ point ≤ 21 then
    ⟨digits ++ List.replicate (point - count).toNat 48, [], none⟩
  else if 0 < point ∧ point ≤ 21 then
    ⟨digits.take point.toNat, digits.drop point.toNat, none⟩
  else if -6 < point ∧ point ≤ 0 then
    ⟨[48], List.replicate (-point).toNat 48 ++ digits, none⟩
  else
    ⟨digits.take 1, digits.drop 1, some (point - 1)⟩

/-- An optional sign and at least one digit. -/
def signedInteger? (text : JsString) : Option ℤ :=
  let digits :=
    if text.head? = some 43 ∨ text.head? = some 45 then text.tail else text
  if digits ≠ [] ∧ digits.all isDigit then
    some (if text.head? = some 45 then -decimalValue digits
      else decimalValue digits)
  else
    none

/-- The exponent of a literal: all of the text, or nothing. -/
def exponent? : JsString → Option (Option ℤ)
  | [] => some none
  | unit :: rest =>
      if unit = 101 ∨ unit = 69 then (signedInteger? rest).map some
      else none

/-- The fraction of a literal, and the rest. -/
def fraction? (text : JsString) : Option (JsString × JsString) :=
  match text with
  | [] => some ([], [])
  | unit :: rest =>
      if unit = 46 then
        if rest.takeWhile isDigit = [] then none
        else some (rest.takeWhile isDigit, rest.dropWhile isDigit)
      else
        some ([], text)

/-- A literal without a sign. Only zero itself begins with a zero. -/
def numeral? (text : JsString) : Option Numeral :=
  let integer := text.takeWhile isDigit
  if integer = [] ∨ (integer.head? = some 48 ∧ integer.length ≠ 1) then
    none
  else
    match fraction? (text.dropWhile isDigit) with
    | none => none
    | some (fraction, rest) =>
        (exponent? rest).map fun exponent => ⟨integer, fraction, exponent⟩

theorem Numeral.value_nonneg (numeral : Numeral) : 0 ≤ numeral.value :=
  mul_nonneg (Nat.cast_nonneg _) (zpow_nonneg (by norm_num) _)

/-- The number of a JSON number token. -/
def readNumber : JsString → Option JsNumber
  | [] => none
  | unit :: rest =>
      if unit = 45 then
        (numeral? rest).map fun numeral =>
          numberValue true numeral.value numeral.value_nonneg
      else
        (numeral? (unit :: rest)).map fun numeral =>
          numberValue false numeral.value numeral.value_nonneg

theorem isDigit_digitUnit {digit : ℕ} (small : digit < 10) :
    isDigit (digitUnit digit) = true ∧ (digitUnit digit).val = 48 + digit := by
  have inRange : 48 + digit < 65536 := by
    omega
  have isValue : (digitUnit digit).val = 48 + digit :=
    Nat.mod_eq_of_lt inRange
  refine ⟨?_, isValue⟩
  simp only [isDigit, isValue, Bool.and_eq_true, decide_eq_true_eq]
  omega

theorem decimalValue_concat (digits : JsString) (digit : CodeUnit) :
    decimalValue (digits ++ [digit]) =
      10 * decimalValue digits + (digit.val - 48) := by
  simp [decimalValue]

private theorem decimalValue_reverse {digits : List ℕ}
    (small : ∀ digit ∈ digits, digit < 10) :
    decimalValue (digits.map digitUnit).reverse = Nat.ofDigits 10 digits := by
  induction digits with
  | nil =>
      rfl
  | cons digit digits inductionHypothesis =>
      have isValue :=
        (isDigit_digitUnit (small digit List.mem_cons_self)).2
      rw [List.map_cons, List.reverse_cons, decimalValue_concat,
        inductionHypothesis fun other member =>
          small other (List.mem_cons_of_mem digit member),
        isValue, Nat.ofDigits_cons]
      omega

theorem decimalValue_decimalText (value : ℕ) :
    decimalValue (decimalText value) = value := by
  unfold decimalText
  split
  · next zero =>
      rw [zero]
      rfl
  · rw [decimalValue_reverse fun digit member =>
      Nat.digits_lt_base (by decide) member, Nat.ofDigits_digits]

theorem decimalText_injective : Function.Injective decimalText :=
  Function.LeftInverse.injective decimalValue_decimalText

theorem isDigit_of_mem_decimalText {value : ℕ} {unit : CodeUnit}
    (member : unit ∈ decimalText value) : isDigit unit = true := by
  unfold decimalText at member
  split at member
  · rw [List.mem_singleton.mp member]
    rfl
  · rw [List.mem_reverse, List.mem_map] at member
    obtain ⟨digit, inside, rfl⟩ := member
    exact (isDigit_digitUnit
      (Nat.digits_lt_base (by decide) inside)).1

theorem length_decimalText {value count : ℕ} (positive : 1 ≤ count)
    (least : 10 ^ (count - 1) ≤ value) (most : value < 10 ^ count) :
    (decimalText value).length = count := by
  have nonzero : value ≠ 0 := by
    rintro rfl
    exact absurd least (by simp)
  rw [decimalText, if_neg nonzero, List.length_reverse, List.length_map]
  apply le_antisymm
  · exact (Nat.digits_length_le_iff (by decide) value).mpr most
  · have less : count - 1 < (Nat.digits 10 value).length :=
      (Nat.lt_digits_length_iff (by decide) value).mpr least
    omega

theorem decimalText_ne_nil (value : ℕ) : decimalText value ≠ [] := by
  unfold decimalText
  split
  · exact List.cons_ne_nil _ _
  · next nonzero =>
      simpa [Nat.digits_ne_nil_iff_ne_zero] using nonzero

/-- Only zero begins with a zero. -/
theorem head?_decimalText {value : ℕ} (nonzero : value ≠ 0) :
    (decimalText value).head? ≠ some 48 := by
  have nonempty : Nat.digits 10 value ≠ [] :=
    Nat.digits_ne_nil_iff_ne_zero.mpr nonzero
  have isLast := Nat.getLast_digit_ne_zero 10 nonzero
  have small : (Nat.digits 10 value).getLast nonempty < 10 :=
    Nat.digits_lt_base (by decide) (List.getLast_mem nonempty)
  rw [decimalText, if_neg nonzero, List.head?_reverse, List.getLast?_map,
    List.getLast?_eq_some_getLast nonempty, Option.map_some]
  intro equal
  have isZero : (digitUnit ((Nat.digits 10 value).getLast nonempty)).val =
      48 := by
    rw [Option.some.inj equal]
    rfl
  rw [(isDigit_digitUnit small).2] at isZero
  omega

/-- The literals of JSON. -/
structure Numeral.WellFormed (numeral : Numeral) : Prop where
  nonempty : numeral.integer ≠ []
  digits : ∀ unit ∈ numeral.integer, isDigit unit = true
  leading : numeral.integer.head? = some 48 → numeral.integer.length = 1
  decimals : ∀ unit ∈ numeral.fraction, isDigit unit = true

private theorem takeWhile_digits {digits rest : JsString}
    (each : ∀ unit ∈ digits, isDigit unit = true)
    (stops : ∀ unit ∈ rest.head?, isDigit unit = false) :
    (digits ++ rest).takeWhile isDigit = digits ∧
      (digits ++ rest).dropWhile isDigit = rest := by
  have atRest : rest.takeWhile isDigit = [] ∧
      rest.dropWhile isDigit = rest := by
    cases rest with
    | nil =>
        exact ⟨rfl, rfl⟩
    | cons unit rest =>
        have noDigit := stops unit rfl
        simp [noDigit]
  constructor
  · rw [List.takeWhile_append_of_pos each, atRest.1, List.append_nil]
  · rw [List.dropWhile_append_of_pos each, atRest.2]

/-- The exponent part of a literal. -/
private def exponentText (exponent : Option ℤ) : JsString :=
  match exponent with
  | none => []
  | some exponent =>
      101 :: (if exponent < 0 then 45 else 43) ::
        decimalText exponent.natAbs

private theorem exponent?_exponentText (exponent : Option ℤ) :
    exponent? (exponentText exponent) = some exponent := by
  cases exponent with
  | none =>
      rfl
  | some exponent =>
      have nonempty := decimalText_ne_nil exponent.natAbs
      have digits : (decimalText exponent.natAbs).all isDigit = true :=
        List.all_eq_true.mpr fun unit member =>
          isDigit_of_mem_decimalText member
      rw [exponentText, exponent?, if_pos (Or.inl rfl)]
      rcases lt_or_ge exponent 0 with negative | nonneg
      · simp only [signedInteger?, if_pos negative, List.head?_cons,
          List.tail_cons, or_true, if_true, nonempty, digits, ne_eq,
          not_false_iff, and_self, decimalValue_decimalText,
          Option.map_some]
        congr 2
        omega
      · have noMinus : (some (43 : CodeUnit) = some 45) = False := by
          decide
        simp only [signedInteger?, if_neg (Int.not_lt.mpr nonneg),
          List.head?_cons, List.tail_cons, true_or, if_true, nonempty,
          digits, ne_eq, not_false_iff, and_self, noMinus, if_false,
          decimalValue_decimalText, Option.map_some]
        congr 2
        omega

private theorem stops_exponentText (exponent : Option ℤ) :
    ∀ unit ∈ (exponentText exponent).head?, isDigit unit = false := by
  intro unit member
  cases exponent with
  | none =>
      cases member
  | some exponent =>
      cases member
      rfl

private theorem fraction?_text {fraction : JsString}
    (decimals : ∀ unit ∈ fraction, isDigit unit = true)
    (exponent : Option ℤ) :
    fraction? ((if fraction = [] then [] else 46 :: fraction) ++
        exponentText exponent) =
      some (fraction, exponentText exponent) := by
  obtain ⟨taken, dropped⟩ :=
    takeWhile_digits decimals (stops_exponentText exponent)
  split
  · next empty =>
      subst empty
      cases exponent <;> rfl
  · next nonempty =>
      rw [List.cons_append, fraction?, if_pos rfl, taken, dropped,
        if_neg nonempty]

private theorem stops_fraction (fraction : JsString)
    (exponent : Option ℤ) :
    ∀ unit ∈ ((if fraction = [] then [] else 46 :: fraction) ++
      exponentText exponent).head?, isDigit unit = false := by
  split
  · exact stops_exponentText exponent
  · intro unit member
    cases member
    rfl

theorem numeral?_text {numeral : Numeral}
    (wellFormed : numeral.WellFormed) :
    numeral? numeral.text = some numeral := by
  obtain ⟨integer, fraction, exponent⟩ := numeral
  obtain ⟨nonempty, digits, leading, decimals⟩ := wellFormed
  simp only at nonempty digits leading decimals
  have shape : Numeral.text ⟨integer, fraction, exponent⟩ =
      integer ++ ((if fraction = [] then [] else 46 :: fraction) ++
        exponentText exponent) :=
    rfl
  obtain ⟨taken, dropped⟩ :=
    takeWhile_digits digits (stops_fraction fraction exponent)
  have noLeadingZero :
      ¬(integer.head? = some 48 ∧ integer.length ≠ 1) :=
    fun both => both.2 (leading both.1)
  rw [shape, numeral?]
  simp only [taken, dropped, nonempty, noLeadingZero, or_self, if_false,
    fraction?_text decimals, exponent?_exponentText, Option.map_some]

private theorem decimalValue_zeros_append (count : ℕ) (digits : JsString) :
    decimalValue (List.replicate count 48 ++ digits) =
      decimalValue digits := by
  induction count with
  | zero =>
      rfl
  | succ count inductionHypothesis =>
      exact inductionHypothesis

private theorem decimalValue_append_zeros (digits : JsString)
    (count : ℕ) :
    decimalValue (digits ++ List.replicate count 48) =
      decimalValue digits * 10 ^ count := by
  induction count with
  | zero =>
      simp
  | succ count inductionHypothesis =>
      have isZero : (48 : CodeUnit).val - 48 = 0 :=
        rfl
      rw [List.replicate_succ', ← List.append_assoc, decimalValue_concat,
        inductionHypothesis, isZero, pow_succ]
      ring

section Literal

variable {value : ℚ} (decimal : Decimal value)

private theorem length_digits :
    (decimalText decimal.significand).length = decimal.count :=
  length_decimalText decimal.positive decimal.least decimal.most

private theorem significand_ne_zero : decimal.significand ≠ 0 := by
  have least := decimal.least
  intro zero
  rw [zero] at least
  exact absurd least (by simp)

private theorem head?_digits (rest : JsString) (count : ℕ)
    (positive : count ≠ 0) :
    ((decimalText decimal.significand ++ rest).take count).head? ≠
      some 48 := by
  rw [List.head?_take, if_neg positive, List.head?_append_of_ne_nil _
    (decimalText_ne_nil _)]
  exact head?_decimalText (significand_ne_zero decimal)

theorem wellFormed_numeral : decimal.numeral.WellFormed := by
  have digits : ∀ unit ∈ decimalText decimal.significand,
      isDigit unit = true :=
    fun unit member => isDigit_of_mem_decimalText member
  have nonempty : ∀ count, count ≠ 0 →
      (decimalText decimal.significand).take count ≠ [] := by
    intro count positive empty
    rcases List.take_eq_nil_iff.mp empty with zero | nothing
    · exact positive zero
    · exact decimalText_ne_nil _ nothing
  have leading : ∀ count, count ≠ 0 →
      ((decimalText decimal.significand).take count).head? ≠ some 48 := by
    intro count positive
    simpa using head?_digits decimal [] count positive
  unfold Decimal.numeral
  simp only
  split_ifs with whole pointed small
  · refine ⟨by simp [decimalText_ne_nil], ?_, ?_, by simp⟩
    · intro unit member
      rcases List.mem_append.mp member with inside | zeros
      · exact digits unit inside
      · rw [List.eq_of_mem_replicate zeros]
        rfl
    · intro isZero
      rw [List.head?_append_of_ne_nil _ (decimalText_ne_nil _)] at isZero
      exact absurd isZero (head?_decimalText (significand_ne_zero decimal))
  · have positive : decimal.exponent.toNat ≠ 0 := by
      omega
    exact ⟨nonempty _ positive,
      fun unit member => digits unit (List.mem_of_mem_take member),
      fun isZero => absurd isZero (leading _ positive),
      fun unit member => digits unit (List.mem_of_mem_drop member)⟩
  · refine ⟨by simp, by simp [isDigit], by simp, ?_⟩
    intro unit member
    rcases List.mem_append.mp member with zeros | inside
    · rw [List.eq_of_mem_replicate zeros]
      rfl
    · exact digits unit inside
  · exact ⟨nonempty 1 (by decide),
      fun unit member => digits unit (List.mem_of_mem_take member),
      fun isZero => absurd isZero (leading 1 (by decide)),
      fun unit member => digits unit (List.mem_of_mem_drop member)⟩

theorem value_numeral : decimal.numeral.value = decimal.magnitude := by
  have length := length_digits decimal
  have positive := decimal.positive
  unfold Decimal.numeral Numeral.value Decimal.magnitude
  simp only
  split_ifs with whole pointed small
  · simp only [List.append_nil, Option.getD_none, List.length_nil]
    rw [decimalValue_append_zeros, decimalValue_decimalText]
    have isCount : ((decimal.exponent - decimal.count).toNat : ℤ) =
        decimal.exponent - decimal.count := by
      omega
    push_cast
    rw [← zpow_natCast, isCount]
    simp
  · simp only [List.take_append_drop, Option.getD_none, List.length_drop]
    rw [decimalValue_decimalText, length]
    congr 2
    omega
  · simp only [List.singleton_append, Option.getD_none,
      List.length_append, List.length_replicate]
    have noZero : decimalValue (48 ::
        (List.replicate (-decimal.exponent).toNat 48 ++
          decimalText decimal.significand)) = decimal.significand := by
      refine (decimalValue_zeros_append
        ((-decimal.exponent).toNat + 1) _).trans ?_
      exact decimalValue_decimalText _
    rw [noZero, length]
    congr 2
    omega
  · simp only [List.take_append_drop, Option.getD_some, List.length_drop]
    rw [decimalValue_decimalText, length]
    congr 2
    omega

end Literal

/-! ## Every positive double has a decimal -/

private theorem ten_zpow_pos (exponent : ℤ) : (0 : ℚ) < 10 ^ exponent :=
  zpow_pos (by norm_num) exponent

private theorem inverse_two_mul_ten (exponent : ℕ) :
    (2 : ℚ) ^ (-(exponent : ℤ)) * 10 ^ (exponent : ℤ) = 5 ^ exponent := by
  rw [zpow_neg, zpow_natCast, zpow_natCast, ← div_eq_inv_mul, ← div_pow]
  norm_num

private theorem exists_scaled {value : ℚ} (isDouble : IsDouble value)
    {shift : ℤ} (enough : 1074 ≤ shift) :
    ∃ scaled : ℕ, value * 10 ^ shift = scaled := by
  obtain ⟨multiple, isMultiple⟩ := isDouble.isMultiple
  obtain ⟨more, isShift⟩ : ∃ more : ℕ, shift = 1074 + more :=
    ⟨(shift - 1074).toNat, by omega⟩
  refine ⟨multiple * 5 ^ 1074 * 10 ^ more, ?_⟩
  have cancel := inverse_two_mul_ten 1074
  simp only [Nat.cast_ofNat] at cancel
  rw [isMultiple, isShift, zpow_add₀ (by norm_num), zpow_natCast]
  simp only [Nat.cast_mul, Nat.cast_pow, Nat.cast_ofNat]
  calc (multiple : ℚ) * 2 ^ (-1074 : ℤ) * (10 ^ (1074 : ℤ) * 10 ^ more)
      = multiple * (2 ^ (-1074 : ℤ) * 10 ^ (1074 : ℤ)) * 10 ^ more := by
        ring
    _ = multiple * 5 ^ 1074 * 10 ^ more := by
        rw [cancel]

private theorem isSome_closest {value : ℚ}
    {below : Option (Decimal value)} (above : Option (Decimal value))
    (found : below.isSome) : (closest below above).isSome := by
  obtain ⟨lower, rfl⟩ := Option.isSome_iff_exists.mp found
  cases above with
  | none =>
      rfl
  | some upper =>
      unfold closest
      simp only
      split_ifs <;> rfl

private theorem isSome_decimalOf {value : ℚ} (isDouble : IsDouble value)
    (positive : 0 < value) {count : ℕ} (atLeastOne : 1 ≤ count)
    (enough : 1074 ≤ count - pointOf value) :
    (decimalOf value count).isSome := by
  obtain ⟨scaled, isScaled⟩ := exists_scaled isDouble enough
  have floor : ⌊value * 10 ^ (count - pointOf value)⌋₊ = scaled := by
    rw [isScaled, Nat.floor_natCast]
  have least : 10 ^ (count - 1) ≤ scaled := by
    have log := Int.zpow_log_le_self (b := 10) (by decide) positive
    have scaledLog := mul_le_mul_of_nonneg_right log
      (ten_zpow_pos (count - pointOf value)).le
    rw [isScaled, Nat.cast_ofNat, ← zpow_add₀ (by norm_num)] at scaledLog
    have isExponent : Int.log 10 value + (count - pointOf value) =
        ((count - 1 : ℕ) : ℤ) := by
      unfold pointOf
      omega
    rw [isExponent, zpow_natCast] at scaledLog
    exact_mod_cast scaledLog
  have most : scaled < 10 ^ count := by
    have log := Int.lt_zpow_succ_log_self (b := 10) (by decide) value
    have scaledLog := mul_lt_mul_of_pos_right log
      (ten_zpow_pos (count - pointOf value))
    rw [isScaled, Nat.cast_ofNat, ← zpow_add₀ (by norm_num)] at scaledLog
    have isExponent :
        Int.log 10 value + 1 + (count - pointOf value) = count := by
      unfold pointOf
      omega
    rw [isExponent, zpow_natCast] at scaledLog
    exact_mod_cast scaledLog
  have denotes :
      round64 (scaled * 10 ^ (pointOf value - count)) = value := by
    have inverse : pointOf value - count = -(count - pointOf value) := by
      omega
    rw [← isScaled, inverse, zpow_neg, mul_assoc,
      mul_inv_cancel₀ (ten_zpow_pos _).ne', mul_one]
    exact isDouble.rounded
  unfold decimalOf
  simp only [floor]
  apply isSome_closest
  rw [decimal?, dif_pos ⟨atLeastOne, least, most, denotes⟩]
  rfl

theorem isSome_shortest? {value : ℚ} (isDouble : IsDouble value)
    (positive : 0 < value) : (shortest? value).isSome := by
  rw [shortest?, List.findSome?_isSome_iff]
  refine ⟨(pointOf value + 1074).toNat + 1, ?_, ?_⟩
  · rw [List.mem_range'_1]
    omega
  · exact isSome_decimalOf isDouble positive (by omega) (by omega)

/-- The shortest decimal of a positive double. -/
def shortest (value : ℚ) (isDouble : IsDouble value)
    (positive : 0 < value) : Decimal value :=
  (shortest? value).get (isSome_shortest? isDouble positive)

/-- What `JSON.stringify` writes for a finite number: the text of zero has no
sign. -/
def writeNumber : JsNumber → Option JsString
  | .nan => none
  | .infinity _ => none
  | .finite negative magnitude isDouble =>
      if positive : 0 < magnitude then
        let text := (shortest magnitude isDouble positive).numeral.text
        some (if negative then 45 :: text else text)
      else
        some [48]

private theorem numeralText_begins {numeral : Numeral}
    (wellFormed : numeral.WellFormed) :
    ∃ first rest, numeral.text = first :: rest ∧ isDigit first = true := by
  obtain ⟨first, rest, isInteger⟩ :=
    List.exists_cons_of_ne_nil wellFormed.nonempty
  have digit := wellFormed.digits first (by simp [isInteger])
  rw [Numeral.text, isInteger, List.cons_append]
  exact ⟨first, _, rfl, digit⟩

private theorem numeralText_units {numeral : Numeral}
    (wellFormed : numeral.WellFormed) :
    ∀ unit ∈ numeral.text, isNumberUnit unit = true := by
  have digit : ∀ unit, isDigit unit = true → isNumberUnit unit = true := by
    intro unit isDigitUnit
    unfold isDigit at isDigitUnit
    simp [isNumberUnit, isDigitUnit]
  intro unit member
  rcases List.mem_append.mp member with integer | after
  · exact digit unit (wellFormed.digits unit integer)
  rcases List.mem_append.mp after with fraction | exponent
  · split at fraction
    · cases fraction
    · rcases List.mem_cons.mp fraction with rfl | decimals
      · rfl
      · exact digit unit (wellFormed.decimals unit decimals)
  · split at exponent
    · cases exponent
    · rcases List.mem_cons.mp exponent with rfl | signed
      · rfl
      rcases List.mem_cons.mp signed with rfl | digits
      · split <;> rfl
      · exact digit unit (isDigit_of_mem_decimalText digits)

private theorem startsNumber_of_isDigit {unit : CodeUnit}
    (digit : isDigit unit = true) : startsNumber unit = true := by
  unfold isDigit at digit
  simp [startsNumber, digit]

section Positive

variable {magnitude : ℚ} (isDouble : IsDouble magnitude)
  (positive : 0 < magnitude)

/-- The text of a positive number is read as this number. -/
private theorem readNumber_shortest (negative : Bool) :
    readNumber
        (if negative then
          45 :: (shortest magnitude isDouble positive).numeral.text
        else (shortest magnitude isDouble positive).numeral.text) =
      some (.finite negative magnitude isDouble) := by
  have wellFormed :=
    wellFormed_numeral (shortest magnitude isDouble positive)
  have isRead := numeral?_text wellFormed
  have isRounded :
      round64 (shortest magnitude isDouble positive).numeral.value =
        magnitude := by
    rw [value_numeral]
    exact (shortest magnitude isDouble positive).denotes
  have isValue := fun negative => numberValue_of_round negative
    (Numeral.value_nonneg _) isDouble isRounded
  cases negative with
  | true =>
      rw [if_pos rfl, readNumber, if_pos rfl, isRead]
      exact congrArg some (isValue true)
  | false =>
      obtain ⟨first, rest, begins, digit⟩ := numeralText_begins wellFormed
      have noMinus : first ≠ 45 := by
        rintro rfl
        cases digit
      rw [if_neg (by decide), begins, readNumber, if_neg noMinus,
        ← begins, isRead]
      exact congrArg some (isValue false)

end Positive

private theorem writeNumber_cases {number : JsNumber} {token : JsString}
    (written : writeNumber number = some token) :
    token = [48] ∨
      ∃ (numeral : Numeral) (negative : Bool), numeral.WellFormed ∧
        token = if negative then 45 :: numeral.text else numeral.text := by
  cases number with
  | nan =>
      cases written
  | infinity negative =>
      cases written
  | finite negative magnitude isDouble =>
      rw [writeNumber] at written
      split at written
      · next positive =>
          exact Or.inr ⟨_, negative, wellFormed_numeral _,
            (Option.some.inj written).symm⟩
      · exact Or.inl (Option.some.inj written).symm

private theorem writeNumber_begins (number : JsNumber) (token : JsString)
    (written : writeNumber number = some token) :
    ∃ first rest, token = first :: rest ∧ startsNumber first = true := by
  rcases writeNumber_cases written with
    rfl | ⟨numeral, negative, wellFormed, rfl⟩
  · exact ⟨48, [], rfl, rfl⟩
  · obtain ⟨first, rest, begins, digit⟩ := numeralText_begins wellFormed
    cases negative with
    | true =>
        exact ⟨45, numeral.text, rfl, rfl⟩
    | false =>
        exact ⟨first, rest, begins, startsNumber_of_isDigit digit⟩

private theorem writeNumber_units (number : JsNumber) (token : JsString)
    (written : writeNumber number = some token) :
    ∀ unit ∈ token, isNumberUnit unit = true := by
  rcases writeNumber_cases written with
    rfl | ⟨numeral, negative, wellFormed, rfl⟩
  · intro unit member
    rw [List.mem_singleton.mp member]
    rfl
  · have units := numeralText_units wellFormed
    intro unit member
    cases negative with
    | true =>
        rcases List.mem_cons.mp member with rfl | inside
        · rfl
        · exact units unit inside
    | false =>
        exact units unit member

private theorem readNumber_zero :
    readNumber [48] = some (.finite false 0 isDouble_zero) := by
  have isRead : numeral? [48] = some ⟨[48], [], none⟩ :=
    rfl
  have isValue : Numeral.value ⟨[48], [], none⟩ = 0 := by
    simp [Numeral.value, decimalValue]
  rw [readNumber, if_neg (by decide), isRead]
  refine congrArg some
    (numberValue_of_round false (Numeral.value_nonneg _) isDouble_zero ?_)
  rw [isValue, round64_zero]

private theorem writeNumber_reads (number : JsNumber) (token : JsString)
    (written : writeNumber number = some token) :
    ∃ again, readNumber token = some again ∧
      writeNumber again = some token := by
  cases number with
  | nan =>
      cases written
  | infinity negative =>
      cases written
  | finite negative magnitude isDouble =>
      by_cases positive : 0 < magnitude
      · refine ⟨.finite negative magnitude isDouble, ?_, written⟩
        rw [writeNumber, dif_pos positive] at written
        rw [← Option.some.inj written]
        exact readNumber_shortest isDouble positive negative
      · rw [writeNumber, dif_neg positive] at written
        rw [← Option.some.inj written]
        refine ⟨_, readNumber_zero, ?_⟩
        rw [writeNumber, dif_neg (lt_irrefl 0)]

/-- Finite numbers with one value; a zero equals a zero with a sign. -/
def JsNumber.SameValue (first second : JsNumber) : Prop :=
  first.isFinite = true ∧ second.isFinite = true ∧
    first.toRat = second.toRat

/-- A positive number is given by its value. -/
private theorem JsNumber.eq_of_toRat {negative otherNegative : Bool}
    {magnitude other : ℚ} {isDouble : IsDouble magnitude}
    {otherDouble : IsDouble other} (positive : 0 < magnitude)
    (same : JsNumber.toRat (.finite negative magnitude isDouble) =
      JsNumber.toRat (.finite otherNegative other otherDouble)) :
    JsNumber.finite negative magnitude isDouble =
      .finite otherNegative other otherDouble := by
  have magnitudes := congrArg abs same
  rw [abs_toRat, abs_toRat] at magnitudes
  subst magnitudes
  have signs : negative = otherNegative := by
    cases negative <;> cases otherNegative <;>
      simp only [toRat, if_true, Bool.false_eq_true, if_false] at same
    · rfl
    · linarith
    · linarith
    · rfl
  rw [signs]

/-- Numbers with one value are written by one token, and it is read as a number
with this value. -/
theorem exists_token {first second : JsNumber}
    (same : first.SameValue second) :
    ∃ token again, writeNumber first = some token ∧
      writeNumber second = some token ∧ readNumber token = some again ∧
      again.SameValue first := by
  obtain ⟨firstFinite, secondFinite, values⟩ := same
  cases first with
  | nan =>
      cases firstFinite
  | infinity negative =>
      cases firstFinite
  | finite negative magnitude isDouble =>
      cases second with
      | nan =>
          cases secondFinite
      | infinity otherNegative =>
          cases secondFinite
      | finite otherNegative other otherDouble =>
          by_cases positive : 0 < magnitude
          · rw [← JsNumber.eq_of_toRat positive values, writeNumber,
              dif_pos positive]
            exact ⟨_, _, rfl, rfl,
              readNumber_shortest isDouble positive negative, rfl, rfl, rfl⟩
          · have magnitudes := congrArg abs values
            rw [abs_toRat, abs_toRat] at magnitudes
            have isZero : magnitude = 0 :=
              le_antisymm (not_lt.mp positive) isDouble.nonneg
            subst isZero
            subst magnitudes
            rw [writeNumber, dif_neg positive, writeNumber, dif_neg positive]
            refine ⟨_, _, rfl, rfl, readNumber_zero, rfl, rfl, ?_⟩
            cases negative <;> simp [JsNumber.toRat]

/-- Numbers in JSON texts. -/
def numberFormat : NumberFormat JsNumber where
  text := writeNumber
  value := readNumber
  begins := writeNumber_begins
  units := writeNumber_units
  reads := writeNumber_reads

end Json
