import ArosParadigm.Library.Json.Properties

/-!
# JSON texts

`JSON.stringify` without a replacer and without indentation, in two steps:
`treeOf` decides what of a value is written and in which order, `print` writes
it. The texts of numbers are a parameter, a `NumberFormat`.
-/

namespace Json

/-- The code units of number tokens: digits, signs, the point and the
exponent mark. -/
def isNumberUnit (unit : CodeUnit) : Bool :=
  (48 ≤ unit.val && unit.val ≤ 57) || unit.val == 43 || unit.val == 45 ||
    unit.val == 46 || unit.val == 69 || unit.val == 101

/-- A digit or a minus sign: how a number token begins. -/
def startsNumber (unit : CodeUnit) : Bool :=
  (48 ≤ unit.val && unit.val ≤ 57) || unit.val == 45

/-- How numbers are written and read. A number without a text is not finite.
What is written is read as a number with the same text. -/
structure NumberFormat (Number : Type) where
  text : Number → Option JsString
  value : JsString → Option Number
  begins : ∀ number token, text number = some token →
    ∃ first rest, token = first :: rest ∧ startsNumber first = true
  units : ∀ number token, text number = some token →
    ∀ unit ∈ token, isNumberUnit unit = true
  reads : ∀ number token, text number = some token →
    ∃ again, value token = some again ∧ text again = some token

/-- What a JSON text writes: numbers are given by their tokens and members
by their order. -/
inductive Tree where
  | null
  | boolean (value : Bool)
  | number (token : JsString)
  | string (value : JsString)
  | array (items : List Tree)
  | object (members : List (JsString × Tree))

variable {Number : Type}

/-- A member is written unless its value is left out. -/
def present (property : JsString × Option Tree) : Option (JsString × Tree) :=
  property.2.map fun tree => (property.1, tree)

mutual

/-- `SerializeJSONProperty`: nothing for `undefined`, `null` for numbers that
are not finite, and one call of `toJSON` where there is one. -/
def treeOf (format : NumberFormat Number) (called : Bool) :
    JsValue Number → Option Tree
  | .undefined => none
  | .null => some .null
  | .boolean value => some (.boolean value)
  | .number value =>
      match format.text value with
      | some token => some (.number token)
      | none => some .null
  | .string value => some (.string value)
  | .array items => some (.array (itemsOf format items))
  | .object definitions =>
      some (.object
        ((ownProperties (membersOf format definitions)).filterMap present))
  | .custom definitions json =>
      if called then
        some (.object
          ((ownProperties (membersOf format definitions)).filterMap present))
      else
        treeOf format true json

/-- `SerializeJSONArray`: an item that is left out is written as `null`. -/
def itemsOf (format : NumberFormat Number) :
    List (JsValue Number) → List Tree
  | [] => []
  | item :: items =>
      (treeOf format false item).getD .null :: itemsOf format items

/-- `SerializeJSONObject`: the values of the properties. -/
def membersOf (format : NumberFormat Number) :
    List (JsString × JsValue Number) → List (JsString × Option Tree)
  | [] => []
  | (key, value) :: definitions =>
      (key, treeOf format false value) :: membersOf format definitions

end

def hexDigit (digit : ℕ) : CodeUnit :=
  if digit < 10 then Fin.ofNat 65536 (48 + digit)
  else Fin.ofNat 65536 (87 + digit)

def unicodeEscape (unit : CodeUnit) : JsString :=
  [92, 117, hexDigit (unit.val / 4096), hexDigit (unit.val / 256 % 16),
    hexDigit (unit.val / 16 % 16), hexDigit (unit.val % 16)]

def isLeading (unit : CodeUnit) : Bool :=
  55296 ≤ unit.val && unit.val < 56320

def isTrailing (unit : CodeUnit) : Bool :=
  56320 ≤ unit.val && unit.val < 57344

def shortEscape? (unit : CodeUnit) : Option CodeUnit :=
  if unit = 8 then some 98
  else if unit = 9 then some 116
  else if unit = 10 then some 110
  else if unit = 12 then some 102
  else if unit = 13 then some 114
  else if unit = 34 then some 34
  else if unit = 92 then some 92
  else none

/-- One code point of `QuoteJSONString` that is not a pair of surrogates. -/
def quoteUnit (unit : CodeUnit) : JsString :=
  match shortEscape? unit with
  | some letter => [92, letter]
  | none =>
      if unit.val < 32 || isLeading unit || isTrailing unit then
        unicodeEscape unit
      else
        [unit]

/-- The text between the quotation marks. A pair of surrogates is one code
point and stays as it is. -/
def quoteUnits : JsString → JsString
  | [] => []
  | [unit] => quoteUnit unit
  | unit :: next :: rest =>
      if isLeading unit && isTrailing next then
        unit :: next :: quoteUnits rest
      else
        quoteUnit unit ++ quoteUnits (next :: rest)

/-- `QuoteJSONString`. -/
def quote (value : JsString) : JsString :=
  34 :: (quoteUnits value ++ [34])

mutual

/-- The text of a tree. -/
def print : Tree → JsString
  | .null => [110, 117, 108, 108]
  | .boolean true => [116, 114, 117, 101]
  | .boolean false => [102, 97, 108, 115, 101]
  | .number token => token
  | .string value => quote value
  | .array [] => [91, 93]
  | .array (item :: items) =>
      91 :: (print item ++ printItems items)
  | .object [] => [123, 125]
  | .object ((key, value) :: members) =>
      123 :: (quote key ++ 58 :: (print value ++ printMembers members))

def printItems : List Tree → JsString
  | [] => [93]
  | item :: items => 44 :: (print item ++ printItems items)

def printMembers : List (JsString × Tree) → JsString
  | [] => [125]
  | (key, value) :: members =>
      44 :: (quote key ++ 58 :: (print value ++ printMembers members))

end

/-- `JSON.stringify(value)`. -/
def stringify (format : NumberFormat Number) (value : JsValue Number) :
    Option JsString :=
  (treeOf format false value).map print

end Json
