import Mathlib.Algebra.GroupWithZero.Nat
import Mathlib.Data.List.Sort
import Mathlib.Data.String.Basic

/-!
# JavaScript values

Strings are lists of UTF-16 code units and compare by code unit. An object is
given by the list of the definitions of its own properties in the order in
which they were made; `ownProperties` is the list of its properties in
enumeration order: a repeated key keeps its place and takes the last value,
array indices come first in ascending order, and the other keys follow in the
order of their first definition.
-/

namespace Json

abbrev CodeUnit := Fin 65536

instance neZero_codeUnits : NeZero 65536 :=
  ⟨Nat.succ_ne_zero 65535⟩

abbrev JsString := List CodeUnit

/-- The UTF-16 code units of one Unicode scalar value. -/
def utf16OfChar (character : Char) : JsString :=
  if character.toNat < 65536 then
    [Fin.ofNat 65536 character.toNat]
  else
    [Fin.ofNat 65536 (55296 + (character.toNat - 65536) / 1024),
      Fin.ofNat 65536 (56320 + (character.toNat - 65536) % 1024)]

def utf16 (text : String) : JsString :=
  text.toList.flatMap utf16OfChar

theorem utf16OfChar_ne_nil (character : Char) :
    utf16OfChar character ≠ [] := by
  unfold utf16OfChar
  split <;> simp

/-- A sequence of code units starts with one character only. -/
theorem utf16OfChar_append_cancel {first second : Char}
    {firstRest secondRest : JsString}
    (same : utf16OfChar first ++ firstRest =
      utf16OfChar second ++ secondRest) :
    first = second ∧ firstRest = secondRest := by
  have scalar : ∀ character : Char,
      character.toNat < 55296 ∨
        57343 < character.toNat ∧ character.toNat < 1114112 :=
    fun character => character.valid
  have firstScalar := scalar first
  have secondScalar := scalar second
  have reduced : ∀ number : ℕ,
      (Fin.ofNat 65536 number).val = number % 65536 :=
    fun _ => rfl
  unfold utf16OfChar at same
  split at same <;> split at same <;>
    simp only [List.cons_append, List.nil_append, List.cons.injEq,
      Fin.ext_iff, reduced] at same
  · refine ⟨Char.ext (UInt32.toNat_inj.mp ?_), same.2⟩
    change first.toNat = second.toNat
    omega
  -- A surrogate is no character of its own.
  · omega
  · omega
  · refine ⟨Char.ext (UInt32.toNat_inj.mp ?_), same.2.2⟩
    change first.toNat = second.toNat
    omega

private theorem flatMap_utf16OfChar_inj (firsts seconds : List Char)
    (same : firsts.flatMap utf16OfChar =
      seconds.flatMap utf16OfChar) : firsts = seconds := by
  induction firsts generalizing seconds with
  | nil =>
      cases seconds with
      | nil =>
          rfl
      | cons other others =>
          rw [List.flatMap_nil, List.flatMap_cons] at same
          have nothing := (List.append_eq_nil_iff.mp same.symm).1
          exact absurd nothing (utf16OfChar_ne_nil other)
  | cons head rest inductionHypothesis =>
      cases seconds with
      | nil =>
          rw [List.flatMap_nil, List.flatMap_cons] at same
          have nothing := (List.append_eq_nil_iff.mp same).1
          exact absurd nothing (utf16OfChar_ne_nil head)
      | cons other others =>
          rw [List.flatMap_cons, List.flatMap_cons] at same
          obtain ⟨rfl, tails⟩ := utf16OfChar_append_cancel same
          rw [inductionHypothesis others tails]

theorem utf16_injective : Function.Injective utf16 := by
  intro first second same
  exact String.toList_injective (flatMap_utf16OfChar_inj _ _ same)

/-- A JavaScript value over a type of numbers. `undefined` also stands for
functions and symbols, which serialization treats in the same way. `custom`
is an object with own properties whose `toJSON` method returns the second
argument, as a date does. -/
inductive JsValue (Number : Type) where
  | undefined
  | null
  | boolean (value : Bool)
  | number (value : Number)
  | string (value : JsString)
  | array (items : List (JsValue Number))
  | object (definitions : List (JsString × JsValue Number))
  | custom (definitions : List (JsString × JsValue Number))
      (json : JsValue Number)

abbrev JsObject (Number : Type) := List (JsString × JsValue Number)

/-- `CreateDataProperty`: a repeated key keeps its place. -/
def defineProperty {Value : Type} (key : JsString) (value : Value) :
    List (JsString × Value) → List (JsString × Value)
  | [] => [(key, value)]
  | (head, old) :: tail =>
      if head = key then (key, value) :: tail
      else (head, old) :: defineProperty key value tail

/-- The properties after a list of definitions, in creation order. -/
def created {Value : Type} (definitions : List (JsString × Value)) :
    List (JsString × Value) :=
  definitions.foldl
    (fun properties definition =>
      defineProperty definition.1 definition.2 properties) []

/-- The number written by decimal digits, most significant first. -/
def decimalValue (digits : JsString) : ℕ :=
  digits.foldl (fun value digit => 10 * value + (digit.val - 48)) 0

def isDigit (unit : CodeUnit) : Bool :=
  48 ≤ unit.val && unit.val ≤ 57

/-- A canonical array index: the decimal text of a number below `2 ^ 32 - 1`.
-/
def arrayIndex? (key : JsString) : Option ℕ :=
  if key ≠ [] ∧ key.all isDigit ∧
      (key.head? = some 48 → key.length = 1) ∧
      decimalValue key < 4294967295 then
    some (decimalValue key)
  else
    none

/-- Array indices in ascending order, then the other keys as created. -/
def enumerated {Value : Type} (properties : List (JsString × Value)) :
    List (JsString × Value) :=
  (properties.filter fun property =>
      (arrayIndex? property.1).isSome).insertionSort
    (fun first second =>
      (arrayIndex? first.1).getD 0 ≤ (arrayIndex? second.1).getD 0) ++
  properties.filter fun property => (arrayIndex? property.1).isNone

def ownProperties {Value : Type} (definitions : List (JsString × Value)) :
    List (JsString × Value) :=
  enumerated (created definitions)

/-- An own property of an object; `undefined` where there is none. -/
def JsValue.property {Number : Type} (value : JsValue Number)
    (key : JsString) : JsValue Number :=
  let definitions := match value with
    | .object definitions => definitions
    | .custom definitions _ => definitions
    | _ => []
  match (ownProperties definitions).find? fun property =>
      decide (property.1 = key) with
  | some property => property.2
  | none => .undefined

end Json
