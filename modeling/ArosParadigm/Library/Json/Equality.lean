import ArosParadigm.Library.Json.RoundTrip

/-!
# Equal values

Two JSON values are equal up to the order of keys when their objects have the
same keys and equal values of them, at every depth. Such values are written in
the same way exactly when their objects also list the keys in the same order,
and what is read back from the text of a value is equal to it.
-/

namespace Json

variable {Number : Type}

/-- Equality of JSON values whose numbers are related by `same` and whose
objects, at every depth, have keys that are related by `order`. -/
inductive Equal (order : List JsString → List JsString → Prop)
    (same : Number → Number → Prop) :
    JsValue Number → JsValue Number → Prop
  | null : Equal order same .null .null
  | boolean (value : Bool) :
      Equal order same (.boolean value) (.boolean value)
  | number {first second : Number} (isSame : same first second) :
      Equal order same (.number first) (.number second)
  | string (value : JsString) :
      Equal order same (.string value) (.string value)
  | array {firsts seconds : List (JsValue Number)}
      (length : firsts.length = seconds.length)
      (each : ∀ (index : ℕ) first second, firsts[index]? = some first →
        seconds[index]? = some second → Equal order same first second) :
      Equal order same (.array firsts) (.array seconds)
  | object {firsts seconds : JsObject Number}
      (keys : order (keysOf firsts) (keysOf seconds))
      (each : ∀ key first second, (key, first) ∈ ownProperties firsts →
        (key, second) ∈ ownProperties seconds →
          Equal order same first second) :
      Equal order same (.object firsts) (.object seconds)

theorem Equal.mono {order weaker : List JsString → List JsString → Prop}
    (implies : ∀ firsts seconds, order firsts seconds →
      weaker firsts seconds)
    {same : Number → Number → Prop} {left right : JsValue Number}
    (equal : Equal order same left right) :
    Equal weaker same left right := by
  induction equal with
  | null =>
      exact .null
  | boolean value =>
      exact .boolean value
  | number isSame =>
      exact .number isSame
  | string value =>
      exact .string value
  | array length _ inductionHypothesis =>
      exact .array length inductionHypothesis
  | object keys _ inductionHypothesis =>
      exact .object (implies _ _ keys) inductionHypothesis

section Trees

variable (format : NumberFormat Number)

/-- The tree of a value; `null` for a value that is left out. -/
def treeOrNull (value : JsValue Number) : Tree :=
  (treeOf format false value).getD .null

theorem treeOf_of_isSome {value : JsValue Number}
    (written : (treeOf format false value).isSome) :
    treeOf format false value = some (treeOrNull format value) := by
  obtain ⟨tree, isTree⟩ := Option.isSome_iff_exists.mp written
  rw [treeOrNull, isTree, Option.getD_some]

private theorem itemsOf_eq_map (items : List (JsValue Number)) :
    itemsOf format items = items.map (treeOrNull format) := by
  induction items with
  | nil =>
      rfl
  | cons item items inductionHypothesis =>
      rw [itemsOf, inductionHypothesis]
      rfl

private theorem membersOf_eq_map (definitions : JsObject Number) :
    membersOf format definitions =
      definitions.map (Prod.map id (treeOf format false)) := by
  induction definitions with
  | nil =>
      rfl
  | cons definition definitions inductionHypothesis =>
      rw [membersOf, inductionHypothesis]
      rfl

theorem treeOf_array (items : List (JsValue Number)) :
    treeOf format false (.array items) =
      some (.array (items.map (treeOrNull format))) := by
  rw [treeOf, itemsOf_eq_map]

theorem treeOf_object {definitions : JsObject Number}
    (written : ∀ key value, (key, value) ∈ ownProperties definitions →
      (treeOf format false value).isSome) :
    treeOf format false (.object definitions) =
      some (.object ((ownProperties definitions).map
        (Prod.map id (treeOrNull format)))) := by
  rw [treeOf, membersOf_eq_map, ownProperties_map, List.filterMap_map]
  congr 2
  rw [← List.filterMap_eq_map]
  refine List.filterMap_congr ?_
  intro property member
  obtain ⟨key, value⟩ := property
  change present (key, treeOf format false value) = _
  rw [treeOf_of_isSome format (written key value member)]
  rfl

end Trees

/-- Lists of properties are equal when keys and values are. -/
theorem map_ownProperties_eq_iff {Value Target : Type}
    (change : Value → Target) (firsts seconds : List (JsString × Value)) :
    (ownProperties firsts).map (Prod.map id change) =
        (ownProperties seconds).map (Prod.map id change) ↔
      keysOf firsts = keysOf seconds ∧
        ∀ key first second, (key, first) ∈ ownProperties firsts →
          (key, second) ∈ ownProperties seconds →
            change first = change second := by
  constructor
  · intro equal
    refine ⟨?_, ?_⟩
    · have keys := congrArg (List.map Prod.fst) equal
      rw [List.map_map, List.map_map] at keys
      exact keys
    · intro key first second isFirst isSecond
      have inside : (key, change first) ∈
          (ownProperties seconds).map (Prod.map id change) := by
        rw [← equal]
        exact List.mem_map_of_mem isFirst
      obtain ⟨⟨other, value⟩, isOther, pair⟩ := List.mem_map.mp inside
      obtain ⟨rfl, sameValue⟩ := Prod.mk.inj pair
      rw [eq_of_mem_ownProperties isSecond isOther]
      exact sameValue.symm
  · rintro ⟨keys, values⟩
    have length := congrArg List.length keys
    rw [keysOf, keysOf, List.length_map, List.length_map] at length
    refine List.ext_getElem ?_ ?_
    · rw [List.length_map, List.length_map, length]
    · intro index isFirst isSecond
      rw [List.getElem_map, List.getElem_map]
      rw [List.length_map] at isFirst isSecond
      have isKey := congrArg (fun names => names[index]?) keys
      simp only [keysOf, List.getElem?_map, List.getElem?_eq_getElem isFirst,
        List.getElem?_eq_getElem isSecond, Option.map_some,
        Option.some.injEq] at isKey
      have second : ((ownProperties firsts)[index].1,
          (ownProperties seconds)[index].2) ∈ ownProperties seconds := by
        rw [isKey]
        exact List.getElem_mem isSecond
      exact Prod.ext isKey
        (values _ _ _ (List.getElem_mem isFirst) second)

/-- The value of an own key. -/
theorem property_of_mem {definitions : JsObject Number} {key : JsString}
    {value : JsValue Number}
    (member : (key, value) ∈ ownProperties definitions) :
    (JsValue.object definitions).property key = value := by
  have found : ((ownProperties definitions).find? fun property =>
      decide (property.1 = key)) = some (key, value) := by
    cases search : (ownProperties definitions).find? fun property =>
        decide (property.1 = key) with
    | none =>
        rw [List.find?_eq_none] at search
        exact absurd (decide_eq_true rfl) (search _ member)
    | some property =>
        have inside := List.mem_of_find?_eq_some search
        have isKey := of_decide_eq_true
          (List.find?_some (p := fun property : JsString × JsValue Number =>
            decide (property.1 = key)) search)
        obtain ⟨other, candidate⟩ := property
        obtain rfl : other = key := isKey
        rw [eq_of_mem_ownProperties inside member]
  simp only [JsValue.property, found]

/-! ## Equal values are written alike -/

section Written

variable {format : NumberFormat Number}
variable {same : Number → Number → Prop}

/-- Numbers that are the same are written by the same token, and it is read as
the same number again. -/
def Respects (format : NumberFormat Number)
    (same : Number → Number → Prop) : Prop :=
  ∀ first second, same first second → ∃ token again,
    format.text first = some token ∧ format.text second = some token ∧
      format.value token = some again ∧ same again first

theorem Equal.isWritten (respects : Respects format same)
    {left right : JsValue Number} (equal : Equal List.Perm same left right) :
    (treeOf format false left).isSome ∧
      (treeOf format false right).isSome := by
  cases equal with
  | null =>
      exact ⟨rfl, rfl⟩
  | boolean value =>
      exact ⟨rfl, rfl⟩
  | number isSame =>
      obtain ⟨token, again, first, second, _⟩ := respects _ _ isSame
      rw [treeOf, treeOf, first, second]
      exact ⟨rfl, rfl⟩
  | string value =>
      exact ⟨rfl, rfl⟩
  | array length each =>
      rw [treeOf_array, treeOf_array]
      exact ⟨rfl, rfl⟩
  | object keys each =>
      rw [treeOf, treeOf]
      exact ⟨rfl, rfl⟩

/-- The values of equal objects are written. -/
theorem isWritten_of_each (respects : Respects format same)
    {firsts seconds : JsObject Number}
    (keys : (keysOf firsts).Perm (keysOf seconds))
    (each : ∀ key first second, (key, first) ∈ ownProperties firsts →
      (key, second) ∈ ownProperties seconds →
        Equal List.Perm same first second) :
    (∀ key value, (key, value) ∈ ownProperties firsts →
      (treeOf format false value).isSome) ∧
    ∀ key value, (key, value) ∈ ownProperties seconds →
      (treeOf format false value).isSome := by
  constructor
  · intro key value isFirst
    obtain ⟨other, isSecond⟩ := exists_of_mem_keysOf
      (keys.mem_iff.mp (mem_keysOf_of_mem isFirst))
    exact ((each key value other isFirst isSecond).isWritten respects).1
  · intro key value isSecond
    obtain ⟨other, isFirst⟩ := exists_of_mem_keysOf
      (keys.mem_iff.mpr (mem_keysOf_of_mem isSecond))
    exact ((each key other value isFirst isSecond).isWritten respects).2

/-- Values that are equal up to the order of keys are written alike exactly
when they also list their keys in the same order. -/
theorem Equal.treeOrNull_eq_iff (respects : Respects format same)
    {left right : JsValue Number} (equal : Equal List.Perm same left right) :
    treeOrNull format left = treeOrNull format right ↔
      Equal Eq same left right := by
  induction equal with
  | null =>
      exact ⟨fun _ => .null, fun _ => rfl⟩
  | boolean value =>
      exact ⟨fun _ => .boolean value, fun _ => rfl⟩
  | number isSame =>
      obtain ⟨token, again, first, second, _⟩ := respects _ _ isSame
      refine ⟨fun _ => .number isSame, fun _ => ?_⟩
      rw [treeOrNull, treeOrNull, treeOf, treeOf, first, second]
  | string value =>
      exact ⟨fun _ => .string value, fun _ => rfl⟩
  | array length each inductionHypothesis =>
      rw [treeOrNull, treeOrNull, treeOf_array, treeOf_array,
        Option.getD_some, Option.getD_some, Tree.array.injEq]
      constructor
      · intro trees
        refine .array length ?_
        intro index first second isFirst isSecond
        rw [← inductionHypothesis index first second isFirst isSecond]
        have place := congrArg (fun items => items[index]?) trees
        simpa only [List.getElem?_map, isFirst, isSecond, Option.map_some,
          Option.some.injEq] using place
      · intro listed
        cases listed with
        | array _ eachListed =>
            refine List.ext_getElem ?_ ?_
            · rw [List.length_map, List.length_map, length]
            · intro index isFirst isSecond
              rw [List.getElem_map, List.getElem_map]
              rw [List.length_map] at isFirst isSecond
              have first := List.getElem?_eq_getElem isFirst
              have second := List.getElem?_eq_getElem isSecond
              rw [inductionHypothesis index _ _ first second]
              exact eachListed index _ _ first second
  | object keys each inductionHypothesis =>
      obtain ⟨firsts, seconds⟩ := isWritten_of_each respects keys each
      rw [treeOrNull, treeOrNull, treeOf_object format firsts,
        treeOf_object format seconds, Option.getD_some, Option.getD_some,
        Tree.object.injEq, map_ownProperties_eq_iff]
      constructor
      · rintro ⟨sameKeys, trees⟩
        refine .object sameKeys ?_
        intro key first second isFirst isSecond
        rw [← inductionHypothesis key first second isFirst isSecond]
        exact trees key first second isFirst isSecond
      · intro listed
        cases listed with
        | object sameKeys eachListed =>
            refine ⟨sameKeys, ?_⟩
            intro key first second isFirst isSecond
            rw [inductionHypothesis key first second isFirst isSecond]
            exact eachListed key first second isFirst isSecond

/-- The text of a value determines its tree. -/
theorem treeOf_eq_of_stringify_eq {left right : JsValue Number}
    (equal : stringify format left = stringify format right) :
    treeOf format false left = treeOf format false right := by
  rw [stringify, stringify] at equal
  cases isLeft : treeOf format false left with
  | none =>
      rw [isLeft, Option.map_none, eq_comm, Option.map_eq_none_iff] at equal
      exact equal.symm
  | some leftTree =>
      rw [isLeft, Option.map_some, eq_comm, Option.map_eq_some_iff] at equal
      obtain ⟨rightTree, isRight, texts⟩ := equal
      have first := canonical_treeOf format false left leftTree isLeft
      have second := canonical_treeOf format false right rightTree isRight
      have values : valueOf format rightTree = valueOf format leftTree := by
        have parsed := parse_print second
        rw [texts, parse_print first] at parsed
        exact (Option.some.inj parsed).symm
      have trees := treeOf_valueOf second
      rw [values, treeOf_valueOf first] at trees
      rw [isRight, Option.some.inj trees]

theorem Equal.stringify_eq_iff (respects : Respects format same)
    {left right : JsValue Number} (equal : Equal List.Perm same left right) :
    stringify format left = stringify format right ↔
      Equal Eq same left right := by
  obtain ⟨isLeft, isRight⟩ := equal.isWritten respects
  rw [← equal.treeOrNull_eq_iff respects]
  constructor
  · intro texts
    rw [treeOrNull, treeOrNull, treeOf_eq_of_stringify_eq texts]
  · intro trees
    rw [stringify, stringify, treeOf_of_isSome format isLeft,
      treeOf_of_isSome format isRight, trees]

private theorem valuesOf_eq_map (items : List Tree) :
    valuesOf format items = items.map (valueOf format) := by
  induction items with
  | nil =>
      rfl
  | cons item items inductionHypothesis =>
      rw [valuesOf, inductionHypothesis]
      rfl

private theorem definitionsOf_eq_map (members : List (JsString × Tree)) :
    definitionsOf format members =
      members.map (Prod.map id (valueOf format)) := by
  induction members with
  | nil =>
      rfl
  | cons member members inductionHypothesis =>
      rw [definitionsOf, inductionHypothesis]
      rfl

/-- Enumerated properties with replaced values are enumerated in the same
order. -/
private theorem ownProperties_map_ownProperties {Value Target : Type}
    (change : Value → Target) (definitions : List (JsString × Value)) :
    ownProperties ((ownProperties definitions).map (Prod.map id change)) =
      (ownProperties definitions).map (Prod.map id change) := by
  rw [ownProperties_map,
    ownProperties_of_inOrder (inOrder_ownProperties definitions)]

/-- What the text of a value stands for is equal to the value, and lists the
keys in the same order. -/
theorem Equal.readBack (respects : Respects format same)
    {left right : JsValue Number} (equal : Equal List.Perm same left right) :
    Equal Eq same (valueOf format (treeOrNull format left)) left := by
  induction equal with
  | null =>
      exact .null
  | boolean value =>
      exact .boolean value
  | number isSame =>
      obtain ⟨token, again, isText, _, isValue, sameAgain⟩ :=
        respects _ _ isSame
      rw [treeOrNull, treeOf, isText, Option.getD_some, valueOf, isValue]
      exact .number sameAgain
  | string value =>
      exact .string value
  | @array firsts seconds length each inductionHypothesis =>
      rw [treeOrNull, treeOf_array, Option.getD_some, valueOf,
        valuesOf_eq_map, List.map_map]
      refine .array (List.length_map _) ?_
      intro index again first isAgain isFirst
      obtain ⟨bound, _⟩ := List.getElem?_eq_some_iff.mp isFirst
      rw [List.getElem?_map, isFirst, Option.map_some,
        Option.some.injEq] at isAgain
      rw [← isAgain]
      exact inductionHypothesis index first _ isFirst
        (List.getElem?_eq_getElem (length ▸ bound))
  | @object firsts seconds keys each inductionHypothesis =>
      obtain ⟨written, _⟩ := isWritten_of_each respects keys each
      rw [treeOrNull, treeOf_object format written, Option.getD_some,
        valueOf, definitionsOf_eq_map, List.map_map, Prod.map_comp_map,
        Function.id_comp]
      refine .object ?_ ?_
      · rw [keysOf, ownProperties_map_ownProperties, List.map_map]
        rfl
      · intro key again first isAgain isFirst
        rw [ownProperties_map_ownProperties] at isAgain
        obtain ⟨⟨other, value⟩, isValue, pair⟩ := List.mem_map.mp isAgain
        obtain ⟨rfl, rfl⟩ := Prod.mk.inj pair
        rw [eq_of_mem_ownProperties isValue isFirst]
        obtain ⟨second, isSecond⟩ := exists_of_mem_keysOf
          (keys.mem_iff.mp (mem_keysOf_of_mem isFirst))
        exact inductionHypothesis _ first second isFirst isSecond

end Written

end Json
