import ArosParadigm.Library.Json.Parse

/-!
# Written values are read back

A tree that `treeOf` yields is `Canonical`: its numbers are written by the
format and the members of its objects are in enumeration order. Its text is
read as a value with the same tree, so that a value that was written and read
is written in the same way again.
-/

namespace Json

variable {Number : Type}

/-- The trees of values. -/
inductive Canonical (format : NumberFormat Number) : Tree → Prop where
  | null : Canonical format .null
  | boolean (value : Bool) : Canonical format (.boolean value)
  | number {number : Number} {token : JsString}
      (written : format.text number = some token) :
      Canonical format (.number token)
  | string (value : JsString) : Canonical format (.string value)
  | array {items : List Tree}
      (each : ∀ item ∈ items, Canonical format item) :
      Canonical format (.array items)
  | object {members : List (JsString × Tree)} (inOrder : InOrder members)
      (each : ∀ member ∈ members, Canonical format member.2) :
      Canonical format (.object members)

private theorem canonical_object {format : NumberFormat Number}
    {properties : List (JsString × Option Tree)}
    (each : ∀ property ∈ properties, ∀ tree, property.2 = some tree →
      Canonical format tree) :
    Canonical format
      (.object ((ownProperties properties).filterMap present)) := by
  refine Canonical.object ?_ ?_
  · refine (inOrder_ownProperties properties).filterMap ?_
    intro property member isPresent
    obtain ⟨tree, _, rfl⟩ := Option.map_eq_some_iff.mp isPresent
    rfl
  · intro member inside
    obtain ⟨property, listed, isPresent⟩ := List.mem_filterMap.mp inside
    obtain ⟨tree, written, rfl⟩ := Option.map_eq_some_iff.mp isPresent
    exact each property (mem_of_mem_ownProperties listed) tree written

mutual

theorem canonical_treeOf (format : NumberFormat Number) (called : Bool)
    (value : JsValue Number) (tree : Tree)
    (written : treeOf format called value = some tree) :
    Canonical format tree := by
  match value with
  | .undefined =>
      cases written
  | .null =>
      cases written
      exact Canonical.null
  | .boolean flag =>
      cases written
      exact Canonical.boolean flag
  | .number number =>
      rw [treeOf] at written
      cases isText : format.text number with
      | none =>
          rw [isText] at written
          cases written
          exact Canonical.null
      | some token =>
          rw [isText] at written
          cases written
          exact Canonical.number isText
  | .string text =>
      cases written
      exact Canonical.string text
  | .array items =>
      rw [treeOf] at written
      cases written
      exact Canonical.array (canonical_itemsOf format items)
  | .object definitions =>
      rw [treeOf] at written
      cases written
      exact canonical_object (canonical_membersOf format definitions)
  | .custom definitions json =>
      rw [treeOf] at written
      split at written
      · cases written
        exact canonical_object (canonical_membersOf format definitions)
      · exact canonical_treeOf format true json tree written

theorem canonical_itemsOf (format : NumberFormat Number)
    (items : List (JsValue Number)) :
    ∀ item ∈ itemsOf format items, Canonical format item := by
  match items with
  | [] =>
      intro item member
      cases member
  | value :: rest =>
      intro item member
      rw [itemsOf] at member
      rcases List.mem_cons.mp member with rfl | inside
      · cases written : treeOf format false value with
        | none =>
            exact Canonical.null
        | some tree =>
            exact canonical_treeOf format false value tree written
      · exact canonical_itemsOf format rest item inside

theorem canonical_membersOf (format : NumberFormat Number)
    (definitions : List (JsString × JsValue Number)) :
    ∀ property ∈ membersOf format definitions, ∀ tree,
      property.2 = some tree → Canonical format tree := by
  match definitions with
  | [] =>
      intro property member
      cases member
  | (key, value) :: rest =>
      intro property member tree written
      rw [membersOf] at member
      rcases List.mem_cons.mp member with rfl | inside
      · exact canonical_treeOf format false value tree written
      · exact canonical_membersOf format rest property inside tree written

end

mutual

/-- The value that the text of a tree stands for. -/
def valueOf (format : NumberFormat Number) : Tree → JsValue Number
  | .null => .null
  | .boolean value => .boolean value
  | .number token =>
      match format.value token with
      | some value => .number value
      | none => .null
  | .string value => .string value
  | .array items => .array (valuesOf format items)
  | .object members => .object (definitionsOf format members)

/-- The values of the items of an array. -/
def valuesOf (format : NumberFormat Number) :
    List Tree → List (JsValue Number)
  | [] => []
  | item :: items => valueOf format item :: valuesOf format items

/-- The values of the members of an object. -/
def definitionsOf (format : NumberFormat Number) :
    List (JsString × Tree) → JsObject Number
  | [] => []
  | (key, value) :: members =>
      (key, valueOf format value) :: definitionsOf format members

end

private theorem itemsOf_valuesOf {format : NumberFormat Number}
    {items : List Tree}
    (each : ∀ item ∈ items,
      treeOf format false (valueOf format item) = some item) :
    itemsOf format (valuesOf format items) = items := by
  induction items with
  | nil =>
      rfl
  | cons item rest inductionHypothesis =>
      have restEach := inductionHypothesis fun other member =>
        each other (List.mem_cons_of_mem item member)
      rw [valuesOf, itemsOf, each item List.mem_cons_self, restEach]
      rfl

private theorem membersOf_definitionsOf {format : NumberFormat Number}
    {members : List (JsString × Tree)}
    (each : ∀ member ∈ members,
      treeOf format false (valueOf format member.2) = some member.2) :
    membersOf format (definitionsOf format members) =
      members.map fun member => (member.1, some member.2) := by
  induction members with
  | nil =>
      rfl
  | cons member rest inductionHypothesis =>
      obtain ⟨key, value⟩ := member
      have restEach := inductionHypothesis fun other inside =>
        each other (List.mem_cons_of_mem _ inside)
      rw [definitionsOf, membersOf, each _ List.mem_cons_self, restEach]
      rfl

private theorem InOrder.map_some {members : List (JsString × Tree)}
    (inOrder : InOrder members) :
    InOrder (members.map fun member => (member.1, some member.2)) := by
  have asFilterMap :
      (members.map fun member => (member.1, some member.2)) =
        members.filterMap fun member => some (member.1, some member.2) :=
    (congrFun List.filterMap_eq_map' members).symm
  rw [asFilterMap]
  refine inOrder.filterMap ?_
  intro member target equal
  cases equal
  rfl

private theorem filterMap_present (members : List (JsString × Tree)) :
    (members.map fun member => (member.1, some member.2)).filterMap
      present = members := by
  induction members with
  | nil =>
      rfl
  | cons member rest inductionHypothesis =>
      rw [List.map_cons, List.filterMap_cons, inductionHypothesis]
      rfl

/-- The value of a canonical tree is written as this tree. -/
theorem treeOf_valueOf {format : NumberFormat Number} {tree : Tree}
    (canonical : Canonical format tree) :
    treeOf format false (valueOf format tree) = some tree := by
  induction canonical with
  | null =>
      rfl
  | boolean value =>
      rfl
  | @number number token written =>
      obtain ⟨again, isValue, sameText⟩ := format.reads number token written
      simp only [valueOf, isValue, treeOf, sameText]
  | string value =>
      rfl
  | array each inductionHypothesis =>
      rw [valueOf, treeOf, itemsOf_valuesOf inductionHypothesis]
  | object inOrder each inductionHypothesis =>
      rw [valueOf, treeOf, membersOf_definitionsOf inductionHypothesis,
        ownProperties_of_inOrder inOrder.map_some, filterMap_present]

/-! ## The text of a tree is read back -/

/-- A rest of a text that does not continue a number. -/
def Ends (rest : JsString) : Prop :=
  ∀ unit ∈ rest.head?, isNumberUnit unit = false

theorem ends_nil : Ends [] := by
  intro unit member
  cases member

theorem ends_cons {unit : CodeUnit} (rest : JsString)
    (noNumber : isNumberUnit unit = false) : Ends (unit :: rest) := by
  intro head member
  cases member
  exact noNumber

private theorem skipSpaces_cons {unit : CodeUnit} (rest : JsString)
    (noSpace : isSpace unit = false) :
    skipSpaces (unit :: rest) = unit :: rest :=
  List.dropWhile_cons_of_neg (by simp [noSpace])

private theorem plain_of_startsNumber {unit : CodeUnit}
    (starts : startsNumber unit = true) :
    isSpace unit = false ∧ unit ≠ 93 ∧ unit ≠ 123 ∧ unit ≠ 91 ∧
      unit ≠ 34 ∧ unit ≠ 116 ∧ unit ≠ 102 ∧ unit ≠ 110 := by
  refine ⟨?_, ?_, ?_, ?_, ?_, ?_, ?_, ?_⟩
  · by_contra isSpace
    have space := Bool.of_not_eq_false isSpace
    simp only [Json.isSpace, Bool.or_eq_true, beq_iff_eq] at space
    rcases space with ((rfl | rfl) | rfl) | rfl <;>
      exact absurd starts (by decide)
  all_goals
    rintro rfl
    exact absurd starts (by decide)

/-- No text of a canonical tree begins with white space or with a closing
bracket. -/
private theorem print_begins {format : NumberFormat Number} {tree : Tree}
    (canonical : Canonical format tree) :
    ∃ first rest, print tree = first :: rest ∧ isSpace first = false ∧
      first ≠ 93 := by
  cases canonical with
  | null =>
      exact ⟨_, _, rfl, rfl, by decide⟩
  | boolean value =>
      cases value <;> exact ⟨_, _, rfl, rfl, by decide⟩
  | number written =>
      obtain ⟨first, rest, rfl, starts⟩ := format.begins _ _ written
      have plain := plain_of_startsNumber starts
      exact ⟨first, rest, rfl, plain.1, plain.2.1⟩
  | string value =>
      exact ⟨_, _, rfl, rfl, by decide⟩
  | @array items each =>
      cases items <;> exact ⟨_, _, rfl, rfl, by decide⟩
  | @object members inOrder each =>
      cases members <;> exact ⟨_, _, rfl, rfl, by decide⟩

/-- The text of a tree is read as the value of the tree. -/
def ReadBack (format : NumberFormat Number) (tree : Tree) : Prop :=
  ∀ fuel rest, (print tree).length ≤ fuel → Ends rest →
    parseValue format fuel (print tree ++ rest) =
      some (valueOf format tree, rest)

private theorem elements_of_open {Element : Type} {close first : CodeUnit}
    (rest : JsString) (found : Option (List Element × JsString))
    (noSpace : isSpace first = false) (different : first ≠ close) :
    elements close (first :: rest) found = found := by
  rw [elements, skipSpaces_cons rest noSpace, expect, if_neg different]

private theorem ends_printItems (items : List Tree) (rest : JsString) :
    Ends (printItems items ++ rest) := by
  cases items <;> exact ends_cons _ (by decide)

private theorem ends_printMembers (members : List (JsString × Tree))
    (rest : JsString) : Ends (printMembers members ++ rest) := by
  cases members <;> exact ends_cons _ (by decide)

private theorem parseItems_printItems {format : NumberFormat Number}
    {items : List Tree} (each : ∀ item ∈ items, ReadBack format item) :
    ∀ (first : Tree) (fuel : ℕ) (rest : JsString), ReadBack format first →
      (print first ++ printItems items).length ≤ fuel →
        parseItems format fuel (print first ++ printItems items ++ rest) =
          some (valuesOf format (first :: items), rest) := by
  induction items with
  | nil =>
      intro first fuel rest firstRead enough
      obtain ⟨fuel, rfl⟩ : ∃ fewer, fuel = fewer + 1 :=
        ⟨fuel - 1, by simp [printItems] at enough; omega⟩
      have firstEnough : (print first).length ≤ fuel := by
        simpa [printItems] using enough
      rw [List.append_assoc, parseItems,
        firstRead fuel _ firstEnough (ends_printItems _ _)]
      rfl
  | cons next items inductionHypothesis =>
      intro first fuel rest firstRead enough
      obtain ⟨fuel, rfl⟩ : ∃ fewer, fuel = fewer + 1 :=
        ⟨fuel - 1, by simp [printItems] at enough; omega⟩
      simp only [printItems, List.length_append, List.length_cons]
        at enough
      have onward := inductionHypothesis
        (fun item member => each item (List.mem_cons_of_mem next member))
        next fuel rest (each next List.mem_cons_self)
        (by rw [List.length_append]; omega)
      rw [List.append_assoc, parseItems,
        firstRead fuel _ (by omega) (ends_printItems _ _)]
      simp only [printItems, List.cons_append]
      rw [skipSpaces_cons _ (by decide)]
      simp only [if_true]
      rw [onward]
      rfl

private theorem expect_cons (unit : CodeUnit) (rest : JsString)
    (noSpace : isSpace unit = false) :
    expect [unit] (skipSpaces (unit :: rest)) = some rest := by
  rw [skipSpaces_cons rest noSpace, expect, if_pos rfl, expect]

private theorem unquote_quote (value rest : JsString) :
    (expect [34] (skipSpaces (quote value ++ rest))).bind unquote =
      some (value, rest) := by
  have shape : quote value ++ rest =
      34 :: (quoteUnits value ++ 34 :: rest) := by
    simp [quote]
  rw [shape, expect_cons _ _ (by decide), Option.bind_some,
    unquote_quoteUnits]

private theorem parseMembers_printMembers {format : NumberFormat Number}
    {members : List (JsString × Tree)}
    (each : ∀ member ∈ members, ReadBack format member.2) :
    ∀ (key : JsString) (first : Tree) (fuel : ℕ) (rest : JsString),
      ReadBack format first →
      (print first ++ printMembers members).length ≤ fuel →
        parseMembers format fuel
            (quote key ++ 58 :: (print first ++ printMembers members ++
              rest)) =
          some (definitionsOf format ((key, first) :: members), rest) := by
  induction members with
  | nil =>
      intro key first fuel rest firstRead enough
      obtain ⟨fuel, rfl⟩ : ∃ fewer, fuel = fewer + 1 :=
        ⟨fuel - 1, by simp [printMembers] at enough; omega⟩
      have firstEnough : (print first).length ≤ fuel := by
        simpa [printMembers] using enough
      rw [parseMembers, unquote_quote]
      simp only
      rw [expect_cons _ _ (by decide), Option.bind_some,
        List.append_assoc,
        firstRead fuel _ firstEnough (ends_printMembers _ _)]
      rfl
  | cons member members inductionHypothesis =>
      obtain ⟨nextKey, next⟩ := member
      intro key first fuel rest firstRead enough
      obtain ⟨fuel, rfl⟩ : ∃ fewer, fuel = fewer + 1 :=
        ⟨fuel - 1, by simp [printMembers] at enough; omega⟩
      simp only [printMembers, List.length_append, List.length_cons]
        at enough
      have onward := inductionHypothesis
        (fun item inside => each item (List.mem_cons_of_mem _ inside))
        nextKey next fuel rest (each _ List.mem_cons_self)
        (by rw [List.length_append]; omega)
      rw [parseMembers, unquote_quote]
      simp only
      rw [expect_cons _ _ (by decide), Option.bind_some,
        List.append_assoc,
        firstRead fuel _ (by omega) (ends_printMembers _ _)]
      simp only [printMembers, List.cons_append, List.append_assoc]
      rw [skipSpaces_cons _ (by decide)]
      simp only [if_true]
      simp only [List.append_assoc] at onward
      rw [onward]
      rfl

private theorem parseValue_object {format : NumberFormat Number}
    {members : List (JsString × Tree)}
    (each : ∀ member ∈ members, ReadBack format member.2)
    (fuel : ℕ) (rest : JsString)
    (enough : (print (.object members)).length ≤ fuel) :
    parseValue format fuel (print (.object members) ++ rest) =
      some (valueOf format (.object members), rest) := by
  cases members with
  | nil =>
      obtain ⟨fuel, rfl⟩ : ∃ fewer, fuel = fewer + 1 :=
        ⟨fuel - 1, by simp [print] at enough; omega⟩
      rfl
  | cons member members =>
      obtain ⟨key, first⟩ := member
      simp only [print, List.length_append, List.length_cons] at enough
      obtain ⟨fuel, rfl⟩ : ∃ fewer, fuel = fewer + 1 :=
        ⟨fuel - 1, by omega⟩
      have inside := parseMembers_printMembers
        (fun other listed => each other (List.mem_cons_of_mem _ listed))
        key first fuel rest (each _ List.mem_cons_self)
        (by rw [List.length_append]; omega)
      have shape : print (.object ((key, first) :: members)) ++ rest =
          123 :: (quote key ++
            58 :: (print first ++ printMembers members ++ rest)) := by
        simp [print]
      have isOpen := elements_of_open
        ((quoteUnits key ++ [34]) ++
          58 :: (print first ++ printMembers members ++ rest))
        (some (definitionsOf format ((key, first) :: members), rest))
        (show isSpace 34 = false by decide)
        (show (34 : CodeUnit) ≠ 125 by decide)
      rw [shape, parseValue, skipSpaces_cons _ (by decide)]
      simp only [if_true]
      rw [inside]
      exact congrArg (Option.map _) isOpen

private theorem parseValue_array {format : NumberFormat Number}
    {items : List Tree} (canonical : ∀ item ∈ items, Canonical format item)
    (each : ∀ item ∈ items, ReadBack format item) :
    ReadBack format (.array items) := by
  intro fuel rest enough _
  cases items with
  | nil =>
      obtain ⟨fuel, rfl⟩ : ∃ fewer, fuel = fewer + 1 :=
        ⟨fuel - 1, by simp [print] at enough; omega⟩
      rfl
  | cons first items =>
      simp only [print, List.length_append, List.length_cons] at enough
      obtain ⟨fuel, rfl⟩ : ∃ fewer, fuel = fewer + 1 :=
        ⟨fuel - 1, by omega⟩
      have inside := parseItems_printItems
        (fun other listed => each other (List.mem_cons_of_mem _ listed))
        first fuel rest (each _ List.mem_cons_self)
        (by rw [List.length_append]; omega)
      obtain ⟨unit, after, begins, noSpace, different⟩ :=
        print_begins (canonical first List.mem_cons_self)
      have isOpen := elements_of_open
        (after ++ printItems items ++ rest)
        (some (valuesOf format (first :: items), rest)) noSpace different
      rw [print, List.cons_append, parseValue,
        skipSpaces_cons _ (by decide)]
      simp only [if_true, if_neg (show (91 : CodeUnit) ≠ 123 by decide)]
      rw [inside, begins]
      exact congrArg (Option.map _) isOpen

private theorem parseValue_string {format : NumberFormat Number}
    (value : JsString) : ReadBack format (.string value) := by
  intro fuel rest enough _
  simp only [print, quote, List.length_cons] at enough
  obtain ⟨fuel, rfl⟩ : ∃ fewer, fuel = fewer + 1 :=
    ⟨fuel - 1, by omega⟩
  have shape : print (.string value) ++ rest =
      34 :: (quoteUnits value ++ 34 :: rest) := by
    simp [print, quote]
  rw [shape, parseValue, skipSpaces_cons _ (by decide)]
  simp only [if_true, if_neg (show (34 : CodeUnit) ≠ 123 by decide),
    if_neg (show (34 : CodeUnit) ≠ 91 by decide), unquote_quoteUnits]
  rfl

private theorem takeWhile_number {token rest : JsString}
    (units : ∀ unit ∈ token, isNumberUnit unit = true)
    (ends : Ends rest) :
    (token ++ rest).takeWhile isNumberUnit = token ∧
      (token ++ rest).dropWhile isNumberUnit = rest := by
  have stops : rest.takeWhile isNumberUnit = [] ∧
      rest.dropWhile isNumberUnit = rest := by
    cases rest with
    | nil =>
        exact ⟨rfl, rfl⟩
    | cons unit rest =>
        have noNumber := ends unit rfl
        simp [noNumber]
  constructor
  · rw [List.takeWhile_append_of_pos units, stops.1, List.append_nil]
  · rw [List.dropWhile_append_of_pos units, stops.2]

private theorem parseValue_number {format : NumberFormat Number}
    {number : Number} {token : JsString}
    (written : format.text number = some token) :
    ReadBack format (.number token) := by
  intro fuel rest enough ends
  obtain ⟨again, isValue, _⟩ := format.reads number token written
  obtain ⟨taken, dropped⟩ :=
    takeWhile_number (format.units number token written) ends
  obtain ⟨first, more, rfl, starts⟩ := format.begins number token written
  obtain ⟨noSpace, _, noBrace, noBracket, noMark, noTrue, noFalse,
    noNull⟩ := plain_of_startsNumber starts
  simp only [print, List.length_cons] at enough
  obtain ⟨fuel, rfl⟩ : ∃ fewer, fuel = fewer + 1 :=
    ⟨fuel - 1, by omega⟩
  rw [print, valueOf, List.cons_append, parseValue,
    skipSpaces_cons _ noSpace]
  simp only [if_neg noBrace, if_neg noBracket, if_neg noMark,
    if_neg noTrue, if_neg noFalse, if_neg noNull, if_pos starts]
  rw [← List.cons_append, taken, dropped, isValue]
  rfl

theorem readBack_of_canonical {format : NumberFormat Number} {tree : Tree}
    (canonical : Canonical format tree) : ReadBack format tree := by
  induction canonical with
  | null =>
      intro fuel rest enough _
      obtain ⟨fuel, rfl⟩ : ∃ fewer, fuel = fewer + 1 :=
        ⟨fuel - 1, by simp [print] at enough; omega⟩
      rfl
  | boolean value =>
      intro fuel rest enough _
      obtain ⟨fuel, rfl⟩ : ∃ fewer, fuel = fewer + 1 :=
        ⟨fuel - 1, by cases value <;> simp [print] at enough <;> omega⟩
      cases value <;> rfl
  | number written =>
      exact parseValue_number written
  | string value =>
      exact parseValue_string value
  | array canonical inductionHypothesis =>
      exact parseValue_array canonical inductionHypothesis
  | object inOrder canonical inductionHypothesis =>
      intro fuel rest enough _
      exact parseValue_object inductionHypothesis fuel rest enough

/-- `JSON.parse` of the text of a canonical tree. -/
theorem parse_print {format : NumberFormat Number} {tree : Tree}
    (canonical : Canonical format tree) :
    parse format (print tree) = some (valueOf format tree) := by
  have read := readBack_of_canonical canonical (print tree).length []
    le_rfl ends_nil
  rw [List.append_nil] at read
  rw [parse, read]
  rfl

/-- What `JSON.stringify` writes is read by `JSON.parse` as a value that is
written in the same way. -/
theorem stringify_parse {format : NumberFormat Number}
    {value : JsValue Number} {text : JsString}
    (written : stringify format value = some text) :
    ∃ again, parse format text = some again ∧
      stringify format again = some text := by
  obtain ⟨tree, isTree, rfl⟩ := Option.map_eq_some_iff.mp written
  have canonical := canonical_treeOf format false value tree isTree
  refine ⟨valueOf format tree, parse_print canonical, ?_⟩
  rw [stringify, treeOf_valueOf canonical]
  rfl

/-- A value that is written as an object. -/
def IsObject (format : NumberFormat Number) (value : JsValue Number) :
    Prop :=
  ∃ members, treeOf format false value = some (.object members)

/-- The text of an object is no proper prefix of the text of another one. -/
theorem text_eq_of_append_eq {format : NumberFormat Number}
    {left right : JsValue Number}
    (leftObject : IsObject format left)
    (rightObject : IsObject format right)
    {leftText rightText leftRest rightRest : JsString}
    (leftWritten : stringify format left = some leftText)
    (rightWritten : stringify format right = some rightText)
    (equal : leftText ++ leftRest = rightText ++ rightRest) :
    leftText = rightText ∧ leftRest = rightRest := by
  obtain ⟨leftMembers, leftTree⟩ := leftObject
  obtain ⟨rightMembers, rightTree⟩ := rightObject
  rw [stringify, leftTree] at leftWritten
  rw [stringify, rightTree] at rightWritten
  cases leftWritten
  cases rightWritten
  have readLeft : ∀ member ∈ leftMembers, ReadBack format member.2 := by
    cases canonical_treeOf format false left _ leftTree with
    | object _ each =>
        exact fun member inside =>
          readBack_of_canonical (each member inside)
  have readRight : ∀ member ∈ rightMembers, ReadBack format member.2 := by
    cases canonical_treeOf format false right _ rightTree with
    | object _ each =>
        exact fun member inside =>
          readBack_of_canonical (each member inside)
  -- Enough fuel for both texts.
  have first := parseValue_object readLeft
    ((print (.object leftMembers)).length +
      (print (.object rightMembers)).length) leftRest (Nat.le_add_right _ _)
  have second := parseValue_object readRight
    ((print (.object leftMembers)).length +
      (print (.object rightMembers)).length) rightRest (Nat.le_add_left _ _)
  rw [equal, second] at first
  have rests : rightRest = leftRest :=
    congrArg Prod.snd (Option.some.inj first)
  refine ⟨?_, rests.symm⟩
  rw [rests] at equal
  exact List.append_cancel_right equal

end Json
