import ArosParadigm.Library.Json.Value

/-!
# Property order

`ownProperties` yields distinct keys with the array indices in front, in
ascending order. A list that already has this form is not changed, and the form
survives when properties are left out or their values are replaced.
-/

namespace Json

variable {Value Target : Type}

/-- The first property may stand before the second one. -/
def StandsBefore (first second : JsString × Value) : Prop :=
  ∀ later, arrayIndex? second.1 = some later →
    ∃ earlier, arrayIndex? first.1 = some earlier ∧ earlier ≤ later

/-- Distinct keys, the array indices in front and in ascending order. -/
structure InOrder (properties : List (JsString × Value)) : Prop where
  distinct : (properties.map Prod.fst).Nodup
  pairwise : properties.Pairwise StandsBefore

theorem InOrder.filterMap {properties : List (JsString × Value)}
    (inOrder : InOrder properties)
    {change : JsString × Value → Option (JsString × Target)}
    (sameKey : ∀ property target, change property = some target →
      target.1 = property.1) :
    InOrder (properties.filterMap change) := by
  constructor
  · have keys : (properties.map Prod.fst).Pairwise (· ≠ ·) :=
      inOrder.distinct
    rw [List.Nodup, List.pairwise_map, List.pairwise_filterMap]
    rw [List.pairwise_map] at keys
    refine keys.imp ?_
    intro first second different target isTarget other isOther
    rw [sameKey first target isTarget, sameKey second other isOther]
    exact different
  · rw [List.pairwise_filterMap]
    refine inOrder.pairwise.imp ?_
    intro first second before target isTarget other isOther
    unfold StandsBefore
    rw [sameKey first target isTarget, sameKey second other isOther]
    exact before

theorem mem_defineProperty {key : JsString} {value : Value}
    {properties : List (JsString × Value)} {property : JsString × Value}
    (member : property ∈ defineProperty key value properties) :
    property = (key, value) ∨ property ∈ properties := by
  induction properties with
  | nil =>
      exact Or.inl (List.mem_singleton.mp member)
  | cons head rest inductionHypothesis =>
      obtain ⟨headKey, old⟩ := head
      rw [defineProperty] at member
      split at member
      · rcases List.mem_cons.mp member with equal | inside
        · exact Or.inl equal
        · exact Or.inr (List.mem_cons_of_mem _ inside)
      · rcases List.mem_cons.mp member with equal | inside
        · exact Or.inr (equal ▸ List.mem_cons_self)
        · rcases inductionHypothesis inside with equal | old
          · exact Or.inl equal
          · exact Or.inr (List.mem_cons_of_mem _ old)

private theorem mem_keys_defineProperty (key : JsString) (value : Value)
    (properties : List (JsString × Value)) (tested : JsString) :
    tested ∈ (defineProperty key value properties).map Prod.fst ↔
      tested = key ∨ tested ∈ properties.map Prod.fst := by
  induction properties with
  | nil =>
      simp [defineProperty]
  | cons head rest inductionHypothesis =>
      obtain ⟨headKey, old⟩ := head
      rw [defineProperty]
      split
      · next same =>
          subst same
          simp
      · simp only [List.map_cons, List.mem_cons, inductionHypothesis]
        tauto

private theorem nodup_defineProperty (key : JsString) (value : Value)
    {properties : List (JsString × Value)}
    (distinct : (properties.map Prod.fst).Nodup) :
    ((defineProperty key value properties).map Prod.fst).Nodup := by
  induction properties with
  | nil =>
      simp [defineProperty]
  | cons head rest inductionHypothesis =>
      obtain ⟨headKey, old⟩ := head
      obtain ⟨fresh, restDistinct⟩ := List.nodup_cons.mp distinct
      rw [defineProperty]
      split
      · next same =>
          subst same
          exact List.nodup_cons.mpr ⟨fresh, restDistinct⟩
      · next different =>
          refine List.nodup_cons.mpr
            ⟨?_, inductionHypothesis restDistinct⟩
          rw [mem_keys_defineProperty]
          rintro (same | inside)
          · exact different same
          · exact fresh inside

private theorem defineProperty_of_fresh {key : JsString} (value : Value)
    {properties : List (JsString × Value)}
    (fresh : key ∉ properties.map Prod.fst) :
    defineProperty key value properties = properties ++ [(key, value)] := by
  induction properties with
  | nil =>
      rfl
  | cons head rest inductionHypothesis =>
      obtain ⟨headKey, old⟩ := head
      simp only [List.map_cons, List.mem_cons, not_or] at fresh
      rw [defineProperty, if_neg (Ne.symm fresh.1),
        inductionHypothesis fresh.2]
      rfl

/-- The loop of `created` from given properties on. -/
private theorem created_loop (definitions : List (JsString × Value)) :
    ∀ properties : List (JsString × Value),
      (properties.map Prod.fst).Nodup →
        ((definitions.foldl (fun properties definition =>
          defineProperty definition.1 definition.2 properties)
          properties).map Prod.fst).Nodup ∧
        ∀ property ∈ definitions.foldl (fun properties definition =>
          defineProperty definition.1 definition.2 properties) properties,
          property ∈ properties ∨ property ∈ definitions := by
  induction definitions with
  | nil =>
      exact fun _ distinct => ⟨distinct, fun _ member => Or.inl member⟩
  | cons definition rest inductionHypothesis =>
      intro properties distinct
      obtain ⟨onward, sources⟩ := inductionHypothesis
        (defineProperty definition.1 definition.2 properties)
        (nodup_defineProperty _ _ distinct)
      refine ⟨onward, ?_⟩
      intro property member
      rcases sources property member with inside | inside
      · rcases mem_defineProperty inside with equal | old
        · exact Or.inr (equal ▸ List.mem_cons_self)
        · exact Or.inl old
      · exact Or.inr (List.mem_cons_of_mem _ inside)

theorem nodup_created (definitions : List (JsString × Value)) :
    ((created definitions).map Prod.fst).Nodup :=
  (created_loop definitions [] List.nodup_nil).1

theorem mem_of_mem_created {definitions : List (JsString × Value)}
    {property : JsString × Value}
    (member : property ∈ created definitions) :
    property ∈ definitions := by
  rcases (created_loop definitions [] List.nodup_nil).2 property member
    with nothing | inside
  · cases nothing
  · exact inside

private theorem foldl_of_distinct {definitions : List (JsString × Value)} :
    ∀ properties : List (JsString × Value),
      ((properties ++ definitions).map Prod.fst).Nodup →
        definitions.foldl (fun properties definition =>
          defineProperty definition.1 definition.2 properties) properties =
          properties ++ definitions := by
  induction definitions with
  | nil =>
      simp
  | cons definition rest inductionHypothesis =>
      intro properties distinct
      have fresh : definition.1 ∉ properties.map Prod.fst := by
        rw [List.map_append, List.nodup_append] at distinct
        intro inside
        exact distinct.2.2 _ inside _ (by simp) rfl
      rw [List.foldl_cons, defineProperty_of_fresh _ fresh,
        inductionHypothesis]
      · simp
      · simpa using distinct

theorem created_of_distinct {definitions : List (JsString × Value)}
    (distinct : (definitions.map Prod.fst).Nodup) :
    created definitions = definitions := by
  simpa [created] using foldl_of_distinct [] (by simpa using distinct)

/-! ## Enumeration -/

theorem perm_enumerated (properties : List (JsString × Value)) :
    (enumerated properties).Perm properties := by
  have sorted := List.perm_insertionSort
    (fun first second : JsString × Value =>
      (arrayIndex? first.1).getD 0 ≤ (arrayIndex? second.1).getD 0)
    (properties.filter fun property => (arrayIndex? property.1).isSome)
  have split := List.filter_append_perm
    (fun property => (arrayIndex? property.1).isSome) properties
  have rest : (properties.filter fun property =>
      (arrayIndex? property.1).isNone) =
      properties.filter fun property =>
        !(arrayIndex? property.1).isSome := by
    refine List.filter_congr ?_
    intro property _
    cases arrayIndex? property.1 <;> rfl
  unfold enumerated
  rw [rest]
  exact (sorted.append_right _).trans split

private theorem pairwise_enumerated
    (properties : List (JsString × Value)) :
    (enumerated properties).Pairwise StandsBefore := by
  unfold enumerated
  rw [List.pairwise_append]
  refine ⟨?_, ?_, ?_⟩
  · have sorted := List.pairwise_insertionSort
      (fun first second : JsString × Value =>
        (arrayIndex? first.1).getD 0 ≤ (arrayIndex? second.1).getD 0)
      (properties.filter fun property =>
        (arrayIndex? property.1).isSome)
    refine List.Pairwise.imp_of_mem ?_ sorted
    intro first second firstMember _ before later isLater
    have isIndex := (List.mem_filter.mp
      ((List.mem_insertionSort _).mp firstMember)).2
    obtain ⟨earlier, isEarlier⟩ := Option.isSome_iff_exists.mp isIndex
    refine ⟨earlier, isEarlier, ?_⟩
    simpa [isEarlier, isLater] using before
  · refine List.pairwise_of_forall_mem_list ?_
    intro first _ second secondMember later isLater
    have noIndex := (List.mem_filter.mp secondMember).2
    simp [isLater] at noIndex
  · intro first _ second secondMember later isLater
    have noIndex := (List.mem_filter.mp secondMember).2
    simp [isLater] at noIndex

private theorem enumerated_of_pairwise
    {properties : List (JsString × Value)}
    (pairwise : properties.Pairwise StandsBefore) :
    enumerated properties = properties := by
  have indices : (properties.filter fun property =>
      (arrayIndex? property.1).isSome).Pairwise
        fun first second : JsString × Value =>
          (arrayIndex? first.1).getD 0 ≤ (arrayIndex? second.1).getD 0 := by
    refine List.Pairwise.imp_of_mem ?_
      (pairwise.sublist List.filter_sublist)
    intro first second _ secondMember before
    obtain ⟨later, isLater⟩ := Option.isSome_iff_exists.mp
      (List.mem_filter.mp secondMember).2
    obtain ⟨earlier, isEarlier, le⟩ := before later isLater
    simpa [isEarlier, isLater] using le
  unfold enumerated
  rw [List.Pairwise.insertionSort_eq indices]
  clear indices
  induction properties with
  | nil =>
      rfl
  | cons head rest inductionHypothesis =>
      obtain ⟨headBefore, restPairwise⟩ := List.pairwise_cons.mp pairwise
      have onward := inductionHypothesis restPairwise
      cases isIndex : arrayIndex? head.1 with
      | some index =>
          simp [isIndex, onward]
      | none =>
          -- No array index can follow.
          have noIndices : rest.filter (fun property =>
              (arrayIndex? property.1).isSome) = [] := by
            rw [List.filter_eq_nil_iff]
            intro property member isSome
            obtain ⟨later, isLater⟩ :=
              Option.isSome_iff_exists.mp isSome
            obtain ⟨earlier, isEarlier, _⟩ :=
              headBefore property member later isLater
            cases isIndex.symm.trans isEarlier
          rw [noIndices, List.nil_append] at onward
          simp [isIndex, noIndices, onward]

theorem inOrder_ownProperties (definitions : List (JsString × Value)) :
    InOrder (ownProperties definitions) := by
  refine ⟨?_, pairwise_enumerated _⟩
  exact ((perm_enumerated (created definitions)).map Prod.fst).nodup_iff.mpr
    (nodup_created definitions)

theorem mem_of_mem_ownProperties {definitions : List (JsString × Value)}
    {property : JsString × Value}
    (member : property ∈ ownProperties definitions) :
    property ∈ definitions :=
  mem_of_mem_created ((perm_enumerated _).mem_iff.mp member)

theorem ownProperties_of_inOrder {properties : List (JsString × Value)}
    (inOrder : InOrder properties) :
    ownProperties properties = properties := by
  rw [ownProperties, created_of_distinct inOrder.distinct,
    enumerated_of_pairwise inOrder.pairwise]

theorem perm_ownProperties_of_distinct
    {definitions : List (JsString × Value)}
    (distinct : (definitions.map Prod.fst).Nodup) :
    (ownProperties definitions).Perm definitions := by
  rw [ownProperties, created_of_distinct distinct]
  exact perm_enumerated definitions

section Replaced

variable (change : Value → Target)

private theorem defineProperty_map (key : JsString) (value : Value)
    (properties : List (JsString × Value)) :
    defineProperty key (change value) (properties.map (Prod.map id change)) =
      (defineProperty key value properties).map (Prod.map id change) := by
  induction properties with
  | nil =>
      rfl
  | cons head rest inductionHypothesis =>
      obtain ⟨headKey, old⟩ := head
      simp only [List.map_cons, Prod.map, id_eq, defineProperty] at *
      by_cases same : headKey = key
      · rw [if_pos same, if_pos same]
        rfl
      · rw [if_neg same, if_neg same, inductionHypothesis]
        rfl

private theorem created_map (definitions : List (JsString × Value)) :
    created (definitions.map (Prod.map id change)) =
      (created definitions).map (Prod.map id change) := by
  have onward : ∀ properties : List (JsString × Value),
      (definitions.map (Prod.map id change)).foldl
          (fun properties definition =>
            defineProperty definition.1 definition.2 properties)
          (properties.map (Prod.map id change)) =
        (definitions.foldl (fun properties definition =>
          defineProperty definition.1 definition.2 properties)
          properties).map (Prod.map id change) := by
    induction definitions with
    | nil =>
        exact fun _ => rfl
    | cons definition rest inductionHypothesis =>
        intro properties
        rw [List.foldl_cons, ← inductionHypothesis, ← defineProperty_map]
        rfl
  exact onward []

private theorem enumerated_map (properties : List (JsString × Value)) :
    enumerated (properties.map (Prod.map id change)) =
      (enumerated properties).map (Prod.map id change) := by
  rw [enumerated, enumerated, List.map_append, List.filter_map,
    List.filter_map]
  congr 1
  exact (List.map_insertionSort
    (fun first second : JsString × Value =>
      (arrayIndex? first.1).getD 0 ≤ (arrayIndex? second.1).getD 0)
    (fun first second : JsString × Target =>
      (arrayIndex? first.1).getD 0 ≤ (arrayIndex? second.1).getD 0)
    _ _ fun _ _ _ _ => Iff.rfl).symm

/-- The order of the properties does not depend on the values. -/
theorem ownProperties_map (definitions : List (JsString × Value)) :
    ownProperties (definitions.map (Prod.map id change)) =
      (ownProperties definitions).map (Prod.map id change) := by
  rw [ownProperties, created_map, enumerated_map, ownProperties]

end Replaced

/-- The own keys of an object in enumeration order. -/
def keysOf (definitions : List (JsString × Value)) : List JsString :=
  (ownProperties definitions).map Prod.fst

theorem nodup_keysOf (definitions : List (JsString × Value)) :
    (keysOf definitions).Nodup :=
  (inOrder_ownProperties definitions).distinct

theorem mem_keysOf_of_mem {definitions : List (JsString × Value)}
    {key : JsString} {value : Value}
    (member : (key, value) ∈ ownProperties definitions) :
    key ∈ keysOf definitions :=
  List.mem_map_of_mem member

theorem exists_of_mem_keysOf {definitions : List (JsString × Value)}
    {key : JsString} (member : key ∈ keysOf definitions) :
    ∃ value, (key, value) ∈ ownProperties definitions := by
  obtain ⟨⟨key, value⟩, inside, rfl⟩ := List.mem_map.mp member
  exact ⟨value, inside⟩

/-- A key has one value. -/
theorem eq_of_mem_ownProperties {definitions : List (JsString × Value)}
    {key : JsString} {first second : Value}
    (isFirst : (key, first) ∈ ownProperties definitions)
    (isSecond : (key, second) ∈ ownProperties definitions) :
    first = second := by
  have pair := List.inj_on_of_nodup_map
    (nodup_keysOf definitions) isFirst isSecond rfl
  exact congrArg Prod.snd pair

/-- The keys in enumeration order are given by the keys of the
definitions. -/
theorem keysOf_congr {firsts : List (JsString × Value)}
    {seconds : List (JsString × Target)}
    (same : firsts.map Prod.fst = seconds.map Prod.fst) :
    keysOf firsts = keysOf seconds := by
  have bare : ∀ {Other : Type} (definitions : List (JsString × Other)),
      keysOf definitions =
        keysOf ((definitions.map Prod.fst).map fun key => (key, ())) := by
    intro Other definitions
    have stripped : (definitions.map Prod.fst).map (fun key => (key, ())) =
        definitions.map (Prod.map id fun _ => ()) := by
      rw [List.map_map]
      rfl
    rw [stripped, keysOf, keysOf, ownProperties_map, List.map_map]
    rfl
  rw [bare firsts, bare seconds, same]

end Json
