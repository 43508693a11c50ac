import ArosParadigm.Library.Json.Equality
import ArosParadigm.PayloadChain
import ArosParadigm.StateRecording

/-!
# Canonical recording

`StateRecordingService.capture` over `NodeChainService` with its own payloads.
`sortKeys` sorts the own keys of `data` and copies the values as they are, so
that two recordings of one event are written alike exactly when the objects
inside `data` list their keys in the same order. The key `__proto__` is lost.
-/

namespace ArosParadigm.CanonicalPayload

open Json NodeChain PayloadChain

abbrev JsonTable := SnapshotTable (Option JsString) JsString

/-- `validatorId: string | null`. -/
def validatorValue : Option String → JsValue JsNumber
  | some validatorId => .string (utf16 validatorId)
  | none => .null

/-- `buildPayload(processId, data, validatorId)`. -/
def buildPayload (processId : String) (data : JsObject JsNumber)
    (validatorId : Option String) : JsonPayload :=
  .object
    [(utf16 "processId", .string (utf16 processId)),
      (utf16 "data", .object (StateRecording.sortKeys data)),
      (utf16 "validatorId", validatorValue validatorId)]

/-- `capture(processId, eventType, data, validatorId)`: the table after the
append. -/
def capture (sha256 : JsString → JsString) (table : JsonTable)
    (processId eventType : String) (data : JsObject JsNumber)
    (validatorId : Option String) (timestamp : ℕ) : JsonTable :=
  append (hasher sha256) simpleJson table eventType
    (buildPayload processId data validatorId) timestamp

/-- The snapshot that `capture` adds, as it is read. -/
def captured (sha256 : JsString → JsString) (table : JsonTable)
    (processId eventType : String) (data : JsObject JsNumber)
    (validatorId : Option String) (timestamp : ℕ) : JsonSnapshot :=
  reload simpleJson (nextRow (hasher sha256) simpleJson (head? table)
    eventType (buildPayload processId data validatorId) timestamp)

theorem list_capture (sha256 : JsString → JsString) (table : JsonTable)
    (processId eventType : String) (data : JsObject JsNumber)
    (validatorId : Option String) (timestamp : ℕ) :
    list simpleJson
        (capture sha256 table processId eventType data validatorId
          timestamp) =
      list simpleJson table ++
        [captured sha256 table processId eventType data validatorId
          timestamp] :=
  list_append (hasher sha256) simpleJson table eventType _ timestamp

abbrev EqualJson : JsonPayload → JsonPayload → Prop :=
  Equal List.Perm JsNumber.SameValue

/-- JSON values that are equal and list their keys in the same order. -/
abbrev EqualListed : JsonPayload → JsonPayload → Prop :=
  Equal Eq JsNumber.SameValue

/-- Two snapshots of one event: the texts of the payloads and the hashes are
the same, and `data` is read back. -/
structure RecordedAlike (data : JsObject JsNumber)
    (first second : JsonSnapshot) : Prop where
  text : stringify numberFormat first.payload =
    stringify numberFormat second.payload
  hash : first.hash = second.hash
  kept : EqualJson (first.payload.property (utf16 "data")) (.object data)

/-- `data` has no own key `__proto__`, and the objects inside list their keys
in the same order. -/
structure NestedAlike (data other : JsObject JsNumber) : Prop where
  noPrototype : utf16 "__proto__" ∉ keysOf data
  nested : ∀ key first second, (key, first) ∈ ownProperties data →
    (key, second) ∈ ownProperties other → EqualListed first second

theorem respects_numberFormat :
    Respects numberFormat JsNumber.SameValue :=
  fun _ _ same => exists_token same

section Sorted

variable {data other : JsObject JsNumber}

theorem mem_sortKeys {property : JsString × JsValue JsNumber} :
    property ∈ StateRecording.sortKeys data ↔
      property ∈ ownProperties data ∧ property.1 ≠ utf16 "__proto__" := by
  rw [StateRecording.sortKeys, List.mem_filter, List.mem_insertionSort,
    decide_eq_true_iff]

theorem keys_sortKeys (data : JsObject JsNumber) :
    (StateRecording.sortKeys data).map Prod.fst =
      ((keysOf data).insertionSort (· ≤ ·)).filter
        fun key => key ≠ utf16 "__proto__" := by
  have sorted : (keysOf data).insertionSort (· ≤ ·) =
      ((ownProperties data).insertionSort
        fun first second => first.1 ≤ second.1).map Prod.fst := by
    rw [keysOf]
    exact (List.map_insertionSort
      (fun first second : JsString × JsValue JsNumber =>
        first.1 ≤ second.1)
      (· ≤ ·) Prod.fst _ fun _ _ _ _ => Iff.rfl).symm
  rw [sorted, List.filter_map, StateRecording.sortKeys]
  rfl

theorem distinct_sortKeys (data : JsObject JsNumber) :
    ((StateRecording.sortKeys data).map Prod.fst).Nodup := by
  rw [keys_sortKeys]
  refine List.Nodup.filter _ ?_
  exact (List.perm_insertionSort _ _).nodup_iff.mpr (nodup_keysOf data)

theorem mem_ownProperties_sortKeys
    {property : JsString × JsValue JsNumber} :
    property ∈ ownProperties (StateRecording.sortKeys data) ↔
      property ∈ ownProperties data ∧ property.1 ≠ utf16 "__proto__" := by
  rw [(perm_ownProperties_of_distinct (distinct_sortKeys data)).mem_iff,
    mem_sortKeys]

theorem keysOf_sortKeys_eq (keys : (keysOf data).Perm (keysOf other)) :
    keysOf (StateRecording.sortKeys data) =
      keysOf (StateRecording.sortKeys other) := by
  have sorted : (keysOf data).insertionSort (· ≤ ·) =
      (keysOf other).insertionSort (· ≤ ·) := by
    apply List.Perm.eq_of_pairwise'
      (List.pairwise_insertionSort (· ≤ ·) (keysOf data))
      (List.pairwise_insertionSort (· ≤ ·) (keysOf other))
    exact (List.perm_insertionSort _ _).trans
      (keys.trans (List.perm_insertionSort _ _).symm)
  apply keysOf_congr
  rw [keys_sortKeys, keys_sortKeys, sorted]

theorem equalJson_sortKeys
    (equal : EqualJson (.object data) (.object other)) :
    EqualJson (.object (StateRecording.sortKeys data))
      (.object (StateRecording.sortKeys other)) := by
  cases equal with
  | object keys each =>
      refine .object ?_ ?_
      · rw [keysOf_sortKeys_eq keys]
      · intro key first second isFirst isSecond
        exact each key first second
          (mem_ownProperties_sortKeys.mp isFirst).1
          (mem_ownProperties_sortKeys.mp isSecond).1

theorem equalListed_sortKeys_iff
    (equal : EqualJson (.object data) (.object other)) :
    EqualListed (.object (StateRecording.sortKeys data))
        (.object (StateRecording.sortKeys other)) ↔
      ∀ key first second, key ≠ utf16 "__proto__" →
        (key, first) ∈ ownProperties data →
        (key, second) ∈ ownProperties other →
          EqualListed first second := by
  cases equal with
  | object keys each =>
      constructor
      · intro listed key first second named isFirst isSecond
        cases listed with
        | object _ eachListed =>
            exact eachListed key first second
              (mem_ownProperties_sortKeys.mpr ⟨isFirst, named⟩)
              (mem_ownProperties_sortKeys.mpr ⟨isSecond, named⟩)
      · intro nested
        refine .object (keysOf_sortKeys_eq keys) ?_
        intro key first second isFirst isSecond
        obtain ⟨firstInside, named⟩ := mem_ownProperties_sortKeys.mp isFirst
        obtain ⟨secondInside, _⟩ := mem_ownProperties_sortKeys.mp isSecond
        exact nested key first second named firstInside secondInside

end Sorted

section Payloads

variable {data other : JsObject JsNumber} {processId : String}
variable {validatorId : Option String}

theorem mem_ownProperties_payload
    {first second third value : JsValue JsNumber} {key : JsString} :
    (key, value) ∈ ownProperties
        [(utf16 "processId", first), (utf16 "data", second),
          (utf16 "validatorId", third)] ↔
      key = utf16 "processId" ∧ value = first ∨
        key = utf16 "data" ∧ value = second ∨
          key = utf16 "validatorId" ∧ value = third := by
  have distinct : ([(utf16 "processId", first), (utf16 "data", second),
      (utf16 "validatorId", third)].map Prod.fst).Nodup := by
    change [utf16 "processId", utf16 "data", utf16 "validatorId"].Nodup
    decide
  rw [(perm_ownProperties_of_distinct distinct).mem_iff]
  simp only [List.mem_cons, List.not_mem_nil, or_false, Prod.mk.injEq]

theorem equal_validatorValue (order : List JsString → List JsString → Prop) :
    Equal order JsNumber.SameValue (validatorValue validatorId)
      (validatorValue validatorId) := by
  cases validatorId with
  | none =>
      exact .null
  | some validatorId =>
      exact .string _

theorem equal_buildPayload_iff
    {order : List JsString → List JsString → Prop}
    (refl : ∀ keys, order keys keys) :
    Equal order JsNumber.SameValue
        (buildPayload processId data validatorId)
        (buildPayload processId other validatorId) ↔
      Equal order JsNumber.SameValue
        (.object (StateRecording.sortKeys data))
        (.object (StateRecording.sortKeys other)) := by
  constructor
  · intro equal
    cases equal with
    | object _ each =>
        exact each (utf16 "data") _ _
          (mem_ownProperties_payload.mpr (Or.inr (Or.inl ⟨rfl, rfl⟩)))
          (mem_ownProperties_payload.mpr (Or.inr (Or.inl ⟨rfl, rfl⟩)))
  · intro equal
    refine .object (@keysOf_congr _ _ _ _ rfl ▸ refl _) ?_
    intro key first second isFirst isSecond
    rw [mem_ownProperties_payload] at isFirst isSecond
    rcases isFirst with ⟨rfl, rfl⟩ | ⟨rfl, rfl⟩ | ⟨rfl, rfl⟩
    · obtain ⟨_, rfl⟩ | ⟨clash, _⟩ | ⟨clash, _⟩ := isSecond
      · exact .string _
      · exact absurd clash (by decide)
      · exact absurd clash (by decide)
    · obtain ⟨clash, _⟩ | ⟨_, rfl⟩ | ⟨clash, _⟩ := isSecond
      · exact absurd clash (by decide)
      · exact equal
      · exact absurd clash (by decide)
    · obtain ⟨clash, _⟩ | ⟨clash, _⟩ | ⟨_, rfl⟩ := isSecond
      · exact absurd clash (by decide)
      · exact absurd clash (by decide)
      · exact equal_validatorValue order

theorem equalJson_buildPayload
    (equal : EqualJson (.object data) (.object other)) :
    EqualJson (buildPayload processId data validatorId)
      (buildPayload processId other validatorId) :=
  (equal_buildPayload_iff List.Perm.refl).mpr (equalJson_sortKeys equal)

theorem stringify_read
    (equal : EqualJson (.object data) (.object other)) :
    stringify numberFormat (simpleJson.read
        (simpleJson.write (buildPayload processId data validatorId))) =
      stringify numberFormat (buildPayload processId data validatorId) ∧
    stringify numberFormat (simpleJson.read
        (simpleJson.write (buildPayload processId other validatorId))) =
      stringify numberFormat (buildPayload processId other validatorId) := by
  have payloads := @equalJson_buildPayload data other processId validatorId
    equal
  obtain ⟨isData, isOther⟩ := payloads.isWritten respects_numberFormat
  exact ⟨stringify_stored (Option.isSome_map.trans isData),
    stringify_stored (Option.isSome_map.trans isOther)⟩

theorem equalListed_read
    (equal : EqualJson (.object data) (.object other)) :
    EqualListed
      (simpleJson.read
        (simpleJson.write (buildPayload processId data validatorId)))
      (buildPayload processId data validatorId) := by
  have payloads := @equalJson_buildPayload data other processId validatorId
    equal
  obtain ⟨written, _⟩ := payloads.isWritten respects_numberFormat
  have isTree := treeOf_of_isSome numberFormat written
  have isRead : simpleJson.read
      (simpleJson.write (buildPayload processId data validatorId)) =
        valueOf numberFormat (treeOrNull numberFormat
          (buildPayload processId data validatorId)) := by
    simp only [simpleJson, stringify, isTree, Option.map_some,
      Option.bind_some,
      parse_print (canonical_treeOf numberFormat false _ _ isTree),
      Option.getD_some]
  rw [isRead]
  exact payloads.readBack respects_numberFormat

/-- `data` of a payload that was read back. -/
theorem equalListed_property {read : JsonPayload}
    (equal : EqualListed read (buildPayload processId data validatorId)) :
    EqualListed (read.property (utf16 "data"))
      (.object (StateRecording.sortKeys data)) := by
  have isData : (utf16 "data", JsValue.object (StateRecording.sortKeys data))
      ∈ ownProperties
        [(utf16 "processId", .string (utf16 processId)),
          (utf16 "data", .object (StateRecording.sortKeys data)),
          (utf16 "validatorId", validatorValue validatorId)] :=
    mem_ownProperties_payload.mpr (Or.inr (Or.inl ⟨rfl, rfl⟩))
  cases equal with
  | object keys each =>
      obtain ⟨value, isValue⟩ := exists_of_mem_keysOf
        (keys.symm ▸ mem_keysOf_of_mem isData)
      rw [property_of_mem isValue]
      exact each _ _ _ isValue isData

/-- The sorted data equal the data exactly when no key is lost. -/
theorem equalJson_data_iff {read : JsonPayload}
    (listed : EqualListed read (.object (StateRecording.sortKeys data))) :
    EqualJson read (.object data) ↔ utf16 "__proto__" ∉ keysOf data := by
  cases listed with
  | @object firsts _ keys each =>
      constructor
      · intro kept present
        cases kept with
        | object sameKeys _ =>
            rw [← sameKeys.mem_iff, keys] at present
            obtain ⟨value, inside⟩ := exists_of_mem_keysOf present
            exact (mem_ownProperties_sortKeys.mp inside).2 rfl
      · intro noPrototype
        have inside : ∀ key value, (key, value) ∈ ownProperties data →
            (key, value) ∈ ownProperties (StateRecording.sortKeys data) := by
          intro key value member
          refine mem_ownProperties_sortKeys.mpr ⟨member, ?_⟩
          rintro rfl
          exact noPrototype (mem_keysOf_of_mem member)
        refine .object ?_ ?_
        · rw [keys]
          refine (List.perm_ext_iff_of_nodup (nodup_keysOf _)
            (nodup_keysOf _)).mpr ?_
          intro key
          constructor
          · intro member
            obtain ⟨value, isValue⟩ := exists_of_mem_keysOf member
            exact mem_keysOf_of_mem (mem_ownProperties_sortKeys.mp isValue).1
          · intro member
            obtain ⟨value, isValue⟩ := exists_of_mem_keysOf member
            exact mem_keysOf_of_mem (inside key value isValue)
        · intro key first second isFirst isSecond
          exact (each key first second isFirst
            (inside key second isSecond)).mono fun _ _ same => same ▸ .refl _

end Payloads

/-! ## Canonical recording -/

section Recording

variable (sha256 : JsString → JsString) (table : JsonTable)
variable (processId eventType : String) (validatorId : Option String)
variable (timestamp later : ℕ)

theorem payload_captured (data : JsObject JsNumber) :
    (captured sha256 table processId eventType data validatorId
        timestamp).payload =
      simpleJson.read
        (simpleJson.write (buildPayload processId data validatorId)) := by
  simp only [captured, reload, nextRow]

theorem hash_captured_congr {data other : JsObject JsNumber}
    (text : stringify numberFormat
        (buildPayload processId data validatorId) =
      stringify numberFormat (buildPayload processId other validatorId)) :
    (captured sha256 table processId eventType data validatorId
        timestamp).hash =
      (captured sha256 table processId eventType other validatorId
        later).hash := by
  simp only [captured, reload, nextRow, Hasher.linkHash, hasher, text]

/-- Recordings of data that are equal up to the order of keys have one text when
the objects inside list their keys in the same order. -/
theorem stringify_buildPayload_eq_iff {data other : JsObject JsNumber}
    (equal : EqualJson (.object data) (.object other)) :
    stringify numberFormat (buildPayload processId data validatorId) =
        stringify numberFormat (buildPayload processId other validatorId) ↔
      ∀ key first second, key ≠ utf16 "__proto__" →
        (key, first) ∈ ownProperties data →
        (key, second) ∈ ownProperties other →
          EqualListed first second := by
  have payloads := @equalJson_buildPayload data other processId validatorId
    equal
  exact (payloads.stringify_eq_iff respects_numberFormat).trans
    ((equal_buildPayload_iff fun _ => rfl).trans
      (equalListed_sortKeys_iff equal))

/-- Recordings at one position of the chain, of data that are equal up to the
order of keys. -/
theorem recordedAlike_iff {data other : JsObject JsNumber}
    (equal : EqualJson (.object data) (.object other)) :
    RecordedAlike data
        (captured sha256 table processId eventType data validatorId
          timestamp)
        (captured sha256 table processId eventType other validatorId
          later) ↔
      NestedAlike data other := by
  obtain ⟨dataText, otherText⟩ :=
    @stringify_read data other processId validatorId equal
  rw [← payload_captured sha256 table processId eventType validatorId
    timestamp] at dataText
  rw [← payload_captured sha256 table processId eventType validatorId
    later] at otherText
  have texts := @stringify_buildPayload_eq_iff processId validatorId data
    other equal
  have kept := equalJson_data_iff (equalListed_property
    (@equalListed_read data other processId validatorId equal))
  rw [← payload_captured sha256 table processId eventType validatorId
    timestamp] at kept
  constructor
  · rintro ⟨text, _, isKept⟩
    have noPrototype := kept.mp isKept
    have nested := texts.mp (dataText.symm.trans (text.trans otherText))
    refine ⟨noPrototype, ?_⟩
    intro key first second isFirst isSecond
    refine nested key first second ?_ isFirst isSecond
    rintro rfl
    exact noPrototype (mem_keysOf_of_mem isFirst)
  · rintro ⟨noPrototype, nested⟩
    have text := texts.mpr fun key first second _ => nested key first second
    exact ⟨dataText.trans (text.trans otherText.symm),
      hash_captured_congr sha256 table processId eventType validatorId
        timestamp later text,
      kept.mpr noPrototype⟩

end Recording

/-- Two keys inside of `data`. -/
def ascending : JsObject JsNumber :=
  [(utf16 "meta", .object
    [(utf16 "a", .null), (utf16 "b", .boolean true)])]

/-- The same keys in the other order. -/
def descending : JsObject JsNumber :=
  [(utf16 "meta", .object
    [(utf16 "b", .boolean true), (utf16 "a", .null)])]

/-- An own key `__proto__`. -/
def prototype : JsObject JsNumber :=
  [(utf16 "__proto__", .boolean true)]

def recordedFirst (data : JsObject JsNumber) : JsonSnapshot :=
  captured id Keyed.Table.empty "p-1" "initiation" data none 1

/-- An object with one key. -/
theorem equal_singleton {order : List JsString → List JsString → Prop}
    (refl : ∀ keys, order keys keys) (key : JsString)
    {left right : JsValue JsNumber}
    (equal : Equal order JsNumber.SameValue left right) :
    Equal order JsNumber.SameValue (.object [(key, left)])
      (.object [(key, right)]) := by
  refine .object (@keysOf_congr _ _ [(key, left)] [(key, right)] rfl ▸
    refl _) ?_
  intro found first second isFirst isSecond
  have isLeft := List.mem_singleton.mp (mem_of_mem_ownProperties isFirst)
  have isRight := List.mem_singleton.mp (mem_of_mem_ownProperties isSecond)
  cases isLeft
  cases isRight
  exact equal

theorem equalJson_ascending :
    EqualJson (.object ascending) (.object descending) := by
  apply equal_singleton List.Perm.refl
  refine .object (by decide) ?_
  intro key first second isFirst isSecond
  have isFirst := mem_of_mem_ownProperties isFirst
  have isSecond := mem_of_mem_ownProperties isSecond
  rw [List.mem_cons, List.mem_singleton] at isFirst isSecond
  rcases isFirst with isFirst | isFirst <;>
    rcases isSecond with isSecond | isSecond <;>
    obtain ⟨rfl, rfl⟩ := Prod.mk.inj isFirst <;>
    obtain ⟨clash, rfl⟩ := Prod.mk.inj isSecond
  · exact absurd clash (by decide)
  · exact .null
  · exact .boolean true
  · exact absurd clash (by decide)

def dataKeys (snapshot : JsonSnapshot) : List JsString :=
  match snapshot.payload.property (utf16 "data") with
  | .object definitions => keysOf definitions
  | _ => []

theorem dataKeys_perm {data : JsObject JsNumber} {snapshot : JsonSnapshot}
    (kept : EqualJson (snapshot.payload.property (utf16 "data"))
      (.object data)) : (dataKeys snapshot).Perm (keysOf data) := by
  rw [dataKeys]
  generalize snapshot.payload.property (utf16 "data") = read at kept
  cases kept with
  | object keys _ =>
      exact keys

/-- The order of the inner keys changes text and hash, and the key `__proto__`
is lost. -/
theorem inner_order_changes_hash :
    EqualJson (.object ascending) (.object descending) ∧
      stringify numberFormat (recordedFirst ascending).payload ≠
        stringify numberFormat (recordedFirst descending).payload ∧
      (recordedFirst ascending).hash ≠ (recordedFirst descending).hash ∧
      ¬ RecordedAlike ascending (recordedFirst ascending)
        (recordedFirst descending) ∧
      EqualJson (.object prototype) (.object prototype) ∧
      dataKeys (recordedFirst prototype) = [] ∧
      ¬ RecordedAlike prototype (recordedFirst prototype)
        (recordedFirst prototype) := by
  have texts : stringify numberFormat (recordedFirst ascending).payload ≠
      stringify numberFormat (recordedFirst descending).payload := by
    decide +kernel
  have hashes :
      (recordedFirst ascending).hash ≠ (recordedFirst descending).hash := by
    decide +kernel
  have lost : dataKeys (recordedFirst prototype) = [] := by
    decide +kernel
  refine ⟨equalJson_ascending, texts, hashes,
    fun alike => texts alike.text,
    equal_singleton List.Perm.refl _ (.boolean true), lost, ?_⟩
  intro alike
  have keys := dataKeys_perm alike.kept
  rw [lost] at keys
  exact absurd keys (by decide)

/-- An inner object, then a string. -/
def stagedLast : JsObject JsNumber :=
  [(utf16 "meta", .object [(utf16 "a", .null)]),
    (utf16 "stage", .string (utf16 "init"))]

/-- The outer keys in the other order. -/
def stagedFirst : JsObject JsNumber :=
  [(utf16 "stage", .string (utf16 "init")),
    (utf16 "meta", .object [(utf16 "a", .null)])]

theorem equal_staged {order : List JsString → List JsString → Prop}
    (refl : ∀ keys, order keys keys) (key : JsString)
    (first second : JsValue JsNumber)
    (isFirst : (key, first) ∈ ownProperties stagedLast)
    (isSecond : (key, second) ∈ ownProperties stagedFirst) :
    Equal order JsNumber.SameValue first second := by
  have isFirst := mem_of_mem_ownProperties isFirst
  have isSecond := mem_of_mem_ownProperties isSecond
  rw [stagedLast, List.mem_cons, List.mem_singleton] at isFirst
  rw [stagedFirst, List.mem_cons, List.mem_singleton] at isSecond
  rcases isFirst with isFirst | isFirst <;>
    rcases isSecond with isSecond | isSecond <;>
    obtain ⟨rfl, rfl⟩ := Prod.mk.inj isFirst <;>
    obtain ⟨clash, rfl⟩ := Prod.mk.inj isSecond
  · exact absurd clash (by decide)
  · exact equal_singleton refl _ .null
  · exact .string _
  · exact absurd clash (by decide)

theorem recordedAlike_staged :
    RecordedAlike stagedLast (recordedFirst stagedLast)
      (recordedFirst stagedFirst) :=
  (recordedAlike_iff id Keyed.Table.empty "p-1" "initiation" none 1 1
    (.object (by decide) (equal_staged List.Perm.refl))).mpr
    ⟨by decide, equal_staged fun _ => rfl⟩

end ArosParadigm.CanonicalPayload
