import ArosParadigm.HeadBinding

/-!
# Figures derived from an audited history

`ReserveService` and `OrchestratorService.getProcess` select snapshots by
`eventType`, and `append` does not hash this field. The reference core does: its
payload text contains `eventType`.

Two accepted histories that end in the same hash and carry the same event types
lead to the same figures. Without the event types nothing is fixed:
`figures_fixed_iff` shows that every history with a snapshot that one of the
readers could use has an accepted twin with other figures.
-/

namespace ArosParadigm.AuditedFigures

open Json NodeChain PayloadChain HeadBinding

/-- `value ?? 0`. -/
def orZero : JsonPayload → JsonPayload
  | .undefined => .number .zero
  | .null => .number .zero
  | value => value

/-- `Number(value)`. The conversion of values that are not numbers is a
parameter; it may throw. -/
def numberOf (convert : JsonPayload → Option JsNumber) :
    JsonPayload → Option JsNumber
  | .number value => some value
  | value => convert value

section Readers

variable (convert : JsonPayload → Option JsNumber)

/-- `Number(snapshot.payload[key] ?? 0)`. -/
def amountOf (key : JsString) (snapshot : JsonSnapshot) :
    Option JsNumber :=
  numberOf convert (orZero (snapshot.payload.property key))

/-- One round of the loop of `totalProcessVolume`. -/
def volumeStep (total : JsNumber) (snapshot : JsonSnapshot) :
    Option JsNumber :=
  if snapshot.eventType = "emission.minted" then
    (amountOf convert (utf16 "minted") snapshot).map fun minted =>
      if minted.isFinite then total.add minted else total
  else if snapshot.eventType = "commission.epoch.finalized" then
    (amountOf convert (utf16 "operationalMargin") snapshot).map
      fun margin =>
        if margin.isFinite && decide (0 < margin.toRat) then
          total.add margin
        else total
  else
    some total

def totalProcessVolume (snapshots : List JsonSnapshot) : Option JsNumber :=
  snapshots.foldlM (volumeStep convert) JsNumber.zero

/-- One round of the loop of `totalAfcReserve`. -/
def afcStep (total : JsNumber) (snapshot : JsonSnapshot) :
    Option JsNumber :=
  if snapshot.eventType = "reserve.afc.accrual" then
    (amountOf convert (utf16 "amount") snapshot).map fun amount =>
      if amount.isFinite then total.add amount else total
  else
    some total

def totalAfcReserve (snapshots : List JsonSnapshot) : Option JsNumber :=
  snapshots.foldlM (afcStep convert) JsNumber.zero

/-- `snap.payload['processId'] === processId`. -/
def names (processId : JsString) (snapshot : JsonSnapshot) : Bool :=
  match snapshot.payload.property (utf16 "processId") with
  | .string text => decide (text = processId)
  | _ => false

/-- The event types of `getProcess(processId).events`. -/
def trail (processId : JsString) (snapshots : List JsonSnapshot) :
    List String :=
  (snapshots.filter (names processId)).map ExecutionSnapshot.eventType

/-- Two histories lead to the same figures and to the same audit trails. -/
structure SameFigures (left right : List JsonSnapshot) : Prop where
  volume : totalProcessVolume convert left =
    totalProcessVolume convert right
  afc : totalAfcReserve convert left = totalAfcReserve convert right
  trails : ∀ processId, trail processId left = trail processId right

/-- No reader could use the payload, whatever the event type: it names no
process and none of its fields adds anything. -/
structure Unread (snapshot : JsonSnapshot) : Prop where
  process : ∀ processId, names processId snapshot = false
  minted : ∃ amount, amountOf convert (utf16 "minted") snapshot =
    some amount ∧ amount.Negligible
  margin : ∃ amount, amountOf convert (utf16 "operationalMargin")
    snapshot = some amount ∧ ¬ 0 < amount.toRat
  accrual : ∃ amount, amountOf convert (utf16 "amount") snapshot =
    some amount ∧ amount.Negligible

end Readers

/-- The payload is read from the column. -/
def Stored (snapshot : JsonSnapshot) : Prop :=
  ∃ value, snapshot.payload = simpleJson.read (simpleJson.write value)

theorem Stored.payload_eq {snapshot : JsonSnapshot}
    (stored : Stored snapshot) :
    snapshot.payload =
      simpleJson.read (stringify numberFormat snapshot.payload) := by
  obtain ⟨value, isRead⟩ := stored
  cases written : stringify numberFormat value with
  | none =>
      have isNull : snapshot.payload = .null := by
        rw [isRead]
        simp only [simpleJson, written]
        rfl
      rw [isNull]
      rfl
  | some text =>
      have sameText := @stringify_stored value (by rw [written]; rfl)
      rw [isRead, sameText]
      rfl

theorem payload_eq_of_text {first second : JsonSnapshot}
    (firstStored : Stored first) (secondStored : Stored second)
    (sameText : stringify numberFormat first.payload =
      stringify numberFormat second.payload) :
    first.payload = second.payload := by
  rw [firstStored.payload_eq, secondStored.payload_eq, sameText]

/-- The snapshot under another event type. -/
def withType (eventType : String) (snapshot : JsonSnapshot) :
    JsonSnapshot :=
  { snapshot with eventType := eventType }

/-- The two histories differ in their event types only. -/
def Relabelled (left right : List JsonSnapshot) : Prop :=
  left.map (withType "") = right.map (withType "")

theorem relabelled_map (change : JsonSnapshot → String)
    (snapshots : List JsonSnapshot) :
    Relabelled snapshots
      (snapshots.map fun snapshot =>
        withType (change snapshot) snapshot) := by
  unfold Relabelled
  rw [List.map_map]
  rfl

theorem Relabelled.forall_iff {left right : List JsonSnapshot}
    (relabelled : Relabelled left right) {property : JsonSnapshot → Prop}
    (blind : ∀ snapshot,
      property (withType "" snapshot) ↔ property snapshot) :
    (∀ snapshot ∈ left, property snapshot) ↔
      ∀ snapshot ∈ right, property snapshot := by
  have forgotten : ∀ snapshots : List JsonSnapshot,
      (∀ snapshot ∈ snapshots.map (withType ""), property snapshot) ↔
        ∀ snapshot ∈ snapshots, property snapshot := by
    intro snapshots
    simp only [List.forall_mem_map, blind]
  rw [← forgotten left, ← forgotten right, relabelled]

variable {sha256 : JsString → JsString}

theorem Relabelled.linked {left right : List JsonSnapshot}
    (relabelled : Relabelled left right)
    (linked : HashChain.Linked (reading (hasher sha256)) [] left) :
    HashChain.Linked (reading (hasher sha256)) [] right := by
  have forgotten := fun snapshots : List JsonSnapshot =>
    @HashChain.linked_map_iff _ _ (reading (hasher sha256)) (withType "")
      (fun _ => rfl) (fun _ => rfl) (fun _ _ => rfl) [] snapshots
  rw [← forgotten right, ← relabelled]
  exact (forgotten left).mpr linked

/-- `reconstruct` does not notice other event types. -/
theorem Relabelled.audited {left right : List JsonSnapshot}
    (relabelled : Relabelled left right) (audited : Audited sha256 left) :
    Audited sha256 right := by
  refine ⟨?_, ?_, ?_, ?_, ?_⟩
  · rintro rfl
    exact audited.nonempty (List.map_eq_nil_iff.mp relabelled)
  · exact (relabelled.forall_iff fun _ => Iff.rfl).mp audited.objects
  · exact (relabelled.forall_iff fun _ => Iff.rfl).mp audited.positive
  · exact (relabelled.forall_iff fun _ => Iff.rfl).mp audited.short
  · rw [reconstruct_ok_iff]
    exact relabelled.linked audited.linked

theorem Relabelled.sameHead {left right : List JsonSnapshot}
    (relabelled : Relabelled left right) :
    left.getLast?.map ExecutionSnapshot.hash =
      right.getLast?.map ExecutionSnapshot.hash := by
  have forgotten : ∀ snapshots : List JsonSnapshot,
      (snapshots.map (withType "")).getLast?.map ExecutionSnapshot.hash =
        snapshots.getLast?.map ExecutionSnapshot.hash := by
    intro snapshots
    rw [List.getLast?_map, Option.map_map]
    rfl
  rw [← forgotten left, relabelled, forgotten right]

theorem Relabelled.collisionless {left right : List JsonSnapshot}
    (relabelled : Relabelled left right)
    (collisionless : Collisionless sha256 left) :
    Collisionless sha256 (left ++ right) := by
  refine ⟨collisionless.length, ?_⟩
  refine collisionless.injective.mono ?_
  rintro text ⟨snapshot, member, rfl⟩
  rcases List.mem_append.mp member with inLeft | inRight
  · exact ⟨snapshot, inLeft, rfl⟩
  · have inBoth : withType "" snapshot ∈ left.map (withType "") := by
      rw [relabelled]
      exact List.mem_map_of_mem inRight
    obtain ⟨twin, twinMember, equal⟩ := List.mem_map.mp inBoth
    refine ⟨twin, twinMember, ?_⟩
    have texts : hashedText (withType "" snapshot) =
        hashedText (withType "" twin) := by
      rw [equal]
    exact texts

variable {convert : JsonPayload → Option JsNumber}

/-- All that the readers look at. -/
structure SameReading (first second : JsonSnapshot) : Prop where
  eventType : first.eventType = second.eventType
  payload : first.payload = second.payload

private theorem foldlM_congr
    {step : JsNumber → JsonSnapshot → Option JsNumber}
    (sameStep : ∀ total first second, SameReading first second →
      step total first = step total second)
    {left right : List JsonSnapshot}
    (pairs : List.Forall₂ SameReading left right) :
    ∀ total, left.foldlM step total = right.foldlM step total := by
  induction pairs with
  | nil =>
      exact fun _ => rfl
  | cons head _ inductionHypothesis =>
      intro total
      rw [List.foldlM_cons, List.foldlM_cons,
        sameStep total _ _ head]
      exact congrArg _ (funext inductionHypothesis)

private theorem amountOf_congr {first second : JsonSnapshot}
    (same : SameReading first second) (key : JsString) :
    amountOf convert key first = amountOf convert key second := by
  rw [amountOf, amountOf, same.payload]

private theorem trail_congr {left right : List JsonSnapshot}
    (pairs : List.Forall₂ SameReading left right) (processId : JsString) :
    trail processId left = trail processId right := by
  induction pairs with
  | nil =>
      rfl
  | @cons first second leftTail rightTail head _ inductionHypothesis =>
      have sameNames : names processId first = names processId second := by
        rw [names, names, head.payload]
      unfold trail at inductionHypothesis ⊢
      rw [List.filter_cons, List.filter_cons, sameNames]
      cases names processId second with
      | true =>
          simp only [if_true, List.map_cons, head.eventType,
            inductionHypothesis]
      | false =>
          exact inductionHypothesis

theorem sameFigures_of_pairs {left right : List JsonSnapshot}
    (pairs : List.Forall₂ SameReading left right) :
    SameFigures convert left right := by
  refine ⟨foldlM_congr ?_ pairs _, foldlM_congr ?_ pairs _,
    trail_congr pairs⟩
  · intro total first second same
    simp only [volumeStep, same.eventType, amountOf_congr same]
  · intro total first second same
    simp only [afcStep, same.eventType, amountOf_congr same]

/-- The payloads of two accepted histories agree. -/
theorem forall₂_payload {left right : List JsonSnapshot}
    (leftAudited : Audited sha256 left)
    (rightAudited : Audited sha256 right)
    (leftStored : ∀ snapshot ∈ left, Stored snapshot)
    (rightStored : ∀ snapshot ∈ right, Stored snapshot)
    (collisionless : Collisionless sha256 (left ++ right))
    (sameHead : left.getLast?.map ExecutionSnapshot.hash =
      right.getLast?.map ExecutionSnapshot.hash) :
    List.Forall₂ (fun first second : JsonSnapshot =>
      first.payload = second.payload) left right := by
  have agree := histories_agree leftAudited rightAudited collisionless
    sameHead
  rw [List.forall₂_iff_zip] at agree ⊢
  refine ⟨agree.1, fun inZip => ?_⟩
  obtain ⟨inLeft, inRight⟩ := List.of_mem_zip inZip
  exact payload_eq_of_text (leftStored _ inLeft) (rightStored _ inRight)
    (agree.2 inZip).2.2.payload

private theorem foldlM_eq_zero
    {step : JsNumber → JsonSnapshot → Option JsNumber}
    {snapshots : List JsonSnapshot}
    (stays : ∀ snapshot ∈ snapshots,
      step JsNumber.zero snapshot = some JsNumber.zero) :
    snapshots.foldlM step JsNumber.zero = some JsNumber.zero := by
  induction snapshots with
  | nil =>
      rfl
  | cons head tail inductionHypothesis =>
      rw [List.foldlM_cons, stays head List.mem_cons_self]
      exact inductionHypothesis fun snapshot member =>
        stays snapshot (List.mem_cons_of_mem head member)

private theorem added_eq_zero {amount : JsNumber}
    (negligible : amount.Negligible) :
    (if amount.isFinite then JsNumber.zero.add amount
      else JsNumber.zero) = JsNumber.zero := by
  cases finite : amount.isFinite with
  | true =>
      exact (JsNumber.zero_add_eq_zero_iff finite).mpr negligible
  | false =>
      rfl

private theorem negligible_of_added {amount : JsNumber}
    (added : (if amount.isFinite then JsNumber.zero.add amount
      else JsNumber.zero) = JsNumber.zero) : amount.Negligible := by
  cases finite : amount.isFinite with
  | true =>
      rw [finite, if_pos rfl] at added
      exact (JsNumber.zero_add_eq_zero_iff finite).mp added
  | false =>
      cases amount with
      | finite negative magnitude isDouble =>
          cases finite
      | _ =>
          exact rfl

theorem Unread.volumeStep_eq {snapshot : JsonSnapshot}
    (unread : Unread convert snapshot) :
    volumeStep convert JsNumber.zero snapshot = some JsNumber.zero := by
  obtain ⟨minted, isMinted, negligible⟩ := unread.minted
  obtain ⟨margin, isMargin, notPositive⟩ := unread.margin
  unfold volumeStep
  split_ifs
  · rw [isMinted, Option.map_some, added_eq_zero negligible]
  · rw [isMargin, Option.map_some]
    simp [notPositive]
  · rfl

theorem Unread.afcStep_eq {snapshot : JsonSnapshot}
    (unread : Unread convert snapshot) :
    afcStep convert JsNumber.zero snapshot = some JsNumber.zero := by
  obtain ⟨amount, isAmount, negligible⟩ := unread.accrual
  unfold afcStep
  split_ifs
  · rw [isAmount, Option.map_some, added_eq_zero negligible]
  · rfl

theorem trail_of_unread {snapshots : List JsonSnapshot}
    (unread : ∀ snapshot ∈ snapshots, Unread convert snapshot)
    (processId : JsString) : trail processId snapshots = [] := by
  rw [trail, List.filter_eq_nil_iff.mpr, List.map_nil]
  intro snapshot member
  simp [(unread snapshot member).process processId]

theorem Unread.of_payload {first second : JsonSnapshot}
    (unread : Unread convert first)
    (samePayload : first.payload = second.payload) :
    Unread convert second := by
  obtain ⟨process, minted, margin, accrual⟩ := unread
  unfold names at process
  unfold amountOf at minted margin accrual
  rw [samePayload] at process minted margin accrual
  exact ⟨process, minted, margin, accrual⟩

private theorem exists_left_of_mem
    {related : JsonSnapshot → JsonSnapshot → Prop}
    {left right : List JsonSnapshot}
    (pairs : List.Forall₂ related left right) {second : JsonSnapshot}
    (member : second ∈ right) : ∃ first ∈ left, related first second := by
  induction pairs with
  | nil =>
      cases member
  | cons head _ inductionHypothesis =>
      rcases List.mem_cons.mp member with rfl | inTail
      · exact ⟨_, List.mem_cons_self, head⟩
      · obtain ⟨first, inside, pair⟩ := inductionHypothesis inTail
        exact ⟨first, List.mem_cons_of_mem _ inside, pair⟩

theorem sameFigures_of_unread {left right : List JsonSnapshot}
    (leftUnread : ∀ snapshot ∈ left, Unread convert snapshot)
    (rightUnread : ∀ snapshot ∈ right, Unread convert snapshot) :
    SameFigures convert left right := by
  refine ⟨?_, ?_, ?_⟩
  · exact (foldlM_eq_zero fun snapshot member =>
      (leftUnread snapshot member).volumeStep_eq).trans
      (foldlM_eq_zero fun snapshot member =>
        (rightUnread snapshot member).volumeStep_eq).symm
  · exact (foldlM_eq_zero fun snapshot member =>
      (leftUnread snapshot member).afcStep_eq).trans
      (foldlM_eq_zero fun snapshot member =>
        (rightUnread snapshot member).afcStep_eq).symm
  · intro processId
    rw [trail_of_unread leftUnread, trail_of_unread rightUnread]

private theorem trail_withType (eventType : String) (processId : JsString)
    (snapshots : List JsonSnapshot) :
    trail processId (snapshots.map (withType eventType)) =
      List.replicate (snapshots.filter (names processId)).length
        eventType := by
  induction snapshots with
  | nil =>
      rfl
  | cons head tail inductionHypothesis =>
      have sameNames : names processId (withType eventType head) =
          names processId head :=
        rfl
      unfold trail at inductionHypothesis ⊢
      rw [List.map_cons, List.filter_cons, List.filter_cons, sameNames]
      cases names processId head with
      | true =>
          simp only [if_true, List.map_cons, inductionHypothesis,
            List.length_cons, List.replicate_succ]
          rfl
      | false =>
          exact inductionHypothesis

/-- Only the snapshot in the middle keeps an event type. -/
def marked (eventType : String) (before : List JsonSnapshot)
    (snapshot : JsonSnapshot) (after : List JsonSnapshot) :
    List JsonSnapshot :=
  before.map (withType "") ++
    withType eventType snapshot :: after.map (withType "")

theorem relabelled_marked (eventType : String)
    (before after : List JsonSnapshot) (snapshot : JsonSnapshot) :
    Relabelled (before ++ snapshot :: after)
      (marked eventType before snapshot after) := by
  have twice : withType "" ∘ withType "" = withType "" :=
    rfl
  unfold Relabelled marked
  rw [List.map_append, List.map_append, List.map_cons, List.map_cons,
    List.map_map, List.map_map, twice]
  rfl

private theorem foldlM_marked
    {step : JsNumber → JsonSnapshot → Option JsNumber}
    (idle : ∀ total snapshot,
      step total (withType "" snapshot) = some total)
    (eventType : String) (before after : List JsonSnapshot)
    (snapshot : JsonSnapshot) :
    (marked eventType before snapshot after).foldlM step JsNumber.zero =
      step JsNumber.zero (withType eventType snapshot) := by
  have stays : ∀ (snapshots : List JsonSnapshot) (total : JsNumber),
      (snapshots.map (withType "")).foldlM step total = some total := by
    intro snapshots
    induction snapshots with
    | nil =>
        exact fun _ => rfl
    | cons head tail inductionHypothesis =>
        intro total
        rw [List.map_cons, List.foldlM_cons, idle]
        exact inductionHypothesis total
  rw [marked, List.foldlM_append, stays before]
  change (step JsNumber.zero (withType eventType snapshot)).bind
    (fun total => (after.map (withType "")).foldlM step total) = _
  simp only [stays after]
  cases step JsNumber.zero (withType eventType snapshot) <;> rfl

/-- Figures that no change of event types alters are those of a history that
nobody reads. -/
theorem unread_of_fixed {left : List JsonSnapshot}
    (fixed : ∀ right, Relabelled left right →
      SameFigures convert left right) :
    ∀ snapshot ∈ left, Unread convert snapshot := by
  intro snapshot member
  obtain ⟨before, after, rfl⟩ := List.append_of_mem member
  have cleared := fixed _
    (relabelled_map (fun _ => "") (before ++ snapshot :: after))
  have isMarked := fun eventType =>
    fixed _ (relabelled_marked eventType before after snapshot)
  have asMarked : (before ++ snapshot :: after).map (withType "") =
      marked "" before snapshot after := by
    rw [marked, List.map_append, List.map_cons]
  have volumeZero : ∀ eventType,
      volumeStep convert JsNumber.zero (withType eventType snapshot) =
        some JsNumber.zero := by
    intro eventType
    have idle : ∀ total snapshot,
        volumeStep convert total (withType "" snapshot) = some total :=
      fun _ _ => rfl
    have figure := (isMarked eventType).volume.symm.trans cleared.volume
    rw [asMarked, totalProcessVolume, totalProcessVolume,
      foldlM_marked idle, foldlM_marked idle, idle] at figure
    exact figure
  have afcZero : ∀ eventType,
      afcStep convert JsNumber.zero (withType eventType snapshot) =
        some JsNumber.zero := by
    intro eventType
    have idle : ∀ total snapshot,
        afcStep convert total (withType "" snapshot) = some total :=
      fun _ _ => rfl
    have figure := (isMarked eventType).afc.symm.trans cleared.afc
    rw [asMarked, totalAfcReserve, totalAfcReserve,
      foldlM_marked idle, foldlM_marked idle, idle] at figure
    exact figure
  refine ⟨?_, ?_, ?_, ?_⟩
  · intro processId
    by_contra isNamed
    have first := (fixed _ (relabelled_map (fun _ => "a")
      (before ++ snapshot :: after))).trails processId
    have second := (fixed _ (relabelled_map (fun _ => "b")
      (before ++ snapshot :: after))).trails processId
    have isListed : snapshot ∈
        (before ++ snapshot :: after).filter (names processId) :=
      List.mem_filter.mpr ⟨member, Bool.of_not_eq_false isNamed⟩
    have nonempty := Nat.ne_of_gt (List.length_pos_of_mem isListed)
    rw [first, trail_withType, trail_withType,
      List.replicate_right_inj nonempty] at second
    exact absurd second (by decide)
  · obtain ⟨minted, isMinted, added⟩ := Option.map_eq_some_iff.mp
      (volumeZero "emission.minted")
    exact ⟨minted, isMinted, negligible_of_added added⟩
  · obtain ⟨margin, isMargin, added⟩ := Option.map_eq_some_iff.mp
      (volumeZero "commission.epoch.finalized")
    refine ⟨margin, isMargin, fun positive => ?_⟩
    cases finite : margin.isFinite with
    | true =>
        simp only [finite, positive, decide_true, Bool.and_self,
          if_true] at added
        have zero := (JsNumber.zero_add_eq_zero_iff finite).mp added
        rw [zero] at positive
        exact lt_irrefl 0 positive
    | false =>
        cases margin with
        | finite negative magnitude isDouble =>
            cases finite
        | _ =>
            exact lt_irrefl 0 positive
  · obtain ⟨amount, isAmount, added⟩ := Option.map_eq_some_iff.mp
      (afcZero "reserve.afc.accrual")
    exact ⟨amount, isAmount, negligible_of_added added⟩

/-! ## When the head hash fixes the figures -/

/-- Every accepted history with the same head hash leads to the same
figures. -/
def FixedByHead (sha256 : JsString → JsString)
    (convert : JsonPayload → Option JsNumber) (left : List JsonSnapshot) :
    Prop :=
  ∀ right, Audited sha256 right → (∀ snapshot ∈ right, Stored snapshot) →
    Collisionless sha256 (left ++ right) →
    left.getLast?.map ExecutionSnapshot.hash =
      right.getLast?.map ExecutionSnapshot.hash →
    SameFigures convert left right

/-- The head hash fixes the figures of an audited history exactly when no
reader could use any of its payloads. Together with the event types it always
fixes them. -/
theorem figures_fixed_iff (sha256 : JsString → JsString)
    (convert : JsonPayload → Option JsNumber) (left : List JsonSnapshot)
    (audited : Audited sha256 left)
    (stored : ∀ snapshot ∈ left, Stored snapshot)
    (collisionless : Collisionless sha256 left) :
    (FixedByHead sha256 convert left ↔
      ∀ snapshot ∈ left, Unread convert snapshot) ∧
    ∀ right, Audited sha256 right →
      (∀ snapshot ∈ right, Stored snapshot) →
      Collisionless sha256 (left ++ right) →
      left.getLast?.map ExecutionSnapshot.hash =
        right.getLast?.map ExecutionSnapshot.hash →
      left.map ExecutionSnapshot.eventType =
        right.map ExecutionSnapshot.eventType →
      SameFigures convert left right := by
  refine ⟨⟨?_, ?_⟩, ?_⟩
  · intro fixed
    refine unread_of_fixed fun right relabelled => ?_
    refine fixed right (relabelled.audited audited) ?_
      (relabelled.collisionless collisionless) relabelled.sameHead
    exact (relabelled.forall_iff fun _ => Iff.rfl).mp stored
  · intro unread right rightAudited rightStored both sameHead
    have payloads := forall₂_payload audited rightAudited stored
      rightStored both sameHead
    refine sameFigures_of_unread unread ?_
    intro snapshot member
    obtain ⟨twin, twinMember, samePayload⟩ :=
      exists_left_of_mem payloads member
    exact (unread twin twinMember).of_payload samePayload
  · intro right rightAudited rightStored both sameHead sameTypes
    have payloads := forall₂_payload audited rightAudited stored
      rightStored both sameHead
    have types : List.Forall₂ (· = ·)
        (left.map ExecutionSnapshot.eventType)
        (right.map ExecutionSnapshot.eventType) := by
      rw [List.forall₂_eq_eq_eq]
      exact sameTypes
    rw [List.forall₂_map_left_iff, List.forall₂_map_right_iff] at types
    refine sameFigures_of_pairs ?_
    rw [List.forall₂_iff_zip] at payloads types ⊢
    exact ⟨payloads.1, fun inZip => ⟨types.2 inZip, payloads.2 inZip⟩⟩

private theorem isObject_stored {value : JsonPayload}
    (isObject : IsObject numberFormat value) :
    IsObject numberFormat (simpleJson.read (simpleJson.write value)) := by
  obtain ⟨members, isTree⟩ := isObject
  have canonical := canonical_treeOf numberFormat false value _ isTree
  have isRead : simpleJson.read (simpleJson.write value) =
      valueOf numberFormat (.object members) := by
    simp only [simpleJson, stringify, isTree, Option.map_some,
      Option.bind_some, parse_print canonical, Option.getD_some]
  exact ⟨members, by rw [isRead, treeOf_valueOf canonical]⟩

/-- The payload of a minting record, as it is read from the column. -/
@[irreducible]
def mintedPayload : JsonPayload :=
  simpleJson.read (simpleJson.write (.object
    [(utf16 "processId", .string (utf16 "p")),
      (utf16 "minted", .number (numberValue false 1 zero_le_one))]))

/-- The digest of its text in front of `1`. -/
def mintedDigest : JsString :=
  utf16
    "7b6d10c63a8ce7fc29157621e2bf97f4adda5bf5ed1b4f8076a52770604950b2"

/-- The digest of the same text after that digest, in front of `2`. -/
def nextDigest : JsString :=
  utf16
    "c900c694f7344696ae84a00a41a195cb9da038f2adc537c31a15af78fddb0daf"

def mintedText : JsString :=
  utf16 "\x7b\"processId\":\"p\",\"minted\":1\x7d1"

def nextText : JsString :=
  utf16 "\x7b\"processId\":\"p\",\"minted\":1\x7d" ++ mintedDigest ++
    utf16 "2"

def mintedSha256 (text : JsString) : JsString :=
  if text = mintedText then mintedDigest
  else if text = nextText then nextDigest
  else List.replicate 64 48

/-- One minting record under a given event type. -/
def mintedHistory (eventType : String) : List JsonSnapshot :=
  [⟨1, eventType, mintedPayload, 1, [], mintedDigest⟩]

private theorem isObject_mintedPayload :
    IsObject numberFormat mintedPayload := by
  rw [mintedPayload]
  exact isObject_stored ⟨_, rfl⟩

theorem audited_mintedHistory (eventType : String) :
    Audited mintedSha256 (mintedHistory eventType) := by
  have renamed : Relabelled (mintedHistory "emission.minted")
      (mintedHistory eventType) :=
    rfl
  refine renamed.audited
    ⟨List.cons_ne_nil _ _, ?_, by decide, ?_, by decide +kernel⟩
  · exact List.forall_mem_singleton.mpr isObject_mintedPayload
  · exact List.forall_mem_singleton.mpr (by decide +kernel)

theorem stored_mintedHistory (eventType : String) :
    ∀ snapshot ∈ mintedHistory eventType, Stored snapshot := by
  have isRead : ∃ value,
      mintedPayload = simpleJson.read (simpleJson.write value) := by
    rw [mintedPayload]
    exact ⟨_, rfl⟩
  exact List.forall_mem_singleton.mpr isRead

theorem collisionless_mintedHistory (eventType : String) :
    Collisionless mintedSha256 (mintedHistory eventType) := by
  refine ⟨?_, ?_⟩
  · intro text
    unfold mintedSha256
    split_ifs
    · decide +kernel
    · decide +kernel
    · rw [List.length_replicate]
  · rintro _ ⟨first, firstMember, rfl⟩ _ ⟨second, secondMember, rfl⟩ _
    rw [List.mem_singleton.mp firstMember,
      List.mem_singleton.mp secondMember]

/-- Two linked records with the same payload. -/
def linkedHistory : List JsonSnapshot :=
  mintedHistory "emission.minted" ++
    [⟨2, "commission.epoch.finalized", mintedPayload, 2, mintedDigest,
      nextDigest⟩]

private theorem payload_of_mem_linkedHistory :
    ∀ snapshot ∈ linkedHistory, snapshot.payload = mintedPayload := by
  simp [linkedHistory, mintedHistory]

theorem audited_linkedHistory : Audited mintedSha256 linkedHistory := by
  refine ⟨List.cons_ne_nil _ _, ?_, by decide, by decide +kernel,
    by decide +kernel⟩
  intro snapshot member
  rw [payload_of_mem_linkedHistory snapshot member]
  exact isObject_mintedPayload

theorem stored_linkedHistory :
    ∀ snapshot ∈ linkedHistory, Stored snapshot := by
  intro snapshot member
  rw [Stored, payload_of_mem_linkedHistory snapshot member, mintedPayload]
  exact ⟨_, rfl⟩

theorem collisionless_linkedHistory :
    Collisionless mintedSha256 linkedHistory := by
  refine ⟨(collisionless_mintedHistory "").length, ?_⟩
  have texts : ∀ snapshot ∈ linkedHistory,
      hashedText snapshot = mintedText ∨ hashedText snapshot = nextText := by
    decide +kernel
  have different : mintedSha256 mintedText ≠ mintedSha256 nextText := by
    decide +kernel
  refine Set.InjOn.mono ?_
    (Set.injOn_pair.mpr fun same => absurd same different)
  rintro _ ⟨snapshot, member, rfl⟩
  exact texts snapshot member

theorem mintedHistory_fixed_iff :
    (FixedByHead mintedSha256 (fun _ => none) linkedHistory ↔
      ∀ snapshot ∈ linkedHistory, Unread (fun _ => none) snapshot) ∧
    ∀ right, Audited mintedSha256 right →
      (∀ snapshot ∈ right, Stored snapshot) →
      Collisionless mintedSha256 (linkedHistory ++ right) →
      linkedHistory.getLast?.map ExecutionSnapshot.hash =
        right.getLast?.map ExecutionSnapshot.hash →
      linkedHistory.map ExecutionSnapshot.eventType =
        right.map ExecutionSnapshot.eventType →
      SameFigures (fun _ => none) linkedHistory right :=
  figures_fixed_iff mintedSha256 (fun _ => none) linkedHistory
    audited_linkedHistory stored_linkedHistory collisionless_linkedHistory

/-- A renamed minting record is accepted and drops out of the reserve. -/
theorem renamed_record_is_accepted :
    ¬ ∀ (sha256 : JsString → JsString)
      (convert : JsonPayload → Option JsNumber)
      (left right : List JsonSnapshot),
      Audited sha256 left → Audited sha256 right →
      (∀ snapshot ∈ left, Stored snapshot) →
      (∀ snapshot ∈ right, Stored snapshot) →
      Collisionless sha256 (left ++ right) →
      left.getLast?.map ExecutionSnapshot.hash =
        right.getLast?.map ExecutionSnapshot.hash →
      SameFigures convert left right := by
  intro fixed
  have renamed : Relabelled (mintedHistory "emission.minted")
      (mintedHistory "renamed") :=
    rfl
  have same := fixed mintedSha256 (fun _ => none)
    (mintedHistory "emission.minted") (mintedHistory "renamed")
    (audited_mintedHistory _) (audited_mintedHistory _)
    (stored_mintedHistory _) (stored_mintedHistory _)
    (renamed.collisionless (collisionless_mintedHistory _))
    renamed.sameHead
  have different :
      totalProcessVolume (fun _ => none)
          (mintedHistory "emission.minted") ≠
        totalProcessVolume (fun _ => none) (mintedHistory "renamed") := by
    decide +kernel
  exact different same.volume

end ArosParadigm.AuditedFigures
