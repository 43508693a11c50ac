import ArosParadigm.DeployedLedgers
import ArosParadigm.Payouts
import ArosParadigm.ValueGate
import ArosParadigm.WorkRecord

/-!
# What the records rest on

A verdict, a mint, a settled epoch and a release are recorded under conditions
that a call checks on what the store has told it before. As long as calls keep
to these conditions, NodeChain backs each such record by earlier ones, and the
rows of the database repeat what NodeChain says.
-/

namespace ArosParadigm

open Await

/-- An event of the process stands on NodeChain. -/
def Captured (history : List Snapshot) (processId eventType : String) :
    Prop :=
  ∃ snapshot ∈ history, World.Captures snapshot processId eventType

/-- The row repeats the verdict that PoT recorded. -/
def PotVerdict.Corroborated (history : List Snapshot)
    (row : PotVerdict) : Prop :=
  ∃ snapshot ∈ history,
    snapshot.eventType = "pot.verified" ∧
      snapshot.payload =
        .potVerified row.processId row.verified row.reasons ∧
      snapshot.sequenceId = row.snapshotSequenceId

/-- An active row repeats the record of the activation. -/
def ReleasePhase.Corroborated (history : List Snapshot)
    (row : ReleasePhase) : Prop :=
  row = .inactive ∨
    ∃ activatedAt reserveIndex velocity threshold target,
      row = ⟨true, some activatedAt, some reserveIndex, some velocity⟩ ∧
        ∃ snapshot ∈ history,
          snapshot.eventType = "release.activated" ∧
            snapshot.payload =
              .releaseActivated reserveIndex velocity threshold target

/-- The record that an entry of a distribution goes with. -/
def DistributionEntry.Receipt (entry : DistributionEntry)
    (eventType : String) (payload : Payload) : Prop :=
  if entry.reason = Commission.reasonMargin then
    eventType = "reserve.afc.accrual" ∧ payload = .afcAccrual entry.amount
  else
    eventType = "node.payment.received" ∧
      ∃ weight,
        payload = .paymentReceived entry.nodeId entry.amount weight

/-- Every entry has its record on NodeChain. -/
def Receipted (history : List Snapshot)
    (entries : List DistributionEntry) : Prop :=
  ∀ entry ∈ entries, ∃ snapshot ∈ history,
    entry.Receipt snapshot.eventType snapshot.payload

/-- An epoch is open and undistributed, or finalized with a distribution that
NodeChain has receipts for. -/
def Epoch.Corroborated (history : List Snapshot) (row : Epoch) : Prop :=
  (row.status = .opened ∧ row.distributionLog = [] ∧
      row.operationalMargin = 0) ∨
    (row.status = .finalized ∧ Receipted history row.distributionLog ∧
      ∃ weights total, (weights.map Prod.fst).Nodup ∧
        row.distributionLog = Commission.distributionOf weights total ∧
        row.operationalMargin = total - Commission.paidOf weights total)

/-- What a snapshot rests on. -/
def Supports (earlier : List Snapshot) (snapshot : Snapshot) : Prop :=
  match snapshot.payload with
  | .potVerified processId verified reasons =>
      snapshot.eventType = "pot.verified" ∧
        ∃ captured,
          (∀ event ∈ captured, Captured earlier processId event) ∧
            verified = Pot.verifiedOf (Pot.criteriaResult captured true) ∧
            reasons = Pot.failureReasons
              (Pot.criteriaResult captured true) captured
  | .emissionMinted processId _ =>
      snapshot.eventType = "emission.minted" ∧
        ∃ verdict ∈ earlier, verdict.eventType = "pot.verified" ∧
          verdict.payload = .potVerified processId 1 []
  | .epochFinalized epochNumber totalFees margin paid reconciled log =>
      snapshot.eventType = "commission.epoch.finalized" ∧
        Receipted earlier log ∧
        ∃ row weights, (weights.map Prod.fst).Nodup ∧
          Payload.epochFinalized epochNumber totalFees margin paid
            reconciled log =
              Commission.finalizedPayload row epochNumber weights
  | .releaseActivated reserveIndex velocity threshold target =>
      snapshot.eventType = "release.activated" ∧
        threshold < reserveIndex ∧ target < velocity
  | _ => True

section Later

variable {earlier later : List Snapshot}

theorem Captured.mono {processId eventType : String}
    (captured : Captured earlier processId eventType)
    (grown : earlier ⊆ later) : Captured later processId eventType := by
  obtain ⟨snapshot, member, captures⟩ := captured
  exact ⟨snapshot, grown member, captures⟩

theorem PotVerdict.Corroborated.mono {row : PotVerdict}
    (corroborated : row.Corroborated earlier) (grown : earlier ⊆ later) :
    row.Corroborated later := by
  obtain ⟨snapshot, member, records⟩ := corroborated
  exact ⟨snapshot, grown member, records⟩

theorem ReleasePhase.Corroborated.mono {row : ReleasePhase}
    (corroborated : row.Corroborated earlier) (grown : earlier ⊆ later) :
    row.Corroborated later := by
  rcases corroborated with isInactive | ⟨activatedAt, reserveIndex,
    velocity, threshold, target, isActive, snapshot, member, records⟩
  · exact Or.inl isInactive
  · exact Or.inr ⟨activatedAt, reserveIndex, velocity, threshold, target,
      isActive, snapshot, grown member, records⟩

theorem Receipted.mono {entries : List DistributionEntry}
    (receipted : Receipted earlier entries) (grown : earlier ⊆ later) :
    Receipted later entries := by
  intro entry member
  obtain ⟨snapshot, inside, receipt⟩ := receipted entry member
  exact ⟨snapshot, grown inside, receipt⟩

theorem Epoch.Corroborated.mono {row : Epoch}
    (corroborated : row.Corroborated earlier) (grown : earlier ⊆ later) :
    row.Corroborated later := by
  rcases corroborated with isOpen | ⟨isFinalized, receipted, distributed⟩
  · exact Or.inl isOpen
  · exact Or.inr ⟨isFinalized, receipted.mono grown, distributed⟩

end Later

/-- The calls answered before appended the record of every entry. -/
def ReceiptedIn (past : List (Exchange signature))
    (entries : List DistributionEntry) : Prop :=
  ∀ entry ∈ entries,
    (entry.reason = Commission.reasonMargin ∧ ∃ snapshot,
      (⟨.append "reserve.afc.accrual" (.afcAccrual entry.amount),
        snapshot⟩ : Exchange signature) ∈ past) ∨
    (entry.reason ≠ Commission.reasonMargin ∧ ∃ node snapshot,
      (⟨.findNode entry.nodeId, some node⟩ : Exchange signature) ∈ past ∧
        (⟨.append "node.payment.received" (.paymentReceived node.id
          entry.amount node.weight), snapshot⟩ : Exchange signature)
            ∈ past)

theorem ReceiptedIn.mono {past later : List (Exchange signature)}
    {entries : List DistributionEntry}
    (receipted : ReceiptedIn past entries) (grown : past ⊆ later) :
    ReceiptedIn later entries := by
  intro entry member
  rcases receipted entry member with ⟨isMargin, snapshot, appended⟩ |
    ⟨isWork, node, snapshot, read, appended⟩
  · exact Or.inl ⟨isMargin, snapshot, grown appended⟩
  · exact Or.inr ⟨isWork, node, snapshot, grown read, grown appended⟩

theorem ReceiptedIn.cons {past : List (Exchange signature)}
    {entries : List DistributionEntry}
    (receipted : ReceiptedIn past entries)
    (exchange : Exchange signature) :
    ReceiptedIn (exchange :: past) entries :=
  receipted.mono (List.subset_cons_self _ _)

theorem ReceiptedIn.append {past : List (Exchange signature)}
    {front back : List DistributionEntry}
    (first : ReceiptedIn past front) (second : ReceiptedIn past back) :
    ReceiptedIn past (front ++ back) := by
  intro entry member
  rcases List.mem_append.mp member with inFront | inBack
  · exact first entry inFront
  · exact second entry inBack

theorem receiptedIn_nil (past : List (Exchange signature)) :
    ReceiptedIn past [] :=
  fun _ member => nomatch member

/-- What the calls answered before must have told for a call to be made. -/
def Justifies (env : Environment) (past : List (Exchange signature)) :
    Call → Prop
  | .append eventType (.potVerified processId verified reasons) =>
      eventType = "pot.verified" ∧
        ∃ captured history,
          (⟨.readCaptured processId, captured⟩ : Exchange signature)
              ∈ past ∧
            (⟨.listSnapshots, history⟩ : Exchange signature) ∈ past ∧
            verified = Pot.verifiedOf (Pot.criteriaResult captured
              (NodeChain.reconstruct env.hasher history).ok) ∧
            reasons = Pot.failureReasons (Pot.criteriaResult captured
              (NodeChain.reconstruct env.hasher history).ok) captured
  | .append eventType (.emissionMinted processId _) =>
      eventType = "emission.minted" ∧
        ∃ row, row.verified = 1 ∧
          (⟨.findVerdict processId, some row⟩ : Exchange signature) ∈ past
  | .append eventType (.epochFinalized epochNumber totalFees margin paid
      reconciled log) =>
      eventType = "commission.epoch.finalized" ∧ ReceiptedIn past log ∧
        ∃ row weights, (weights.map Prod.fst).Nodup ∧
          Payload.epochFinalized epochNumber totalFees margin paid
            reconciled log =
              Commission.finalizedPayload row epochNumber weights
  | .append eventType (.releaseActivated reserveIndex velocity threshold
      target) =>
      eventType = "release.activated" ∧ threshold < reserveIndex ∧
        target < velocity
  | .saveVerdict row =>
      ∃ snapshot, snapshot.sequenceId = row.snapshotSequenceId ∧
        (⟨.append "pot.verified" (.potVerified row.processId row.verified
          row.reasons), snapshot⟩ : Exchange signature) ∈ past
  | .saveEpoch row =>
      (∃ epochNumber startTime totalFees,
          row = { Commission.freshEpoch epochNumber startTime with
            totalFees := totalFees }) ∨
        (∃ epochNumber stored totalFees,
          row = { stored with totalFees := totalFees } ∧
            (⟨.findEpoch epochNumber, some stored⟩ : Exchange signature)
              ∈ past) ∨
        (∃ stored weights endTime, (weights.map Prod.fst).Nodup ∧
          row = Commission.finalizedRow stored weights endTime ∧
            ReceiptedIn past row.distributionLog)
  | .saveNode row =>
      (∃ id type, row = Nodes.freshNode id type) ∨
        ∃ id stored success, row = Nodes.worked stored success ∧
          (⟨.findNode id, some stored⟩ : Exchange signature) ∈ past
  | .savePhase row =>
      row = .inactive ∨
        ∃ activatedAt reserveIndex velocity threshold target snapshot,
          row = ⟨true, some activatedAt, some reserveIndex,
              some velocity⟩ ∧
            (⟨.append "release.activated" (.releaseActivated reserveIndex
              velocity threshold target), snapshot⟩ : Exchange signature)
                ∈ past
  | .markCaptured processId eventType =>
      ∃ data validatorId snapshot,
        (⟨.append eventType (.captured processId data validatorId),
          snapshot⟩ : Exchange signature) ∈ past
  | _ => True

/-- What an answered call tells until the next restart. -/
def Tells (env : Environment) (history : List Snapshot) :
    Exchange signature → Prop
  | ⟨.append eventType payload, snapshot⟩ =>
      snapshot ∈ history ∧ snapshot.eventType = eventType ∧
        snapshot.payload = payload
  | ⟨.listSnapshots, seen⟩ =>
      (NodeChain.reconstruct env.hasher seen).ok = true
  | ⟨.findVerdict processId, some row⟩ =>
      row.processId = processId ∧ row.Corroborated history
  | ⟨.readCaptured processId, captured⟩ =>
      ∀ event ∈ captured, Captured history processId event
  | ⟨.findNode id, some row⟩ => row.id = id ∧ Nodes.Sound row
  | ⟨.findEpoch _, some row⟩ => row.Corroborated history
  | _ => True

theorem Tells.mono {env : Environment} {earlier later : List Snapshot}
    {exchange : Exchange signature}
    (tells : Tells env earlier exchange) (grown : earlier ⊆ later) :
    Tells env later exchange := by
  obtain ⟨request, reply⟩ := exchange
  cases request
  case append =>
    exact ⟨grown tells.1, tells.2⟩
  case findVerdict =>
    cases reply with
    | none =>
        trivial
    | some row =>
        exact ⟨tells.1, tells.2.mono grown⟩
  case readCaptured =>
    exact fun event member => (tells event member).mono grown
  case findNode =>
    cases reply <;> exact tells
  case findEpoch =>
    cases reply with
    | none =>
        trivial
    | some row =>
        exact Epoch.Corroborated.mono tells grown
  all_goals exact tells

/-! ## The store is corroborated -/

/-- NodeChain backs its own records, the rows of the database, and the memory
of captured events. -/
structure World.Corroborated (env : Environment) (world : World) :
    Prop where
  standing : world.Standing env
  grounded : Grounded Supports world.history
  captured : ∀ processId eventType,
    eventType ∈ world.captured processId →
      Captured world.history processId eventType
  verdicts : ∀ row ∈ world.verdicts.rows, row.Corroborated world.history
  nodes : ∀ row ∈ world.nodes.rows, Nodes.Sound row
  phase : ∀ row, world.phase = some row → row.Corroborated world.history
  epochs : ∀ row ∈ world.epochs.rows, row.Corroborated world.history

/-- A recorded verdict is the one that the captured events give. -/
theorem Supports.of_potVerified {earlier : List Snapshot}
    {snapshot : Snapshot} (supports : Supports earlier snapshot)
    {processId : String} {verified : Fin 2} {reasons : List String}
    (records : snapshot.payload =
      .potVerified processId verified reasons) :
    ∃ captured,
      (∀ event ∈ captured, Captured earlier processId event) ∧
        verified = Pot.verifiedOf (Pot.criteriaResult captured true) ∧
        reasons = Pot.failureReasons
          (Pot.criteriaResult captured true) captured := by
  unfold Supports at supports
  rw [records] at supports
  exact supports.2

namespace World

variable {env : Environment} {world : World}

theorem corroborated_initial : initial.Corroborated env where
  standing := standing_initial
  grounded := .nil
  captured := nofun
  verdicts := nofun
  nodes := nofun
  phase := nofun
  epochs := nofun

namespace Corroborated

/-- A step that leaves NodeChain and what it backs alone. -/
theorem of_same {after : World} (corroborated : world.Corroborated env)
    (standing : after.Standing env)
    (sameHistory : after.history = world.history)
    (sameCaptured : after.captured = world.captured)
    (sameVerdicts : after.verdicts = world.verdicts)
    (sameNodes : after.nodes = world.nodes)
    (samePhase : after.phase = world.phase)
    (sameEpochs : after.epochs = world.epochs) :
    after.Corroborated env where
  standing := standing
  grounded := sameHistory ▸ corroborated.grounded
  captured := by
    rw [sameHistory, sameCaptured]
    exact corroborated.captured
  verdicts := by
    rw [sameHistory, sameVerdicts]
    exact corroborated.verdicts
  nodes := sameNodes ▸ corroborated.nodes
  phase := by
    rw [sameHistory, samePhase]
    exact corroborated.phase
  epochs := by
    rw [sameHistory, sameEpochs]
    exact corroborated.epochs

/-- A restart forgets the captured events and nothing else. -/
theorem restart (corroborated : world.Corroborated env) :
    world.restart.Corroborated env where
  standing := corroborated.standing.restart
  grounded := corroborated.grounded
  captured := nofun
  verdicts := corroborated.verdicts
  nodes := corroborated.nodes
  phase := corroborated.phase
  epochs := corroborated.epochs

theorem append (corroborated : world.Corroborated env)
    {eventType : String} {payload : Payload}
    (supports :
      Supports world.history (world.nextSnapshot env eventType payload)) :
    (world.append env eventType payload).Corroborated env := by
  have grown :
      world.history ⊆ (world.append env eventType payload).history := by
    rw [history_append]
    exact List.subset_append_left _ _
  exact {
    standing := corroborated.standing.append eventType payload
    grounded := by
      rw [history_append]
      exact corroborated.grounded.append_singleton supports
    captured := fun processId event member =>
      (corroborated.captured processId event member).mono grown
    verdicts := fun row member =>
      (corroborated.verdicts row member).mono grown
    nodes := corroborated.nodes
    phase := fun row found => (corroborated.phase row found).mono grown
    epochs := fun row member =>
      (corroborated.epochs row member).mono grown }

theorem saveVerdict (corroborated : world.Corroborated env)
    {row : PotVerdict} (backed : row.Corroborated world.history) :
    (world.saveVerdict row).Corroborated env :=
  { standing := corroborated.standing.of_same rfl rfl (Nat.le_refl _)
    grounded := corroborated.grounded
    captured := corroborated.captured
    verdicts := by
      intro tested member
      rcases Keyed.eq_or_mem_of_mem_upsert _ member with rfl | earlier
      · exact backed
      · exact corroborated.verdicts tested earlier
    nodes := corroborated.nodes
    phase := corroborated.phase
    epochs := corroborated.epochs }

theorem saveEpoch (corroborated : world.Corroborated env) {row : Epoch}
    (backed : row.Corroborated world.history) :
    (world.saveEpoch row).Corroborated env :=
  { standing := corroborated.standing.of_same rfl rfl (Nat.le_refl _)
    grounded := corroborated.grounded
    captured := corroborated.captured
    verdicts := corroborated.verdicts
    nodes := corroborated.nodes
    phase := corroborated.phase
    epochs := by
      intro tested member
      rcases Keyed.eq_or_mem_of_mem_upsert _ member with rfl | earlier
      · exact backed
      · exact corroborated.epochs tested earlier }

theorem saveNode (corroborated : world.Corroborated env)
    {row : NodeEntity} (sound : Nodes.Sound row) :
    (world.saveNode row).Corroborated env :=
  { standing := corroborated.standing.of_same rfl rfl (Nat.le_refl _)
    grounded := corroborated.grounded
    captured := corroborated.captured
    verdicts := corroborated.verdicts
    nodes := by
      intro tested member
      rcases Keyed.eq_or_mem_of_mem_upsert _ member with rfl | earlier
      · exact sound
      · exact corroborated.nodes tested earlier
    phase := corroborated.phase
    epochs := corroborated.epochs }

theorem savePhase (corroborated : world.Corroborated env)
    {row : ReleasePhase} (backed : row.Corroborated world.history) :
    (world.savePhase row).Corroborated env :=
  { standing := corroborated.standing.of_same rfl rfl (Nat.le_refl _)
    grounded := corroborated.grounded
    captured := corroborated.captured
    verdicts := corroborated.verdicts
    nodes := corroborated.nodes
    phase := by
      intro tested found
      obtain rfl : row = tested := Option.some_inj.mp found
      exact backed
    epochs := corroborated.epochs }

theorem mark (corroborated : world.Corroborated env)
    {processId eventType : String}
    (captured : Captured world.history processId eventType) :
    (world.mark processId eventType).Corroborated env :=
  { standing := corroborated.standing.of_same rfl rfl (Nat.le_refl _)
    grounded := corroborated.grounded
    captured := by
      intro tested event member
      rw [mark_captured, Function.update_apply] at member
      by_cases same : tested = processId
      · subst same
        rw [if_pos rfl] at member
        by_cases known : eventType ∈ world.captured tested
        · rw [if_pos known] at member
          exact corroborated.captured tested event member
        · rw [if_neg known] at member
          rcases List.mem_append.mp member with earlier | last
          · exact corroborated.captured tested event earlier
          · rw [List.mem_singleton.mp last]
            exact captured
      · rw [if_neg same] at member
        exact corroborated.captured tested event member
    verdicts := corroborated.verdicts
    nodes := corroborated.nodes
    phase := corroborated.phase
    epochs := corroborated.epochs }

end Corroborated

end World

section Steps

variable {env : Environment} {world after : World}
variable {past : List (Exchange signature)}

/-- The records of a call that was told so stand on NodeChain. -/
private theorem receipted_of_told {entries : List DistributionEntry}
    (told : ∀ exchange ∈ past, Tells env world.history exchange)
    (receipted : ReceiptedIn past entries) :
    Receipted world.history entries := by
  intro entry member
  rcases receipted entry member with ⟨isMargin, snapshot, appended⟩ |
    ⟨isWork, node, snapshot, read, appended⟩
  · obtain ⟨inside, records⟩ := told _ appended
    refine ⟨snapshot, inside, ?_⟩
    rw [DistributionEntry.Receipt, if_pos isMargin]
    exact records
  · obtain ⟨inside, isEvent, records⟩ := told _ appended
    obtain ⟨named, _⟩ := told _ read
    refine ⟨snapshot, inside, ?_⟩
    rw [DistributionEntry.Receipt, if_neg isWork, ← named]
    exact ⟨isEvent, node.weight, records⟩

private theorem recorded_of_verified
    (corroborated : world.Corroborated env) {row : PotVerdict}
    (backed : row.Corroborated world.history)
    (verified : row.verified = 1) :
    ∃ verdict ∈ world.history, verdict.eventType = "pot.verified" ∧
      verdict.payload = .potVerified row.processId 1 [] := by
  obtain ⟨verdict, member, isVerdict, records, _⟩ := backed
  obtain ⟨earlier, _, supports⟩ := corroborated.grounded.of_mem member
  obtain ⟨captured, _, computed, reasons⟩ :=
    supports.of_potVerified records
  rw [verified] at computed
  have none := (Pot.complete_of_verifiedOf computed.symm).2
  rw [verified, reasons, none] at records
  exact ⟨verdict, member, isVerdict, records⟩

theorem supports_of_justifies (corroborated : world.Corroborated env)
    (told : ∀ exchange ∈ past, Tells env world.history exchange)
    {eventType : String} {payload : Payload}
    (justified : Justifies env past (.append eventType payload)) :
    Supports world.history (world.nextSnapshot env eventType payload) := by
  change Supports world.history ⟨_, eventType, payload, _, _, _⟩
  cases payload
  case potVerified processId verified reasons =>
    obtain ⟨rfl, captured, history, read, listed, rfl, rfl⟩ := justified
    have intact : (NodeChain.reconstruct env.hasher history).ok = true :=
      told _ listed
    rw [intact]
    exact ⟨rfl, captured, told _ read, rfl, rfl⟩
  case emissionMinted processId minted =>
    obtain ⟨rfl, row, verified, read⟩ := justified
    obtain ⟨rfl, backed⟩ := told _ read
    exact ⟨rfl, recorded_of_verified corroborated backed verified⟩
  case epochFinalized epochNumber totalFees margin paid reconciled log =>
    obtain ⟨rfl, receipted, distributed⟩ := justified
    exact ⟨rfl, receipted_of_told told receipted, distributed⟩
  case releaseActivated reserveIndex velocity threshold target =>
    exact justified
  all_goals trivial

theorem World.Corroborated.step (corroborated : world.Corroborated env)
    (told : ∀ exchange ∈ past, Tells env world.history exchange)
    {request : Call} (justified : Justifies env past request)
    {reply : request.Reply}
    (answered : machine env request world = some (reply, after)) :
    after.Corroborated env := by
  have standing := corroborated.standing.step answered
  cases request
  case append eventType payload =>
    cases answered
    exact corroborated.append
      (supports_of_justifies corroborated told justified)
  case saveVerdict row =>
    cases answered
    obtain ⟨snapshot, numbered, appended⟩ := justified
    obtain ⟨member, isVerdict, records⟩ := told _ appended
    exact corroborated.saveVerdict
      ⟨snapshot, member, isVerdict, records, numbered⟩
  case saveEpoch row =>
    cases answered
    refine corroborated.saveEpoch ?_
    rcases justified with ⟨epochNumber, startTime, totalFees, rfl⟩ |
      ⟨epochNumber, stored, totalFees, rfl, read⟩ |
      ⟨stored, weights, endTime, unique, rfl, receipted⟩
    · exact Or.inl ⟨rfl, rfl, rfl⟩
    · have backed : stored.Corroborated world.history := told _ read
      exact backed
    · exact Or.inr ⟨rfl, receipted_of_told told receipted, weights, _,
        unique, rfl, rfl⟩
  case saveNode row =>
    cases answered
    refine corroborated.saveNode ?_
    rcases justified with ⟨id, type, rfl⟩ |
      ⟨id, stored, success, rfl, read⟩
    · exact Nodes.sound_freshNode id type
    · have sound : Nodes.Sound stored := (told _ read).2
      exact sound.worked success
  case savePhase row =>
    cases answered
    refine corroborated.savePhase ?_
    rcases justified with isInactive | ⟨activatedAt, reserveIndex,
      velocity, threshold, target, snapshot, isActive, appended⟩
    · exact Or.inl isInactive
    · obtain ⟨member, records⟩ := told _ appended
      exact Or.inr ⟨activatedAt, reserveIndex, velocity, threshold,
        target, isActive, snapshot, member, records⟩
  case markCaptured processId eventType =>
    cases answered
    obtain ⟨data, validatorId, snapshot, appended⟩ := justified
    obtain ⟨member, isEvent, records⟩ := told _ appended
    exact corroborated.mark
      ⟨snapshot, member, isEvent, data, validatorId, records⟩
  case claimInitialization =>
    obtain ⟨_, rfl⟩ := eq_of_claimInitialization answered
    exact corroborated.of_same standing rfl rfl rfl rfl rfl rfl
  case awaitInitialization =>
    obtain rfl := eq_of_awaitInitialization answered
    exact corroborated
  all_goals
    cases answered
    exact corroborated.of_same standing rfl rfl rfl rfl rfl rfl

theorem history_subset_of_answered {request : Call}
    {reply : request.Reply}
    (answered : machine env request world = some (reply, after)) :
    world.history ⊆ after.history := by
  rw [history_of_answered answered]
  exact List.subset_append_left _ _

theorem World.Corroborated.tells (corroborated : world.Corroborated env)
    {request : Call} {reply : request.Reply}
    (answered : machine env request world = some (reply, after)) :
    Tells env after.history ⟨request, reply⟩ := by
  cases request
  case append eventType payload =>
    cases answered
    refine ⟨?_, rfl, rfl⟩
    rw [World.history_append]
    exact List.mem_append_right _ List.mem_cons_self
  case listSnapshots =>
    cases answered
    exact corroborated.standing.reconstruct
  case findVerdict processId =>
    cases answered
    cases found : world.verdicts.find? processId with
    | none =>
        trivial
    | some row =>
        exact ⟨Keyed.Table.key_of_find? found,
          corroborated.verdicts row (List.mem_of_find?_eq_some found)⟩
  case readCaptured processId =>
    cases answered
    exact corroborated.captured processId
  case findNode id =>
    cases answered
    cases found : world.nodes.find? id with
    | none =>
        trivial
    | some row =>
        exact ⟨Keyed.Table.key_of_find? found,
          corroborated.nodes row (List.mem_of_find?_eq_some found)⟩
  case findEpoch epochNumber =>
    cases answered
    cases found : world.epochs.find? epochNumber with
    | none =>
        trivial
    | some row =>
        exact corroborated.epochs row (List.mem_of_find?_eq_some found)
  all_goals trivial

end Steps

/-- Corroboration in operation. -/
def corroborationGuard (env : Environment) (admits : PublicCall → Prop) :
    Guarded (deployment env admits) (Justifies env) where
  invariant := World.Corroborated env
  knows past world := ∀ exchange ∈ past, Tells env world.history exchange
  begins _ _ _ member := nomatch member
  answers past request now reply after corroborated told justified := by
    intro answered
    have answered : machine env request now = some (reply, after) :=
      answered
    have grown := history_subset_of_answered answered
    refine ⟨corroborated.step told justified answered, ?_,
      fun _ known exchange member => (known exchange member).mono grown⟩
    intro exchange member
    rcases List.mem_cons.mp member with rfl | earlier
    · exact corroborated.tells answered
    · exact (told exchange earlier).mono grown
  breaks request now after corroborated broke := by
    have breaks : Breaks request now after := broke
    have standing := corroborated.standing.of_breaks breaks
    rcases breaks.eq_or_drawn with rfl | rfl | rfl <;>
      exact ⟨corroborated.of_same standing rfl rfl rfl rfl rfl rfl,
        fun _ => id⟩
  restarts _ corroborated := corroborated.restart

end ArosParadigm
