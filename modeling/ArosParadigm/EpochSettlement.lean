import ArosParadigm.Restart

/-!
# The settlement of an epoch

What `finalizeEpoch` is specified to distribute: three quarters of the pool by
confirmed work, the rest to the reserve, and everything to the reserve when
there is no weight. The computation with its maps, its cache and its payment
loop meets this on every open epoch.
-/

namespace ArosParadigm.EpochSettlement

open Await Commission

/-- The participations of an epoch in processes with `verified` 1. -/
def confirmedEntries (world : World) (epochNumber : ℚ) :
    List Participation :=
  (world.participations epochNumber).filter fun entry =>
    confirmed world entry.processId

/-- `W(n)`: the weight of a node, once for every confirmed participation. -/
def workWeight (world : World) (epochNumber : ℚ) (nodeId : String) : ℚ :=
  (((confirmedEntries world epochNumber).filter fun entry =>
    entry.nodeId = nodeId).map fun entry =>
      nodeWeight world entry.nodeId).sum

/-- The nodes with a confirmed participation. -/
def workers (world : World) (epochNumber : ℚ) : Finset String :=
  ((confirmedEntries world epochNumber).map
    Participation.nodeId).toFinset

/-- `S`: the sum of all `W(n)`. -/
def totalWork (world : World) (epochNumber : ℚ) : ℚ :=
  ∑ nodeId ∈ workers world epochNumber, workWeight world epochNumber nodeId

/-- The settlement of an epoch whose row was `row`. -/
structure Specified (world : World) (epochNumber : ℚ) (row : Epoch)
    (result : FinalizeResult) (after : World) : Prop where
  /-- With a positive total weight every worker has one entry, in ascending
  order of the ids, before the entry of the reserve. -/
  shared : 0 < totalWork world epochNumber → ∃ entries,
    result.distributionLog =
        entries ++ [⟨"AFC_RESERVE", row.totalFees / 4, "afc_reserve"⟩] ∧
      (entries.map DistributionEntry.nodeId).Pairwise
        (fun first second => Json.utf16 first < Json.utf16 second) ∧
      (∀ nodeId, nodeId ∈ entries.map DistributionEntry.nodeId ↔
        ∃ entry ∈ confirmedEntries world epochNumber,
          entry.nodeId = nodeId) ∧
      ∀ entry ∈ entries, entry.reason = "work_weight" ∧
        entry.amount = workWeight world epochNumber entry.nodeId *
          (3 / 4) * row.totalFees / totalWork world epochNumber
  kept : totalWork world epochNumber = 0 →
    result.distributionLog =
      [⟨"AFC_RESERVE", row.totalFees, "afc_reserve"⟩]
  weighed : 0 ≤ totalWork world epochNumber
  nonnegative : ∀ entry ∈ result.distributionLog, 0 ≤ entry.amount
  paid : result.paid = ((result.distributionLog.filter fun entry =>
    entry.reason = "work_weight").map DistributionEntry.amount).sum
  earned : after.ledgerRow.earnedRetained =
    world.ledgerRow.earnedRetained + result.paid
  minted : after.ledgerRow.processMinted = world.ledgerRow.processMinted
  burned : after.ledgerRow.processBurned = world.ledgerRow.processBurned
  nodes : after.nodes = world.nodes
  verdicts : after.verdicts = world.verdicts
  epochs : ∀ other, other ≠ epochNumber →
    after.epochs.find? other = world.epochs.find? other
  stored : ∃ endTime, after.epochs.find? epochNumber =
    some { row with
      distributionLog := result.distributionLog
      operationalMargin := result.operationalMargin
      status := .finalized
      endTime := endTime }

section Weights

variable {world : World} {epochNumber : ℚ}

theorem crew_eq : crew world (world.participations epochNumber) =
    ((confirmedEntries world epochNumber).map Participation.nodeId :
      List String) :=
  rfl

theorem workers_eq : workers world epochNumber =
    (crew world (world.participations epochNumber)).toFinset :=
  rfl

theorem workWeight_eq (nodeId : String) :
    workWeight world epochNumber nodeId =
      (crew world (world.participations epochNumber)).count nodeId *
        nodeWeight world nodeId := by
  have same : ((confirmedEntries world epochNumber).filter fun entry =>
      entry.nodeId = nodeId).map (fun entry =>
        nodeWeight world entry.nodeId) =
      ((confirmedEntries world epochNumber).filter fun entry =>
        entry.nodeId = nodeId).map fun _ => nodeWeight world nodeId := by
    apply List.map_congr_left
    intro entry member
    have isNode := (List.mem_filter.mp member).2
    rw [decide_eq_true_eq] at isNode
    rw [isNode]
  rw [workWeight, same, List.map_const', List.sum_replicate,
    nsmul_eq_mul, crew_eq, Multiset.coe_count, List.count,
    List.countP_map, ← List.countP_eq_length_filter]
  rfl

theorem totalWork_eq : totalWork world epochNumber =
    ((crew world (world.participations epochNumber)).map
      (nodeWeight world)).sum := by
  rw [Finset.sum_multiset_map_count, totalWork, workers_eq]
  apply Finset.sum_congr rfl
  intro nodeId _
  rw [workWeight_eq, nsmul_eq_mul]

theorem workWeight_nonneg
    (weights : ∀ node ∈ world.nodes.rows, 0 ≤ node.weight)
    (nodeId : String) : 0 ≤ workWeight world epochNumber nodeId := by
  have current : 0 ≤ nodeWeight world nodeId := by
    unfold nodeWeight
    cases found : world.nodes.find? nodeId with
    | none =>
        exact le_rfl
    | some node =>
        exact weights node (Keyed.Table.mem_of_find? found)
  rw [workWeight_eq]
  exact mul_nonneg (Nat.cast_nonneg _) current

theorem totalWork_nonneg
    (weights : ∀ node ∈ world.nodes.rows, 0 ≤ node.weight) :
    0 ≤ totalWork world epochNumber :=
  Finset.sum_nonneg fun nodeId _ => workWeight_nonneg weights nodeId

end Weights

section Distribution

variable {env : Environment} {world : World} {epochNumber : ℚ}
variable {row : Epoch}

private theorem dues_specified (total : ℚ)
    (positive : 0 < totalWork world epochNumber) :
    ∀ entries, entries =
        dues (crew world (world.participations epochNumber))
          (nodeWeight world) total →
      (entries.map DistributionEntry.nodeId).Pairwise
          (fun first second => Json.utf16 first < Json.utf16 second) ∧
        (∀ nodeId, nodeId ∈ entries.map DistributionEntry.nodeId ↔
          ∃ entry ∈ confirmedEntries world epochNumber,
            entry.nodeId = nodeId) ∧
        ∀ entry ∈ entries, entry.reason = "work_weight" ∧
          entry.amount = workWeight world epochNumber entry.nodeId *
            (3 / 4) * total / totalWork world epochNumber := by
  rintro _ rfl
  rw [totalWork_eq] at positive ⊢
  rw [dues, if_pos positive]
  refine ⟨?_, ?_, ?_⟩
  · have ascending : ((workers world epochNumber).sort
        ByCodeUnits).Pairwise fun first second =>
          Json.utf16 first < Json.utf16 second := by
      have ordered := Finset.pairwise_sort (workers world epochNumber)
        ByCodeUnits
      have distinct := Finset.sort_nodup (workers world epochNumber)
        ByCodeUnits
      refine (ordered.and distinct).imp ?_
      rintro first second ⟨below, different⟩
      apply lt_of_le_of_ne below
      intro same
      exact different (Json.utf16_injective same)
    simpa [List.map_map, Function.comp_def, workers_eq] using ascending
  · intro nodeId
    simp [crew_eq]
  · intro entry member
    obtain ⟨nodeId, _, rfl⟩ := List.mem_map.mp member
    refine ⟨rfl, ?_⟩
    simp only [workWeight_eq, marginRate]
    ring

theorem paidOf_of_pos {weights : Weights}
    (weighed :
      weigh world (world.participations epochNumber) [] = .ok weights)
    (positive : 0 < totalWork world epochNumber) (total : ℚ) :
    paidOf weights total = total * (1 - marginRate) := by
  rw [totalWork_eq] at positive
  rw [paidOf, payments_eq_dues weighed]
  exact sum_dues positive total

private theorem payments_of_zero {weights : Weights}
    (weighed :
      weigh world (world.participations epochNumber) [] = .ok weights)
    (weightless : totalWork world epochNumber = 0) (total : ℚ) :
    payments weights total = [] := by
  rw [totalWork_eq] at weightless
  rw [payments_eq_dues weighed, dues, if_neg (by simp [weightless])]

private theorem nonneg_of_mem_distributionOf {weights : Weights}
    (nonnegative : ∀ node ∈ world.nodes.rows, 0 ≤ node.weight)
    (weighed :
      weigh world (world.participations epochNumber) [] = .ok weights)
    {total : ℚ} (fees : 0 ≤ total) :
    ∀ entry ∈ distributionOf weights total, 0 ≤ entry.amount := by
  have work : 0 ≤ totalWork world epochNumber :=
    totalWork_nonneg nonnegative
  intro entry member
  rcases List.mem_append.mp member with payment | margin
  · by_cases positive : 0 < totalWork world epochNumber
    · rw [payments_eq_dues weighed] at payment
      obtain ⟨_, _, amounts⟩ := dues_specified total positive _ rfl
      rw [(amounts entry payment).2]
      have worked := @workWeight_nonneg world epochNumber nonnegative
        entry.nodeId
      positivity
    · have weightless := le_antisymm (not_lt.mp positive) work
      rw [payments_of_zero weighed weightless] at payment
      cases payment
  · rw [List.mem_singleton.mp margin]
    change 0 ≤ total - paidOf weights total
    by_cases positive : 0 < totalWork world epochNumber
    · rw [paidOf_of_pos weighed positive, marginRate]
      linarith
    · have weightless := le_antisymm (not_lt.mp positive) work
      rw [paidOf, payments_of_zero weighed weightless]
      simpa using fees

private theorem filter_distributionOf (weights : Weights) (total : ℚ) :
    (distributionOf weights total).filter (fun entry =>
      entry.reason = "work_weight") = payments weights total := by
  have work : ∀ entry ∈ payments weights total,
      entry.reason = "work_weight" := by
    intro entry member
    unfold payments at member
    split at member
    · obtain ⟨_, _, rfl⟩ := List.mem_map.mp member
      rfl
    · cases member
  rw [distributionOf, List.filter_append, List.filter_eq_self.mpr]
  · simp [reasonMargin]
  · intro entry member
    simpa using work entry member

/-- `finalizeEpoch` settles every open epoch as specified. -/
theorem finalizeEpoch_specified (settled : world.Settled)
    (found : world.epochs.find? epochNumber = some row)
    (isOpen : row.status = .opened) (fees : 0 ≤ row.totalFees)
    (nonnegative : ∀ node ∈ world.nodes.rows, 0 ≤ node.weight)
    (registered : ∀ entry ∈ confirmedEntries world epochNumber,
      (world.nodes.find? entry.nodeId).isSome) :
    ∃ result after,
      run (machine env) (finalizeEpoch env epochNumber) world =
          (.returned result, after) ∧
        Specified world epochNumber row result after := by
  obtain ⟨weights, weighed⟩ := weigh_of_registered
    (fun entry member isConfirmed =>
      registered entry (List.mem_filter.mpr ⟨member, isConfirmed⟩))
  refine ⟨_, _, run_finalizeEpoch_of_ok env settled found isOpen weighed,
    ?_⟩
  have key : row.epochNumber = epochNumber :=
    Keyed.Table.key_of_find? found
  have epochs : ∃ endTime, (finalizedWorld env world row epochNumber
      weights).epochs =
        world.epochs.save (finalizedRow row weights endTime) :=
    ⟨_, congrArg (Keyed.Table.save · _) (payWorld_epochs _)⟩
  have ledger : (finalizedWorld env world row epochNumber
      weights).ledgerRow = _ :=
    ledgerRow_payWorld (payments weights row.totalFees)
  constructor
  · intro positive
    refine ⟨payments weights row.totalFees, ?_, ?_⟩
    · change distributionOf weights row.totalFees = _
      rw [distributionOf, paidOf_of_pos weighed positive, marginRate]
      congr 3
      ring
    · exact dues_specified row.totalFees positive _
        (payments_eq_dues weighed _)
  · intro weightless
    change distributionOf weights row.totalFees = _
    rw [distributionOf, paidOf, payments_of_zero weighed weightless]
    simp [marginRecipient, reasonMargin]
  · exact totalWork_nonneg nonnegative
  · exact nonneg_of_mem_distributionOf nonnegative weighed fees
  · change paidOf weights row.totalFees =
      (((distributionOf weights row.totalFees).filter _).map _).sum
    rw [filter_distributionOf, paidOf]
  · rw [ledger]
    rfl
  · rw [ledger]
  · rw [ledger]
  · exact payWorld_nodes _
  · exact payWorld_verdicts _
  · intro other different
    obtain ⟨endTime, saved⟩ := epochs
    rw [saved, Keyed.Table.find?_save_of_ne]
    change row.epochNumber ≠ other
    rw [key]
    exact Ne.symm different
  · obtain ⟨endTime, saved⟩ := epochs
    have savedKey :
        (finalizedRow row weights endTime).epochNumber = epochNumber :=
      key
    refine ⟨endTime, ?_⟩
    rw [saved, Keyed.Table.find?_save, if_pos savedKey]
    rfl

/-- Five units of fees for a repeated participation, one of a node that once
failed, one in a process that is not verified, and one of a node without
weight. -/
def mixedOperations : List Restart.Operation :=
  requiredBeforeVerdict.map (fun event => .capture "p-1" event [] none) ++
    [.verify "p-1", .verify "p-2", .register "node-1" "validator",
      .register "node-2" "router", .register "node-3" "recorder",
      .recordExecution "node-2" true, .recordExecution "node-2" false,
      .recordExecution "node-3" false,
      .accrue 1 5 [⟨"p-1", "node-1"⟩, ⟨"p-2", "node-2"⟩,
        ⟨"p-1", "node-1"⟩, ⟨"p-1", "node-2"⟩, ⟨"p-1", "node-3"⟩]]

example :
    let world := Restart.worldAfter .plain mixedOperations
    (confirmedEntries world 1).map Participation.nodeId =
        ["node-1", "node-1", "node-2", "node-3"] ∧
      ["node-1", "node-2", "node-3"].map (workWeight world 1) =
        [2, 1 / 2, 0] := by
  decide +kernel

theorem recorded_epoch_specified :
    ∃ row result after,
      run (machine .plain) (finalizeEpoch .plain 1)
          (Restart.worldAfter .plain mixedOperations) =
        (.returned result, after) ∧
      Specified (Restart.worldAfter .plain mixedOperations) 1
        row result after := by
  have recoverable :=
    Restart.recoverable_worldAfter .plain mixedOperations
  have present : ((Restart.worldAfter .plain
      mixedOperations).epochs.find? 1).any (fun row =>
        row.status = .opened ∧ 0 ≤ row.totalFees) = true := by
    decide +kernel
  rw [Option.any_eq_true_iff_get] at present
  obtain ⟨exists_, isOpen⟩ := present
  rw [decide_eq_true_eq] at isOpen
  obtain ⟨result, after, returned, specified⟩ :=
    finalizeEpoch_specified recoverable.settled
      (Option.some_get exists_).symm isOpen.1 isOpen.2
      (fun node member => (recoverable.weights node member).2)
      (by decide +kernel)
  exact ⟨_, result, after, returned, specified⟩

end Distribution

end ArosParadigm.EpochSettlement
