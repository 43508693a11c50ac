import ArosParadigm.Emission
import ArosParadigm.Payouts
import Mathlib.Algebra.Order.BigOperators.Group.List
import Mathlib.Tactic.Positivity
import Mathlib.Tactic.Ring

/-!
# Restarts

A restart builds all services again over the same database. The captured
events and the participations of an epoch are kept in memory only, so after a
restart a process cannot be verified by the events on the chain, and a
finalization pays no node. The decisions stay the same exactly when nothing
that counts was remembered.
-/

namespace ArosParadigm.Restart

open Await Commission

/-- The operations that lead to the state before the restart. -/
inductive Operation where
  | capture (processId eventType : String) (data : Json.JsObject ℚ)
      (validatorId : Option String)
  | verify (processId : String)
  | register (id type : String)
  | recordExecution (id : String) (success : Bool)
  | emit (processId : String) (amount : ℚ)
  | accrue (epochNumber fee : ℚ) (participants : List Participation)
  | finalizeEpoch (epochNumber : ℚ)

def Operation.perform (env : Environment) (world : World) :
    Operation → World
  | capture processId eventType data validatorId =>
      (run (machine env)
        (StateRecording.capture processId eventType data validatorId)
        world).2
  | verify processId => (run (machine env) (Pot.verify env processId) world).2
  | register id type => (run (machine env) (Nodes.register id type) world).2
  | recordExecution id success =>
      (run (machine env) (Nodes.recordExecution id success) world).2
  | emit processId amount =>
      (run (machine env) (Emission.emit processId amount) world).2
  | accrue epochNumber fee participants =>
      (run (machine env)
        (Commission.accrue epochNumber fee participants) world).2
  | finalizeEpoch epochNumber =>
      (run (machine env) (Commission.finalizeEpoch env epochNumber) world).2

def worldAfter (env : Environment) (operations : List Operation) : World :=
  operations.foldl (Operation.perform env) .initial

/-- Two runs end alike. -/
def Agree {result : Type} (alike : result → result → Prop) :
    Outcome ServiceError result → Outcome ServiceError result → Prop
  | .returned first, .returned second => alike first second
  | .threw first, .threw second => first = second
  | .blocked, .blocked => True
  | _, _ => False

def amountOf (result : FinalizeResult) (nodeId : String) : ℚ :=
  ((result.distributionLog.filter fun entry =>
    entry.reason ≠ reasonMargin ∧ entry.nodeId = nodeId).map
      DistributionEntry.amount).sum

structure SamePayout (first second : FinalizeResult) : Prop where
  amounts : ∀ nodeId, amountOf first nodeId = amountOf second nodeId
  margin : first.operationalMargin = second.operationalMargin

structure SameVerdict (first second : VerifyResult) : Prop where
  verified : first.verified = second.verified
  reasons : first.reasons = second.reasons

/-- A restart changes no decision on an open epoch or on a process without a
verdict. -/
structure RestartNeutral (env : Environment) (world : World) : Prop where
  payouts : ∀ epochNumber row,
    world.epochs.find? epochNumber = some row → row.status = .opened →
      Agree SamePayout
        (run (machine env) (finalizeEpoch env epochNumber) world).1
        (run (machine env) (finalizeEpoch env epochNumber)
          world.restart).1
  verdicts : ∀ processId, world.verdicts.find? processId = none →
    Agree SameVerdict
      (run (machine env) (Pot.verify env processId) world).1
      (run (machine env) (Pot.verify env processId) world.restart).1

/-- Every confirmed participation is one of a registered node that is paid
nothing. -/
def Unrewarded (world : World) (epochNumber : ℚ) (row : Epoch) : Prop :=
  ∀ entry ∈ world.participations epochNumber,
    confirmed world entry.processId = true →
      ∃ node, world.nodes.find? entry.nodeId = some node ∧
        (node.weight = 0 ∨ row.totalFees = 0)

structure NothingToForget (world : World) : Prop where
  participations : ∀ epochNumber row,
    world.epochs.find? epochNumber = some row → row.status = .opened →
      Unrewarded world epochNumber row
  captured : ∀ processId, world.verdicts.find? processId = none →
    ∀ event ∈ requiredBeforeVerdict, event ∉ world.captured processId

def NonnegativeWeights (world : World) : Prop :=
  ∀ node ∈ world.nodes.rows, 0 ≤ node.uptime ∧ 0 ≤ node.weight

/-- What holds after every history. -/
structure Recoverable (env : Environment) (world : World) : Prop where
  intact : world.Intact env
  settled : world.Settled
  weights : NonnegativeWeights world

section Invariant

variable {env : Environment} {world : World}

private theorem nonneg_worked {node : NodeEntity}
    (uptime : 0 ≤ node.uptime) (success : Bool) :
    0 ≤ (Nodes.worked node success).uptime ∧
      0 ≤ (Nodes.worked node success).weight := by
  refine ⟨uptime, ?_⟩
  have reputation : ∀ successes total : ℕ,
      0 ≤ Nodes.computeReputation successes total node.uptime := by
    intro successes total
    unfold Nodes.computeReputation
    split
    · exact zero_le_one
    · exact mul_nonneg
        (div_nonneg (Nat.cast_nonneg _) (Nat.cast_nonneg _)) uptime
  exact mul_nonneg (reputation _ _) uptime

private theorem nonnegativeWeights_saveNode
    (weights : NonnegativeWeights world) {row : NodeEntity}
    (nonneg : 0 ≤ row.uptime ∧ 0 ≤ row.weight) :
    NonnegativeWeights (world.saveNode row) := by
  intro node member
  rcases Keyed.Table.mem_rows_save member with rfl | ⟨old, _⟩
  · exact nonneg
  · exact weights node old

private theorem finalizeEpoch_kept (recoverable : Recoverable env world)
    (epochNumber : ℚ) :
    ∃ after, (run (machine env) (finalizeEpoch env epochNumber)
        world).2 = after ∧
      after.Settled ∧ after.nodes = world.nodes := by
  cases found : world.epochs.find? epochNumber with
  | none =>
      rw [run_finalizeEpoch_of_none env found]
      exact ⟨_, rfl, recoverable.settled, rfl⟩
  | some row =>
      by_cases isOpen : row.status = .opened
      swap
      · rw [run_finalizeEpoch_of_closed env found isOpen]
        exact ⟨_, rfl, recoverable.settled, rfl⟩
      cases weighed : weigh world (world.participations epochNumber) []
        with
      | error id =>
          rw [run_finalizeEpoch_of_error env found isOpen weighed]
          exact ⟨_, rfl, recoverable.settled, rfl⟩
      | ok weights =>
          rw [run_finalizeEpoch_of_ok env recoverable.settled found isOpen
            weighed]
          exact ⟨_, rfl, settled_payWorld recoverable.settled _,
            payWorld_nodes _⟩

private theorem perform_kept (recoverable : Recoverable env world)
    (operation : Operation) :
    (operation.perform env world).Settled ∧
      NonnegativeWeights (operation.perform env world) := by
  obtain ⟨intact, settled, weights⟩ := recoverable
  cases operation with
  | capture processId eventType data validatorId =>
      exact ⟨settled, weights⟩
  | verify processId =>
      simp only [Operation.perform, Pot.run_verify, Pot.verifyWorld]
      split
      · exact ⟨settled, weights⟩
      · exact ⟨settled, weights⟩
  | register id type =>
      exact ⟨settled,
        nonnegativeWeights_saveNode weights
          ⟨zero_le_one, zero_le_one⟩⟩
  | recordExecution id success =>
      simp only [Operation.perform]
      cases found : world.nodes.find? id with
      | none =>
          rw [Nodes.run_recordExecution_of_none found]
          exact ⟨settled, weights⟩
      | some node =>
          rw [Nodes.run_recordExecution_of_some found]
          have uptime := (weights node (Keyed.Table.mem_of_find? found)).1
          exact ⟨settled, nonnegativeWeights_saveNode weights
            (nonneg_worked uptime success)⟩
  | emit processId amount =>
      simp only [Operation.perform]
      cases authorized :
          Emission.authorizes (world.verdicts.find? processId) with
      | true =>
          rw [Emission.run_emit settled authorized]
          exact ⟨by simp [Emission.burnedWorld], weights⟩
      | false =>
          rw [Emission.run_emit_refused authorized]
          exact ⟨settled, weights⟩
  | accrue epochNumber fee participants =>
      simp only [Operation.perform, run_accrue, accruedWorld, openedWorld]
      split
      · exact ⟨settled, weights⟩
      · exact ⟨settled, weights⟩
  | finalizeEpoch epochNumber =>
      obtain ⟨after, isAfter, settledAfter, sameNodes⟩ :=
        finalizeEpoch_kept ⟨intact, settled, weights⟩ epochNumber
      simp only [Operation.perform, isAfter, NonnegativeWeights,
        sameNodes]
      exact ⟨settledAfter, weights⟩

/-- The step lemma: every operation keeps the invariant. -/
theorem Recoverable.perform (recoverable : Recoverable env world)
    (operation : Operation) :
    Recoverable env (operation.perform env world) := by
  obtain ⟨settled, weights⟩ := perform_kept recoverable operation
  refine ⟨?_, settled, weights⟩
  cases operation <;> exact recoverable.intact.run _

/-- The run lemma: the invariant holds after every history. -/
theorem recoverable_worldAfter (env : Environment)
    (operations : List Operation) :
    Recoverable env (worldAfter env operations) := by
  have onward : ∀ start, Recoverable env start →
      Recoverable env (operations.foldl (Operation.perform env) start) := by
    induction operations with
    | nil =>
        exact fun _ recoverable => recoverable
    | cons operation rest inductionHypothesis =>
        exact fun _ recoverable =>
          inductionHypothesis _ (recoverable.perform operation)
  exact onward _ ⟨World.intact_initial, World.settled_initial, nofun⟩

end Invariant

section Payouts

variable {env : Environment} {world : World} {epochNumber : ℚ}
variable {row : Epoch} {weights : Weights}

private theorem amountOf_finalizedResult (nodeId : String) :
    amountOf (finalizedResult row epochNumber weights) nodeId =
      (((payments weights row.totalFees).filter fun entry =>
        entry.nodeId = nodeId).map DistributionEntry.amount).sum := by
  have work : ∀ entry ∈ payments weights row.totalFees,
      entry.reason = reasonWork := by
    intro entry member
    unfold payments at member
    split at member
    · obtain ⟨_, _, rfl⟩ := List.mem_map.mp member
      rfl
    · cases member
  have margin : reasonWork ≠ reasonMargin := by
    decide
  have selected : (payments weights row.totalFees).filter (fun entry =>
      entry.reason ≠ reasonMargin ∧ entry.nodeId = nodeId) =
        (payments weights row.totalFees).filter fun entry =>
          entry.nodeId = nodeId := by
    refine List.filter_congr ?_
    intro entry member
    simp [work entry member, margin]
  unfold amountOf finalizedResult distributionOf
  simp only [List.filter_append, selected]
  simp

private theorem paymentOf_eq_zero
    (weighed : weigh world (world.participations epochNumber) [] =
      .ok weights)
    (unrewarded : Unrewarded world epochNumber row) (nodeId : String)
    (totalWeight : ℚ) :
    paymentOf weights (row.totalFees * (1 - marginRate)) totalWeight
      nodeId = 0 := by
  unfold paymentOf
  rw [weightOf_weigh weighed]
  by_cases none_ : (world.participations epochNumber).countP (fun entry =>
      confirmed world entry.processId && entry.nodeId = nodeId) = 0
  · simp [none_, weightOf]
  · obtain ⟨entry, member, holds⟩ :=
      List.countP_pos_iff.mp (Nat.pos_of_ne_zero none_)
    simp only [Bool.and_eq_true, decide_eq_true_eq] at holds
    obtain ⟨node, found, weightless | free⟩ :=
      unrewarded entry member holds.1
    · have weight : nodeWeight world nodeId = 0 := by
        rw [← holds.2]
        simp [nodeWeight, found, weightless]
      simp [weight, weightOf]
    · simp [free]

private theorem samePayout_of_unrewarded
    (weighed : weigh world (world.participations epochNumber) [] =
      .ok weights)
    (unrewarded : Unrewarded world epochNumber row) :
    SamePayout (finalizedResult row epochNumber weights)
      (finalizedResult row epochNumber []) := by
  have free : ∀ entry ∈ payments weights row.totalFees,
      entry.amount = 0 := by
    intro entry member
    unfold payments at member
    split at member
    · obtain ⟨nodeId, _, rfl⟩ := List.mem_map.mp member
      exact paymentOf_eq_zero weighed unrewarded nodeId _
    · cases member
  constructor
  · intro nodeId
    rw [amountOf_finalizedResult, amountOf_finalizedResult]
    have nothing : payments [] row.totalFees = [] := by
      simp [payments]
    rw [nothing, List.sum_eq_zero]
    · rfl
    · intro amount member
      obtain ⟨entry, inside, rfl⟩ := List.mem_map.mp member
      exact free entry (List.mem_filter.mp inside).1
  · have unpaid : paidOf weights row.totalFees = 0 := by
      apply List.sum_eq_zero
      intro amount member
      obtain ⟨entry, inside, rfl⟩ := List.mem_map.mp member
      exact free entry inside
    have nothing : paidOf [] row.totalFees = 0 := by
      simp [paidOf, payments]
    simp [finalizedResult, unpaid, nothing]

private theorem weightOf_pos (weights : NonnegativeWeights world)
    {final : Weights}
    (weighed : weigh world (world.participations epochNumber) [] =
      .ok final)
    {entry : Participation}
    (member : entry ∈ world.participations epochNumber)
    (isConfirmed : confirmed world entry.processId = true)
    {node : NodeEntity}
    (found : world.nodes.find? entry.nodeId = some node)
    (weight : node.weight ≠ 0) :
    0 < (weightOf final entry.nodeId).getD 0 := by
  have current : nodeWeight world entry.nodeId = node.weight := by
    simp [nodeWeight, found]
  have positive : 0 < node.weight :=
    lt_of_le_of_ne (weights node (Keyed.Table.mem_of_find? found)).2
      (Ne.symm weight)
  have counted : 0 < (world.participations epochNumber).countP
      fun other => confirmed world other.processId &&
        other.nodeId = entry.nodeId :=
    List.countP_pos_iff.mpr ⟨entry, member, by simp [isConfirmed]⟩
  rw [weightOf_weigh weighed, current]
  have counted' : (0 : ℚ) < (world.participations epochNumber).countP
      fun other => confirmed world other.processId &&
        other.nodeId = entry.nodeId :=
    Nat.cast_pos.mpr counted
  simp only [weightOf, List.lookup_nil, Option.getD_none, zero_add]
  positivity

/-- With a positive total weight every node of the weights gets its
payment. -/
private theorem amountOf_eq_paymentOf
    (unique : (weights.map Prod.fst).Nodup)
    (positive : 0 < (weights.map Prod.snd).sum) {nodeId : String}
    (member : nodeId ∈ weights.map Prod.fst) :
    amountOf (finalizedResult row epochNumber weights) nodeId =
      paymentOf weights (row.totalFees * (1 - marginRate))
        (weights.map Prod.snd).sum nodeId := by
  have sorted := List.perm_insertionSort
    (fun first second => Json.utf16 first ≤ Json.utf16 second)
    (weights.map Prod.fst)
  have once : (sortedIds (weights.map Prod.fst)).count nodeId = 1 :=
    List.count_eq_one_of_mem (sorted.nodup_iff.mpr unique)
      (sorted.mem_iff.mpr member)
  rw [amountOf_finalizedResult, payments, if_pos positive,
    List.filter_map]
  have selected : (sortedIds (weights.map Prod.fst)).filter
      ((fun entry : DistributionEntry => decide (entry.nodeId = nodeId)) ∘
        fun id => ⟨id, paymentOf weights
          (row.totalFees * (1 - marginRate))
          (weights.map Prod.snd).sum id, reasonWork⟩) = [nodeId] := by
    change (sortedIds (weights.map Prod.fst)).filter
      (fun id => decide (id = nodeId)) = [nodeId]
    rw [List.filter_eq, once]
    rfl
  rw [selected]
  simp

private theorem amountOf_ne_zero
    (nonnegative : NonnegativeWeights world)
    (weighed : weigh world (world.participations epochNumber) [] =
      .ok weights)
    {entry : Participation}
    (member : entry ∈ world.participations epochNumber)
    (isConfirmed : confirmed world entry.processId = true)
    {node : NodeEntity}
    (found : world.nodes.find? entry.nodeId = some node)
    (weight : node.weight ≠ 0) (fees : row.totalFees ≠ 0) :
    amountOf (finalizedResult row epochNumber weights) entry.nodeId ≠
      0 := by
  have unique := nodup_of_weigh weighed (by simp)
  have counts :=
    weightOf_pos nonnegative weighed member isConfirmed found weight
  cases isWeight : weightOf weights entry.nodeId with
  | none =>
      simp [isWeight] at counts
  | some value =>
      rw [isWeight, Option.getD_some] at counts
      obtain ⟨before, after, same, _⟩ :=
        List.lookup_eq_some_iff.mp isWeight
      have inside : (entry.nodeId, value) ∈ weights := by
        simp [same]
      have noneg : ∀ weight ∈ weights.map Prod.snd, 0 ≤ weight :=
        List.forall_mem_map.mpr (nonneg_of_weigh
          (fun node member => (nonnegative node member).2) weighed)
      have bounded : value ≤ (weights.map Prod.snd).sum :=
        List.single_le_sum noneg _ (List.mem_map_of_mem inside)
      have positive := counts.trans_le bounded
      rw [amountOf_eq_paymentOf unique positive
        (List.mem_map_of_mem inside), paymentOf, isWeight,
        Option.getD_some]
      have share : (1 : ℚ) - marginRate ≠ 0 := by
        unfold marginRate
        norm_num
      exact div_ne_zero
        (mul_ne_zero counts.ne' (mul_ne_zero fees share)) positive.ne'

/-- A finalization survives a restart exactly when no participation is
rewarded. -/
theorem agree_finalizeEpoch_iff (recoverable : Recoverable env world)
    (found : world.epochs.find? epochNumber = some row)
    (isOpen : row.status = .opened) :
    Agree SamePayout
        (run (machine env) (finalizeEpoch env epochNumber) world).1
        (run (machine env) (finalizeEpoch env epochNumber)
          world.restart).1 ↔
      Unrewarded world epochNumber row := by
  have restarted : run (machine env) (finalizeEpoch env epochNumber)
      world.restart =
        (.returned (finalizedResult row epochNumber []),
          finalizedWorld env world.restart row epochNumber []) :=
    run_finalizeEpoch_of_ok env world.settled_restart found isOpen rfl
  rw [restarted]
  cases weighed : weigh world (world.participations epochNumber) [] with
  | error id =>
      rw [run_finalizeEpoch_of_error env found isOpen weighed]
      refine ⟨False.elim, ?_⟩
      intro unrewarded
      obtain ⟨entry, member, isConfirmed, missing⟩ :=
        missing_of_weigh_error weighed
      obtain ⟨node, present, _⟩ := unrewarded entry member isConfirmed
      cases missing.symm.trans present
  | ok weights =>
      rw [run_finalizeEpoch_of_ok env recoverable.settled found isOpen
        weighed]
      refine ⟨?_, samePayout_of_unrewarded weighed⟩
      intro same entry member isConfirmed
      cases present : world.nodes.find? entry.nodeId with
      | none =>
          have registered := registered_of_confirmed weighed member
            isConfirmed
          rw [present] at registered
          cases registered
      | some node =>
          refine ⟨node, rfl, ?_⟩
          by_contra rewarded
          rw [not_or] at rewarded
          apply amountOf_ne_zero recoverable.weights weighed member
            isConfirmed present rewarded.1 rewarded.2
          rw [same.amounts, amountOf_finalizedResult]
          simp [payments]

end Payouts

section Verdicts

variable {env : Environment} {world : World} {processId : String}

private theorem failureReasons_of_ok (captured : List String) :
    Pot.failureReasons (Pot.criteriaResult captured true) captured =
      (requiredBeforeVerdict.filter fun event => event ∉ captured).map
        fun event => "missing_event:" ++ event := by
  cases captured <;> simp [Pot.failureReasons, Pot.criteriaResult]

/-- The verdict on a record without required events is that on an empty
record. -/
private theorem verdict_of_nothing {captured : List String}
    (nothing : ∀ event ∈ requiredBeforeVerdict, event ∉ captured) :
    Pot.verifiedOf (Pot.criteriaResult captured true) =
        Pot.verifiedOf (Pot.criteriaResult [] true) ∧
      Pot.failureReasons (Pot.criteriaResult captured true) captured =
        Pot.failureReasons (Pot.criteriaResult [] true) [] := by
  have uninitiated := nothing "initiation" (by decide)
  constructor
  · simp [Pot.verifiedOf, Pot.criteriaResult, uninitiated]
  · rw [failureReasons_of_ok, failureReasons_of_ok]
    congr 1
    refine List.filter_congr ?_
    intro event required
    simp [nothing event required]

private theorem nothing_of_reasons {captured : List String}
    (same : Pot.failureReasons (Pot.criteriaResult captured true)
        captured =
      Pot.failureReasons (Pot.criteriaResult [] true) []) :
    ∀ event ∈ requiredBeforeVerdict, event ∉ captured := by
  rw [failureReasons_of_ok, failureReasons_of_ok] at same
  have lengths := congrArg List.length same
  simp only [List.length_map, List.not_mem_nil, not_false_eq_true,
    decide_true, List.filter_true] at lengths
  have all := List.length_filter_eq_length_iff.mp lengths
  intro event required
  simpa using all event required

/-- A first verdict survives a restart exactly when no required event is
remembered. -/
theorem agree_verify_iff (recoverable : Recoverable env world)
    (missing : world.verdicts.find? processId = none) :
    Agree SameVerdict
        (run (machine env) (Pot.verify env processId) world).1
        (run (machine env) (Pot.verify env processId) world.restart).1 ↔
      ∀ event ∈ requiredBeforeVerdict,
        event ∉ world.captured processId := by
  have intact : (NodeChain.reconstruct env.hasher world.history).ok =
      true :=
    recoverable.intact.reconstruct
  have before := Pot.run_verify_of_none env missing
  have after := @Pot.run_verify_of_none env world.restart processId
    missing
  rw [before, after]
  constructor
  · intro same
    apply nothing_of_reasons
    have reasons := same.reasons
    simp only [Pot.newVerdict, Pot.verdictOf, World.history_restart,
      intact] at reasons
    exact reasons
  · intro nothing
    obtain ⟨verified, reasons⟩ := verdict_of_nothing nothing
    constructor
    · simp only [Pot.newVerdict, Pot.verdictOf, World.history_restart,
        intact]
      exact verified
    · simp only [Pot.newVerdict, Pot.verdictOf, World.history_restart,
        intact]
      exact reasons

end Verdicts

/-! ## Restarts after every history -/

/-- After every history a restart is neutral exactly when nothing that counts
is remembered in memory only. -/
theorem restartNeutral_iff (env : Environment)
    (operations : List Operation) :
    RestartNeutral env (worldAfter env operations) ↔
      NothingToForget (worldAfter env operations) := by
  have recoverable := recoverable_worldAfter env operations
  constructor
  · intro neutral
    constructor
    · intro epochNumber row found isOpen
      exact (agree_finalizeEpoch_iff recoverable found isOpen).mp
        (neutral.payouts epochNumber row found isOpen)
    · intro processId missing
      exact (agree_verify_iff recoverable missing).mp
        (neutral.verdicts processId missing)
  · intro nothing
    constructor
    · intro epochNumber row found isOpen
      exact (agree_finalizeEpoch_iff recoverable found isOpen).mpr
        (nothing.participations epochNumber row found isOpen)
    · intro processId missing
      exact (agree_verify_iff recoverable missing).mpr
        (nothing.captured processId missing)

/-- One confirmed participation in an open epoch, and one recorded process
without a verdict. -/
def recordedOperations : List Operation :=
  requiredBeforeVerdict.map (fun event => .capture "p-1" event [] none) ++
    [.verify "p-1", .register "node-1" "validator",
      .accrue 1 5 [⟨"p-1", "node-1"⟩]] ++
    requiredBeforeVerdict.map (fun event => .capture "p-2" event [] none)

def marginOf : Outcome ServiceError FinalizeResult → Option ℚ
  | .returned result => some result.operationalMargin
  | _ => none

private theorem marginOf_eq_of_agree
    {first second : Outcome ServiceError FinalizeResult}
    (agree : Agree SamePayout first second) :
    marginOf first = marginOf second := by
  cases first <;> cases second <;> first
    | exact congrArg some agree.margin
    | exact agree.elim
    | rfl

/-- After a restart the confirmed participation is not paid, and the recorded
process is not verified. -/
theorem restart_changes_decisions :
    ¬RestartNeutral .plain (worldAfter .plain recordedOperations) ∧
      ¬Agree SameVerdict
        (run (machine .plain) (Pot.verify .plain "p-2")
          (worldAfter .plain recordedOperations)).1
        (run (machine .plain) (Pot.verify .plain "p-2")
          (worldAfter .plain recordedOperations).restart).1 := by
  have recoverable := recoverable_worldAfter .plain recordedOperations
  constructor
  · intro neutral
    have isOpen : ((worldAfter .plain recordedOperations).epochs.find?
        1).any (fun row => row.status = .opened) = true := by
      decide +kernel
    rw [Option.any_eq_true_iff_get] at isOpen
    obtain ⟨present, status⟩ := isOpen
    have same := marginOf_eq_of_agree (neutral.payouts 1 _
      (Option.some_get present).symm (by simpa using status))
    have different :
        marginOf (run (machine .plain) (finalizeEpoch .plain 1)
            (worldAfter .plain recordedOperations)).1 ≠
          marginOf (run (machine .plain) (finalizeEpoch .plain 1)
            (worldAfter .plain recordedOperations).restart).1 := by
      decide +kernel
    exact different same
  · have missing : (worldAfter .plain recordedOperations).verdicts.find?
        "p-2" = none := by
      decide +kernel
    have remembered : "initiation" ∈
        (worldAfter .plain recordedOperations).captured "p-2" := by
      decide +kernel
    rw [agree_verify_iff recoverable missing]
    intro nothing
    exact nothing "initiation" (by decide) remembered

end ArosParadigm.Restart
