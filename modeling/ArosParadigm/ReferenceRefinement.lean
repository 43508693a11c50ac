import ArosParadigm.ReferenceCore
import ArosParadigm.Settlement

/-!
# The services refine the reference core

The production services and the reference core are given the same processes,
and finalize together; the services open a fresh epoch after every
finalization. In everything that is money the two stay equal, although they
weigh the nodes by different formulas. Every call on the store succeeds here,
so identifiers have at most 128 characters and epochs are integers.
-/

namespace ArosParadigm.Refinement

open Await

inductive Step where
  | process (request : Reference.ProcessRequest)
      (positive : 0 < request.amount)
  | finalize (nextEpoch : ℚ)

/-- The body of a request: no explicit nodes, the current epoch. -/
def bodyOf (request : Reference.ProcessRequest)
    (positive : 0 < request.amount) (epoch : ℚ) : RunProcessDto where
  processId := request.id
  amount := request.amount
  type := request.type
  admissible := request.admissible
  nodeIds := none
  epoch := some epoch
  amountPositive := positive
  nodeIdsNotEmpty := by simp

inductive Answers where
  | run (production : Outcome ServiceError Response)
      (reference : Except String Reference.RunResult)
  | closing (production : Outcome ServiceError Response)
      (reference : Reference.EpochResult)

/-- The run returned `verified: 1`. -/
def isVerified : Outcome ServiceError Response → Bool
  | .returned (.run result) => result.verified = 1
  | _ => false

/-- Both systems after the same steps. -/
structure Pair where
  world : World
  reference : Reference.AST
  epoch : ℚ
  usedEpochs : List ℚ
  usedIds : List String
  /-- A process was verified since the last finalization. -/
  verifiedSince : Bool
  log : List Answers

namespace Pair

variable (env : Environment) (referenceEnv : Reference.Environment)

/-- An empty store and a new `AST`. -/
def start (firstEpoch : ℚ) : Pair where
  world := World.initial
  reference := Reference.AST.initial
  epoch := firstEpoch
  usedEpochs := [firstEpoch]
  usedIds := []
  verifiedSince := false
  log := []

def step (pair : Pair) : Step → Pair
  | .process request positive =>
      let answer := (Request.runProcess
        (bodyOf request positive pair.epoch)).handle env pair.world
      let reference := pair.reference.runProcess referenceEnv request
      { pair with
        world := answer.2
        reference := reference.2
        usedIds := request.id :: pair.usedIds
        verifiedSince := isVerified answer.1 || pair.verifiedSince
        log := pair.log ++ [.run answer.1 reference.1] }
  | .finalize nextEpoch =>
      let answer :=
        (Request.finalizeEpoch pair.epoch).handle env pair.world
      let reference := pair.reference.finalizeEpoch
      { pair with
        world := answer.2
        reference := reference.2
        epoch := nextEpoch
        usedEpochs := nextEpoch :: pair.usedEpochs
        verifiedSince := false
        log := pair.log ++ [.closing answer.1 reference.1] }

/-- Ids are not repeated, a finalization has something to distribute, and
the next epoch is fresh. -/
def Permitted (pair : Pair) : Step → Prop
  | .process request _ => request.id ∉ pair.usedIds
  | .finalize nextEpoch =>
      pair.verifiedSince = true ∧ nextEpoch ∉ pair.usedEpochs

/-- The pairs after permitted steps. -/
inductive Reached (firstEpoch : ℚ) : Pair → Prop
  | start : Reached firstEpoch (start firstEpoch)
  | step {pair : Pair} {next : Step} (reached : Reached firstEpoch pair)
      (permitted : pair.Permitted next) :
      Reached firstEpoch (pair.step env referenceEnv next)

end Pair

def nodePayments (result : FinalizeResult) : List (String × ℚ) :=
  (result.distributionLog.filter fun entry =>
    entry.reason ≠ Commission.reasonMargin).map fun entry =>
      (entry.nodeId, entry.amount)

/-- Both systems answer alike; a missing figure of the reference is zero. -/
def Answers.Agree : Answers → Prop
  | .run (.returned (.run result)) (.ok reference) =>
      (result.verified = 1 ↔ reference.verified = true) ∧
        result.minted = reference.minted.getD 0 ∧
        result.fee = reference.fee.getD 0
  | .closing (.returned (.finalized result)) reference =>
      nodePayments result =
          reference.distributionLog.map (fun entry =>
            (entry.nodeId, entry.payment)) ∧
        (nodePayments result).map Prod.fst =
          ["node-1", "node-2", "node-3"] ∧
        result.operationalMargin = reference.margin
  | _ => False

/-- The two systems agree in everything that is money. -/
structure Pair.Agree (pair : Pair) : Prop where
  minted : pair.world.ledgerRow.processMinted =
    pair.reference.coin.processMinted
  burned : pair.world.ledgerRow.processBurned =
    pair.reference.coin.processBurned
  retained : pair.world.ledgerRow.earnedRetained =
    pair.reference.coin.earnedRetained
  isOpen : ∀ row, pair.world.epochs.find? pair.epoch = some row →
    row.status = .opened
  pool : ((pair.world.epochs.find? pair.epoch).map
      Epoch.totalFees).getD 0 = pair.reference.commission.pool
  answers : ∀ answers ∈ pair.log, answers.Agree

def rosterIds : List String :=
  ["node-1", "node-2", "node-3"]

theorem dues_roster {count : ℕ} (someone : 0 < count)
    {weight : String → ℚ} (ones : ∀ id ∈ rosterIds, weight id = 1)
    (total : ℚ) :
    Commission.dues (count • (rosterIds : Multiset String)) weight total =
      rosterIds.map fun id => ⟨id, total / 4, Commission.reasonWork⟩ := by
  have first := ones "node-1" (by decide)
  have second := ones "node-2" (by decide)
  have third := ones "node-3" (by decide)
  have whole : ((count • (rosterIds : Multiset String)).map weight).sum =
      3 * count := by
    rw [Multiset.map_nsmul, Multiset.sum_nsmul, nsmul_eq_mul]
    simp only [rosterIds, Multiset.map_coe, Multiset.sum_coe,
      List.map_cons, List.map_nil, List.sum_cons, List.sum_nil, first,
      second, third]
    ring
  have counted : (0 : ℚ) < count :=
    Nat.cast_pos.mpr someone
  have sorted : ((count • (rosterIds : Multiset String)).toFinset).sort
      Commission.ByCodeUnits = rosterIds := by
    have ids : (count • (rosterIds : Multiset String)).toFinset =
        rosterIds.toFinset := by
      ext id
      rw [Multiset.mem_toFinset, Multiset.mem_nsmul, List.mem_toFinset,
        Multiset.mem_coe]
      exact and_iff_right someone.ne'
    rw [ids, ← Commission.sortedIds_eq_sort (by decide)]
    decide
  unfold Commission.dues
  rw [whole, if_pos (by linarith), sorted]
  apply List.map_congr_left
  intro id member
  have once : (count • (rosterIds : Multiset String)).count id =
      count := by
    rw [Multiset.count_nsmul, Multiset.coe_count,
      List.count_eq_one_of_mem (by decide) member, mul_one]
  rw [once, ones id member]
  congr 1
  unfold Commission.marginRate
  field_simp
  ring

/-- A node of the reference core after `count` units of successful work. -/
structure WorkedNode (count : ℕ) (node : Reference.NodeEntity) :
    Prop where
  active : node.status = .active
  metrics : node.metrics = ⟨99 / 100, count, count⟩
  weight : node.weight = 99 / 100 * count

theorem WorkedNode.worked {count : ℕ} {node : Reference.NodeEntity}
    (workedNode : WorkedNode count node) :
    WorkedNode (count + 1) (Reference.worked node true) := by
  obtain ⟨active, metrics, _⟩ := workedNode
  refine ⟨active, ?_, ?_⟩
  · simp [Reference.worked, metrics]
  · have some_work : ((count + 1 : ℕ) : ℚ) ≠ 0 := by
      exact_mod_cast Nat.succ_ne_zero count
    simp only [Reference.worked, metrics, if_true]
    rw [div_self some_work, one_mul]

/-- The reference nodes have all done the same work. -/
structure EqualWork (count : ℕ) (nodes : List Reference.NodeEntity) :
    Prop where
  ids : nodes.map Reference.NodeEntity.id = rosterIds
  worked : ∀ node ∈ nodes, WorkedNode count node

theorem EqualWork.next {count : ℕ} {nodes : List Reference.NodeEntity}
    (equal : EqualWork count nodes) :
    EqualWork (count + 1) ((nodes.filter fun node =>
      node.status = .active).foldl (fun nodes node =>
        Reference.recordWork nodes node.id true) nodes) := by
  obtain ⟨ids, worked⟩ := equal
  have everyone : nodes.filter (fun node => node.status = .active) =
      nodes := by
    rw [List.filter_eq_self]
    intro node member
    simpa using (worked node member).active
  have unique : (nodes.map Reference.NodeEntity.id).Nodup := by
    rw [ids]
    decide
  rw [everyone, Reference.foldl_recordWork _ _ unique]
  have all : (nodes.map fun node =>
      if node.id ∈ nodes.map Reference.NodeEntity.id then
        Reference.worked node true
      else node) = nodes.map fun node => Reference.worked node true := by
    apply List.map_congr_left
    intro node member
    exact if_pos (List.mem_map_of_mem member)
  rw [all]
  constructor
  · rw [List.map_map]
    exact ids
  · intro node member
    obtain ⟨before, inside, rfl⟩ := List.mem_map.mp member
    exact (worked before inside).worked

theorem EqualWork.sum_weight {count : ℕ}
    {nodes : List Reference.NodeEntity} (equal : EqualWork count nodes) :
    (nodes.map Reference.NodeEntity.weight).sum =
      3 * (99 / 100 * count) := by
  have weights : nodes.map Reference.NodeEntity.weight =
      nodes.map fun _ => (99 / 100 * count : ℚ) :=
    List.map_congr_left fun node member =>
      (equal.worked node member).weight
  have three : nodes.length = 3 := by
    have counted := congrArg List.length equal.ids
    simpa [rosterIds] using counted
  rw [weights, List.map_const', List.sum_replicate, three, nsmul_eq_mul]
  norm_num

/-- The reference pays a quarter of the pool to each node. -/
theorem EqualWork.finalizeEpoch {count : ℕ} {ast : Reference.AST}
    (equal : EqualWork count ast.nodes) (someone : 0 < count) :
    ast.finalizeEpoch.1.distributionLog =
        rosterIds.map (fun id => ⟨id, ast.commission.pool / 4⟩) ∧
      ast.finalizeEpoch.1.margin = ast.commission.pool / 4 ∧
      ast.finalizeEpoch.2.coin =
        { ast.coin with
          earnedRetained := ast.coin.earnedRetained +
            ast.commission.pool * (3 / 4) } ∧
      ast.finalizeEpoch.2.commission.pool = 0 ∧
      EqualWork count ast.finalizeEpoch.2.nodes := by
  have counted : (0 : ℚ) < count :=
    Nat.cast_pos.mpr someone
  have total : Reference.totalWeight ast.nodes =
      3 * (99 / 100 * count) := by
    unfold Reference.totalWeight
    rw [equal.sum_weight]
    exact if_neg (by positivity)
  have share : ∀ node ∈ ast.nodes,
      node.weight * (ast.commission.pool * (1 - Reference.marginRate)) /
        Reference.totalWeight ast.nodes = ast.commission.pool / 4 := by
    intro node member
    rw [(equal.worked node member).weight, total]
    unfold Reference.marginRate
    field_simp
    ring
  have shares : ast.nodes.map (fun node =>
      node.weight * (ast.commission.pool * (1 - Reference.marginRate)) /
        Reference.totalWeight ast.nodes) =
      ast.nodes.map fun _ => ast.commission.pool / 4 :=
    List.map_congr_left share
  have three : ast.nodes.length = 3 := by
    have length := congrArg List.length equal.ids
    simpa [rosterIds] using length
  unfold Reference.AST.finalizeEpoch Reference.Commission.finalizeEpoch
  simp only [Reference.payNodes_eq]
  refine ⟨?_, ?_, ?_, trivial, ?_⟩
  · rw [← equal.ids, List.map_map, List.nil_append]
    apply List.map_congr_left
    intro node member
    rw [share node member]
    rfl
  · unfold Reference.marginRate
    ring
  · rw [shares, List.map_const', List.sum_replicate, three,
      nsmul_eq_mul]
    congr 1
    push_cast
    ring
  · constructor
    · rw [List.map_map]
      exact equal.ids
    · intro node member
      obtain ⟨before, inside, rfl⟩ := List.mem_map.mp member
      obtain ⟨active, metrics, weight⟩ := equal.worked before inside
      exact ⟨active, metrics, weight⟩

/-! ## The simulation -/

/-- The simulation relation: `count` processes were verified in the current
epoch. -/
structure Simulates (env : Environment)
    (referenceEnv : Reference.Environment) (pair : Pair) (count : ℕ) :
    Prop where
  reliable : Reliable env pair.world
  intact : pair.reference.Intact referenceEnv
  roster : pair.world.accounts.nodes = [] ∨
    pair.world.accounts.nodes.map NodeEntity.id = rosterIds
  crew : (pair.world.accounts.participations pair.epoch).map
      Participation.nodeId = count • (rosterIds : Multiset String)
  counted : pair.verifiedSince = true ↔ 0 < count
  row : pair.world.accounts.epochs pair.epoch =
    if 0 < count then
      some ⟨.opened, pair.reference.commission.pool, 0, []⟩
    else none
  emptyPool : count = 0 → pair.reference.commission.pool = 0
  unused : ∀ epoch, epoch ∉ pair.usedEpochs →
    pair.world.accounts.epochs epoch = none ∧
      pair.world.accounts.participations epoch = 0
  used : pair.epoch ∈ pair.usedEpochs
  fresh : ∀ id, id ∉ pair.usedIds →
    pair.reference.verdicts id = none
  worked : ∃ total, count ≤ total ∧
    EqualWork total pair.reference.nodes
  coin : pair.world.accounts.ledger =
    ⟨pair.reference.coin.processMinted,
      pair.reference.coin.processBurned,
      pair.reference.coin.earnedRetained⟩
  answers : ∀ answers ∈ pair.log, answers.Agree

/-- An epoch that is not used is not touched by the current one. -/
theorem Simulates.unused_of_same {env : Environment}
    {referenceEnv : Reference.Environment} {pair : Pair} {count : ℕ}
    (simulates : Simulates env referenceEnv pair count)
    {after : Accounts}
    (epochs : ∀ epoch, epoch ≠ pair.epoch →
      after.epochs epoch = pair.world.accounts.epochs epoch)
    (participations : ∀ epoch, epoch ≠ pair.epoch →
      after.participations epoch =
        pair.world.accounts.participations epoch)
    {epoch : ℚ} (unused : epoch ∉ pair.usedEpochs) :
    after.epochs epoch = none ∧ after.participations epoch = 0 := by
  have other : epoch ≠ pair.epoch := by
    intro same
    exact unused (same ▸ simulates.used)
  obtain ⟨noRow, nobody⟩ := simulates.unused epoch unused
  rw [epochs epoch other, participations epoch other]
  exact ⟨noRow, nobody⟩

theorem simulates_start (env : Environment)
    (referenceEnv : Reference.Environment) (firstEpoch : ℚ) :
    Simulates env referenceEnv (Pair.start firstEpoch) 0 := by
  constructor
  · exact reliable_initial
  · exact trivial
  · exact Or.inl rfl
  · rw [zero_nsmul]
    rfl
  · exact ⟨nofun, nofun⟩
  · rfl
  · intro _
    rfl
  · intro epoch _
    exact ⟨rfl, rfl⟩
  · exact List.mem_singleton_self firstEpoch
  · intro id _
    rfl
  · refine ⟨0, le_rfl, rfl, ?_⟩
    intro node member
    simp only [Pair.start, Reference.AST.initial, List.mem_cons,
      List.not_mem_nil, or_false] at member
    rcases member with rfl | rfl | rfl
    · exact ⟨rfl, rfl, by simp [Reference.freshNode]⟩
    · exact ⟨rfl, rfl, by simp [Reference.freshNode]⟩
    · exact ⟨rfl, rfl, by simp [Reference.freshNode]⟩
  · rfl
  · intro answers member
    cases member

section Roster

variable {accounts : Accounts}

private theorem ids_staffed
    (roster : accounts.nodes = [] ∨
      accounts.nodes.map NodeEntity.id = rosterIds) :
    (Orchestrator.staffed accounts.nodes none).map NodeEntity.id =
      rosterIds := by
  unfold Orchestrator.staffed
  by_cases empty : accounts.nodes = []
  · rw [if_pos empty]
    rfl
  · rw [if_neg empty]
    exact roster.resolve_left empty

private theorem assigned_eq (healthy : accounts.Healthy)
    (roster : accounts.nodes = [] ∨
      accounts.nodes.map NodeEntity.id = rosterIds) :
    Orchestrator.assigned accounts.nodes none = rosterIds := by
  have everyone : (Orchestrator.staffed accounts.nodes none).filter
      (fun node => node.status = .active) =
        Orchestrator.staffed accounts.nodes none := by
    rw [List.filter_eq_self]
    intro node member
    have trusted :=
      Accounts.trusted_staffed healthy.trusted none node member
    simpa using trusted.active
  unfold Orchestrator.assigned
  rw [everyone]
  exact ids_staffed roster

private theorem ids_labour
    (roster : accounts.nodes = [] ∨
      accounts.nodes.map NodeEntity.id = rosterIds)
    {body : RunProcessDto} (implicit : body.nodeIds = none) :
    (Accounts.labour accounts.nodes body).map NodeEntity.id =
      rosterIds := by
  rw [Accounts.labour, Accounts.ids_work, implicit]
  exact ids_staffed roster

private theorem nodeIds_participants (healthy : accounts.Healthy)
    (roster : accounts.nodes = [] ∨
      accounts.nodes.map NodeEntity.id = rosterIds)
    {body : RunProcessDto} (implicit : body.nodeIds = none) :
    (Accounts.participants accounts.nodes body).map
        Participation.nodeId = (rosterIds : Multiset String) := by
  rw [Accounts.participants, implicit, assigned_eq healthy roster,
    Multiset.map_coe, List.map_map]
  exact congrArg _ (List.map_id rosterIds)

end Roster

namespace Simulates

variable {env : Environment} {referenceEnv : Reference.Environment}
variable {pair : Pair} {count : ℕ}

private theorem accepts_bodyOf (request : Reference.ProcessRequest)
    (positive : 0 < request.amount) (accounts : Accounts) (epoch : ℚ) :
    accounts.Accepts (bodyOf request positive epoch) ↔
      request.admissible = true := by
  constructor
  · intro accepts
    exact accepts.1
  · intro admissible
    refine ⟨admissible, ?_⟩
    intro nodeId member
    cases member

theorem process_of_inadmissible
    (simulates : Simulates env referenceEnv pair count)
    {request : Reference.ProcessRequest}
    (positive : 0 < request.amount)
    (inadmissible : request.admissible = false) :
    Simulates env referenceEnv
      (pair.step env referenceEnv (.process request positive)) count := by
  have refused : ¬ pair.world.accounts.Accepts
      (bodyOf request positive pair.epoch) := by
    rw [accepts_bodyOf, inadmissible]
    exact Bool.false_ne_true
  obtain ⟨served, _, answered⟩ := Request.accounts_runProcess
    simulates.reliable.sound simulates.reliable.kept
    simulates.reliable.healthy (bodyOf request positive pair.epoch)
  have reliable := simulates.reliable.handle
    (.runProcess (bodyOf request positive pair.epoch))
  have unchanged : pair.world.accounts.serve
      (bodyOf request positive pair.epoch) = pair.world.accounts := by
    have rejected : ¬ (bodyOf request positive pair.epoch).admissible := by
      simp [bodyOf, inadmissible]
    rw [Accounts.serve, if_neg refused, if_neg rejected]
  rw [unchanged] at served
  obtain ⟨result, returned, verified, minted, fee⟩ :=
    answered.of_inadmissible inadmissible
  have notVerified : isVerified ((Request.runProcess (bodyOf request
      positive pair.epoch)).handle env pair.world).1 = false := by
    rw [returned]
    simp [isVerified, verified]
  unfold Pair.step
  simp only [Reference.runProcess_of_inadmissible inadmissible]
  constructor
  · exact reliable
  · exact simulates.intact.capture _ _ _
  · exact served ▸ simulates.roster
  · exact served ▸ simulates.crew
  · simpa only [notVerified, Bool.false_or] using simulates.counted
  · exact served ▸ simulates.row
  · exact simulates.emptyPool
  · exact served ▸ simulates.unused
  · exact simulates.used
  · intro id unused
    exact simulates.fresh id fun used =>
      unused (List.mem_cons_of_mem _ used)
  · exact simulates.worked
  · exact served.symm ▸ simulates.coin
  · intro answers member
    rcases List.mem_append.mp member with old | new
    · exact simulates.answers answers old
    · rw [List.mem_singleton.mp new, returned]
      refine ⟨?_, minted, fee⟩
      simp [verified]

private theorem computeFee_eq (amount : ℚ) :
    Commission.computeFee amount = Reference.computeFee amount := by
  rfl

theorem process_of_admissible
    (simulates : Simulates env referenceEnv pair count)
    {request : Reference.ProcessRequest}
    (positive : 0 < request.amount)
    (admissible : request.admissible = true)
    (fresh : request.id ∉ pair.usedIds) :
    Simulates env referenceEnv
      (pair.step env referenceEnv (.process request positive))
      (count + 1) := by
  have healthy := simulates.reliable.healthy
  have accepts : pair.world.accounts.Accepts
      (bodyOf request positive pair.epoch) :=
    (accepts_bodyOf request positive _ _).mpr admissible
  obtain ⟨served, _, answered⟩ := Request.accounts_runProcess
    simulates.reliable.sound simulates.reliable.kept healthy
    (bodyOf request positive pair.epoch)
  rw [Accounts.serve, if_pos accepts] at served
  have reliable := simulates.reliable.handle
    (.runProcess (bodyOf request positive pair.epoch))
  obtain ⟨result, returned, verified, minted, fee⟩ :=
    answered.of_accepts accepts
  have isNowVerified : isVerified ((Request.runProcess (bodyOf request
      positive pair.epoch)).handle env pair.world).1 = true := by
    rw [returned]
    simp [isVerified, verified]
  obtain ⟨after, settled, reference⟩ := Reference.runProcess_of_fresh
    simulates.intact admissible (simulates.fresh request.id fresh)
  have workers : (Accounts.participants pair.world.accounts.nodes
      (bodyOf request positive pair.epoch)).map Participation.nodeId =
        (rosterIds : Multiset String) :=
    nodeIds_participants healthy simulates.roster rfl
  unfold Pair.step
  simp only [reference]
  constructor
  · exact reliable
  · exact settled.intact
  · rw [served]
    exact Or.inr (ids_labour simulates.roster rfl)
  · have joined : (pair.world.accounts.settle
        (bodyOf request positive pair.epoch)).participations pair.epoch =
          pair.world.accounts.participations pair.epoch +
            Accounts.participants pair.world.accounts.nodes
              (bodyOf request positive pair.epoch) :=
      Function.update_self ..
    rw [served, joined, Multiset.map_add, workers, succ_nsmul]
    exact congrArg (· + (rosterIds : Multiset String)) simulates.crew
  · simp [isNowVerified]
  · rw [served, Accounts.epochs_settle, if_pos (Nat.succ_pos count)]
    change Function.update _ pair.epoch _ pair.epoch = _
    rw [Function.update_self, settled.pool]
    change some (Accounts.accrued (pair.world.accounts.epochs
      pair.epoch) _) = _
    rw [simulates.row]
    by_cases someone : 0 < count
    · rw [if_pos someone]
      rfl
    · rw [if_neg someone, simulates.emptyPool (by omega), zero_add]
      simp [Accounts.accrued, bodyOf, computeFee_eq]
  · intro nothing
    omega
  · intro epoch unused
    rw [served]
    exact simulates.unused_of_same
      (fun _ other => Function.update_of_ne other _ _)
      (fun _ other => Function.update_of_ne other _ _) unused
  · exact simulates.used
  · intro id unused
    obtain ⟨different, notBefore⟩ := not_or.mp
      (mt List.mem_cons.mpr unused)
    rw [settled.verdicts id different]
    exact simulates.fresh id notBefore
  · obtain ⟨total, atMost, equal⟩ := simulates.worked
    refine ⟨total + 1, by omega, ?_⟩
    rw [settled.nodes]
    exact equal.next
  · rw [served, settled.coin]
    change ArosCoinLedger.mk _ _ _ = _
    rw [simulates.coin]
    rfl
  · intro answers member
    rcases List.mem_append.mp member with old | new
    · exact simulates.answers answers old
    · rw [List.mem_singleton.mp new, returned]
      refine ⟨?_, minted, fee⟩
      simp [verified]

/-- Once a process is verified, every node of the roster is paid a quarter of
the fees. -/
theorem payments_of_someone
    (simulates : Simulates env referenceEnv pair count)
    (someone : 0 < count) (totalFees : ℚ) :
    pair.world.accounts.payments pair.epoch totalFees =
      rosterIds.map fun id =>
        ⟨id, totalFees / 4, Commission.reasonWork⟩ := by
  have healthy := simulates.reliable.healthy
  have crew : pair.world.accounts.crew pair.epoch =
      count • (rosterIds : Multiset String) := by
    rw [healthy.crew_eq, simulates.crew]
  have ones : ∀ id ∈ rosterIds,
      Accounts.weight pair.world.accounts.nodes id = 1 := by
    intro id member
    apply @Accounts.Healthy.weight_of_mem_crew _ healthy pair.epoch
    rw [crew, Multiset.mem_nsmul]
    exact ⟨someone.ne', member⟩
  rw [Accounts.payments, crew, dues_roster someone ones]

theorem finalize
    (simulates : Simulates env referenceEnv pair count) {nextEpoch : ℚ}
    (permitted : pair.Permitted (.finalize nextEpoch)) :
    Simulates env referenceEnv
      (pair.step env referenceEnv (.finalize nextEpoch)) 0 := by
  obtain ⟨verified, unusedNext⟩ := permitted
  have healthy := simulates.reliable.healthy
  have someone : 0 < count := simulates.counted.mp verified
  have figures : pair.world.accounts.epochs pair.epoch =
      some ⟨.opened, pair.reference.commission.pool, 0, []⟩ := by
    rw [simulates.row, if_pos someone]
  obtain ⟨row, found, isRow⟩ := Option.map_eq_some_iff.mp figures
  have isOpen : row.status = .opened :=
    congrArg EpochFigures.status isRow
  have pool : row.totalFees = pair.reference.commission.pool :=
    congrArg EpochFigures.totalFees isRow
  obtain ⟨after, handled, accounts, _⟩ :=
    @Request.accounts_finalizeEpoch_of_open env _
      simulates.reliable.sound simulates.reliable.kept healthy _ _ found
      isOpen
  have reliable :=
    simulates.reliable.handle (.finalizeEpoch pair.epoch)
  have payments := simulates.payments_of_someone someone row.totalFees
  rw [pool] at payments
  have paid : pair.world.accounts.paid pair.epoch row.totalFees =
      pair.reference.commission.pool * (3 / 4) := by
    rw [pool]
    exact healthy.paid_of_open figures rfl
  obtain ⟨total, atMost, equal⟩ := simulates.worked
  obtain ⟨log, margin, coin, emptied, stillEqual⟩ :=
    equal.finalizeEpoch (lt_of_lt_of_le someone atMost)
  have unused : ∀ epoch, epoch ∉ pair.usedEpochs →
      after.accounts.epochs epoch = none ∧
        after.accounts.participations epoch = 0 := by
    intro epoch notBefore
    rw [accounts]
    exact simulates.unused_of_same
      (fun _ other => Function.update_of_ne other _ _)
      (fun _ other => Function.update_of_ne other _ _) notBefore
  rw [handled] at reliable
  unfold Pair.step
  simp only [handled]
  constructor
  · exact reliable
  · exact simulates.intact
  · rw [accounts]
    exact simulates.roster
  · rw [(unused nextEpoch unusedNext).2, zero_nsmul]
    rfl
  · exact iff_of_false Bool.false_ne_true (lt_irrefl 0)
  · exact (unused nextEpoch unusedNext).1
  · intro _
    exact emptied
  · intro epoch outside
    apply unused
    exact fun inside => outside (List.mem_cons_of_mem _ inside)
  · exact List.mem_cons_self
  · exact simulates.fresh
  · exact ⟨total, Nat.zero_le total, stillEqual⟩
  · rw [accounts, coin]
    change ArosCoinLedger.mk _ _ (_ + pair.world.accounts.paid _ _) = _
    rw [simulates.coin]
    change ArosCoinLedger.mk _ _ (_ + pair.world.accounts.paid _
      row.totalFees) = _
    rw [paid]
  · intro answers member
    rcases List.mem_append.mp member with old | new
    · exact simulates.answers answers old
    · rw [List.mem_singleton.mp new]
      have entries : nodePayments (pair.world.accounts.closing
          pair.epoch row.totalFees) = rosterIds.map fun id =>
            (id, pair.reference.commission.pool / 4) := by
        unfold nodePayments Accounts.closing
        rw [pool, payments]
        rfl
      refine ⟨?_, ?_, ?_⟩
      · rw [entries, log]
        rfl
      · rw [entries]
        rfl
      · rw [margin]
        change row.totalFees - pair.world.accounts.paid _ _ = _
        rw [paid, pool]
        ring

theorem step (simulates : Simulates env referenceEnv pair count)
    {next : Step} (permitted : pair.Permitted next) :
    ∃ later, Simulates env referenceEnv
      (pair.step env referenceEnv next) later := by
  cases next with
  | process request positive =>
      cases admissible : request.admissible with
      | true =>
          exact ⟨count + 1, simulates.process_of_admissible positive
            admissible permitted⟩
      | false =>
          exact ⟨count,
            simulates.process_of_inadmissible positive admissible⟩
  | finalize nextEpoch =>
      exact ⟨0, simulates.finalize permitted⟩

theorem agree (simulates : Simulates env referenceEnv pair count) :
    pair.Agree := by
  have row := simulates.row
  have coin := simulates.coin
  change (pair.world.epochs.find? pair.epoch).map Epoch.figures = _
    at row
  change pair.world.ledgerRow = _ at coin
  constructor
  · rw [coin]
  · rw [coin]
  · rw [coin]
  · intro stored found
    rw [found, Option.map_some] at row
    by_cases someone : 0 < count
    · rw [if_pos someone] at row
      exact congrArg EpochFigures.status (Option.some.inj row)
    · rw [if_neg someone] at row
      cases row
  · by_cases someone : 0 < count
    · rw [if_pos someone] at row
      obtain ⟨stored, found, figures⟩ := Option.map_eq_some_iff.mp row
      rw [found]
      exact congrArg EpochFigures.totalFees figures
    · rw [if_neg someone, Option.map_eq_none_iff] at row
      rw [row]
      exact (simulates.emptyPool (by omega)).symm
  · exact simulates.answers

end Simulates

theorem simulates_of_reached {env : Environment}
    {referenceEnv : Reference.Environment} {firstEpoch : ℚ} {pair : Pair}
    (reached : Pair.Reached env referenceEnv firstEpoch pair) :
    ∃ count, Simulates env referenceEnv pair count := by
  induction reached with
  | start =>
      exact ⟨0, simulates_start env referenceEnv firstEpoch⟩
  | step _ permitted inductionHypothesis =>
      obtain ⟨count, simulates⟩ := inductionHypothesis
      exact simulates.step permitted

/-- After every sequence of permitted steps, none of whose calls on the store
is rejected, the services and the reference core agree in tallies, pool,
answers and distributions. -/
theorem production_refines_reference (env : Environment)
    (referenceEnv : Reference.Environment) (firstEpoch : ℚ) (pair : Pair)
    (reached : Pair.Reached env referenceEnv firstEpoch pair) :
    pair.Agree := by
  obtain ⟨count, simulates⟩ := simulates_of_reached reached
  exact simulates.agree

/-- A run, a rejected run, a finalization, and again a run and a
finalization. -/
def knownPair : Pair :=
  ((((Pair.start 1).step .plain .plain
    (.process ⟨"p-1", 1000, "transfer", true⟩ (by norm_num))).step
      .plain .plain
    (.process ⟨"p-2", 50, "transfer", false⟩ (by norm_num))).step
      .plain .plain (.finalize 2)).step .plain .plain
    (.process ⟨"p-3", 400, "transfer", true⟩ (by norm_num)) |>.step
      .plain .plain (.finalize 3)

theorem knownPair_agrees : knownPair.Agree := by
  apply production_refines_reference .plain .plain 1
  unfold knownPair
  refine .step (.step (.step (.step (.step .start ?_) ?_) ?_) ?_) ?_
  · change _ ∉ _
    decide
  · change _ ∉ _
    decide
  · exact ⟨by decide +kernel, by decide +kernel⟩
  · change _ ∉ _
    decide +kernel
  · exact ⟨by decide +kernel, by decide +kernel⟩

end ArosParadigm.Refinement
