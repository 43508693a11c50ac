import ArosParadigm.Payouts
import ArosParadigm.Sessions
import ArosParadigm.Workforce

/-!
# Accounts

What the economy is about, without clocks, chain positions and row order: the
tallies, the registry, the figures of every epoch, the participations as a
multiset, the verdicts, and the process volume. A process is served and an
epoch is finalized by two functions on accounts, and the requests refine them.
-/

namespace ArosParadigm

structure EpochFigures where
  status : EpochStatus
  totalFees : ℚ
  operationalMargin : ℚ
  distributionLog : List DistributionEntry
  deriving DecidableEq

def Epoch.figures (row : Epoch) : EpochFigures :=
  ⟨row.status, row.totalFees, row.operationalMargin, row.distributionLog⟩

@[ext]
structure Accounts where
  ledger : ArosCoinLedger
  nodes : List NodeEntity
  epochs : ℚ → Option EpochFigures
  participations : ℚ → Multiset Participation
  verdicts : String → Option (Fin 2 × List String)
  volume : ℚ

def World.volume (world : World) : ℚ :=
  (world.history.map Reserve.volumeOf).sum

def World.accounts (world : World) : Accounts where
  ledger := world.ledgerRow
  nodes := world.nodes.rows
  epochs := fun epochNumber =>
    (world.epochs.find? epochNumber).map Epoch.figures
  participations := fun epochNumber =>
    (world.participations epochNumber : Multiset Participation)
  verdicts := fun processId =>
    (world.verdicts.find? processId).map fun row =>
      (row.verified, row.reasons)
  volume := world.volume

namespace Accounts

/-- The id is in the registry. -/
def enrolled (nodes : List NodeEntity) (nodeId : String) : Bool :=
  (nodes.find? fun node => node.id = nodeId).isSome

/-- The body will be settled: every process gets a positive verdict. -/
def Accepts (accounts : Accounts) (body : RunProcessDto) : Prop :=
  body.admissible = true ∧
    ∀ nodeId ∈ body.nodeIds.getD [], enrolled accounts.nodes nodeId

instance (accounts : Accounts) (body : RunProcessDto) :
    Decidable (accounts.Accepts body) :=
  inferInstanceAs (Decidable (_ ∧ _))

def epochOf (body : RunProcessDto) : ℚ :=
  body.epoch.getD Orchestrator.defaultEpoch

/-- The registry after the work on an admissible body. -/
def labour (nodes : List NodeEntity) (body : RunProcessDto) :
    List NodeEntity :=
  let staff := Orchestrator.staffed nodes body.nodeIds
  Orchestrator.work
    ((Orchestrator.assigned nodes body.nodeIds).takeWhile
      (enrolled staff)) staff

/-- The figures of an epoch after a fee. -/
def accrued (figures : Option EpochFigures) (fee : ℚ) : EpochFigures :=
  let figures := figures.getD ⟨.opened, 0, 0, []⟩
  { figures with totalFees := figures.totalFees + fee }

/-- The participations in a process. -/
def participants (nodes : List NodeEntity) (body : RunProcessDto) :
    Multiset Participation :=
  ((Orchestrator.assigned nodes body.nodeIds).map fun nodeId =>
    Participation.mk body.processId nodeId : List Participation)

/-- Settle a process: its value, its fee, its participations, its verdict. -/
def settle (accounts : Accounts) (body : RunProcessDto) : Accounts where
  ledger :=
    { accounts.ledger with
      processMinted := accounts.ledger.processMinted + body.amount
      processBurned := accounts.ledger.processBurned + body.amount }
  nodes := labour accounts.nodes body
  epochs := Function.update accounts.epochs (epochOf body)
    (some (accrued (accounts.epochs (epochOf body))
      (Commission.computeFee body.amount)))
  participations :=
    Function.update accounts.participations (epochOf body)
      (accounts.participations (epochOf body) +
        participants accounts.nodes body)
  verdicts :=
    Function.update accounts.verdicts body.processId (some (1, []))
  volume := accounts.volume + body.amount

/-- Answer a body. -/
def serve (accounts : Accounts) (body : RunProcessDto) : Accounts :=
  if accounts.Accepts body then
    accounts.settle body
  else if body.admissible then
    { accounts with nodes := labour accounts.nodes body }
  else
    accounts

theorem participations_settle (accounts : Accounts)
    (body : RunProcessDto) :
    (accounts.settle body).participations =
      Function.update accounts.participations (epochOf body)
        (accounts.participations (epochOf body) +
          participants accounts.nodes body) :=
  rfl

theorem epochs_settle (accounts : Accounts) (body : RunProcessDto) :
    (accounts.settle body).epochs =
      Function.update accounts.epochs (epochOf body)
        (some (accrued (accounts.epochs (epochOf body))
          (Commission.computeFee body.amount))) :=
  rfl

def weight (nodes : List NodeEntity) (nodeId : String) : ℚ :=
  ((nodes.find? fun node => node.id = nodeId).map
    NodeEntity.weight).getD 0

/-- The process has the verdict `verified === 1`. -/
def confirmed (accounts : Accounts) (processId : String) : Bool :=
  (accounts.verdicts processId).any fun verdict => verdict.1 = 1

/-- The confirmed participants of an epoch. -/
def crew (accounts : Accounts) (epochNumber : ℚ) : Multiset String :=
  ((accounts.participations epochNumber).filter fun entry =>
    accounts.confirmed entry.processId).map Participation.nodeId

def payments (accounts : Accounts) (epochNumber total : ℚ) :
    List DistributionEntry :=
  Commission.dues (accounts.crew epochNumber) (weight accounts.nodes)
    total

/-- What these payments add up to. -/
def paid (accounts : Accounts) (epochNumber total : ℚ) : ℚ :=
  ((accounts.payments epochNumber total).map
    DistributionEntry.amount).sum

/-- What the finalization of an open epoch is answered. -/
def closing (accounts : Accounts) (epochNumber total : ℚ) :
    FinalizeResult :=
  let paid := accounts.paid epochNumber total
  let margin := total - paid
  { epochNumber := epochNumber
    distributionLog := accounts.payments epochNumber total ++
      [⟨Commission.marginRecipient, margin, Commission.reasonMargin⟩]
    operationalMargin := margin
    paid := paid
    totalFees := total
    reconciled := Commission.isReconciled paid margin total }

/-- Distribute the fees of an open epoch. -/
def close (accounts : Accounts) (epochNumber : ℚ)
    (figures : EpochFigures) : Accounts :=
  let result := accounts.closing epochNumber figures.totalFees
  { accounts with
    ledger :=
      { accounts.ledger with
        earnedRetained := accounts.ledger.earnedRetained + result.paid }
    epochs := Function.update accounts.epochs epochNumber (some
      { figures with
        status := .finalized
        operationalMargin := result.operationalMargin
        distributionLog := result.distributionLog })
    participations :=
      Function.update accounts.participations epochNumber 0
    volume := accounts.volume +
      if 0 < result.operationalMargin then result.operationalMargin
      else 0 }

theorem participations_close (accounts : Accounts) (epochNumber : ℚ)
    (figures : EpochFigures) :
    (accounts.close epochNumber figures).participations =
      Function.update accounts.participations epochNumber 0 :=
  rfl

theorem epochs_close (accounts : Accounts) (epochNumber : ℚ)
    (figures : EpochFigures) :
    (accounts.close epochNumber figures).epochs =
      Function.update accounts.epochs epochNumber (some
        { figures with
          status := .finalized
          operationalMargin := (accounts.closing epochNumber
            figures.totalFees).operationalMargin
          distributionLog := (accounts.closing epochNumber
            figures.totalFees).distributionLog }) :=
  rfl

def finalize (accounts : Accounts) (epochNumber : ℚ) : Accounts :=
  match accounts.epochs epochNumber with
  | some figures =>
      if figures.status = .opened then accounts.close epochNumber figures
      else accounts
  | none => accounts

/-- Answer a request. -/
def act (accounts : Accounts) : Request → Accounts
  | .runProcess body => accounts.serve body
  | .finalizeEpoch epochNumber => accounts.finalize epochNumber
  | .metrics _ => accounts
  | .getProcess _ => accounts

/-! ## Healthy accounts -/

/-- A node whose work has never failed. -/
structure Trusted (node : NodeEntity) : Prop where
  active : node.status = .active
  uptime : node.uptime = 1
  flawless : node.successes = node.total
  weight : node.weight = 1

/-- What holds of the accounts between requests. -/
structure Healthy (accounts : Accounts) : Prop where
  trusted : ∀ node ∈ accounts.nodes, Trusted node
  unique : (accounts.nodes.map NodeEntity.id).Nodup
  approved : ∀ processId verdict,
    accounts.verdicts processId = some verdict → verdict = (1, [])
  enrolled : ∀ epochNumber, ∀ entry ∈ accounts.participations epochNumber,
    Accounts.enrolled accounts.nodes entry.nodeId
  confirmed : ∀ epochNumber,
    ∀ entry ∈ accounts.participations epochNumber,
      accounts.verdicts entry.processId = some (1, [])
  /-- An open epoch has fees, and participants who earned them. -/
  pooled : ∀ epochNumber figures,
    accounts.epochs epochNumber = some figures →
      figures.status = .opened →
        0 < figures.totalFees ∧ accounts.participations epochNumber ≠ 0
  unarchived : ∀ epochNumber figures,
    accounts.epochs epochNumber = some figures →
      figures.status ≠ .archived

section Registry

open Orchestrator

variable {nodes : List NodeEntity}

theorem enrolled_iff {nodeId : String} :
    enrolled nodes nodeId ↔ nodeId ∈ nodes.map NodeEntity.id := by
  rw [enrolled, List.find?_isSome, List.mem_map]
  simp only [decide_eq_true_eq]

theorem iterate_worked_id (count : ℕ) (node : NodeEntity) :
    ((fun node => Nodes.worked node true)^[count] node).id = node.id := by
  induction count generalizing node with
  | zero =>
      rfl
  | succ count inductionHypothesis =>
      rw [Function.iterate_succ_apply, inductionHypothesis]
      rfl

theorem Trusted.worked {node : NodeEntity} (trusted : Trusted node) :
    Trusted (Nodes.worked node true) := by
  obtain ⟨active, uptime, flawless, _⟩ := trusted
  have reputation : Nodes.computeReputation (node.successes + 1)
      (node.total + 1) node.uptime = 1 := by
    have worked : ((node.total + 1 : ℕ) : ℚ) ≠ 0 := by
      exact_mod_cast Nat.succ_ne_zero node.total
    rw [Nodes.computeReputation, if_neg (Nat.succ_ne_zero _), flawless,
      uptime, div_self worked, one_mul]
  refine ⟨active, uptime, ?_, ?_⟩
  · simp [Nodes.worked, flawless]
  · simp only [Nodes.worked, if_true, reputation]
    rw [Nodes.computeWeight, uptime, one_mul]

theorem Trusted.iterate {node : NodeEntity} (trusted : Trusted node)
    (count : ℕ) :
    Trusted ((fun node => Nodes.worked node true)^[count] node) := by
  induction count generalizing node with
  | zero =>
      exact trusted
  | succ count inductionHypothesis =>
      exact inductionHypothesis trusted.worked

theorem ids_work (ids : List String) :
    (work ids nodes).map NodeEntity.id = nodes.map NodeEntity.id := by
  rw [work, List.map_map]
  apply List.map_congr_left
  intro node _
  exact iterate_worked_id _ node

theorem trusted_work (trusted : ∀ node ∈ nodes, Trusted node)
    (ids : List String) : ∀ node ∈ work ids nodes, Trusted node := by
  intro node member
  obtain ⟨before, listed, rfl⟩ := List.mem_map.mp member
  exact (trusted before listed).iterate _

theorem trusted_freshNode (id type : String) :
    Trusted (Nodes.freshNode id type) :=
  ⟨rfl, rfl, rfl, rfl⟩

theorem trusted_staffed (trusted : ∀ node ∈ nodes, Trusted node)
    (explicit : Option (List String)) :
    ∀ node ∈ staffed nodes explicit, Trusted node := by
  unfold staffed
  split
  · exact trusted
  · split
    · intro node member
      obtain ⟨entry, _, rfl⟩ := List.mem_map.mp member
      exact trusted_freshNode _ _
    · exact trusted

theorem unique_staffed (unique : (nodes.map NodeEntity.id).Nodup)
    (explicit : Option (List String)) :
    ((staffed nodes explicit).map NodeEntity.id).Nodup := by
  unfold staffed
  split
  · exact unique
  · split
    · decide
    · exact unique

theorem enrolled_staffed {nodeId : String}
    (isEnrolled : enrolled nodes nodeId)
    (explicit : Option (List String)) :
    enrolled (staffed nodes explicit) nodeId := by
  unfold staffed
  split
  · exact isEnrolled
  · split
    · next empty =>
        subst empty
        cases isEnrolled
    · exact isEnrolled

theorem staffed_ne_nil (explicit : Option (List String))
    (implicit : ∀ first rest, explicit ≠ some (first :: rest)) :
    staffed nodes explicit ≠ [] := by
  unfold staffed
  split
  · next first rest =>
      exact absurd rfl (implicit first rest)
  · split
    · decide
    · assumption

theorem enrolled_labour (body : RunProcessDto) (nodeId : String) :
    enrolled (labour nodes body) nodeId =
      enrolled (staffed nodes body.nodeIds) nodeId := by
  apply Bool.eq_iff_iff.mpr
  rw [enrolled_iff, enrolled_iff, labour, ids_work]

theorem enrolled_of_assigned {explicit : Option (List String)}
    (registered : ∀ nodeId ∈ explicit.getD [], enrolled nodes nodeId)
    {nodeId : String} (member : nodeId ∈ assigned nodes explicit) :
    enrolled (staffed nodes explicit) nodeId := by
  rcases explicit with _ | (_ | ⟨first, rest⟩)
  · obtain ⟨node, listed, rfl⟩ := List.mem_map.mp member
    exact enrolled_iff.mpr
      (List.mem_map_of_mem (List.mem_filter.mp listed).1)
  · obtain ⟨node, listed, rfl⟩ := List.mem_map.mp member
    exact enrolled_iff.mpr
      (List.mem_map_of_mem (List.mem_filter.mp listed).1)
  · exact registered nodeId member

theorem assigned_ne_nil (trusted : ∀ node ∈ nodes, Trusted node)
    (explicit : Option (List String)) : assigned nodes explicit ≠ [] := by
  have everyone : ∀ (implicit : Option (List String)),
      (staffed nodes implicit).filter (fun node =>
        node.status = .active) = staffed nodes implicit := by
    intro implicit
    rw [List.filter_eq_self]
    intro node member
    simpa using (trusted_staffed trusted implicit node member).active
  have someone := @staffed_ne_nil nodes none (by simp)
  rcases explicit with _ | (_ | ⟨first, rest⟩)
  · simp [assigned, everyone, someone]
  · simp [assigned, everyone, someone]
  · simp [assigned]

end Registry

namespace Healthy

variable {accounts : Accounts}

/-- Work keeps accounts healthy. -/
theorem labour (healthy : accounts.Healthy) (body : RunProcessDto) :
    { accounts with
      nodes := Accounts.labour accounts.nodes body }.Healthy := by
  constructor
  · exact trusted_work (trusted_staffed healthy.trusted _) _
  · change ((Accounts.labour accounts.nodes body).map
      NodeEntity.id).Nodup
    rw [Accounts.labour, ids_work]
    exact unique_staffed healthy.unique _
  · exact healthy.approved
  · intro epochNumber entry member
    change Accounts.enrolled (Accounts.labour accounts.nodes body)
      entry.nodeId
    rw [enrolled_labour]
    exact enrolled_staffed (healthy.enrolled epochNumber entry member) _
  · exact healthy.confirmed
  · exact healthy.pooled
  · exact healthy.unarchived

theorem mem_participations_settle {body : RunProcessDto}
    {epochNumber : ℚ} {entry : Participation}
    (member : entry ∈
      (accounts.settle body).participations epochNumber) :
    entry ∈ accounts.participations epochNumber ∨
      entry ∈ participants accounts.nodes body := by
  rw [participations_settle] at member
  by_cases same : epochNumber = epochOf body
  · subst same
    rw [Function.update_self] at member
    exact Multiset.mem_add.mp member
  · rw [Function.update_of_ne same] at member
    exact Or.inl member

/-- A positive verdict stays, also when it is given again. -/
theorem approved_settle (body : RunProcessDto) {processId : String}
    (approved : accounts.verdicts processId = some (1, [])) :
    (accounts.settle body).verdicts processId = some (1, []) := by
  by_cases same : processId = body.processId
  · subst same
    exact Function.update_self ..
  · exact (Function.update_of_ne same _ _).trans approved

/-- After a settlement every open epoch has fees and participants. -/
theorem pooled_settle (healthy : accounts.Healthy) (body : RunProcessDto)
    {epochNumber : ℚ} {figures : EpochFigures}
    (found : (accounts.settle body).epochs epochNumber = some figures)
    (isOpen : figures.status = .opened) :
    0 < figures.totalFees ∧
      (accounts.settle body).participations epochNumber ≠ 0 := by
  have fee := Commission.computeFee_pos body.amountPositive
  rw [epochs_settle] at found
  rw [participations_settle]
  by_cases same : epochNumber = epochOf body
  · subst same
    rw [Function.update_self] at found ⊢
    cases found
    constructor
    · cases stored : accounts.epochs (epochOf body) with
      | none =>
          simpa [accrued] using fee
      | some figures =>
          rw [stored] at isOpen
          have pool := (healthy.pooled _ figures stored isOpen).1
          simp only [accrued, Option.getD_some]
          linarith
    · have present := assigned_ne_nil healthy.trusted body.nodeIds
      intro nothing
      have counted := congrArg Multiset.card nothing
      have someone : 0 < (participants accounts.nodes body).card := by
        simpa [participants, List.length_pos_iff] using present
      rw [Multiset.card_add, Multiset.card_zero] at counted
      omega
  · rw [Function.update_of_ne same] at found ⊢
    exact healthy.pooled epochNumber figures found isOpen

/-- A settlement keeps accounts healthy. -/
theorem settle (healthy : accounts.Healthy) {body : RunProcessDto}
    (accepts : accounts.Accepts body) :
    (accounts.settle body).Healthy := by
  have laboured := healthy.labour body
  have subject :
      (accounts.settle body).verdicts body.processId = some (1, []) :=
    Function.update_self ..
  constructor
  · exact laboured.trusted
  · exact laboured.unique
  · intro processId verdict found
    change Function.update _ _ _ processId = _ at found
    by_cases same : processId = body.processId
    · subst same
      rw [Function.update_self] at found
      exact (Option.some.inj found).symm
    · rw [Function.update_of_ne same] at found
      exact healthy.approved processId verdict found
  · intro epochNumber entry member
    rcases mem_participations_settle member with old | new
    · exact laboured.enrolled epochNumber entry old
    · obtain ⟨nodeId, listed, rfl⟩ := List.mem_map.mp
        (Multiset.mem_coe.mp new)
      change Accounts.enrolled (Accounts.labour accounts.nodes body)
        nodeId
      rw [enrolled_labour]
      exact enrolled_of_assigned accepts.2 listed
  · intro epochNumber entry member
    rcases mem_participations_settle member with old | new
    · exact approved_settle body
        (healthy.confirmed epochNumber entry old)
    · obtain ⟨nodeId, _, rfl⟩ := List.mem_map.mp
        (Multiset.mem_coe.mp new)
      exact subject
  · intro epochNumber figures found isOpen
    exact healthy.pooled_settle body found isOpen
  · intro epochNumber figures found
    rw [epochs_settle] at found
    by_cases same : epochNumber = epochOf body
    · subst same
      rw [Function.update_self] at found
      cases found
      cases stored : accounts.epochs (epochOf body) with
      | none =>
          simp [accrued]
      | some figures =>
          exact healthy.unarchived _ figures stored
    · rw [Function.update_of_ne same] at found
      exact healthy.unarchived epochNumber figures found

/-- Every answer to a body keeps accounts healthy. -/
theorem serve (healthy : accounts.Healthy) (body : RunProcessDto) :
    (accounts.serve body).Healthy := by
  unfold Accounts.serve
  split
  · next accepts =>
      exact healthy.settle accepts
  · split
    · exact healthy.labour body
    · exact healthy

/-- A distribution keeps accounts healthy. -/
theorem close (healthy : accounts.Healthy) (epochNumber : ℚ)
    (figures : EpochFigures) :
    (accounts.close epochNumber figures).Healthy := by
  have left : ∀ tested entry,
      entry ∈ (accounts.close epochNumber figures).participations
          tested →
        entry ∈ accounts.participations tested := by
    intro tested entry member
    rw [participations_close] at member
    by_cases same : tested = epochNumber
    · subst same
      rw [Function.update_self] at member
      cases Multiset.notMem_zero entry member
    · rwa [Function.update_of_ne same] at member
  constructor
  · exact healthy.trusted
  · exact healthy.unique
  · exact healthy.approved
  · intro tested entry member
    exact healthy.enrolled tested entry (left tested entry member)
  · intro tested entry member
    exact healthy.confirmed tested entry (left tested entry member)
  · intro tested row found isOpen
    rw [epochs_close] at found
    rw [participations_close]
    by_cases same : tested = epochNumber
    · subst same
      rw [Function.update_self] at found
      cases found
      cases isOpen
    · rw [Function.update_of_ne same] at found ⊢
      exact healthy.pooled tested row found isOpen
  · intro tested row found
    rw [epochs_close] at found
    by_cases same : tested = epochNumber
    · subst same
      rw [Function.update_self] at found
      cases found
      simp
    · rw [Function.update_of_ne same] at found
      exact healthy.unarchived tested row found

theorem finalize (healthy : accounts.Healthy) (epochNumber : ℚ) :
    (accounts.finalize epochNumber).Healthy := by
  unfold Accounts.finalize
  split
  · split
    · exact healthy.close _ _
    · exact healthy
  · exact healthy

/-- Every request keeps accounts healthy. -/
theorem act (healthy : accounts.Healthy) (request : Request) :
    (accounts.act request).Healthy := by
  cases request with
  | runProcess body =>
      exact healthy.serve body
  | finalizeEpoch epochNumber =>
      exact healthy.finalize epochNumber
  | metrics epochNumber =>
      exact healthy
  | getProcess processId =>
      exact healthy

/-- On healthy accounts all participants are confirmed. -/
theorem crew_eq (healthy : accounts.Healthy) (epochNumber : ℚ) :
    accounts.crew epochNumber =
      (accounts.participations epochNumber).map
        Participation.nodeId := by
  have everyone : (accounts.participations epochNumber).filter (fun entry =>
      accounts.confirmed entry.processId) =
        accounts.participations epochNumber := by
    rw [Multiset.filter_eq_self]
    intro entry member
    simp [Accounts.confirmed,
      healthy.confirmed epochNumber entry member]
  rw [crew, everyone]

theorem weight_of_enrolled (healthy : accounts.Healthy)
    {nodeId : String}
    (isEnrolled : Accounts.enrolled accounts.nodes nodeId) :
    weight accounts.nodes nodeId = 1 := by
  obtain ⟨node, found⟩ := Option.isSome_iff_exists.mp isEnrolled
  have trusted :=
    healthy.trusted node (List.mem_of_find?_eq_some found)
  rw [weight, found]
  exact trusted.weight

theorem weight_of_mem_crew (healthy : accounts.Healthy)
    {epochNumber : ℚ} {nodeId : String}
    (member : nodeId ∈ accounts.crew epochNumber) :
    weight accounts.nodes nodeId = 1 := by
  rw [healthy.crew_eq] at member
  obtain ⟨entry, inside, rfl⟩ := Multiset.mem_map.mp member
  exact healthy.weight_of_enrolled
    (healthy.enrolled epochNumber entry inside)

theorem sum_weight_crew (healthy : accounts.Healthy) (epochNumber : ℚ) :
    ((accounts.crew epochNumber).map (weight accounts.nodes)).sum =
      (accounts.participations epochNumber).card := by
  have ones : (accounts.crew epochNumber).map (weight accounts.nodes) =
      (accounts.crew epochNumber).map fun _ => (1 : ℚ) :=
    Multiset.map_congr rfl fun nodeId member =>
      healthy.weight_of_mem_crew member
  rw [ones, healthy.crew_eq]
  simp

theorem paid_of_open (healthy : accounts.Healthy) {epochNumber : ℚ}
    {figures : EpochFigures}
    (found : accounts.epochs epochNumber = some figures)
    (isOpen : figures.status = .opened) :
    accounts.paid epochNumber figures.totalFees =
      figures.totalFees * (3 / 4) := by
  obtain ⟨_, someone⟩ := healthy.pooled epochNumber figures found isOpen
  have positive : 0 < ((accounts.crew epochNumber).map
      (weight accounts.nodes)).sum := by
    rw [healthy.sum_weight_crew]
    exact Nat.cast_pos.mpr (Multiset.card_pos.mpr someone)
  rw [paid, payments, Commission.sum_dues positive]
  unfold Commission.marginRate
  norm_num

/-- Every payment of an open epoch is positive. -/
theorem amount_pos (healthy : accounts.Healthy) {epochNumber : ℚ}
    {figures : EpochFigures}
    (found : accounts.epochs epochNumber = some figures)
    (isOpen : figures.status = .opened) {entry : DistributionEntry}
    (member : entry ∈
      accounts.payments epochNumber figures.totalFees) :
    0 < entry.amount := by
  obtain ⟨fees, _⟩ := healthy.pooled epochNumber figures found isOpen
  refine Commission.amount_pos_of_mem_dues ?_ fees member
  intro nodeId participates
  rw [healthy.weight_of_mem_crew participates]
  exact one_pos

end Healthy

end Accounts

end ArosParadigm
