import ArosParadigm.Settlement

/-!
# The canonical formula and the settlement

`EmissionService.calculate` splits the fee of one transaction;
`finalizeEpoch` pools the fees of an epoch, weighs its participants and keeps
the remainder. Both agree on every epoch that is distributed, also when nodes
are registered, or registered again, between the requests.
-/

namespace ArosParadigm

open Await

/-- The requests of the two controllers, and `NodesService.register`. -/
inductive Operation where
  | answer (request : Request)
  | register (id type : String)

inductive OperationReply where
  | response (response : Response)
  | admitted (node : NodeEntity)

def Operation.handler (env : Environment) :
    Operation → Service OperationReply
  | .answer request => do
      let response ← request.handler env
      return .response response
  | .register id type => do
      let node ← Nodes.register id type
      return .admitted node

def Operation.handle (env : Environment) (operation : Operation)
    (world : World) : Outcome ServiceError OperationReply × World :=
  run (machine env) (operation.handler env) world

/-- The operations answered so far, and the world they have led to. -/
structure History where
  log : List (Operation × Outcome ServiceError OperationReply)
  world : World

namespace History

/-- Answer one more operation. -/
def serve (env : Environment) (history : History)
    (operation : Operation) : History :=
  let answer := operation.handle env history.world
  ⟨history.log ++ [(operation, answer.1)], answer.2⟩

/-- The operations answered one after another from an empty store. -/
def of (env : Environment) (operations : List Operation) : History :=
  operations.foldl (serve env) ⟨[], World.initial⟩

/-- The amount of a run that returned `verified: 1` with the given epoch. -/
def verifiedAmount? (epoch : ℚ) :
    Operation × Outcome ServiceError OperationReply → Option ℚ
  | (.answer (.runProcess body), .returned (.response (.run result))) =>
      if result.verified = 1 ∧ Accounts.epochOf body = epoch then
        some body.amount
      else none
  | _ => none

def verifiedAmounts (history : History) (epoch : ℚ) : List ℚ :=
  history.log.filterMap (verifiedAmount? epoch)

theorem of_append_singleton (env : Environment)
    (operations : List Operation) (operation : Operation) :
    of env (operations ++ [operation]) =
      serve env (of env operations) operation :=
  List.foldl_append

end History

namespace Accounts

/-- Admit a node, or admit it anew. -/
def register (accounts : Accounts) (id type : String) : Accounts :=
  { accounts with
    nodes := Keyed.upsert NodeEntity.id (Nodes.freshNode id type)
      accounts.nodes }

theorem Healthy.register {accounts : Accounts}
    (healthy : accounts.Healthy) (id type : String) :
    (accounts.register id type).Healthy := by
  constructor
  · intro node member
    obtain ⟨unique, table⟩ : ∃ table : Keyed.Table NodeEntity.id,
        table.rows = accounts.nodes :=
      ⟨⟨accounts.nodes, healthy.unique⟩, rfl⟩
    have saved : node ∈ (unique.save (Nodes.freshNode id type)).rows := by
      change node ∈ Keyed.upsert _ _ unique.rows
      rw [table]
      exact member
    rcases Keyed.Table.mem_rows_save saved with rfl | ⟨old, _⟩
    · exact trusted_freshNode id type
    · exact healthy.trusted node (table ▸ old)
  · exact Keyed.nodup_upsert _ _ healthy.unique
  · exact healthy.approved
  · intro epochNumber entry member
    have before := enrolled_iff.mp
      (healthy.enrolled epochNumber entry member)
    exact enrolled_iff.mpr
      ((Keyed.mem_map_upsert _ _ _ _).mpr (Or.inr before))
  · exact healthy.confirmed
  · exact healthy.pooled
  · exact healthy.unarchived

end Accounts

section Registration

variable {env : Environment} {world : World}

theorem accounts_register (id type : String) :
    (Nodes.registered env world id type).accounts =
      world.accounts.register id type := by
  have books : (Nodes.registered env world id type).books =
      world.books :=
    World.books_append_of_not_mem env
      (world.saveNode (Nodes.freshNode id type)) _ (by decide)
  have ledger : (Nodes.registered env world id type).ledgerRow =
      world.ledgerRow :=
    congrArg Books.ledger books
  unfold World.accounts
  simp only [World.volume_eq_books, books, ledger]
  rfl

theorem Reliable.register (reliable : Reliable env world)
    (id type : String) :
    Reliable env (Nodes.registered env world id type) := by
  obtain ⟨sound, kept, healthy⟩ := reliable
  have books : (Nodes.registered env world id type).books =
      world.books :=
    World.books_append_of_not_mem env
      (world.saveNode (Nodes.freshNode id type)) _ (by decide)
  refine ⟨⟨?_, sound.settled, ?_⟩, kept, ?_⟩
  · exact sound.intact.append "node.registered"
      (.nodeRegistered id type 1 1 1)
  · rw [books]
    exact sound.netted
  · rw [accounts_register]
    exact healthy.register id type

end Registration

/-- An open epoch holds the fees of its verified runs, and an epoch without a
row has had none. -/
structure Accounts.Pools (accounts : Accounts)
    (amounts : ℚ → List ℚ) : Prop where
  fresh : ∀ epoch, accounts.epochs epoch = none → amounts epoch = []
  opened : ∀ epoch figures, accounts.epochs epoch = some figures →
    figures.status = .opened →
      figures.totalFees =
        ((amounts epoch).map fun amount =>
          Commission.computeFee amount).sum

namespace Accounts.Pools

variable {accounts : Accounts} {amounts after : ℚ → List ℚ}

theorem of_same (pools : accounts.Pools amounts) {later : Accounts}
    (epochs : later.epochs = accounts.epochs)
    (none_ : ∀ epoch, after epoch = amounts epoch) :
    later.Pools after := by
  constructor
  · intro epoch missing
    rw [epochs] at missing
    rw [none_]
    exact pools.fresh epoch missing
  · intro epoch figures found isOpen
    rw [epochs] at found
    rw [none_]
    exact pools.opened epoch figures found isOpen

/-- A settlement adds its fee to the pool of its epoch. -/
theorem settle (pools : accounts.Pools amounts) (body : RunProcessDto)
    (added : ∀ epoch, after epoch = amounts epoch ++
      if epochOf body = epoch then [body.amount] else []) :
    (accounts.settle body).Pools after := by
  constructor
  · intro epoch missing
    rw [epochs_settle] at missing
    by_cases same : epoch = epochOf body
    · subst same
      rw [Function.update_self] at missing
      cases missing
    · rw [Function.update_of_ne same] at missing
      rw [added, if_neg (Ne.symm same), pools.fresh epoch missing]
      rfl
  · intro epoch figures found isOpen
    rw [epochs_settle] at found
    by_cases same : epoch = epochOf body
    · subst same
      rw [Function.update_self] at found
      cases found
      rw [added, if_pos rfl, List.map_append, List.sum_append]
      cases stored : accounts.epochs (epochOf body) with
      | none =>
          rw [pools.fresh _ stored]
          simp [accrued]
      | some figures =>
          rw [stored] at isOpen
          rw [← pools.opened _ figures stored isOpen]
          simp [accrued]
    · rw [Function.update_of_ne same] at found
      rw [added, if_neg (Ne.symm same), List.append_nil]
      exact pools.opened epoch figures found isOpen

theorem finalize (pools : accounts.Pools amounts) (epochNumber : ℚ)
    (none_ : ∀ epoch, after epoch = amounts epoch) :
    (accounts.finalize epochNumber).Pools after := by
  unfold Accounts.finalize
  split
  · split
    · constructor
      · intro epoch missing
        rw [epochs_close] at missing
        by_cases same : epoch = epochNumber
        · subst same
          rw [Function.update_self] at missing
          cases missing
        · rw [Function.update_of_ne same] at missing
          rw [none_]
          exact pools.fresh epoch missing
      · intro epoch figures found isOpen
        rw [epochs_close] at found
        by_cases same : epoch = epochNumber
        · subst same
          rw [Function.update_self] at found
          cases found
          cases isOpen
        · rw [Function.update_of_ne same] at found
          rw [none_]
          exact pools.opened epoch figures found isOpen
    · exact pools.of_same rfl none_
  · exact pools.of_same rfl none_

end Accounts.Pools

/-! ## Every history -/

namespace History

variable {env : Environment} {history : History}

theorem verifiedAmounts_serve (operation : Operation) (epoch : ℚ) :
    (serve env history operation).verifiedAmounts epoch =
      history.verifiedAmounts epoch ++
        (verifiedAmount? epoch
          (operation, (operation.handle env history.world).1)).toList := by
  simp only [verifiedAmounts, serve, List.filterMap_append]
  congr 1

theorem handle_answer (request : Request) (world : World) :
    (Operation.answer request).handle env world =
      (match (request.handle env world).1 with
        | .returned response => .returned (.response response)
        | .threw reason => .threw reason
        | .blocked => .blocked,
        (request.handle env world).2) := by
  unfold Operation.handle Operation.handler Request.handle
  rw [run_bind]
  rcases run (machine env) (request.handler env) world with
    ⟨_ | _ | _, after⟩ <;> rfl

structure Kept (env : Environment) (history : History) : Prop where
  reliable : Reliable env history.world
  pools : history.world.accounts.Pools history.verifiedAmounts

private theorem verifiedAmounts_of_other {operation : Operation}
    (other : ∀ body, operation ≠ .answer (.runProcess body))
    (epoch : ℚ) :
    (serve env history operation).verifiedAmounts epoch =
      history.verifiedAmounts epoch := by
  rw [verifiedAmounts_serve]
  have nothing : verifiedAmount? epoch
      (operation, (operation.handle env history.world).1) = none := by
    unfold verifiedAmount?
    split
    · next body result same =>
        exact absurd (congrArg Prod.fst same) (other body)
    · rfl
  rw [nothing]
  exact List.append_nil _

private theorem verifiedAmounts_of_run (kept : history.Kept env)
    (body : RunProcessDto) (epoch : ℚ) :
    (serve env history (.answer (.runProcess body))).verifiedAmounts
        epoch =
      history.verifiedAmounts epoch ++
        if history.world.accounts.Accepts body ∧
          Accounts.epochOf body = epoch then [body.amount] else [] := by
  obtain ⟨sound, keptArrays, healthy⟩ := kept.reliable
  obtain ⟨_, _, answers⟩ :=
    Request.accounts_runProcess sound keptArrays healthy body
  rw [verifiedAmounts_serve, handle_answer]
  congr 1
  cases outcome : ((Request.runProcess body).handle env
      history.world).1 with
  | threw reason =>
      rw [outcome] at answers
      rw [if_neg fun both => answers.2 both.1]
      rfl
  | blocked =>
      rw [outcome] at answers
      cases answers
  | returned response =>
      rw [outcome] at answers
      cases response with
      | run result =>
          obtain ⟨_, figures⟩ := answers
          by_cases accepts : history.world.accounts.Accepts body
          · rw [if_pos accepts] at figures
            by_cases here : Accounts.epochOf body = epoch
            · simp [verifiedAmount?, figures.1, here, accepts]
            · simp [verifiedAmount?, here]
          · rw [if_neg accepts] at figures
            simp [verifiedAmount?, figures.1, accepts]
      | finalized result =>
          cases answers
      | metrics result =>
          cases answers
      | process result =>
          cases answers

/-- The step lemma: every operation keeps the pools. -/
theorem Kept.serve (kept : history.Kept env) (operation : Operation) :
    (serve env history operation).Kept env := by
  obtain ⟨reliable, pools⟩ := kept
  cases operation with
  | register id type =>
      have handled : (Operation.register id type).handle env
          history.world = (.returned (.admitted (Nodes.freshNode id
            type)), Nodes.registered env history.world id type) :=
        rfl
      have after : (History.serve env history
          (.register id type)).world =
            Nodes.registered env history.world id type :=
        congrArg Prod.snd handled
      refine ⟨?_, ?_⟩
      · rw [after]
        exact reliable.register id type
      · rw [after, accounts_register]
        exact pools.of_same rfl (verifiedAmounts_of_other nofun)
  | answer request =>
      have after : (History.serve env history (.answer request)).world =
          (request.handle env history.world).2 :=
        congrArg Prod.snd (handle_answer request history.world)
      obtain ⟨accounts, _⟩ := reliable.accounts_handle request
      refine ⟨?_, ?_⟩
      · rw [after]
        exact reliable.handle request
      rw [after, accounts]
      cases request with
      | runProcess body =>
          have added := verifiedAmounts_of_run ⟨reliable, pools⟩ body
          rw [Accounts.act, Accounts.serve]
          by_cases accepts : history.world.accounts.Accepts body
          · rw [if_pos accepts]
            refine pools.settle body ?_
            intro epoch
            rw [added]
            simp only [accepts, true_and]
          · have none_ : ∀ epoch, (History.serve env history
                (.answer (.runProcess body))).verifiedAmounts epoch =
                  history.verifiedAmounts epoch := by
              intro epoch
              rw [added, if_neg fun both => accepts both.1]
              exact List.append_nil _
            rw [if_neg accepts]
            split
            · exact pools.of_same rfl none_
            · exact pools.of_same rfl none_
      | finalizeEpoch epochNumber =>
          exact pools.finalize epochNumber
            (verifiedAmounts_of_other (by simp))
      | metrics epochNumber =>
          exact pools.of_same rfl (verifiedAmounts_of_other (by simp))
      | getProcess processId =>
          exact pools.of_same rfl (verifiedAmounts_of_other (by simp))

/-- The run lemma: every history has kept its pools. -/
theorem kept_of (env : Environment) (operations : List Operation) :
    (of env operations).Kept env := by
  induction operations using List.reverseRecOn with
  | nil =>
      refine ⟨reliable_initial, ?_, ?_⟩
      · intro epoch _
        rfl
      · intro epoch figures found
        cases found
  | append_singleton operations operation inductionHypothesis =>
      rw [of_append_singleton]
      exact inductionHypothesis.serve operation

/-- Whenever an open epoch is finalized, the distribution is the sum of the
canonical formula over the verified runs of the epoch. -/
theorem finalized_meets_formula (env : Environment)
    (operations : List Operation) (epoch : ℚ)
    (isOpen : ((of env operations).world.epochs.find? epoch).map
      Epoch.status = some .opened) :
    ∃ result after,
      (Operation.answer (.finalizeEpoch epoch)).handle env
          (of env operations).world =
        (.returned (.response (.finalized result)), after) ∧
      result.paid =
        (((of env operations).verifiedAmounts epoch).map fun amount =>
          (Emission.calculate amount).nodeShare).sum ∧
      result.operationalMargin =
        (((of env operations).verifiedAmounts epoch).map fun amount =>
          (Emission.calculate amount).afcShare).sum ∧
      ∀ entry ∈ result.distributionLog,
        entry.reason ≠ Commission.reasonMargin → 0 < entry.amount := by
  obtain ⟨⟨sound, kept, healthy⟩, pools⟩ := kept_of env operations
  obtain ⟨row, found, status⟩ := Option.map_eq_some_iff.mp isOpen
  have figures : (of env operations).world.accounts.epochs epoch =
      some row.figures := by
    simp [World.accounts, found]
  obtain ⟨after, handled, _⟩ :=
    Request.accounts_finalizeEpoch_of_open sound kept healthy found
      status
  have paid : (of env operations).world.accounts.paid epoch
      row.totalFees = row.totalFees * (3 / 4) :=
    healthy.paid_of_open figures status
  have total : row.totalFees =
      (((of env operations).verifiedAmounts epoch).map fun amount =>
        Commission.computeFee amount).sum :=
    pools.opened epoch row.figures figures status
  have share : ∀ factor : ℚ,
      (((of env operations).verifiedAmounts epoch).map fun amount =>
        amount * (5 / 1000) * factor).sum = row.totalFees * factor := by
    intro factor
    rw [total, ← List.sum_map_mul_right]
    congr 1
    apply List.map_congr_left
    intro amount _
    rw [Commission.computeFee, Commission.feeRate]
    ring
  refine ⟨(of env operations).world.accounts.closing epoch
    row.totalFees, after, ?_, paid.trans (share (3 / 4)).symm, ?_, ?_⟩
  · rw [handle_answer, handled]
  · refine Eq.trans ?_ (share (1 / 4)).symm
    change row.totalFees - (of env operations).world.accounts.paid epoch
      row.totalFees = _
    rw [paid]
    ring
  · intro entry member work
    rcases List.mem_append.mp member with payment | margin
    · exact healthy.amount_pos figures status payment
    · rw [List.mem_singleton.mp margin] at work
      exact absurd rfl work

/-- A registration, two runs, a registration anew, and a look. -/
def knownOperations : List Operation :=
  [.register "node-7" "validator",
    .answer (.runProcess
      (Orchestrator.transferBody "p-1" (some ["node-7"]))),
    .answer (.runProcess
      (Orchestrator.transferBody "p-2" none
        Orchestrator.none_ne_some_nil)),
    .register "node-7" "router",
    .answer (.metrics 1)]

theorem knownOperations_meet_formula :
    ∃ result after,
      (Operation.answer (.finalizeEpoch 1)).handle .plain
          (of .plain knownOperations).world =
        (.returned (.response (.finalized result)), after) ∧
      result.paid =
        (((of .plain knownOperations).verifiedAmounts 1).map fun amount =>
          (Emission.calculate amount).nodeShare).sum ∧
      result.operationalMargin =
        (((of .plain knownOperations).verifiedAmounts 1).map fun amount =>
          (Emission.calculate amount).afcShare).sum ∧
      ∀ entry ∈ result.distributionLog,
        entry.reason ≠ Commission.reasonMargin → 0 < entry.amount :=
  finalized_meets_formula .plain knownOperations 1 (by decide +kernel)

end History

end ArosParadigm
