import ArosParadigm.ReferenceCore
import Mathlib.Algebra.BigOperators.Ring.List
import Mathlib.Tactic.Linarith
import Mathlib.Tactic.NormNum
import Mathlib.Tactic.Ring

/-!
# Epochs of the reference core

Histories of calls on the reference core: which of them end in a state whose
pool is distributed without a remainder, and in which of them a payment goes
to a node that worked in the epoch.
-/

namespace ArosParadigm.Reference

/-- A call on `AST` or on its registry of nodes. -/
inductive Call where
  | runProcess (request : ProcessRequest)
  | register (id : String) (type : NodeType) (uptime : ℚ)
  | recordWork (id : String) (success : Bool)
  | penalize (id : String)
  | finalizeEpoch

variable (env : Environment)

/-- The state after a call. -/
def AST.perform (ast : AST) : Call → AST
  | .runProcess request => (ast.runProcess env request).2
  | .register id type uptime =>
      { ast with nodes := Reference.register ast.nodes id type uptime }
  | .recordWork id success =>
      { ast with nodes := Reference.recordWork ast.nodes id success }
  | .penalize id =>
      { ast with nodes := Reference.penalize ast.nodes id }
  | .finalizeEpoch => ast.finalizeEpoch.2

def AST.verifies (ast : AST) : Call → Bool
  | .runProcess request =>
      match (ast.runProcess env request).1 with
      | .ok result => result.verified
      | .error _ => false
  | _ => false

/-- A state of the core with what happened since the last `finalizeEpoch`. -/
structure Epoch where
  ast : AST
  /-- The ids of the nodes assigned to the verified processes. -/
  workers : List String
  /-- Some process was verified. -/
  started : Bool

def Epoch.step (epoch : Epoch) (call : Call) : Epoch :=
  let ast := epoch.ast.perform env call
  match call with
  | .finalizeEpoch => ⟨ast, [], false⟩
  | _ =>
      if epoch.ast.verifies env call then
        ⟨ast, epoch.workers ++ epoch.ast.assigned.map NodeEntity.id, true⟩
      else
        ⟨ast, epoch.workers, epoch.started⟩

/-- The epoch after calls that start with the constructor of `AST`. -/
def after (calls : List Call) : Epoch :=
  calls.foldl (Epoch.step env) ⟨.initial, [], false⟩

/-- `finalizeEpoch()` distributes the whole pool: `paid` and `margin` make up
the pool that is reset, and the tallies grow by `paid`. -/
def AST.Reconciles (ast : AST) : Prop :=
  let result := ast.finalizeEpoch.1
  let after := ast.finalizeEpoch.2
  result.paid + result.margin = result.total ∧
    result.reconciled = true ∧
    result.total = ast.commission.pool ∧
    after.commission.pool = 0 ∧
    after.coin.earnedRetained =
      ast.coin.earnedRetained + result.paid ∧
    (after.nodes.map NodeEntity.earned).sum =
      (ast.nodes.map NodeEntity.earned).sum + result.paid

def AST.payment (ast : AST) (node : NodeEntity) : ℚ :=
  node.weight * (ast.commission.pool * (1 - marginRate)) /
    totalWeight ast.nodes

theorem finalizeEpoch_eq (ast : AST) :
    let paid := (ast.nodes.map ast.payment).sum
    let margin := ast.commission.pool * marginRate
    ast.finalizeEpoch =
      (⟨ast.nodes.map fun node => ⟨node.id, ast.payment node⟩, margin,
          paid, ast.commission.pool,
          |paid + margin - ast.commission.pool| < 1 / 1000000000⟩,
        { ast with
          commission := { ast.commission with pool := 0 }
          nodes := ast.nodes.map fun node =>
            { node with earned := node.earned + ast.payment node }
          coin := { ast.coin with
            earnedRetained := ast.coin.earnedRetained + paid } }) := by
  intro paid margin
  have loop := payNodes_eq (ast.commission.pool * (1 - marginRate))
    (totalWeight ast.nodes) ast.nodes ast.coin 0 []
  simp only [zero_add, List.nil_append] at loop
  unfold AST.finalizeEpoch Commission.finalizeEpoch
  simp only
  rw [loop]
  rfl

theorem sum_payment (ast : AST) :
    (ast.nodes.map ast.payment).sum =
      if (ast.nodes.map NodeEntity.weight).sum = 0 then 0
      else ast.commission.pool * (1 - marginRate) := by
  have factored : (ast.nodes.map ast.payment).sum =
      (ast.nodes.map NodeEntity.weight).sum *
        (ast.commission.pool * (1 - marginRate) /
          totalWeight ast.nodes) := by
    unfold AST.payment
    simp only [mul_div_assoc]
    exact List.sum_map_mul_right ast.nodes NodeEntity.weight _
  rw [factored]
  unfold totalWeight
  by_cases nothing : (ast.nodes.map NodeEntity.weight).sum = 0
  · simp [nothing]
  · rw [if_neg nothing, if_neg nothing, mul_div_cancel₀ _ nothing]

/-- The pool is distributed without a remainder exactly when some weight is
left to divide by, or when there is nothing to distribute. -/
theorem reconciles_iff (calls : List Call) :
    (after env calls).ast.Reconciles ↔
      ((after env calls).ast.nodes.map NodeEntity.weight).sum ≠ 0 ∨
        (after env calls).ast.commission.pool = 0 := by
  generalize (after env calls).ast = ast
  have earned : ((ast.nodes.map fun node =>
      { node with earned := node.earned + ast.payment node }).map
        NodeEntity.earned).sum =
      (ast.nodes.map NodeEntity.earned).sum +
        (ast.nodes.map ast.payment).sum := by
    rw [List.map_map]
    exact List.sum_map_add
  unfold AST.Reconciles
  rw [finalizeEpoch_eq]
  simp only [sum_payment] at earned ⊢
  by_cases nothing : (ast.nodes.map NodeEntity.weight).sum = 0
  · rw [if_pos nothing] at earned ⊢
    constructor
    · rintro ⟨whole, _⟩
      right
      unfold marginRate at whole
      linarith
    · rintro (weighty | empty)
      · exact absurd nothing weighty
      · refine ⟨?_, ?_, trivial, trivial, trivial, earned⟩
        · rw [empty]
          ring
        · simp [empty]
  · rw [if_neg nothing] at earned ⊢
    have whole : ast.commission.pool * (1 - marginRate) +
        ast.commission.pool * marginRate = ast.commission.pool := by
      ring
    refine ⟨fun _ => Or.inl nothing, fun _ =>
      ⟨whole, ?_, trivial, trivial, trivial, earned⟩⟩
    simp [whole]

def penalizedCalls : List Call :=
  [.penalize "node-1", .penalize "node-2", .penalize "node-3",
    .runProcess ⟨"p-1", 1000, "transfer", true⟩]

/-- No node has a weight, so three quarters of the pool disappear. -/
theorem pool_disappears :
    ¬(after .plain penalizedCalls).ast.Reconciles ∧
      (after .plain penalizedCalls).ast.commission.pool = 5 ∧
      (after .plain penalizedCalls).ast.finalizeEpoch.1 =
        ⟨[⟨"node-1", 0⟩, ⟨"node-2", 0⟩, ⟨"node-3", 0⟩], 5 / 4, 0, 5,
          false⟩ := by
  have result : (after .plain penalizedCalls).ast.finalizeEpoch.1 =
      ⟨[⟨"node-1", 0⟩, ⟨"node-2", 0⟩, ⟨"node-3", 0⟩], 5 / 4, 0, 5,
        false⟩ := by
    decide +kernel
  refine ⟨?_, by decide +kernel, result⟩
  rintro ⟨_, reconciled, _⟩
  rw [result] at reconciled
  cases reconciled

/-- Every node that `finalizeEpoch()` pays was assigned to a process that was
verified since the last one. -/
def Epoch.PaysWork (epoch : Epoch) : Prop :=
  ∀ payment ∈ epoch.ast.finalizeEpoch.1.distributionLog,
    0 < payment.payment → payment.nodeId ∈ epoch.workers

/-- The first process of an epoch finds no weight at a node that it is not
assigned to. -/
def Epoch.StartsClean (epoch : Epoch) : Call → Prop
  | .runProcess request =>
      request.admissible = true → epoch.started = false →
        ∀ node ∈ epoch.ast.nodes, node.status ≠ .active → node.weight = 0
  | _ => True

variable {env}

section Runs

variable {ast : AST} {request : ProcessRequest}

def AST.Positive (ast : AST) : Prop :=
  ∀ id verdict, ast.verdicts id = some verdict → verdict.verified = true

theorem AST.Positive.update (positive : ast.Positive)
    {verdict : PoTVerdict} (verified : verdict.verified = true)
    (id : String) :
    ∀ tested stored,
      Function.update ast.verdicts id (some verdict) tested = some stored →
        stored.verified = true := by
  intro tested stored found
  by_cases same : tested = id
  · rw [same, Function.update_self] at found
    cases found
    exact verified
  · rw [Function.update_of_ne same] at found
    exact positive tested stored found

theorem judge_of_positive (intact : ast.Intact env)
    (positive : ast.Positive) (admissible : request.admissible = true) :
    ∃ verdict judged,
      (executed env ast request).judge env request = (verdict, judged) ∧
        verdict.verified = true ∧
        judged.authorizeEmission request.id = true ∧
        judged.Intact env ∧ judged.Positive ∧
        judged.nodes = (executed env ast request).nodes := by
  have executedIntact : (executed env ast request).Intact env :=
    intact_executed intact
  cases stored : (executed env ast request).verdicts request.id with
  | none =>
      have verified : (firstVerdict env (executed env ast request)
          request).verified = true :=
        every_executed intact admissible
      refine ⟨_, _, judge_of_fresh stored, verified, ?_,
        AST.Intact.capture executedIntact _ _ _,
        AST.Positive.update positive verified _, rfl⟩
      simp [AST.authorizeEmission, AST.capture, verified]
  | some verdict =>
      have verified : verdict.verified = true :=
        positive request.id verdict stored
      refine ⟨verdict, AST.capture env (executed env ast request)
        request.id "pot_verdict" (verifiedData verdict.verified), ?_,
        verified, ?_, executedIntact.capture _ _ _, positive, rfl⟩
      · unfold AST.judge AST.verify
        rw [stored]
      · unfold AST.authorizeEmission AST.capture
        rw [stored]
        exact verified

theorem runProcess_of_admissible (intact : ast.Intact env)
    (positive : ast.Positive) (admissible : request.admissible = true) :
    ∃ result after, ast.runProcess env request = (.ok result, after) ∧
      result.verified = true ∧ after.Intact env ∧ after.Positive ∧
      after.nodes = ast.assigned.foldl
        (fun nodes node => recordWork nodes node.id true) ast.nodes := by
  obtain ⟨verdict, judged, isJudged, verified, authorized, judgedIntact,
    judgedPositive, nodes⟩ := judge_of_positive intact positive admissible
  obtain ⟨after, settled, kept, verdicts, _, _, _, sameNodes⟩ :=
    settle_of_authorized authorized
  refine ⟨⟨request.id, true, none, some request.amount,
      some (computeFee request.amount)⟩, after, ?_, rfl,
    kept judgedIntact, ?_, sameNodes.trans nodes⟩
  · unfold AST.runProcess
    unfold executed at isJudged
    simp only [admissible, isJudged, verified, Bool.not_true,
      Bool.false_eq_true, if_false]
    exact settled
  · unfold AST.Positive
    rw [verdicts]
    exact judgedPositive

theorem verifies_of_ran {result : RunResult} {after : AST}
    (ran : ast.runProcess env request = (.ok result, after)) :
    ast.verifies env (.runProcess request) = result.verified := by
  simp only [AST.verifies, ran]

theorem mem_foldl_recordWork {assigned nodes : List NodeEntity}
    {node : NodeEntity}
    (member : node ∈ assigned.foldl
      (fun nodes node => recordWork nodes node.id true) nodes) :
    node.id ∈ assigned.map NodeEntity.id ∨ node ∈ nodes := by
  induction assigned generalizing nodes with
  | nil =>
      exact Or.inr member
  | cons head rest inductionHypothesis =>
      rw [List.foldl_cons] at member
      rcases inductionHypothesis member with worked | old
      · exact Or.inl (List.mem_cons_of_mem _ worked)
      · obtain ⟨before, listed, isNode⟩ := List.mem_map.mp old
        by_cases same : before.id = head.id
        · rw [if_pos same] at isNode
          subst isNode
          left
          change before.id ∈ _
          rw [same]
          exact List.mem_cons_self
        · rw [if_neg same] at isNode
          exact Or.inr (isNode ▸ listed)

end Runs

/-! ## Runs of calls -/

/-- What holds between two calls. -/
structure Epoch.Current (env : Environment) (epoch : Epoch) : Prop where
  intact : epoch.ast.Intact env
  positive : epoch.ast.Positive
  unpaid : epoch.started = false → epoch.ast.commission.pool = 0
  worked : epoch.started = true →
    ∀ node ∈ epoch.ast.nodes, node.weight ≠ 0 → node.id ∈ epoch.workers

section Current

variable {epoch : Epoch}

theorem Epoch.Current.paysWork (current : epoch.Current env) :
    epoch.PaysWork := by
  intro payment member positive
  rw [finalizeEpoch_eq] at member
  obtain ⟨node, listed, rfl⟩ := List.mem_map.mp member
  have paid : epoch.ast.payment node ≠ 0 := positive.ne'
  unfold AST.payment at paid
  cases started : epoch.started with
  | false =>
      rw [current.unpaid started] at paid
      exact absurd (by simp) paid
  | true =>
      apply current.worked started node listed
      intro weightless
      rw [weightless] at paid
      exact paid (by simp)

theorem step_of_verifies {call : Call}
    (verifies : epoch.ast.verifies env call = true) :
    epoch.step env call =
      ⟨epoch.ast.perform env call,
        epoch.workers ++ epoch.ast.assigned.map NodeEntity.id, true⟩ := by
  cases call with
  | finalizeEpoch =>
      cases verifies
  | _ =>
      exact if_pos verifies

theorem step_of_idle {call : Call} (goesOn : call ≠ .finalizeEpoch)
    (idle : epoch.ast.verifies env call = false) :
    epoch.step env call =
      ⟨epoch.ast.perform env call, epoch.workers, epoch.started⟩ := by
  cases call with
  | finalizeEpoch =>
      exact absurd rfl goesOn
  | _ =>
      simp only [Epoch.step, idle, Bool.false_eq_true, if_false]

private theorem Epoch.Current.idle (current : epoch.Current env)
    {call : Call} (goesOn : call ≠ .finalizeEpoch)
    (idle : epoch.ast.verifies env call = false)
    (intact : (epoch.ast.perform env call).Intact env)
    (verdicts : (epoch.ast.perform env call).verdicts =
      epoch.ast.verdicts)
    (pool : (epoch.ast.perform env call).commission.pool =
      epoch.ast.commission.pool)
    (nodes : ∀ node ∈ (epoch.ast.perform env call).nodes,
      node.weight ≠ 0 → ∃ before ∈ epoch.ast.nodes,
        before.weight ≠ 0 ∧ before.id = node.id) :
    (epoch.step env call).Current env := by
  rw [step_of_idle goesOn idle]
  refine ⟨intact, ?_, ?_, ?_⟩
  · unfold AST.Positive
    rw [verdicts]
    exact current.positive
  · intro unstarted
    exact pool.trans (current.unpaid unstarted)
  · intro started node member weighty
    obtain ⟨before, listed, weight, sameId⟩ := nodes node member weighty
    rw [← sameId]
    exact current.worked started before listed weight

private theorem Epoch.Current.refused (current : epoch.Current env)
    {request : ProcessRequest} (refused : request.admissible = false) :
    (epoch.step env (.runProcess request)).Current env := by
  have ran := @runProcess_of_inadmissible env epoch.ast request refused
  have performed : epoch.ast.perform env (.runProcess request) =
      epoch.ast.capture env request.id "initiation"
        (amountData request.amount) :=
    congrArg Prod.snd ran
  apply current.idle (by simp)
  · exact verifies_of_ran ran
  · rw [performed]
    exact current.intact.capture _ _ _
  · rw [performed]
    rfl
  · rw [performed]
    rfl
  · rw [performed]
    intro node member weighty
    exact ⟨node, member, weighty, rfl⟩

private theorem Epoch.Current.verified (current : epoch.Current env)
    {request : ProcessRequest} (admissible : request.admissible = true)
    (clean : epoch.StartsClean (.runProcess request)) :
    (epoch.step env (.runProcess request)).Current env := by
  obtain ⟨result, after, ran, verified, intact, positive, nodes⟩ :=
    runProcess_of_admissible current.intact current.positive admissible
  have performed : epoch.ast.perform env (.runProcess request) = after :=
    congrArg Prod.snd ran
  have verifies : epoch.ast.verifies env (.runProcess request) = true :=
    (verifies_of_ran ran).trans verified
  rw [step_of_verifies verifies, performed]
  refine ⟨intact, positive, ?_, ?_⟩
  · intro unstarted
    cases unstarted
  · intro _ node member weighty
    rw [nodes] at member
    apply List.mem_append.mpr
    rcases mem_foldl_recordWork member with worked | old
    · exact Or.inr worked
    · by_cases active : node.status = .active
      · have assigned : node ∈ epoch.ast.assigned :=
          List.mem_filter.mpr ⟨old, decide_eq_true active⟩
        exact Or.inr (List.mem_map_of_mem assigned)
      · left
        cases started : epoch.started with
        | true =>
            exact current.worked started node old weighty
        | false =>
            exact absurd (clean admissible started node old active) weighty

/-- Every call but one of `recordWork` keeps what holds, if it starts the
epoch clean. -/
theorem Epoch.Current.step (current : epoch.Current env) {call : Call}
    (unforced : ∀ id success, call ≠ .recordWork id success)
    (clean : epoch.StartsClean call) :
    (epoch.step env call).Current env := by
  cases call with
  | runProcess request =>
      cases admissible : request.admissible with
      | false =>
          exact current.refused admissible
      | true =>
          exact current.verified admissible clean
  | register id type uptime =>
      refine current.idle (by simp) rfl current.intact rfl rfl ?_
      intro node member weighty
      rcases Keyed.eq_or_mem_of_mem_upsert _ member with rfl | old
      · exact absurd rfl weighty
      · exact ⟨node, old, weighty, rfl⟩
  | recordWork id success =>
      exact absurd rfl (unforced id success)
  | penalize id =>
      refine current.idle (by simp) rfl current.intact rfl rfl ?_
      intro node member weighty
      obtain ⟨before, listed, isNode⟩ := List.mem_map.mp member
      by_cases same : before.id = id
      · rw [if_pos same] at isNode
        subst isNode
        refine ⟨before, listed, ?_, rfl⟩
        intro weightless
        apply weighty
        change before.weight * (1 / 2) = 0
        rw [weightless, zero_mul]
      · rw [if_neg same] at isNode
        subst isNode
        exact ⟨before, listed, weighty, rfl⟩
  | finalizeEpoch =>
      refine ⟨current.intact, current.positive, fun _ => rfl, ?_⟩
      intro started
      cases started

theorem current_initial :
    Epoch.Current env ⟨.initial, [], false⟩ where
  intact := trivial
  positive := by
    intro id verdict found
    cases found
  unpaid _ := rfl
  worked started := by
    cases started

end Current

/-- The reference core pays only for work of the epoch in every run in which
every first process of an epoch starts it clean. -/
theorem paysWork_of_clean (calls : List Call)
    (unforced : ∀ id success, .recordWork id success ∉ calls)
    (clean : ∀ before call, before ++ [call] <+: calls →
      (after env before).StartsClean call) :
    (after env calls).PaysWork := by
  suffices current : (after env calls).Current env from current.paysWork
  induction calls using List.reverseRecOn with
  | nil =>
      exact current_initial
  | append_singleton before call inductionHypothesis =>
      have current := inductionHypothesis
        (fun id success member =>
          unforced id success (List.mem_append_left [call] member))
        (fun earlier later listed =>
          clean earlier later (listed.trans (List.prefix_append _ _)))
      have stepped := @Epoch.Current.step env _ current call
        (fun id success same => unforced id success
          (same ▸ List.mem_append_right before List.mem_cons_self))
        (clean before call List.prefix_rfl)
      unfold after at stepped ⊢
      rw [List.foldl_append]
      exact stepped

/-- One epoch in which a node is penalized after its work. -/
def cleanCalls : List Call :=
  [.runProcess ⟨"p-1", 1000, "transfer", true⟩, .penalize "node-1",
    .finalizeEpoch]

theorem paysWork_cleanCalls : (after .plain cleanCalls).PaysWork := by
  apply paysWork_of_clean cleanCalls
  · intro id success member
    simp [cleanCalls] at member
  · intro before call listed
    cases call with
    | runProcess request =>
        cases before with
        | nil =>
            intro _ _ node member inactive
            have active : ∀ node ∈ AST.initial.nodes,
                node.status = .active := by
              decide
            exact absurd (active node member) inactive
        | cons first rest =>
            have later := (List.cons_prefix_cons.mp listed).2
            have member := later.subset
              (List.mem_append_right rest List.mem_cons_self)
            simp at member
    | _ =>
        trivial

/-- An epoch after the one in which a node worked and was penalized. -/
def lateCalls : List Call :=
  [.runProcess ⟨"p-1", 1000, "transfer", true⟩, .finalizeEpoch,
    .penalize "node-1", .runProcess ⟨"p-2", 1000, "transfer", true⟩]

/-- The penalized node is paid in an epoch in which it was never assigned. -/
theorem idle_node_paid :
    ¬(after .plain lateCalls).PaysWork ∧
      ⟨"node-1", 5 / 12⟩ ∈
        (after .plain lateCalls).ast.finalizeEpoch.1.distributionLog ∧
      (after .plain lateCalls).workers = ["node-2", "node-3"] := by
  have paid : ⟨"node-1", 5 / 12⟩ ∈
      (after .plain lateCalls).ast.finalizeEpoch.1.distributionLog := by
    decide +kernel
  have workers :
      (after .plain lateCalls).workers = ["node-2", "node-3"] := by
    decide +kernel
  refine ⟨?_, paid, workers⟩
  intro paysWork
  have worked := paysWork _ paid (by norm_num)
  rw [workers] at worked
  simp at worked

end ArosParadigm.Reference
