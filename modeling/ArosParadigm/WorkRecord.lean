import ArosParadigm.Payouts
import Mathlib.Data.List.TakeWhile
import Mathlib.Tactic.Positivity

/-!
# Work records

The counters of a node over a history of requests to the registry: what a
request does to the row of one node, when the counters are the calls made for
the node since it was first registered, and the relation between counters and
weights that every stored node satisfies.
-/

namespace ArosParadigm.Nodes

open Await

inductive Request where
  | register (id type : String)
  | recordExecution (id : String) (success : Bool)
  | receivePayment (id : String) (amount : ℚ)
  deriving DecidableEq

def Request.program : Request → Service Unit
  | .register id type => do
      let _ ← Nodes.register id type
      return ()
  | .recordExecution id success => do
      let _ ← Nodes.recordExecution id success
      return ()
  | .receivePayment id amount => Nodes.receivePayment id amount

/-- The world after one request. -/
def serve (env : Environment) (world : World) (request : Request) : World :=
  (run (machine env) request.program world).2

/-- The world after requests that are served one after another. -/
def history (env : Environment) (world : World) (requests : List Request) :
    World :=
  requests.foldl (serve env) world

/-- The counters and the derived fields of a node agree. -/
structure Sound (node : NodeEntity) : Prop where
  successes_le : node.successes ≤ node.total
  uptime : node.uptime = 1
  fresh : node.total = 0 → node.reputation = 1 ∧ node.weight = 1
  earned : node.total ≠ 0 →
    node.reputation = (node.successes / node.total : ℚ) * node.uptime ∧
      node.weight = node.reputation * node.uptime

theorem sound_freshNode (id type : String) : Sound (freshNode id type) where
  successes_le := Nat.le_refl _
  uptime := rfl
  fresh _ := ⟨rfl, rfl⟩
  earned idle := absurd rfl idle

theorem Sound.worked {node : NodeEntity} (sound : Sound node)
    (success : Bool) : Sound (Nodes.worked node success) where
  successes_le := by
    have bound := sound.successes_le
    change (if success then node.successes + 1 else node.successes) ≤
      node.total + 1
    split <;> omega
  uptime := sound.uptime
  fresh idle := absurd idle (Nat.succ_ne_zero _)
  earned busy := by
    refine ⟨?_, rfl⟩
    change computeReputation _ (node.total + 1) _ = _
    rw [computeReputation, if_neg (Nat.succ_ne_zero _)]
    rfl

namespace Sound

variable {node : NodeEntity}

theorem weight_eq_reputation (sound : Sound node) :
    node.weight = node.reputation := by
  by_cases idle : node.total = 0
  · obtain ⟨reputation, weight⟩ := sound.fresh idle
    rw [reputation, weight]
  · rw [(sound.earned idle).2, sound.uptime, mul_one]

theorem reputation_eq (sound : Sound node) (busy : node.total ≠ 0) :
    node.reputation = node.successes / node.total := by
  rw [(sound.earned busy).1, sound.uptime, mul_one]

theorem reputation_nonneg (sound : Sound node) : 0 ≤ node.reputation := by
  by_cases idle : node.total = 0
  · rw [(sound.fresh idle).1]
    exact zero_le_one
  · rw [sound.reputation_eq idle]
    positivity

theorem reputation_le_one (sound : Sound node) : node.reputation ≤ 1 := by
  by_cases idle : node.total = 0
  · exact (sound.fresh idle).1.le
  · have bound : (node.successes : ℚ) ≤ node.total :=
      Nat.cast_le.mpr sound.successes_le
    rw [sound.reputation_eq idle]
    exact div_le_one_of_le₀ bound (Nat.cast_nonneg _)

theorem reputation_pos (sound : Sound node) (good : 0 < node.successes) :
    0 < node.reputation := by
  have busy : 0 < node.total := good.trans_le sound.successes_le
  rw [sound.reputation_eq busy.ne']
  exact div_pos (Nat.cast_pos.mpr good) (Nat.cast_pos.mpr busy)

theorem reputation_lt_one (sound : Sound node)
    (failed : node.successes < node.total) : node.reputation < 1 := by
  have busy : 0 < node.total := by omega
  rw [sound.reputation_eq busy.ne']
  exact (div_lt_one (Nat.cast_pos.mpr busy)).mpr (Nat.cast_lt.mpr failed)

end Sound

/-- Every stored node is sound. -/
def AllSound (world : World) : Prop :=
  ∀ node ∈ world.nodes.rows, Sound node

/-- A call that leaves the rows of the nodes. -/
def SparesNodes : Call → Prop
  | .saveNode _ => False
  | _ => True

/-- The worlds reached from one without nodes by registrations, by recorded
executions, and by any other method that saves no node. -/
inductive Staffed (env : Environment) : World → Prop
  | unstaffed {world : World} (empty : world.nodes = .empty) :
      Staffed env world
  | register {world : World} (staffed : Staffed env world)
      (id type : String) :
      Staffed env (run (machine env) (Nodes.register id type) world).2
  | recordExecution {world : World} (staffed : Staffed env world)
      (id : String) (success : Bool) :
      Staffed env
        (run (machine env) (Nodes.recordExecution id success) world).2
  | other {world : World} (staffed : Staffed env world)
      {result : Type} {program : Service result}
      (spares : Uses SparesNodes program) :
      Staffed env (run (machine env) program world).2

section Metrics

variable {env : Environment} {world : World}

private theorem AllSound.saveNode (allSound : AllSound world)
    {row : NodeEntity} (sound : Sound row) :
    AllSound (world.saveNode row) := by
  intro node member
  rcases Keyed.Table.mem_rows_save member with rfl | ⟨old, _⟩
  · exact sound
  · exact allSound node old

private theorem nodes_of_spares {request : Call}
    (spares : SparesNodes request) {before after : World}
    {reply : request.Reply}
    (answered : machine env request before = some (reply, after)) :
    after.nodes = before.nodes := by
  cases request with
  | saveNode row =>
      exact spares.elim
  | claimInitialization =>
      obtain ⟨_, rfl⟩ := eq_of_claimInitialization answered
      rfl
  | awaitInitialization =>
      obtain rfl := eq_of_awaitInitialization answered
      rfl
  | _ =>
      cases answered
      rfl

theorem allSound_of_staffed (staffed : Staffed env world) :
    AllSound world := by
  induction staffed with
  | unstaffed empty =>
      unfold AllSound
      rw [empty]
      exact List.forall_mem_nil _
  | register _ id type inductionHypothesis =>
      rw [run_register]
      exact inductionHypothesis.saveNode (sound_freshNode id type)
  | @recordExecution world _ id success inductionHypothesis =>
      cases found : world.nodes.find? id with
      | none =>
          rw [run_recordExecution_of_none found]
          exact inductionHypothesis
      | some node =>
          rw [run_recordExecution_of_some found]
          have sound : Sound node :=
            inductionHypothesis node (Keyed.Table.mem_of_find? found)
          exact inductionHypothesis.saveNode (sound.worked success)
  | other _ spares inductionHypothesis =>
      refine run_invariant ?_ spares inductionHypothesis
      intro request allowed before reply after answered allSound
      unfold AllSound
      rw [nodes_of_spares allowed answered]
      exact allSound

private theorem weights_nonneg (staffed : Staffed env world)
    {epochNumber : ℚ} {weights : Commission.Weights}
    (weighed : Commission.weigh world (world.participations epochNumber)
      [] = .ok weights) :
    ∀ entry ∈ weights, 0 ≤ entry.2 := by
  apply Commission.nonneg_of_weigh ?_ weighed
  intro node member
  have sound := allSound_of_staffed staffed node member
  rw [sound.weight_eq_reputation]
  exact sound.reputation_nonneg

private theorem weightOf_nonneg {weights : Commission.Weights}
    (nonnegative : ∀ entry ∈ weights, 0 ≤ entry.2) (nodeId : String) :
    0 ≤ (Commission.weightOf weights nodeId).getD 0 := by
  cases found : Commission.weightOf weights nodeId with
  | none =>
      exact le_rfl
  | some weight =>
      obtain ⟨before, after, same, _⟩ := List.lookup_eq_some_iff.mp found
      have member : (nodeId, weight) ∈ weights := by
        simp [same]
      exact nonnegative _ member

private theorem of_mem_payments {weights : Commission.Weights}
    {total : ℚ} {entry : DistributionEntry}
    (member : entry ∈ Commission.payments weights total) :
    0 < (weights.map Prod.snd).sum ∧
      entry.amount =
        (Commission.weightOf weights entry.nodeId).getD 0 *
            (total * (1 - Commission.marginRate)) /
          (weights.map Prod.snd).sum := by
  unfold Commission.payments at member
  by_cases positive : 0 < (weights.map Prod.snd).sum
  · rw [if_pos positive] at member
    obtain ⟨nodeId, _, rfl⟩ := List.mem_map.mp member
    exact ⟨positive, rfl⟩
  · rw [if_neg positive] at member
    cases member

/-- Every stored node is sound, its weight lies between zero and its
reputation, and `finalizeEpoch` sums weights that are not negative and divides
by a positive sum. -/
theorem metrics_of_staffed (staffed : Staffed env world) :
    (∀ node ∈ world.nodes.rows, Sound node ∧
      0 ≤ node.weight ∧ node.weight ≤ node.reputation ∧
      node.reputation ≤ 1 ∧ (0 < node.successes → 0 < node.weight)) ∧
    (∀ epochNumber weights after,
      run (machine env) (Commission.confirmedWeights env epochNumber)
          world = (.returned weights, after) →
        ∀ entry ∈ weights, 0 ≤ entry.2) ∧
    ∀ epochNumber row value after,
      world.epochs.find? epochNumber = some row → row.status = .opened →
      run (machine env) (Commission.finalizeEpoch env epochNumber) world =
          (.returned value, after) →
        ∃ weights,
          run (machine env) (Commission.confirmedWeights env epochNumber)
              world = (.returned weights, world) ∧
          ∀ entry ∈ value.distributionLog,
            entry.reason = Commission.reasonWork →
              0 < (weights.map Prod.snd).sum ∧
                0 ≤ (Commission.weightOf weights entry.nodeId).getD 0 ∧
                entry.amount =
                  (Commission.weightOf weights entry.nodeId).getD 0 *
                      (row.totalFees * (1 - Commission.marginRate)) /
                    (weights.map Prod.snd).sum := by
  refine ⟨?_, ?_, ?_⟩
  · intro node member
    have sound := allSound_of_staffed staffed node member
    refine ⟨sound, ?_, sound.weight_eq_reputation.le,
      sound.reputation_le_one, ?_⟩
    · rw [sound.weight_eq_reputation]
      exact sound.reputation_nonneg
    · intro good
      rw [sound.weight_eq_reputation]
      exact sound.reputation_pos good
  · intro epochNumber weights after returned
    rw [Commission.run_confirmedWeights, Commission.weighOutcome]
      at returned
    cases weighed : Commission.weigh world
        (world.participations epochNumber) [] with
    | error id =>
        rw [weighed] at returned
        cases returned
    | ok final =>
        rw [weighed] at returned
        cases returned
        exact weights_nonneg staffed weighed
  · intro epochNumber row value after found isOpen returned
    obtain ⟨weights, weighed, rfl, _⟩ :=
      Commission.finalized_of_run_finalizeEpoch found isOpen returned
    have computed : run (machine env)
        (Commission.confirmedWeights env epochNumber) world =
          (.returned weights, world) := by
      rw [Commission.run_confirmedWeights, Commission.weighOutcome,
        weighed]
    refine ⟨weights, computed, ?_⟩
    intro entry member work
    rcases List.mem_append.mp member with payment | margin
    · obtain ⟨positive, amount⟩ := of_mem_payments payment
      exact ⟨positive,
        weightOf_nonneg (weights_nonneg staffed weighed) _, amount⟩
    · have different : Commission.reasonMargin ≠ Commission.reasonWork :=
        by decide
      rw [List.mem_singleton.mp margin] at work
      exact absurd work different

end Metrics

/-- A world with one node whose only work failed. -/
def failedWorld : World :=
  (run (machine .plain) (recordExecution "n-1" false)
    (run (machine .plain) (register "n-1" "validator") .initial).2).2

theorem metrics_of_failedWorld :
    ∃ node ∈ failedWorld.nodes.rows,
      Sound node ∧ 0 ≤ node.weight ∧ node.weight ≤ node.reputation := by
  have staffed : Staffed .plain failedWorld :=
    ((Staffed.unstaffed rfl).register "n-1" "validator").recordExecution
      "n-1" false
  obtain ⟨node, member⟩ := List.exists_mem_of_ne_nil
    failedWorld.nodes.rows (by decide +kernel)
  obtain ⟨sound, nonneg, atMost, _⟩ :=
    (metrics_of_staffed staffed).1 node member
  exact ⟨node, member, sound, nonneg, atMost⟩

section Row

variable (env : Environment) (world : World) (id : String)

/-- What a request does to the row of `id`. -/
def rowStep (row : Option NodeEntity) : Request → Option NodeEntity
  | .register registered type =>
      if registered = id then some (freshNode id type) else row
  | .recordExecution worker success =>
      if worker = id then row.map fun node => worked node success else row
  | .receivePayment .. => row

theorem serve_register (registered type : String) :
    serve env world (.register registered type) =
      Nodes.registered env world registered type :=
  rfl

theorem serve_recordExecution (worker : String) (success : Bool) :
    serve env world (.recordExecution worker success) =
      match world.nodes.find? worker with
      | some node => world.saveNode (worked node success)
      | none => world := by
  unfold serve Request.program
  cases found : world.nodes.find? worker with
  | some node =>
      rw [run_bind_of_returned (run_recordExecution_of_some found success)]
      rfl
  | none =>
      rw [run_bind_of_threw (run_recordExecution_of_none found success)]

theorem nodes_serve_receivePayment (payee : String) (amount : ℚ) :
    (serve env world (.receivePayment payee amount)).nodes =
      world.nodes := by
  unfold serve Request.program
  cases found : world.nodes.find? payee with
  | some node =>
      rw [run_receivePayment_of_some env found]
      rfl
  | none =>
      rw [run_receivePayment_of_none found]

theorem find?_serve (request : Request) :
    (serve env world request).nodes.find? id =
      rowStep id (world.nodes.find? id) request := by
  cases request with
  | register registered type =>
      rw [serve_register, rowStep]
      unfold Nodes.registered
      rw [World.append_nodes, World.saveNode_nodes,
        Keyed.Table.find?_save]
      by_cases same : registered = id
      · subst same
        rfl
      · have different : (freshNode registered type).id ≠ id := same
        rw [if_neg different, if_neg same]
  | recordExecution worker success =>
      rw [serve_recordExecution, rowStep]
      by_cases same : worker = id
      · subst same
        rw [if_pos rfl]
        cases found : world.nodes.find? worker with
        | some node =>
            have key : (worked node success).id = worker :=
              (worked_id node success).trans
                (Keyed.Table.key_of_find? found)
            change (world.saveNode (worked node success)).nodes.find?
              worker = _
            rw [World.saveNode_nodes, Keyed.Table.find?_save, if_pos key]
            rfl
        | none =>
            exact found
      · rw [if_neg same]
        cases found : world.nodes.find? worker with
        | some node =>
            have key : (worked node success).id ≠ id := by
              rw [worked_id, Keyed.Table.key_of_find? found]
              exact same
            exact Keyed.Table.find?_save_of_ne _ key
        | none =>
            rfl
  | receivePayment payee amount =>
      rw [nodes_serve_receivePayment, rowStep]

theorem find?_history (requests : List Request) :
    (history env world requests).nodes.find? id =
      requests.foldl (rowStep id) (world.nodes.find? id) := by
  induction requests generalizing world with
  | nil =>
      rfl
  | cons request rest inductionHypothesis =>
      exact (inductionHypothesis (serve env world request)).trans
        (congrArg (rest.foldl (rowStep id)) (find?_serve env world id request))

end Row

section Calls

variable (id : String)

/-- The request registers `id`. -/
def registers : Request → Bool
  | .register registered _ => registered = id
  | _ => false

/-- The request records work of `id`. -/
def attempted : Request → Bool
  | .recordExecution worker _ => worker = id
  | _ => false

/-- The request records successful work of `id`. -/
def confirmed : Request → Bool
  | .recordExecution worker success => worker = id && success
  | _ => false

/-- The requests from the first registration of `id` on. -/
def sinceRegistered (requests : List Request) : List Request :=
  requests.dropWhile fun request => !registers id request

/-- The calls of `recordExecution` for `id` since it was first registered. -/
def attempts (requests : List Request) : ℕ :=
  (sinceRegistered id requests).countP (attempted id)

/-- Those of them whose work succeeded. -/
def successes (requests : List Request) : ℕ :=
  (sinceRegistered id requests).countP (confirmed id)

/-- `id` is registered once more after work that was recorded for it. -/
def Renewed (requests : List Request) : Prop :=
  ∃ work renewal, attempted id work = true ∧ registers id renewal = true ∧
    [work, renewal].Sublist (sinceRegistered id requests)

variable {id}

private theorem rowStep_cases (request : Request) :
    (registers id request = true ∧ attempted id request = false ∧
        confirmed id request = false ∧
        ∃ type, ∀ row, rowStep id row request =
          some (freshNode id type)) ∨
      (registers id request = false ∧ attempted id request = true ∧
        ∃ success, confirmed id request = success ∧
          ∀ node, rowStep id (some node) request =
            some (worked node success)) ∨
      registers id request = false ∧ attempted id request = false ∧
        confirmed id request = false ∧
        ∀ row, rowStep id row request = row := by
  cases request with
  | register registered type =>
      by_cases same : registered = id
      · exact Or.inl ⟨decide_eq_true same, rfl, rfl, type,
          fun row => if_pos same⟩
      · exact Or.inr (Or.inr ⟨decide_eq_false same, rfl, rfl,
          fun row => if_neg same⟩)
  | recordExecution worker success =>
      by_cases same : worker = id
      · refine Or.inr (Or.inl ⟨rfl, decide_eq_true same, success, ?_,
          fun node => if_pos same⟩)
        simp [confirmed, same]
      · refine Or.inr (Or.inr ⟨rfl, decide_eq_false same, ?_,
          fun row => if_neg same⟩)
        simp [confirmed, same]
  | receivePayment payee amount =>
      exact Or.inr (Or.inr ⟨rfl, rfl, rfl, fun row => rfl⟩)

private theorem total_worked_once (node : NodeEntity) (success : Bool) :
    (worked node success).total = node.total + 1 :=
  rfl

private theorem successes_worked_once (node : NodeEntity)
    (success : Bool) :
    (worked node success).successes =
      node.successes + if success then 1 else 0 := by
  cases success <;> rfl

private theorem tally_of_foldl {requests : List Request}
    (kept : ∀ request ∈ requests, registers id request = false)
    (node : NodeEntity) :
    ∃ final, requests.foldl (rowStep id) (some node) = some final ∧
      final.total = node.total + requests.countP (attempted id) ∧
      final.successes =
        node.successes + requests.countP (confirmed id) := by
  induction requests generalizing node with
  | nil =>
      exact ⟨node, rfl, rfl, rfl⟩
  | cons request rest inductionHypothesis =>
      have restKept : ∀ later ∈ rest, registers id later = false :=
        fun later member => kept later (List.mem_cons_of_mem _ member)
      have headKept := kept request List.mem_cons_self
      rw [List.foldl_cons]
      rcases @rowStep_cases id request with
        ⟨renewed, _⟩ | ⟨_, tried, success, isSuccess, step⟩ |
          ⟨_, idle, unconfirmed, step⟩
      · rw [headKept] at renewed
        cases renewed
      · obtain ⟨final, folded, total, good⟩ :=
          inductionHypothesis restKept (worked node success)
        rw [step]
        refine ⟨final, folded, ?_, ?_⟩
        · rw [List.countP_cons_of_pos tried, total, total_worked_once]
          omega
        · rw [List.countP_cons, isSuccess, good, successes_worked_once]
          omega
      · obtain ⟨final, folded, total, good⟩ :=
          inductionHypothesis restKept node
        rw [step]
        refine ⟨final, folded, ?_, ?_⟩
        · rw [List.countP_cons_of_neg (by simp [idle]), total]
        · rw [List.countP_cons_of_neg (by simp [unconfirmed]), good]

/-- The row never counts more than the calls; where work is followed by a
registration it counts less. -/
private theorem total_of_foldl (requests : List Request)
    (node : NodeEntity) :
    ∃ final, requests.foldl (rowStep id) (some node) = some final ∧
      final.total ≤ node.total + requests.countP (attempted id) ∧
      ((∃ request ∈ requests, registers id request = true) →
        0 < node.total →
          final.total < node.total + requests.countP (attempted id)) := by
  induction requests generalizing node with
  | nil =>
      exact ⟨node, rfl, Nat.le_refl _,
        fun ⟨_, member, _⟩ => absurd member List.not_mem_nil⟩
  | cons request rest inductionHypothesis =>
      rw [List.foldl_cons]
      rcases @rowStep_cases id request with
        ⟨_, idle, _, type, step⟩ | ⟨other, tried, success, _, step⟩ |
          ⟨other, idle, _, step⟩
      · obtain ⟨final, folded, bound, _⟩ :=
          inductionHypothesis (freshNode id type)
        have fresh : (freshNode id type).total = 0 := rfl
        rw [step, List.countP_cons_of_neg (by simp [idle])]
        refine ⟨final, folded, ?_, ?_⟩
        · omega
        · intro _ positive
          omega
      · obtain ⟨final, folded, bound, strict⟩ :=
          inductionHypothesis (worked node success)
        rw [total_worked_once] at bound strict
        rw [step, List.countP_cons_of_pos tried]
        refine ⟨final, folded, by omega, ?_⟩
        rintro ⟨renewal, member, renews⟩ positive
        rcases List.mem_cons.mp member with here | later
        · rw [here, other] at renews
          cases renews
        · have lost := strict ⟨renewal, later, renews⟩ (by omega)
          omega
      · obtain ⟨final, folded, bound, strict⟩ := inductionHypothesis node
        rw [step, List.countP_cons_of_neg (by simp [idle])]
        refine ⟨final, folded, bound, ?_⟩
        rintro ⟨renewal, member, renews⟩ positive
        rcases List.mem_cons.mp member with here | later
        · rw [here, other] at renews
          cases renews
        · exact strict ⟨renewal, later, renews⟩ positive

/-- Work of `id` stands before a registration of `id`. -/
private def Overwritten (id : String) (requests : List Request) : Prop :=
  ∃ work renewal, attempted id work = true ∧ registers id renewal = true ∧
    [work, renewal].Sublist requests

private theorem overwritten_cons_of_idle {request : Request}
    {rest : List Request} (idle : attempted id request = false) :
    Overwritten id (request :: rest) ↔ Overwritten id rest := by
  constructor
  · rintro ⟨work, renewal, tried, renews, listed⟩
    cases listed with
    | cons _ later =>
        exact ⟨work, renewal, tried, renews, later⟩
    | cons_cons _ later =>
        rw [idle] at tried
        cases tried
  · rintro ⟨work, renewal, tried, renews, listed⟩
    exact ⟨work, renewal, tried, renews, listed.cons request⟩

private theorem overwritten_cons_of_tried {request : Request}
    {rest : List Request} (tried : attempted id request = true) :
    Overwritten id (request :: rest) ↔
      ∃ later ∈ rest, registers id later = true := by
  constructor
  · rintro ⟨work, renewal, _, renews, listed⟩
    have member : renewal ∈ rest := by
      cases listed with
      | cons _ later =>
          exact later.subset (by simp)
      | cons_cons _ later =>
          exact later.subset (by simp)
    exact ⟨renewal, member, renews⟩
  · rintro ⟨renewal, member, renews⟩
    exact ⟨request, renewal, tried, renews,
      (List.singleton_sublist.mpr member).cons_cons request⟩

/-- From a row without work on, calls are lost exactly when a registration
overwrites work. -/
private theorem fresh_of_foldl (requests : List Request)
    {node : NodeEntity} (total : node.total = 0)
    (successes : node.successes = 0) :
    ∃ final, requests.foldl (rowStep id) (some node) = some final ∧
      (Overwritten id requests →
        final.total < requests.countP (attempted id)) ∧
      (¬Overwritten id requests →
        final.total = requests.countP (attempted id) ∧
          final.successes = requests.countP (confirmed id)) := by
  induction requests generalizing node with
  | nil =>
      refine ⟨node, rfl, ?_, fun _ => ⟨total, successes⟩⟩
      rintro ⟨work, renewal, _, _, listed⟩
      cases listed
  | cons request rest inductionHypothesis =>
      rw [List.foldl_cons]
      rcases @rowStep_cases id request with
        ⟨_, idle, unconfirmed, type, step⟩ |
          ⟨other, tried, success, isSuccess, step⟩ |
          ⟨_, idle, unconfirmed, step⟩
      · rw [step, overwritten_cons_of_idle idle,
          List.countP_cons_of_neg (by simp [idle]),
          List.countP_cons_of_neg (by simp [unconfirmed])]
        exact inductionHypothesis rfl rfl
      · rw [step, overwritten_cons_of_tried tried]
        by_cases overwrites : ∃ later ∈ rest, registers id later = true
        · obtain ⟨final, folded, _, strict⟩ :=
            @total_of_foldl id rest (worked node success)
          have lost := strict overwrites (Nat.succ_pos _)
          rw [total_worked_once, total] at lost
          refine ⟨final, folded, ?_, fun kept => absurd overwrites kept⟩
          intro _
          rw [List.countP_cons_of_pos tried]
          omega
        · have kept : ∀ later ∈ rest, registers id later = false := by
            intro later member
            by_contra renews
            exact overwrites ⟨later, member, by simpa using renews⟩
          obtain ⟨final, folded, counted, good⟩ :=
            tally_of_foldl kept (worked node success)
          rw [total_worked_once, total] at counted
          rw [successes_worked_once, successes] at good
          refine ⟨final, folded, fun lost => absurd lost overwrites, ?_⟩
          intro _
          rw [List.countP_cons_of_pos tried, List.countP_cons, isSuccess]
          omega
      · rw [step, overwritten_cons_of_idle idle,
          List.countP_cons_of_neg (by simp [idle]),
          List.countP_cons_of_neg (by simp [unconfirmed])]
        exact inductionHypothesis total successes

private theorem foldl_none (requests : List Request) :
    requests.foldl (rowStep id) none =
      (sinceRegistered id requests).foldl (rowStep id) none := by
  induction requests with
  | nil =>
      rfl
  | cons request rest inductionHypothesis =>
      unfold sinceRegistered
      rcases @rowStep_cases id request with
        ⟨renews, _⟩ | ⟨other, tried, _⟩ | ⟨other, _, _, step⟩
      · rw [List.dropWhile_cons_of_neg (by simp [renews])]
      · have step : rowStep id none request = none := by
          cases request with
          | register =>
              cases tried
          | recordExecution worker success =>
              have same : worker = id := of_decide_eq_true tried
              exact if_pos same
          | receivePayment =>
              rfl
        rw [List.dropWhile_cons_of_pos (by simp [other]), List.foldl_cons,
          step]
        exact inductionHypothesis
      · rw [List.dropWhile_cons_of_pos (by simp [other]), List.foldl_cons,
          step]
        exact inductionHypothesis

end Calls

/-! ## Work that is never lost -/

section Kept

variable {env : Environment} {start : World}

/-- Every registered node counts the calls made for it since it was first
registered, and failed work keeps it apart from a fresh node. -/
def WorkKept (env : Environment) (start : World)
    (requests : List Request) : Prop :=
  ∀ id, (∃ request ∈ requests, registers id request = true) →
    ∃ node, (history env start requests).nodes.find? id = some node ∧
      node.total = attempts id requests ∧
      node.successes = successes id requests ∧
      (successes id requests < attempts id requests →
        node.reputation ≠ 1 ∧ node.weight ≠ 1)

private theorem staffed_history (staffed : Staffed env start)
    (requests : List Request) : Staffed env (history env start requests) := by
  induction requests generalizing start with
  | nil =>
      exact staffed
  | cons request rest inductionHypothesis =>
      apply inductionHypothesis
      cases request with
      | register id type =>
          exact staffed.register id type
      | recordExecution id success =>
          have step := staffed.recordExecution id success
          rw [serve_recordExecution]
          cases found : start.nodes.find? id with
          | none =>
              exact staffed
          | some node =>
              rw [run_recordExecution_of_some found] at step
              exact step
      | receivePayment id amount =>
          have spares : Uses SparesNodes (receivePayment id amount) := by
            refine uses_bind (uses_bind (uses_perform trivial _) ?_) ?_
            · intro found
              cases found <;> trivial
            · intro node
              exact uses_bind (uses_perform trivial _)
                (fun _ => trivial)
          exact staffed.other spares

private theorem row_of_registers (empty : start.nodes = .empty)
    {requests : List Request} {id : String}
    (registered : ∃ request ∈ requests, registers id request = true) :
    ∃ node, (history env start requests).nodes.find? id = some node ∧
      (Renewed id requests → node.total < attempts id requests) ∧
      (¬Renewed id requests →
        node.total = attempts id requests ∧
          node.successes = successes id requests) := by
  have present : sinceRegistered id requests ≠ [] := by
    obtain ⟨request, member, registersId⟩ := registered
    intro nothing
    have skipped := List.dropWhile_eq_nil_iff.mp nothing request member
    rw [registersId] at skipped
    cases skipped
  have missing : start.nodes.find? id = none := by
    rw [empty]
    rfl
  rw [find?_history, missing, foldl_none]
  unfold Renewed attempts successes
  cases since : sinceRegistered id requests with
  | nil =>
      exact absurd since present
  | cons first rest =>
      have registersFirst : registers id first = true := by
        have head := List.head?_dropWhile_not
          (fun request => !registers id request) requests
        have skipped : (requests.dropWhile fun request =>
            !registers id request) = first :: rest := since
        rw [skipped] at head
        simpa using head
      rcases @rowStep_cases id first with
        ⟨_, idle, unconfirmed, type, step⟩ | ⟨other, _⟩ | ⟨other, _⟩
      · obtain ⟨final, folded, lost, kept⟩ :=
          @fresh_of_foldl id rest (freshNode id type) rfl rfl
        rw [List.foldl_cons, step,
          List.countP_cons_of_neg (by simp [idle]),
          List.countP_cons_of_neg (by simp [unconfirmed])]
        exact ⟨final, folded,
          fun renewed => lost ((overwritten_cons_of_idle idle).mp renewed),
          fun lasting => kept fun overwritten =>
            lasting ((overwritten_cons_of_idle idle).mpr overwritten)⟩
      · rw [registersFirst] at other
        cases other
      · rw [registersFirst] at other
        cases other

/-- Work is kept exactly when no node is registered once more after work was
recorded for it. -/
theorem workKept_iff (empty : start.nodes = .empty)
    (requests : List Request) :
    WorkKept env start requests ↔ ∀ id, ¬Renewed id requests := by
  constructor
  · intro kept id renewed
    have registered : ∃ request ∈ requests,
        registers id request = true := by
      obtain ⟨_, renewal, _, registersId, listed⟩ := renewed
      have since : renewal ∈ sinceRegistered id requests :=
        listed.subset (by simp)
      exact ⟨renewal, (List.dropWhile_sublist _).subset since,
        registersId⟩
    obtain ⟨node, found, total, _⟩ := kept id registered
    obtain ⟨row, foundRow, lost, _⟩ :=
      row_of_registers empty registered
    rw [found] at foundRow
    cases foundRow
    have fewer := lost renewed
    omega
  · intro lasting id registered
    obtain ⟨node, found, _, kept⟩ :=
      row_of_registers empty registered
    obtain ⟨total, good⟩ := kept (lasting id)
    refine ⟨node, found, total, good, ?_⟩
    intro failed
    have sound : Sound node :=
      allSound_of_staffed (staffed_history (.unstaffed empty) requests)
        node (Keyed.Table.mem_of_find? found)
    have below : node.reputation < 1 :=
      sound.reputation_lt_one (by omega)
    rw [sound.weight_eq_reputation]
    exact ⟨below.ne, below.ne⟩

end Kept

/-- Work that is recorded in one registration. -/
def lastingRequests : List Request :=
  [.register "n-1" "validator", .recordExecution "n-1" true,
    .recordExecution "n-1" false, .receivePayment "n-1" 10]

theorem workKept_lastingRequests :
    WorkKept .plain .initial lastingRequests := by
  apply (workKept_iff rfl lastingRequests).mpr
  rintro id ⟨work, renewal, tried, renews, listed⟩
  have whole := listed.trans (List.dropWhile_sublist _)
  have late : renewal ∈ lastingRequests.tail :=
    whole.tail.subset List.mem_cons_self
  have idle : ∀ request ∈ lastingRequests.tail,
      registers id request = false := by
    simp [lastingRequests, registers]
  rw [idle renewal late] at renews
  cases renews

/-- A registration after failed work. -/
def renewedRequests : List Request :=
  [.register "n-1" "validator", .recordExecution "n-1" false,
    .register "n-1" "validator"]

/-- The second registration leaves a fresh node, though its only work
failed. -/
theorem work_lost :
    ¬WorkKept .plain .initial renewedRequests ∧
      (history .plain .initial renewedRequests).nodes.find? "n-1" =
        some (freshNode "n-1" "validator") ∧
      attempts "n-1" renewedRequests = 1 ∧
      successes "n-1" renewedRequests = 0 := by
  have fresh :
      (history .plain .initial renewedRequests).nodes.find? "n-1" =
        some (freshNode "n-1" "validator") :=
    find?_history .plain .initial "n-1" renewedRequests
  refine ⟨?_, fresh, by decide, by decide⟩
  intro kept
  obtain ⟨node, found, total, _⟩ :=
    kept "n-1" ⟨_, List.mem_cons_self, rfl⟩
  rw [fresh] at found
  cases found
  have counted : attempts "n-1" renewedRequests = 1 := by
    decide
  rw [counted] at total
  cases total

end ArosParadigm.Nodes
