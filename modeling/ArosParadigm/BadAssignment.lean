import ArosParadigm.Books
import ArosParadigm.StoreFaults
import ArosParadigm.Workforce

/-!
# Assignments to unknown nodes

An explicit list of nodes is resolved as given, and a node that is not
registered is noticed in the loop that records the work, after the completion
of the process has been captured. The rejected call leaves no trace of work
only when the first listed node is unknown and the process has a negative
verdict already.
-/

namespace ArosParadigm.BadAssignment

open Await

/-- The states of runs of any methods over the store, whose calls may throw,
and of restarts. -/
inductive Reached (env : Environment) : World → Prop
  | initial : Reached env .initial
  | restart {world : World} (reached : Reached env world) :
      Reached env world.restart
  | method {world after : World} {result : Type}
      {program : Service result} {trace : List Call}
      {outcome : Outcome ServiceError result}
      (reached : Reached env world)
      (attempt : Attempt env program world trace outcome after) :
      Reached env after

/-- The calls that neither capture an event of the process nor save a verdict
on it. -/
def Elsewhere (processId : String) : Call → Prop
  | .markCaptured subject _ => subject ≠ processId
  | .saveVerdict row => row.processId ≠ processId
  | _ => True

/-- The states that come after a world when nothing more is captured for the
process: restarts, verifications of the process, and methods elsewhere. -/
inductive Later (env : Environment) (processId : String) (world : World) :
    World → Prop
  | now : Later env processId world world
  | restart {between : World} (later : Later env processId world between) :
      Later env processId world between.restart
  | verify {between after : World} {trace : List Call}
      {outcome : Outcome ServiceError VerifyResult}
      (later : Later env processId world between)
      (attempt : Attempt env (Pot.verify env processId) between trace
        outcome after) :
      Later env processId world after
  | method {between after : World} {result : Type}
      {program : Service result} {trace : List Call}
      {outcome : Outcome ServiceError result}
      (later : Later env processId world between)
      (elsewhere : Uses (Elsewhere processId) program)
      (attempt : Attempt env program between trace outcome after) :
      Later env processId world after

/-- The call rejects with `NotFoundException`, no row of the registry changes,
and no later `verify` confirms the process. -/
structure LeavesNoTrace (env : Environment) (world : World)
    (body : RunProcessDto) : Prop where
  rejected : ∃ message,
    (run (machine env) (Orchestrator.runProcess env body) world).1 =
      .threw (.notFound message)
  nodes :
    (run (machine env) (Orchestrator.runProcess env body) world).2.nodes =
      world.nodes
  unconfirmed : ∀ later result after,
    Later env body.processId
        (run (machine env) (Orchestrator.runProcess env body) world).2
        later →
      run (machine env) (Pot.verify env body.processId) later =
          (.returned result, after) →
        result.verified ≠ 1

section States

variable {env : Environment} {world later : World} {processId : String}

theorem intact_of_reached (reached : Reached env world) :
    world.Intact env := by
  induction reached with
  | initial =>
      exact World.intact_initial
  | restart _ inductionHypothesis =>
      exact inductionHypothesis
  | method _ attempt inductionHypothesis =>
      have kept : ∀ request, True → ∀ before reply after,
          machine env request before = some (reply, after) →
            before.Intact env → after.Intact env :=
        fun request _ _ _ _ answered intact =>
          intact.step request answered
      have ticked : ∀ before : World, before.Intact env →
          before.tick.Intact env :=
        fun _ intact => intact.of_history rfl
      have drawn : ∀ before : World, before.Intact env →
          before.drawId.Intact env :=
        fun _ intact => intact.of_history rfl
      exact Attempt.keeps kept ticked drawn (uses_true _) attempt
        inductionHypothesis

theorem find?_verdicts_of_elsewhere {request : Call}
    (elsewhere : Elsewhere processId request) {before after : World}
    {reply : request.Reply}
    (answered : machine env request before = some (reply, after)) :
    after.verdicts.find? processId =
      before.verdicts.find? processId := by
  cases request with
  | saveVerdict row =>
      cases answered
      rw [World.saveVerdict_verdicts]
      exact Keyed.Table.find?_save_of_ne _ elsewhere
  | claimInitialization =>
      obtain ⟨_, rfl⟩ := eq_of_claimInitialization answered
      rfl
  | awaitInitialization =>
      obtain rfl := eq_of_awaitInitialization answered
      rfl
  | _ =>
      cases answered
      rfl

theorem verdict_of_later {row : PotVerdict}
    (stored : world.verdicts.find? processId = some row)
    (isLater : Later env processId world later) :
    later.verdicts.find? processId = some row := by
  induction isLater with
  | now =>
      exact stored
  | restart _ inductionHypothesis =>
      exact inductionHypothesis
  | @verify between after trace outcome _ attempt inductionHypothesis =>
      have found : machine env (.findVerdict processId) between =
          some (some row, between) := by
        rw [← inductionHypothesis]
        rfl
      rcases Attempt.ask_bind_cases found attempt with
        ⟨rest, answered, _⟩ | ⟨breaks, _, _⟩
      · cases answered with
        | done =>
            exact inductionHypothesis
      · rcases breaks.eq_or_tick id with rfl | rfl
        · exact inductionHypothesis
        · exact inductionHypothesis
  | method _ elsewhere attempt inductionHypothesis =>
      have kept : ∀ request, Elsewhere processId request →
          ∀ before reply after,
            machine env request before = some (reply, after) →
              before.verdicts.find? processId = some row →
                after.verdicts.find? processId = some row := by
        intro request allowed before reply after answered holds
        exact (find?_verdicts_of_elsewhere allowed answered).trans holds
      exact Attempt.keeps kept (fun _ holds => holds)
        (fun _ holds => holds) elsewhere attempt inductionHypothesis

end States

section Work

theorem work_eq_self_iff (ids : List String) (rows : List NodeEntity) :
    Orchestrator.work ids rows = rows ↔
      ∀ node ∈ rows, node.id ∉ ids := by
  unfold Orchestrator.work
  constructor
  · intro same node member listed
    have row : (fun node => Nodes.worked node true)^[ids.count node.id]
        node = node :=
      List.map_inj_left.mp (same.trans (List.map_id rows).symm) node
        member
    have counted := congrArg NodeEntity.total row
    rw [Orchestrator.total_worked] at counted
    have positive := List.count_pos_iff.mpr listed
    omega
  · intro unlisted
    refine (List.map_congr_left ?_).trans (List.map_id rows)
    intro node member
    rw [List.count_eq_zero.mpr (unlisted node member)]
    rfl

end Work

/-! ## The rejected call -/

section Rejected

variable {env : Environment} {world : World} {body : RunProcessDto}

variable (env world) in
/-- The work that a call records is the work on the ids before the first
unknown one. -/
theorem nodes_requestedWorld {first : String} {rest : List String}
    (explicit : body.nodeIds = some (first :: rest)) :
    (Orchestrator.requestedWorld env world body).nodes.rows =
      Orchestrator.work
        ((first :: rest).takeWhile fun id =>
          (world.nodes.find? id).isSome) world.nodes.rows := by
  have recorded := @Orchestrator.rows_workedWorld
    (Orchestrator.preparedWorld env
      (Orchestrator.initiatedWorld env world body) body.processId
      (first :: rest)) (first :: rest)
  rw [Orchestrator.requestedWorld, Orchestrator.executedWorld, explicit]
  exact recorded

variable (env world) in
/-- No row changes exactly when the first listed node is unknown. -/
theorem nodes_requestedWorld_eq_iff {first : String} {rest : List String}
    (explicit : body.nodeIds = some (first :: rest)) :
    (Orchestrator.requestedWorld env world body).nodes = world.nodes ↔
      world.nodes.find? first = none := by
  have rows := nodes_requestedWorld env world explicit
  constructor
  · intro same
    rw [same] at rows
    have untouched := (work_eq_self_iff _ _).mp rows.symm
    cases found : world.nodes.find? first with
    | none =>
        rfl
    | some node =>
        have key := Keyed.Table.key_of_find? found
        have unlisted := untouched node (Keyed.Table.mem_of_find? found)
        rw [key, List.takeWhile_cons, found] at unlisted
        exact absurd List.mem_cons_self unlisted
  · intro missing
    rw [List.takeWhile_cons, missing] at rows
    refine Keyed.Table.ext ?_
    rw [rows]
    exact (work_eq_self_iff [] _).mpr fun _ _ => List.not_mem_nil

variable (body) in
/-- A stored verdict is what every later `verify` answers. -/
theorem unconfirmed_iff (reached : Reached env world) :
    (∀ later result after,
        Later env body.processId
            (Orchestrator.requestedWorld env world body) later →
          run (machine env) (Pot.verify env body.processId) later =
              (.returned result, after) →
            result.verified ≠ 1) ↔
      ∃ row, world.verdicts.find? body.processId = some row ∧
        row.verified ≠ 1 := by
  have sameVerdict :
      (Orchestrator.requestedWorld env world body).verdicts.find?
        body.processId = world.verdicts.find? body.processId := by
    rw [Orchestrator.verdicts_requestedWorld]
  constructor
  · intro unconfirmed
    have answered := unconfirmed _ _ _ Later.now
      (Pot.run_verify env _ body.processId)
    have stored := Orchestrator.stored_of_unverified
      (intact_of_reached reached) answered
    exact ⟨_, stored, answered⟩
  · rintro ⟨row, stored, unconfirmed⟩ later result after isLater answered
    have kept := verdict_of_later (sameVerdict.trans stored) isLater
    rw [Pot.run_verify_of_some env kept] at answered
    cases answered
    exact unconfirmed

/-- A rejected assignment leaves no trace of work exactly when the first
listed node is unknown and the process has a negative verdict already. -/
theorem leaves_no_trace_iff (reached : Reached env world)
    (admissible : body.admissible = true)
    (unregistered : ∃ id ∈ body.nodeIds.getD [],
      world.nodes.find? id = none) :
    LeavesNoTrace env world body ↔
      (∃ first rest, body.nodeIds = some (first :: rest) ∧
          world.nodes.find? first = none) ∧
        ∃ row, world.verdicts.find? body.processId = some row ∧
          row.verified ≠ 1 := by
  obtain ⟨id, listed, missing⟩ := unregistered
  obtain ⟨first, rest, explicit⟩ :
      ∃ first rest, body.nodeIds = some (first :: rest) := by
    rcases explicit : body.nodeIds with _ | (_ | ⟨first, rest⟩)
    · rw [explicit] at listed
      exact absurd listed List.not_mem_nil
    · rw [explicit] at listed
      exact absurd listed List.not_mem_nil
    · exact ⟨first, rest, rfl⟩
  have notRegistered :
      ¬ Orchestrator.Registered world body.nodeIds := by
    intro registered
    have present := registered id listed
    rw [missing] at present
    cases present
  obtain ⟨unknown, threw⟩ :=
    Orchestrator.run_runProcess_of_unregistered env admissible
      notRegistered
  have nodes := nodes_requestedWorld_eq_iff env world explicit
  have later := unconfirmed_iff body reached
  constructor
  · intro noTrace
    have sameNodes := noTrace.nodes
    have unconfirmed := noTrace.unconfirmed
    rw [threw] at sameNodes unconfirmed
    exact ⟨⟨first, rest, explicit, nodes.mp sameNodes⟩,
      later.mp unconfirmed⟩
  · rintro ⟨⟨head, tail, sameList, firstMissing⟩, stored⟩
    rw [explicit] at sameList
    cases sameList
    constructor
    · rw [threw]
      exact ⟨_, rfl⟩
    · rw [threw]
      exact nodes.mpr firstMissing
    · rw [threw]
      exact later.mpr stored

end Rejected

section Calls

/-- The world after a `verify` of a process of which nothing is known. -/
def judgedEarly : World :=
  (run (machine .plain) (Pot.verify .plain "p-1") .initial).2

theorem reached_judgedEarly : Reached .plain judgedEarly := by
  obtain ⟨trace, attempt⟩ := @FaultyRun.of_run _ _ _ _ (machine .plain)
    Breaks (Pot.verify .plain "p-1") .initial
  exact Reached.initial.method attempt

/-- A call that names an unknown node for a process with a negative verdict
leaves no trace. -/
theorem early_verdict_leaves_no_trace :
    LeavesNoTrace .plain judgedEarly
      (Orchestrator.transferBody "p-1" (some ["ghost"])) := by
  refine (leaves_no_trace_iff reached_judgedEarly rfl
    ⟨"ghost", by decide, by decide +kernel⟩).mpr ?_
  exact ⟨⟨"ghost", [], rfl, by decide +kernel⟩, _, rfl,
    by decide +kernel⟩

/-- A call that names a known node and then an unknown one. -/
def misassigned : Outcome ServiceError RunProcessResult × World :=
  run (machine .plain)
    (Orchestrator.runProcess .plain
      (Orchestrator.transferBody "p-1" (some ["node-1", "ghost"])))
    Orchestrator.servedWorld

theorem reached_servedWorld : Reached .plain Orchestrator.servedWorld := by
  obtain ⟨trace, attempt⟩ := @FaultyRun.of_run _ _ _ _ (machine .plain)
    Breaks (Orchestrator.runProcess .plain
      (Orchestrator.transferBody "p-0" none)) .initial
  exact Reached.initial.method attempt

/-- The rejected call credits the known node, and the process is confirmed
afterwards. -/
theorem unknown_node_leaves_trace :
    Reached .plain Orchestrator.servedWorld ∧
      misassigned.1 = .threw (.notFound "Node ghost is not registered") ∧
      (Orchestrator.servedWorld.nodes.find? "node-1").map
          (fun node => (node.total, node.successes)) = some (1, 1) ∧
      (misassigned.2.nodes.find? "node-1").map
          (fun node => (node.total, node.successes)) = some (2, 2) ∧
      (run (machine .plain) (Pot.verify .plain "p-1") misassigned.2).1 =
        .returned ⟨1, [], 18⟩ := by
  refine ⟨reached_servedWorld, ?_⟩
  decide +kernel

end Calls

end ArosParadigm.BadAssignment
