import ArosParadigm.Reordering
import Mathlib.Data.List.Dedup
import Mathlib.Data.List.TakeWhile

/-!
# Counting participations

The participations of an epoch are a list without keys, and the list of the
assigned nodes drives both the participations of a process and the counters of
the nodes. A node that a body names twice has worked twice and is paid twice.
Every participation counts once exactly when no admissible body repeats a node.
-/

namespace ArosParadigm.ParticipationCount

open Await Accounts

def named (body : RunProcessDto) : List String :=
  body.nodeIds.getD []

/-- The body with the distinct members of its list. -/
def distinctly (body : RunProcessDto) : RunProcessDto :=
  { body with
    nodeIds := body.nodeIds.map List.dedup
    nodeIdsNotEmpty := by
      intro isEmpty
      obtain ⟨ids, given, none_⟩ := Option.map_eq_some_iff.mp isEmpty
      rw [(List.dedup_eq_nil ids).mp none_] at given
      exact body.nodeIdsNotEmpty given }

theorem named_distinctly (body : RunProcessDto) :
    named (distinctly body) = (named body).dedup := by
  change (body.nodeIds.map List.dedup).getD [] =
    (body.nodeIds.getD []).dedup
  cases body.nodeIds with
  | none =>
      rfl
  | some ids =>
      rfl

/-- `total` and `successes` of a node. -/
def counters (world : World) (nodeId : String) : Option (ℕ × ℕ) :=
  (world.nodes.find? nodeId).map fun node => (node.total, node.successes)

def TakesPart (epoch : ℚ) (nodeId : String) (body : RunProcessDto) :
    Prop :=
  body.admissible = true ∧ epochOf body = epoch ∧ nodeId ∈ named body

instance (epoch : ℚ) (nodeId : String) :
    DecidablePred (TakesPart epoch nodeId) :=
  fun _ => inferInstanceAs (Decidable (_ ∧ _ ∧ _))

/-- The confirmed processes of an epoch in which a node took part. -/
def processesOf (world : World) (bodies : List RunProcessDto)
    (epoch : ℚ) (nodeId : String) : Finset String :=
  ((bodies.filter fun body => TakesPart epoch nodeId body ∧
    Commission.confirmed world body.processId = true).map
      RunProcessDto.processId).toFinset

/-- The distribution and the counters are those of the lists of distinct
members, and the weight of a node counts its confirmed processes. -/
structure CountedOnce (env : Environment) (world : World)
    (bodies : List RunProcessDto) (epoch : ℚ) : Prop where
  distribution :
    ((Request.finalizeEpoch epoch).handle env
        (world.answered env (bodies.map .runProcess))).1 =
      ((Request.finalizeEpoch epoch).handle env
        (world.answered env
          ((bodies.map distinctly).map .runProcess))).1
  counters : ∀ nodeId,
    counters (world.answered env (bodies.map .runProcess)) nodeId =
      counters (world.answered env
        ((bodies.map distinctly).map .runProcess)) nodeId
  weights : ∃ weights,
    (run (machine env) (Commission.confirmedWeights env epoch)
        (world.answered env (bodies.map .runProcess))).1 =
      .returned weights ∧
    ∀ nodeId, (Commission.weightOf weights nodeId).getD 0 =
      Commission.nodeWeight
          (world.answered env (bodies.map .runProcess)) nodeId *
        (processesOf (world.answered env (bodies.map .runProcess)) bodies
          epoch nodeId).card

section Bodies

variable {accounts : Accounts} {body : RunProcessDto}

def workOf (body : RunProcessDto) : List String :=
  if body.admissible then named body else []

/-- The participations that a body adds to an epoch. -/
def sharesOf (epoch : ℚ) (body : RunProcessDto) : List Participation :=
  if body.admissible = true ∧ epochOf body = epoch then
    (named body).map (Participation.mk body.processId)
  else
    []

/-- The body names nodes, all of them registered. -/
structure Explicit (nodes : List NodeEntity) (body : RunProcessDto) :
    Prop where
  given : body.nodeIds.isSome
  registered : ∀ nodeId ∈ named body, enrolled nodes nodeId

theorem Explicit.work {nodes : List NodeEntity}
    (explicit : Explicit nodes body) (ids : List String) :
    Explicit (Orchestrator.work ids nodes) body := by
  refine ⟨explicit.given, ?_⟩
  intro nodeId member
  rw [enrolled_work]
  exact explicit.registered nodeId member

theorem Explicit.distinctly {nodes : List NodeEntity}
    (explicit : Explicit nodes body) :
    Explicit nodes (distinctly body) := by
  constructor
  · have given := explicit.given
    rwa [← Option.isSome_map (f := List.dedup)] at given
  · intro nodeId member
    rw [named_distinctly] at member
    exact explicit.registered nodeId (List.mem_dedup.mp member)

theorem assigned_explicit {nodes : List NodeEntity}
    (explicit : Explicit nodes body) :
    Orchestrator.staffed nodes body.nodeIds = nodes ∧
      Orchestrator.assigned nodes body.nodeIds = named body := by
  have given := explicit.given
  unfold named
  rcases isGiven : body.nodeIds with _ | (_ | ⟨first, rest⟩)
  · rw [isGiven] at given
    cases given
  · exact absurd isGiven body.nodeIdsNotEmpty
  · exact ⟨rfl, rfl⟩

/-- The step lemma: a body adds its work and its participations. -/
theorem serve_explicit (explicit : Explicit accounts.nodes body) :
    (accounts.serve body).nodes =
        Orchestrator.work (workOf body) accounts.nodes ∧
      ∀ epoch, (accounts.serve body).participations epoch =
        accounts.participations epoch + sharesOf epoch body := by
  obtain ⟨staffed, assigned⟩ := assigned_explicit explicit
  rcases Bool.eq_false_or_eq_true body.admissible with
    admissible | inadmissible
  swap
  · have refused : ¬ accounts.Accepts body := by
      intro accepts
      exact absurd accepts.1 (by simp [inadmissible])
    have unserved : accounts.serve body = accounts := by
      simp [serve, refused, inadmissible]
    rw [unserved]
    constructor
    · simp [workOf, inadmissible, Orchestrator.work]
    · intro epoch
      simp [sharesOf, inadmissible]
  have accepts : accounts.Accepts body :=
    ⟨admissible, explicit.registered⟩
  have everyone : (named body).takeWhile (enrolled accounts.nodes) =
      named body :=
    List.takeWhile_eq_self_iff.mpr explicit.registered
  rw [serve, if_pos accepts]
  constructor
  · change labour accounts.nodes body = _
    rw [labour, staffed, assigned, everyone, workOf, if_pos admissible]
  · intro epoch
    rw [participations_settle, participants, assigned, sharesOf]
    by_cases same : epoch = epochOf body
    · subst same
      rw [Function.update_self, if_pos ⟨admissible, rfl⟩]
    · rw [Function.update_of_ne same,
        if_neg fun both => same both.2.symm]
      simp

/-- The run lemma: bodies add up. -/
theorem foldl_serve_explicit {bodies : List RunProcessDto}
    (explicit : ∀ body ∈ bodies, Explicit accounts.nodes body) :
    (bodies.foldl serve accounts).nodes =
        Orchestrator.work (bodies.flatMap workOf) accounts.nodes ∧
      ∀ epoch, (bodies.foldl serve accounts).participations epoch =
        accounts.participations epoch +
          bodies.flatMap (sharesOf epoch) := by
  induction bodies generalizing accounts with
  | nil =>
      constructor
      · simp [Orchestrator.work]
      · simp
  | cons body rest inductionHypothesis =>
      obtain ⟨nodes, shares⟩ :=
        serve_explicit (explicit body List.mem_cons_self)
      have later : ∀ other ∈ rest,
          Explicit (accounts.serve body).nodes other := by
        intro other member
        rw [nodes]
        exact (explicit other (List.mem_cons_of_mem _ member)).work _
      obtain ⟨nodesAfter, sharesAfter⟩ := inductionHypothesis later
      rw [List.foldl_cons]
      constructor
      · rw [nodesAfter, nodes, work_comm, work_work, List.flatMap_cons]
      · intro epoch
        rw [sharesAfter, shares, add_assoc, List.flatMap_cons,
          Multiset.coe_add]

end Bodies

section Counters

variable {env : Environment} {world : World} {bodies : List RunProcessDto}

theorem find?_work (ids : List String) (rows : List NodeEntity)
    (nodeId : String) :
    (Orchestrator.work ids rows).find? (fun node => node.id = nodeId) =
      (rows.find? fun node => node.id = nodeId).map
        (fun node => Nodes.worked node true)^[ids.count nodeId] := by
  have sameId : ((fun node : NodeEntity => decide (node.id = nodeId)) ∘
      fun node => (fun node => Nodes.worked node true)^[ids.count
        node.id] node) = fun node => decide (node.id = nodeId) := by
    funext node
    rw [Function.comp_apply, iterate_worked_id]
  rw [Orchestrator.work, List.find?_map, sameId]
  cases found : rows.find? fun node => decide (node.id = nodeId) with
  | none =>
      rfl
  | some node =>
      have isNode : node.id = nodeId := by
        simpa using List.find?_some found
      rw [Option.map_some, Option.map_some, isNode]

theorem counters_answered (reliable : Reliable env world)
    (explicit : ∀ body ∈ bodies, Explicit world.accounts.nodes body)
    (nodeId : String) :
    counters (world.answered env (bodies.map .runProcess)) nodeId =
      (world.nodes.find? nodeId).map fun node =>
        (node.total + (bodies.flatMap workOf).count nodeId,
          node.successes + (bodies.flatMap workOf).count nodeId) := by
  have rows :
      (world.answered env (bodies.map .runProcess)).nodes.rows =
        Orchestrator.work (bodies.flatMap workOf) world.nodes.rows := by
    have accounts := reliable.accounts_answered
      (bodies.map Request.runProcess)
    rw [List.foldl_map] at accounts
    exact (congrArg Accounts.nodes accounts).trans
      (foldl_serve_explicit explicit).1
  have found :
      (world.answered env (bodies.map .runProcess)).nodes.find? nodeId =
        (world.nodes.find? nodeId).map
          (fun node => Nodes.worked node true)^[
            (bodies.flatMap workOf).count nodeId] := by
    unfold Keyed.Table.find?
    rw [rows]
    exact find?_work _ _ _
  rw [counters, found, Option.map_map]
  congr 1
  funext node
  rw [Function.comp_apply, Orchestrator.total_worked,
    Orchestrator.successes_worked]

/-- Only registered nodes are named. -/
theorem count_eq_zero_of_unregistered
    (explicit : ∀ body ∈ bodies, Explicit world.accounts.nodes body)
    {nodeId : String} (missing : world.nodes.find? nodeId = none) :
    (bodies.flatMap workOf).count nodeId = 0 := by
  apply List.count_eq_zero.mpr
  intro inside
  obtain ⟨body, member, works⟩ := List.mem_flatMap.mp inside
  unfold workOf at works
  split at works
  · have present := (explicit body member).registered nodeId works
    change (world.nodes.find? nodeId).isSome = true at present
    rw [missing] at present
    cases present
  · cases works

theorem count_workOf_distinctly_le (body : RunProcessDto)
    (nodeId : String) :
    (workOf (distinctly body)).count nodeId ≤
      (workOf body).count nodeId := by
  have sameGate : (distinctly body).admissible = body.admissible :=
    rfl
  unfold workOf
  rw [sameGate, named_distinctly]
  split
  · exact (List.dedup_sublist _).count_le nodeId
  · exact le_refl _

theorem count_flatMap_distinctly_le (bodies : List RunProcessDto)
    (nodeId : String) :
    ((bodies.map distinctly).flatMap workOf).count nodeId ≤
      (bodies.flatMap workOf).count nodeId := by
  induction bodies with
  | nil =>
      exact le_refl _
  | cons body rest inductionHypothesis =>
      have own := count_workOf_distinctly_le body nodeId
      rw [List.map_cons, List.flatMap_cons, List.flatMap_cons,
        List.count_append, List.count_append]
      omega

theorem nodup_of_count_eq
    (equal : ∀ nodeId, ((bodies.map distinctly).flatMap workOf).count
      nodeId = (bodies.flatMap workOf).count nodeId) :
    ∀ body ∈ bodies, body.admissible = true → (named body).Nodup := by
  induction bodies with
  | nil =>
      intro body member
      cases member
  | cons head rest inductionHypothesis =>
      have split : ∀ nodeId,
          (workOf (distinctly head)).count nodeId =
              (workOf head).count nodeId ∧
            ((rest.map distinctly).flatMap workOf).count nodeId =
              (rest.flatMap workOf).count nodeId := by
        intro nodeId
        have whole := equal nodeId
        rw [List.map_cons, List.flatMap_cons, List.flatMap_cons,
          List.count_append, List.count_append] at whole
        have own := count_workOf_distinctly_le head nodeId
        have others := count_flatMap_distinctly_le rest nodeId
        omega
      intro body member admissible
      rcases List.mem_cons.mp member with rfl | inside
      · have gate : (distinctly body).admissible = true := admissible
        rw [List.nodup_iff_count_le_one]
        intro nodeId
        have own := (split nodeId).1
        rw [workOf, workOf, if_pos gate, if_pos admissible,
          named_distinctly] at own
        have once := List.nodup_iff_count_le_one.mp
          (List.nodup_dedup (named body)) nodeId
        omega
      · exact inductionHypothesis (fun nodeId => (split nodeId).2)
          body inside admissible

end Counters

section Distinct

variable {env : Environment} {bodies : List RunProcessDto}

theorem distinctly_eq_self {body : RunProcessDto}
    (once : (named body).Nodup) : distinctly body = body := by
  obtain ⟨processId, amount, type, admissible, nodeIds, epoch, positive,
    notEmpty⟩ := body
  cases nodeIds with
  | none =>
      rfl
  | some ids =>
      have same : ids.dedup = ids := List.dedup_eq_self.mpr once
      simp [distinctly, same]

variable (env) in
/-- An inadmissible body is answered before its nodes are looked at. -/
theorem runProcess_distinctly {body : RunProcessDto}
    (once : body.admissible = true → (named body).Nodup) :
    Orchestrator.runProcess env (distinctly body) =
      Orchestrator.runProcess env body := by
  rcases Bool.eq_false_or_eq_true body.admissible with
    admissible | inadmissible
  · rw [distinctly_eq_self (once admissible)]
  · have gate : (distinctly body).admissible = false := inadmissible
    unfold Orchestrator.runProcess
    rw [gate, inadmissible]
    rfl

variable (env) in
theorem answered_distinctly
    (once : ∀ body ∈ bodies, body.admissible = true →
      (named body).Nodup) (world : World) :
    world.answered env ((bodies.map distinctly).map .runProcess) =
      world.answered env (bodies.map .runProcess) := by
  unfold World.answered
  rw [List.foldl_map, List.foldl_map, List.foldl_map]
  apply List.foldl_ext
  intro between body member
  have sameRun := runProcess_distinctly env (once body member)
  unfold Request.handle Request.handler
  simp only [sameRun]

theorem count_shares (once : ∀ body ∈ bodies, body.admissible = true →
      (named body).Nodup) (epoch : ℚ) (nodeId : String) :
    ((bodies.flatMap (sharesOf epoch)).map
        Participation.nodeId).count nodeId =
      (bodies.filter fun body =>
        TakesPart epoch nodeId body).length := by
  induction bodies with
  | nil =>
      rfl
  | cons body rest inductionHypothesis =>
      have later := inductionHypothesis fun other member =>
        once other (List.mem_cons_of_mem _ member)
      have own : ((sharesOf epoch body).map
          Participation.nodeId).count nodeId =
            if TakesPart epoch nodeId body then 1 else 0 := by
        unfold sharesOf
        by_cases served : body.admissible = true ∧ epochOf body = epoch
        · have distinct := once body List.mem_cons_self served.1
          have same : TakesPart epoch nodeId body ↔
              nodeId ∈ named body :=
            ⟨fun takesPart => takesPart.2.2,
              fun member => ⟨served.1, served.2, member⟩⟩
          rw [if_pos served, List.map_map]
          change ((named body).map id).count nodeId = _
          rw [List.map_id, List.Nodup.count distinct]
          simp only [same]
        · have apart : ¬ TakesPart epoch nodeId body := by
            intro takesPart
            exact served ⟨takesPart.1, takesPart.2.1⟩
          rw [if_neg served, if_neg apart]
          rfl
      rw [List.flatMap_cons, List.map_append, List.count_append, own,
        later, List.filter_cons]
      by_cases takesPart : TakesPart epoch nodeId body
      · simp only [takesPart, decide_true, if_true, List.length_cons]
        omega
      · simp only [takesPart, decide_false, if_false]
        simp

end Distinct

/-! ## Runs -/

section Runs

variable {env : Environment} {world : World} {bodies : List RunProcessDto}

theorem participations_answered (reliable : Reliable env world)
    (idle : ∀ epoch, world.participations epoch = [])
    (explicit : ∀ body ∈ bodies, Explicit world.accounts.nodes body)
    (epoch : ℚ) :
    (world.answered env
        (bodies.map .runProcess)).accounts.participations epoch =
      (bodies.flatMap (sharesOf epoch) : Multiset Participation) := by
  have accounts := reliable.accounts_answered
    (bodies.map Request.runProcess)
  rw [List.foldl_map] at accounts
  have nothing : world.accounts.participations epoch = 0 :=
    congrArg Multiset.ofList (idle epoch)
  have added := (foldl_serve_explicit explicit).2 epoch
  rw [nothing, zero_add] at added
  exact (congrFun (congrArg Accounts.participations accounts) epoch).trans
    added

/-- Whoever takes part in a process is in its participations, so that the
process is confirmed. -/
theorem confirmed_of_takesPart (reliable : Reliable env world)
    (idle : ∀ epoch, world.participations epoch = [])
    (explicit : ∀ body ∈ bodies, Explicit world.accounts.nodes body)
    {epoch : ℚ} {nodeId : String} {body : RunProcessDto}
    (member : body ∈ bodies) (takesPart : TakesPart epoch nodeId body) :
    Commission.confirmed (world.answered env (bodies.map .runProcess))
      body.processId = true := by
  have share : Participation.mk body.processId nodeId ∈
      bodies.flatMap (sharesOf epoch) := by
    refine List.mem_flatMap.mpr ⟨body, member, ?_⟩
    rw [sharesOf, if_pos ⟨takesPart.1, takesPart.2.1⟩]
    exact List.mem_map_of_mem takesPart.2.2
  have after := reliable.answered
    (bodies.map Request.runProcess)
  have verdict := after.healthy.confirmed epoch
    ⟨body.processId, nodeId⟩ (by
      rw [participations_answered reliable idle explicit]
      exact Multiset.mem_coe.mpr share)
  obtain ⟨row, found, approved⟩ := Option.map_eq_some_iff.mp verdict
  rw [Commission.confirmed, found]
  simpa using congrArg Prod.fst approved

theorem card_processesOf (reliable : Reliable env world)
    (idle : ∀ epoch, world.participations epoch = [])
    (explicit : ∀ body ∈ bodies, Explicit world.accounts.nodes body)
    (distinct : (bodies.map RunProcessDto.processId).Nodup)
    (once : ∀ body ∈ bodies, body.admissible = true →
      (named body).Nodup) (epoch : ℚ) (nodeId : String) :
    (processesOf (world.answered env (bodies.map .runProcess)) bodies
        epoch nodeId).card =
      ((world.answered env (bodies.map .runProcess)).accounts.crew
        epoch).count nodeId := by
  have everyProcess : (bodies.filter fun body =>
      TakesPart epoch nodeId body ∧
        Commission.confirmed
          (world.answered env (bodies.map .runProcess))
          body.processId = true) =
      bodies.filter fun body => TakesPart epoch nodeId body := by
    apply List.filter_congr
    intro body member
    have confirmed := @confirmed_of_takesPart env world bodies reliable
      idle explicit epoch nodeId body member
    apply decide_eq_decide.mpr
    exact ⟨And.left, fun takesPart => ⟨takesPart, confirmed takesPart⟩⟩
  have unique : ((bodies.filter fun body =>
      TakesPart epoch nodeId body).map RunProcessDto.processId).Nodup :=
    (List.filter_sublist.map _).nodup distinct
  have crew := (reliable.answered
    (bodies.map Request.runProcess)).healthy.crew_eq epoch
  rw [processesOf, everyProcess, List.toFinset_card_of_nodup unique,
    List.length_map, crew,
    participations_answered reliable idle explicit, Multiset.map_coe,
    Multiset.coe_count, count_shares once]

theorem weights_answered (reliable : Reliable env world)
    (idle : ∀ epoch, world.participations epoch = [])
    (explicit : ∀ body ∈ bodies, Explicit world.accounts.nodes body)
    (distinct : (bodies.map RunProcessDto.processId).Nodup)
    (once : ∀ body ∈ bodies, body.admissible = true →
      (named body).Nodup) (epoch : ℚ) :
    ∃ weights,
      (run (machine env) (Commission.confirmedWeights env epoch)
          (world.answered env (bodies.map .runProcess))).1 =
        .returned weights ∧
      ∀ nodeId, (Commission.weightOf weights nodeId).getD 0 =
        Commission.nodeWeight
            (world.answered env (bodies.map .runProcess)) nodeId *
          (processesOf (world.answered env (bodies.map .runProcess))
            bodies epoch nodeId).card := by
  have after := reliable.answered (bodies.map Request.runProcess)
  obtain ⟨weights, weighed⟩ := @Commission.weigh_of_registered
    (world.answered env (bodies.map .runProcess))
    ((world.answered env (bodies.map .runProcess)).participations epoch)
    (by
      intro entry member _
      exact after.healthy.enrolled epoch entry member)
  refine ⟨weights, ?_, ?_⟩
  · rw [Commission.run_confirmedWeights, Commission.weighOutcome,
      weighed]
  · intro nodeId
    rw [Commission.weightOf_eq_count weighed, Request.crew_accounts,
      card_processesOf reliable idle explicit distinct once, mul_comm]

end Runs

/-- Every participation counts once exactly when no admissible body names a
node twice. -/
theorem counted_once_iff (env : Environment)
    (operations : List Operation)
    (idle : ∀ epoch,
      (History.of env operations).world.participations epoch = [])
    (bodies : List RunProcessDto)
    (distinct : (bodies.map RunProcessDto.processId).Nodup)
    (explicit : ∀ body ∈ bodies, body.nodeIds.isSome ∧
      Orchestrator.Registered (History.of env operations).world
        body.nodeIds) (epoch : ℚ) :
    CountedOnce env (History.of env operations).world bodies epoch ↔
      ∀ body ∈ bodies, body.admissible = true →
        (named body).Nodup := by
  have reliable := (History.kept_of env operations).reliable
  have lists : ∀ body ∈ bodies,
      Explicit (History.of env operations).world.accounts.nodes body := by
    intro body member
    exact ⟨(explicit body member).1, (explicit body member).2⟩
  have reduced : ∀ body ∈ bodies.map distinctly,
      Explicit (History.of env operations).world.accounts.nodes body := by
    intro body member
    obtain ⟨before, inside, rfl⟩ := List.mem_map.mp member
    exact (lists before inside).distinctly
  constructor
  · intro counted
    apply nodup_of_count_eq
    intro nodeId
    have same := counted.counters nodeId
    rw [counters_answered reliable lists,
      counters_answered reliable reduced] at same
    cases found :
      (History.of env operations).world.nodes.find? nodeId with
    | some node =>
        rw [found] at same
        have totals := congrArg Prod.fst (Option.some.inj same)
        change node.total + _ = node.total + _ at totals
        omega
    | none =>
        rw [count_eq_zero_of_unregistered lists found,
          count_eq_zero_of_unregistered reduced found]
  · intro once
    have sameWorld := answered_distinctly env once
      (History.of env operations).world
    constructor
    · rw [sameWorld]
    · intro nodeId
      rw [sameWorld]
    · exact weights_answered reliable idle lists distinct once epoch

section Repeated

open Orchestrator

/-- Two registered nodes. -/
def roster : List Operation :=
  [.register "node-a" "validator", .register "node-b" "validator"]

theorem roster_idle (epoch : ℚ) :
    (History.of .plain roster).world.participations epoch = [] :=
  rfl

/-- A process of both nodes and a process of one. -/
theorem distinct_nodes_counted_once :
    CountedOnce .plain (History.of .plain roster).world
      [transferBody "p-1" (some ["node-a", "node-b"]),
        transferBody "p-2" (some ["node-a"])] 1 := by
  refine (counted_once_iff .plain roster roster_idle _ (by decide)
    ?_ 1).mpr ?_
  · decide +kernel
  · decide

/-- A body that names a node twice. -/
def repeating : RunProcessDto :=
  transferBody "p-1" (some ["node-a", "node-a", "node-b"])

def paymentsAfter (body : RunProcessDto) : List (String × ℚ) :=
  match ((Request.finalizeEpoch 1).handle .plain
      ((History.of .plain roster).world.answered .plain
        [.runProcess body])).1 with
  | .returned (.finalized result) =>
      result.distributionLog.map fun entry =>
        (entry.nodeId, entry.amount)
  | _ => []

theorem counters_repeating :
    counters ((History.of .plain roster).world.answered .plain
        [.runProcess repeating]) "node-a" = some (2, 2) ∧
      counters ((History.of .plain roster).world.answered .plain
        [.runProcess (distinctly repeating)]) "node-a" =
          some (1, 1) := by
  decide +kernel

/-- The node that is named twice has worked twice, and is paid twice as much
as the other. -/
theorem repeated_node_counted_twice :
    Registered (History.of .plain roster).world repeating.nodeIds ∧
      ¬ CountedOnce .plain (History.of .plain roster).world
        [repeating] 1 ∧
      paymentsAfter repeating =
        [("node-a", 5 / 2), ("node-b", 5 / 4), ("AFC_RESERVE", 5 / 4)] ∧
      paymentsAfter (distinctly repeating) =
        [("node-a", 15 / 8), ("node-b", 15 / 8),
          ("AFC_RESERVE", 5 / 4)] := by
  refine ⟨by decide +kernel, ?_, by decide +kernel, by decide +kernel⟩
  intro counted
  obtain ⟨twice, once⟩ := counters_repeating
  have same := counted.counters "node-a"
  exact absurd (twice.symm.trans (same.trans once)) (by decide)

end Repeated

end ArosParadigm.ParticipationCount
