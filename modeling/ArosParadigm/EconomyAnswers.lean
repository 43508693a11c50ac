import ArosParadigm.Economy
import ArosParadigm.RunReport

/-!
# The endpoints are the economy

Requests answered one after another from an empty store get the answers of the
economy: every field of every answer but the times, for every sequence of
requests. The world between requests shows the economy.
-/

namespace ArosParadigm

open Await

namespace World

variable {env : Environment} {world : World}

/-- The type and the process of every snapshot. -/
def chain (world : World) : List (String × Option String) :=
  world.history.map fun snapshot =>
    (snapshot.eventType, snapshot.payload.processId?)

/-- The snapshots are numbered from 1. -/
def Numbered (world : World) : Prop :=
  world.history.map ExecutionSnapshot.sequenceId =
    List.range' 1 world.history.length

theorem chain_append (eventType : String) (payload : Payload) :
    (world.append env eventType payload).chain =
      world.chain ++ [(eventType, payload.processId?)] := by
  unfold chain
  rw [history_append, List.map_append]
  rfl

theorem chain_captureEvent (processId eventType : String)
    (data : Json.JsObject ℚ) :
    (world.captureEvent env processId eventType data).chain =
      world.chain ++ [(eventType, some processId)] :=
  chain_append eventType _

theorem Numbered.append (numbered : world.Numbered) (eventType : String)
    (payload : Payload) :
    (world.append env eventType payload).Numbered := by
  have next : (world.nextSnapshot env eventType payload).sequenceId =
      ((world.history.map ExecutionSnapshot.sequenceId).getLast?.getD 0) +
        1 :=
    NodeChain.sequenceId_nextRow env.hasher (.same Payload)
      world.snapshots eventType payload (world.clock + 1)
  unfold Numbered at numbered ⊢
  rw [history_append, List.map_append, List.length_append, numbered]
  rw [numbered] at next
  have last : (List.range' 1 world.history.length).getLast?.getD 0 =
      world.history.length := by
    cases world.history.length with
    | zero =>
        rfl
    | succ count =>
        rw [List.range'_concat, List.getLast?_concat]
        simp [add_comm]
  rw [last] at next
  simp only [List.map_cons, List.map_nil, List.length_cons,
    List.length_nil, zero_add]
  rw [next, List.range'_concat]
  simp [add_comm]

theorem numbered_initial : initial.Numbered :=
  rfl

/-- No call breaks the numbering. -/
theorem Numbered.step (numbered : world.Numbered) (request : Call)
    {reply : request.Reply} {after : World}
    (answered : machine env request world = some (reply, after)) :
    after.Numbered := by
  cases request with
  | append eventType payload =>
      cases answered
      exact numbered.append eventType payload
  | claimInitialization =>
      obtain ⟨_, rfl⟩ := eq_of_claimInitialization answered
      exact numbered
  | awaitInitialization =>
      obtain rfl := eq_of_awaitInitialization answered
      exact numbered
  | _ =>
      cases answered
      exact numbered

theorem Numbered.run (numbered : world.Numbered) {result : Type}
    (program : Service result) :
    (Await.run (machine env) program world).2.Numbered :=
  run_invariant (fun request _ _ _ _ answered before =>
    before.step request answered) (uses_true program) numbered

theorem chain_eq_events :
    world.chain = world.events.map fun event =>
      (event.1, event.2.processId?) := by
  rw [events, List.map_map]
  rfl

theorem chain_of_history {after : World}
    (same : after.history = world.history) :
    after.chain = world.chain := by
  unfold chain
  rw [same]

/-- The numbered snapshots of a process are found along the chain. -/
private theorem map_filter_numbered (processId : String)
    (snapshots : List Snapshot) (start : ℕ)
    (numbered : snapshots.map ExecutionSnapshot.sequenceId =
      List.range' start snapshots.length) :
    (snapshots.filter fun snapshot =>
        snapshot.payload.processId? = some processId).map
          (fun snapshot => (snapshot.eventType, snapshot.sequenceId)) =
      ((snapshots.map fun snapshot =>
        (snapshot.eventType, snapshot.payload.processId?)).zipIdx
          start).filterMap fun entry =>
            if entry.1.2 = some processId then some (entry.1.1, entry.2)
            else none := by
  induction snapshots generalizing start with
  | nil =>
      rfl
  | cons snapshot rest inductionHypothesis =>
      rw [List.length_cons, List.range'_succ, List.map_cons] at numbered
      obtain ⟨first, others⟩ := List.cons.inj numbered
      have later := inductionHypothesis (start + 1) others
      by_cases own : snapshot.payload.processId? = some processId
      · simp [own, first, later]
      · simp [own, later]

end World

namespace Orchestrator

variable {env : Environment} {world : World}

theorem chain_observedWorld :
    (observedWorld env world).chain = world.chain :=
  World.chain_of_history RunReport.history_observedWorld

theorem chain_inadmissibleWorld (body : RunProcessDto) :
    (inadmissibleWorld env world body).chain =
      world.chain ++ [("initiation", some body.processId)] :=
  World.chain_captureEvent body.processId "initiation"
    (amountData body.amount)

theorem chain_enrolledWorld (roster : List (String × String)) :
    (enrolledWorld env world roster).chain =
      world.chain ++ roster.map fun _ => ("node.registered", none) := by
  induction roster generalizing world with
  | nil =>
      exact (List.append_nil _).symm
  | cons node rest inductionHypothesis =>
      have first : (Nodes.registered env world node.1 node.2).chain =
          world.chain ++ [("node.registered", none)] :=
        World.chain_append "node.registered" _
      refine inductionHypothesis.trans ?_
      rw [first, List.append_assoc]
      rfl

/-- The default roster is registered where it is needed. -/
theorem chain_rosterWorld (explicit : Option (List String)) :
    (rosterWorld env world explicit).chain =
      world.chain ++
        if !Economy.isExplicit explicit ∧ world.nodes.rows = [] then
          defaultNodes.map fun _ => ("node.registered", none)
        else [] := by
  have implicit : (if world.nodes.rows = [] then
      enrolledWorld env world defaultNodes else world).chain =
        world.chain ++ if world.nodes.rows = [] then
          defaultNodes.map fun _ => ("node.registered", none) else [] := by
    by_cases empty : world.nodes.rows = []
    · rw [if_pos empty, if_pos empty]
      exact chain_enrolledWorld defaultNodes
    · rw [if_neg empty, if_neg empty, List.append_nil]
  rcases explicit with _ | (_ | ⟨first, rest⟩)
  · simpa [Economy.isExplicit, rosterWorld] using implicit
  · simpa [Economy.isExplicit, rosterWorld] using implicit
  · simp [Economy.isExplicit, rosterWorld]

theorem chain_requestedWorld (body : RunProcessDto) :
    (requestedWorld env world body).chain =
      (world.chain ++ [("initiation", some body.processId)] ++
        if !Economy.isExplicit body.nodeIds ∧ world.nodes.rows = [] then
          defaultNodes.map fun _ => ("node.registered", none)
        else []) ++
      [("task_assignment", some body.processId),
        ("stage_transition", some body.processId),
        ("execution_complete", some body.processId)] := by
  have initiated : (initiatedWorld env world body).chain =
      world.chain ++ [("initiation", some body.processId)] :=
    World.chain_captureEvent _ _ _
  have staffed := @chain_rosterWorld env (initiatedWorld env world body)
    body.nodeIds
  rw [initiated] at staffed
  unfold requestedWorld executedWorld
  rw [World.chain_of_history (history_workedWorld _), preparedWorld,
    World.chain_captureEvent, World.chain_captureEvent,
    World.chain_of_history (World.history_log _ _ _ _ _),
    World.chain_captureEvent, staffed]
  simp only [List.append_assoc, List.cons_append, List.nil_append]
  rfl

theorem chain_verifyWorld (processId : String) :
    (Pot.verifyWorld env world processId).chain =
      world.chain ++
        if world.verdicts.find? processId = none then
          [("pot.verified", some processId)]
        else [] := by
  unfold Pot.verifyWorld
  cases found : world.verdicts.find? processId with
  | some row =>
      simp
  | none =>
      exact World.chain_append "pot.verified" _

theorem chain_settledWorld (processId : String) (amount epoch : ℚ)
    (nodes : List String) :
    (settledWorld env world processId amount epoch nodes).chain =
      world.chain ++ [("emission.minted", some processId),
        ("emission", some processId), ("emission.burned", some processId),
        ("final_status", some processId)] := by
  have accrued : ∀ (before : World) fee participants,
      (Commission.accruedWorld before epoch fee participants).chain =
        before.chain := by
    intro before fee participants
    unfold Commission.accruedWorld Commission.openedWorld
    split <;> rfl
  have minted : (Emission.mintedWorld env world processId amount).chain =
      world.chain ++ [("emission.minted", some processId)] :=
    World.chain_append "emission.minted" _
  have burned : ∀ before : World,
      (Emission.burnedWorld env before processId amount).chain =
        before.chain ++ [("emission.burned", some processId)] :=
    fun before => World.chain_append "emission.burned" _
  rw [settledWorld, chain_observedWorld, recordedWorld,
    World.chain_of_history (World.history_log _ _ _ _ _),
    World.chain_captureEvent, balancedWorld,
    World.chain_of_history (World.history_log _ _ _ _ _), burned, accrued,
    emittedWorld, World.chain_of_history (World.history_log _ _ _ _ _),
    World.chain_captureEvent, minted]
  simp only [List.append_assoc, List.cons_append, List.nil_append]

/-- What a confirmed process adds after its execution. -/
theorem chain_settled_verdictWorld (body : RunProcessDto) (epoch : ℚ)
    (nodes : List String) :
    (settledWorld env (verdictWorld env world body) body.processId
        body.amount epoch nodes).chain =
      (requestedWorld env world body).chain ++
        ((if world.verdicts.find? body.processId = none then
            [("pot.verified", some body.processId)] else []) ++
          [("pot_verdict", some body.processId),
            ("emission.minted", some body.processId),
            ("emission", some body.processId),
            ("emission.burned", some body.processId),
            ("final_status", some body.processId)]) := by
  rw [chain_settledWorld, verdictWorld, judgedWorld,
    World.chain_of_history (World.history_log _ _ _ _ _),
    World.chain_captureEvent, chain_verifyWorld, verdicts_requestedWorld]
  simp only [List.append_assoc, List.cons_append, List.nil_append]

theorem chain_finalizedWorld (row : Epoch) (epochNumber : ℚ)
    (weights : Commission.Weights) :
    (Commission.finalizedWorld env world row epochNumber weights).chain =
      world.chain ++
        ((Commission.payments weights row.totalFees).map
            (fun _ => ("node.payment.received", none)) ++
          [("reserve.afc.accrual", none),
            ("commission.epoch.finalized", none)]) := by
  have paid : (Commission.payWorld env world
      (Commission.payments weights row.totalFees)).chain =
        world.chain ++ (Commission.payments weights row.totalFees).map
          fun _ => ("node.payment.received", none) := by
    rw [World.chain_eq_events, Commission.events_payWorld,
      List.map_append, ← World.chain_eq_events, List.map_map]
    rfl
  have accrued : ∀ before : World, ∀ amount,
      (before.append env "reserve.afc.accrual"
        (.afcAccrual amount)).chain =
          before.chain ++ [("reserve.afc.accrual", none)] :=
    fun before amount => World.chain_append "reserve.afc.accrual" _
  unfold Commission.finalizedWorld
  refine (World.chain_append "commission.epoch.finalized" _).trans ?_
  have stored : ∀ before : World, ∀ saved,
      (before.tick.saveEpoch saved).chain = before.chain :=
    fun _ _ => rfl
  rw [stored, accrued, paid]
  simp only [List.append_assoc, List.cons_append, List.nil_append]
  rfl

end Orchestrator

/-! ## What a world shows -/

/-- The economy of given accounts, confirmed processes and snapshots. -/
def Economy.ofAccounts (accounts : Accounts) (approved : List String)
    (chain : List (String × Option String)) : Economy where
  roster := accounts.nodes.map NodeEntity.id
  approved := approved
  epochs := accounts.epochs
  shares := fun epochNumber =>
    (accounts.participations epochNumber).map Participation.nodeId
  retained := accounts.ledger.earnedRetained
  volume := accounts.volume
  chain := chain

/-- The economy that a world shows. -/
def World.economy (world : World) : Economy :=
  .ofAccounts world.accounts
    (world.verdicts.rows.map PotVerdict.processId) world.chain

/-- What a caller is shown of an answer, and of the world after it. -/
def shown (answer : Outcome ServiceError Response × World) :
    Outcome ServiceError Reply × Economy :=
  (replyOf answer.1, answer.2.economy)

/-- What holds of a world between requests. -/
structure World.Conducted (env : Environment) (world : World) : Prop where
  reliable : Reliable env world
  numbered : world.Numbered
  unreleased : (world.phase.getD ReleasePhase.inactive).active = false

section Figures

variable {env : Environment} {world after : World}

theorem World.volume_of_books (same : after.books = world.books) :
    after.volume = world.volume := by
  rw [volume_eq_books, volume_eq_books, same]

theorem World.volume_of_history (same : after.history = world.history) :
    after.volume = world.volume := by
  unfold World.volume
  rw [same]

/-- The supply is what has been retained. -/
theorem supplyOf_of_netted (netted : world.books.Netted) :
    Orchestrator.supplyOf world = world.economy.retained := by
  have consistent :
      world.ledgerRow.processMinted = world.ledgerRow.processBurned :=
    netted
  rw [Orchestrator.supplyOf, consistent, sub_self, zero_add]
  rfl

theorem indexOf_eq :
    Orchestrator.indexOf env world = world.economy.index env :=
  rfl

end Figures

section Assignment

open Orchestrator

variable {env : Environment} {world : World}

theorem ids_staffed_eq (rows : List NodeEntity)
    (explicit : Option (List String)) :
    (staffed rows explicit).map NodeEntity.id =
      if !Economy.isExplicit explicit ∧ rows = [] then
        defaultNodes.map Prod.fst
      else rows.map NodeEntity.id := by
  have implicit : (if rows = [] then defaultRoster else rows).map
      NodeEntity.id =
        if rows = [] then defaultNodes.map Prod.fst
        else rows.map NodeEntity.id := by
    by_cases empty : rows = []
    · rw [if_pos empty, if_pos empty]
      rfl
    · rw [if_neg empty, if_neg empty]
  rcases explicit with _ | (_ | ⟨first, rest⟩)
  · simpa [Economy.isExplicit, staffed] using implicit
  · simpa [Economy.isExplicit, staffed] using implicit
  · simp [Economy.isExplicit, staffed]

/-- Trusted nodes are active, so all of them are assigned. -/
theorem assigned_of_trusted {rows : List NodeEntity}
    (trusted : ∀ node ∈ rows, Accounts.Trusted node)
    (explicit : Option (List String)) {economy : Economy}
    (roster : economy.roster =
      (staffed rows explicit).map NodeEntity.id) :
    economy.assigned explicit = assigned rows explicit := by
  have everyone : (staffed rows none).filter (fun node =>
      node.status = .active) = staffed rows none := by
    rw [List.filter_eq_self]
    intro node member
    simpa using
      (Accounts.trusted_staffed trusted none node member).active
  rcases explicit with _ | (_ | ⟨first, rest⟩)
  · unfold assigned
    rw [everyone]
    exact roster
  · unfold assigned
    rw [everyone]
    exact roster
  · rfl

/-- The default roster is needed. -/
abbrev Economy.Unmanned (economy : Economy)
    (explicit : Option (List String)) : Prop :=
  !isExplicit explicit ∧ economy.roster = []

theorem Economy.execute_eq (economy : Economy) (body : RunProcessDto) :
    economy.execute body =
      { economy with
        roster :=
          if economy.Unmanned body.nodeIds then
            defaultNodes.map Prod.fst
          else economy.roster
        chain :=
          (economy.chain ++ [("initiation", some body.processId)] ++
            if economy.Unmanned body.nodeIds then
              defaultNodes.map fun _ => ("node.registered", none)
            else []) ++
          [("task_assignment", some body.processId),
            ("stage_transition", some body.processId),
            ("execution_complete", some body.processId)] } := by
  unfold execute staff
  by_cases unmanned : economy.Unmanned body.nodeIds
  · have needed : !isExplicit body.nodeIds ∧
        (economy.record body.processId ["initiation"]).roster = [] :=
      unmanned
    rw [if_pos unmanned, if_pos unmanned, if_pos needed]
    rfl
  · have settled : ¬ (!isExplicit body.nodeIds ∧
        (economy.record body.processId ["initiation"]).roster = []) :=
      unmanned
    rw [if_neg unmanned, if_neg unmanned, if_neg settled,
      List.append_nil]
    rfl

variable (env world) in
/-- A process as far as its execution. -/
theorem economy_requestedWorld (body : RunProcessDto) :
    (requestedWorld env world body).economy =
      world.economy.execute body := by
  have unmanned : world.economy.Unmanned body.nodeIds ↔
      (!Economy.isExplicit body.nodeIds ∧ world.nodes.rows = []) := by
    change _ ∧ world.nodes.rows.map NodeEntity.id = [] ↔ _
    rw [List.map_eq_nil_iff]
  have roster : (Accounts.labour world.accounts.nodes body).map
      NodeEntity.id =
        if !Economy.isExplicit body.nodeIds ∧ world.nodes.rows = [] then
          defaultNodes.map Prod.fst
        else world.nodes.rows.map NodeEntity.id := by
    rw [Accounts.labour, Accounts.ids_work]
    exact ids_staffed_eq world.nodes.rows body.nodeIds
  rw [Economy.execute_eq]
  simp only [unmanned]
  unfold World.economy Economy.ofAccounts
  rw [accounts_requestedWorld, verdicts_requestedWorld,
    chain_requestedWorld]
  exact Economy.ext roster rfl rfl rfl rfl rfl rfl

/-- The nodes assigned by the economy. -/
theorem assigned_execute (healthy : world.accounts.Healthy)
    (body : RunProcessDto) :
    (world.economy.execute body).assigned body.nodeIds =
      bodyNodes env world body := by
  have roster : (world.economy.execute body).roster =
      (staffed world.nodes.rows body.nodeIds).map NodeEntity.id := by
    rw [← economy_requestedWorld env]
    change ((requestedWorld env world body).nodes.rows).map
      NodeEntity.id = _
    rw [rows_requestedWorld, Accounts.labour, Accounts.ids_work]
  have trusted : ∀ node ∈ world.nodes.rows, Accounts.Trusted node :=
    healthy.trusted
  have names : bodyNodes env world body =
      assigned world.nodes.rows body.nodeIds :=
    assignedNodes_eq body.nodeIds
  rw [names]
  exact assigned_of_trusted trusted body.nodeIds roster

end Assignment

section Serving

open Orchestrator

variable {env : Environment} {world : World} {body : RunProcessDto}

theorem economy_inadmissibleWorld :
    (inadmissibleWorld env world body).economy =
      world.economy.record body.processId ["initiation"] := by
  have accounts : (inadmissibleWorld env world body).accounts =
      world.accounts :=
    World.accounts_eq (books_inadmissibleWorld body)
      (workforce_inadmissibleWorld body)
  unfold World.economy
  rw [accounts, chain_inadmissibleWorld]
  rfl

private theorem shown_of_inadmissible (sound : Sound env world)
    (inadmissible : body.admissible = false) :
    shown ((Request.runProcess body).handle env world) =
      world.economy.serve env body := by
  have handled : (Request.runProcess body).handle env world = _ :=
    Request.handle_of_returned Response.run
      (returned_runProcess_of_inadmissible env sound.settled inadmissible)
  have initiated : (initiatedWorld env world body).books = world.books :=
    books_initiatedWorld body
  have supply : supplyOf (initiatedWorld env world body) =
      world.economy.retained := by
    have netted : (initiatedWorld env world body).books.Netted := by
      rw [initiated]
      exact sound.netted
    refine (supplyOf_of_netted netted).trans ?_
    exact congrArg (fun books => books.ledger.earnedRetained) initiated
  have index : indexOf env (initiatedWorld env world body) =
      world.economy.index env := by
    rw [indexOf_eq]
    exact congrArg (fun volume => env.log10 (1 + volume))
      (World.volume_of_books initiated)
  rw [handled, Economy.serve, if_neg (by simp [inadmissible])]
  unfold shown
  rw [economy_inadmissibleWorld]
  simp only [replyOf, Response.reply]
  rw [supply, index]
  rfl

variable (env) in
/-- The first assigned node that is not registered. -/
private theorem find?_missing (healthy : world.accounts.Healthy) :
    ((world.economy.execute body).assigned body.nodeIds).find?
        (fun id => id ∉ (world.economy.execute body).roster) =
      (bodyNodes env world body).find? fun id =>
        ((rosterWorld env (initiatedWorld env world body)
          body.nodeIds).nodes.find? id).isNone := by
  have roster : (world.economy.execute body).roster =
      (rosterWorld env (initiatedWorld env world body)
        body.nodeIds).nodes.rows.map NodeEntity.id := by
    rw [← economy_requestedWorld env, rows_rosterWorld]
    change ((requestedWorld env world body).nodes.rows).map
      NodeEntity.id = _
    rw [rows_requestedWorld, Accounts.labour, Accounts.ids_work]
    rfl
  rw [assigned_execute healthy, roster]
  congr 1
  funext id
  rw [Bool.eq_iff_iff, decide_eq_true_iff, Option.isNone_iff_eq_none,
    Keyed.Table.find?_eq_none_iff]

private theorem shown_of_unregistered
    (healthy : world.accounts.Healthy)
    (admissible : body.admissible = true) {id : String}
    (first : ((world.economy.execute body).assigned body.nodeIds).find?
      (fun id => id ∉ (world.economy.execute body).roster) = some id) :
    shown ((Request.runProcess body).handle env world) =
      world.economy.serve env body := by
  have missing := first
  rw [find?_missing env healthy] at missing
  have handled : (Request.runProcess body).handle env world = _ :=
    Request.handle_of_threw Response.run
      (threw_runProcess_of_unregistered env admissible missing)
  rw [handled, Economy.serve, if_pos admissible]
  simp only [first]
  unfold shown
  rw [economy_requestedWorld]
  rfl

/-- The world after a verified process. -/
abbrev confirmedWorld (env : Environment) (world : World)
    (body : RunProcessDto) : World :=
  settledWorld env (verdictWorld env world body) body.processId
    body.amount (Accounts.epochOf body) (bodyNodes env world body)

variable (env world body) in
/-- The confirmed processes after one more verdict. -/
private theorem approved_confirmedWorld :
    (confirmedWorld env world body).verdicts.rows.map
        PotVerdict.processId =
      if body.processId ∈ world.verdicts.rows.map PotVerdict.processId then
        world.verdicts.rows.map PotVerdict.processId
      else
        world.verdicts.rows.map PotVerdict.processId ++
          [body.processId] := by
  have saved : (confirmedWorld env world body).verdicts =
      world.verdicts.save (verdictOn env world body) := by
    refine (RunReport.verdicts_settledWorld _ _ _ _).trans ?_
    exact congrArg Books.verdicts (books_verdictWorld body)
  have subject : (verdictOn env world body).processId =
      body.processId :=
    Pot.verdictRow_processId env _ _
  rw [saved, Keyed.Table.keys_save, subject]

theorem computeFee_eq_feeRate (amount : ℚ) :
    Commission.computeFee amount = amount * Commission.feeRate := by
  rw [Commission.computeFee, add_zero, mul_one]

/-- A settlement adds the assigned nodes to the shares of its epoch. -/
private theorem shares_settle (accounts : Accounts) (body : RunProcessDto)
    (tested : ℚ) :
    ((accounts.settle body).participations tested).map
        Participation.nodeId =
      Function.update
        (fun epochNumber => (accounts.participations epochNumber).map
          Participation.nodeId)
        (Accounts.epochOf body)
        ((accounts.participations (Accounts.epochOf body)).map
          Participation.nodeId +
            (assigned accounts.nodes body.nodeIds : Multiset String))
        tested := by
  have names : (Accounts.participants accounts.nodes body).map
      Participation.nodeId =
        (assigned accounts.nodes body.nodeIds : Multiset String) := by
    rw [Accounts.participants, Multiset.map_coe, List.map_map]
    exact congrArg _ (List.map_id _)
  rw [Accounts.participations_settle]
  by_cases same : tested = Accounts.epochOf body
  · subst same
    rw [Function.update_self, Function.update_self, Multiset.map_add,
      names]
  · rw [Function.update_of_ne same, Function.update_of_ne same]

/-- A verified process is confirmed. -/
theorem economy_confirmedWorld
    (accounts : (confirmedWorld env world body).accounts =
      world.accounts.settle body) :
    (confirmedWorld env world body).economy =
      (world.economy.execute body).confirm body
        (bodyNodes env world body) := by
  have names : assigned world.accounts.nodes body.nodeIds =
      bodyNodes env world body :=
    (@assignedNodes_eq env (initiatedWorld env world body)
      body.nodeIds).symm
  have shares := shares_settle world.accounts body
  rw [names] at shares
  have known : world.verdicts.find? body.processId = none ↔
      body.processId ∉ world.verdicts.rows.map PotVerdict.processId :=
    Keyed.Table.find?_eq_none_iff _ _
  have chain := @chain_settled_verdictWorld env world body
    (Accounts.epochOf body) (bodyNodes env world body)
  rw [← economy_requestedWorld env]
  unfold World.economy Economy.ofAccounts
  rw [accounts, approved_confirmedWorld, chain, accounts_requestedWorld,
    verdicts_requestedWorld]
  simp only [known]
  unfold Economy.confirm
  apply Economy.ext
  · rfl
  · by_cases isNew :
      body.processId ∈ world.verdicts.rows.map PotVerdict.processId
    · simp [isNew]
    · simp [isNew]
  · funext tested
    change Function.update _ _ _ tested = Function.update _ _ _ tested
    rw [computeFee_eq_feeRate]
  · exact funext shares
  · rfl
  · rfl
  · by_cases isNew :
      body.processId ∈ world.verdicts.rows.map PotVerdict.processId
    · simp [isNew, Economy.record]
    · simp [isNew, Economy.record]

/-- The last records of a process carry no value. -/
private theorem index_settledWorld (processId : String)
    (amount epoch : ℚ) (nodes : List String) :
    indexOf env (balancedWorld env
        (emittedWorld env world processId amount) processId amount epoch
          nodes) =
      (settledWorld env world processId amount epoch nodes).economy.index
        env := by
  have observed : (settledWorld env world processId amount epoch
      nodes).volume =
        (recordedWorld env world processId amount epoch nodes).volume :=
    World.volume_of_history RunReport.history_observedWorld
  have recorded : (recordedWorld env world processId amount epoch
      nodes).volume = (balancedWorld env
        (emittedWorld env world processId amount) processId amount epoch
          nodes).volume := by
    apply World.volume_of_books
    rw [recordedWorld, World.books_log _ _ _ (by decide),
      World.books_captureEvent _ _ _ (by decide)]
  rw [indexOf_eq]
  exact congrArg (fun volume => env.log10 (1 + volume))
    (recorded.symm.trans observed.symm)

private theorem shown_of_registered (reliable : Reliable env world)
    (admissible : body.admissible = true)
    (everyone : ((world.economy.execute body).assigned
      body.nodeIds).find?
        (fun id => id ∉ (world.economy.execute body).roster) = none) :
    shown ((Request.runProcess body).handle env world) =
      world.economy.serve env body := by
  have present := everyone
  rw [find?_missing env reliable.healthy] at present
  have registered : Registered world body.nodeIds := by
    apply (@registered_assignedNodes_iff env
      (initiatedWorld env world body) body.nodeIds).mp
    intro id member
    have known := List.find?_eq_none.mp present id member
    rwa [Bool.not_eq_true, Option.isNone_eq_false_iff] at known
  have verified : (verdictOn env world body).verified = 1 :=
    congrArg Prod.fst
      (verdictOn_of_healthy reliable.sound.intact reliable.healthy body)
  have handled : (Request.runProcess body).handle env world = _ :=
    Request.handle_of_returned Response.run
      (returned_runProcess_of_verified env reliable.sound.settled
        admissible registered verified)
  have accepts : world.accounts.Accepts body :=
    ⟨admissible, registered⟩
  have accounts : (confirmedWorld env world body).accounts =
      world.accounts.settle body := by
    have acted := (reliable.accounts_handle (.runProcess body)).1
    rw [handled] at acted
    exact acted.trans (if_pos accepts)
  have netted : (confirmedWorld env world body).books.Netted := by
    have sound := reliable.sound.handle (.runProcess body)
    rw [handled] at sound
    exact sound.netted
  have economy := economy_confirmedWorld accounts
  have names := @assigned_execute env world reliable.healthy body
  have supply := supplyOf_of_netted netted
  have index := @index_settledWorld env (verdictWorld env world body)
    body.processId body.amount (Accounts.epochOf body)
    (bodyNodes env world body)
  rw [handled, Economy.serve, if_pos admissible]
  simp only [everyone]
  rw [names, ← economy]
  unfold shown
  simp only [replyOf, Response.reply]
  rw [← supply, ← index, computeFee_eq_feeRate]
  rfl

end Serving

section Finalizing

open Orchestrator

variable {env : Environment} {world : World} {accounts : Accounts}
variable {epochNumber : ℚ}

/-- With weights of one, a node is paid by its participations. -/
theorem payments_eq (healthy : accounts.Healthy) (epochNumber total : ℚ) :
    accounts.payments epochNumber total =
      Economy.payments ((accounts.participations epochNumber).map
        Participation.nodeId) total := by
  rw [Accounts.payments, Commission.dues, healthy.sum_weight_crew]
  by_cases nobody : accounts.participations epochNumber = 0
  · rw [nobody]
    simp [Economy.payments]
  · have positive :
        (0 : ℚ) < (accounts.participations epochNumber).card :=
      Nat.cast_pos.mpr (Multiset.card_pos.mpr nobody)
    rw [if_pos positive, ← healthy.crew_eq]
    unfold Economy.payments
    apply List.map_congr_left
    intro nodeId member
    have takesPart : nodeId ∈ accounts.crew epochNumber := by
      simpa using member
    have crewSize : (accounts.crew epochNumber).card =
        (accounts.participations epochNumber).card := by
      rw [healthy.crew_eq, Multiset.card_map]
    rw [healthy.weight_of_mem_crew takesPart, crewSize,
      Commission.marginRate]
    congr 1
    ring

/-- An open epoch keeps a quarter of its fees. -/
theorem closing_eq (healthy : accounts.Healthy) {figures : EpochFigures}
    (found : accounts.epochs epochNumber = some figures)
    (isOpen : figures.status = .opened) :
    accounts.closing epochNumber figures.totalFees =
      ⟨epochNumber,
        Economy.distribution ((accounts.participations epochNumber).map
          Participation.nodeId) figures.totalFees,
        figures.totalFees / 4, figures.totalFees * (3 / 4),
        figures.totalFees, true⟩ := by
  have margin : figures.totalFees - figures.totalFees * (3 / 4) =
      figures.totalFees / 4 := by
    ring
  have balanced : Commission.isReconciled (figures.totalFees * (3 / 4))
      (figures.totalFees / 4) figures.totalFees = true := by
    have nothing : figures.totalFees * (3 / 4) + figures.totalFees / 4 -
        figures.totalFees = 0 := by
      ring
    rw [Commission.isReconciled, nothing, abs_zero]
    decide +kernel
  unfold Accounts.closing
  simp only
  rw [healthy.paid_of_open found isOpen, margin, balanced,
    payments_eq healthy]
  rfl

private theorem ofAccounts_close (healthy : accounts.Healthy)
    {figures : EpochFigures}
    (found : accounts.epochs epochNumber = some figures)
    (isOpen : figures.status = .opened) (approved : List String)
    (chain : List (String × Option String)) :
    Economy.ofAccounts (accounts.close epochNumber figures) approved
        (chain ++
          ((accounts.payments epochNumber figures.totalFees).map
              (fun _ => ("node.payment.received", none)) ++
            [("reserve.afc.accrual", none),
              ("commission.epoch.finalized", none)])) =
      (Economy.ofAccounts accounts approved chain).close epochNumber
        figures := by
  have fees := (healthy.pooled epochNumber figures found isOpen).1
  have closing := closing_eq healthy found isOpen
  have paid := healthy.paid_of_open found isOpen
  unfold Accounts.close
  rw [closing, payments_eq healthy]
  simp only
  apply Economy.ext
  · rfl
  · rfl
  · rfl
  · funext tested
    change (Function.update accounts.participations epochNumber 0
      tested).map Participation.nodeId = Function.update
        (fun epochNumber => (accounts.participations epochNumber).map
          Participation.nodeId) epochNumber 0 tested
    by_cases same : tested = epochNumber
    · subst same
      rw [Function.update_self, Function.update_self]
      rfl
    · rw [Function.update_of_ne same, Function.update_of_ne same]
  · rfl
  · exact congrArg (accounts.volume + ·) (if_pos (by linarith))
  · unfold Economy.close Economy.note
    simp only [List.map_append, List.map_map]
    rfl

private theorem shown_of_missing
    (missing : world.epochs.find? epochNumber = none) :
    shown ((Request.finalizeEpoch epochNumber).handle env world) =
      world.economy.finalize env epochNumber := by
  have handled : (Request.finalizeEpoch epochNumber).handle env world = _ :=
    Request.handle_of_threw Response.finalized
      (run_finalizeEpoch_of_threw
        (Commission.run_finalizeEpoch_of_none env missing))
  have nothing : world.economy.epochs epochNumber = none :=
    congrArg (Option.map Epoch.figures) missing
  rw [handled, Economy.finalize, nothing]
  rfl

private theorem shown_of_closed (sound : Sound env world) {row : Epoch}
    (found : world.epochs.find? epochNumber = some row)
    (closed : row.status ≠ .opened) :
    shown ((Request.finalizeEpoch epochNumber).handle env world) =
      world.economy.finalize env epochNumber := by
  have handled : (Request.finalizeEpoch epochNumber).handle env world = _ :=
    Request.handle_of_returned Response.finalized
      (run_finalizeEpoch_of_returned sound.settled
        (Commission.run_finalizeEpoch_of_closed env found closed))
  have figures : world.economy.epochs epochNumber = some row.figures :=
    congrArg (Option.map Epoch.figures) found
  have number : row.epochNumber = epochNumber :=
    Keyed.Table.key_of_find? found
  have result : Commission.toResult row =
      Economy.report epochNumber row.figures := by
    rw [← number]
    rfl
  have economy : (reportedWorld env world epochNumber
      (Commission.toResult row)).economy = world.economy := by
    have accounts : (reportedWorld env world epochNumber
        (Commission.toResult row)).accounts = world.accounts :=
      World.accounts_eq (Request.books_reportedWorld sound.netted)
        (workforce_reportedWorld _ _)
    have chain : (reportedWorld env world epochNumber
        (Commission.toResult row)).chain = world.chain :=
      chain_observedWorld
    have verdicts : (reportedWorld env world epochNumber
        (Commission.toResult row)).verdicts = world.verdicts :=
      RunReport.verdicts_observedWorld
    unfold World.economy
    rw [accounts, chain, verdicts]
  have notOpen : row.figures.status ≠ .opened :=
    closed
  rw [handled, Economy.finalize, figures]
  simp only
  rw [if_neg notOpen]
  unfold shown
  rw [economy, ← result]
  rfl

private theorem shown_of_open (reliable : Reliable env world)
    {row : Epoch} (found : world.epochs.find? epochNumber = some row)
    (isOpen : row.status = .opened) :
    shown ((Request.finalizeEpoch epochNumber).handle env world) =
      world.economy.finalize env epochNumber := by
  obtain ⟨sound, kept, healthy⟩ := reliable
  obtain ⟨weights, weighed⟩ := @Commission.weigh_of_registered world
    (world.participations epochNumber) (by
      intro entry member _
      exact healthy.enrolled epochNumber entry member)
  have finalized : (Commission.finalizedWorld env world row epochNumber
      weights).Settled :=
    Commission.settled_payWorld sound.settled _
  have handled : (Request.finalizeEpoch epochNumber).handle env world = _ :=
    Request.handle_of_returned Response.finalized
      (run_finalizeEpoch_of_returned finalized
        (Commission.run_finalizeEpoch_of_ok env sound.settled found
          isOpen weighed))
  obtain ⟨after, closed, accounts, _⟩ :=
    Request.accounts_finalizeEpoch_of_open sound kept healthy found isOpen
  have isAfter := congrArg Prod.snd (handled.symm.trans closed)
  simp only at isAfter
  have figures : world.accounts.epochs epochNumber = some row.figures :=
    congrArg (Option.map Epoch.figures) found
  have payments : Commission.payments weights row.totalFees =
      world.accounts.payments epochNumber row.figures.totalFees := by
    rw [Commission.payments_eq_dues weighed, Request.crew_accounts]
    rfl
  have chain : after.chain = world.chain ++
      ((world.accounts.payments epochNumber row.figures.totalFees).map
          (fun _ => ("node.payment.received", none)) ++
        [("reserve.afc.accrual", none),
          ("commission.epoch.finalized", none)]) := by
    rw [← isAfter, ← payments]
    exact chain_observedWorld.trans (chain_finalizedWorld _ _ _)
  have verdicts : after.verdicts = world.verdicts := by
    rw [← isAfter]
    refine RunReport.verdicts_observedWorld.trans ?_
    exact Commission.payWorld_verdicts _
  have economy : after.economy =
      world.economy.close epochNumber row.figures := by
    unfold World.economy
    rw [accounts, chain, verdicts]
    exact ofAccounts_close healthy figures isOpen _ _
  have shows : world.economy.epochs epochNumber = some row.figures :=
    figures
  have stillOpen : row.figures.status = .opened :=
    isOpen
  have totalFees : world.accounts.closing epochNumber row.totalFees =
      _ :=
    closing_eq healthy figures isOpen
  rw [closed, Economy.finalize, shows]
  simp only
  rw [if_pos stillOpen]
  unfold shown
  rw [economy, totalFees]
  rfl

end Finalizing

section Reading

open Orchestrator

variable {env : Environment} {world : World}

/-- Every stored verdict is positive and without reasons. -/
private theorem verdict_of_mem (healthy : world.accounts.Healthy)
    {row : PotVerdict} (member : row ∈ world.verdicts.rows) :
    (row.verified, row.reasons) = (1, []) :=
  healthy.approved row.processId (row.verified, row.reasons)
    (congrArg (Option.map _) (Keyed.Table.find?_of_mem member))

private theorem shown_of_metrics (conducted : world.Conducted env)
    (epochNumber : ℚ) :
    shown ((Request.metrics epochNumber).handle env world) =
      (.returned (.metrics (world.economy.measure env epochNumber)),
        world.economy) := by
  obtain ⟨⟨sound, _, healthy⟩, _, unreleased⟩ := conducted
  have handled : (Request.metrics epochNumber).handle env world = _ :=
    Request.handle_of_returned Response.metrics
      (run_metrics_eq env sound.settled epochNumber)
  have phased : (Release.phasedWorld
      (world.withLedger world.ledgerRow)).economy = world.economy := by
    unfold Release.phasedWorld
    split <;> rfl
  have confirmed : (world.verdicts.rows.filter fun row =>
      row.verified = 1).length = world.economy.approved.length := by
    have everyRow : world.verdicts.rows.filter (fun row =>
        row.verified = 1) = world.verdicts.rows := by
      rw [List.filter_eq_self]
      intro row member
      simpa using congrArg Prod.fst (verdict_of_mem healthy member)
    rw [everyRow]
    exact (List.length_map _).symm
  have length : world.history.length = world.economy.chain.length :=
    (List.length_map _).symm
  have supply := supplyOf_of_netted sound.netted
  have pool : (world.epochs.find? epochNumber).map Epoch.totalFees =
      (world.economy.epochs epochNumber).map EpochFigures.totalFees := by
    cases found : world.epochs.find? epochNumber with
    | none =>
        have nothing : world.economy.epochs epochNumber = none :=
          congrArg (Option.map Epoch.figures) found
        rw [nothing]
        rfl
    | some row =>
        have figures : world.economy.epochs epochNumber =
            some row.figures :=
          congrArg (Option.map Epoch.figures) found
        rw [figures]
        rfl
  rw [handled]
  unfold shown
  rw [phased]
  simp only [replyOf, Response.reply]
  rw [unreleased, confirmed, length, supply, pool, indexOf_eq]
  rfl

private theorem shown_of_getProcess (conducted : world.Conducted env)
    (processId : String) :
    shown ((Request.getProcess processId).handle env world) =
      (.returned (world.economy.present processId), world.economy) := by
  obtain ⟨⟨_, _, healthy⟩, numbered, _⟩ := conducted
  have verdict : (world.verdicts.find? processId).map
      (fun row => (row.verified, row.reasons)) =
        if processId ∈ world.economy.approved then some (1, [])
        else none := by
    by_cases known : processId ∈ world.economy.approved
    · rw [if_pos known]
      obtain ⟨row, member, isProcess⟩ := List.mem_map.mp known
      rw [← isProcess, Keyed.Table.find?_of_mem member]
      exact congrArg some (verdict_of_mem healthy member)
    · rw [if_neg known]
      have missing : world.verdicts.find? processId = none :=
        (Keyed.Table.find?_eq_none_iff _ _).mpr known
      rw [missing]
      rfl
  have events := World.map_filter_numbered processId world.history 1
    numbered
  have replied : replyOf ((Request.getProcess processId).handle env
      world).1 = .returned (.process processId
        ((world.verdicts.find? processId).map
          fun row => (row.verified, row.reasons))
        ((world.history.filter fun snapshot =>
            snapshot.payload.processId? = some processId).map
          fun snapshot => (snapshot.eventType, snapshot.sequenceId))) := by
    change Outcome.returned (Reply.process processId _
      (((world.history.filter _).map _).map _)) = _
    rw [List.map_map]
    rfl
  unfold shown
  rw [replied, verdict, events]
  rfl

end Reading

section Conduct

open Orchestrator

variable {env : Environment} {world : World}

theorem phase_observedWorld :
    (observedWorld env world).phase = world.phase := by
  unfold observedWorld AllSeeingEye.comparedWorld
  split <;> rfl

theorem phase_rosterWorld (explicit : Option (List String)) :
    (rosterWorld env world explicit).phase = world.phase := by
  unfold rosterWorld
  split
  · rfl
  · split <;> rfl

theorem phase_requestedWorld (body : RunProcessDto) :
    (requestedWorld env world body).phase = world.phase := by
  have staffed := @phase_rosterWorld env (initiatedWorld env world body)
    body.nodeIds
  obtain ⟨_, worked⟩ := workedWorld_eq
    (preparedWorld env (rosterWorld env (initiatedWorld env world body)
      body.nodeIds) body.processId
      (assignedNodes env (initiatedWorld env world body) body.nodeIds))
    (assignedNodes env (initiatedWorld env world body) body.nodeIds)
  unfold requestedWorld executedWorld
  rw [worked]
  exact staffed

theorem phase_verifyWorld (processId : String) :
    (Pot.verifyWorld env world processId).phase = world.phase := by
  unfold Pot.verifyWorld
  split <;> rfl

theorem phase_verdictWorld (body : RunProcessDto) :
    (verdictWorld env world body).phase = world.phase := by
  have judged : (verdictWorld env world body).phase =
      (Pot.verifyWorld env (requestedWorld env world body)
        body.processId).phase :=
    rfl
  rw [judged, phase_verifyWorld, phase_requestedWorld]

theorem phase_rejectedWorld (processId : String) :
    (rejectedWorld env world processId).phase = world.phase :=
  phase_observedWorld

theorem phase_settledWorld (processId : String) (amount epoch : ℚ)
    (nodes : List String) :
    (settledWorld env world processId amount epoch nodes).phase =
      world.phase := by
  refine phase_observedWorld.trans ?_
  unfold recordedWorld balancedWorld Commission.accruedWorld
    Commission.openedWorld
  split <;> rfl

theorem phase_reportedWorld (epoch : ℚ) (result : FinalizeResult) :
    (reportedWorld env world epoch result).phase = world.phase :=
  phase_observedWorld

theorem phase_finalizedWorld (row : Epoch) (epochNumber : ℚ)
    (weights : Commission.Weights) :
    (Commission.finalizedWorld env world row epochNumber weights).phase =
      world.phase := by
  obtain ⟨_, _, _, _, paid⟩ := Commission.payWorld_eq env
    (Commission.payments weights row.totalFees) world
  unfold Commission.finalizedWorld
  rw [paid]
  rfl

/-- No request activates the release. -/
private theorem phase_handle (settled : world.Settled)
    (request : Request) :
    (request.handle env world).2.phase = world.phase ∨
      (request.handle env world).2.phase = some ReleasePhase.inactive := by
  have answered : Answers env world request _ _ :=
    request.answers settled
  generalize request.handle env world = answer at answered ⊢
  obtain ⟨outcome, after⟩ := answer
  simp only at answered ⊢
  cases answered with
  | inadmissible =>
      exact Or.inl rfl
  | unregistered id admissible unregistered =>
      exact Or.inl (phase_requestedWorld _)
  | unverified supplyAfter reserveIndex admissible registered unverified =>
      left
      rw [phase_rejectedWorld, phase_verdictWorld]
  | verified supplyAfter reserveIndex admissible registered verified =>
      left
      rw [phase_settledWorld, phase_verdictWorld]
  | missing missing =>
      exact Or.inl rfl
  | closed row found closed =>
      exact Or.inl (phase_reportedWorld _ _)
  | unpayable row id found isOpen weighed =>
      exact Or.inl rfl
  | distributed row weights found isOpen weighed =>
      left
      rw [phase_reportedWorld, phase_finalizedWorld]
  | metrics result =>
      unfold Release.phasedWorld
      split
      · exact Or.inl rfl
      · exact Or.inr rfl
  | process result =>
      exact Or.inl rfl

/-- Every request leaves the world conducted. -/
theorem World.Conducted.handle (conducted : world.Conducted env)
    (request : Request) :
    (request.handle env world).2.Conducted env := by
  obtain ⟨reliable, numbered, unreleased⟩ := conducted
  refine ⟨reliable.handle request, numbered.run _, ?_⟩
  rcases @phase_handle env world reliable.sound.settled request with
    same | inactive
  · rw [same]
    exact unreleased
  · rw [inactive]
    rfl

theorem conducted_initial : World.initial.Conducted env :=
  ⟨reliable_initial, World.numbered_initial, rfl⟩

/-- Every request is answered as the economy answers it. -/
theorem World.Conducted.shown_handle (conducted : world.Conducted env)
    (request : Request) :
    shown (request.handle env world) =
      world.economy.answer env request := by
  have reliable := conducted.reliable
  cases request with
  | runProcess body =>
      change _ = world.economy.serve env body
      by_cases admissible : body.admissible = true
      · cases first : ((world.economy.execute body).assigned
            body.nodeIds).find?
              (fun id => id ∉ (world.economy.execute body).roster) with
        | some id =>
            exact shown_of_unregistered reliable.healthy admissible first
        | none =>
            exact shown_of_registered reliable admissible first
      · exact shown_of_inadmissible reliable.sound
          (Bool.eq_false_iff.mpr admissible)
  | finalizeEpoch epochNumber =>
      change _ = world.economy.finalize env epochNumber
      cases found : world.epochs.find? epochNumber with
      | none =>
          exact shown_of_missing found
      | some row =>
          by_cases isOpen : row.status = .opened
          · exact shown_of_open reliable found isOpen
          · exact shown_of_closed reliable.sound found isOpen
  | metrics epochNumber =>
      exact shown_of_metrics conducted epochNumber
  | getProcess processId =>
      exact shown_of_getProcess conducted processId

/-- The endpoints, each request alone. -/
def endpoints (env : Environment) :
    Mealy.Machine World Request (Outcome ServiceError Response) :=
  ⟨fun world request => request.handle env world⟩

/-- A conducted world answers as the economy that it shows. -/
theorem simulates_economy (env : Environment) :
    Mealy.Simulates (endpoints env) (Economy.machine env) replyOf
      (fun world economy =>
        world.Conducted env ∧ world.economy = economy) where
  answers := by
    rintro world _ ⟨conducted, rfl⟩ request
    exact congrArg Prod.fst (conducted.shown_handle request)
  stays := by
    rintro world _ ⟨conducted, rfl⟩ request
    exact ⟨conducted.handle request,
      congrArg Prod.snd (conducted.shown_handle request)⟩

end Conduct

namespace Session

variable (env : Environment) (requests : List Request)

private theorem run_endpoints :
    (of env requests).log.map Answered.outcome =
        (endpoints env).outputs World.initial requests ∧
      (of env requests).world =
        (endpoints env).after World.initial requests := by
  induction requests using List.reverseRecOn with
  | nil =>
      exact ⟨rfl, rfl⟩
  | append_singleton requests request inductionHypothesis =>
      obtain ⟨outcomes, world⟩ := inductionHypothesis
      rw [of_append_singleton, Mealy.Machine.outputs_append,
        Mealy.Machine.after_append, ← world, ← outcomes]
      constructor
      · exact List.map_append
      · rfl

/-- The answers of a session without their times are those of the economy,
which the world shows. -/
theorem answers_economy :
    (of env requests).log.map (fun entry => replyOf entry.outcome) =
        (Economy.machine env).outputs .initial requests ∧
      (of env requests).world.economy =
        (Economy.machine env).after .initial requests := by
  have begins : World.initial.Conducted env ∧
      World.initial.economy = .initial :=
    ⟨conducted_initial, rfl⟩
  obtain ⟨outcomes, world⟩ := run_endpoints env requests
  have answers := (simulates_economy env).outputs_eq begins requests
  have stays := (simulates_economy env).related_after begins requests
  rw [← outcomes, List.map_map] at answers
  rw [← world] at stays
  exact ⟨answers, stays.2⟩

end Session

end ArosParadigm
