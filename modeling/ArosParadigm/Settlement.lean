import ArosParadigm.Accounts

/-!
# Requests refine accounts

Every request does to the accounts of a world what `Accounts.act` says, and
answers accordingly. The accounts of every session are healthy.
-/

namespace ArosParadigm

open Await

/-- What one event adds to `totalProcessVolume`. -/
def volumeOfEvent (event : String × Payload) : ℚ :=
  if event.1 = "emission.minted" then
    event.2.minted?.getD 0
  else if event.1 = "commission.epoch.finalized" then
    let margin := event.2.operationalMargin?.getD 0
    if 0 < margin then margin else 0
  else
    0

private theorem sum_map_filter {Item : Type} {measure : Item → ℚ}
    {selected : Item → Bool} {items : List Item}
    (others : ∀ item ∈ items, selected item = false → measure item = 0) :
    ((items.filter selected).map measure).sum =
      (items.map measure).sum := by
  induction items with
  | nil =>
      rfl
  | cons head rest inductionHypothesis =>
      have tail := inductionHypothesis fun item member =>
        others item (List.mem_cons_of_mem head member)
      cases isSelected : selected head with
      | true =>
          simp [isSelected, tail]
      | false =>
          have nothing := others head List.mem_cons_self isSelected
          simp [isSelected, tail, nothing]

theorem World.volume_eq_books (world : World) :
    world.volume = (world.books.value.map volumeOfEvent).sum := by
  have everything : world.volume =
      (world.events.map volumeOfEvent).sum := by
    rw [events, List.map_map]
    rfl
  rw [everything, books]
  refine (sum_map_filter ?_).symm
  intro event _ other
  have noValue : event.1 ∉ valueTypes := by
    simpa using other
  have notMinted : event.1 ≠ "emission.minted" := by
    intro equal
    exact noValue (by rw [equal]; decide)
  have notClosed : event.1 ≠ "commission.epoch.finalized" := by
    intro equal
    exact noValue (by rw [equal]; decide)
  rw [volumeOfEvent, if_neg notMinted, if_neg notClosed]

namespace World

variable {world after : World}

/-- The accounts are a function of the books and the workforce. -/
theorem accounts_eq (books : after.books = world.books)
    (workforce : after.workforce = world.workforce) :
    after.accounts = world.accounts := by
  have ledger : after.ledgerRow = world.ledgerRow :=
    congrArg Books.ledger books
  have verdicts : after.verdicts = world.verdicts :=
    congrArg Books.verdicts books
  have epochs : after.epochs = world.epochs :=
    congrArg Books.epochs books
  have nodes : after.nodes = world.nodes :=
    congrArg Workforce.nodes workforce
  unfold accounts
  simp only [volume_eq_books, books, ledger, verdicts, epochs, nodes,
    participations_of_workforce workforce]

end World

private theorem figures_accrued (stored : Option Epoch)
    (epochNumber fee : ℚ) (startTime : ℕ) :
    Epoch.figures
        { stored.getD (Commission.freshEpoch epochNumber startTime) with
          totalFees := (stored.getD (Commission.freshEpoch epochNumber
            startTime)).totalFees + fee } =
      Accounts.accrued (stored.map Epoch.figures) fee := by
  cases stored <;> rfl

/-- The figures of the epochs after a settlement. -/
theorem epochs_settle (books : Books) (body : RunProcessDto)
    (verdict : PotVerdict) (startTime : ℕ) (tested : ℚ) :
    ((books.settle body verdict startTime).epochs.find? tested).map
        Epoch.figures =
      Function.update
        (fun epochNumber =>
          (books.epochs.find? epochNumber).map Epoch.figures)
        (Accounts.epochOf body)
        (some (Accounts.accrued
          ((books.epochs.find? (Accounts.epochOf body)).map
            Epoch.figures)
          (Commission.computeFee body.amount))) tested := by
  have key : ((books.epochs.find? (Accounts.epochOf body)).getD
      (Commission.freshEpoch (Accounts.epochOf body)
        startTime)).epochNumber = Accounts.epochOf body := by
    cases stored : books.epochs.find? (Accounts.epochOf body) with
    | none =>
        rfl
    | some row =>
        exact Keyed.Table.key_of_find? stored
  simp only [Books.settle]
  rw [Keyed.Table.find?_save]
  change Option.map Epoch.figures (if ((books.epochs.find?
    (Accounts.epochOf body)).getD (Commission.freshEpoch
      (Accounts.epochOf body) startTime)).epochNumber = tested
    then _ else _) = _
  rw [key]
  by_cases same : tested = Accounts.epochOf body
  · subst same
    rw [if_pos rfl, Function.update_self, Option.map_some]
    exact congrArg some (figures_accrued _ _ _ _)
  · rw [if_neg (Ne.symm same), Function.update_of_ne same]

namespace Orchestrator

variable {env : Environment} {world : World}

/-- The registry when the verdict is asked for. -/
theorem rows_requestedWorld (body : RunProcessDto) :
    (requestedWorld env world body).nodes.rows =
      Accounts.labour world.nodes.rows body := by
  have rows := @rows_rosterWorld env (initiatedWorld env world body)
    body.nodeIds
  have names := @assignedNodes_eq env (initiatedWorld env world body)
    body.nodeIds
  unfold requestedWorld executedWorld
  rw [rows_workedWorld, names]
  change work (List.takeWhile (fun id =>
      ((rosterWorld env (initiatedWorld env world body)
        body.nodeIds).nodes.rows.find? fun node =>
          node.id = id).isSome) _)
    (rosterWorld env (initiatedWorld env world body)
      body.nodeIds).nodes.rows = _
  rw [rows]
  rfl

variable (env world) in
theorem participation_requestedWorld (body : RunProcessDto) :
    (requestedWorld env world body).participation =
        world.participation ∧
      (requestedWorld env world body).arrays = world.arrays := by
  obtain ⟨_, worked⟩ := workedWorld_eq
    (preparedWorld env (rosterWorld env (initiatedWorld env world body)
      body.nodeIds) body.processId
      (assignedNodes env (initiatedWorld env world body) body.nodeIds))
    (assignedNodes env (initiatedWorld env world body) body.nodeIds)
  unfold requestedWorld executedWorld
  rw [worked]
  unfold rosterWorld
  split
  · exact ⟨rfl, rfl⟩
  · split
    · exact ⟨rfl, rfl⟩
    · exact ⟨rfl, rfl⟩

/-- An admissible body is worked on before its verdict. -/
theorem accounts_requestedWorld (body : RunProcessDto) :
    (requestedWorld env world body).accounts =
      { world.accounts with
        nodes := Accounts.labour world.accounts.nodes body } := by
  have books := books_requestedWorld env world body
  have ledger : (requestedWorld env world body).ledgerRow =
      world.ledgerRow :=
    congrArg Books.ledger books
  have verdicts : (requestedWorld env world body).verdicts =
      world.verdicts :=
    congrArg Books.verdicts books
  have epochs : (requestedWorld env world body).epochs = world.epochs :=
    congrArg Books.epochs books
  obtain ⟨participation, arrays⟩ :=
    participation_requestedWorld env world body
  unfold World.accounts World.participations World.entries
  simp only [World.volume_eq_books, books, ledger, verdicts, epochs,
    rows_requestedWorld, participation, arrays]

theorem kept_requestedWorld (kept : world.Kept) (body : RunProcessDto) :
    (requestedWorld env world body).Kept := by
  obtain ⟨participation, arrays⟩ :=
    participation_requestedWorld env world body
  exact kept.of_participation participation arrays

theorem verdictOn_of_healthy (intact : world.Intact env)
    (healthy : world.accounts.Healthy) (body : RunProcessDto) :
    ((verdictOn env world body).verified,
      (verdictOn env world body).reasons) = (1, []) := by
  cases stored : world.verdicts.find? body.processId with
  | some row =>
      rw [verdictOn_of_stored env stored]
      apply healthy.approved body.processId
      simp [World.accounts, stored]
  | none =>
      have verified := Pot.verifiedOf_of_complete
        (@complete_requestedWorld env world body)
        (intact_requestedWorld intact body).reconstruct
      have reasons := (Pot.complete_of_verifiedOf verified).2
      unfold verdictOn Pot.verdictRow
      rw [verdicts_requestedWorld, stored]
      exact Prod.ext verified reasons

end Orchestrator

/-- How a body is answered on given accounts. -/
def Accounts.Answers (accounts : Accounts) (body : RunProcessDto) :
    Outcome ServiceError Response → Prop
  | .returned (.run result) =>
      result.processId = body.processId ∧
        if accounts.Accepts body then
          result.verified = 1 ∧ result.minted = body.amount ∧
            result.fee = Commission.computeFee body.amount
        else
          result.verified = 0 ∧ result.minted = 0 ∧ result.fee = 0 ∧
            body.admissible = false
  | .threw _ => body.admissible = true ∧ ¬ accounts.Accepts body
  | _ => False

namespace Accounts.Answers

variable {accounts : Accounts} {body : RunProcessDto}
variable {outcome : Outcome ServiceError Response}

/-- An accepted body is answered with its figures. -/
theorem of_accepts (answered : accounts.Answers body outcome)
    (accepts : accounts.Accepts body) :
    ∃ result, outcome = .returned (.run result) ∧
      result.verified = 1 ∧ result.minted = body.amount ∧
        result.fee = Commission.computeFee body.amount := by
  unfold Accounts.Answers at answered
  split at answered
  · next result =>
      obtain ⟨_, figures⟩ := answered
      rw [if_pos accepts] at figures
      exact ⟨result, rfl, figures⟩
  · exact absurd accepts answered.2
  · cases answered

/-- An inadmissible body is answered with zeros. -/
theorem of_inadmissible (answered : accounts.Answers body outcome)
    (inadmissible : body.admissible = false) :
    ∃ result, outcome = .returned (.run result) ∧
      result.verified = 0 ∧ result.minted = 0 ∧ result.fee = 0 := by
  have refused : ¬ accounts.Accepts body := by
    intro accepts
    exact absurd accepts.1 (by simp [inadmissible])
  unfold Accounts.Answers at answered
  split at answered
  · next result =>
      obtain ⟨_, figures⟩ := answered
      rw [if_neg refused] at figures
      obtain ⟨verified, minted, fee, _⟩ := figures
      exact ⟨result, rfl, verified, minted, fee⟩
  · exact absurd answered.1 (by simp [inadmissible])
  · cases answered

/-- An admissible body that is not accepted is answered with an error. -/
theorem of_unregistered (answered : accounts.Answers body outcome)
    (admissible : body.admissible = true)
    (refused : ¬ accounts.Accepts body) :
    ∃ reason, outcome = .threw reason := by
  unfold Accounts.Answers at answered
  split at answered
  · obtain ⟨_, figures⟩ := answered
    rw [if_neg refused] at figures
    exact absurd figures.2.2.2 (by simp [admissible])
  · next reason =>
      exact ⟨reason, rfl⟩
  · cases answered

end Accounts.Answers

namespace Request

variable {env : Environment} {world : World}

variable (env) in
private theorem participations_settledWorld (kept : world.Kept)
    (body : RunProcessDto) (amount epoch : ℚ) (ids : List String) :
    let after := Orchestrator.settledWorld env
      (Orchestrator.verdictWorld env world body) body.processId amount
      epoch ids
    after.Kept ∧ ∀ tested, after.participations tested =
      if tested = epoch then
        world.participations tested ++
          ids.map fun nodeId => ⟨body.processId, nodeId⟩
      else world.participations tested := by
  intro after
  have judged : (Orchestrator.verdictWorld env world body).Kept :=
    (Orchestrator.kept_requestedWorld kept body).of_workforce
      (Orchestrator.workforce_verdictWorld body)
  have workforce : after.workforce =
      ((Orchestrator.verdictWorld env world body).push epoch
        (ids.map fun nodeId => ⟨body.processId, nodeId⟩)).workforce :=
    Orchestrator.workforce_settledWorld _ _ _ _
  have before : ∀ epochNumber,
      (Orchestrator.verdictWorld env world body).participations
          epochNumber = world.participations epochNumber := by
    intro epochNumber
    rw [World.participations_of_workforce
      (Orchestrator.workforce_verdictWorld body)]
    obtain ⟨participation, arrays⟩ :=
      Orchestrator.participation_requestedWorld env world body
    unfold World.participations World.entries
    rw [participation, arrays]
  refine ⟨(judged.push _ _).of_workforce workforce, ?_⟩
  intro tested
  rw [World.participations_of_workforce workforce,
    World.participations_push judged, before, before]
  split
  · next same =>
      rw [same]
  · rfl

private theorem accounts_settled (sound : Sound env world)
    (kept : world.Kept) (healthy : world.accounts.Healthy)
    (body : RunProcessDto) :
    (Orchestrator.settledWorld env
      (Orchestrator.verdictWorld env world body) body.processId
      body.amount (Accounts.epochOf body)
      (Orchestrator.bodyNodes env world body)).accounts =
      world.accounts.settle body := by
  obtain ⟨startTime, books⟩ := Orchestrator.books_settledWorld env body
    sound.netted (Orchestrator.bodyNodes env world body)
  have participations := (participations_settledWorld env kept
    body body.amount (Accounts.epochOf body)
    (Orchestrator.bodyNodes env world body)).2
  have workforce : (Orchestrator.settledWorld env
      (Orchestrator.verdictWorld env world body) body.processId
      body.amount (Accounts.epochOf body)
      (Orchestrator.bodyNodes env world body)).nodes =
        (Orchestrator.requestedWorld env world body).nodes :=
    (congrArg Workforce.nodes
      (Orchestrator.workforce_settledWorld _ _ _ _)).trans
      (congrArg Workforce.nodes
        (Orchestrator.workforce_verdictWorld body))
  have names : Orchestrator.bodyNodes env world body =
      Orchestrator.assigned world.nodes.rows body.nodeIds :=
    Orchestrator.assignedNodes_eq body.nodeIds
  have positive :=
    Orchestrator.verdictOn_of_healthy sound.intact healthy body
  change (Orchestrator.settledWorld env _ _ _ (Accounts.epochOf body)
    _).books = _ at books
  generalize Orchestrator.settledWorld env
    (Orchestrator.verdictWorld env world body) body.processId
    body.amount (Accounts.epochOf body)
    (Orchestrator.bodyNodes env world body) = after at *
  have ledger : after.ledgerRow = (world.accounts.settle body).ledger :=
    congrArg Books.ledger books
  have verdicts : after.verdicts = world.verdicts.save
      (Orchestrator.verdictOn env world body) :=
    congrArg Books.verdicts books
  have epochs : after.epochs = (world.books.settle body
      (Orchestrator.verdictOn env world body) startTime).epochs :=
    congrArg Books.epochs books
  have subject : (Orchestrator.verdictOn env world body).processId =
      body.processId :=
    Pot.verdictRow_processId env _ _
  unfold World.accounts
  rw [World.volume_eq_books, books, ledger, workforce,
    Orchestrator.rows_requestedWorld, epochs, verdicts]
  unfold Accounts.settle
  simp only [Accounts.mk.injEq]
  refine ⟨rfl, trivial, ?_, ?_, ?_, ?_⟩
  · exact funext (epochs_settle world.books body _ startTime)
  · funext tested
    rw [participations, names]
    by_cases same : tested = Accounts.epochOf body
    · subst same
      rw [if_pos rfl, Function.update_self]
      rfl
    · rw [if_neg same, Function.update_of_ne same]
  · funext processId
    rw [Keyed.Table.find?_save, subject]
    by_cases same : processId = body.processId
    · subst same
      rw [if_pos rfl, Function.update_self, Option.map_some, positive]
    · rw [if_neg (Ne.symm same), Function.update_of_ne same]
  · rw [World.volume_eq_books]
    simp [Books.settle, volumeOfEvent, Payload.minted?]

theorem accounts_runProcess (sound : Sound env world)
    (kept : world.Kept) (healthy : world.accounts.Healthy)
    (body : RunProcessDto) :
    ((runProcess body).handle env world).2.accounts =
        world.accounts.serve body ∧
      ((runProcess body).handle env world).2.Kept ∧
      world.accounts.Answers body
        ((runProcess body).handle env world).1 := by
  rcases Bool.eq_false_or_eq_true body.admissible with
    admissible | inadmissible
  swap
  · have refused : ¬ world.accounts.Accepts body := by
      intro accepts
      exact absurd accepts.1 (by simp [inadmissible])
    obtain ⟨supplyAfter, reserveIndex, returned⟩ :=
      Orchestrator.answer_runProcess_of_inadmissible env sound.settled
        inadmissible
    have handled : (runProcess body).handle env world = _ :=
      handle_of_returned Response.run returned
    have workforce :=
      @Orchestrator.workforce_inadmissibleWorld env world body
    rw [handled, Accounts.serve, if_neg refused, inadmissible]
    refine ⟨World.accounts_eq
      (Orchestrator.books_inadmissibleWorld body) workforce,
      kept.of_workforce workforce, rfl, ?_⟩
    rw [if_neg refused]
    exact ⟨rfl, rfl, rfl, inadmissible⟩
  by_cases registered : Orchestrator.Registered world body.nodeIds
  swap
  · have refused : ¬ world.accounts.Accepts body := by
      intro accepts
      exact registered accepts.2
    obtain ⟨id, threw⟩ :=
      Orchestrator.run_runProcess_of_unregistered env admissible
        registered
    have handled : (runProcess body).handle env world = _ :=
      handle_of_threw Response.run threw
    rw [handled, Accounts.serve, if_neg refused, if_pos admissible]
    exact ⟨Orchestrator.accounts_requestedWorld body,
      Orchestrator.kept_requestedWorld kept body, admissible, refused⟩
  have accepts : world.accounts.Accepts body :=
    ⟨admissible, registered⟩
  have verified :
      (Orchestrator.verdictOn env world body).verified = 1 :=
    congrArg Prod.fst
      (Orchestrator.verdictOn_of_healthy sound.intact healthy body)
  obtain ⟨supplyAfter, reserveIndex, returned⟩ :=
    Orchestrator.answer_runProcess_of_verified env sound.settled
      admissible registered verified
  have handled : (runProcess body).handle env world = _ :=
    handle_of_returned Response.run returned
  rw [handled, Accounts.serve, if_pos accepts]
  refine ⟨accounts_settled sound kept healthy body,
    (participations_settledWorld env kept body _ _ _).1, rfl, ?_⟩
  rw [if_pos accepts]
  exact ⟨rfl, rfl, rfl⟩

/-! ## Finalizing an epoch -/

theorem crew_accounts (epochNumber : ℚ) :
    Commission.crew world (world.participations epochNumber) =
      world.accounts.crew epochNumber := by
  have sameVerdict : ∀ processId,
      Commission.confirmed world processId =
        world.accounts.confirmed processId := by
    intro processId
    simp [Commission.confirmed, Accounts.confirmed, World.accounts,
      Option.any_map]
  have listed : world.accounts.participations epochNumber =
      (world.participations epochNumber : Multiset Participation) :=
    rfl
  rw [Commission.crew, Accounts.crew, listed, Multiset.filter_coe,
    Multiset.map_coe]
  simp only [sameVerdict, Bool.decide_eq_true]

private theorem payments_accounts {epochNumber : ℚ}
    {weights : Commission.Weights}
    (weighed : Commission.weigh world
      (world.participations epochNumber) [] = .ok weights) (total : ℚ) :
    Commission.payments weights total =
      world.accounts.payments epochNumber total := by
  rw [Commission.payments_eq_dues weighed, crew_accounts]
  rfl

private theorem paidOf_accounts {epochNumber : ℚ}
    {weights : Commission.Weights}
    (weighed : Commission.weigh world
      (world.participations epochNumber) [] = .ok weights) (total : ℚ) :
    Commission.paidOf weights total =
      world.accounts.paid epochNumber total := by
  rw [Commission.paidOf, payments_accounts weighed]
  rfl

/-- Three sums over the value events of a distribution. -/
theorem sum_volume_distribute (books : Books) (row : Epoch)
    (epochNumber : ℚ) (weights : Commission.Weights)
    (weight : String → ℚ) (endTime : ℕ) :
    ((books.distribute row epochNumber weights weight
        endTime).value.map volumeOfEvent).sum =
      (books.value.map volumeOfEvent).sum +
        let margin :=
          row.totalFees - Commission.paidOf weights row.totalFees
        if 0 < margin then margin else 0 := by
  have receipts : ∀ entries : List DistributionEntry,
      ((entries.map fun entry => ("node.payment.received",
        Payload.paymentReceived entry.nodeId entry.amount
          (weight entry.nodeId))).map volumeOfEvent).sum = 0 := by
    intro entries
    apply List.sum_eq_zero
    intro amount member
    rw [List.map_map] at member
    obtain ⟨entry, _, rfl⟩ := List.mem_map.mp member
    rfl
  simp only [Books.distribute, List.map_append, List.sum_append,
    receipts]
  simp [volumeOfEvent, Commission.finalizedPayload,
    Commission.finalizedResult, Payload.operationalMargin?]

private theorem accounts_distributed {epochNumber : ℚ} {row : Epoch}
    {weights : Commission.Weights} {endTime : ℕ} {after : World}
    (found : world.epochs.find? epochNumber = some row)
    (weighed : Commission.weigh world
      (world.participations epochNumber) [] = .ok weights)
    (books : after.books = world.books.distribute row epochNumber weights
      (Commission.nodeWeight world) endTime)
    (workforce : after.workforce =
      (world.forget epochNumber).workforce) :
    after.accounts = world.accounts.close epochNumber row.figures := by
  have payments := payments_accounts weighed row.totalFees
  have paid := paidOf_accounts weighed row.totalFees
  have ledger : after.ledgerRow = { world.ledgerRow with
      earnedRetained := world.ledgerRow.earnedRetained +
        Commission.paidOf weights row.totalFees } :=
    congrArg Books.ledger books
  have verdicts : after.verdicts = world.verdicts :=
    congrArg Books.verdicts books
  have epochs : after.epochs = world.epochs.save
      (Commission.finalizedRow row weights endTime) :=
    congrArg Books.epochs books
  have nodes : after.nodes = world.nodes :=
    congrArg Workforce.nodes workforce
  have key : (Commission.finalizedRow row weights endTime).epochNumber =
      epochNumber :=
    (Keyed.Table.key_of_find? found : row.epochNumber = epochNumber)
  unfold World.accounts
  rw [World.volume_eq_books, books, sum_volume_distribute, ledger,
    verdicts, epochs, nodes, ← World.volume_eq_books]
  unfold Accounts.close
  simp only [Accounts.mk.injEq]
  refine ⟨?_, trivial, ?_, ?_, trivial, ?_⟩
  · rw [paid]
    rfl
  · funext tested
    rw [Keyed.Table.find?_save, key]
    by_cases same : tested = epochNumber
    · subst same
      rw [if_pos rfl, Function.update_self, Option.map_some,
        Commission.finalizedRow, Commission.distributionOf, payments,
        paid]
      rfl
    · rw [if_neg (Ne.symm same), Function.update_of_ne same]
  · funext tested
    rw [World.participations_of_workforce workforce,
      World.participations_forget]
    by_cases same : tested = epochNumber
    · subst same
      rw [if_pos rfl, Function.update_self]
      rfl
    · rw [if_neg same, Function.update_of_ne same]
  · rw [paid]
    rfl

theorem accounts_finalizeEpoch_of_open (sound : Sound env world)
    (kept : world.Kept) (healthy : world.accounts.Healthy)
    {epochNumber : ℚ} {row : Epoch}
    (found : world.epochs.find? epochNumber = some row)
    (isOpen : row.status = .opened) :
    ∃ after,
      (finalizeEpoch epochNumber).handle env world =
        (.returned (.finalized
          (world.accounts.closing epochNumber row.totalFees)), after) ∧
        after.accounts = world.accounts.close epochNumber row.figures ∧
        after.Kept := by
  obtain ⟨weights, weighed⟩ := @Commission.weigh_of_registered world
    (world.participations epochNumber) (by
      intro entry member _
      exact healthy.enrolled epochNumber entry member)
  obtain ⟨endTime, changed⟩ :=
    Commission.books_finalizedWorld env world row epochNumber weights
  have workforce : (Orchestrator.reportedWorld env
      (Commission.finalizedWorld env world row epochNumber weights)
      epochNumber (Commission.finalizedResult row epochNumber
        weights)).workforce = (world.forget epochNumber).workforce :=
    (Orchestrator.workforce_reportedWorld _ _).trans
      (Orchestrator.workforce_finalizedWorld row epochNumber weights)
  have finalized : (Commission.finalizedWorld env world row epochNumber
      weights).Settled :=
    Commission.settled_payWorld sound.settled _
  have netted : (Commission.finalizedWorld env world row epochNumber
      weights).books.Netted := by
    rw [changed]
    exact sound.netted
  have handled : (finalizeEpoch epochNumber).handle env world = _ :=
    handle_of_returned Response.finalized
      (Orchestrator.run_finalizeEpoch_of_returned finalized
        (Commission.run_finalizeEpoch_of_ok env sound.settled found
          isOpen weighed))
  have books := (@books_reportedWorld env _ epochNumber
    (Commission.finalizedResult row epochNumber weights)
    netted).trans changed
  have result : Commission.finalizedResult row epochNumber weights =
      world.accounts.closing epochNumber row.totalFees := by
    rw [Commission.finalizedResult, Commission.distributionOf,
      payments_accounts weighed, paidOf_accounts weighed]
    rfl
  exact ⟨_, handled.trans (by rw [result]),
    accounts_distributed found weighed books workforce,
    (kept.forget epochNumber).of_workforce workforce⟩

private theorem accounts_finalizeEpoch_of_closed
    (sound : Sound env world) (kept : world.Kept) {epochNumber : ℚ}
    (closed : ∀ row, world.epochs.find? epochNumber = some row →
      row.status ≠ .opened) :
    ((finalizeEpoch epochNumber).handle env world).2.accounts =
        world.accounts ∧
      ((finalizeEpoch epochNumber).handle env world).2.Kept := by
  cases found : world.epochs.find? epochNumber with
  | none =>
      have handled : (finalizeEpoch epochNumber).handle env world = _ :=
        handle_of_threw Response.finalized
          (Orchestrator.run_finalizeEpoch_of_threw
            (Commission.run_finalizeEpoch_of_none env found))
      rw [handled]
      exact ⟨rfl, kept⟩
  | some row =>
      have handled : (finalizeEpoch epochNumber).handle env world = _ :=
        handle_of_returned Response.finalized
          (Orchestrator.run_finalizeEpoch_of_returned sound.settled
            (Commission.run_finalizeEpoch_of_closed env found
              (closed row found)))
      have workforce := @Orchestrator.workforce_reportedWorld env world
        epochNumber (Commission.toResult row)
      rw [handled]
      exact ⟨World.accounts_eq (books_reportedWorld sound.netted)
        workforce, kept.of_workforce workforce⟩

theorem accounts_finalizeEpoch (sound : Sound env world)
    (kept : world.Kept) (healthy : world.accounts.Healthy)
    (epochNumber : ℚ) :
    ((finalizeEpoch epochNumber).handle env world).2.accounts =
        world.accounts.finalize epochNumber ∧
      ((finalizeEpoch epochNumber).handle env world).2.Kept := by
  by_cases opened : ∃ row,
    world.epochs.find? epochNumber = some row ∧ row.status = .opened
  · obtain ⟨row, found, isOpen⟩ := opened
    obtain ⟨after, handled, accounts, keptAfter⟩ :=
      accounts_finalizeEpoch_of_open sound kept healthy found isOpen
    have figures : world.accounts.epochs epochNumber =
        some row.figures := by
      simp [World.accounts, found]
    rw [handled, Accounts.finalize, figures]
    refine ⟨accounts.trans ?_, keptAfter⟩
    exact (if_pos isOpen).symm
  · have closed : ∀ row, world.epochs.find? epochNumber = some row →
        row.status ≠ .opened := by
      intro row found isOpen
      exact opened ⟨row, found, isOpen⟩
    obtain ⟨accounts, keptAfter⟩ :=
      accounts_finalizeEpoch_of_closed sound kept closed
    refine ⟨accounts.trans ?_, keptAfter⟩
    rw [Accounts.finalize]
    cases found : world.epochs.find? epochNumber with
    | none =>
        simp [World.accounts, found]
    | some row =>
        have figures : world.accounts.epochs epochNumber =
            some row.figures := by
          simp [World.accounts, found]
        rw [figures]
        exact (if_neg (closed row found)).symm

end Request

/-- What holds of a world between requests. -/
structure Reliable (env : Environment) (world : World) : Prop where
  sound : Sound env world
  kept : world.Kept
  healthy : world.accounts.Healthy

variable {env : Environment} {world : World}

/-- Every request does to the accounts what `Accounts.act` says. -/
theorem Reliable.accounts_handle (reliable : Reliable env world)
    (request : Request) :
    (request.handle env world).2.accounts =
        world.accounts.act request ∧
      (request.handle env world).2.Kept := by
  obtain ⟨sound, kept, healthy⟩ := reliable
  cases request with
  | runProcess body =>
      obtain ⟨accounts, keptAfter, _⟩ :=
        Request.accounts_runProcess sound kept healthy body
      exact ⟨accounts, keptAfter⟩
  | finalizeEpoch epochNumber =>
      exact Request.accounts_finalizeEpoch sound kept healthy
        epochNumber
  | metrics epochNumber =>
      obtain ⟨result, returned⟩ :=
        Orchestrator.run_metrics env sound.settled epochNumber
      have handled :
          (Request.metrics epochNumber).handle env world = _ :=
        Request.handle_of_returned Response.metrics returned
      have workforce : (Release.phasedWorld
          (world.withLedger world.ledgerRow)).workforce =
            world.workforce := by
        unfold Release.phasedWorld
        split <;> rfl
      have books : (Release.phasedWorld
          (world.withLedger world.ledgerRow)).books = world.books := by
        unfold Release.phasedWorld
        split <;> rfl
      rw [handled]
      exact ⟨World.accounts_eq books workforce,
        kept.of_workforce workforce⟩
  | getProcess processId =>
      obtain ⟨result, returned⟩ :=
        Orchestrator.run_getProcess env world processId
      have handled :
          (Request.getProcess processId).handle env world = _ :=
        Request.handle_of_returned Response.process returned
      rw [handled]
      exact ⟨rfl, kept⟩

/-- Every request leaves the world reliable. -/
theorem Reliable.handle (reliable : Reliable env world)
    (request : Request) : Reliable env (request.handle env world).2 := by
  obtain ⟨accounts, kept⟩ := reliable.accounts_handle request
  refine ⟨reliable.sound.handle request, kept, ?_⟩
  rw [accounts]
  exact reliable.healthy.act request

theorem healthy_initial : World.initial.accounts.Healthy := by
  constructor
  · intro node member
    cases member
  · exact List.nodup_nil
  · intro processId verdict found
    cases found
  · intro epochNumber entry member
    cases Multiset.notMem_zero entry member
  · intro epochNumber entry member
    cases Multiset.notMem_zero entry member
  · intro epochNumber figures found
    cases found
  · intro epochNumber figures found
    cases found

theorem reliable_initial : Reliable env World.initial :=
  ⟨sound_initial, World.kept_initial, healthy_initial⟩

theorem Session.reliable (env : Environment) (requests : List Request) :
    Reliable env (Session.of env requests).world := by
  apply Session.induction
    (motive := fun session => Reliable env session.world)
    reliable_initial
  intro session request _ reliable
  exact reliable.handle request

end ArosParadigm
