import ArosParadigm.ReferenceCore
import ArosParadigm.Reordering

/-!
# What the process volume measures

`totalProcessVolume` reads two kinds of snapshots: what was minted, and the
margin of every distribution. The reserve of the reference core is only told
of the first.
-/

namespace ArosParadigm

open Await

namespace Answered

def verifiedAmount (entry : Answered) : ℚ :=
  match entry.request, entry.outcome with
  | .runProcess body, .returned (.run result) =>
      if result.verified = 1 then body.amount else 0
  | _, _ => 0

def failedAmount (entry : Answered) : ℚ :=
  match entry.request, entry.outcome with
  | .runProcess body, .threw _ => body.amount
  | _, _ => 0

def isOpen (world : World) (epoch : ℚ) : Bool :=
  (world.epochs.find? epoch).any fun row => row.status = .opened

def keptMargin (entry : Answered) : ℚ :=
  match entry.request, entry.outcome with
  | .finalizeEpoch epoch, .returned (.finalized result) =>
      if isOpen entry.before epoch then result.operationalMargin else 0
  | _, _ => 0

end Answered

def Request.answered (env : Environment) (request : Request)
    (world : World) : Answered :=
  ⟨request, world, (request.handle env world).1,
    (request.handle env world).2⟩

section Step

open Answered

variable {env : Environment} {world : World}

private theorem volume_runProcess (reliable : Reliable env world)
    (body : RunProcessDto) :
    ((Request.runProcess body).handle env world).2.volume =
        world.volume +
          ((Request.runProcess body).answered env world).verifiedAmount ∧
      ((Request.runProcess body).answered env world).verifiedAmount +
          ((Request.runProcess body).answered env world).failedAmount =
        if body.admissible then body.amount else 0 := by
  obtain ⟨served, _, answers⟩ := Request.accounts_runProcess
    reliable.sound reliable.kept reliable.healthy body
  have volume := congrArg Accounts.volume served
  change ((Request.runProcess body).handle env world).2.volume = _
    at volume
  unfold Accounts.serve at volume
  unfold Request.answered verifiedAmount failedAmount
  by_cases accepts : world.accounts.Accepts body
  · obtain ⟨result, returned, verified, _⟩ := answers.of_accepts accepts
    rw [if_pos accepts] at volume
    rw [volume, returned, if_pos accepts.1]
    simp only [verified, if_true, add_zero, and_true]
    rfl
  · rw [if_neg accepts] at volume
    have unchanged : ((Request.runProcess body).handle env
        world).2.volume = world.volume := by
      rw [volume]
      split
      · rfl
      · rfl
    rw [unchanged]
    cases admissible : body.admissible with
    | true =>
        obtain ⟨reason, threw⟩ :=
          answers.of_unregistered admissible accepts
        rw [threw]
        simp
    | false =>
        obtain ⟨result, returned, unverified, _⟩ :=
          answers.of_inadmissible admissible
        rw [returned]
        simp [unverified]

/-- A finalization adds the margin that it keeps, and keeps none exactly when
its epoch is not open. -/
private theorem volume_finalizeEpoch (reliable : Reliable env world)
    (epoch : ℚ) :
    ((Request.finalizeEpoch epoch).handle env world).2.volume =
        world.volume +
          ((Request.finalizeEpoch epoch).answered env world).keptMargin ∧
      (((Request.finalizeEpoch epoch).answered env
        world).keptMargin = 0 ↔ isOpen world epoch = false) := by
  by_cases found : isOpen world epoch = true
  · obtain ⟨row, stored, status⟩ := (Option.any_eq_true _ _).mp found
    have opened : row.status = .opened := by
      simpa using status
    obtain ⟨after, handled, accounts, _⟩ :=
      Request.accounts_finalizeEpoch_of_open reliable.sound reliable.kept
        reliable.healthy stored opened
    have figures : world.accounts.epochs epoch = some row.figures :=
      congrArg (Option.map Epoch.figures) stored
    have fees := (reliable.healthy.pooled _ _ figures opened).1
    have paid := reliable.healthy.paid_of_open figures opened
    change 0 < row.totalFees at fees
    change world.accounts.paid epoch row.totalFees = row.totalFees * _
      at paid
    have positive : 0 <
        (world.accounts.closing epoch row.totalFees).operationalMargin := by
      change 0 < row.totalFees - world.accounts.paid epoch row.totalFees
      rw [paid]
      linarith
    have volume : after.volume = world.volume +
        (world.accounts.closing epoch row.totalFees).operationalMargin := by
      refine (congrArg Accounts.volume accounts).trans ?_
      exact congrArg (world.volume + ·) (if_pos positive)
    unfold Request.answered keptMargin
    rw [handled]
    simp only [found, if_true, Bool.true_eq_false, iff_false]
    exact ⟨volume, positive.ne'⟩
  · have closed : ¬ world.accounts.IsOpen epoch := by
      rintro ⟨figures, stored, status⟩
      obtain ⟨row, isRow, rfl⟩ := Option.map_eq_some_iff.mp stored
      have opened : row.status = .opened := status
      apply found
      simp [isOpen, isRow, opened]
    have accounts := (Request.accounts_finalizeEpoch reliable.sound
      reliable.kept reliable.healthy epoch).1
    rw [Accounts.finalize_of_closed closed] at accounts
    have nothing : ((Request.finalizeEpoch epoch).answered env
        world).keptMargin = 0 := by
      unfold Request.answered keptMargin
      split
      · next equal _ =>
          cases equal
          exact if_neg found
      · rfl
    rw [nothing, add_zero]
    exact ⟨congrArg Accounts.volume accounts,
      iff_of_true rfl (Bool.eq_false_of_not_eq_true found)⟩

theorem volume_handle (reliable : Reliable env world)
    (request : Request) :
    (request.handle env world).2.volume = world.volume +
      (request.answered env world).verifiedAmount +
        (request.answered env world).keptMargin := by
  cases request with
  | runProcess body =>
      exact (volume_runProcess reliable body).1.trans (add_zero _).symm
  | finalizeEpoch epoch =>
      rw [(volume_finalizeEpoch reliable epoch).1]
      exact congrArg (· + _) (add_zero _).symm
  | metrics epoch =>
      have accounts := (reliable.accounts_handle (.metrics epoch)).1
      refine (congrArg Accounts.volume accounts).trans ?_
      change world.volume = world.volume + 0 + 0
      rw [add_zero, add_zero]
  | getProcess processId =>
      have accounts :=
        (reliable.accounts_handle (.getProcess processId)).1
      refine (congrArg Accounts.volume accounts).trans ?_
      change world.volume = world.volume + 0 + 0
      rw [add_zero, add_zero]

/-- What a run contributes, whether it ends with a verdict or an error. -/
theorem verifiedAmount_add_failedAmount (reliable : Reliable env world)
    (request : Request) :
    (request.answered env world).verifiedAmount +
        (request.answered env world).failedAmount =
      match request with
      | .runProcess body => if body.admissible then body.amount else 0
      | _ => 0 := by
  cases request with
  | runProcess body =>
      exact (volume_runProcess reliable body).2
  | finalizeEpoch epoch =>
      exact add_zero 0
  | metrics epoch =>
      exact add_zero 0
  | getProcess processId =>
      exact add_zero 0

end Step

def RunProcessDto.toReference (body : RunProcessDto) :
    Reference.ProcessRequest :=
  ⟨body.processId, body.amount, body.type, body.admissible⟩

def processIds (requests : List Request) : List String :=
  requests.filterMap fun
    | .runProcess body => some body.processId
    | _ => none

theorem processIds_append_singleton (requests : List Request)
    (request : Request) :
    processIds (requests ++ [request]) =
      processIds requests ++ processIds [request] :=
  List.filterMap_append

def admissibleVolume (requests : List Request) : ℚ :=
  (requests.map fun
    | .runProcess body => if body.admissible then body.amount else 0
    | _ => 0).sum

namespace Reference.AST

variable (env : Environment)

/-- Answer the requests that the reference core knows. -/
def serve (ast : AST) : Request → AST
  | .runProcess body => (ast.runProcess env body.toReference).2
  | .finalizeEpoch _ => ast.finalizeEpoch.2
  | _ => ast

/-- The reference core after the requests. -/
def of (requests : List Request) : AST :=
  requests.foldl (serve env) initial

/-- Between requests the chain is intact, and only processes that were run
have verdicts. -/
structure Served (ast : AST) (requests : List Request) : Prop where
  intact : ast.Intact env
  fresh : ∀ id, id ∉ processIds requests → ast.verdicts id = none
  reserve : ast.reserve = admissibleVolume requests

variable {env}

private theorem admissibleVolume_append_singleton
    (requests : List Request) (request : Request) :
    admissibleVolume (requests ++ [request]) =
      admissibleVolume requests + admissibleVolume [request] := by
  simp [admissibleVolume]

private theorem Served.of_same {ast after : AST}
    {requests : List Request} (served : Served env ast requests)
    {request : Request} (intact : after.Intact env)
    (verdicts : after.verdicts = ast.verdicts)
    (reserve : after.reserve = ast.reserve)
    (nothing : admissibleVolume [request] = 0) :
    Served env after (requests ++ [request]) := by
  refine ⟨intact, ?_, ?_⟩
  · intro id absent
    rw [processIds_append_singleton, List.mem_append, not_or] at absent
    rw [verdicts]
    exact served.fresh id absent.1
  · rw [reserve, served.reserve, admissibleVolume_append_singleton,
      nothing, add_zero]

theorem Served.serve {ast : AST} {requests : List Request}
    (served : Served env ast requests) (request : Request)
    (distinct : (processIds (requests ++ [request])).Nodup) :
    Served env (ast.serve env request) (requests ++ [request]) := by
  rw [processIds_append_singleton] at distinct
  cases request with
  | runProcess body =>
      have unseen : ast.verdicts body.processId = none := by
        apply served.fresh
        intro seen
        exact List.disjoint_of_nodup_append distinct seen
          List.mem_cons_self
      cases admissible : body.admissible with
      | true =>
          obtain ⟨after, settled, returned⟩ :=
            @runProcess_of_fresh env _ body.toReference served.intact
              admissible unseen
          have reached : ast.serve env (.runProcess body) = after :=
            congrArg Prod.snd returned
          have amount : admissibleVolume [.runProcess body] =
              body.amount := by
            simp [admissibleVolume, admissible]
          rw [reached]
          refine ⟨settled.intact, ?_, ?_⟩
          · intro id absent
            rw [processIds_append_singleton, List.mem_append,
              not_or] at absent
            obtain ⟨notBefore, notNow⟩ := absent
            have different : id ≠ body.processId := by
              intro same
              exact notNow (same ▸ List.mem_cons_self)
            rw [settled.verdicts id different]
            exact served.fresh id notBefore
          · rw [settled.reserve, served.reserve,
              admissibleVolume_append_singleton, amount]
            rfl
      | false =>
          have reached : ast.serve env (.runProcess body) = _ :=
            congrArg Prod.snd
              (@runProcess_of_inadmissible env ast body.toReference
                admissible)
          rw [reached]
          refine served.of_same (served.intact.capture _ _ _) rfl rfl ?_
          simp [admissibleVolume, admissible]
  | finalizeEpoch epoch =>
      exact served.of_same served.intact rfl rfl (add_zero 0)
  | metrics epoch =>
      exact served.of_same served.intact rfl rfl (add_zero 0)
  | getProcess processId =>
      exact served.of_same served.intact rfl rfl (add_zero 0)

/-- On processes that are run once the reference reserve holds the amounts of
the admissible ones. -/
theorem served_of (env : Environment) (requests : List Request)
    (distinct : (processIds requests).Nodup) :
    Served env (of env requests) requests := by
  induction requests using List.reverseRecOn with
  | nil =>
      refine ⟨trivial, ?_, rfl⟩
      intro id _
      rfl
  | append_singleton requests request inductionHypothesis =>
      have before : (processIds requests).Nodup := by
        rw [processIds_append_singleton] at distinct
        exact distinct.of_append_left
      unfold of
      rw [List.foldl_append]
      exact (inductionHypothesis before).serve request distinct

end Reference.AST

/-! ## Sessions -/

namespace Session

/-- The amounts of the runs that returned `verified: 1`. -/
def confirmedVolume (session : Session) : ℚ :=
  (session.log.map Answered.verifiedAmount).sum

/-- The amounts of the runs that ended with an error. -/
def failedVolume (session : Session) : ℚ :=
  (session.log.map Answered.failedAmount).sum

/-- The margins of the finalizations that found their epochs open. -/
def keptMargins (session : Session) : ℚ :=
  (session.log.map Answered.keptMargin).sum

variable {env : Environment}

theorem volume_eq (env : Environment) (requests : List Request) :
    (of env requests).world.volume =
        (of env requests).confirmedVolume +
          (of env requests).keptMargins ∧
      (of env requests).confirmedVolume + (of env requests).failedVolume =
        admissibleVolume requests := by
  induction requests using List.reverseRecOn with
  | nil =>
      exact ⟨(add_zero 0).symm, add_zero 0⟩
  | append_singleton requests request inductionHypothesis =>
      obtain ⟨volume, runs⟩ := inductionHypothesis
      have reliable := Session.reliable env requests
      have grown := volume_handle reliable request
      have counted := verifiedAmount_add_failedAmount reliable request
      rw [of_append_singleton]
      constructor
      · change (request.handle env (of env requests).world).2.volume = _
        rw [grown, volume]
        simp only [confirmedVolume, keptMargins, serve,
          Request.answered, List.map_append, List.map_singleton, List.sum_append,
          List.sum_singleton]
        ring
      · have added : admissibleVolume (requests ++ [request]) =
            admissibleVolume requests +
              ((request.answered env (of env requests).world).verifiedAmount +
                (request.answered env
                  (of env requests).world).failedAmount) := by
          rw [counted]
          simp only [admissibleVolume, List.map_append,
            List.map_singleton, List.sum_append, List.sum_singleton]
        rw [added, ← runs]
        simp only [confirmedVolume, failedVolume, serve,
          Request.answered, List.map_append, List.map_singleton, List.sum_append,
          List.sum_singleton]
        ring

/-- The reserve measures confirmed process volume only, as the reserve of the
reference core does, and no finalization moves the index. -/
structure ConfirmedVolumeOnly (env : Environment)
    (referenceEnv : Reference.Environment) (requests : List Request) :
    Prop where
  volume : (run (machine env) Reserve.totalProcessVolume
      (of env requests).world).1 =
    .returned (of env requests).confirmedVolume
  reference : (of env requests).confirmedVolume =
    (Reference.AST.of referenceEnv requests).reserve
  index : ∀ epoch,
    (run (machine env) (Reserve.reserveIndex env)
        (of env (requests ++ [.finalizeEpoch epoch])).world).1 =
      (run (machine env) (Reserve.reserveIndex env)
        (of env requests).world).1

/-- The margin of a distribution enters the volume. -/
theorem margin_enters_volume :
    ¬ ∀ (env : Environment) (referenceEnv : Reference.Environment)
      (requests : List Request), (processIds requests).Nodup →
        ConfirmedVolumeOnly env referenceEnv requests := by
  intro only
  have volume := (only .plain .plain
    [.runProcess (Orchestrator.transferBody "p-1" none),
      .finalizeEpoch 1]
    (by decide)).volume
  exact absurd volume (by decide +kernel)

/-- The reserve measures the confirmed volume and the kept margins. The
reference core measures the former, and would have run the processes that
ended with an error. A finalization leaves the volume as it is exactly when
its epoch is not open. -/
structure ConfirmedAndKeptVolume (env : Environment)
    (referenceEnv : Reference.Environment) (requests : List Request) :
    Prop where
  volume : (run (machine env) Reserve.totalProcessVolume
      (of env requests).world).1 =
    .returned ((of env requests).confirmedVolume +
      (of env requests).keptMargins)
  index : (run (machine env) (Reserve.reserveIndex env)
      (of env requests).world).1 =
    .returned (env.log10 (1 + ((of env requests).confirmedVolume +
      (of env requests).keptMargins)))
  reference : (Reference.AST.of referenceEnv requests).reserve =
    (of env requests).confirmedVolume + (of env requests).failedVolume
  unmoved : ∀ epoch,
    (run (machine env) Reserve.totalProcessVolume
          (of env (requests ++ [.finalizeEpoch epoch])).world).1 =
        (run (machine env) Reserve.totalProcessVolume
          (of env requests).world).1 ↔
      Answered.isOpen (of env requests).world epoch = false

theorem volume_is_confirmed_and_kept (env : Environment)
    (referenceEnv : Reference.Environment) (requests : List Request)
    (distinct : (processIds requests).Nodup) :
    ConfirmedAndKeptVolume env referenceEnv requests := by
  obtain ⟨volume, runs⟩ := volume_eq env requests
  have read : ∀ world : World,
      (run (machine env) Reserve.totalProcessVolume world).1 =
        .returned world.volume :=
    fun _ => rfl
  constructor
  · rw [read, volume]
  · rw [← volume]
    rfl
  · rw [runs]
    exact (Reference.AST.served_of referenceEnv requests
      distinct).reserve
  · intro epoch
    have reliable := Session.reliable env requests
    obtain ⟨grown, kept⟩ := volume_finalizeEpoch reliable epoch
    rw [read, read, of_append_singleton]
    change Outcome.returned ((Request.finalizeEpoch epoch).handle env
      (of env requests).world).2.volume = _ ↔ _
    rw [grown, Outcome.returned.injEq, add_eq_left]
    exact kept

theorem transfer_is_confirmed_and_kept :
    ConfirmedAndKeptVolume .plain .plain
      [.runProcess (Orchestrator.transferBody "p-1" none),
        .finalizeEpoch 1] :=
  volume_is_confirmed_and_kept .plain .plain _ (by decide)

end Session

end ArosParadigm
