import ArosParadigm.Composition
import ArosParadigm.Library.Progress

/-!
# Every call comes to an end

The only call that has to wait is `await this.initialization`, and a read of
the ledger row settles the promise that it makes. Hence the calls that have
come in by any time all come to an end, in whatever order they take their steps
and whichever calls on the store are rejected.
-/

namespace ArosParadigm

open Await

/-- The calls that have nothing to do with the promise `initialization`. -/
def Call.IsPlain : Call → Prop
  | .claimInitialization => False
  | .settleInitialization _ => False
  | .awaitInitialization => False
  | _ => True

theorem Call.IsFree.isPlain {request : Call} (isFree : request.IsFree) :
    request.IsPlain := by
  cases request <;> trivial

/-- The promise `initialization` as a gate. -/
def initializationPhase (world : World) : GatePhase :=
  match world.initialization with
  | none => .unclaimed
  | some .pending => .held
  | some _ => .opened

/-- What a call does at the promise. Nobody settles it with `pending`. -/
def initializationRole : Call → GateRole
  | .claimInitialization => .claim
  | .settleInitialization .pending => .forbidden
  | .settleInitialization _ => .settle
  | .awaitInitialization => .wait
  | _ => .plain

/-- The claim that made the promise. -/
def madeInitialization : Exchange signature → Bool
  | ⟨.claimInitialization, claimed⟩ => claimed
  | _ => false

theorem initializationRole_of_isPlain {request : Call}
    (isPlain : request.IsPlain) :
    initializationRole request = .plain := by
  cases request <;> first | rfl | exact isPlain.elim

/-- The first call that reads the ledger row makes the promise. -/
def initializationGate (env : Environment) (admits : PublicCall → Prop) :
    Gate (deployment env admits) where
  phase := initializationPhase
  role := initializationRole
  won := madeInitialization
  answers := by
    intro request now known passes
    cases request
    case claimInitialization =>
      simp only [machine_deployment, machine]
      cases now.initialization <;> exact ⟨_, _, rfl⟩
    case awaitInitialization =>
      have isOpened := passes rfl
      simp only [initializationPhase] at isOpened
      simp only [machine_deployment, machine]
      rcases isPromise : now.initialization with _ | _ | _ | _ <;>
        rw [isPromise] at isOpened
      all_goals first
        | exact ⟨_, _, rfl⟩
        | exact nomatch isOpened
    all_goals exact ⟨_, _, rfl⟩
  kept := by
    intro request now reply after isRole answered
    cases request
    case claimInitialization =>
      rcases isRole with isRole | isRole <;> exact nomatch isRole
    case settleInitialization outcome =>
      cases outcome <;>
        rcases isRole with isRole | isRole <;> exact nomatch isRole
    case awaitInitialization =>
      simp only [machine_deployment, machine] at answered
      rcases isPromise : now.initialization with _ | _ | _ | _ <;>
        rw [isPromise] at answered <;> cases answered <;> rfl
    all_goals
      cases answered
      rfl
  claimed := by
    intro request now reply after isRole answered
    cases request
    case claimInitialization =>
      simp only [machine_deployment, machine] at answered
      cases isPromise : now.initialization with
      | none =>
          rw [isPromise] at answered
          cases answered
          left
          simp [initializationPhase, madeInitialization, isPromise]
      | some promise =>
          rw [isPromise] at answered
          cases answered
          right
          refine ⟨?_, rfl, rfl⟩
          cases promise <;> simp [initializationPhase, isPromise]
    case settleInitialization outcome =>
      cases outcome <;> exact nomatch isRole
    all_goals exact nomatch isRole
  settled := by
    intro request now reply after isRole answered
    cases request
    case settleInitialization outcome =>
      cases outcome
      case pending =>
        exact nomatch isRole
      all_goals
        cases answered
        rfl
    all_goals exact nomatch isRole
  breaks := by
    intro request now after breaks
    have breaks : Breaks request now after := breaks
    have persists := breaks.persists
    constructor
    · cases request
      case settleInitialization outcome =>
        exact persists.elim
      all_goals exact nofun
    · rcases breaks.eq_or_drawn with rfl | rfl | rfl <;> rfl
  restarts _ := rfl

theorem not_rejectable_of_memory (env : Environment)
    (admits : PublicCall → Prop) {request : Call}
    (memory : ¬ request.Persists) :
    ¬ Gate.Rejectable (deployment env admits) request := by
  rintro ⟨now, after, breaks⟩
  have breaks : Breaks request now after := breaks
  exact memory breaks.persists

/-- A read of the ledger row settles the promise that it makes. -/
theorem disciplined_ledger (env : Environment)
    (admits : PublicCall → Prop) :
    (initializationGate env admits).Disciplined .outside ArosCoin.ledger := by
  have promiseKept :
      (initializationGate env admits).Disciplined .asked ArosCoin.promiseKept := by
    refine ⟨rfl, fun promise => ?_, fun rejectable =>
      absurd rejectable (not_rejectable_of_memory env admits id)⟩
    cases promise <;> exact nofun
  have settling : ∀ outcome, outcome ≠ .pending →
      (initializationGate env admits).Disciplined .holding
        (ask (.settleInitialization outcome) >>= fun _ =>
          ArosCoin.promiseKept) := by
    intro outcome isSettled
    cases outcome with
    | pending =>
        exact absurd rfl isSettled
    | fulfilled =>
        exact ⟨rfl, fun _ => promiseKept⟩
    | rejected =>
        exact ⟨rfl, fun _ => promiseKept⟩
  have refusing := settling .rejected nofun
  have creating : (initializationGate env admits).Disciplined .holding
      ((ArosCoin.createLedger.rescue fun _ =>
          ask (.settleInitialization .rejected)) >>= fun _ =>
        ArosCoin.promiseKept) := by
    refine ⟨fun existing => ?_, fun _ => refusing⟩
    cases existing with
    | none =>
        exact ⟨fun _ => ⟨rfl, fun _ => promiseKept⟩, fun _ => refusing⟩
    | some row =>
        exact ⟨rfl, fun _ => promiseKept⟩
  have ensuring : (initializationGate env admits).Disciplined .outside
      ArosCoin.ensureLedger := by
    rw [ArosCoin.ensureLedger_eq]
    refine ⟨nofun, fun claimed => ?_, fun rejectable =>
      absurd rejectable (not_rejectable_of_memory env admits id)⟩
    cases claimed with
    | true =>
        exact creating
    | false =>
        exact promiseKept
  refine ensuring.bind fun _ => ?_
  refine ⟨fun row => ?_, fun _ => nofun⟩
  cases row <;> exact nofun

/-- A property that a method has when its parts have it. Only the walk over
the participations of an epoch throws an error of the model's own. -/
structure Sequential (env : Environment)
    (holds : (result : Type) → Service result → Prop) : Prop where
  bind : ∀ {first second : Type} {program : Service first}
    {continuation : first → Service second}, holds first program →
      (∀ value, holds second (continuation value)) →
      holds second (program >>= continuation)
  pure : ∀ {result : Type} (value : result), holds result (Pure.pure value)
  fail : ∀ {result : Type} (reason : ServiceError),
    reason ≠ .tooManyLateEntries → holds result (.fail reason)
  plain : ∀ {request : Call}, request.IsPlain →
    holds request.Reply (ArosParadigm.ask request)
  ledger : holds ArosCoinLedger ArosCoin.ledger
  weights : ∀ epochNumber, holds Commission.Weights
    (Commission.confirmedWeights env epochNumber)

namespace Sequential

variable {env : Environment}
variable {holds : (result : Type) → Service result → Prop}

theorem ask_bind (sequential : Sequential env holds) {result : Type}
    {request : Call} {continuation : request.Reply → Service result}
    (isPlain : request.IsPlain)
    (continues : ∀ reply, holds result (continuation reply)) :
    holds result (ask request >>= continuation) :=
  sequential.bind (sequential.plain isPlain) continues

/-- A change of the ledger row. -/
theorem update (sequential : Sequential env holds)
    (change : ArosCoinLedger → ArosCoinLedger) :
    holds Unit (ArosCoin.ledger >>= fun row =>
      ask (.saveLedger (change row))) :=
  sequential.bind sequential.ledger fun row =>
    @plain env holds sequential (.saveLedger (change row)) trivial

theorem requireNode (sequential : Sequential env holds) (id : String) :
    holds NodeEntity (Nodes.requireNode id) := by
  refine sequential.ask_bind trivial fun node => ?_
  cases node with
  | some row =>
      exact sequential.pure _
  | none =>
      exact sequential.fail _ nofun

theorem capture (sequential : Sequential env holds)
    (processId eventType : String) (data : Json.JsObject ℚ)
    (validatorId : Option String) :
    holds Snapshot
      (StateRecording.capture processId eventType data validatorId) :=
  sequential.ask_bind trivial fun _ => sequential.ask_bind trivial fun _ =>
    sequential.pure _

theorem verify (sequential : Sequential env holds) (processId : String) :
    holds VerifyResult (Pot.verify env processId) := by
  refine sequential.ask_bind trivial fun existing => ?_
  cases existing with
  | some row =>
      exact sequential.pure _
  | none =>
      refine sequential.ask_bind trivial fun captured => ?_
      refine sequential.ask_bind trivial fun history => ?_
      refine sequential.ask_bind trivial fun snapshot => ?_
      refine sequential.ask_bind trivial fun timestamp => ?_
      exact sequential.ask_bind trivial fun _ => sequential.pure _

theorem mint (sequential : Sequential env holds) (processId : String)
    (amount : ℚ) : holds ℚ (Emission.mint processId amount) := by
  refine sequential.ask_bind trivial fun verdict => ?_
  cases Emission.authorizes verdict with
  | true =>
      refine sequential.bind (sequential.update _) fun _ => ?_
      exact sequential.ask_bind trivial fun _ => sequential.pure _
  | false =>
      exact sequential.fail _ nofun

theorem recordExecution (sequential : Sequential env holds) (id : String)
    (success : Bool) :
    holds NodeEntity (Nodes.recordExecution id success) :=
  sequential.bind (sequential.requireNode id) fun _ =>
    sequential.ask_bind trivial fun _ => sequential.pure _

theorem accrue (sequential : Sequential env holds) (epochNumber fee : ℚ)
    (participants : List Participation) :
    holds Epoch (Commission.accrue epochNumber fee participants) := by
  have opens : holds Epoch (Commission.openEpoch epochNumber) := by
    refine sequential.ask_bind trivial fun row => ?_
    cases row with
    | some existing =>
        exact sequential.pure _
    | none =>
        exact sequential.ask_bind trivial fun _ => sequential.pure _
  refine sequential.bind opens fun epoch => ?_
  refine sequential.ask_bind trivial fun _ => ?_
  exact sequential.ask_bind trivial fun _ => sequential.pure _

theorem payNodes (sequential : Sequential env holds)
    (weights : Commission.Weights) (distributable totalWeight : ℚ)
    (ids : List String) (distributionLog : List DistributionEntry)
    (paid : ℚ) :
    holds _ (Commission.payNodes weights distributable totalWeight ids
      distributionLog paid) := by
  induction ids generalizing distributionLog paid with
  | nil =>
      exact sequential.pure _
  | cons id rest inductionHypothesis =>
      have receives : ∀ amount,
          holds Unit (Nodes.receivePayment id amount) :=
        fun _ => sequential.bind (sequential.requireNode id) fun _ =>
          sequential.ask_bind trivial fun _ => sequential.pure _
      refine sequential.bind (receives _) fun _ => ?_
      exact sequential.bind (sequential.update _)
        fun _ => inductionHypothesis _ _

theorem payEpoch (sequential : Sequential env holds) (epochNumber : ℚ) :
    holds FinalizeResult (Commission.finalizeEpoch env epochNumber) := by
  have found : holds Epoch (Commission.requireEpoch env epochNumber) := by
    refine sequential.ask_bind trivial fun row => ?_
    cases row with
    | some epoch =>
        exact sequential.pure _
    | none =>
        exact sequential.fail _ nofun
  have paysOut : ∀ weights total,
      holds _ (Commission.payOut weights total) := by
    intro weights total
    by_cases weighty : 0 < (weights.map Prod.snd).sum
    · rw [Commission.payOut, if_pos weighty]
      exact sequential.payNodes _ _ _ _ _ _
    · rw [Commission.payOut, if_neg weighty]
      exact sequential.pure _
  have accrues : ∀ amount, holds Unit (Reserve.addAfcAccrual amount) :=
    fun _ => sequential.ask_bind trivial fun _ => sequential.pure _
  refine sequential.bind found fun epoch => ?_
  by_cases isOpen : epoch.status = .opened
  · rw [if_neg (not_not.mpr isOpen)]
    refine sequential.bind (sequential.weights _) fun weights => ?_
    refine sequential.bind (paysOut _ _) fun payments => ?_
    refine sequential.bind (accrues _) fun _ => ?_
    refine sequential.ask_bind trivial fun endTime => ?_
    refine sequential.ask_bind trivial fun _ => ?_
    refine sequential.ask_bind trivial fun _ => ?_
    exact sequential.ask_bind trivial fun _ => sequential.pure _
  · rw [if_pos isOpen]
    exact sequential.pure _

theorem activate (sequential : Sequential env holds)
    (threshold target volume : ℚ) :
    holds ActivateResult
      (Release.activate env threshold target volume) := by
  have summed : holds ℚ Reserve.totalProcessVolume :=
    sequential.ask_bind trivial fun _ => sequential.pure _
  have indexed : holds ℚ (Reserve.reserveIndex env) :=
    sequential.bind summed fun _ => sequential.pure _
  have velocity : holds ℚ (Release.velocity volume) := by
    refine sequential.bind (sequential.bind sequential.ledger fun _ =>
      sequential.pure _) fun circulatingSupply => ?_
    by_cases isEmpty : circulatingSupply ≤ 0
    · rw [if_pos isEmpty]
      exact sequential.pure _
    · rw [if_neg isEmpty]
      exact sequential.pure _
  have phased : holds ReleasePhase Release.phase := by
    refine sequential.ask_bind trivial fun row => ?_
    cases row with
    | some existing =>
        exact sequential.pure _
    | none =>
        exact sequential.ask_bind trivial fun _ => sequential.pure _
  refine sequential.bind (sequential.bind indexed fun _ =>
    sequential.bind velocity fun _ => sequential.pure _) fun check => ?_
  refine sequential.bind phased fun row => ?_
  cases row.active with
  | true =>
      exact sequential.pure _
  | false =>
      cases check.mature with
      | false =>
          exact sequential.pure _
      | true =>
          refine sequential.ask_bind trivial fun activatedAt => ?_
          refine sequential.ask_bind trivial fun _ => ?_
          exact sequential.ask_bind trivial fun _ => sequential.pure _

theorem verifyChain (sequential : Sequential env holds) :
    holds ReconstructResult (AllSeeingEye.verifyChain env) := by
  refine sequential.ask_bind trivial fun history => ?_
  change holds ReconstructResult (if _ then _ else _)
  cases (NodeChain.reconstruct env.hasher history).ok with
  | true =>
      exact sequential.pure _
  | false =>
      exact sequential.ask_bind trivial fun _ => sequential.pure _

end Sequential

theorem Assembled.sequential {env : Environment} {sent : Call → Prop}
    {holds : (result : Type) → Service result → Prop}
    (sequential : Sequential env holds)
    (isPlain : ∀ request, sent request → request.IsPlain) {result : Type}
    {program : Service result} (assembled : Assembled env sent program) :
    holds result program := by
  induction assembled with
  | pure value =>
      exact sequential.pure value
  | fail reason thrown =>
      exact sequential.fail reason thrown
  | ask isFree =>
      exact sequential.plain isFree.isPlain
  | passed isSent =>
      exact sequential.plain (isPlain _ isSent)
  | ledger =>
      exact sequential.ledger
  | capture =>
      exact sequential.capture _ _ _ _
  | verify =>
      exact sequential.verify _
  | mint =>
      exact sequential.mint _ _
  | recordExecution =>
      exact sequential.recordExecution _ _
  | accrue =>
      exact sequential.accrue _ _ _
  | payEpoch =>
      exact sequential.payEpoch _
  | activate =>
      exact sequential.activate _ _ _
  | verifyChain =>
      exact sequential.verifyChain
  | bind _ _ first second =>
      exact sequential.bind first second

theorem PublicCall.isPlain_of_sends {call : PublicCall} {request : Call}
    (sends : call.Sends request) : request.IsPlain := by
  rcases call with method | observer
  · cases method
    case append eventType payload =>
      obtain rfl : request = .append eventType payload := sends
      trivial
    all_goals exact sends.elim
  · cases observer
    case log eventType layer description =>
      obtain rfl : request = .logOversight eventType layer description :=
        sends
      trivial
    all_goals exact sends.elim

/-- The method asks for the promise before it waits, and settles the promise
that it makes. -/
def Patient (env : Environment) (admits : PublicCall → Prop)
    (result : Type) (program : Service result) : Prop :=
  (initializationGate env admits).Disciplined .outside program

theorem sequential_patient (env : Environment)
    (admits : PublicCall → Prop) : Sequential env (Patient env admits) := by
  have used : ∀ {result : Type} {program : Service result},
      Uses Call.IsPlain program → Patient env admits result program :=
    fun uses => .of_uses (uses.weaken fun _ =>
      initializationRole_of_isPlain)
  constructor
  case bind =>
    exact fun first second => first.bind second
  case pure =>
    exact fun _ => nofun
  case fail =>
    exact fun _ _ => nofun
  case plain =>
    exact fun isPlain => used (uses_perform isPlain _)
  case ledger =>
    exact disciplined_ledger env admits
  case weights =>
    intro epochNumber
    exact used (Commission.strict_confirmedWeights env (fun _ => trivial)
      (fun _ _ => trivial) (fun _ => trivial) (fun _ => trivial)
      epochNumber).uses

section CutOff

variable {env : Environment} {admits : PublicCall → Prop}
variable {past : List (Exchange signature)}

/-- The walk over the participations is cut off only after it has found an
entry beyond the bound. -/
def CutOff (env : Environment) (reason : ServiceError)
    (past : List (Exchange signature)) : Prop :=
  reason = .tooManyLateEntries → ∃ reference index entry,
    env.lateEntries ≤ index ∧
      (⟨.readParticipationAt reference index, some entry⟩ :
        Exchange signature) ∈ past

/-- The method throws no error of the model's own but by being cut off. -/
def Faithful (env : Environment) (result : Type)
    (program : Service result) : Prop :=
  ∀ past, Excused (CutOff env) program past

private theorem excused_weightLoop (reference rounds index : ℕ)
    (cache : List (String × Bool)) (weights : Commission.Weights)
    (enough : env.lateEntries < rounds + index)
    (walked : ∀ before, before + 1 = index → ∃ entry,
      (⟨.readParticipationAt reference before, some entry⟩ :
        Exchange signature) ∈ past) :
    Excused (CutOff env)
      (Commission.weightLoop reference rounds index cache weights)
      past := by
  induction rounds generalizing index cache weights past with
  | zero =>
      rintro -
      have isLate : index - 1 + 1 = index := by omega
      obtain ⟨entry, member⟩ := walked (index - 1) isLate
      exact ⟨reference, index - 1, entry, by omega, member⟩
  | succ rounds inductionHypothesis =>
      refine ⟨fun entry => ?_, nofun⟩
      cases entry with
      | none =>
          trivial
      | some entry =>
          have found : ∀ {later : List (Exchange signature)},
              (⟨.readParticipationAt reference index, some entry⟩ ::
                past) <:+ later → ∀ before, before + 1 = index + 1 →
                  ∃ entry, (⟨.readParticipationAt reference before,
                    some entry⟩ : Exchange signature) ∈ later := by
            intro later isLater before same
            obtain rfl : before = index := by omega
            exact ⟨entry, isLater.subset List.mem_cons_self⟩
          have judges : ∀ past, Excused (CutOff env)
              (Commission.confirmedVerdict cache entry.processId)
              past := by
            intro past
            unfold Commission.confirmedVerdict
            cases cache.lookup entry.processId with
            | some confirmed =>
                trivial
            | none =>
                exact ⟨fun _ => trivial, nofun⟩
          have weighs : ∀ past, Excused (CutOff env)
              (Nodes.currentWeight entry.nodeId) past := by
            refine fun past => ⟨fun node => ?_, nofun⟩
            cases node with
            | some row =>
                trivial
            | none =>
                exact nofun
          have onward : env.lateEntries < rounds + (index + 1) := by
            omega
          refine (judges _).bind ?_
          rintro ⟨isConfirmed, nextCache⟩ later isLater
          cases isConfirmed with
          | false =>
              exact inductionHypothesis _ _ _ onward (found isLater)
          | true =>
              refine (weighs _).bind fun weight last isLast => ?_
              exact inductionHypothesis _ _ _ onward
                (found (isLater.trans isLast))

private theorem excused_ledger :
    Excused (CutOff env) ArosCoin.ledger past := by
  have kept : ∀ past, Excused (CutOff env) ArosCoin.promiseKept past := by
    refine fun past => ⟨fun promise => ?_, nofun⟩
    cases promise <;> first
      | trivial
      | exact nofun
  have settling : ∀ outcome past, Excused (CutOff env)
      (ask (.settleInitialization outcome) >>= fun _ =>
        ArosCoin.promiseKept) past :=
    fun _ _ => ⟨fun _ => kept _, nofun⟩
  have creating : ∀ past, Excused (CutOff env)
      ((ArosCoin.createLedger.rescue fun _ =>
          ask (.settleInitialization .rejected)) >>= fun _ =>
        ArosCoin.promiseKept) past := by
    refine fun past => ⟨fun existing => ?_, settling _ _⟩
    cases existing with
    | some row =>
        exact ⟨fun _ => kept _, settling _ _⟩
    | none =>
        exact ⟨fun _ => ⟨fun _ => kept _, settling _ _⟩, settling _ _⟩
  have ensured : Excused (CutOff env) ArosCoin.ensureLedger past := by
    rw [ArosCoin.ensureLedger_eq]
    refine ⟨fun claimed => ?_, nofun⟩
    cases claimed with
    | true =>
        exact creating _
    | false =>
        exact kept _
  refine ensured.bind fun _ later _ => ⟨fun row => ?_, nofun⟩
  cases row with
  | some stored =>
      trivial
  | none =>
      exact nofun

theorem sequential_faithful (env : Environment) :
    Sequential env (Faithful env) where
  bind first second past :=
    (first past).bind fun value later _ => second value later
  pure _ _ := trivial
  fail _ thrown _ cutOff := absurd cutOff thrown
  plain _ _ := ⟨fun _ => trivial, nofun⟩
  ledger _ := excused_ledger
  weights _ _ := by
    refine ⟨fun array => ?_, nofun⟩
    cases array with
    | none =>
        trivial
    | some array =>
        refine excused_weightLoop _ _ _ _ _ ?_ nofun
        omega

/-- No array of participations loses an entry. -/
theorem length_entries_of_answered {request : Call} {reply : request.Reply}
    {world after : World}
    (answered : machine env request world = some (reply, after))
    (reference : ℕ) :
    (world.entries reference).length ≤ (after.entries reference).length := by
  cases request
  case pushParticipation epochNumber entries =>
    cases answered
    unfold World.entries
    rw [World.push_arrays]
    cases world.participation epochNumber with
    | none =>
        by_cases known : reference < world.arrays.length
        · rw [List.getElem?_append_left known]
        · rw [List.getElem?_eq_none (Nat.le_of_not_lt known)]
          exact Nat.zero_le _
    | some stored =>
        rw [List.getElem?_modify]
        cases world.arrays[reference]? with
        | none =>
            exact Nat.zero_le _
        | some array =>
            by_cases same : stored = reference <;> simp [same]
  case claimInitialization =>
    obtain ⟨_, rfl⟩ := eq_of_claimInitialization answered
    exact Nat.le_refl _
  case awaitInitialization =>
    obtain rfl := eq_of_awaitInitialization answered
    exact Nat.le_refl _
  all_goals
    cases answered
    exact Nat.le_refl _

/-- An entry that was found is still in its array. -/
def StillThere (world : World) : Exchange signature → Prop
  | ⟨.readParticipationAt reference index, some _⟩ =>
      index < (world.entries reference).length
  | _ => True

theorem StillThere.mono {world after : World}
    {exchange : Exchange signature} (there : StillThere world exchange)
    (grown : ∀ reference, (world.entries reference).length ≤
      (after.entries reference).length) : StillThere after exchange := by
  obtain ⟨request, reply⟩ := exchange
  cases request
  case readParticipationAt reference index =>
    cases reply with
    | none =>
        trivial
    | some entry =>
        exact there.trans_le (grown reference)
  all_goals trivial

theorem stillThere_of_answered {request : Call} {reply : request.Reply}
    {world after : World}
    (answered : machine env request world = some (reply, after)) :
    StillThere after ⟨request, reply⟩ := by
  cases request
  case readParticipationAt reference index =>
    cases answered
    cases found : (world.entries reference)[index]? with
    | none =>
        trivial
    | some entry =>
        exact (List.getElem?_eq_some_iff.mp found).choose
  all_goals trivial

/-- The arrays of participations in operation. -/
def arraysGuard (env : Environment) (admits : PublicCall → Prop) :
    Guarded (deployment env admits) fun _ _ => True where
  invariant _ := True
  knows past world := ∀ exchange ∈ past, StillThere world exchange
  begins _ _ _ member := nomatch member
  answers past request now reply after _ known _ answered := by
    have answered : machine env request now = some (reply, after) :=
      answered
    have grown := length_entries_of_answered answered
    refine ⟨trivial, ?_, fun _ others exchange member =>
      (others exchange member).mono grown⟩
    intro exchange member
    rcases List.mem_cons.mp member with rfl | earlier
    · exact stillThere_of_answered answered
    · exact (known exchange earlier).mono grown
  breaks request now after _ broke := by
    have breaks : Breaks request now after := broke
    rcases breaks.eq_or_drawn with rfl | rfl | rfl <;>
      exact ⟨trivial, fun _ => id⟩
  restarts _ _ := trivial

end CutOff

namespace Deployed

variable {env : Environment} {admits : PublicCall → Prop} {pool : Deployed}

/-- A call that is cut off has met an array with more entries than the bound
of the environment. -/
theorem Reached.overgrown (reached : Reached env admits pool) :
    ∀ thread ∈ pool.threads, thread.rest = .fail .tooManyLateEntries →
      ∃ reference, env.lateEntries < (pool.state.entries reference).length := by
  intro thread member thrown
  have admitted : ∀ program, (deployment env admits).admitted program →
      Excused (CutOff env) program [] := by
    rintro program ⟨call, _, rfl⟩
    have faithful : Faithful env PublicCall.Answer (call.program env) :=
      (call.assembled env).sequential (sequential_faithful env)
        fun _ => PublicCall.isPlain_of_sends
    exact faithful []
  have excused := System.Reachable.excused admitted reached thread member
  rw [thrown] at excused
  obtain ⟨reference, index, entry, isLate, found⟩ := excused rfl
  have obeys : ∀ program, (deployment env admits).admitted program →
      Obeys (fun _ _ => True) (fun _ _ => True) program [] :=
    fun program _ => obeys_of_forall (fun _ _ => trivial) program
  have there := ((arraysGuard env admits).reachable obeys trivial
    reached).2 thread member _ found
  exact ⟨reference, isLate.trans_lt there⟩

/-- Whatever has happened before, failures and restarts included, the calls
that are running all come to their ends, in whatever order they take their
steps from now on and whichever calls on the store are rejected. None of them
is cut off unless an array of participations has more entries than the bound
of the environment, which may be any number. -/
theorem all_calls_end (env : Environment) (admits : PublicCall → Prop)
    (pool : Deployed) (reached : Reached env admits pool) :
    Inevitable (deployment env admits).Advances
      (fun later => later.Ended ∧
        ∀ thread ∈ later.threads,
          thread.rest = .fail .tooManyLateEntries →
            ∃ reference,
              env.lateEntries < (later.state.entries reference).length)
      pool := by
  have patient : ∀ program, (deployment env admits).admitted program →
      (initializationGate env admits).Disciplined .outside program := by
    rintro program ⟨call, _, rfl⟩
    exact (call.assembled env).sequential (sequential_patient env admits)
      fun _ => PublicCall.isPlain_of_sends
  have ends := (initializationGate env admits).inevitably_ended rfl patient
    reached
  refine ends.strengthen ?_ ?_ reached
  · exact fun current next reachable advances =>
      .tail reachable (.advance advances)
  · exact fun current reachable ended => ⟨ended, reachable.overgrown⟩

/-- A finalization and a run are under way. -/
theorem all_calls_end_of_eventfulDay :
    Inevitable (deployment .plain fun _ => True).Advances
      (fun later => later.Ended ∧
        ∀ thread ∈ later.threads,
          thread.rest = .fail .tooManyLateEntries →
            ∃ reference, Environment.plain.lateEntries <
              (later.state.entries reference).length)
      (play .plain (eventfulDay.take 200)) :=
  all_calls_end .plain (fun _ => True) _
    (reached_play _ fun _ _ => trivial)

end Deployed

end ArosParadigm
