import ArosParadigm.BackedAnswers

/-!
# Operation through the endpoints

The controllers pass on four calls: a process, a look at one, the metrics, and
the finalization of an epoch. When nobody calls anything else, PoT confirms
every process that it judges, no run is answered as unverified, and no process
has burned more than it has minted, however the calls are interleaved and
whichever of them fail or are dropped by a restart.
-/

namespace ArosParadigm

open Await

def PublicCall.IsEndpoint : PublicCall → Prop
  | .inl (.runProcess _) => True
  | .inl (.getProcess _) => True
  | .inl (.metrics _) => True
  | .inl (.finalizeEpoch _) => True
  | _ => False

/-- What an event adds to the net emission of a process. -/
def netOf (processId : String) : ChainEvent → ℚ
  | (_, .emissionMinted minter minted) =>
      if minter = processId then minted else 0
  | (_, .emissionBurned burner burned) =>
      if burner = processId then -burned else 0
  | _ => 0

/-- The net emission of a process by the calls answered before. -/
def emitted (processId : String) : List (Exchange signature) → ℚ
  | [] => 0
  | exchange :: past => emitted processId past +
      ((appendedEvents exchange).map (netOf processId)).sum

/-- The condition on a call of an endpoint. -/
def Serves (env : Environment) (past : List (Exchange signature)) :
    Call → Prop
  | .append _ (.potVerified processId verified reasons) =>
      ∃ captured history earlier,
        past = ⟨.listSnapshots, history⟩ ::
            ⟨.readCaptured processId, captured⟩ :: earlier ∧
          (∀ event ∈ requiredBeforeVerdict,
            (⟨.markCaptured processId event, ()⟩ : Exchange signature)
              ∈ earlier) ∧
          verified = Pot.verifiedOf (Pot.criteriaResult captured
            (NodeChain.reconstruct env.hasher history).ok) ∧
          reasons = Pot.failureReasons (Pot.criteriaResult captured
            (NodeChain.reconstruct env.hasher history).ok) captured
  | .append _ (.emissionMinted _ minted) => 0 ≤ minted
  | .append _ (.emissionBurned processId burned) =>
      burned ≤ emitted processId past
  | .saveVerdict row =>
      ∃ eventType snapshot,
        (⟨.append eventType (.potVerified row.processId row.verified
          row.reasons), snapshot⟩ : Exchange signature) ∈ past
  | _ => True

/-- What the store tells through the endpoints. -/
def Truthful (env : Environment) (earlier : List (Exchange signature)) :
    Exchange signature → Prop
  | ⟨.readCaptured processId, captured⟩ => ∀ event,
      (⟨.markCaptured processId event, ()⟩ : Exchange signature)
        ∈ earlier → event ∈ captured
  | ⟨.listSnapshots, history⟩ =>
      (NodeChain.reconstruct env.hasher history).ok = true
  | ⟨.findVerdict _, some row⟩ => row.verified = 1 ∧ row.reasons = []
  | ⟨.append _ (.potVerified _ verified reasons), _⟩ =>
      verified = 1 ∧ reasons = []
  | _ => True

/-- PoT has refused nothing. -/
structure World.Confirming (env : Environment) (world : World) : Prop where
  standing : world.Standing env
  verdicts : ∀ row ∈ world.verdicts.rows,
    row.verified = 1 ∧ row.reasons = []
  records : ∀ snapshot ∈ world.history, ∀ processId verified reasons,
    snapshot.payload = .potVerified processId verified reasons →
      verified = 1 ∧ reasons = []

namespace World.Confirming

variable {env : Environment} {world after : World}
variable {past : List (Exchange signature)}

/-- A step that leaves NodeChain and the verdicts alone. -/
theorem of_same (confirming : world.Confirming env)
    (standing : after.Standing env)
    (sameHistory : after.history = world.history)
    (sameVerdicts : after.verdicts = world.verdicts) :
    after.Confirming env where
  standing := standing
  verdicts := sameVerdicts ▸ confirming.verdicts
  records := sameHistory ▸ confirming.records

private theorem confirmed_of_serves
    (truthful : Along (Truthful env) past) {eventType processId : String}
    {verified : Fin 2} {reasons : List String}
    (serves : Serves env past
      (.append eventType (.potVerified processId verified reasons))) :
    verified = 1 ∧ reasons = [] := by
  obtain ⟨captured, history, earlier, rfl, marked, rfl, rfl⟩ := serves
  obtain ⟨intact, remembered, _⟩ := truthful
  have isIntact : (NodeChain.reconstruct env.hasher history).ok = true :=
    intact
  have complete : ∀ event ∈ requiredBeforeVerdict, event ∈ captured :=
    fun event required => remembered event (marked event required)
  have confirmed := Pot.verifiedOf_of_complete complete isIntact
  exact ⟨confirmed, (Pot.complete_of_verifiedOf confirmed).2⟩

theorem step (confirming : world.Confirming env)
    (truthful : Along (Truthful env) past) {request : Call}
    (serves : Serves env past request) {reply : request.Reply}
    (answered : machine env request world = some (reply, after)) :
    after.Confirming env := by
  have standing := confirming.standing.step answered
  cases request
  case append eventType payload =>
    cases answered
    refine ⟨standing, confirming.verdicts, ?_⟩
    rw [World.history_append]
    intro snapshot member processId verified reasons records
    rcases List.mem_append.mp member with earlier | last
    · exact confirming.records snapshot earlier _ _ _ records
    · rw [List.mem_singleton.mp last] at records
      have isPayload : payload = .potVerified processId verified
        reasons := records
      subst isPayload
      exact confirmed_of_serves truthful serves
  case saveVerdict row =>
    cases answered
    refine ⟨standing, ?_, confirming.records⟩
    intro tested member
    rcases Keyed.eq_or_mem_of_mem_upsert _ member with rfl | earlier
    · obtain ⟨eventType, snapshot, appended⟩ := serves
      obtain ⟨_, confirmed⟩ := truthful.exists_of_mem appended
      exact confirmed
    · exact confirming.verdicts tested earlier
  case claimInitialization =>
    obtain ⟨_, rfl⟩ := eq_of_claimInitialization answered
    exact confirming.of_same standing rfl rfl
  case awaitInitialization =>
    obtain rfl := eq_of_awaitInitialization answered
    exact confirming
  all_goals
    cases answered
    exact confirming.of_same standing rfl rfl

theorem truthful (confirming : world.Confirming env)
    (along : Along (Truthful env) past)
    (remembered : ∀ processId event,
      (⟨.markCaptured processId event, ()⟩ : Exchange signature)
        ∈ past → event ∈ world.captured processId)
    {request : Call} (serves : Serves env past request)
    {reply : request.Reply}
    (answered : machine env request world = some (reply, after)) :
    Truthful env past ⟨request, reply⟩ := by
  cases request
  case append eventType payload =>
    cases payload <;> first
      | trivial
      | exact confirmed_of_serves along serves
  case listSnapshots =>
    cases answered
    exact confirming.standing.reconstruct
  case findVerdict processId =>
    cases answered
    cases found : world.verdicts.find? processId with
    | none =>
        trivial
    | some row =>
        exact confirming.verdicts row (List.mem_of_find?_eq_some found)
  case readCaptured processId =>
    cases answered
    exact remembered processId
  all_goals trivial

end World.Confirming

theorem mem_captured_of_answered {env : Environment} {request : Call}
    {reply : request.Reply} {world after : World}
    (answered : machine env request world = some (reply, after))
    {processId event : String} (member : event ∈ world.captured processId) :
    event ∈ after.captured processId := by
  cases request
  case markCaptured marked eventType =>
    cases answered
    rw [World.mark_captured, Function.update_apply]
    by_cases same : processId = marked
    · subst same
      rw [if_pos rfl]
      by_cases known : eventType ∈ world.captured processId
      · rwa [if_pos known]
      · rw [if_neg known]
        exact List.mem_append_left _ member
    · rwa [if_neg same]
  case claimInitialization =>
    obtain ⟨_, rfl⟩ := eq_of_claimInitialization answered
    exact member
  case awaitInitialization =>
    obtain rfl := eq_of_awaitInitialization answered
    exact member
  all_goals
    cases answered
    exact member

theorem mem_captured_of_marked {world : World}
    (processId event : String) :
    event ∈ (world.mark processId event).captured processId := by
  rw [World.mark_captured, Function.update_self]
  by_cases known : event ∈ world.captured processId
  · rwa [if_pos known]
  · rw [if_neg known]
    exact List.mem_append_right _ List.mem_cons_self

def confirmingGuard (env : Environment) (admits : PublicCall → Prop) :
    Guarded (deployment env admits) (Serves env) where
  invariant := World.Confirming env
  knows past world := Along (Truthful env) past ∧
    ∀ processId event,
      (⟨.markCaptured processId event, ()⟩ : Exchange signature)
        ∈ past → event ∈ world.captured processId
  begins _ _ := ⟨trivial, nofun⟩
  answers past request now reply after confirming known serves := by
    intro answered
    have answered : machine env request now = some (reply, after) :=
      answered
    obtain ⟨along, remembered⟩ := known
    refine ⟨confirming.step along serves answered,
      ⟨⟨confirming.truthful along remembered serves answered, along⟩, ?_⟩,
      ?_⟩
    · intro processId event member
      rcases List.mem_cons.mp member with last | earlier
      · cases last
        cases answered
        exact mem_captured_of_marked processId event
      · exact mem_captured_of_answered answered
          (remembered processId event earlier)
    · rintro other ⟨otherAlong, otherRemembered⟩
      exact ⟨otherAlong, fun processId event member =>
        mem_captured_of_answered answered
          (otherRemembered processId event member)⟩
  breaks request now after confirming broke := by
    have breaks : Breaks request now after := broke
    have standing := confirming.standing.of_breaks breaks
    rcases breaks.eq_or_drawn with rfl | rfl | rfl <;>
      exact ⟨confirming.of_same standing rfl rfl, fun _ => id⟩
  restarts _ confirming :=
    confirming.of_same confirming.standing.restart rfl rfl

/-- The calls that judge no process and emit nothing. -/
def Call.IsEveryday : Call → Prop
  | .append _ (.potVerified ..) => False
  | .append _ (.emissionMinted ..) => False
  | .append _ (.emissionBurned ..) => False
  | .saveVerdict _ => False
  | _ => True

/-- A part of a method that judges no process and emits nothing. -/
def Everyday (env : Environment) (result : Type)
    (program : Service result) : Prop :=
  ∀ past, Obeys (Serves env) (fun _ later => past <:+ later ∧
    ∀ processId, emitted processId later = emitted processId past)
    program past

section Everyday

variable {env : Environment} {result first : Type}

theorem Call.IsEveryday.serves {request : Call}
    (everyday : request.IsEveryday) (past : List (Exchange signature)) :
    Serves env past request ∧ ∀ reply,
      (fun processId => emitted processId (⟨request, reply⟩ :: past)) =
        fun processId => emitted processId past := by
  constructor
  · cases request
    case append eventType payload =>
      cases payload <;> trivial
    all_goals trivial
  · intro reply
    funext processId
    refine (congrArg (emitted processId past + ·) ?_).trans (add_zero _)
    cases request
    case append eventType payload =>
      cases payload <;> first
        | exact everyday.elim
        | exact List.sum_singleton
    all_goals rfl

theorem everyday_of_uses {program : Service result}
    (uses : Uses Call.IsEveryday program) :
    Everyday env result program := by
  intro past
  have unseen : Obeys (Serves env)
      (fun _ later => (fun processId => emitted processId later) =
        fun processId => emitted processId past) program past :=
    Obeys.of_unseen (uses.weaken fun _ => Call.IsEveryday.serves)
  refine unseen.extends.weaken fun _ later holds => ?_
  exact ⟨holds.1, congrFun holds.2⟩

theorem carries_everyday : Carries (Everyday env) where
  bind := by
    intro first second program continuation begins continues past
    refine (begins past).bind ?_
    rintro value later ⟨isSuffix, same⟩
    refine (continues value later).weaken ?_
    rintro _ last ⟨isLater, alike⟩
    exact ⟨isSuffix.trans isLater,
      fun processId => (alike processId).trans (same processId)⟩
  bystander := by
    intro result program strict
    refine everyday_of_uses (strict.uses.weaken fun request => ?_)
    intro bystander
    cases request
    case append eventType payload =>
      cases payload <;> trivial
    all_goals trivial
  ledger := everyday_of_uses (ArosCoin.uses_ledger trivial
    (fun _ => trivial) trivial trivial trivial)

theorem Everyday.pass {program : Service first}
    {continuation : first → Service result}
    {post : result → List (Exchange signature) → Prop}
    {past : List (Exchange signature)}
    (everyday : Everyday env first program)
    (continues : ∀ value later, past <:+ later →
      (∀ processId, emitted processId later = emitted processId past) →
        Obeys (Serves env) post (continuation value) later) :
    Obeys (Serves env) post (program >>= continuation) past := by
  refine (everyday past).bind ?_
  rintro value later ⟨isSuffix, same⟩
  exact continues value later isSuffix same

end Everyday

/-- A run is answered as its body asks: without value when it is inadmissible,
else as verified and with the amount minted. -/
def RunProcessResult.Meets (input : RunProcessDto)
    (result : RunProcessResult) : Prop :=
  if input.admissible then
    result.verified = 1 ∧ result.reason = none ∧
      result.minted = input.amount
  else
    result.verified = 0 ∧ result.reason = some .inadmissible ∧
      result.minted = 0

/-- No run is answered as unverified. -/
def PublicCall.Meets : PublicCall.Answer → Prop
  | ⟨.inl (.runProcess input), result⟩ => result.Meets input
  | _ => True

section Endpoints

variable {env : Environment} {past : List (Exchange signature)}

/-- The event is marked as captured among the calls answered before. -/
def Marked (past : List (Exchange signature))
    (processId eventType : String) : Prop :=
  (⟨.markCaptured processId eventType, ()⟩ : Exchange signature) ∈ past

theorem marked_capture (processId eventType : String)
    (data : Json.JsObject ℚ) (validatorId : Option String) :
    Obeys (Serves env)
      (fun _ later => past <:+ later ∧ Marked later processId eventType)
      (StateRecording.capture processId eventType data validatorId)
      past := by
  refine Obeys.extends ?_
  refine .perform_bind trivial fun snapshot => ?_
  exact .perform_bind trivial fun _ => List.mem_cons_self

private theorem everyday_log (eventType layer description : String) :
    Everyday env _ (AllSeeingEye.log eventType layer description) :=
  carries_everyday.watches.onlooker (Onlooker.strict_log _ _ _)

/-- Before its verdict a process has been captured in full. -/
theorem marked_prologue (input : RunProcessDto) :
    Obeys (Serves env)
      (fun _ later => ∀ event ∈ requiredBeforeVerdict,
        Marked later input.processId event)
      (Orchestrator.prologue env input) past := by
  refine (marked_capture input.processId "initiation" _ _).bind ?_
  rintro _ first ⟨_, initiated⟩
  refine (everyday_log _ _ _).pass fun _ second isSecond _ => ?_
  refine (carries_everyday.watches.onlooker
    (Onlooker.strict_resolveAssignedNodes _)).pass
      fun nodes third isThird _ => ?_
  refine (marked_capture input.processId "task_assignment" _ _).bind ?_
  rintro _ fourth ⟨isFourth, assigned⟩
  refine (everyday_log _ _ _).pass fun _ fifth isFifth _ => ?_
  refine (marked_capture input.processId "stage_transition" _ _).bind ?_
  rintro _ sixth ⟨isSixth, staged⟩
  refine (marked_capture input.processId "execution_complete" _ _).bind ?_
  rintro _ seventh ⟨isSeventh, executed⟩
  refine (carries_everyday.watches.onlooker
    (Onlooker.strict_recordExecutions nodes)).pass
      fun _ last isLast _ => ?_
  have sinceSixth := isSeventh.trans isLast
  have sinceFourth := (isFifth.trans isSixth).trans sinceSixth
  have sinceFirst :=
    ((isSecond.trans isThird).trans isFourth).trans sinceFourth
  intro event required
  simp only [requiredBeforeVerdict, List.mem_cons, List.not_mem_nil,
    or_false] at required
  rcases required with rfl | rfl | rfl | rfl
  · exact sinceFirst.subset initiated
  · exact sinceFourth.subset assigned
  · exact sinceSixth.subset staged
  · exact isLast.subset executed

/-- PoT confirms a process that has been captured in full. -/
theorem confirms_verify {processId : String}
    (marked : ∀ event ∈ requiredBeforeVerdict,
      Marked past processId event) :
    Obeys (Serves env)
      (fun verdict later =>
        emitted processId later = emitted processId past ∧
          (Along (Truthful env) later → verdict.verified = 1))
      (Pot.verify env processId) past := by
  refine .perform_bind trivial fun existing => ?_
  cases existing with
  | some row =>
      exact ⟨add_zero _, fun truthful => truthful.1.1⟩
  | none =>
      refine .perform_bind trivial fun captured => ?_
      refine ⟨trivial, fun history => ?_, trivial⟩
      refine .perform_bind ⟨captured, history, _, rfl, ?_, rfl, rfl⟩
        fun snapshot => ?_
      · exact fun event required =>
          List.mem_cons_of_mem _ (marked event required)
      refine .perform_bind trivial fun timestamp => ?_
      refine .perform_bind ⟨"pot.verified", snapshot, ?_⟩ fun _ => ?_
      · exact List.mem_cons_of_mem _ List.mem_cons_self
      · exact ⟨by simp [emitted, appendedEvents, netOf],
          fun truthful => truthful.2.2.1.1⟩

theorem meets_settle (processId : String) {amount : ℚ}
    (positive : 0 ≤ amount) (epoch : ℚ) (nodes : List String)
    (nonneg : 0 ≤ emitted processId past) :
    Obeys (Serves env)
      (fun result _ => result.verified = 1 ∧ result.reason = none ∧
        result.minted = amount)
      (Orchestrator.settle env processId amount epoch nodes) past := by
  have updates : ∀ change : ArosCoinLedger → ArosCoinLedger,
      Everyday env _ (ArosCoin.ledger >>= fun row =>
        ask (.saveLedger (change row))) := by
    refine fun change => carries_everyday.bind carries_everyday.ledger ?_
    exact fun row => everyday_of_uses (uses_perform trivial _)
  have minting : Obeys (Serves env)
      (fun minted later => minted = amount ∧
        amount ≤ emitted processId later)
      (Emission.mint processId amount) past := by
    refine .perform_bind trivial fun verdict => ?_
    cases Emission.authorizes verdict with
    | false =>
        trivial
    | true =>
        refine (updates _).pass fun _ later _ same => ?_
        refine .perform_bind positive fun snapshot => ⟨rfl, ?_⟩
        have total : emitted processId (⟨.append "emission.minted"
            (.emissionMinted processId amount), snapshot⟩ :: later) =
              emitted processId later + amount := by
          simp [emitted, appendedEvents, netOf]
        rw [total, same processId]
        have before : emitted processId
            (⟨.findVerdict processId, verdict⟩ :: past) =
              emitted processId past := add_zero _
        rw [before]
        linarith
  have burning : ∀ {later : List (Exchange signature)},
      amount ≤ emitted processId later →
        Obeys (Serves env) (fun _ _ => True)
          (Emission.burn processId amount) later := by
    intro later covered
    refine (updates _).pass fun _ last _ same => ?_
    refine .perform_bind ?_ fun _ => trivial
    change amount ≤ emitted processId last
    rwa [same processId]
  rw [Orchestrator.settle_eq]
  refine minting.bind ?_
  rintro _ second ⟨rfl, covered⟩
  refine (carries_everyday.bystander
    (Orchestrator.strict_consolidate env _ _ _ _ _)).pass
      fun _ third _ same => ?_
  refine (burning (by rwa [same processId])).bind fun burned fourth _ => ?_
  refine (everyday_log _ _ _).pass fun _ _ _ _ => ?_
  refine (carries_everyday.watches.onlooker
    (Onlooker.strict_reserveIndex env)).pass fun _ _ _ _ => ?_
  refine (carries_everyday.watches.onlooker
    (Onlooker.strict_capture _ _ _ _)).pass fun _ _ _ _ => ?_
  refine (everyday_log _ _ _).pass fun _ _ _ _ => ?_
  refine (carries_everyday.watches.ofLedger _).pass fun view _ _ _ => ?_
  refine (carries_everyday.watches.onlooker
    (Onlooker.strict_compareSupply env view)).pass fun _ _ _ _ => ?_
  exact (carries_everyday.watches.ofLedger _).pass
    fun _ _ _ _ => ⟨rfl, rfl, rfl⟩

theorem meets_runProcess (input : RunProcessDto) :
    Obeys (Serves env)
      (fun result later => Along (Truthful env) later →
        result.Meets input)
      (Orchestrator.runProcess env input) [] := by
  cases isAdmissible : input.admissible with
  | false =>
      simp only [RunProcessResult.Meets, Orchestrator.runProcess,
        isAdmissible, Bool.not_false, Bool.false_eq_true, if_true,
        if_false]
      refine (carries_everyday.watches.onlooker
        (Onlooker.strict_capture _ _ _ _)).pass fun _ _ _ _ => ?_
      refine (everyday_log _ _ _).pass fun _ _ _ _ => ?_
      refine (everyday_log _ _ _).pass fun _ _ _ _ => ?_
      refine (carries_everyday.watches.onlooker
        (Onlooker.strict_reserveIndex env)).pass fun _ _ _ _ => ?_
      exact (carries_everyday.watches.ofLedger _).pass
        fun _ _ _ _ _ => ⟨rfl, rfl, rfl⟩
  | true =>
      simp only [RunProcessResult.Meets, isAdmissible, if_true]
      rw [Orchestrator.runProcess_eq_of_admissible env isAdmissible]
      have everyday : Everyday env _ (Orchestrator.prologue env input) :=
        carries_everyday.watches.onlooker
          (Orchestrator.strict_prologue env input)
      refine (((marked_prologue input).and (everyday [])).permit
        fun _ _ => And.left).bind ?_
      rintro nodes first ⟨marked, _, same⟩
      refine (confirms_verify marked).bind ?_
      rintro verdict second ⟨alike, confirms⟩
      refine (carries_everyday.watches.onlooker
        (Orchestrator.strict_recordVerdict _ verdict)).pass
          fun _ third isThird unchanged => ?_
      by_cases confirmed : verdict.verified = 1
      · rw [if_neg (not_not.mpr confirmed)]
        have nothing : emitted input.processId third = 0 :=
          (unchanged _).trans (alike.trans (same _))
        refine (meets_settle _ input.amountPositive.le _ _
          nothing.ge).weaken ?_
        exact fun _ _ meets _ => meets
      · rw [if_pos confirmed]
        refine (carries_everyday.watches.rejectUnverified env _ nodes
          third).weaken ?_
        rintro result later ⟨isLater, _⟩ truthful
        exact absurd (confirms
          (truthful.of_suffix (isThird.trans isLater))) confirmed

theorem PublicCall.meets_of_isEndpoint {call : PublicCall}
    (isEndpoint : call.IsEndpoint) :
    Obeys (Serves env)
      (fun answer later => Along (Truthful env) later →
        PublicCall.Meets answer)
      (call.program env) [] := by
  have idle : ∀ {result : Type} {program : Service result},
      Everyday env result program → ∀ past,
        Obeys (Serves env) (fun _ _ => True) program past :=
    fun everyday past => (everyday past).weaken fun _ _ _ => trivial
  have settles : ∀ eventType (payload : Payload), payload.IsSettlement →
      Everyday env Snapshot (ask (.append eventType payload)) := by
    intro eventType payload settlement
    refine everyday_of_uses (uses_perform ?_ _)
    cases payload <;> trivial
  have earned : ∀ amount, Everyday env Unit (ArosCoin.recordEarned amount) :=
    fun _ => carries_everyday.bind carries_everyday.ledger fun _ =>
      everyday_of_uses (uses_perform trivial _)
  rcases call with method | observer
  · cases method
    case runProcess input =>
      exact (meets_runProcess input).bind fun _ _ meets => meets
    case getProcess processId =>
      exact (idle (carries_everyday.watches.getProcess processId) []).bind
        fun _ _ _ _ => trivial
    case metrics epoch =>
      exact (idle (carries_everyday.metrics env epoch) []).bind
        fun _ _ _ _ => trivial
    case finalizeEpoch epoch =>
      exact (idle (carries_everyday.finalizeEpoch settles earned env
        epoch) []).bind fun _ _ _ _ => trivial
    all_goals exact isEndpoint.elim
  · exact isEndpoint.elim

end Endpoints

/-! ## Operation through the endpoints -/

theorem emitted_nonneg {env : Environment}
    {past : List (Exchange signature)}
    (served : Along (fun earlier exchange =>
      Serves env earlier exchange.request) past) (processId : String) :
    0 ≤ emitted processId past := by
  induction past with
  | nil =>
      exact le_rfl
  | cons exchange past inductionHypothesis =>
      obtain ⟨serves, earlier⟩ := served
      have before := inductionHypothesis earlier
      obtain ⟨request, reply⟩ := exchange
      have added : ∀ worth, ((appendedEvents ⟨request, reply⟩).map
          (netOf processId)).sum = worth →
            emitted processId (⟨request, reply⟩ :: past) =
              emitted processId past + worth :=
        fun _ same => congrArg (emitted processId past + ·) same
      cases request
      case append eventType payload =>
        rw [added _ List.sum_singleton]
        cases payload
        case emissionMinted minter minted =>
          by_cases same : minter = processId
          · have nonneg : 0 ≤ minted := serves
            rw [netOf, if_pos same]
            linarith
          · rwa [netOf, if_neg same, add_zero]
        case emissionBurned burner burned =>
          by_cases same : burner = processId
          · subst same
            have covered : burned ≤ emitted burner past := serves
            rw [netOf, if_pos rfl]
            linarith
          · rwa [netOf, if_neg same, add_zero]
        all_goals
          change 0 ≤ emitted processId past + 0
          rwa [add_zero]
      all_goals
        rw [added 0 rfl, add_zero]
        exact before

theorem emitted_eq_written (env : Environment)
    (admits : PublicCall → Prop) (processId : String)
    (past : List (Exchange signature)) :
    emitted processId past =
      (((eventJournal env admits).written past).map
        (netOf processId)).sum := by
  induction past with
  | nil =>
      rfl
  | cons exchange past inductionHypothesis =>
      rw [Journal.written_cons, List.map_append, List.sum_append,
        ← inductionHypothesis]
      rfl

namespace Deployed

/-- When only the endpoints are called, PoT confirms every process that it
judges, every run is answered as its body asks, and no process has burned more
than it has minted. -/
theorem endpoints_confirm (env : Environment)
    (admits : PublicCall → Prop)
    (only : ∀ call, admits call → call.IsEndpoint) (pool : Deployed)
    (reached : Reached env admits pool) :
    (∀ row ∈ pool.state.verdicts.rows,
        row.verified = 1 ∧ row.reasons = []) ∧
      (∀ thread ∈ pool.threads, ∀ answer, thread.rest = .done answer →
        PublicCall.Meets answer) ∧
      ∀ processId,
        0 ≤ (pool.state.events.map (netOf processId)).sum := by
  have obeys : ∀ program, (deployment env admits).admitted program →
      Obeys (Serves env) (fun answer later =>
        Along (Truthful env) later → PublicCall.Meets answer) program
          [] := by
    rintro program ⟨call, admitted, rfl⟩
    exact PublicCall.meets_of_isEndpoint (only call admitted)
  have start : World.initial.Confirming env :=
    ⟨World.standing_initial, nofun, nofun⟩
  have confirming :=
    ((confirmingGuard env admits).reachable obeys start reached).1
  refine ⟨confirming.verdicts, ?_, fun processId => ?_⟩
  · intro thread member answer returned
    obtain ⟨known, meets⟩ := (confirmingGuard env admits).returned obeys
      start reached member returned
    exact meets known.1
  · refine (eventJournal env admits).sum_worth_nonneg rfl ?_ reached
    intro earlier reachable thread member
    rw [← emitted_eq_written]
    exact emitted_nonneg
      (System.Reachable.along obeys reachable thread member) processId

theorem endpoints_confirm_eventfulDay :
    let pool := play .plain eventfulDay
    (∀ row ∈ pool.state.verdicts.rows,
          row.verified = 1 ∧ row.reasons = []) ∧
        (∀ thread ∈ pool.threads, ∀ answer, thread.rest = .done answer →
          PublicCall.Meets answer) ∧
        ∀ processId,
          0 ≤ (pool.state.events.map (netOf processId)).sum :=
  endpoints_confirm .plain PublicCall.IsEndpoint (fun _ => id) _
    (reached_eventfulDay (fun _ => trivial) (fun _ => trivial)
      (fun _ => trivial) fun _ => trivial)

end Deployed

end ArosParadigm
