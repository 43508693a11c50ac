import ArosParadigm.Footprint
import ArosParadigm.Requests
import ArosParadigm.StoreFaults

/-!
# A verdict and its snapshot

`PotService.verify` appends its snapshot in one transaction and saves the row
of the verdict in another. When a store call throws, snapshot and row still
appear together, and only once, exactly when the call that throws is not the
save of the row.
-/

namespace ArosParadigm.VerdictRecord

open Await

/-- The snapshot has been appended by a `verify` of the process. -/
def IsVerification (processId : String) (snapshot : Snapshot) : Bool :=
  match snapshot.payload with
  | .potVerified subject _ _ => subject = processId
  | _ => false

/-- The snapshots that `verify` has appended for a process. -/
def verifications (world : World) (processId : String) : List Snapshot :=
  world.history.filter (IsVerification processId)

/-- There is a snapshot exactly if there is a row, there is at most one of
each, and the row is that of the snapshot. -/
structure RecordedTogether (world : World) (processId : String) : Prop where
  both : verifications world processId ≠ [] ↔
    world.verdicts.find? processId ≠ none
  once : (verifications world processId).length ≤ 1 ∧
    (world.verdicts.rows.filter fun row =>
      row.processId = processId).length ≤ 1
  same : ∀ snapshot ∈ verifications world processId,
    ∀ row, world.verdicts.find? processId = some row →
      row.snapshotSequenceId = snapshot.sequenceId ∧
        snapshot.payload =
          .potVerified processId row.verified row.reasons

/-- The snapshot of the verdict has been appended, and its row has not been
saved. -/
def SaveRejected (trace : List Call) : Prop :=
  (∃ eventType processId verified reasons,
    Call.append eventType (.potVerified processId verified reasons) ∈
      trace) ∧
    ∀ row, Call.saveVerdict row ∉ trace

/-- The calls that append no verification and save no verdict. -/
def Unrelated : Call → Prop
  | .append _ (.potVerified ..) => False
  | .saveVerdict _ => False
  | _ => True

/-- The states of runs in which no call throws at the save of a verdict on
the process: verifications of any process, any other method of the services,
and restarts. -/
inductive Reached (env : Environment) (processId : String) : World → Prop
  | initial : Reached env processId .initial
  | restart {world : World} (reached : Reached env processId world) :
      Reached env processId world.restart
  | verify {world after : World} {subject : String}
      {trace : List Call} {outcome : Outcome ServiceError VerifyResult}
      (reached : Reached env processId world)
      (attempt : Attempt env (Pot.verify env subject) world trace outcome
        after)
      (saved : subject = processId → ¬ SaveRejected trace) :
      Reached env processId after
  | other {world after : World} {result : Type} {program : Service result}
      {trace : List Call} {outcome : Outcome ServiceError result}
      (reached : Reached env processId world)
      (unrelated : Uses Unrelated program)
      (attempt : Attempt env program world trace outcome after) :
      Reached env processId after

section Steps

variable {env : Environment} {world after : World} {processId : String}
variable {trace : List Call}

private theorem length_rows_le (table : Keyed.Table PotVerdict.processId) :
    (table.rows.filter fun row => row.processId = processId).length ≤
      1 := by
  have counted :=
    List.nodup_iff_count_le_one.mp table.unique processId
  rw [List.count, List.countP_map, List.countP_eq_length_filter]
    at counted
  simpa [Function.comp_def, beq_eq_decide] using counted

theorem RecordedTogether.of_same
    (recorded : RecordedTogether world processId)
    (verifications_eq : verifications after processId =
      verifications world processId)
    (verdicts_eq : after.verdicts = world.verdicts) :
    RecordedTogether after processId := by
  obtain ⟨both, once, same⟩ := recorded
  constructor
  · rwa [verifications_eq, verdicts_eq]
  · rwa [verifications_eq, verdicts_eq]
  · rwa [verifications_eq, verdicts_eq]

private theorem unrelated_machine {request : Call} {before : World}
    (unrelated : Unrelated request) {reply : request.Reply}
    (answered : machine env request before = some (reply, after)) :
    verifications after processId = verifications before processId ∧
      after.verdicts = before.verdicts := by
  cases request with
  | append eventType payload =>
      cases answered
      refine ⟨?_, rfl⟩
      have other : IsVerification processId
          (before.nextSnapshot env eventType payload) = false := by
        cases payload <;> first
          | rfl
          | exact unrelated.elim
      simp [verifications, other]
  | saveVerdict row =>
      exact unrelated.elim
  | claimInitialization =>
      obtain ⟨_, rfl⟩ := eq_of_claimInitialization answered
      exact ⟨rfl, rfl⟩
  | awaitInitialization =>
      obtain rfl := eq_of_awaitInitialization answered
      exact ⟨rfl, rfl⟩
  | _ =>
      cases answered
      exact ⟨rfl, rfl⟩

private theorem recordedTogether_of_unrelated {result : Type}
    {program : Service result} {outcome : Outcome ServiceError result}
    (unrelated : Uses Unrelated program)
    (attempt : Attempt env program world trace outcome after)
    (recorded : RecordedTogether world processId) :
    RecordedTogether after processId := by
  have kept : ∀ request, Unrelated request → ∀ before reply next,
      machine env request before = some (reply, next) →
        RecordedTogether before processId →
          RecordedTogether next processId := by
    intro request allowed before reply next answered holds
    obtain ⟨verifications_eq, verdicts_eq⟩ :=
      unrelated_machine allowed answered
    exact holds.of_same verifications_eq verdicts_eq
  have ticked : ∀ before, RecordedTogether before processId →
      RecordedTogether before.tick processId :=
    fun _ holds => holds.of_same rfl rfl
  have drawn : ∀ before, RecordedTogether before processId →
      RecordedTogether before.drawId processId :=
    fun _ holds => holds.of_same rfl rfl
  exact Attempt.keeps kept ticked drawn unrelated attempt recorded

/-- A `verify` appends nothing, or it appends its snapshot and the save of the
row throws, or it records both. -/
private theorem verify_cases {outcome : Outcome ServiceError VerifyResult}
    (attempt : Attempt env (Pot.verify env processId) world trace outcome
      after) :
    ((after = world ∨ after = world.tick) ∧
        ∀ eventType payload, Call.append eventType payload ∉ trace) ∨
      (world.verdicts.find? processId = none ∧ SaveRejected trace ∧
        after = (world.append env "pot.verified"
          (Pot.verdictPayload env world processId)).tick) ∨
      (world.verdicts.find? processId = none ∧
        (∃ row, Call.saveVerdict row ∈ trace) ∧
        after = Pot.verifiedWorld env world processId) := by
  have found : machine env (.findVerdict processId) world =
      some (world.verdicts.find? processId, world) :=
    rfl
  rcases Attempt.ask_bind_cases found attempt with
    ⟨_, checked, rfl⟩ | ⟨breaks, rfl, _⟩
  swap
  · exact Or.inl ⟨breaks.eq_or_tick id, by simp⟩
  cases existing : world.verdicts.find? processId with
  | some row =>
      rw [existing] at checked
      cases checked
      exact Or.inl ⟨Or.inl rfl, by simp⟩
  | none =>
      rw [existing] at checked
      obtain ⟨_, judged, rfl⟩ := Attempt.of_memory_bind id rfl checked
      simp only [Pot.reconstruct, bind_assoc, pure_bind] at judged
      rcases Attempt.ask_bind_cases rfl judged with
        ⟨_, replayed, rfl⟩ | ⟨breaks, rfl, _⟩
      swap
      · exact Or.inl ⟨breaks.eq_or_tick id, by simp⟩
      rcases Attempt.ask_bind_cases rfl replayed with
        ⟨_, appended, rfl⟩ | ⟨breaks, rfl, _⟩
      swap
      · exact Or.inl ⟨breaks.eq_or_tick id, by simp⟩
      obtain ⟨_, stamped, rfl⟩ := Attempt.of_memory_bind id rfl appended
      rcases Attempt.ask_bind_cases rfl stamped with
        ⟨_, saved, rfl⟩ | ⟨breaks, rfl, _⟩
      · cases saved
        exact Or.inr (Or.inr ⟨rfl,
          ⟨Pot.newVerdict env world processId,
            .tail _ (.tail _ (.tail _ (.tail _ (.tail _ (.head _)))))⟩,
          rfl⟩)
      · refine Or.inr (Or.inl ⟨rfl, ⟨⟨"pot.verified", processId,
          (Pot.verdictOf env world processId).1,
          (Pot.verdictOf env world processId).2,
          .tail _ (.tail _ (.tail _ (.head _)))⟩, ?_⟩, ?_⟩)
        · simp
        · cases breaks with
          | unchanged =>
              rfl
          | ticked stamps =>
              exact stamps.elim
          | numbered observes =>
              exact observes.elim

/-- The snapshot of a first `verify`. -/
abbrev verdictSnapshot (env : Environment) (world : World)
    (processId : String) : Snapshot :=
  world.nextSnapshot env "pot.verified"
    (Pot.verdictPayload env world processId)

private theorem verifications_appended (subject : String) :
    verifications (world.append env "pot.verified"
        (Pot.verdictPayload env world subject)) processId =
      verifications world processId ++
        if subject = processId then [verdictSnapshot env world subject]
        else [] := by
  rw [verifications, World.history_append, List.filter_append]
  congr 1
  by_cases same : subject = processId
  · subst same
    simp [IsVerification, Pot.verdictPayload, verdictSnapshot]
  · simp [IsVerification, Pot.verdictPayload, same]

private theorem recordedTogether_verifiedWorld
    (recorded : RecordedTogether world processId)
    (missing : world.verdicts.find? processId = none) :
    RecordedTogether (Pot.verifiedWorld env world processId)
      processId := by
  have nothing : verifications world processId = [] := by
    by_contra some_
    exact recorded.both.mp some_ missing
  have one : verifications (Pot.verifiedWorld env world processId)
      processId = [verdictSnapshot env world processId] := by
    have appended :=
      @verifications_appended env world processId processId
    rw [nothing, if_pos rfl] at appended
    exact appended
  have saved : (Pot.verifiedWorld env world processId).verdicts.find?
      processId = some (Pot.newVerdict env world processId) :=
    Keyed.Table.find?_save_self world.verdicts
      (Pot.newVerdict env world processId)
  constructor
  · simp [one, saved]
  · exact ⟨by simp [one], length_rows_le _⟩
  · intro snapshot member row found
    rw [one, List.mem_singleton] at member
    rw [saved] at found
    cases found
    subst member
    exact ⟨rfl, rfl⟩

private theorem recordedTogether_of_ne {subject : String}
    (different : subject ≠ processId)
    {outcome : Outcome ServiceError VerifyResult}
    (attempt : Attempt env (Pot.verify env subject) world trace outcome
      after)
    (recorded : RecordedTogether world processId) :
    RecordedTogether after processId := by
  have appended := @verifications_appended env world processId subject
  rw [if_neg different, List.append_nil] at appended
  rcases verify_cases attempt with ⟨rfl | rfl, _⟩ | ⟨_, _, rfl⟩ |
    ⟨_, _, rfl⟩
  · exact recorded
  · exact recorded.of_same rfl rfl
  · exact recorded.of_same appended rfl
  · have other : (Pot.verifiedWorld env world subject).verdicts.find?
        processId = world.verdicts.find? processId :=
      Keyed.Table.find?_save_of_ne world.verdicts different
    obtain ⟨both, once, same⟩ := recorded
    have verifications_eq : verifications
        (Pot.verifiedWorld env world subject) processId =
          verifications world processId :=
      appended
    constructor
    · rwa [verifications_eq, other]
    · exact ⟨by rw [verifications_eq]; exact once.1, length_rows_le _⟩
    · rwa [verifications_eq, other]

/-- A `verify` keeps snapshot and row together exactly when it does not throw
at the save of the row. -/
theorem recordedTogether_verify_iff
    (recorded : RecordedTogether world processId)
    {outcome : Outcome ServiceError VerifyResult}
    (attempt : Attempt env (Pot.verify env processId) world trace outcome
      after) :
    RecordedTogether after processId ↔ ¬ SaveRejected trace := by
  rcases verify_cases attempt with ⟨same, unappended⟩ |
    ⟨missing, rejected, rfl⟩ | ⟨missing, ⟨row, saved⟩, rfl⟩
  · refine iff_of_true ?_ ?_
    · rcases same with rfl | rfl
      · exact recorded
      · exact recorded.of_same rfl rfl
    · rintro ⟨⟨_, _, _, _, appended⟩, _⟩
      exact unappended _ _ appended
  · refine iff_of_false ?_ (not_not_intro rejected)
    intro together
    have appended :=
      @verifications_appended env world processId processId
    rw [if_pos rfl] at appended
    apply together.both.mp _ missing
    change verifications (world.append env _ _) processId ≠ []
    rw [appended]
    simp
  · refine iff_of_true (recordedTogether_verifiedWorld recorded missing)
      ?_
    rintro ⟨_, unsaved⟩
    exact unsaved row saved

end Steps

/-! ## Every reached state -/

theorem recordedTogether_of_reached {env : Environment} {world : World}
    {processId : String} (reached : Reached env processId world) :
    RecordedTogether world processId := by
  induction reached with
  | initial =>
      exact ⟨iff_of_false (not_not_intro rfl) (not_not_intro rfl),
        ⟨Nat.zero_le _, Nat.zero_le _⟩, nofun⟩
  | restart _ inductionHypothesis =>
      exact inductionHypothesis.of_same rfl rfl
  | @verify world after subject trace outcome _ attempt saved
      inductionHypothesis =>
      by_cases same : subject = processId
      · subst same
        exact (recordedTogether_verify_iff inductionHypothesis
          attempt).mpr (saved rfl)
      · exact recordedTogether_of_ne same attempt inductionHypothesis
  | other _ unrelated attempt inductionHypothesis =>
      exact recordedTogether_of_unrelated unrelated attempt
        inductionHypothesis

section Requests

variable {env : Environment}

private theorem uses_ask {request : Call} (unrelated : Unrelated request) :
    Uses Unrelated (ask request) :=
  uses_perform unrelated _

private theorem unrelated_of_bystander {result : Type}
    {program : Service result} (strict : Strict Bystander program) :
    Uses Unrelated program := by
  apply strict.uses.weaken
  intro request bystander
  cases request with
  | append eventType payload =>
      cases payload <;> trivial
  | saveVerdict row =>
      exact bystander.elim
  | _ =>
      trivial

private theorem carries_unrelated :
    Carries fun _ program => Uses Unrelated program where
  bind := uses_bind
  bystander := unrelated_of_bystander
  ledger := ArosCoin.uses_ledger trivial (fun _ => trivial) trivial trivial
    trivial

private theorem uses_recordEarned (amount : ℚ) :
    Uses Unrelated (ArosCoin.recordEarned amount) :=
  uses_bind carries_unrelated.ledger fun _ => uses_ask trivial

private theorem uses_settlement (eventType : String) (payload : Payload)
    (settlement : payload.IsSettlement) :
    Uses Unrelated (ask (.append eventType payload)) := by
  apply uses_ask
  cases payload <;> trivial

private theorem uses_epilogue (input : RunProcessDto)
    (nodes : List String) (verdict : VerifyResult) :
    Uses Unrelated (Orchestrator.epilogue env input nodes verdict) := by
  refine uses_bind (unrelated_of_bystander (bystander_of_onlooker
    (Orchestrator.strict_recordVerdict _ _))) fun _ => ?_
  split
  · exact carries_unrelated.watches.rejectUnverified env _ _
  · have mint : Uses Unrelated
        (Emission.mint input.processId input.amount) := by
      refine uses_bind (uses_ask trivial) fun found => ?_
      split
      · refine uses_bind (uses_bind carries_unrelated.ledger
          fun _ => uses_ask trivial) fun _ => ?_
        exact uses_bind (uses_ask trivial) fun _ => trivial
      · trivial
    have burn : ∀ amount, Uses Unrelated
        (Emission.burn input.processId amount) := by
      intro amount
      refine uses_bind (uses_bind carries_unrelated.ledger
        fun _ => uses_ask trivial) fun _ => ?_
      exact uses_bind (uses_ask trivial) fun _ => trivial
    rw [Orchestrator.settle_eq]
    refine uses_bind mint fun _ => ?_
    refine uses_bind (unrelated_of_bystander
      (Orchestrator.strict_consolidate env _ _ _ _ _)) fun _ => ?_
    refine uses_bind (burn _) fun _ => ?_
    exact carries_unrelated.watches.finish env _ _ _ _ _

variable {world after : World} {trace : List Call} {processId : String}

private theorem saveRejected_of_middle {first middle last : List Call}
    (before : ∀ request ∈ first, Unrelated request)
    (behind : ∀ request ∈ last, Unrelated request)
    (rejected : SaveRejected middle) :
    SaveRejected (first ++ (middle ++ last)) := by
  obtain ⟨⟨eventType, processId, verified, reasons, appended⟩, unsaved⟩ :=
    rejected
  refine ⟨⟨eventType, processId, verified, reasons, by simp [appended]⟩,
    ?_⟩
  intro row member
  rcases List.mem_append.mp member with inFirst | inRest
  · exact before _ inFirst
  · rcases List.mem_append.mp inRest with inMiddle | inLast
    · exact unsaved row inMiddle
    · exact behind _ inLast

private theorem saveRejected_of_last {first middle : List Call}
    (before : ∀ request ∈ first, Unrelated request)
    (rejected : SaveRejected middle) : SaveRejected (first ++ middle) := by
  have whole := @saveRejected_of_middle first middle [] before nofun
    rejected
  rwa [List.append_nil] at whole

private theorem Reached.runProcess_of_admissible {body : RunProcessDto}
    (admissible : body.admissible = true)
    {outcome : Outcome ServiceError RunProcessResult}
    (reached : Reached env processId world)
    (attempt : Attempt env (Orchestrator.runProcess env body) world trace
      outcome after)
    (saved : body.processId = processId → ¬ SaveRejected trace) :
    Reached env processId after := by
  rw [Orchestrator.runProcess_eq_of_admissible env admissible] at attempt
  have prologue := unrelated_of_bystander (bystander_of_onlooker
    (Orchestrator.strict_prologue env body))
  rcases attempt.bind_cases with
    ⟨nodes, between, first, rest, early, late, rfl⟩ |
    ⟨reason, early, _⟩ | ⟨early, _⟩
  swap
  · exact reached.other prologue early
  swap
  · exact reached.other prologue early
  have executed := reached.other prologue early
  have before := FaultyRun.permitted_of_mem prologue early
  rcases late.bind_cases with
    ⟨verdict, judged, middle, last, verified, onward, rfl⟩ |
    ⟨reason, verified, _⟩ | ⟨verified, _⟩
  · have behind := FaultyRun.permitted_of_mem
      (uses_epilogue body nodes verdict) onward
    have judgedReached := executed.verify verified
      fun isProcess rejected => saved isProcess
        (saveRejected_of_middle before behind rejected)
    exact judgedReached.other (uses_epilogue body nodes verdict) onward
  · exact executed.verify verified fun isProcess rejected =>
      saved isProcess (saveRejected_of_last before rejected)
  · exact executed.verify verified fun isProcess rejected =>
      saved isProcess (saveRejected_of_last before rejected)

theorem Reached.request {request : Request}
    {outcome : Outcome ServiceError Response}
    (reached : Reached env processId world)
    (attempt : Attempt env (request.handler env) world trace outcome after)
    (saved : ∀ body, request = .runProcess body →
      body.processId = processId → ¬ SaveRejected trace) :
    Reached env processId after := by
  cases request with
  | runProcess body =>
      rcases Bool.eq_false_or_eq_true body.admissible with
        admissible | inadmissible
      · rcases attempt.bind_cases with
          ⟨result, between, first, rest, early, late, rfl⟩ |
          ⟨reason, early, _⟩ | ⟨early, _⟩
        · cases late
          rw [List.append_nil] at saved
          exact reached.runProcess_of_admissible admissible early
            (saved body rfl)
        · exact reached.runProcess_of_admissible admissible early
            (saved body rfl)
        · exact reached.runProcess_of_admissible admissible early
            (saved body rfl)
      · have handler : Uses Unrelated
            (Request.handler env (.runProcess body)) :=
          uses_bind (carries_unrelated.watches.runProcess_of_inadmissible env
            inadmissible) fun _ => trivial
        exact reached.other handler attempt
  | finalizeEpoch epoch =>
      have handler : Uses Unrelated
          (Request.handler env (.finalizeEpoch epoch)) :=
        uses_bind (carries_unrelated.finalizeEpoch uses_settlement
          uses_recordEarned env epoch) fun _ => trivial
      exact reached.other handler attempt
  | metrics epoch =>
      have handler : Uses Unrelated
          (Request.handler env (.metrics epoch)) :=
        uses_bind (carries_unrelated.metrics env epoch) fun _ => trivial
      exact reached.other handler attempt
  | getProcess processId =>
      have handler : Uses Unrelated
          (Request.handler env (.getProcess processId)) :=
        uses_bind (carries_unrelated.watches.getProcess processId)
          fun _ => trivial
      exact reached.other handler attempt

end Requests

/-- In every reached state snapshot and row of the process are together, and a
further `verify` keeps them so exactly when it does not throw at the save of
the row. -/
theorem recorded_together_iff (env : Environment) {world : World}
    {processId : String} (reached : Reached env processId world) :
    RecordedTogether world processId ∧
      ∀ trace outcome after,
        Attempt env (Pot.verify env processId) world trace outcome
            after →
          (RecordedTogether after processId ↔ ¬ SaveRejected trace) := by
  have recorded := recordedTogether_of_reached reached
  refine ⟨recorded, ?_⟩
  intro trace outcome after attempt
  exact recordedTogether_verify_iff recorded attempt

/-- A first verification that is answered throughout. -/
theorem first_verdict_recorded :
    RecordedTogether (Pot.verifiedWorld .plain .initial "p-1") "p-1" := by
  have together := @recorded_together_iff .plain .initial "p-1" .initial
  refine (together.2 _ _ _ (.answered rfl (.answered rfl (.answered rfl
    (.answered rfl (.answered rfl (.answered rfl
      (.done _ _)))))))).mpr ?_
  rintro ⟨_, unsaved⟩
  exact unsaved _ (.tail _ (.tail _ (.tail _ (.tail _ (.tail _
    (.head _))))))

/-- An identifier longer than the key of the table. -/
def longId : String :=
  String.ofList (List.replicate 129 'p')

/-- The save of a verdict on a process whose identifier is too long throws
after its snapshot. -/
theorem snapshot_without_row :
    ∃ trace after,
      Attempt .plain (Pot.verify .plain longId) .initial trace
          (.threw .storeRejected) after ∧
        ¬ RecordedTogether after longId := by
  refine ⟨_, _, .answered rfl (.answered rfl (.answered rfl
    (.answered rfl (.answered rfl (.rejected (.unchanged (by trivial) _)
      (.fail _ _)))))), ?_⟩
  intro together
  apply together.both.mp _ rfl
  decide +kernel

end ArosParadigm.VerdictRecord
