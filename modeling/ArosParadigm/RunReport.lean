import ArosParadigm.RecordedTime
import ArosParadigm.Sessions

/-!
# What a run reports

The result of `runProcess` lists the events of the run and carries the flag
of the verdict. On a new process identifier both are what has been recorded;
on one with a stored verdict neither is.
-/

namespace ArosParadigm.RunReport

open Await

/-- The event types recorded for a process. -/
def trail (processId : String) (history : List Snapshot) : List String :=
  (history.filter fun snapshot =>
    snapshot.payload.processId? = some processId).map
      ExecutionSnapshot.eventType

/-- The event types of the snapshots appended for a process between two
worlds. -/
def recordedTypes (processId : String) (before after : World) :
    List String :=
  trail processId (after.history.drop before.history.length)

def answeredVerdict (env : Environment) (world : World)
    (processId : String) : Option (Fin 2 × List String) :=
  match ((Request.getProcess processId).handle env world).1 with
  | .returned (.process view) => view.verdict
  | _ => none

/-- The result lists what has been recorded for its process, and has the flag
of the verdict that is read afterwards. -/
structure Reports (env : Environment) (processId : String)
    (before after : World) (result : RunProcessResult) : Prop where
  events : result.events = recordedTypes processId before after
  verified : result.verified = 1 ↔
    ∃ reasons, answeredVerdict env after processId = some (1, reasons)

section Trails

variable {env : Environment} {world after : World} {processId : String}

theorem trail_append_list (first second : List Snapshot) :
    trail processId (first ++ second) =
      trail processId first ++ trail processId second := by
  simp [trail]

/-- What a run appends is what the trail has grown by. -/
theorem recordedTypes_eq {types : List String}
    (extends_ : world.history <+: after.history)
    (grown : trail processId after.history =
      trail processId world.history ++ types) :
    recordedTypes processId world after = types := by
  obtain ⟨added, isAfter⟩ := extends_
  rw [← isAfter, trail_append_list] at grown
  rw [recordedTypes, ← isAfter, List.drop_left]
  exact List.append_cancel_left grown

theorem trail_append (eventType : String) (payload : Payload) :
    trail processId (world.append env eventType payload).history =
      trail processId world.history ++
        if payload.processId? = some processId then [eventType]
        else [] := by
  rw [World.history_append, trail_append_list]
  congr 1
  by_cases own : payload.processId? = some processId
  · simp [trail, own]
  · simp [trail, own]

theorem trail_captureEvent (eventType : String) (data : Json.JsObject ℚ) :
    trail processId
        (world.captureEvent env processId eventType data).history =
      trail processId world.history ++ [eventType] := by
  have own : (StateRecording.buildPayload processId data
      none).processId? = some processId :=
    rfl
  refine (trail_append eventType _).trans ?_
  rw [if_pos own]

/-- The registration of nodes records nothing for a process. -/
theorem trail_rosterWorld (explicit : Option (List String)) :
    trail processId
        (Orchestrator.rosterWorld env world explicit).history =
      trail processId world.history := by
  have enrolled : ∀ roster (before : World), trail processId
      (Orchestrator.enrolledWorld env before roster).history =
        trail processId before.history := by
    intro roster
    induction roster with
    | nil =>
        intro before
        rfl
    | cons node rest inductionHypothesis =>
        intro before
        refine (inductionHypothesis _).trans ?_
        refine (trail_append "node.registered" _).trans ?_
        rw [if_neg nofun, List.append_nil]
        rfl
  unfold Orchestrator.rosterWorld
  split
  · rfl
  · split
    · exact enrolled _ _
    · rfl

theorem trail_requestedWorld (body : RunProcessDto) :
    trail body.processId
        (Orchestrator.requestedWorld env world body).history =
      trail body.processId world.history ++ ["initiation",
        "task_assignment", "stage_transition", "execution_complete"] := by
  rw [Orchestrator.requestedWorld, Orchestrator.executedWorld,
    Orchestrator.history_workedWorld, Orchestrator.preparedWorld,
    trail_captureEvent, trail_captureEvent, World.history_log,
    trail_captureEvent, trail_rosterWorld, Orchestrator.initiatedWorld,
    World.history_log, trail_captureEvent]
  simp

theorem trail_verifyWorld :
    trail processId (Pot.verifyWorld env world processId).history =
      trail processId world.history ++
        if world.verdicts.find? processId = none then ["pot.verified"]
        else [] := by
  unfold Pot.verifyWorld
  cases found : world.verdicts.find? processId with
  | some row =>
      simp
  | none =>
      have own : (Pot.verdictPayload env world processId).processId? =
          some processId :=
        rfl
      refine (trail_append "pot.verified" _).trans ?_
      rw [if_pos own, if_pos rfl]

def typesToVerdict (stored : Option PotVerdict) : List String :=
  ["initiation", "task_assignment", "stage_transition",
    "execution_complete"] ++
      (if stored = none then ["pot.verified"] else []) ++ ["pot_verdict"]

theorem trail_verdictWorld (body : RunProcessDto) :
    trail body.processId
        (Orchestrator.verdictWorld env world body).history =
      trail body.processId world.history ++
        typesToVerdict (world.verdicts.find? body.processId) := by
  have verdicts : (Orchestrator.requestedWorld env world body).verdicts =
      world.verdicts :=
    congrArg Books.verdicts
      (Orchestrator.books_requestedWorld env world body)
  rw [Orchestrator.verdictWorld, Orchestrator.judgedWorld,
    World.history_log, trail_captureEvent, trail_verifyWorld,
    trail_requestedWorld, verdicts, typesToVerdict]
  simp

theorem history_observedWorld :
    (Orchestrator.observedWorld env world).history = world.history := by
  unfold Orchestrator.observedWorld AllSeeingEye.comparedWorld
  split <;> rfl

theorem verdicts_observedWorld :
    (Orchestrator.observedWorld env world).verdicts = world.verdicts := by
  unfold Orchestrator.observedWorld AllSeeingEye.comparedWorld
  split <;> rfl

theorem trail_inadmissibleWorld (body : RunProcessDto) :
    trail body.processId
        (Orchestrator.inadmissibleWorld env world body).history =
      trail body.processId world.history ++ ["initiation"] := by
  rw [Orchestrator.inadmissibleWorld, World.history_withLedger,
    World.history_log, Orchestrator.initiatedWorld, World.history_log,
    trail_captureEvent]

theorem trail_settledWorld (amount epoch : ℚ) (nodes : List String) :
    trail processId (Orchestrator.settledWorld env world processId amount
        epoch nodes).history =
      trail processId world.history ++ ["emission.minted", "emission",
        "emission.burned", "final_status"] := by
  have accrued : ∀ (before : World) fee participants,
      (Commission.accruedWorld before epoch fee participants).history =
        before.history := by
    intro before fee participants
    unfold Commission.accruedWorld Commission.openedWorld
    split <;> rfl
  have minted : (Payload.emissionMinted processId amount).processId? =
      some processId :=
    rfl
  have burned : (Payload.emissionBurned processId amount).processId? =
      some processId :=
    rfl
  rw [Orchestrator.settledWorld, history_observedWorld,
    Orchestrator.recordedWorld, World.history_log, trail_captureEvent,
    Orchestrator.balancedWorld, World.history_log,
    Emission.burnedWorld, trail_append, if_pos burned,
    World.history_withLedger, accrued, Orchestrator.emittedWorld,
    World.history_log, trail_captureEvent, Emission.mintedWorld,
    trail_append, if_pos minted, World.history_withLedger]
  simp

variable (env world) in
/-- The events of a verified process. -/
theorem trail_settled_verdictWorld (body : RunProcessDto) (epoch : ℚ)
    (nodes : List String) :
    trail body.processId (Orchestrator.settledWorld env
        (Orchestrator.verdictWorld env world body) body.processId
        body.amount epoch nodes).history =
      trail body.processId world.history ++
        (typesToVerdict (world.verdicts.find? body.processId) ++
          ["emission.minted", "emission", "emission.burned",
            "final_status"]) := by
  rw [trail_settledWorld, trail_verdictWorld, List.append_assoc]

end Trails

section Verdicts

variable {env : Environment} {world : World}

/-- Every stored verdict is `verified === 1`. -/
def Confirmed (world : World) : Prop :=
  ∀ processId row, world.verdicts.find? processId = some row →
    row.verified = 1

/-- Requests store positive verdicts only. -/
theorem confirmed_session (env : Environment) (requests : List Request) :
    Confirmed (Session.of env requests).world := by
  apply Session.induction (motive := fun session =>
    Confirmed session.world)
  · exact nofun
  · intro session request sound confirmed
    obtain ⟨step, _⟩ := request.bookStep sound
    have kept : (request.handle env session.world).2.books.verdicts =
        session.world.verdicts →
          Confirmed (request.handle env session.world).2 := by
      intro same processId row found
      apply confirmed processId row
      rwa [← same]
    cases step with
    | idle unsettled same free =>
        apply kept
        rw [same]
        rfl
    | @settled body _ verdict startTime settles subject verified changed
        fee =>
        intro processId row found
        change (Request.handle env (.runProcess body)
          session.world).2.verdicts.find? processId = some row at found
        have saved : (Request.handle env (.runProcess body)
            session.world).2.verdicts =
              session.world.verdicts.save verdict :=
          congrArg Books.verdicts changed
        rw [saved, Keyed.Table.find?_save] at found
        split at found
        · cases found
          exact verified
        · exact confirmed processId row found
    | distributed row weights endTime found isOpen changed free =>
        apply kept
        rw [changed]
        rfl

theorem answeredVerdict_eq (processId : String) :
    answeredVerdict env world processId =
      (world.verdicts.find? processId).map fun row =>
        (row.verified, row.reasons) :=
  rfl

end Verdicts

/-! ## The report of a run -/

section Report

variable {env : Environment} {world : World} {body : RunProcessDto}

/-- The body is admissible and lists a node that is not registered, or its
process has no stored verdict. -/
def Reportable (world : World) (body : RunProcessDto) : Prop :=
  body.admissible = true ∧ ¬ Orchestrator.Registered world body.nodeIds ∨
    world.verdicts.find? body.processId = none

theorem verdicts_inadmissibleWorld :
    (Orchestrator.inadmissibleWorld env world body).verdicts =
      world.verdicts :=
  rfl

theorem verdicts_settledWorld (processId : String) (amount epoch : ℚ)
    (nodes : List String) :
    (Orchestrator.settledWorld env world processId amount epoch
      nodes).verdicts = world.verdicts := by
  have accrued : ∀ (before : World) fee participants,
      (Commission.accruedWorld before epoch fee participants).verdicts =
        before.verdicts := by
    intro before fee participants
    unfold Commission.accruedWorld Commission.openedWorld
    split <;> rfl
  rw [Orchestrator.settledWorld, verdicts_observedWorld]
  exact accrued (Orchestrator.emittedWorld env world processId amount)
    (Commission.computeFee amount)
    (nodes.map fun nodeId => ⟨processId, nodeId⟩)

private theorem reports_of_missing (sound : Sound env world)
    (missing : world.verdicts.find? body.processId = none)
    {result : RunProcessResult} {after : World}
    (answered : Answers env world (.runProcess body)
      (.returned (.run result)) after)
    (extends_ : world.history <+: after.history) :
    Reports env body.processId world after result := by
  cases answered with
  | inadmissible =>
      constructor
      · exact (recordedTypes_eq extends_
          (trail_inadmissibleWorld body)).symm
      · rw [answeredVerdict_eq, verdicts_inadmissibleWorld, missing]
        simp
  | unverified _ _ _ _ unverified =>
      have stored :=
        Orchestrator.stored_of_unverified sound.intact unverified
      rw [missing] at stored
      cases stored
  | verified _ _ _ _ verified =>
      constructor
      · symm
        apply recordedTypes_eq extends_
        rw [trail_settled_verdictWorld, missing]
        rfl
      · have stored : (Orchestrator.verdictWorld env world
            body).verdicts.find? body.processId =
              some (Orchestrator.verdictOn env world body) := by
          refine (congrArg (Keyed.Table.find? · body.processId)
            (Pot.verdicts_verifyWorld env (Orchestrator.requestedWorld env
              world body) body.processId)).trans ?_
          rw [Keyed.Table.find?_save,
            if_pos (Pot.verdictRow_processId env _ _)]
          rfl
        rw [answeredVerdict_eq, verdicts_settledWorld, stored]
        simp [verified]

/-- On an identifier with a positive verdict no run reports what it
records. -/
private theorem not_reports_of_stored (confirmed : Confirmed world)
    {row : PotVerdict}
    (stored : world.verdicts.find? body.processId = some row)
    {result : RunProcessResult} {after : World}
    (answered : Answers env world (.runProcess body)
      (.returned (.run result)) after)
    (extends_ : world.history <+: after.history) :
    ¬ Reports env body.processId world after result := by
  have positive := confirmed body.processId row stored
  rintro ⟨events, verified⟩
  cases answered with
  | inadmissible =>
      rw [answeredVerdict_eq, verdicts_inadmissibleWorld, stored]
        at verified
      have isPositive := verified.mpr ⟨row.reasons, by simp [positive]⟩
      cases isPositive
  | unverified _ _ _ _ unverified =>
      rw [Orchestrator.verdictOn_of_stored env stored] at unverified
      exact unverified positive
  | verified =>
      have grown := trail_settled_verdictWorld env world body
        (body.epoch.getD Orchestrator.defaultEpoch)
        (Orchestrator.bodyNodes env world body)
      rw [recordedTypes_eq extends_ grown, stored] at events
      have lengths := congrArg List.length events
      simp [typesToVerdict, Orchestrator.eventsToVerdict] at lengths

/-- In every session a run that returns reports what it has recorded exactly
when the process has no stored verdict. -/
theorem reports_iff (env : Environment) (requests : List Request)
    (body : RunProcessDto) :
    (∀ result,
      ((Request.runProcess body).handle env
          (Session.of env requests).world).1 = .returned (.run result) →
        Reports env body.processId (Session.of env requests).world
          ((Request.runProcess body).handle env
            (Session.of env requests).world).2 result) ↔
      Reportable (Session.of env requests).world body := by
  have sound := Session.sound env requests
  have confirmed := confirmed_session env requests
  generalize (Session.of env requests).world = world at sound confirmed ⊢
  have answered : Answers env world (.runProcess body) _ _ :=
    Request.answers sound.settled (.runProcess body)
  have extends_ : RecordedTime.Extends world
      ((Request.runProcess body).handle env world).2 :=
    RecordedTime.extends_run _
  generalize ((Request.runProcess body).handle env world).1 = outcome,
    ((Request.runProcess body).handle env world).2 = after
    at answered extends_ ⊢
  constructor
  · intro reports
    cases stored : world.verdicts.find? body.processId with
    | none =>
        exact Or.inr stored
    | some row =>
        cases outcome with
        | returned response =>
            cases response with
            | run result =>
                exact absurd (reports result rfl) (not_reports_of_stored
                  confirmed stored answered extends_.history)
            | _ =>
                cases answered
        | threw reason =>
            cases answered with
            | unregistered _ admissible unregistered =>
                exact Or.inl ⟨admissible, unregistered⟩
        | blocked =>
            cases answered
  · rintro (⟨admissible, unregistered⟩ | missing) result returned
    · subst returned
      cases answered with
      | inadmissible _ _ inadmissible =>
          rw [admissible] at inadmissible
          cases inadmissible
      | unverified _ _ _ registered =>
          exact absurd registered unregistered
      | verified _ _ _ registered =>
          exact absurd registered unregistered
    · subst returned
      exact reports_of_missing sound missing answered extends_.history

end Report

def reportedEvents : Outcome ServiceError Response → List String
  | .returned (.run result) => result.events
  | _ => []

def repeatedBody : RunProcessDto :=
  Orchestrator.transferBody "p-1" none Orchestrator.none_ne_some_nil

/-- A second run of `p-1` reports a snapshot of a verdict and appends
none. -/
theorem repeated_run_misreports :
    ∃ result,
      ((Request.runProcess repeatedBody).handle .plain
          (Session.of .plain [.runProcess repeatedBody]).world).1 =
        .returned (.run result) ∧
      "pot.verified" ∈ result.events ∧
      "pot.verified" ∉ recordedTypes "p-1"
        (Session.of .plain [.runProcess repeatedBody]).world
        ((Request.runProcess repeatedBody).handle .plain
          (Session.of .plain [.runProcess repeatedBody]).world).2 := by
  have reported : "pot.verified" ∈ reportedEvents
      ((Request.runProcess repeatedBody).handle .plain
        (Session.of .plain [.runProcess repeatedBody]).world).1 := by
    decide +kernel
  have unrecorded : "pot.verified" ∉ recordedTypes "p-1"
      (Session.of .plain [.runProcess repeatedBody]).world
      ((Request.runProcess repeatedBody).handle .plain
        (Session.of .plain [.runProcess repeatedBody]).world).2 := by
    decide +kernel
  generalize ((Request.runProcess repeatedBody).handle .plain
    (Session.of .plain [.runProcess repeatedBody]).world).1 = outcome
    at reported ⊢
  cases outcome with
  | returned response =>
      cases response with
      | run result =>
          exact ⟨result, rfl, reported, unrecorded⟩
      | _ =>
          cases reported
  | threw reason =>
      cases reported
  | blocked =>
      cases reported

end ArosParadigm.RunReport
