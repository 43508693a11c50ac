import ArosParadigm.Library.Interleaving
import ArosParadigm.VerdictRecord

/-!
# Concurrent verdicts

`PotService.verify` looks for a stored verdict first and saves its own last.
Captures that complete the record in between, and a second call that finds no
verdict either, lead to two verdicts of one process. When a call looks for
the verdict before all others have looked or after it is stored, the verdict
is issued once and stays.
-/

namespace ArosParadigm.VerdictRace

open Await VerdictRecord

/-- A call of `verify` or of `capture`. -/
inductive ProcessCall
  | verify
  | capture (eventType : String) (data : Json.JsObject ℚ)
      (validatorId : Option String)

/-- What a call returns. -/
inductive Answer
  | verdict (result : VerifyResult)
  | captured (snapshot : Snapshot)

def ProcessCall.program (env : Environment) (processId : String) :
    ProcessCall → Service Answer
  | .verify => do
      let result ← Pot.verify env processId
      return .verdict result
  | .capture eventType data validatorId => do
      let snapshot ←
        StateRecording.capture processId eventType data validatorId
      return .captured snapshot

abbrev Calls := Pool signature ServiceError Answer World

/-- The calls before their first steps. -/
def launch (env : Environment) (start : World) (processId : String)
    (requests : List ProcessCall) : Calls :=
  Pool.fresh start (requests.map (ProcessCall.program env processId))

/-- The call looks for a stored verdict. -/
def IsCheck : Call → Prop
  | .findVerdict _ => True
  | _ => False

theorem isCheck_iff (request : Call) :
    (match request with
      | .findVerdict _ => true
      | _ => false) = true ↔ IsCheck request := by
  cases request <;> simp [IsCheck]

instance : DecidablePred IsCheck := fun request =>
  decidable_of_iff _ (isCheck_iff request)

/-- The thread has looked for a stored verdict. -/
def Checked (thread : Thread signature ServiceError Answer) : Prop :=
  ∃ exchange ∈ thread.past, IsCheck exchange.request

instance : DecidablePred Checked := fun thread =>
  inferInstanceAs (Decidable (∃ exchange ∈ thread.past, _))

/-- The thread looks for a stored verdict next. -/
def AwaitsCheck :
    Option (Thread signature ServiceError Answer) → Prop
  | some ⟨_, .call request _ _⟩ => IsCheck request
  | _ => False

instance : DecidablePred AwaitsCheck
  | some ⟨_, .call request _ _⟩ =>
      inferInstanceAs (Decidable (IsCheck request))
  | some ⟨_, .done _⟩ => .isFalse id
  | some ⟨_, .fail _⟩ => .isFalse id
  | none => .isFalse id

/-- A call looks for the verdict before all others have looked or after it is
stored. -/
def CheckedAlone (processId : String) (calls : Calls) : Move → Prop
  | .answer index =>
      AwaitsCheck calls.threads[index]? →
        (calls.state.verdicts.find? processId).isSome ∨
          ∀ thread ∈ calls.threads, ¬ Checked thread
  | .reject _ => True

instance (processId : String) (calls : Calls) :
    DecidablePred (CheckedAlone processId calls)
  | .answer index => inferInstanceAs (Decidable
      (AwaitsCheck calls.threads[index]? →
        (calls.state.verdicts.find? processId).isSome ∨
          ∀ thread ∈ calls.threads, ¬ Checked thread))
  | .reject _ => .isTrue trivial

/-- The answers of the `verify` calls that have returned. -/
def verdictsOf (calls : Calls) : List VerifyResult :=
  calls.threads.filterMap fun thread =>
    match thread.rest with
    | .done (.verdict result) => some result
    | _ => none

/-- The calls of `verify` that returned agree. When there was no verdict
before, at most one snapshot has been appended, and one as soon as a call has
returned. -/
structure IssuedOnce (processId : String) (start : World)
    (calls : Calls) : Prop where
  agree : ∀ first ∈ verdictsOf calls, ∀ second ∈ verdictsOf calls,
    first.verified = second.verified ∧
      first.snapshotSequenceId = second.snapshotSequenceId
  once : start.verdicts.find? processId = none →
    ∃ added,
      verifications calls.state processId =
          verifications start processId ++ added ∧
        added.length ≤ 1 ∧ (verdictsOf calls ≠ [] → added.length = 1)

section Stages

variable (env : Environment) (processId : String)

/-- What `verify` answers with a row. -/
def answerOf (row : PotVerdict) : VerifyResult :=
  ⟨row.verified, row.reasons, row.snapshotSequenceId⟩

def saving (row : PotVerdict) : Service Answer :=
  .call (.saveVerdict row)
    (fun _ => .done (.verdict (answerOf row))) (.fail .storeRejected)

/-- The rest of a `verify` after its append. -/
def stamping (verified : Fin 2) (reasons : List String)
    (snapshot : Snapshot) : Service Answer :=
  .call .tick
    (fun timestamp => saving
      ⟨processId, verified, reasons, timestamp, snapshot.sequenceId⟩)
    (.fail .storeRejected)

def appending (verified : Fin 2) (reasons : List String) :
    Service Answer :=
  .call (.append "pot.verified"
      (.potVerified processId verified reasons))
    (stamping processId verified reasons) (.fail .storeRejected)

/-- The rest of a `verify` after its read of the captured events. -/
def replaying (captured : List String) : Service Answer :=
  .call .listSnapshots
    (fun snapshots =>
      let criteria := Pot.criteriaResult captured
        (NodeChain.reconstruct env.hasher snapshots).ok
      appending processId (Pot.verifiedOf criteria)
        (Pot.failureReasons criteria captured))
    (.fail .storeRejected)

/-- The rest of a `verify` after its check. -/
def judging : Option PotVerdict → Service Answer
  | some existing => .done (.verdict (answerOf existing))
  | none =>
      .call (.readCaptured processId) (replaying env processId)
        (.fail .storeRejected)

theorem program_verify :
    ProcessCall.verify.program env processId =
      .call (.findVerdict processId) (judging env processId)
        (.fail .storeRejected) := by
  change Program.call _ _ _ = Program.call _ _ _
  congr 1
  funext found
  cases found with
  | some existing =>
      rfl
  | none =>
      rfl

/-- A call that has not looked for the verdict yet, a capture, or a call that
failed. -/
inductive Apart : Service Answer → Prop
  | waiting : Apart (.call (.findVerdict processId)
      (judging env processId) (.fail .storeRejected))
  | capturing (eventType : String) (data : Json.JsObject ℚ)
      (validatorId : Option String) :
      Apart (ProcessCall.program env processId
        (.capture eventType data validatorId))
  | marking (eventType : String) (snapshot : Snapshot) :
      Apart (.call (.markCaptured processId eventType)
        (fun _ => .done (.captured snapshot)) (.fail .storeRejected))
  | captured (snapshot : Snapshot) : Apart (.done (.captured snapshot))
  | failed (reason : ServiceError) : Apart (.fail reason)

/-- A call that has found no verdict and has appended none. -/
inductive Judging : Service Answer → Prop
  | collecting : Judging (judging env processId none)
  | replaying (captured : List String) :
      Judging (replaying env processId captured)
  | appending (verified : Fin 2) (reasons : List String) :
      Judging (appending processId verified reasons)
  | failed (reason : ServiceError) : Judging (.fail reason)

/-- A call that has appended the snapshot of its verdict. -/
inductive Recording : Service Answer → Prop
  | stamping (verified : Fin 2) (reasons : List String)
      (snapshot : Snapshot) :
      Recording (stamping processId verified reasons snapshot)
  | saving (row : PotVerdict) (key : row.processId = processId) :
      Recording (saving row)
  | failed (reason : ServiceError) : Recording (.fail reason)

end Stages

section Steps

variable {env : Environment} {processId : String}
variable {request : Call} {next : request.Reply → Service Answer}
variable {rejected : Service Answer} {reply : request.Reply}
variable {now after : World}

/-- A call apart changes neither verdicts nor their snapshots, and stays apart
unless it looks for the verdict. -/
theorem Apart.step
    (apart : Apart env processId (.call request next rejected))
    (answered : machine env request now = some (reply, after)) :
    verifications after processId = verifications now processId ∧
      after.verdicts = now.verdicts ∧
      (Apart env processId (next reply) ∨
        IsCheck request ∧
          next reply =
            judging env processId (now.verdicts.find? processId)) := by
  generalize isRest : Program.call request next rejected = rest at apart
  cases apart with
  | waiting =>
      cases isRest
      cases answered
      exact ⟨rfl, rfl, Or.inr ⟨trivial, rfl⟩⟩
  | capturing eventType data validatorId =>
      cases isRest
      cases answered
      refine ⟨?_, rfl, Or.inl (.marking eventType _)⟩
      simp [verifications, IsVerification, StateRecording.buildPayload]
  | marking eventType snapshot =>
      cases isRest
      cases answered
      exact ⟨rfl, rfl, Or.inl (.captured snapshot)⟩
  | captured =>
      cases isRest
  | failed =>
      cases isRest

theorem Judging.step
    (judges : Judging env processId (.call request next rejected))
    (answered : machine env request now = some (reply, after)) :
    after.verdicts = now.verdicts ∧
      (Judging env processId (next reply) ∧
          verifications after processId = verifications now processId ∨
        Recording processId (next reply) ∧
          ∃ snapshot, verifications after processId =
            verifications now processId ++ [snapshot]) := by
  generalize isRest : Program.call request next rejected = rest at judges
  cases judges with
  | collecting =>
      cases isRest
      cases answered
      exact ⟨rfl, Or.inl ⟨.replaying _, rfl⟩⟩
  | replaying captured =>
      cases isRest
      cases answered
      exact ⟨rfl, Or.inl ⟨.appending _ _, rfl⟩⟩
  | appending verified reasons =>
      cases isRest
      cases answered
      refine ⟨rfl, Or.inr ⟨.stamping _ _ _, ?_⟩⟩
      exact ⟨now.nextSnapshot env "pot.verified"
        (.potVerified processId verified reasons),
        by simp [verifications, IsVerification]⟩
  | failed =>
      cases isRest

theorem Recording.step
    (records : Recording processId (.call request next rejected))
    (answered : machine env request now = some (reply, after)) :
    verifications after processId = verifications now processId ∧
      (Recording processId (next reply) ∧
          after.verdicts = now.verdicts ∨
        ∃ row, after.verdicts.find? processId = some row ∧
          next reply = .done (.verdict (answerOf row))) := by
  generalize isRest : Program.call request next rejected = rest at records
  cases records with
  | stamping verified reasons snapshot =>
      cases isRest
      cases answered
      exact ⟨rfl, Or.inl ⟨.saving _ rfl, rfl⟩⟩
  | saving row key =>
      cases isRest
      cases answered
      refine ⟨rfl, Or.inr ⟨row, ?_, rfl⟩⟩
      rw [World.saveVerdict_verdicts, ← key]
      exact Keyed.Table.find?_save_self _ row
  | failed =>
      cases isRest

theorem fails_of_rejected
    (stage : Apart env processId (.call request next rejected) ∨
      Judging env processId (.call request next rejected) ∨
      Recording processId (.call request next rejected)) :
    rejected = .fail .storeRejected := by
  generalize isRest : Program.call request next rejected = rest at stage
  rcases stage with apart | judges | records
  · cases apart <;> cases isRest <;> rfl
  · cases judges <;> cases isRest <;> rfl
  · cases records <;> cases isRest <;> rfl

end Steps

/-! ## The course of the verdict -/

/-- The call at `worker` has looked for the verdict, and the others are
apart. -/
structure Working (env : Environment) (processId : String)
    (worker : ℕ) (stage : Service Answer → Prop) (calls : Calls) :
    Prop where
  missing : calls.state.verdicts.find? processId = none
  works : ∃ thread, calls.threads[worker]? = some thread ∧
    Checked thread ∧ stage thread.rest
  others : ∀ (other : ℕ) (thread : Thread signature ServiceError Answer),
    other ≠ worker → calls.threads[other]? = some thread →
      Apart env processId thread.rest

/-- Nobody has looked for the verdict, one call works on it, or it is
stored. -/
inductive Course (env : Environment) (processId : String)
    (start : World) (calls : Calls) : Prop
  | unchecked (missing : calls.state.verdicts.find? processId = none)
      (same : verifications calls.state processId =
        verifications start processId)
      (apart : ∀ thread ∈ calls.threads, Apart env processId thread.rest)
  | judging (worker : ℕ)
      (working : Working env processId worker (Judging env processId)
        calls)
      (same : verifications calls.state processId =
        verifications start processId)
  | recording (worker : ℕ)
      (working : Working env processId worker (Recording processId)
        calls)
      (snapshot : Snapshot)
      (appended : verifications calls.state processId =
        verifications start processId ++ [snapshot])
  | issued (row : PotVerdict)
      (stored : calls.state.verdicts.find? processId = some row)
      (settled : ∀ thread ∈ calls.threads,
        Apart env processId thread.rest ∨
          thread.rest = .done (.verdict (answerOf row)))
      (appended : start.verdicts.find? processId = none →
        ∃ snapshot, verifications calls.state processId =
          verifications start processId ++ [snapshot])

section Course

variable {env : Environment} {processId : String} {start : World}
variable {calls next : Calls}

theorem course_launch (requests : List ProcessCall) :
    Course env processId start
      (launch env start processId requests) := by
  have apart : ∀ thread ∈ (launch env start processId requests).threads,
      Apart env processId thread.rest := by
    intro thread member
    obtain ⟨program, present, rfl⟩ := List.mem_map.mp member
    obtain ⟨request, _, rfl⟩ := List.mem_map.mp present
    cases request with
    | verify =>
        rw [program_verify]
        exact .waiting
    | capture eventType data validatorId =>
        exact .capturing eventType data validatorId
  cases found : start.verdicts.find? processId with
  | none =>
      exact .unchecked found rfl apart
  | some row =>
      refine .issued row found ?_ ?_
      · exact fun thread present => Or.inl (apart thread present)
      · intro missing
        rw [found] at missing
        cases missing

private theorem Working.set {worker : ℕ}
    {stage later : Service Answer → Prop}
    {moved : Thread signature ServiceError Answer} {after : World}
    (working : Working env processId worker stage calls)
    (missing : after.verdicts.find? processId = none)
    (isChecked : Checked moved) (atLater : later moved.rest) :
    Working env processId worker later
      ⟨after, calls.threads.set worker moved⟩ := by
  obtain ⟨_, ⟨thread, isWorker, _⟩, others⟩ := working
  obtain ⟨bound, _⟩ := List.getElem?_eq_some_iff.mp isWorker
  exact ⟨missing, ⟨moved, List.getElem?_set_self bound, isChecked,
    atLater⟩, Pool.forall_set_self others⟩

private theorem Working.set_other {worker index : ℕ}
    {stage : Service Answer → Prop}
    {moved : Thread signature ServiceError Answer} {after : World}
    (working : Working env processId worker stage calls)
    (different : index ≠ worker)
    (sameVerdicts : after.verdicts = calls.state.verdicts)
    (apart : Apart env processId moved.rest) :
    Working env processId worker stage
      ⟨after, calls.threads.set index moved⟩ := by
  obtain ⟨missing, ⟨thread, isWorker, works⟩, others⟩ := working
  have kept : (calls.threads.set index moved)[worker]? = some thread :=
    (List.getElem?_set_ne different).trans isWorker
  exact ⟨sameVerdicts ▸ missing, ⟨thread, kept, works⟩,
    Pool.forall_set_other others apart⟩

private theorem Working.alone {worker index : ℕ}
    {stage : Service Answer → Prop}
    (working : Working env processId worker stage calls)
    (alone : CheckedAlone processId calls (.answer index)) :
    ¬ AwaitsCheck calls.threads[index]? := by
  obtain ⟨missing, ⟨thread, isWorker, isChecked, _⟩, _⟩ := working
  intro awaits
  rcases alone awaits with stored | unchecked
  · rw [missing] at stored
    cases stored
  · exact unchecked thread (List.mem_of_getElem? isWorker) isChecked

theorem Checked.cons {past : List (Exchange signature)}
    {rest onward : Service Answer} (isChecked : Checked ⟨past, rest⟩)
    (exchange : Exchange signature) :
    Checked ⟨exchange :: past, onward⟩ := by
  obtain ⟨earlier, member, isCheck⟩ := isChecked
  exact ⟨earlier, List.mem_cons_of_mem _ member, isCheck⟩

section Moves

variable {index : ℕ} {past : List (Exchange signature)} {request : Call}
variable {nextOf : request.Reply → Service Answer}
variable {rejected : Service Answer} {reply : request.Reply}
variable {after : World}

private theorem Working.other_answer {worker : ℕ}
    {stage : Service Answer → Prop}
    (working : Working env processId worker stage calls)
    (alone : CheckedAlone processId calls (.answer index))
    (different : index ≠ worker)
    (found : calls.threads[index]? =
      some ⟨past, .call request nextOf rejected⟩)
    (answered : machine env request calls.state = some (reply, after)) :
    Working env processId worker stage
        ⟨after, calls.threads.set index
          ⟨⟨request, reply⟩ :: past, nextOf reply⟩⟩ ∧
      verifications after processId =
        verifications calls.state processId := by
  obtain ⟨sameSnapshots, sameVerdicts, apart | ⟨isCheck, _⟩⟩ :=
    (working.others index _ different found).step answered
  · exact ⟨working.set_other different sameVerdicts apart, sameSnapshots⟩
  · have awaits : AwaitsCheck calls.threads[index]? := by
      rw [found]
      exact isCheck
    exact absurd awaits (working.alone alone)

private theorem course_of_unchecked
    (missing : calls.state.verdicts.find? processId = none)
    (same : verifications calls.state processId =
      verifications start processId)
    (apart : ∀ thread ∈ calls.threads, Apart env processId thread.rest)
    (found : calls.threads[index]? =
      some ⟨past, .call request nextOf rejected⟩)
    (answered : machine env request calls.state = some (reply, after)) :
    Course env processId start
      ⟨after, calls.threads.set index
        ⟨⟨request, reply⟩ :: past, nextOf reply⟩⟩ := by
  obtain ⟨bound, _⟩ := List.getElem?_eq_some_iff.mp found
  obtain ⟨sameSnapshots, sameVerdicts, stays | ⟨isCheck, onward⟩⟩ :=
    (apart _ (List.mem_of_getElem? found)).step answered
  · refine .unchecked (sameVerdicts ▸ missing)
      (sameSnapshots.trans same) ?_
    intro thread present
    rcases List.mem_or_eq_of_mem_set present with old | rfl
    · exact apart thread old
    · exact stays
  · rw [missing] at onward
    refine .judging index ⟨sameVerdicts ▸ missing,
      ⟨_, List.getElem?_set_self bound,
        ⟨_, List.mem_cons_self, isCheck⟩, ?_⟩, ?_⟩
      (sameSnapshots.trans same)
    · exact onward ▸ Judging.collecting
    · apply Pool.forall_set_self
      intro other thread _ present
      exact apart thread (List.mem_of_getElem? present)

private theorem Working.judge
    (working : Working env processId index (Judging env processId) calls)
    (same : verifications calls.state processId =
      verifications start processId)
    (found : calls.threads[index]? =
      some ⟨past, .call request nextOf rejected⟩)
    (answered : machine env request calls.state = some (reply, after)) :
    Course env processId start
      ⟨after, calls.threads.set index
        ⟨⟨request, reply⟩ :: past, nextOf reply⟩⟩ := by
  have missing := working.missing
  obtain ⟨thread, isThread, isChecked, judges⟩ := working.works
  cases found.symm.trans isThread
  have laterChecked : Checked ⟨⟨request, reply⟩ :: past, nextOf reply⟩ :=
    isChecked.cons _
  obtain ⟨sameVerdicts, ⟨stays, sameSnapshots⟩ |
    ⟨records, snapshot, appended⟩⟩ := judges.step answered
  · exact .judging index (working.set (sameVerdicts ▸ missing)
      laterChecked stays) (sameSnapshots.trans same)
  · exact .recording index (working.set (sameVerdicts ▸ missing)
      laterChecked records) snapshot (same ▸ appended)

private theorem Working.record
    (working : Working env processId index (Recording processId) calls)
    {snapshot : Snapshot}
    (appended : verifications calls.state processId =
      verifications start processId ++ [snapshot])
    (found : calls.threads[index]? =
      some ⟨past, .call request nextOf rejected⟩)
    (answered : machine env request calls.state = some (reply, after)) :
    Course env processId start
      ⟨after, calls.threads.set index
        ⟨⟨request, reply⟩ :: past, nextOf reply⟩⟩ := by
  have missing := working.missing
  obtain ⟨thread, isThread, isChecked, records⟩ := working.works
  cases found.symm.trans isThread
  have laterChecked : Checked ⟨⟨request, reply⟩ :: past, nextOf reply⟩ :=
    isChecked.cons _
  obtain ⟨sameSnapshots, ⟨stays, sameVerdicts⟩ |
    ⟨row, stored, returned⟩⟩ := records.step answered
  · exact .recording index (working.set (sameVerdicts ▸ missing)
      laterChecked stays) snapshot (sameSnapshots.trans appended)
  · refine .issued row stored ?_
      fun _ => ⟨snapshot, sameSnapshots.trans appended⟩
    intro thread present
    obtain ⟨other, isOther⟩ := List.mem_iff_getElem?.mp present
    rcases Pool.getElem?_set_cases isOther with
      ⟨_, rfl⟩ | ⟨different, old⟩
    · exact Or.inr returned
    · exact Or.inl (working.others other thread different old)

private theorem Course.answer
    (course : Course env processId start calls)
    (alone : CheckedAlone processId calls (.answer index))
    (found : calls.threads[index]? =
      some ⟨past, .call request nextOf rejected⟩)
    (answered : machine env request calls.state = some (reply, after)) :
    Course env processId start
      ⟨after, calls.threads.set index
        ⟨⟨request, reply⟩ :: past, nextOf reply⟩⟩ := by
  cases course with
  | unchecked missing same apart =>
      exact course_of_unchecked missing same apart found answered
  | judging worker working same =>
      by_cases isWorker : index = worker
      · subst isWorker
        exact working.judge same found answered
      · obtain ⟨stays, sameSnapshots⟩ :=
          working.other_answer alone isWorker found answered
        exact .judging worker stays (sameSnapshots.trans same)
  | recording worker working snapshot appended =>
      by_cases isWorker : index = worker
      · subst isWorker
        exact working.record appended found answered
      · obtain ⟨stays, sameSnapshots⟩ :=
          working.other_answer alone isWorker found answered
        exact .recording worker stays snapshot
          (sameSnapshots.trans appended)
  | issued row stored settled appended =>
      rcases settled _ (List.mem_of_getElem? found) with apart | returned
      swap
      · cases returned
      obtain ⟨sameSnapshots, sameVerdicts, onward⟩ :=
        apart.step answered
      refine .issued row (sameVerdicts ▸ stored) ?_
        (sameSnapshots ▸ appended)
      intro thread present
      rcases List.mem_or_eq_of_mem_set present with old | rfl
      · exact settled thread old
      · rcases onward with stays | ⟨_, answers⟩
        · exact Or.inl stays
        · rw [stored] at answers
          exact Or.inr answers

private theorem Course.reject
    (course : Course env processId start calls)
    (found : calls.threads[index]? =
      some ⟨past, .call request nextOf rejected⟩) :
    Course env processId start
      ⟨calls.state, calls.threads.set index ⟨past, rejected⟩⟩ := by
  have member := List.mem_of_getElem? found
  cases course with
  | unchecked missing same apart =>
      have failed := fails_of_rejected (Or.inl (apart _ member))
      refine .unchecked missing same ?_
      intro thread present
      rcases List.mem_or_eq_of_mem_set present with old | rfl
      · exact apart thread old
      · exact failed ▸ Apart.failed _
  | judging worker working same =>
      by_cases isWorker : index = worker
      · subst isWorker
        obtain ⟨thread, isThread, isChecked, judges⟩ := working.works
        cases found.symm.trans isThread
        have failed := fails_of_rejected (Or.inr (Or.inl judges))
        exact .judging index (working.set working.missing isChecked
          (failed ▸ Judging.failed _)) same
      · have failed := fails_of_rejected
          (Or.inl (working.others index _ isWorker found))
        exact .judging worker (working.set_other isWorker rfl
          (failed ▸ Apart.failed _)) same
  | recording worker working snapshot appended =>
      by_cases isWorker : index = worker
      · subst isWorker
        obtain ⟨thread, isThread, isChecked, records⟩ := working.works
        cases found.symm.trans isThread
        have failed : rejected = .fail .storeRejected :=
          @fails_of_rejected env _ _ _ _ (Or.inr (Or.inr records))
        exact .recording index (working.set working.missing isChecked
          (failed ▸ Recording.failed _)) snapshot appended
      · have failed := fails_of_rejected
          (Or.inl (working.others index _ isWorker found))
        exact .recording worker (working.set_other isWorker rfl
          (failed ▸ Apart.failed _)) snapshot appended
  | issued row stored settled appended =>
      rcases settled _ member with apart | returned
      swap
      · cases returned
      have failed := fails_of_rejected (Or.inl apart)
      refine .issued row stored ?_ appended
      intro thread present
      rcases List.mem_or_eq_of_mem_set present with old | rfl
      · exact settled thread old
      · exact Or.inl (failed ▸ Apart.failed _)

end Moves

/-- The step lemma: a move with a lone check keeps the course. -/
theorem Course.move {move : Move}
    (course : Course env processId start calls)
    (alone : CheckedAlone processId calls move)
    (moved : calls.move (machine env) move = some next) :
    Course env processId start next := by
  cases move with
  | answer index =>
      obtain ⟨past, request, nextOf, rejected, reply, after, found,
        answered, rfl⟩ := Pool.exists_of_move_answer moved
      exact course.answer alone found answered
  | reject index =>
      obtain ⟨past, request, nextOf, rejected, found, rfl⟩ :=
        Pool.exists_of_move_reject moved
      exact course.reject found

theorem Course.stored_move {move : Move} {row : PotVerdict}
    (course : Course env processId start calls)
    (stored : calls.state.verdicts.find? processId = some row)
    (moved : calls.move (machine env) move = some next) :
    next.state.verdicts.find? processId = some row := by
  have settled : ∀ thread ∈ calls.threads,
      Apart env processId thread.rest ∨
        ∃ answer, thread.rest = .done answer := by
    cases course with
    | unchecked missing _ _ =>
        rw [missing] at stored
        cases stored
    | judging _ working _ =>
        rw [working.missing] at stored
        cases stored
    | recording _ working _ _ =>
        rw [working.missing] at stored
        cases stored
    | issued _ _ settled _ =>
        intro thread member
        exact (settled thread member).imp id fun returned => ⟨_, returned⟩
  cases move with
  | answer index =>
      obtain ⟨past, request, nextOf, rejected, reply, after, found,
        answered, rfl⟩ := Pool.exists_of_move_answer moved
      rcases settled _ (List.mem_of_getElem? found) with
        apart | ⟨_, returned⟩
      · obtain ⟨_, sameVerdicts, _⟩ := apart.step answered
        exact sameVerdicts ▸ stored
      · cases returned
  | reject index =>
      obtain ⟨past, request, nextOf, rejected, found, rfl⟩ :=
        Pool.exists_of_move_reject moved
      exact stored

/-- The run lemma: moves with lone checks keep the course. -/
theorem course_of_reaches {later : Calls}
    (course : Course env processId start calls)
    (reached : Reaches (machine env) (CheckedAlone processId) calls
      later) :
    Course env processId start later := by
  induction reached with
  | refl =>
      exact course
  | tail move _ alone moved inductionHypothesis =>
      exact inductionHypothesis.move alone moved

theorem stored_of_reaches {later : Calls} {row : PotVerdict}
    (course : Course env processId start calls)
    (stored : calls.state.verdicts.find? processId = some row)
    (reached : Reaches (machine env) (CheckedAlone processId) calls
      later) :
    later.state.verdicts.find? processId = some row := by
  induction reached with
  | refl =>
      exact stored
  | tail move earlier alone moved inductionHypothesis =>
      have course := course_of_reaches course earlier
      exact course.stored_move inductionHypothesis moved

theorem mem_verdictsOf_iff (result : VerifyResult) :
    result ∈ verdictsOf calls ↔
      ∃ thread ∈ calls.threads,
        thread.rest = .done (.verdict result) := by
  unfold verdictsOf
  rw [List.mem_filterMap]
  constructor
  · rintro ⟨⟨past, rest⟩, member, isAnswer⟩
    refine ⟨_, member, ?_⟩
    rcases rest with (answer | snapshot) | reason | _
    · cases isAnswer
      rfl
    · cases isAnswer
    · cases isAnswer
    · cases isAnswer
  · rintro ⟨thread, member, returned⟩
    exact ⟨thread, member, by rw [returned]⟩

private theorem Apart.unanswered {rest : Service Answer}
    (apart : Apart env processId rest) (result : VerifyResult) :
    rest ≠ .done (.verdict result) := by
  intro returned
  rw [returned] at apart
  cases apart

private theorem Working.unanswered {worker : ℕ}
    {stage : Service Answer → Prop}
    (working : Working env processId worker stage calls)
    (pending : ∀ result, ¬ stage (.done (.verdict result))) :
    verdictsOf calls = [] := by
  apply List.eq_nil_iff_forall_not_mem.mpr
  intro result member
  obtain ⟨thread, present, returned⟩ := (mem_verdictsOf_iff _).mp member
  obtain ⟨index, found⟩ := List.mem_iff_getElem?.mp present
  by_cases isWorker : index = worker
  · obtain ⟨known, isKnown, _, works⟩ := working.works
    rw [← isWorker, found] at isKnown
    cases isKnown
    rw [returned] at works
    exact pending result works
  · have apart := working.others index thread isWorker found
    exact apart.unanswered result returned

theorem Course.issuedOnce
    (course : Course env processId start calls) :
    IssuedOnce processId start calls := by
  have unanswered : ∀ added, verdictsOf calls = [] →
      verifications calls.state processId =
        verifications start processId ++ added →
      added.length ≤ 1 → IssuedOnce processId start calls := by
    intro added nobody appended few
    refine ⟨?_, fun _ => ⟨added, appended, few, fun some_ => ?_⟩⟩
    · intro first member
      rw [nobody] at member
      cases member
    · exact absurd nobody some_
  cases course with
  | unchecked _ same apart =>
      have nobody : verdictsOf calls = [] := by
        apply List.eq_nil_iff_forall_not_mem.mpr
        intro result member
        obtain ⟨thread, present, returned⟩ :=
          (mem_verdictsOf_iff _).mp member
        exact (apart thread present).unanswered result returned
      exact unanswered [] nobody (by rw [same, List.append_nil])
        (by decide)
  | judging worker working same =>
      have nobody := working.unanswered fun result judges => by
        cases judges
      exact unanswered [] nobody (by rw [same, List.append_nil])
        (by decide)
  | recording worker working snapshot appended =>
      have nobody := working.unanswered fun result records => by
        cases records
      exact unanswered [snapshot] nobody appended (by simp)
  | issued row stored settled appended =>
      have answered : ∀ result ∈ verdictsOf calls,
          result = answerOf row := by
        intro result member
        obtain ⟨thread, present, returned⟩ :=
          (mem_verdictsOf_iff _).mp member
        rcases settled thread present with apart | isAnswer
        · exact absurd returned (apart.unanswered result)
        · rw [returned] at isAnswer
          cases isAnswer
          rfl
      constructor
      · intro first isFirst second isSecond
        rw [answered first isFirst, answered second isSecond]
        exact ⟨rfl, rfl⟩
      · intro missing
        obtain ⟨snapshot, more⟩ := appended missing
        exact ⟨[snapshot], more, by simp, fun _ => rfl⟩

end Course

/-- When every call looks for the verdict before all others have looked or
after it is stored, the verdict is issued once and stays. -/
theorem verdict_issued_once {env : Environment} {processId : String}
    {start : World} {requests : List ProcessCall} {calls : Calls}
    (reached : Reaches (machine env) (CheckedAlone processId)
      (launch env start processId requests) calls) :
    IssuedOnce processId start calls ∧
      ∀ row, calls.state.verdicts.find? processId = some row →
        ∀ later, Reaches (machine env) (CheckedAlone processId) calls
            later →
          later.state.verdicts.find? processId = some row := by
  have course := course_of_reaches (course_launch requests) reached
  refine ⟨course.issuedOnce, ?_⟩
  intro row stored later onward
  exact stored_of_reaches course stored onward

/-- The captures of a complete record between two calls of `verify`. -/
def racingRequests : List ProcessCall :=
  [.verify, .verify] ++
    requiredBeforeVerdict.map fun eventType =>
      .capture eventType [] none

/-- The first call has read no event, and the second one has judged the
complete record and returned. -/
def judgedTwice : Calls :=
  (launch .plain .initial "p-1" racingRequests).play (machine .plain)
    (fun _ _ => True)
    ([0, 0, 0, 2, 2, 3, 3, 4, 4, 5, 5, 1, 1, 1, 1, 1, 1].map .answer)

/-- The first call has recorded its verdict over that of the second one. -/
def overwritten : Calls :=
  judgedTwice.play (machine .plain) (fun _ _ => True)
    ([0, 0, 0].map .answer)

/-- The second call is answered 1 and the first one 0, and the stored row
changes from 1 to 0. -/
theorem racing_verdict_overwritten :
    Reaches (machine .plain) (fun _ _ => True)
        (launch .plain .initial "p-1" racingRequests) judgedTwice ∧
      Reaches (machine .plain) (fun _ _ => True) judgedTwice
        overwritten ∧
      overwritten.Returned ∧
      (judgedTwice.state.verdicts.find? "p-1").map
        PotVerdict.verified = some 1 ∧
      (overwritten.state.verdicts.find? "p-1").map
        PotVerdict.verified = some 0 ∧
      (verdictsOf overwritten).map VerifyResult.verified = [0, 1] ∧
      (verifications overwritten.state "p-1").length = 2 := by
  refine ⟨reaches_play _ .refl, reaches_play _ .refl, ?_⟩
  decide +kernel

/-- The second call looks for the verdict after the first one has recorded
it. -/
def orderedCalls : Calls :=
  (launch .plain .initial "p-1" racingRequests).play (machine .plain)
    (CheckedAlone "p-1")
    ([0, 0, 0, 2, 2, 3, 3, 4, 4, 5, 5, 0, 0, 0, 1].map .answer)

theorem issuedOnce_orderedCalls :
    IssuedOnce "p-1" .initial orderedCalls :=
  (verdict_issued_once (reaches_play _ .refl)).1

end ArosParadigm.VerdictRace
