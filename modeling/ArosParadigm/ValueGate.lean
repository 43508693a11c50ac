import ArosParadigm.Commission
import ArosParadigm.Emission
import ArosParadigm.Library.Interleaving

/-!
# The value gate

Calls of the service API run concurrently, interleaved at their awaits. The
joint invariant ties the captured sets, the verdict rows and the participation
arrays to NodeChain; from it every mint and every payment is preceded by the
full record of a process and its positive verdict.
-/

namespace ArosParadigm

open Await

inductive ApiCall where
  | capture (processId eventType : String) (data : Json.JsObject ℚ)
      (validatorId : Option String)
  | verify (processId : String)
  | mint (processId : String) (amount : ℚ)
  | emit (processId : String) (amount : ℚ)
  | accrue (epochNumber fee : ℚ) (participants : List Participation)
  | finalizeEpoch (epochNumber : ℚ)
  | register (id type : String)
  | recordExecution (id : String) (success : Bool)

namespace ApiCall

/-- The method behind a call; its result is dropped. -/
def program (env : Environment) : ApiCall → Service Unit
  | capture processId eventType data validatorId => do
      let _ ← StateRecording.capture processId eventType data validatorId
      return ()
  | verify processId => do
      let _ ← Pot.verify env processId
      return ()
  | mint processId amount => do
      let _ ← Emission.mint processId amount
      return ()
  | emit processId amount => do
      let _ ← Emission.emit processId amount
      return ()
  | accrue epochNumber fee participants => do
      let _ ← Commission.accrue epochNumber fee participants
      return ()
  | finalizeEpoch epochNumber => do
      let _ ← Commission.finalizeEpoch env epochNumber
      return ()
  | register id type => do
      let _ ← Nodes.register id type
      return ()
  | recordExecution id success => do
      let _ ← Nodes.recordExecution id success
      return ()

/-- The process that a call mints for. -/
def mintsFor : ApiCall → Option String
  | mint processId _ => some processId
  | emit processId _ => some processId
  | _ => none

/-- The epoch that a call pays out. -/
def paysOut : ApiCall → Option ℚ
  | finalizeEpoch epochNumber => some epochNumber
  | _ => none

end ApiCall

namespace World

/-- The snapshot captures an event of the process. -/
def Captures (snapshot : Snapshot) (processId eventType : String) :
    Prop :=
  snapshot.eventType = eventType ∧
    ∃ data validatorId, snapshot.payload =
      .captured processId data validatorId

/-- All required events of the process were captured, and after them PoT
recorded its confirmation. -/
def Evidence (world : World) (processId : String) : Prop :=
  ∃ verdict ∈ world.history,
    verdict.eventType = "pot.verified" ∧
      verdict.payload = .potVerified processId 1 [] ∧
      ∀ eventType ∈ requiredBeforeVerdict, ∃ captured ∈ world.history,
        Captures captured processId eventType ∧
          captured.sequenceId < verdict.sequenceId

/-- The participation was accrued into the epoch. -/
def Accrued (world : World) (epochNumber : ℚ)
    (participation : Participation) : Prop :=
  ∃ array ∈ world.arrays, array.epoch = epochNumber ∧
    participation ∈ array.items

/-- NodeChain and the participation arrays only grow. -/
structure Grows (before after : World) : Prop where
  history : before.history <+: after.history
  arrays : ∀ (reference : ℕ) array,
    before.arrays[reference]? = some array →
      ∃ later, after.arrays[reference]? = some later ∧
        later.epoch = array.epoch ∧ array.items <+: later.items

theorem Grows.refl (world : World) : world.Grows world :=
  ⟨List.prefix_rfl, fun _ array found =>
    ⟨array, found, rfl, List.prefix_rfl⟩⟩

theorem Grows.trans {first second third : World}
    (earlier : first.Grows second) (later : second.Grows third) :
    first.Grows third := by
  refine ⟨earlier.history.trans later.history, ?_⟩
  intro reference array found
  obtain ⟨middle, foundMiddle, sameEpoch, grown⟩ :=
    earlier.arrays reference array found
  obtain ⟨last, foundLast, sameLast, grownLast⟩ :=
    later.arrays reference middle foundMiddle
  exact ⟨last, foundLast, sameLast.trans sameEpoch,
    grown.trans grownLast⟩

theorem Grows.mem {before after : World} (grows : before.Grows after)
    {snapshot : Snapshot} (member : snapshot ∈ before.history) :
    snapshot ∈ after.history :=
  grows.history.subset member

theorem Evidence.later {before after : World} {processId : String}
    (evidence : before.Evidence processId)
    (grows : before.Grows after) : after.Evidence processId := by
  obtain ⟨verdict, member, isVerdict, payload, captured⟩ := evidence
  refine ⟨verdict, grows.mem member, isVerdict, payload, ?_⟩
  intro eventType required
  obtain ⟨snapshot, inside, captures, earlier⟩ :=
    captured eventType required
  exact ⟨snapshot, grows.mem inside, captures, earlier⟩

theorem Accrued.later {before after : World} {epochNumber : ℚ}
    {participation : Participation}
    (accrued : before.Accrued epochNumber participation)
    (grows : before.Grows after) :
    after.Accrued epochNumber participation := by
  obtain ⟨array, member, epoch, inside⟩ := accrued
  obtain ⟨reference, found⟩ := List.mem_iff_getElem?.mp member
  obtain ⟨later, foundLater, sameEpoch, grown⟩ :=
    grows.arrays reference array found
  exact ⟨later, List.mem_of_getElem? foundLater,
    sameEpoch.trans epoch, grown.subset inside⟩

/-- The joint invariant of the four places that hold evidence. -/
structure Evident (world : World) : Prop where
  captured : ∀ processId eventType,
    eventType ∈ world.captured processId →
      ∃ snapshot ∈ world.history, Captures snapshot processId eventType
  verdicts : ∀ processId row,
    world.verdicts.find? processId = some row → row.verified = 1 →
      world.Evidence processId
  arrays : ∀ epochNumber reference,
    world.participation epochNumber = some reference →
      ∃ array, world.arrays[reference]? = some array ∧
        array.epoch = epochNumber

theorem evident_initial : initial.Evident := by
  refine ⟨?_, ?_, ?_⟩
  · intro processId eventType member
    cases member
  · intro processId row found
    cases found
  · intro epochNumber reference found
    cases found

end World

/-- What a caller has to know before a call is answered. -/
def Allowed (caller : ApiCall) (now : World) : Call → Prop
  | .markCaptured processId eventType =>
      ∃ snapshot ∈ now.history,
        World.Captures snapshot processId eventType
  | .saveVerdict row => row.verified = 1 → now.Evidence row.processId
  | .saveLedger _ => ∀ processId, caller.mintsFor = some processId →
      now.Evidence processId
  | .append _ (.paymentReceived nodeId _ _) => ∀ epochNumber,
      caller.paysOut = some epochNumber →
        ∃ processId, now.Accrued epochNumber ⟨processId, nodeId⟩ ∧
          now.Evidence processId
  | _ => True

/-- Views that a call does not touch. -/
private theorem evident_of_same {before after : World}
    (evident : before.Evident)
    (history : after.history = before.history)
    (captured : after.captured = before.captured)
    (verdicts : after.verdicts = before.verdicts)
    (participation : after.participation = before.participation)
    (arrays : after.arrays = before.arrays) :
    after.Evident ∧ before.Grows after := by
  have grows : before.Grows after := by
    refine ⟨by rw [history], ?_⟩
    intro reference array found
    exact ⟨array, by rwa [arrays], rfl, List.prefix_rfl⟩
  refine ⟨⟨?_, ?_, ?_⟩, grows⟩
  · intro processId eventType member
    rw [captured] at member
    rw [history]
    exact evident.captured processId eventType member
  · intro processId row found verified
    rw [verdicts] at found
    exact (evident.verdicts processId row found verified).later grows
  · intro epochNumber reference found
    rw [participation] at found
    rw [arrays]
    exact evident.arrays epochNumber reference found

theorem evident_append {env : Environment} {before : World}
    (evident : before.Evident) (eventType : String) (payload : Payload) :
    (before.append env eventType payload).Evident ∧
      before.Grows (before.append env eventType payload) := by
  have grows : before.Grows (before.append env eventType payload) := by
    refine ⟨?_, ?_⟩
    · rw [World.history_append]
      exact List.prefix_append _ _
    · intro reference array found
      exact ⟨array, found, rfl, List.prefix_rfl⟩
  refine ⟨⟨?_, ?_, evident.arrays⟩, grows⟩
  · intro processId captured member
    obtain ⟨snapshot, inside, captures⟩ :=
      evident.captured processId captured member
    exact ⟨snapshot, grows.mem inside, captures⟩
  · intro processId row found verified
    exact (evident.verdicts processId row found verified).later grows

theorem evident_mark {before : World} (evident : before.Evident)
    {processId eventType : String}
    (recorded : ∃ snapshot ∈ before.history,
      World.Captures snapshot processId eventType) :
    (before.mark processId eventType).Evident ∧
      before.Grows (before.mark processId eventType) := by
  have grows : before.Grows (before.mark processId eventType) :=
    ⟨List.prefix_rfl, fun _ array found =>
      ⟨array, found, rfl, List.prefix_rfl⟩⟩
  refine ⟨⟨?_, ?_, evident.arrays⟩, grows⟩
  · intro other captured member
    rw [World.mark_captured] at member
    by_cases same : other = processId
    · subst same
      rw [Function.update_self] at member
      split at member
      · exact evident.captured other captured member
      · rcases List.mem_append.mp member with old | new
        · exact evident.captured other captured old
        · rw [List.mem_singleton.mp new]
          exact recorded
    · rw [Function.update_of_ne same] at member
      exact evident.captured other captured member
  · intro other row found verified
    exact (evident.verdicts other row found verified).later grows

theorem evident_saveVerdict {before : World} (evident : before.Evident)
    {row : PotVerdict}
    (confirmed : row.verified = 1 → before.Evidence row.processId) :
    (before.saveVerdict row).Evident ∧
      before.Grows (before.saveVerdict row) := by
  have grows : before.Grows (before.saveVerdict row) :=
    ⟨List.prefix_rfl, fun _ array found =>
      ⟨array, found, rfl, List.prefix_rfl⟩⟩
  refine ⟨⟨evident.captured, ?_, evident.arrays⟩, grows⟩
  intro processId found isFound verified
  rw [World.saveVerdict_verdicts, Keyed.Table.find?_save] at isFound
  split at isFound
  · next same =>
      cases isFound
      rw [← same]
      exact (confirmed verified).later grows
  · exact (evident.verdicts processId found isFound verified).later grows

theorem evident_push {before : World} (evident : before.Evident)
    (epochNumber : ℚ) (entries : List Participation) :
    (before.push epochNumber entries).Evident ∧
      before.Grows (before.push epochNumber entries) := by
  have grows : before.Grows (before.push epochNumber entries) := by
    refine ⟨List.prefix_rfl, ?_⟩
    intro reference array found
    rw [World.push_arrays]
    cases before.participation epochNumber with
    | none =>
        obtain ⟨bound, _⟩ := List.getElem?_eq_some_iff.mp found
        exact ⟨array, by rwa [List.getElem?_append_left bound], rfl,
          List.prefix_rfl⟩
    | some stored =>
        simp only [List.getElem?_modify, found, Option.map_eq_map,
          Option.map_some]
        by_cases same : stored = reference
        · exact ⟨{ array with items := array.items ++ entries },
            by rw [if_pos same], rfl, List.prefix_append _ _⟩
        · exact ⟨array, by rw [if_neg same], rfl, List.prefix_rfl⟩
  refine ⟨⟨evident.captured, ?_, ?_⟩, grows⟩
  · intro processId row found verified
    exact (evident.verdicts processId row found verified).later grows
  · intro other reference found
    have kept : ∀ {reference : ℕ} {array : ParticipationArray},
        before.arrays[reference]? = some array →
          array.epoch = other →
          ∃ later : ParticipationArray,
            (before.push epochNumber entries).arrays[reference]? =
              some later ∧ later.epoch = other := by
      intro reference array foundArray isEpoch
      obtain ⟨later, foundLater, sameEpoch, _⟩ :=
        grows.arrays reference array foundArray
      exact ⟨later, foundLater, sameEpoch.trans isEpoch⟩
    rw [World.push_participation] at found
    by_cases same : other = epochNumber
    · subst same
      rw [Function.update_self] at found
      cases stored : before.participation other with
      | some known =>
          rw [stored] at found
          cases found
          obtain ⟨array, foundArray, isEpoch⟩ :=
            evident.arrays other known stored
          exact kept foundArray isEpoch
      | none =>
          rw [stored] at found
          cases found
          refine ⟨⟨other, entries⟩, ?_, rfl⟩
          rw [World.push_arrays, stored]
          simp
    · rw [Function.update_of_ne same] at found
      obtain ⟨array, foundArray, isEpoch⟩ :=
        evident.arrays other reference found
      exact kept foundArray isEpoch

theorem evident_forget {before : World} (evident : before.Evident)
    (epochNumber : ℚ) :
    (before.forget epochNumber).Evident ∧
      before.Grows (before.forget epochNumber) := by
  have grows : before.Grows (before.forget epochNumber) :=
    ⟨List.prefix_rfl, fun _ array found =>
      ⟨array, found, rfl, List.prefix_rfl⟩⟩
  refine ⟨⟨evident.captured, ?_, ?_⟩, grows⟩
  · intro processId row found verified
    exact (evident.verdicts processId row found verified).later grows
  · intro other reference found
    rw [World.forget_participation] at found
    by_cases same : other = epochNumber
    · rw [same, Function.update_self] at found
      cases found
    · rw [Function.update_of_ne same] at found
      exact evident.arrays other reference found

/-- The step lemma: an allowed call keeps the joint invariant. -/
theorem evident_step {env : Environment} {caller : ApiCall}
    {request : Call} {before after : World} {reply : request.Reply}
    (evident : before.Evident) (allowed : Allowed caller before request)
    (answered : machine env request before = some (reply, after)) :
    after.Evident ∧ before.Grows after := by
  cases request with
  | append eventType payload =>
      cases answered
      exact evident_append evident eventType payload
  | saveVerdict row =>
      cases answered
      exact evident_saveVerdict evident allowed
  | markCaptured processId eventType =>
      cases answered
      exact evident_mark evident allowed
  | pushParticipation epochNumber entries =>
      cases answered
      exact evident_push evident epochNumber entries
  | deleteParticipation epochNumber =>
      cases answered
      exact evident_forget evident epochNumber
  | claimInitialization =>
      obtain ⟨_, rfl⟩ := eq_of_claimInitialization answered
      exact evident_of_same evident rfl rfl rfl rfl rfl
  | awaitInitialization =>
      obtain rfl := eq_of_awaitInitialization answered
      exact evident_of_same evident rfl rfl rfl rfl rfl
  | _ =>
      cases answered
      exact evident_of_same evident rfl rfl rfl rfl rfl

/-- Others only grow the evidence; an own call was allowed. -/
def gate (caller : ApiCall) : Contract signature World Unit where
  permitted := fun _ _ _ => True
  rely := World.Grows
  rely_refl := World.Grows.refl
  rely_trans := World.Grows.trans
  guarantee := fun request _ before _ after =>
    before.Grows after ∧ Allowed caller before request

section Callers

variable {env : Environment} {caller : ApiCall}
variable {result : Type}
variable {past : List (Exchange signature)} {start : World}

/-- A program is gated when it is safe under the contract of its caller. -/
abbrev Gated (env : Environment) (caller : ApiCall)
    (post : result → World → Prop) (program : Service result)
    (past : List (Exchange signature)) (start : World) : Prop :=
  Safe (machine env) World.Evident (gate caller)
    (fun value _ _ now => post value now) program past () start

theorem gated_ask {request : Call} {post : result → World → Prop}
    {continuation : request.Reply → Service result}
    (allowed : ∀ now, now.Evident → start.Grows now →
      Allowed caller now request)
    (onward : ∀ now reply after, now.Evident → start.Grows now →
      machine env request now = some (reply, after) → now.Grows after →
      after.Evident →
      Gated env caller post (continuation reply)
        (⟨request, reply⟩ :: past) after) :
    Gated env caller post (ask request >>= continuation) past start := by
  apply Safe.perform_bind
  intro now evident grows _ reply after answered
  obtain ⟨evidentAfter, growsAfter⟩ :=
    evident_step evident (allowed now evident grows) answered
  exact ⟨evidentAfter, (), ⟨growsAfter, allowed now evident grows⟩,
    onward now reply after evident grows answered growsAfter
      evidentAfter⟩

/-- A program whose calls are all allowed from now on is gated. -/
theorem gated_of_uses {permitted : Call → Prop}
    {program : Service result} (uses : Uses permitted program)
    (allowed : ∀ request, permitted request → ∀ now, start.Grows now →
      Allowed caller now request) :
    Gated env caller (fun _ _ => True) program past start := by
  induction program generalizing past start with
  | done value =>
      intro _ _ _
      trivial
  | fail reason =>
      trivial
  | call request next rejected nextHypothesis rejectedHypothesis =>
      obtain ⟨isPermitted, nextUses, rejectedUses⟩ := uses
      intro now evident grows
      have allowedNow := allowed request isPermitted now grows
      refine ⟨?_, rejectedHypothesis rejectedUses
        fun other isOther later onward =>
          allowed other isOther later (grows.trans onward)⟩
      intro _ reply after answered
      obtain ⟨evidentAfter, growsAfter⟩ :=
        evident_step evident allowedNow answered
      exact ⟨evidentAfter, (), ⟨growsAfter, allowedNow⟩,
        nextHypothesis reply (nextUses reply)
          fun other isOther later onward =>
            allowed other isOther later
              ((grows.trans growsAfter).trans onward)⟩

private theorem gated_grows {program : Service result} {base : World}
    {post : result → World → Prop}
    (gated : Gated env caller post program past start)
    (sofar : base.Grows start) :
    Gated env caller (fun value now => post value now ∧ base.Grows now)
      program past start := by
  induction program generalizing past start with
  | done value =>
      intro now evident grows
      exact ⟨gated now evident grows, sofar.trans grows⟩
  | fail reason =>
      trivial
  | call request next rejected nextHypothesis rejectedHypothesis =>
      intro now evident grows
      obtain ⟨answered, otherwise⟩ := gated now evident grows
      refine ⟨?_, rejectedHypothesis otherwise (sofar.trans grows)⟩
      intro permitted reply after answer
      obtain ⟨evidentAfter, left, ensured, onward⟩ :=
        answered permitted reply after answer
      exact ⟨evidentAfter, left, ensured, nextHypothesis reply onward
        ((sofar.trans grows).trans ensured.1)⟩

theorem gated_bind {middle : Type} {first : Service middle}
    {continuation : middle → Service result}
    {between : middle → World → Prop} {post : result → World → Prop}
    (evident : start.Evident)
    (gated : Gated env caller between first past start)
    (onward : ∀ value past now, now.Evident → start.Grows now →
      between value now →
      Gated env caller post (continuation value) past now) :
    Gated env caller post (first >>= continuation) past start := by
  apply Safe.bind _ evident
  apply (gated_grows gated (World.Grows.refl start)).weaken
  intro value past _ now evidentNow ⟨holds, grows⟩
  exact onward value past now evidentNow grows holds

/-- A gated program whose result is dropped. -/
theorem gated_drop {program : Service result} (evident : start.Evident)
    {between : result → World → Prop}
    (gated : Gated env caller between program past start) :
    Gated env caller (fun _ _ => True)
      (do let _ ← program; return ()) past start :=
  gated_bind evident gated fun _ _ _ _ _ _ _ _ _ => trivial

end Callers

section Records

variable {env : Environment} {caller : ApiCall}
variable {past : List (Exchange signature)} {start : World}

theorem gated_capture (processId eventType : String)
    (data : Json.JsObject ℚ) (validatorId : Option String) :
    Gated env caller (fun _ _ => True)
      (StateRecording.capture processId eventType data validatorId) past
      start := by
  apply gated_ask
  · intro _ _ _
    trivial
  · intro now snapshot after _ _ answered _ _
    cases answered
    have recorded : ∃ snapshot ∈ (now.append env eventType
        (StateRecording.buildPayload processId data validatorId)).history,
        World.Captures snapshot processId eventType := by
      refine ⟨now.nextSnapshot env eventType
        (StateRecording.buildPayload processId data validatorId),
        ?_, rfl, _, _, rfl⟩
      simp
    apply gated_ask
    · intro later _ grows
      obtain ⟨snapshot, member, captures⟩ := recorded
      exact ⟨snapshot, grows.mem member, captures⟩
    · intro _ _ _ _ _ _ _ _ _ _ _
      trivial

theorem evidence_append {now : World} {processId : String}
    (complete : ∀ eventType ∈ requiredBeforeVerdict,
      ∃ snapshot ∈ now.history,
        World.Captures snapshot processId eventType) :
    (now.append env "pot.verified"
      (.potVerified processId 1 [])).Evidence processId := by
  refine ⟨now.nextSnapshot env "pot.verified"
    (.potVerified processId 1 []), by simp, rfl, rfl, ?_⟩
  intro eventType required
  obtain ⟨snapshot, member, captures⟩ := complete eventType required
  exact ⟨snapshot, by simp [member], captures,
    World.lt_nextSnapshot env now _ _ member⟩

theorem gated_verify (processId : String) :
    Gated env caller (fun _ _ => True) (Pot.verify env processId) past
      start := by
  apply gated_ask
  · intro _ _ _
    trivial
  intro _ verdict _ _ _ _ _ _
  cases verdict with
  | some existing =>
      intro _ _ _
      trivial
  | none =>
      apply gated_ask
      · intro _ _ _
        trivial
      intro recorded captured _ evidentRecorded _ answered _ _
      cases answered
      have known : ∀ eventType ∈ recorded.captured processId,
          ∃ snapshot ∈ recorded.history,
            World.Captures snapshot processId eventType :=
        evidentRecorded.captured processId
      apply gated_ask
      · intro _ _ _
        trivial
      intro listed chain _ _ growsListed answered _ _
      cases answered
      apply gated_ask
      · intro _ _ _
        trivial
      intro verified snapshot _ evidentVerified growsVerified answered _ _
      cases answered
      have confirmed : Pot.verifiedOf (Pot.criteriaResult
          (recorded.captured processId) (NodeChain.reconstruct env.hasher
            listed.history).ok) = 1 →
          (verified.append env "pot.verified" (.potVerified processId
            (Pot.verifiedOf (Pot.criteriaResult
              (recorded.captured processId) (NodeChain.reconstruct
                env.hasher listed.history).ok))
            (Pot.failureReasons (Pot.criteriaResult
              (recorded.captured processId) (NodeChain.reconstruct
                env.hasher listed.history).ok)
              (recorded.captured processId)))).Evidence processId := by
        intro one
        obtain ⟨complete, noReasons⟩ := Pot.complete_of_verifiedOf one
        rw [one, noReasons]
        apply evidence_append
        intro eventType required
        obtain ⟨snapshot, member, captures⟩ :=
          known eventType (complete eventType required)
        exact ⟨snapshot, growsVerified.mem (growsListed.mem member),
          captures⟩
      apply gated_ask
      · intro _ _ _
        trivial
      intro ticked _ _ _ growsTicked answered growsTick _
      cases answered
      apply gated_ask
      · intro saved _ growsSaved one
        exact (confirmed one).later
          ((growsTicked.trans growsTick).trans growsSaved)
      intro _ _ _ _ _ _ _ _ _ _ _
      trivial

end Records

/-- The calls that are allowed to every caller that has its evidence. -/
def Plain : Call → Prop
  | .markCaptured .. => False
  | .saveVerdict _ => False
  | .append _ (.paymentReceived ..) => False
  | _ => True

theorem allowed_of_plain {caller : ApiCall} {now : World}
    {request : Call} (plain : Plain request)
    (evidence : ∀ processId, caller.mintsFor = some processId →
      now.Evidence processId) : Allowed caller now request := by
  cases request with
  | append eventType payload =>
      cases payload with
      | paymentReceived nodeId amount weight =>
          exact plain.elim
      | _ =>
          trivial
  | saveLedger row =>
      exact evidence
  | saveVerdict row =>
      exact plain.elim
  | markCaptured processId eventType =>
      exact plain.elim
  | _ =>
      trivial

private theorem plain_ask {request : Call} (plain : Plain request) :
    Uses Plain (ask request) :=
  uses_perform plain _

theorem plain_ledger : Uses Plain ArosCoin.ledger :=
  ArosCoin.uses_ledger trivial (fun _ => trivial) trivial trivial trivial

theorem plain_recordMint (amount : ℚ) :
    Uses Plain (ArosCoin.recordMint amount) :=
  uses_bind plain_ledger fun _ => plain_ask trivial

theorem plain_recordBurn (amount : ℚ) :
    Uses Plain (ArosCoin.recordBurn amount) :=
  uses_bind plain_ledger fun _ => plain_ask trivial

theorem plain_recordEarned (amount : ℚ) :
    Uses Plain (ArosCoin.recordEarned amount) :=
  uses_bind plain_ledger fun _ => plain_ask trivial

theorem plain_mint (processId : String) (amount : ℚ) :
    Uses Plain (Emission.mint processId amount) := by
  refine uses_bind (plain_ask trivial) ?_
  intro verdict
  split
  · apply uses_bind (plain_recordMint amount)
    intro _
    exact uses_bind (plain_ask trivial) fun _ => trivial
  · trivial

theorem plain_burn (processId : String) (amount : ℚ) :
    Uses Plain (Emission.burn processId amount) := by
  apply uses_bind (plain_recordBurn amount)
  intro _
  exact uses_bind (plain_ask trivial) fun _ => trivial

section Emissions

variable {env : Environment} {caller : ApiCall} {result : Type}
variable {past : List (Exchange signature)} {start : World}

/-- Plain calls after the evidence are gated. -/
theorem gated_of_evidence {program : Service result}
    (plain : Uses Plain program)
    (evidence : ∀ processId, caller.mintsFor = some processId →
      start.Evidence processId) :
    Gated env caller (fun _ _ => True) program past start := by
  apply gated_of_uses plain
  intro request isPlain now grows
  exact allowed_of_plain isPlain fun processId mints =>
    (evidence processId mints).later grows

/-- A stored confirmation is evidence. -/
theorem evidence_of_authorizes {now : World} {processId : String}
    (evident : now.Evident)
    (authorized :
      Emission.authorizes (now.verdicts.find? processId) = true) :
    now.Evidence processId := by
  obtain ⟨row, found, verified⟩ := (Option.any_eq_true _ _).mp authorized
  exact evident.verdicts processId row found (by simpa using verified)

private theorem gated_authorized {processId : String}
    {accepted refused : Service result}
    (mints : ∀ other, caller.mintsFor = some other → other = processId)
    (plainAccepted : Uses Plain accepted)
    (plainRefused : ∀ past start,
      Gated env caller (fun _ _ => True) refused past start) :
    Gated env caller (fun _ _ => True) (do
      let verdict ← Pot.getVerdict processId
      if Emission.authorizes verdict then accepted else refused)
      past start := by
  apply gated_ask
  · intro _ _ _
    trivial
  intro now verdict _ evident _ answered _ _
  cases answered
  cases authorized :
      Emission.authorizes (now.verdicts.find? processId) with
  | false =>
      exact plainRefused _ _
  | true =>
      apply gated_of_evidence plainAccepted
      intro other isOther
      rw [mints other isOther]
      exact evidence_of_authorizes evident authorized

theorem gated_mint {processId : String} (amount : ℚ)
    (mints : ∀ other, caller.mintsFor = some other → other = processId) :
    Gated env caller (fun _ _ => True) (Emission.mint processId amount)
      past start := by
  apply gated_authorized mints
  · apply uses_bind (plain_recordMint amount)
    intro _
    exact uses_bind (plain_ask trivial) fun _ => trivial
  · intro _ _
    trivial

theorem gated_emit {processId : String} (amount : ℚ)
    (mints : ∀ other, caller.mintsFor = some other → other = processId) :
    Gated env caller (fun _ _ => True) (Emission.emit processId amount)
      past start := by
  apply gated_authorized mints
  · apply uses_bind (plain_mint processId amount)
    intro minted
    exact uses_bind (plain_burn processId minted) fun _ => trivial
  · intro _ _ _ _ _
    trivial

end Emissions

/-- Some participation of the node in the epoch has evidence. -/
def World.Backs (world : World) (epochNumber : ℚ) (nodeId : String) :
    Prop :=
  ∃ processId, world.Accrued epochNumber ⟨processId, nodeId⟩ ∧
    world.Evidence processId

theorem World.Backs.later {before after : World} {epochNumber : ℚ}
    {nodeId : String} (backs : before.Backs epochNumber nodeId)
    (grows : before.Grows after) : after.Backs epochNumber nodeId := by
  obtain ⟨processId, accrued, evidence⟩ := backs
  exact ⟨processId, accrued.later grows, evidence.later grows⟩

/-- The array object belongs to the epoch. -/
def World.OfEpoch (world : World) (epochNumber : ℚ) (reference : ℕ) :
    Prop :=
  ∃ array, world.arrays[reference]? = some array ∧
    array.epoch = epochNumber

theorem World.OfEpoch.later {before after : World} {epochNumber : ℚ}
    {reference : ℕ} (ofEpoch : before.OfEpoch epochNumber reference)
    (grows : before.Grows after) :
    after.OfEpoch epochNumber reference := by
  obtain ⟨array, found, isEpoch⟩ := ofEpoch
  obtain ⟨later, foundLater, sameEpoch, _⟩ :=
    grows.arrays reference array found
  exact ⟨later, foundLater, sameEpoch.trans isEpoch⟩

/-- An entry that is read from an array of the epoch was accrued into it. -/
theorem World.OfEpoch.accrued {world : World} {epochNumber : ℚ}
    {reference index : ℕ} {entry : Participation}
    (ofEpoch : world.OfEpoch epochNumber reference)
    (present : (world.entries reference)[index]? = some entry) :
    world.Accrued epochNumber entry := by
  obtain ⟨array, found, isEpoch⟩ := ofEpoch
  refine ⟨array, List.mem_of_getElem? found, isEpoch, ?_⟩
  have inside := List.mem_of_getElem? present
  simpa [World.entries, found] using inside

section Finalizations

variable {env : Environment} {caller : ApiCall}
variable {past : List (Exchange signature)} {start : World}

/-- The confirmations of a cache have evidence. -/
def CacheEvident (world : World) (cache : List (String × Bool)) : Prop :=
  ∀ processId, cache.lookup processId = some true →
    world.Evidence processId

theorem CacheEvident.later {before after : World}
    {cache : List (String × Bool)} (evident : CacheEvident before cache)
    (grows : before.Grows after) : CacheEvident after cache :=
  fun processId found => (evident processId found).later grows

private theorem gated_confirmedVerdict {cache : List (String × Bool)}
    (cached : CacheEvident start cache) (processId : String) :
    Gated env caller (fun value now =>
        (value.1 = true → now.Evidence processId) ∧
          CacheEvident now value.2)
      (Commission.confirmedVerdict cache processId) past start := by
  unfold Commission.confirmedVerdict
  cases hit : cache.lookup processId with
  | some stored =>
      intro now evident grows
      refine ⟨?_, cached.later grows⟩
      intro confirmed
      change stored = true at confirmed
      rw [confirmed] at hit
      exact (cached processId hit).later grows
  | none =>
      apply gated_ask
      · intro _ _ _
        trivial
      intro read verdict _ evidentRead growsRead answered _ _
      cases answered
      intro now _ grows
      have evidence : (read.verdicts.find? processId).any
          (fun row => row.verified = 1) = true →
          now.Evidence processId := by
        intro authorized
        exact (evidence_of_authorizes evidentRead authorized).later grows
      refine ⟨evidence, ?_⟩
      intro asked found
      simp only [List.lookup_cons] at found
      split at found
      · next same =>
          rw [beq_iff_eq] at same
          subst same
          exact evidence (Option.some.inj found)
      · exact (cached asked found).later (growsRead.trans grows)

private theorem gated_currentWeight (nodeId : String) :
    Gated env caller (fun _ _ => True) (Nodes.currentWeight nodeId) past
      start := by
  apply gated_ask
  · intro _ _ _
    trivial
  intro _ node _ _ _ _ _ _
  cases node with
  | none =>
      trivial
  | some row =>
      intro _ _ _
      trivial

private theorem gated_weightLoop {epochNumber : ℚ} (reference : ℕ)
    (rounds : ℕ) :
    ∀ (index : ℕ) (cache : List (String × Bool))
      (weights : Commission.Weights) (past : List (Exchange signature))
      (start : World), start.Evident →
      start.OfEpoch epochNumber reference →
      CacheEvident start cache →
      (∀ nodeId ∈ weights.map Prod.fst,
        start.Backs epochNumber nodeId) →
      Gated env caller (fun weights now =>
          ∀ nodeId ∈ weights.map Prod.fst, now.Backs epochNumber nodeId)
        (Commission.weightLoop reference rounds index cache weights) past
        start := by
  induction rounds with
  | zero =>
      intro _ _ _ _ _ _ _ _ _
      trivial
  | succ rounds inductionHypothesis =>
      intro index cache weights past start evident ofEpoch cached backed
      apply gated_ask
      · intro _ _ _
        trivial
      intro read entry _ evidentRead growsRead answered _ _
      cases answered
      have backedRead : ∀ nodeId ∈ weights.map Prod.fst,
          read.Backs epochNumber nodeId :=
        fun nodeId member => (backed nodeId member).later growsRead
      cases present : (read.entries reference)[index]? with
      | none =>
          intro later _ grows nodeId member
          exact (backedRead nodeId member).later grows
      | some entry =>
          have ofEpochRead := ofEpoch.later growsRead
          have accrued := ofEpochRead.accrued present
          apply gated_bind evidentRead
            (gated_confirmedVerdict (cached.later growsRead)
              entry.processId)
          intro verdict past decided evidentDecided growsDecided
            ⟨evidence, cachedDecided⟩
          obtain ⟨confirmed, cacheNow⟩ := verdict
          have ofEpochDecided := ofEpochRead.later growsDecided
          have backedDecided : ∀ nodeId ∈ weights.map Prod.fst,
              decided.Backs epochNumber nodeId :=
            fun nodeId member =>
              (backedRead nodeId member).later growsDecided
          cases confirmed with
          | false =>
              exact inductionHypothesis _ _ _ _ _ evidentDecided
                ofEpochDecided cachedDecided backedDecided
          | true =>
              apply gated_bind evidentDecided
                (gated_currentWeight entry.nodeId)
              intro weight past weighed evidentWeighed growsWeighed _
              apply inductionHypothesis _ _ _ _ _ evidentWeighed
                (ofEpochDecided.later growsWeighed)
                (cachedDecided.later growsWeighed)
              · intro nodeId member
                rcases (Keyed.mem_map_upsert Prod.fst _ _ nodeId).mp
                    member with equal | old
                · subst equal
                  exact ⟨entry.processId,
                    (accrued.later growsDecided).later growsWeighed,
                    (evidence rfl).later growsWeighed⟩
                · exact (backedDecided nodeId old).later growsWeighed

private theorem gated_confirmedWeights (epochNumber : ℚ) :
    Gated env caller (fun weights now =>
        ∀ nodeId ∈ weights.map Prod.fst, now.Backs epochNumber nodeId)
      (Commission.confirmedWeights env epochNumber) past start := by
  apply gated_ask
  · intro _ _ _
    trivial
  intro read array _ evidentRead _ answered _ _
  cases answered
  cases stored : read.participation epochNumber with
  | none =>
      intro _ _ _ nodeId member
      cases member
  | some reference =>
      apply gated_weightLoop reference _ _ _ _ _ _ evidentRead
        (evidentRead.arrays epochNumber reference stored)
      · intro _ found
        cases found
      · intro _ member
        cases member

private theorem gated_receivePayment {nodeId : String} (amount : ℚ)
    (backed : ∀ epochNumber, caller.paysOut = some epochNumber →
      start.Backs epochNumber nodeId) :
    Gated env caller (fun _ _ => True)
      (Nodes.receivePayment nodeId amount) past start := by
  apply gated_ask
  · intro _ _ _
    trivial
  intro read node _ _ growsRead answered _ _
  cases answered
  cases found : read.nodes.find? nodeId with
  | none =>
      trivial
  | some row =>
      apply gated_ask
      · intro now _ grows
        have own : row.id = nodeId := Keyed.Table.key_of_find? found
        intro epochNumber pays
        rw [own]
        exact (backed epochNumber pays).later (growsRead.trans grows)
      · intro _ _ _ _ _ _ _ _ _ _ _
        trivial

private theorem gated_payNodes {weights : Commission.Weights}
    {distributable totalWeight : ℚ}
    (mintsNothing : caller.mintsFor = none) (ids : List String) :
    ∀ (log : List DistributionEntry) (paid : ℚ)
      (past : List (Exchange signature)) (start : World), start.Evident →
      (∀ nodeId ∈ ids, ∀ epochNumber,
        caller.paysOut = some epochNumber →
          start.Backs epochNumber nodeId) →
      Gated env caller (fun _ _ => True)
        (Commission.payNodes weights distributable totalWeight ids log
          paid) past start := by
  induction ids with
  | nil =>
      intro _ _ _ _ _ _ _ _ _
      trivial
  | cons nodeId rest inductionHypothesis =>
      intro log paid past start evident backed
      apply gated_bind evident (gated_receivePayment _
        (backed nodeId List.mem_cons_self))
      intro _ past paidOut evidentPaid growsPaid _
      apply gated_bind evidentPaid (gated_of_evidence
        (plain_recordEarned _) (by simp [mintsNothing]))
      intro _ past earned evidentEarned growsEarned _
      apply inductionHypothesis _ _ _ _ evidentEarned
      intro other member epochNumber pays
      exact (backed other (List.mem_cons_of_mem _ member) epochNumber
        pays).later (growsPaid.trans growsEarned)

private theorem gated_payOut {weights : Commission.Weights} {total : ℚ}
    (evident : start.Evident) (mintsNothing : caller.mintsFor = none)
    (backed : ∀ nodeId ∈ weights.map Prod.fst, ∀ epochNumber,
      caller.paysOut = some epochNumber →
        start.Backs epochNumber nodeId) :
    Gated env caller (fun _ _ => True) (Commission.payOut weights total)
      past start := by
  unfold Commission.payOut
  simp only
  split
  · apply gated_payNodes mintsNothing _ _ _ _ _ evident
    intro nodeId member
    exact backed nodeId (by simpa [Commission.sortedIds] using member)
  · intro _ _ _
    trivial

theorem gated_finalizeEpoch {epochNumber : ℚ} (evident : start.Evident)
    (mintsNothing : caller.mintsFor = none)
    (pays : ∀ other, caller.paysOut = some other → other = epochNumber) :
    Gated env caller (fun _ _ => True)
      (Commission.finalizeEpoch env epochNumber) past start := by
  have required : Gated env caller (fun _ _ => True)
      (Commission.requireEpoch env epochNumber) past start := by
    apply gated_ask
    · intro _ _ _
      trivial
    intro _ row _ _ _ _ _ _
    cases row with
    | none =>
        trivial
    | some stored =>
        intro _ _ _
        trivial
  apply gated_bind evident required
  intro epoch past found evidentFound _ _
  split
  · intro _ _ _
    trivial
  apply gated_bind evidentFound (gated_confirmedWeights epochNumber)
  intro weights past weighed evidentWeighed _ backed
  apply gated_bind evidentWeighed (gated_payOut evidentWeighed
    mintsNothing fun nodeId member other isOther =>
      pays other isOther ▸ backed nodeId member)
  intro payments past paid _ _ _
  apply gated_of_evidence
  · refine uses_bind ?_ fun _ => ?_
    · exact uses_bind (plain_ask trivial) fun _ => trivial
    refine uses_bind (plain_ask trivial) fun _ => ?_
    refine uses_bind (plain_ask trivial) fun _ => ?_
    refine uses_bind (plain_ask trivial) fun _ => ?_
    exact uses_bind (plain_ask trivial) fun _ => trivial
  · simp [mintsNothing]

end Finalizations

/-! ## All callers -/

section Runs

variable {env : Environment}

/-- Every call of the API is gated. -/
theorem gated_program (caller : ApiCall) {start : World}
    (evident : start.Evident) :
    Gated env caller (fun _ _ => True) (caller.program env) [] start := by
  have plainCall : ∀ {result : Type} {program : Service result},
      caller.mintsFor = none → Uses Plain program →
        Gated env caller (fun _ _ => True)
          (do let _ ← program; return ()) [] start := by
    intro result program mintsNothing plain
    exact gated_drop evident
      (gated_of_evidence plain (by simp [mintsNothing]))
  cases caller with
  | capture processId eventType data validatorId =>
      exact gated_drop evident (gated_capture _ _ _ _)
  | verify processId =>
      exact gated_drop evident (gated_verify _)
  | mint processId amount =>
      exact gated_drop evident (gated_mint amount fun _ same =>
        (Option.some.inj same).symm)
  | emit processId amount =>
      exact gated_drop evident (gated_emit amount fun _ same =>
        (Option.some.inj same).symm)
  | accrue epochNumber fee participants =>
      apply plainCall rfl
      have openEpoch : Uses Plain (Commission.openEpoch epochNumber) := by
        refine uses_bind (plain_ask trivial) ?_
        intro row
        cases row with
        | none =>
            exact uses_bind (plain_ask trivial) fun _ => trivial
        | some stored =>
            trivial
      refine uses_bind openEpoch fun _ => ?_
      refine uses_bind (plain_ask trivial) fun _ => ?_
      exact uses_bind (plain_ask trivial) fun _ => trivial
  | finalizeEpoch epochNumber =>
      exact gated_drop evident (gated_finalizeEpoch evident rfl
        fun _ same => (Option.some.inj same).symm)
  | register id type =>
      apply plainCall rfl
      refine uses_bind (plain_ask trivial) fun _ => ?_
      exact uses_bind (plain_ask trivial) fun _ => trivial
  | recordExecution id success =>
      apply plainCall rfl
      refine uses_bind (uses_bind (plain_ask trivial) ?_) fun _ => ?_
      · intro row
        cases row <;> trivial
      · exact uses_bind (plain_ask trivial) fun _ => trivial

/-- The contracts of concurrent callers. -/
def gates (calls : List ApiCall) (index : ℕ) :
    Contract signature World Unit :=
  gate (calls.getD index (.verify ""))

/-- The callers of the API, before their first steps. -/
def ApiCall.pool (env : Environment) (calls : List ApiCall) :
    Pool signature ServiceError Unit World :=
  Pool.fresh World.initial (calls.map (ApiCall.program env))

/-- In every reachable pool every caller is gated. -/
theorem secure_of_reaches {calls : List ApiCall}
    {pool : Pool signature ServiceError Unit World}
    (reached : Reaches (machine env) (fun _ _ => True)
      (ApiCall.pool env calls) pool) :
    pool.Secure (machine env) World.Evident (gates calls)
      (fun _ _ _ _ _ => True) (fun _ => ()) := by
  have compatible : Compatible (ApiCall.pool env calls).threads.length
      World.Evident (gates calls) := by
    intro index other request owed before left after _ _ _ _ _ ensured
    exact ensured.1
  have secure : (ApiCall.pool env calls).Secure (machine env)
      World.Evident (gates calls) (fun _ _ _ _ _ => True)
      (fun _ => ()) := by
    apply Pool.secure_fresh World.evident_initial
    intro index program found
    rw [List.getElem?_map, Option.map_eq_some_iff] at found
    obtain ⟨caller, isCaller, rfl⟩ := found
    have own : calls.getD index (.verify "") = caller := by
      rw [List.getD_eq_getElem?_getD, isCaller]
      rfl
    rw [gates, own]
    exact gated_program caller World.evident_initial
  obtain ⟨_, secureNow, _⟩ := secure.reaches compatible
    (fun _ move _ => by cases move <;> simp [Pool.Permitted, gates, gate])
    reached
  exact secureNow

/-- A step of a caller that mints for a process changes `processMinted` only
when the process has its evidence, and a step that pays a node only when the
node has a participation with evidence. -/
theorem value_gated (env : Environment) (calls : List ApiCall)
    {pool : Pool signature ServiceError Unit World}
    (reached : Reaches (machine env) (fun _ _ => True)
      (ApiCall.pool env calls) pool)
    {index : ℕ} {caller : ApiCall}
    (isCaller : calls[index]? = some caller)
    {past : List (Exchange signature)} {request : Call}
    {next : request.Reply → Service Unit} {rejected : Service Unit}
    (awaits : pool.threads[index]? =
      some ⟨past, .call request next rejected⟩)
    {reply : request.Reply} {after : World}
    (answered : machine env request pool.state = some (reply, after)) :
    (∀ processId, caller.mintsFor = some processId →
      after.ledgerRow.processMinted ≠
        pool.state.ledgerRow.processMinted →
      pool.state.Evidence processId) ∧
    (∀ epochNumber nodeId amount weight,
      caller.paysOut = some epochNumber →
      request = .append "node.payment.received"
        (.paymentReceived nodeId amount weight) →
      pool.state.Backs epochNumber nodeId) := by
  have own : calls.getD index (.verify "") = caller := by
    rw [List.getD_eq_getElem?_getD, isCaller]
    rfl
  obtain ⟨_, ensured⟩ :=
    (secure_of_reaches reached).step awaits trivial answered
  rw [gates, own] at ensured
  obtain ⟨_, allowed⟩ := ensured
  constructor
  · intro processId mints changed
    cases request with
    | saveLedger row =>
        exact allowed processId mints
    | claimInitialization =>
        obtain ⟨_, rfl⟩ := eq_of_claimInitialization answered
        exact absurd rfl changed
    | awaitInitialization =>
        obtain rfl := eq_of_awaitInitialization answered
        exact absurd rfl changed
    | _ =>
        cases answered
        exact absurd rfl changed
  · intro epochNumber nodeId amount weight pays isPayment
    subst isPayment
    exact allowed epochNumber pays

/-- The calls that record, confirm and mint one process. -/
def recordedCalls : List ApiCall :=
  requiredBeforeVerdict.map (fun event => .capture "p-1" event [] none) ++
    [.verify "p-1", .mint "p-1" 10, .register "node-1" "validator",
      .accrue 1 (1 / 20) [⟨"p-1", "node-1"⟩], .finalizeEpoch 1]

/-- The pool in which the mint is about to save the ledger row. -/
def mintingPool : Pool signature ServiceError Unit World :=
  (ApiCall.pool .plain recordedCalls).play (machine .plain)
    (fun _ _ => True)
    ([0, 0, 1, 1, 2, 2, 3, 3, 4, 4, 4, 4, 4, 4, 5, 5, 5, 5, 5, 5,
      5].map .answer)

/-- The pool in which the finalization is about to pay the node. The mint, the
registration, the accrual and the finalization have taken turns. -/
def payingPool : Pool signature ServiceError Unit World :=
  mintingPool.play (machine .plain) (fun _ _ => True)
    ([6, 7, 6, 7, 7, 5, 7, 7, 8, 8, 8, 8, 5, 8, 8, 8].map .answer)

/-- The thread awaits a save of the ledger row with this `processMinted`. -/
def awaitsMinted (amount : ℚ) :
    Option (Thread signature ServiceError Unit) → Bool
  | some ⟨_, .call (.saveLedger row) _ _⟩ => row.processMinted = amount
  | _ => false

private theorem exists_of_awaitsMinted {amount : ℚ}
    {thread : Option (Thread signature ServiceError Unit)}
    (awaits : awaitsMinted amount thread = true) :
    ∃ past row next rejected,
      thread = some ⟨past, .call (.saveLedger row) next rejected⟩ ∧
        row.processMinted = amount := by
  unfold awaitsMinted at awaits
  split at awaits
  · exact ⟨_, _, _, _, rfl, by simpa using awaits⟩
  · cases awaits

/-- The thread awaits the append of a payment of the node. -/
def awaitsPayment (nodeId : String) :
    Option (Thread signature ServiceError Unit) → Bool
  | some ⟨_, .call (.append eventType (.paymentReceived id _ _)) _ _⟩ =>
      eventType = "node.payment.received" && id = nodeId
  | _ => false

private theorem exists_of_awaitsPayment {nodeId : String}
    {thread : Option (Thread signature ServiceError Unit)}
    (awaits : awaitsPayment nodeId thread = true) :
    ∃ past amount weight next rejected,
      thread = some ⟨past, .call (.append "node.payment.received"
        (.paymentReceived nodeId amount weight)) next rejected⟩ := by
  unfold awaitsPayment at awaits
  split at awaits
  · simp only [Bool.and_eq_true, decide_eq_true_eq] at awaits
    obtain ⟨rfl, rfl⟩ := awaits
    exact ⟨_, _, _, _, _, rfl⟩
  · cases awaits

theorem evidence_of_mintingPool :
    mintingPool.state.Evidence "p-1" ∧
      payingPool.state.Backs 1 "node-1" := by
  have reached : Reaches (machine .plain) (fun _ _ => True)
      (ApiCall.pool .plain recordedCalls) mintingPool :=
    reaches_play _ .refl
  constructor
  · have awaits : awaitsMinted 10 mintingPool.threads[5]? = true := by
      decide +kernel
    obtain ⟨past, row, next, rejected, found, minted⟩ :=
      exists_of_awaitsMinted awaits
    have before : mintingPool.state.ledgerRow.processMinted = 0 := by
      decide +kernel
    have isMint : recordedCalls[5]? = some (.mint "p-1" 10) := rfl
    apply (value_gated .plain recordedCalls reached isMint found
      rfl).1 "p-1" rfl
    rw [before]
    change row.processMinted ≠ 0
    rw [minted]
    decide
  · have awaits : awaitsPayment "node-1" payingPool.threads[8]? = true := by
      decide +kernel
    obtain ⟨past, amount, weight, next, rejected, found⟩ :=
      exists_of_awaitsPayment awaits
    have isFinalization : recordedCalls[8]? = some (.finalizeEpoch 1) :=
      rfl
    exact (value_gated .plain recordedCalls (reaches_play _ reached)
      isFinalization found rfl).2 1 "node-1" amount weight rfl rfl

end Runs

end ArosParadigm
