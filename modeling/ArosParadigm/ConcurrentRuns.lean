import ArosParadigm.Library.Interleaving
import ArosParadigm.Sessions
import Mathlib.Algebra.BigOperators.Fin

/-!
# Concurrent process runs

Every tally, pool and counter is updated by an awaited read and an awaited
save. When two runs interleave between the two, one update is lost. In the
schedules in which every save finds the row that its run has read, the effect
of concurrent runs is the sum of their effects.
-/

namespace ArosParadigm.ConcurrentRuns

open Await

/-- The figures that process runs add to. -/
inductive Column where
  | minted
  | burned
  | fees (epochNumber : ℚ)
  | total (nodeId : String)
  | successes (nodeId : String)
  deriving DecidableEq

/-- The figures of a world. -/
def tally (world : World) : Column → ℚ
  | .minted => world.ledgerRow.processMinted
  | .burned => world.ledgerRow.processBurned
  | .fees epochNumber =>
      ((world.epochs.find? epochNumber).map Epoch.totalFees).getD 0
  | .total nodeId =>
      ((world.nodes.find? nodeId).map fun node =>
        (node.total : ℚ)).getD 0
  | .successes nodeId =>
      ((world.nodes.find? nodeId).map fun node =>
        (node.successes : ℚ)).getD 0

/-- The work of a list of assigned nodes. -/
def work (nodeIds : List String) : Column → ℚ
  | .total nodeId => nodeIds.count nodeId
  | .successes nodeId => nodeIds.count nodeId
  | _ => 0

def mint (amount : ℚ) : Column → ℚ
  | .minted => amount
  | _ => 0

/-- A fee accrued into an epoch. -/
def fee (epochNumber amount : ℚ) : Column → ℚ
  | .fees other => if other = epochNumber then amount else 0
  | _ => 0

def burn (amount : ℚ) : Column → ℚ
  | .burned => amount
  | _ => 0

/-- What one process run adds to every figure. -/
def contribution (body : RunProcessDto) : Column → ℚ :=
  work (body.nodeIds.getD []) +
    (mint body.amount +
      (fee (body.epoch.getD Orchestrator.defaultEpoch)
          (Commission.computeFee body.amount) +
        burn body.amount))

def lastLedger :
    List (Exchange signature) → Option (Option ArosCoinLedger)
  | [] => none
  | ⟨.findLedger, row⟩ :: _ => some row
  | _ :: earlier => lastLedger earlier

/-- The row of an epoch that the thread has read last. -/
def lastEpoch (epochNumber : ℚ) :
    List (Exchange signature) → Option (Option Epoch)
  | [] => none
  | ⟨.findEpoch other, row⟩ :: earlier =>
      if other = epochNumber then some row
      else lastEpoch epochNumber earlier
  | _ :: earlier => lastEpoch epochNumber earlier

/-- The row of a node that the thread has read last. -/
def lastNode (nodeId : String) :
    List (Exchange signature) → Option (Option NodeEntity)
  | [] => none
  | ⟨.findNode other, row⟩ :: earlier =>
      if other = nodeId then some row else lastNode nodeId earlier
  | _ :: earlier => lastNode nodeId earlier

/-- A save finds the row that its thread has read last. -/
def UpToDate (world : World) (past : List (Exchange signature)) :
    Call → Prop
  | .saveLedger _ => lastLedger past = some world.ledger
  | .saveEpoch row =>
      lastEpoch row.epochNumber past =
        some (world.epochs.find? row.epochNumber)
  | .saveNode row =>
      lastNode row.id past = some (world.nodes.find? row.id)
  | _ => True

instance (world : World) (past : List (Exchange signature)) :
    DecidablePred (UpToDate world past) := fun request => by
  cases request <;> unfold UpToDate <;> infer_instance

/-- Concurrent calls of `runProcess`. -/
abbrev Runs := Pool signature ServiceError RunProcessResult World

/-- The thread awaits a call that may be answered. -/
def AwaitsUpToDate (world : World) :
    Option (Thread signature ServiceError RunProcessResult) → Prop
  | some ⟨past, .call request _ _⟩ => UpToDate world past request
  | _ => True

instance (world : World) : DecidablePred (AwaitsUpToDate world)
  | some ⟨past, .call request _ _⟩ =>
      inferInstanceAs (Decidable (UpToDate world past request))
  | some ⟨_, .done _⟩ => .isTrue trivial
  | some ⟨_, .fail _⟩ => .isTrue trivial
  | none => .isTrue trivial

/-- No save of the move overwrites an update that its thread has not seen. -/
def NoStaleSave (runs : Runs) : Move → Prop
  | .answer index => AwaitsUpToDate runs.state runs.threads[index]?
  | .reject _ => True

instance (runs : Runs) : DecidablePred (NoStaleSave runs)
  | .answer index => inferInstanceAs
      (Decidable (AwaitsUpToDate runs.state runs.threads[index]?))
  | .reject _ => .isTrue trivial

/-- What the run of a process needs the others to leave as it is. -/
structure Keeps (processId : String) (before after : World) : Prop where
  verdict : after.verdicts.find? processId =
    before.verdicts.find? processId
  captured : after.captured processId = before.captured processId
  nodes : ∀ nodeId, (before.nodes.find? nodeId).isSome →
    (after.nodes.find? nodeId).isSome

theorem Keeps.refl (processId : String) (world : World) :
    Keeps processId world world :=
  ⟨rfl, rfl, fun _ present => present⟩

theorem Keeps.trans {processId : String} {first second third : World}
    (earlier : Keeps processId first second)
    (later : Keeps processId second third) :
    Keeps processId first third :=
  ⟨later.verdict.trans earlier.verdict,
    later.captured.trans earlier.captured,
    fun nodeId present => later.nodes nodeId
      (earlier.nodes nodeId present)⟩

/-- The contract of the run of a process: what it owes goes into the figures,
and the other processes keep their verdicts and records. -/
def contract (processId : String) :
    Contract signature World (Column → ℚ) where
  permitted := UpToDate
  rely := Keeps processId
  rely_refl := Keeps.refl processId
  rely_trans := Keeps.trans
  guarantee := fun _ owed before left after =>
    tally after + left = tally before + owed ∧
      ∀ other, other ≠ processId → Keeps other before after

/-- Calls that change no figure, no verdict and no record. -/
def Neutral : Call → Prop
  | .saveLedger _ => False
  | .saveEpoch _ => False
  | .saveNode _ => False
  | .saveVerdict _ => False
  | .markCaptured .. => False
  | _ => True

theorem neutral_step {env : Environment} {request : Call}
    (neutral : Neutral request) {before after : World}
    {reply : request.Reply}
    (answered : machine env request before = some (reply, after)) :
    tally after = tally before ∧
      ∀ processId, Keeps processId before after := by
  have same : tally after = tally before ∧
      after.verdicts = before.verdicts ∧
      after.captured = before.captured ∧ after.nodes = before.nodes := by
    cases request with
    | saveLedger row =>
        exact neutral.elim
    | saveEpoch row =>
        exact neutral.elim
    | saveNode row =>
        exact neutral.elim
    | saveVerdict row =>
        exact neutral.elim
    | markCaptured processId eventType =>
        exact neutral.elim
    | claimInitialization =>
        obtain ⟨_, rfl⟩ := eq_of_claimInitialization answered
        exact ⟨rfl, rfl, rfl, rfl⟩
    | awaitInitialization =>
        obtain rfl := eq_of_awaitInitialization answered
        exact ⟨rfl, rfl, rfl, rfl⟩
    | _ =>
        cases answered
        exact ⟨rfl, rfl, rfl, rfl⟩
  obtain ⟨figures, verdicts, captured, nodes⟩ := same
  refine ⟨figures, fun processId => ⟨?_, ?_, ?_⟩⟩
  · rw [verdicts]
  · rw [captured]
  · rw [nodes]
    exact fun _ present => present

/-- How a run finds the world after some of its own steps: its verdict is as
it was, and its record and the registry have not shrunk. -/
structure Onward (processId : String) (before after : World) :
    Prop where
  verdict : after.verdicts.find? processId =
    before.verdicts.find? processId
  captured : ∀ eventType ∈ before.captured processId,
    eventType ∈ after.captured processId
  nodes : ∀ nodeId, (before.nodes.find? nodeId).isSome →
    (after.nodes.find? nodeId).isSome

theorem Keeps.onward {processId : String} {before after : World}
    (keeps : Keeps processId before after) :
    Onward processId before after :=
  ⟨keeps.verdict, fun _ member => keeps.captured ▸ member, keeps.nodes⟩

theorem Onward.trans {processId : String} {first second third : World}
    (earlier : Onward processId first second)
    (later : Onward processId second third) :
    Onward processId first third :=
  ⟨later.verdict.trans earlier.verdict,
    fun eventType member => later.captured eventType
      (earlier.captured eventType member),
    fun nodeId present => later.nodes nodeId
      (earlier.nodes nodeId present)⟩

section Steps

variable {env : Environment} {processId : String} {result : Type}
variable {past : List (Exchange signature)} {start : World}
variable {owed : Column → ℚ}

/-- A program that has paid everything it owes when it returns. -/
abbrev Pays (env : Environment) (processId : String)
    (program : Service result) (past : List (Exchange signature))
    (owed : Column → ℚ) (start : World) : Prop :=
  Safe (machine env) (World.Intact env) (contract processId)
    (fun _ _ left _ => left = 0) program past owed start

theorem pays_neutral_call {request : Call} (neutral : Neutral request)
    {next : request.Reply → Service result} {rejected : Service result}
    (refused : ∀ now, now.Intact env → Onward processId start now →
      Pays env processId rejected past owed now)
    (onward : ∀ now reply after, now.Intact env →
      Onward processId start now →
      machine env request now = some (reply, after) →
      after.Intact env → Onward processId start after →
      Pays env processId (next reply) (⟨request, reply⟩ :: past) owed
        after) :
    Pays env processId (.call request next rejected) past owed
      start := by
  intro now intact keeps
  refine ⟨?_, refused now intact keeps.onward⟩
  intro _ reply after answered
  obtain ⟨figures, kept⟩ := neutral_step neutral answered
  have intactAfter := intact.step request answered
  exact ⟨intactAfter, owed, ⟨by rw [figures], fun other _ => kept other⟩,
    onward now reply after intact keeps.onward answered intactAfter
      (keeps.onward.trans (kept processId).onward)⟩

theorem pays_neutral {request : Call} (neutral : Neutral request)
    {continuation : request.Reply → Service result}
    (onward : ∀ now reply after, now.Intact env →
      Onward processId start now →
      machine env request now = some (reply, after) →
      after.Intact env → Onward processId start after →
      Pays env processId (continuation reply)
        (⟨request, reply⟩ :: past) owed after) :
    Pays env processId (ask request >>= continuation) past owed
      start :=
  pays_neutral_call neutral (fun _ _ _ => trivial) onward

theorem pays_effect {request : Call} (left : Column → ℚ)
    (reply : request.Reply) (effect : World → World)
    (answers : ∀ now, machine env request now =
      some (reply, effect now))
    {continuation : request.Reply → Service result}
    (step : ∀ now, now.Intact env → Keeps processId start now →
      UpToDate now past request →
      tally (effect now) + left = tally now + owed ∧
        (∀ other, other ≠ processId → Keeps other now (effect now)) ∧
        ((effect now).Intact env →
          Pays env processId (continuation reply)
            (⟨request, reply⟩ :: past) left (effect now))) :
    Pays env processId (ask request >>= continuation) past owed
      start := by
  apply Safe.perform_bind
  intro now intact keeps upToDate given after answered
  cases (answers now).symm.trans answered
  obtain ⟨figures, kept, onward⟩ := step now intact keeps upToDate
  have intactAfter := intact.step request answered
  exact ⟨intactAfter, left, ⟨figures, kept⟩, onward intactAfter⟩

private theorem keeps_mark {other eventType : String} {now : World}
    (different : other ≠ processId) :
    Keeps other now (now.mark processId eventType) := by
  refine ⟨rfl, ?_, fun _ present => present⟩
  rw [World.mark_captured, Function.update_of_ne different]

private theorem onward_mark (processId : String) (now : World)
    (eventType : String) :
    Onward processId now (now.mark processId eventType) ∧
      eventType ∈ (now.mark processId eventType).captured processId := by
  have grown : ∀ tested, tested = eventType ∨
      tested ∈ now.captured processId →
      tested ∈ (now.mark processId eventType).captured processId := by
    intro tested known
    rw [World.mark_captured, Function.update_self]
    split
    · next present =>
        rcases known with equal | member
        · exact equal ▸ present
        · exact member
    · rcases known with equal | member
      · simp [equal]
      · exact List.mem_append_left _ member
  exact ⟨⟨rfl, fun tested member => grown tested (Or.inr member),
    fun _ present => present⟩, grown eventType (Or.inl rfl)⟩

private theorem pays_mark {eventType : String}
    {continuation : Unit → Service result}
    (onward : ∀ now, Keeps processId start now →
      (now.mark processId eventType).Intact env →
      Pays env processId (continuation ())
        (⟨.markCaptured processId eventType, ()⟩ :: past) owed
        (now.mark processId eventType)) :
    Pays env processId
      (ask (.markCaptured processId eventType) >>= continuation) past
      owed start := by
  refine pays_effect owed () (World.mark · processId eventType)
    (fun _ => rfl) ?_
  intro now _ keeps _
  exact ⟨rfl, fun other different => keeps_mark different, onward now keeps⟩

private theorem pays_saveVerdict {row : PotVerdict}
    (own : row.processId = processId)
    {continuation : Unit → Service result}
    (onward : ∀ now, Keeps processId start now →
      (now.saveVerdict row).Intact env →
      Pays env processId (continuation ())
        (⟨.saveVerdict row, ()⟩ :: past) owed (now.saveVerdict row)) :
    Pays env processId (ask (.saveVerdict row) >>= continuation) past
      owed start := by
  refine pays_effect owed () (World.saveVerdict · row) (fun _ => rfl) ?_
  intro now _ keeps _
  refine ⟨rfl, ?_, onward now keeps⟩
  intro other different
  refine ⟨?_, rfl, fun _ present => present⟩
  rw [World.saveVerdict_verdicts]
  exact Keyed.Table.find?_save_of_ne _
    (by rw [own]; exact Ne.symm different)

/-- An own event joins the record. -/
theorem pays_capture (eventType : String) (data : Json.JsObject ℚ)
    {continuation : Snapshot → Service result}
    (onward : ∀ snapshot past now, now.Intact env →
      Onward processId start now →
      eventType ∈ now.captured processId →
      Pays env processId (continuation snapshot) past owed now) :
    Pays env processId
      (StateRecording.capture processId eventType data >>= continuation)
      past owed start := by
  apply pays_neutral
  · trivial
  intro _ snapshot appended _ _ _ _ onwardAppended
  apply pays_mark
  intro now keeps intact
  obtain ⟨onwardMark, recorded⟩ :=
    onward_mark processId now eventType
  exact onward snapshot _ _ intact
    ((onwardAppended.trans keeps.onward).trans onwardMark) recorded

theorem pays_log (eventType layer description : String)
    {continuation : OversightLogEntry → Service result}
    (onward : ∀ entry past now, now.Intact env →
      Onward processId start now →
      Pays env processId (continuation entry) past owed now) :
    Pays env processId
      (AllSeeingEye.log eventType layer description >>= continuation)
      past owed start := by
  apply pays_neutral
  · trivial
  intro _ entry after _ _ _ intact onwardAfter
  exact onward entry _ after intact onwardAfter

/-- On a complete record without a verdict, `verify` confirms. -/
theorem pays_verify
    (complete : ∀ eventType ∈ requiredBeforeVerdict,
      eventType ∈ start.captured processId)
    (missing : start.verdicts.find? processId = none)
    {continuation : VerifyResult → Service result}
    (onward : ∀ verdict past now, now.Intact env →
      verdict.verified = 1 →
      Emission.authorizes (now.verdicts.find? processId) = true →
      Pays env processId (continuation verdict) past owed now) :
    Pays env processId (Pot.verify env processId >>= continuation) past
      owed start := by
  apply pays_neutral
  · trivial
  intro now verdict _ _ onwardNow answered _ _
  cases answered
  rw [onwardNow.verdict, missing]
  apply pays_neutral
  · trivial
  intro read captured _ _ onwardRead answered _ _
  cases answered
  have recorded : ∀ eventType ∈ requiredBeforeVerdict,
      eventType ∈ read.captured processId :=
    fun eventType required => onwardRead.captured eventType
      (onwardNow.captured eventType (complete eventType required))
  apply pays_neutral
  · trivial
  intro listed snapshots _ intactListed _ answered _ _
  cases answered
  have confirmed := Pot.verifiedOf_of_complete recorded
    intactListed.reconstruct
  apply pays_neutral
  · trivial
  intro _ snapshot _ _ _ _ _ _
  apply pays_neutral
  · trivial
  intro _ timestamp _ _ _ _ _ _
  apply pays_saveVerdict
  · rfl
  intro saved _ intact
  apply onward _ _ _ intact confirmed
  simp [Emission.authorizes, confirmed]

private theorem work_cons (nodeId : String) (rest : List String) :
    work (nodeId :: rest) = work [nodeId] + work rest := by
  funext column
  cases column <;> simp [work, List.count_cons, add_comm]

private theorem tally_worked {now : World} {nodeId : String}
    {node : NodeEntity} (found : now.nodes.find? nodeId = some node) :
    tally (now.saveNode (Nodes.worked node true)) =
      tally now + work [nodeId] := by
  have key : node.id = nodeId := Keyed.Table.key_of_find? found
  have stored : ∀ tested,
      (now.nodes.save (Nodes.worked node true)).find? tested =
        if nodeId = tested then some (Nodes.worked node true)
        else now.nodes.find? tested := by
    intro tested
    rw [Keyed.Table.find?_save, Nodes.worked_id, key]
  have total : (Nodes.worked node true).total = node.total + 1 := rfl
  have successes : (Nodes.worked node true).successes =
      node.successes + 1 :=
    rfl
  funext column
  cases column with
  | total tested =>
      by_cases same : nodeId = tested
      · subst same
        simp [tally, work, stored, found, total]
      · simp [tally, work, stored, same]
  | successes tested =>
      by_cases same : nodeId = tested
      · subst same
        simp [tally, work, stored, found, successes]
      · simp [tally, work, stored, same]
  | _ =>
      simp [tally, work, World.ledgerRow]

private theorem keeps_saveNode (other : String) (now : World)
    (row : NodeEntity) : Keeps other now (now.saveNode row) := by
  refine ⟨rfl, rfl, ?_⟩
  intro nodeId present
  rw [World.saveNode_nodes, Keyed.Table.find?_save]
  split
  · rfl
  · exact present

private theorem pays_saveNode {nodeId : String} {node : NodeEntity}
    (key : node.id = nodeId)
    (last : lastNode nodeId past = some (some node))
    {continuation : Unit → Service result}
    (onward : ∀ now, Keeps processId start now →
      (now.saveNode (Nodes.worked node true)).Intact env →
      Pays env processId (continuation ())
        (⟨.saveNode (Nodes.worked node true), ()⟩ :: past) owed
        (now.saveNode (Nodes.worked node true))) :
    Pays env processId
      (ask (.saveNode (Nodes.worked node true)) >>= continuation) past
      (work [nodeId] + owed) start := by
  refine pays_effect owed ()
    (World.saveNode · (Nodes.worked node true)) (fun _ => rfl) ?_
  intro now _ keeps upToDate
  have found : now.nodes.find? nodeId = some node := by
    have same : lastNode node.id past =
        some (now.nodes.find? node.id) :=
      upToDate
    rw [key, last] at same
    exact (Option.some.inj same).symm
  refine ⟨?_, fun other _ => keeps_saveNode other now _,
    onward now keeps⟩
  rw [tally_worked found, add_assoc]

/-- The work of the assigned nodes is paid node by node. -/
theorem pays_recordExecutions (nodeIds : List String)
    {continuation : Unit → Service result} :
    ∀ (past : List (Exchange signature)) (start : World),
      (∀ nodeId ∈ nodeIds, (start.nodes.find? nodeId).isSome) →
      (∀ past now, now.Intact env → Onward processId start now →
        Pays env processId (continuation ()) past owed now) →
      start.Intact env →
      Pays env processId
        (Orchestrator.recordExecutions nodeIds >>= continuation) past
        (work nodeIds + owed) start := by
  induction nodeIds with
  | nil =>
      intro past start _ onward intact
      have nothing : work [] + owed = owed := by
        funext column
        cases column <;> simp [work]
      rw [nothing]
      exact onward past start intact (Keeps.refl _ _).onward
  | cons nodeId rest inductionHypothesis =>
      intro past start registered onward _
      apply pays_neutral
      · trivial
      intro read found _ _ onwardRead answered _ _
      cases answered
      obtain ⟨node, isNode⟩ := Option.isSome_iff_exists.mp
        (onwardRead.nodes nodeId (registered nodeId List.mem_cons_self))
      rw [isNode]
      have key : node.id = nodeId := Keyed.Table.key_of_find? isNode
      rw [work_cons, add_assoc]
      apply pays_saveNode key
      · simp [lastNode]
      intro saved keeps intact
      have onwardSaved : Onward processId start
          (saved.saveNode (Nodes.worked node true)) :=
        (onwardRead.trans keeps.onward).trans
          (keeps_saveNode processId saved _).onward
      apply inductionHypothesis _ _ _ _ intact
      · intro other member
        exact onwardSaved.nodes other
          (registered other (List.mem_cons_of_mem nodeId member))
      · intro past now intactNow onwardNow
        exact onward past now intactNow (onwardSaved.trans onwardNow)

private theorem keeps_saveLedger (other : String) (now : World)
    (row : ArosCoinLedger) : Keeps other now (now.saveLedger row) :=
  ⟨rfl, rfl, fun _ present => present⟩

private theorem pays_saveLedger {old new : ArosCoinLedger}
    {gain : Column → ℚ} (last : lastLedger past = some (some old))
    (gains : ∀ now : World, now.ledger = some old →
      tally (now.saveLedger new) = tally now + gain)
    {continuation : Unit → Service result}
    (onward : ∀ now, Keeps processId start now →
      (now.saveLedger new).Intact env →
      Pays env processId (continuation ())
        (⟨.saveLedger new, ()⟩ :: past) owed (now.saveLedger new)) :
    Pays env processId (ask (.saveLedger new) >>= continuation) past
      (gain + owed) start := by
  refine pays_effect owed () (World.saveLedger · new) (fun _ => rfl) ?_
  intro now _ keeps upToDate
  have stored : now.ledger = some old := by
    have same : lastLedger past = some now.ledger := upToDate
    rw [last] at same
    exact (Option.some.inj same).symm
  refine ⟨?_, fun other _ => keeps_saveLedger other now new,
    onward now keeps⟩
  rw [gains now stored, add_assoc]

private theorem pays_createLedger
    {continuation : Unit → Service result}
    (onward : ∀ past now, now.Intact env → Onward processId start now →
      Pays env processId (continuation ()) past owed now) :
    Pays env processId
      ((ArosCoin.createLedger.rescue fun _ =>
        ask (.settleInitialization .rejected)) >>= continuation) past
      owed start := by
  have settleRejected : ∀ past now, now.Intact env →
      Onward processId start now →
      Pays env processId
        (ask (.settleInitialization .rejected) >>= continuation) past
        owed now := by
    intro past now _ onwardNow
    apply pays_neutral
    · trivial
    intro _ _ after _ _ _ intactAfter onwardAfter
    exact onward _ after intactAfter (onwardNow.trans onwardAfter)
  have settleFulfilled : ∀ past now, now.Intact env →
      Onward processId start now →
      Pays env processId
        (((ask (.settleInitialization .fulfilled)).rescue fun _ =>
          ask (.settleInitialization .rejected)) >>= continuation) past
        owed now := by
    intro past now _ onwardNow
    apply pays_neutral_call
    · trivial
    · intro later intactLater onwardLater
      exact settleRejected _ later intactLater
        (onwardNow.trans onwardLater)
    · intro _ _ after _ _ _ intactAfter onwardAfter
      exact onward _ after intactAfter (onwardNow.trans onwardAfter)
  apply pays_neutral_call
  · trivial
  · exact settleRejected _
  intro read existing _ intactRead onwardRead answered _ _
  cases answered
  cases stored : read.ledger with
  | some row =>
      exact settleFulfilled _ read intactRead onwardRead
  | none =>
      intro now intact keeps
      refine ⟨?_, settleRejected _ now intact
        (onwardRead.trans keeps.onward)⟩
      intro upToDate _ after answered
      cases answered
      have missing : now.ledger = none := by
        have same : some none = some now.ledger := upToDate
        exact (Option.some.inj same).symm
      have figures : tally (now.saveLedger ArosCoinLedger.zero) =
          tally now := by
        funext column
        cases column <;>
          simp [tally, World.ledgerRow, missing, ArosCoinLedger.zero]
      have intactAfter :
          (now.saveLedger ArosCoinLedger.zero).Intact env :=
        intact.of_history rfl
      refine ⟨intactAfter, owed, ⟨by rw [figures],
        fun other _ => keeps_saveLedger other now _⟩, ?_⟩
      exact settleFulfilled _ _ intactAfter
        ((onwardRead.trans keeps.onward).trans
          (keeps_saveLedger processId now _).onward)

private theorem pays_ensureLedger
    {continuation : Unit → Service result}
    (onward : ∀ past now, now.Intact env → Onward processId start now →
      Pays env processId (continuation ()) past owed now) :
    Pays env processId (ArosCoin.ensureLedger >>= continuation) past owed
      start := by
  have awaited : ∀ past now, Onward processId start now →
      Pays env processId (ArosCoin.promiseKept >>= continuation) past owed
        now := by
    intro past now onwardNow
    unfold ArosCoin.promiseKept
    rw [bind_assoc]
    apply pays_neutral
    · trivial
    intro _ promise after _ _ _ intact onwardAfter
    cases promise with
    | fulfilled =>
        exact onward _ after intact (onwardNow.trans onwardAfter)
    | pending =>
        trivial
    | rejected =>
        trivial
  rw [ArosCoin.ensureLedger_eq, bind_assoc]
  apply pays_neutral
  · trivial
  intro _ claimed after _ _ _ _ onwardAfter
  cases claimed with
  | false =>
      exact awaited _ after onwardAfter
  | true =>
      simp only [if_true, bind_assoc]
      apply pays_createLedger
      intro past now _ onwardNow
      exact awaited past now (onwardAfter.trans onwardNow)

private theorem pays_ledger
    {continuation : ArosCoinLedger → Service result}
    (onward : ∀ row past now, now.Intact env →
      Onward processId start now →
      lastLedger past = some (some row) →
      Pays env processId (continuation row) past owed now) :
    Pays env processId (ArosCoin.ledger >>= continuation) past owed
      start := by
  unfold ArosCoin.ledger
  rw [bind_assoc]
  apply pays_ensureLedger
  intro past now _ onwardNow
  rw [bind_assoc]
  apply pays_neutral
  · trivial
  intro read row _ intactRead onwardRead answered _ _
  cases answered
  cases stored : read.ledger with
  | none =>
      trivial
  | some row =>
      exact onward row _ read intactRead (onwardNow.trans onwardRead) rfl

private theorem pays_recorded {update : ArosCoinLedger → ArosCoinLedger}
    {gain : Column → ℚ}
    (gains : ∀ (now : World) row, now.ledger = some row →
      tally (now.saveLedger (update row)) = tally now + gain)
    {continuation : Unit → Service result}
    (onward : ∀ past now, now.Intact env → Onward processId start now →
      Pays env processId (continuation ()) past owed now) :
    Pays env processId
      ((ArosCoin.ledger >>= fun row => ask (.saveLedger (update row))) >>=
        continuation) past (gain + owed) start := by
  rw [bind_assoc]
  apply pays_ledger
  intro row past now _ onwardNow last
  apply pays_saveLedger last
  · exact fun now stored => gains now row stored
  intro saved keeps intact
  exact onward _ _ intact ((onwardNow.trans keeps.onward).trans
    (keeps_saveLedger processId saved _).onward)

private theorem tally_recordMint (amount : ℚ) (now : World)
    (row : ArosCoinLedger) (stored : now.ledger = some row) :
    tally (now.saveLedger
        { row with processMinted := row.processMinted + amount }) =
      tally now + mint amount := by
  funext column
  cases column <;> simp [tally, mint, World.ledgerRow, stored]

private theorem tally_recordBurn (amount : ℚ) (now : World)
    (row : ArosCoinLedger) (stored : now.ledger = some row) :
    tally (now.saveLedger
        { row with processBurned := row.processBurned + amount }) =
      tally now + burn amount := by
  funext column
  cases column <;> simp [tally, burn, World.ledgerRow, stored]

/-- A confirmed process mints its amount. -/
theorem pays_mint {amount : ℚ}
    (authorized :
      Emission.authorizes (start.verdicts.find? processId) = true)
    {continuation : ℚ → Service result}
    (onward : ∀ past now, now.Intact env → Onward processId start now →
      Pays env processId (continuation amount) past owed now) :
    Pays env processId
      (Emission.mint processId amount >>= continuation) past
      (mint amount + owed) start := by
  unfold Emission.mint
  rw [bind_assoc]
  apply pays_neutral
  · trivial
  intro read verdict _ _ onwardRead answered _ _
  cases answered
  rw [onwardRead.verdict, if_pos authorized, bind_assoc]
  apply pays_recorded (tally_recordMint amount)
  intro past minted _ onwardMinted
  apply pays_neutral
  · trivial
  intro _ _ after _ _ _ intact onwardAfter
  exact onward _ after intact
    ((onwardRead.trans onwardMinted).trans onwardAfter)

theorem pays_burn {amount : ℚ} {continuation : ℚ → Service result}
    (onward : ∀ past now, now.Intact env → Onward processId start now →
      Pays env processId (continuation amount) past owed now) :
    Pays env processId
      (Emission.burn processId amount >>= continuation) past
      (burn amount + owed) start := by
  unfold Emission.burn
  rw [bind_assoc]
  apply pays_recorded (tally_recordBurn amount)
  intro past burned _ onwardBurned
  apply pays_neutral
  · trivial
  intro _ _ after _ _ _ intact onwardAfter
  exact onward _ after intact (onwardBurned.trans onwardAfter)

private theorem pays_openEpoch {epochNumber : ℚ}
    {continuation : Epoch → Service result}
    (onward : ∀ stored startTime past now,
      Onward processId start now →
      lastEpoch epochNumber past = some stored →
      (∀ row, stored = some row → row.epochNumber = epochNumber) →
      Pays env processId
        (continuation (stored.getD
          (Commission.freshEpoch epochNumber startTime)))
        past owed now) :
    Pays env processId
      (Commission.openEpoch epochNumber >>= continuation) past owed
      start := by
  unfold Commission.openEpoch
  rw [bind_assoc]
  apply pays_neutral
  · trivial
  intro read stored _ _ onwardRead answered _ _
  cases answered
  cases found : read.epochs.find? epochNumber with
  | some row =>
      refine onward (some row) 0 _ read onwardRead ?_ ?_
      · simp [lastEpoch]
      · intro other same
        cases same
        exact Keyed.Table.key_of_find? found
  | none =>
      apply pays_neutral
      · trivial
      intro _ startTime after _ _ _ _ onwardAfter
      refine onward none startTime _ after
        (onwardRead.trans onwardAfter) ?_ ?_
      · simp [lastEpoch]
      · intro other same
        cases same

private theorem tally_saveEpoch {now : World} {epochNumber amount : ℚ}
    {row : Epoch} (key : row.epochNumber = epochNumber)
    (gained : row.totalFees = tally now (.fees epochNumber) + amount) :
    tally (now.saveEpoch row) = tally now + fee epochNumber amount := by
  funext column
  cases column with
  | fees other =>
      by_cases same : epochNumber = other
      · subst same
        simp [tally, fee, Keyed.Table.find?_save, key, gained]
      · simp [tally, fee, Keyed.Table.find?_save, key, same,
          Ne.symm same]
  | _ =>
      simp [tally, fee, World.ledgerRow]

private theorem keeps_saveEpoch (other : String) (now : World)
    (row : Epoch) : Keeps other now (now.saveEpoch row) :=
  ⟨rfl, rfl, fun _ present => present⟩

/-- A fee is accrued into its epoch. -/
theorem pays_accrue {epochNumber amount : ℚ}
    {participants : List Participation}
    {continuation : Epoch → Service result}
    (onward : ∀ row past now, now.Intact env →
      Onward processId start now →
      Pays env processId (continuation row) past owed now) :
    Pays env processId
      (Commission.accrue epochNumber amount participants >>=
        continuation) past
      (fee epochNumber amount + owed) start := by
  unfold Commission.accrue
  rw [bind_assoc]
  apply pays_openEpoch
  intro stored startTime past opened onwardOpened last keyed
  have key : (stored.getD
      (Commission.freshEpoch epochNumber startTime)).epochNumber =
        epochNumber := by
    cases stored with
    | none =>
        rfl
    | some row =>
        exact keyed row rfl
  refine pays_effect owed () (World.saveEpoch · _) (fun _ => rfl) ?_
  intro now _ keeps upToDate
  have current : now.epochs.find? epochNumber = stored := by
    have same : lastEpoch _ past = some (now.epochs.find? _) := upToDate
    simp only [key, last] at same
    exact (Option.some.inj same).symm
  refine ⟨?_, fun other _ => keeps_saveEpoch other now _, ?_⟩
  · rw [← add_assoc]
    congr 1
    apply tally_saveEpoch
    · exact key
    · cases stored <;> simp [tally, current, Commission.freshEpoch]
  · intro _
    apply pays_neutral
    · trivial
    intro _ _ after _ _ _ intact onwardAfter
    exact onward _ _ after intact
      (((onwardOpened.trans keeps.onward).trans
        (keeps_saveEpoch processId now _).onward).trans onwardAfter)

/-- Assignment, execution and verdict of a process with an explicit list of
registered nodes pay the work of the nodes. -/
theorem pays_executeAndVerify {first : String} {rest : List String}
    (registered : ∀ nodeId ∈ first :: rest,
      (start.nodes.find? nodeId).isSome)
    (missing : start.verdicts.find? processId = none)
    (initiated : "initiation" ∈ start.captured processId)
    {continuation : List String × VerifyResult → Service result}
    (onward : ∀ verdict past now, now.Intact env →
      verdict.verified = 1 →
      Emission.authorizes (now.verdicts.find? processId) = true →
      Pays env processId (continuation (first :: rest, verdict)) past
        owed now) :
    Pays env processId
      (Orchestrator.executeAndVerify env processId
        (some (first :: rest)) >>= continuation) past
      (work (first :: rest) + owed) start := by
  simp only [Orchestrator.executeAndVerify,
    Orchestrator.resolveAssignedNodes, pure_bind, bind_assoc]
  apply pays_capture
  intro _ _ assigned _ onwardAssigned task
  apply pays_log
  intro _ _ logged _ onwardLogged
  apply pays_capture
  intro _ _ staged _ onwardStaged stage
  apply pays_capture
  intro _ _ executed intactExecuted onwardExecuted execution
  have sinceAssigned := (onwardLogged.trans onwardStaged).trans
    onwardExecuted
  have sinceStart := onwardAssigned.trans sinceAssigned
  apply pays_recordExecutions
  · exact fun nodeId member =>
      sinceStart.nodes nodeId (registered nodeId member)
  · intro _ worked _ onwardWorked
    apply pays_verify
    · intro eventType required
      apply onwardWorked.captured
      simp only [requiredBeforeVerdict, List.mem_cons,
        List.not_mem_nil, or_false] at required
      rcases required with rfl | rfl | rfl | rfl
      · exact sinceStart.captured _ initiated
      · exact sinceAssigned.captured _ task
      · exact onwardExecuted.captured _ stage
      · exact execution
    · rw [onwardWorked.verdict, sinceStart.verdict, missing]
    intro verdict _ verified _ confirmed authorized
    apply pays_capture
    intro _ _ recorded _ onwardRecorded _
    apply pays_log
    intro _ _ now intact onwardNow
    refine onward verdict _ now intact confirmed ?_
    rw [onwardNow.verdict, onwardRecorded.verdict, authorized]
  · exact intactExecuted

private theorem pays_figure {value : Type}
    {figure : ArosCoinLedger → value} {continuation : value → Service result}
    (onward : ∀ figures past now, now.Intact env →
      Onward processId start now →
      Pays env processId (continuation figures) past owed now) :
    Pays env processId
      ((ArosCoin.ledger >>= fun row => pure (figure row)) >>=
        continuation) past owed start := by
  rw [bind_assoc]
  apply pays_ledger
  intro row past now intact onwardNow _
  exact onward _ past now intact onwardNow

private theorem pays_reserveIndex
    {continuation : ℚ → Service result}
    (onward : ∀ index past now, now.Intact env →
      Pays env processId (continuation index) past owed now) :
    Pays env processId
      (Reserve.reserveIndex env >>= continuation) past owed start := by
  unfold Reserve.reserveIndex Reserve.totalProcessVolume
  simp only [bind_assoc, pure_bind]
  apply pays_neutral
  · trivial
  intro _ history after _ _ _ intact _
  exact onward _ _ after intact

private theorem pays_compareSupply {view : SupplyView}
    {continuation : Bool → Service result}
    (onward : ∀ consistent past now, now.Intact env →
      Pays env processId (continuation consistent) past owed now)
    (intact : start.Intact env) :
    Pays env processId
      (AllSeeingEye.compareSupply env view >>= continuation) past owed
      start := by
  unfold AllSeeingEye.compareSupply
  by_cases consistent : view.totalSupply = view.retained
  · simp only [consistent]
    exact onward true past start intact
  · simp only [consistent, decide_false, Bool.not_false, if_true,
      bind_assoc]
    apply pays_log
    intro _ past now intactNow _
    exact onward false past now intactNow

/-- The settlement of a confirmed process pays its mint, fee and burn. -/
theorem pays_settle {amount epochNumber : ℚ} {nodeIds : List String}
    (authorized :
      Emission.authorizes (start.verdicts.find? processId) = true) :
    Pays env processId
      (Orchestrator.settle env processId amount epochNumber nodeIds) past
      (mint amount + (fee epochNumber (Commission.computeFee amount) +
        burn amount)) start := by
  rw [← add_zero (burn amount)]
  unfold Orchestrator.settle
  apply pays_mint authorized
  intro _ minted _ _
  apply pays_capture
  intro _ _ recorded _ _ _
  apply pays_log
  intro _ _ logged _ _
  apply pays_accrue
  intro _ _ accrued _ _
  apply pays_burn
  intro _ burned _ _
  apply pays_log
  intro _ _ announced _ _
  apply pays_reserveIndex
  intro index _ indexed _
  apply pays_capture
  intro _ _ finished _ _ _
  apply pays_log
  intro _ _ closed _ _
  apply pays_figure
  intro view _ viewed intactViewed _
  apply pays_compareSupply
  · intro _ _ compared _
    apply pays_figure
    intro _ _ _ _ _ _ _ _
    rfl
  · exact intactViewed

/-- The run of a fresh admissible process with registered nodes pays its
contribution. -/
theorem pays_runProcess {body : RunProcessDto}
    (admissible : body.admissible = true) {first : String}
    {rest : List String} (explicit : body.nodeIds = some (first :: rest))
    (registered : ∀ nodeId ∈ first :: rest,
      (start.nodes.find? nodeId).isSome)
    (missing : start.verdicts.find? body.processId = none) :
    Pays env body.processId (Orchestrator.runProcess env body) past
      (contribution body) start := by
  simp only [Orchestrator.runProcess, contribution, admissible, explicit,
    Bool.not_true, Bool.false_eq_true, if_false, Option.getD_some]
  apply pays_capture
  intro _ _ initiated _ onwardInitiated recorded
  apply pays_log
  intro _ _ logged _ onwardLogged
  have sinceStart := onwardInitiated.trans onwardLogged
  apply pays_executeAndVerify
  · exact fun nodeId member =>
      sinceStart.nodes nodeId (registered nodeId member)
  · rw [sinceStart.verdict, missing]
  · exact onwardLogged.captured _ recorded
  intro verdict _ now _ confirmed authorized
  simp only [confirmed, ne_eq, not_true_eq_false, if_false]
  exact pays_settle authorized

end Steps

/-! ## Concurrent runs -/

/-- Calls of `runProcess` that have not started. -/
def launch (env : Environment) (start : World)
    (bodies : List RunProcessDto) : Runs :=
  Pool.fresh start (bodies.map (Orchestrator.runProcess env))

/-- Distinct fresh processes, admissible, with explicit lists of registered
nodes and open epochs. -/
structure Ready (env : Environment) (start : World)
    (bodies : List RunProcessDto) : Prop where
  intact : start.Intact env
  distinct : (bodies.map RunProcessDto.processId).Nodup
  fresh : ∀ body ∈ bodies,
    start.verdicts.find? body.processId = none
  admissible : ∀ body ∈ bodies, body.admissible = true
  explicit : ∀ body ∈ bodies, body.nodeIds.isSome
  registered : ∀ body ∈ bodies, ∀ nodeId ∈ body.nodeIds.getD [],
    (start.nodes.find? nodeId).isSome
  epochs : ∀ body ∈ bodies,
    (start.epochs.find?
      (body.epoch.getD Orchestrator.defaultEpoch)).any fun row =>
        row.status = .opened

/-- Nothing that the runs add to a figure is lost. -/
structure NoLostUpdate (start : World) (bodies : List RunProcessDto)
    (after : World) : Prop where
  processMinted : after.ledgerRow.processMinted =
    start.ledgerRow.processMinted +
      (bodies.map RunProcessDto.amount).sum
  processBurned : after.ledgerRow.processBurned =
    start.ledgerRow.processBurned +
      (bodies.map RunProcessDto.amount).sum
  totalFees : ∀ epochNumber,
    tally after (.fees epochNumber) = tally start (.fees epochNumber) +
      (bodies.map fun body =>
        if body.epoch.getD Orchestrator.defaultEpoch = epochNumber then
          Commission.computeFee body.amount
        else 0).sum
  total : ∀ nodeId,
    tally after (.total nodeId) = tally start (.total nodeId) +
      (bodies.map fun body =>
        ((body.nodeIds.getD []).count nodeId : ℚ)).sum
  successes : ∀ nodeId,
    tally after (.successes nodeId) = tally start (.successes nodeId) +
      (bodies.map fun body =>
        ((body.nodeIds.getD []).count nodeId : ℚ)).sum

section Concurrent

variable {env : Environment} {start : World}
variable {bodies : List RunProcessDto}

private theorem sum_contributions (column : Column) :
    (bodies.map contribution).sum column =
      (bodies.map fun body => contribution body column).sum := by
  induction bodies with
  | nil =>
      rfl
  | cons body rest inductionHypothesis =>
      simp [inductionHypothesis]

/-- The figures say that nothing is lost. -/
theorem noLostUpdate_of_tally {after : World}
    (figures : tally after =
      tally start + (bodies.map contribution).sum) :
    NoLostUpdate start bodies after := by
  have at_column : ∀ column, tally after column = tally start column +
      (bodies.map fun body => contribution body column).sum := by
    intro column
    rw [figures, Pi.add_apply, sum_contributions]
  constructor
  · simpa [tally, contribution, work, mint, fee, burn] using
      at_column .minted
  · simpa [tally, contribution, work, mint, fee, burn] using
      at_column .burned
  · intro epochNumber
    simpa [contribution, work, mint, fee, burn, eq_comm] using
      at_column (.fees epochNumber)
  · intro nodeId
    simpa [contribution, work, mint, fee, burn] using
      at_column (.total nodeId)
  · intro nodeId
    simpa [contribution, work, mint, fee, burn] using
      at_column (.successes nodeId)

private def contracts (bodies : List RunProcessDto) (index : ℕ) :
    Contract signature World (Column → ℚ) :=
  contract ((bodies.map RunProcessDto.processId)[index]?.getD "")

/-- What every thread owes at first. -/
private def debts (bodies : List RunProcessDto) (index : ℕ) :
    Column → ℚ :=
  (bodies.map contribution)[index]?.getD 0

private theorem sum_debts :
    ∑ index ∈ Finset.range bodies.length, debts bodies index =
      (bodies.map contribution).sum := by
  rw [Finset.sum_range, ← Fin.sum_univ_fun_getElem]
  refine Finset.sum_congr rfl ?_
  intro index _
  simp [debts]

private theorem compatible_contracts
    (distinct : (bodies.map RunProcessDto.processId).Nodup) :
    Compatible bodies.length (World.Intact env) (contracts bodies) := by
  intro index other _ _ before _ after different bound otherBound _ _
    ensured
  apply ensured.2
  intro same
  apply different
  have indexBound :
      index < (bodies.map RunProcessDto.processId).length := by
    simpa using bound
  have otherBound' :
      other < (bodies.map RunProcessDto.processId).length := by
    simpa using otherBound
  rw [List.getElem?_eq_getElem indexBound,
    List.getElem?_eq_getElem otherBound'] at same
  exact (distinct.getElem_inj_iff).mp same

private theorem secure_launch (ready : Ready env start bodies) :
    (launch env start bodies).Secure (machine env) (World.Intact env)
      (contracts bodies) (fun _ _ _ left _ => left = 0)
      (debts bodies) := by
  apply Pool.secure_fresh ready.intact
  intro index program found
  simp only [List.getElem?_map, Option.map_eq_some_iff] at found
  obtain ⟨body, isBody, rfl⟩ := found
  have member : body ∈ bodies := List.mem_of_getElem? isBody
  have nodes := body.nodeIdsNotEmpty
  have explicit := ready.explicit body member
  have registered := ready.registered body member
  simp only [contracts, debts, List.getElem?_map, isBody, Option.map_some,
    Option.getD_some]
  cases nodeIds : body.nodeIds with
  | none =>
      simp [nodeIds] at explicit
  | some assigned =>
      cases assigned with
      | nil =>
          exact absurd nodeIds nodes
      | cons first rest =>
          rw [nodeIds] at registered
          exact pays_runProcess (ready.admissible body member) nodeIds
            registered (ready.fresh body member)

private theorem permitted_of_noStaleSave {runs : Runs} {move : Move}
    (fresh : NoStaleSave runs move) :
    runs.Permitted (contracts bodies) move := by
  cases move with
  | answer index =>
      intro past request next rejected found
      have upToDate : AwaitsUpToDate runs.state runs.threads[index]? :=
        fresh
      rw [found] at upToDate
      exact upToDate
  | reject index =>
      trivial

/-- Concurrent runs lose no update in the schedules in which every save finds
the row that its run has read. -/
theorem runs_lose_no_update (ready : Ready env start bodies) {runs : Runs}
    (reached : Reaches (machine env) NoStaleSave
      (launch env start bodies) runs)
    (returned : runs.Returned) :
    NoLostUpdate start bodies runs.state := by
  have length : (launch env start bodies).threads.length =
      bodies.length := by
    simp [launch, Pool.fresh]
  have compatible : Compatible (launch env start bodies).threads.length
      (World.Intact env) (contracts bodies) :=
    length ▸ compatible_contracts ready.distinct
  obtain ⟨left, secure, sameLength, balance⟩ :=
    (secure_launch ready).conserved compatible
      (fun _ _ _ _ _ _ ensured => ensured.1)
      (fun _ _ => permitted_of_noStaleSave) reached
  have nothingLeft : ∑ index ∈ Finset.range bodies.length, left index =
      0 := by
    apply Finset.sum_eq_zero
    intro index inside
    obtain ⟨_, _, done⟩ := secure.post_of_returned returned
      (by rw [sameLength, length]; exact Finset.mem_range.mp inside)
    exact done
  apply noLostUpdate_of_tally
  rw [length, nothingLeft, add_zero, sum_debts] at balance
  exact balance

end Concurrent

/-- Two processes with the same node. -/
def sharedBodies : List RunProcessDto :=
  [Orchestrator.transferBody "p-1" (some ["node-1"]),
    Orchestrator.transferBody "p-2" (some ["node-1"])]

theorem ready_sharedBodies :
    Ready .plain Orchestrator.servedWorld sharedBodies where
  intact := World.intact_initial.run _
  distinct := by decide
  fresh := by decide +kernel
  admissible := by decide
  explicit := by decide
  registered := by decide +kernel
  epochs := by decide +kernel

/-- The second run takes place between two calls of the first. -/
def nestedRuns : Runs :=
  (launch .plain Orchestrator.servedWorld sharedBodies).play (machine .plain)
    NoStaleSave
    ((List.replicate 4 0 ++ List.replicate 60 1 ++
      List.replicate 60 0).map .answer)

theorem noLostUpdate_nestedRuns :
    NoLostUpdate Orchestrator.servedWorld sharedBodies nestedRuns.state :=
  runs_lose_no_update ready_sharedBodies (reaches_play _ .refl)
    (by decide +kernel)

/-- The two runs take turns. -/
def alternatingRuns : Runs :=
  (launch .plain Orchestrator.servedWorld sharedBodies).play (machine .plain)
    (fun _ _ => True)
    ((List.replicate 60 [0, 1]).flatten.map .answer)

/-- Runs that take turns lose a mint. -/
theorem alternating_runs_lose_update :
    Ready .plain Orchestrator.servedWorld sharedBodies ∧
      Reaches (machine .plain) (fun _ _ => True)
        (launch .plain Orchestrator.servedWorld sharedBodies) alternatingRuns ∧
      alternatingRuns.Returned ∧
      ¬NoLostUpdate Orchestrator.servedWorld sharedBodies alternatingRuns.state := by
  refine ⟨ready_sharedBodies, reaches_play _ .refl, by decide +kernel, ?_⟩
  intro nothingLost
  have minted : alternatingRuns.state.ledgerRow.processMinted ≠
      Orchestrator.servedWorld.ledgerRow.processMinted +
        (sharedBodies.map RunProcessDto.amount).sum := by
    decide +kernel
  exact minted nothingLost.processMinted

end ArosParadigm.ConcurrentRuns
