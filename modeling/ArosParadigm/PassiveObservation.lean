import ArosParadigm.Methods
import ArosParadigm.Requests
import ArosParadigm.Timeless

/-!
# Observation is passive

Every method of the services ends alike in worlds with the same records: the
times it reads go into the times it records and nowhere else. The observers
leave a world with the records it had. So observers between the calls of the
services change no answer and no record.
-/

namespace ArosParadigm

open Await

/-- The observation but for its `timestamp`. -/
def SupplySnapshot.timeless (snapshot : SupplySnapshot) : SupplySnapshot :=
  { snapshot with timestamp := 0 }

/-- The event but for its `timestamp`. -/
def ProcessEvent.timeless (event : ProcessEvent) : ProcessEvent :=
  { event with timestamp := 0 }

/-- The answer but for the times of its events. -/
def ProcessView.timeless (view : ProcessView) : ProcessView :=
  { view with events := view.events.map ProcessEvent.timeless }

/-- What a method returns, but for the times in it. -/
def Method.timeless : (method : Method) → method.Result → method.Result
  | append .., snapshot => snapshot.timeless
  | latest, snapshot => snapshot.map ExecutionSnapshot.timeless
  | getBySequence _, snapshot => snapshot.map ExecutionSnapshot.timeless
  | listSnapshots, snapshots => snapshots.map ExecutionSnapshot.timeless
  | capture .., snapshot => snapshot.timeless
  | record .., snapshot => snapshot.timeless
  | getVerdict _, verdict => verdict.map PotVerdict.timeless
  | listVerdicts, verdicts => verdicts.map PotVerdict.timeless
  | supplySnapshot, snapshot => snapshot.timeless
  | accrue .., epoch => epoch.timeless
  | getEpoch _, epoch => epoch.map Epoch.timeless
  | listEpochs, epochs => epochs.map Epoch.timeless
  | getProcess _, view => view.timeless
  | _, result => result

section Services

variable (env : Environment)

/-- A figure of the history that shows no more of the times than `shown`
does, which does not get to see them. -/
private theorem alike_history {result view : Type}
    (figure : List Snapshot → result) (see : result → view)
    (shown : List Snapshot → view)
    (reads : ∀ history, see (figure history) =
      shown (history.map ExecutionSnapshot.timeless)) :
    TimelessAlike env (fun value other => see value = see other)
      (ask .listSnapshots >>= fun history => pure (figure history))
      (ask .listSnapshots >>= fun history => pure (figure history)) := by
  refine (alike_listSnapshots env).bind fun history other same => ?_
  refine Alike.of_pure ?_
  rw [reads, reads, same]

private theorem alike_latest :
    TimelessAlike env
      (fun snapshot other => snapshot.map ExecutionSnapshot.timeless =
        other.map ExecutionSnapshot.timeless)
      NodeChain.latest NodeChain.latest :=
  alike_history env List.getLast? _ List.getLast? fun _ =>
    List.getLast?_map.symm

private theorem alike_getBySequence (sequenceId : ℕ) :
    TimelessAlike env
      (fun snapshot other => snapshot.map ExecutionSnapshot.timeless =
        other.map ExecutionSnapshot.timeless)
      (NodeChain.getBySequence sequenceId)
      (NodeChain.getBySequence sequenceId) := by
  refine alike_history env _ _ (List.find? fun snapshot =>
    snapshot.sequenceId = sequenceId) fun history => ?_
  rw [List.find?_map]
  rfl

/-- The hashes do not cover the times. -/
private theorem reconstruct_timeless (history : List Snapshot) :
    NodeChain.reconstruct env.hasher
        (history.map ExecutionSnapshot.timeless) =
      NodeChain.reconstruct env.hasher history := by
  have audited :
      HashChain.firstBroken (NodeChain.reading env.hasher)
          env.hasher.emptyText (history.map ExecutionSnapshot.timeless) =
        (HashChain.firstBroken (NodeChain.reading env.hasher)
          env.hasher.emptyText history).map
            ExecutionSnapshot.timeless := by
    apply HashChain.firstBroken_map
    · exact fun _ => rfl
    · exact fun _ => rfl
    · exact fun _ _ => rfl
  unfold NodeChain.reconstruct
  rw [audited]
  cases HashChain.firstBroken (NodeChain.reading env.hasher)
      env.hasher.emptyText history <;> rfl

private theorem alike_reconstruct :
    TimelessAlike env Eq (Pot.reconstruct env) (Pot.reconstruct env) :=
  alike_history env _ id (NodeChain.reconstruct env.hasher) fun history =>
    (reconstruct_timeless env history).symm

private theorem alike_capture (processId eventType : String)
    (data : Json.JsObject ℚ) (validatorId : Option String) :
    TimelessAlike env
      (fun snapshot other => snapshot.timeless = other.timeless)
      (StateRecording.capture processId eventType data validatorId)
      (StateRecording.capture processId eventType data validatorId) :=
  (alike_append env eventType _).bind fun _ _ same =>
    (alike_markCaptured env processId eventType).bind_eq fun _ =>
      Alike.of_pure same

private theorem alike_checkCompleteness (processId : String) :
    TimelessAlike env Eq (StateRecording.checkCompleteness processId)
      (StateRecording.checkCompleteness processId) :=
  (alike_readCaptured env processId).bind_eq fun _ => Alike.of_pure rfl

private theorem alike_verify (processId : String) :
    TimelessAlike env Eq (Pot.verify env processId)
      (Pot.verify env processId) := by
  refine (alike_findVerdict env processId).bind fun row other same => ?_
  rcases cases_of_map_eq same with ⟨rfl, rfl⟩ |
    ⟨row, other, rfl, rfl, equal⟩
  · refine (alike_readCaptured env processId).bind_eq fun captured => ?_
    refine (alike_reconstruct env).bind_eq fun chain => ?_
    refine (alike_append env _ _).bind fun snapshot other same => ?_
    have sequenceId : snapshot.sequenceId = other.sequenceId :=
      congrArg (fun row => row.sequenceId) same
    refine (alike_tick env).bind fun timestamp _ _ => ?_
    rw [sequenceId]
    refine Alike.bind_eq (alike_saveVerdict env ?_) fun _ => ?_
    · rfl
    · exact Alike.of_pure rfl
  · have verified : row.verified = other.verified :=
      congrArg (fun row => row.verified) equal
    have reasons : row.reasons = other.reasons :=
      congrArg (fun row => row.reasons) equal
    have sequenceId : row.snapshotSequenceId = other.snapshotSequenceId :=
      congrArg (fun row => row.snapshotSequenceId) equal
    dsimp only
    rw [verified, reasons, sequenceId]
    exact Alike.of_pure rfl

/-- A figure of the ledger row. -/
private theorem alike_figure {result : Type}
    (figure : ArosCoinLedger → result) :
    TimelessAlike env Eq
      (ArosCoin.ledger >>= fun row => pure (figure row))
      (ArosCoin.ledger >>= fun row => pure (figure row)) :=
  (alike_ledger env).bind_eq fun _ => Alike.of_pure rfl

/-- An update of the ledger row. -/
private theorem alike_update (update : ArosCoinLedger → ArosCoinLedger) :
    TimelessAlike env Eq
      (ArosCoin.ledger >>= fun row => ask (.saveLedger (update row)))
      (ArosCoin.ledger >>= fun row => ask (.saveLedger (update row))) :=
  (alike_ledger env).bind_eq fun row => alike_saveLedger env (update row)

private theorem alike_recordMint (amount : ℚ) :
    TimelessAlike env Eq (ArosCoin.recordMint amount)
      (ArosCoin.recordMint amount) :=
  alike_update env _

private theorem alike_recordBurn (amount : ℚ) :
    TimelessAlike env Eq (ArosCoin.recordBurn amount)
      (ArosCoin.recordBurn amount) :=
  alike_update env _

private theorem alike_recordEarned (amount : ℚ) :
    TimelessAlike env Eq (ArosCoin.recordEarned amount)
      (ArosCoin.recordEarned amount) :=
  alike_update env _

private theorem alike_totalSupply :
    TimelessAlike env Eq ArosCoin.totalSupply ArosCoin.totalSupply :=
  alike_figure env _

private theorem alike_supplyView :
    TimelessAlike env Eq ArosCoin.supplyView ArosCoin.supplyView :=
  alike_figure env _

private theorem alike_supplySnapshot :
    TimelessAlike env
      (fun snapshot other => snapshot.timeless = other.timeless)
      ArosCoin.snapshot ArosCoin.snapshot :=
  (alike_ledger env).bind_eq fun _ =>
    (alike_tick env).bind fun _ _ _ => Alike.of_pure rfl

/-- The guard of the emission does not read the time of the verdict. -/
private theorem authorizes_timeless (verdict : Option PotVerdict) :
    Emission.authorizes (verdict.map PotVerdict.timeless) =
      Emission.authorizes verdict := by
  cases verdict <;> rfl

private theorem authorizes_eq {verdict other : Option PotVerdict}
    (same : verdict.map PotVerdict.timeless =
      other.map PotVerdict.timeless) :
    Emission.authorizes verdict = Emission.authorizes other := by
  rw [← authorizes_timeless verdict, same, authorizes_timeless]

private theorem alike_mint (processId : String) (amount : ℚ) :
    TimelessAlike env Eq (Emission.mint processId amount)
      (Emission.mint processId amount) := by
  refine (alike_findVerdict env processId).bind fun verdict other same => ?_
  rw [authorizes_eq same]
  cases Emission.authorizes other with
  | true =>
      refine (alike_recordMint env amount).bind_eq fun _ => ?_
      exact (alike_append env _ _).bind fun _ _ _ => Alike.of_pure rfl
  | false =>
      exact Alike.of_fail _

private theorem alike_burn (processId : String) (amount : ℚ) :
    TimelessAlike env Eq (Emission.burn processId amount)
      (Emission.burn processId amount) :=
  (alike_recordBurn env amount).bind_eq fun _ =>
    (alike_append env _ _).bind fun _ _ _ => Alike.of_pure rfl

private theorem alike_emit (processId : String) (amount : ℚ) :
    TimelessAlike env Eq (Emission.emit processId amount)
      (Emission.emit processId amount) := by
  refine (alike_findVerdict env processId).bind fun verdict other same => ?_
  rw [authorizes_eq same]
  cases Emission.authorizes other with
  | true =>
      refine (alike_mint env processId amount).bind_eq fun minted => ?_
      exact (alike_burn env processId minted).bind_eq fun _ =>
        Alike.of_pure rfl
  | false =>
      exact Alike.of_pure rfl

private theorem alike_register (id type : String) :
    TimelessAlike env Eq (Nodes.register id type)
      (Nodes.register id type) :=
  (alike_saveNode env _).bind_eq fun _ =>
    (alike_append env _ _).bind fun _ _ _ => Alike.of_pure rfl

private theorem alike_requireNode (id : String) :
    TimelessAlike env Eq (Nodes.requireNode id) (Nodes.requireNode id) := by
  refine (alike_findNode env id).bind_eq fun found => ?_
  cases found with
  | some node =>
      exact Alike.of_pure rfl
  | none =>
      exact Alike.of_fail _

private theorem alike_recordExecution (id : String) (success : Bool) :
    TimelessAlike env Eq (Nodes.recordExecution id success)
      (Nodes.recordExecution id success) :=
  (alike_requireNode env id).bind_eq fun _ =>
    (alike_saveNode env _).bind_eq fun _ => Alike.of_pure rfl

private theorem alike_currentWeight (id : String) :
    TimelessAlike env Eq (Nodes.currentWeight id)
      (Nodes.currentWeight id) :=
  (alike_requireNode env id).bind_eq fun _ => Alike.of_pure rfl

private theorem alike_receivePayment (id : String) (amount : ℚ) :
    TimelessAlike env Eq (Nodes.receivePayment id amount)
      (Nodes.receivePayment id amount) :=
  (alike_requireNode env id).bind_eq fun _ =>
    (alike_append env _ _).bind fun _ _ _ => Alike.of_pure rfl

/-- A sum over the history of what does not depend on the times. -/
private theorem alike_sum (measure : Snapshot → ℚ)
    (timeless : ∀ snapshot : Snapshot,
      measure snapshot.timeless = measure snapshot) :
    TimelessAlike env Eq
      (ask .listSnapshots >>= fun history =>
        pure (history.map measure).sum)
      (ask .listSnapshots >>= fun history =>
        pure (history.map measure).sum) := by
  refine alike_history env _ id (fun history =>
    (history.map measure).sum) fun history => ?_
  have kept : measure ∘ ExecutionSnapshot.timeless = measure :=
    funext timeless
  rw [List.map_map, kept]
  rfl

private theorem alike_totalProcessVolume :
    TimelessAlike env Eq Reserve.totalProcessVolume
      Reserve.totalProcessVolume :=
  alike_sum env Reserve.volumeOf fun _ => rfl

private theorem alike_totalAfcReserve :
    TimelessAlike env Eq Reserve.totalAfcReserve Reserve.totalAfcReserve :=
  alike_sum env Reserve.afcOf fun _ => rfl

private theorem alike_addAfcAccrual (amount : ℚ) :
    TimelessAlike env Eq (Reserve.addAfcAccrual amount)
      (Reserve.addAfcAccrual amount) :=
  (alike_append env _ _).bind fun _ _ _ => Alike.of_pure rfl

private theorem alike_reserveIndex :
    TimelessAlike env Eq (Reserve.reserveIndex env)
      (Reserve.reserveIndex env) :=
  (alike_totalProcessVolume env).bind_eq fun _ => Alike.of_pure rfl

private theorem alike_internalPrice (base : ℚ) :
    TimelessAlike env Eq (Reserve.internalPrice env base)
      (Reserve.internalPrice env base) :=
  (alike_reserveIndex env).bind_eq fun _ => Alike.of_pure rfl

private theorem alike_velocity (processVolume24h : ℚ) :
    TimelessAlike env Eq (Release.velocity processVolume24h)
      (Release.velocity processVolume24h) := by
  refine (alike_totalSupply env).bind_eq fun supply => ?_
  split
  · exact Alike.of_pure rfl
  · exact Alike.of_pure rfl

private theorem alike_check (threshold target processVolume24h : ℚ) :
    TimelessAlike env Eq
      (Release.check env threshold target processVolume24h)
      (Release.check env threshold target processVolume24h) :=
  (alike_reserveIndex env).bind_eq fun _ =>
    (alike_velocity env processVolume24h).bind_eq fun _ =>
      Alike.of_pure rfl

private theorem active_eq {row other : ReleasePhase}
    (same : row.timeless = other.timeless) : row.active = other.active :=
  congrArg (fun row => row.active) same

private theorem alike_activate (threshold target processVolume24h : ℚ) :
    TimelessAlike env Eq
      (Release.activate env threshold target processVolume24h)
      (Release.activate env threshold target processVolume24h) := by
  refine (alike_check env threshold target processVolume24h).bind_eq
    fun check => ?_
  refine (alike_phase env).bind fun row other same => ?_
  rw [active_eq same]
  cases other.active with
  | true =>
      exact Alike.of_pure rfl
  | false =>
      cases check.mature with
      | false =>
          exact Alike.of_pure rfl
      | true =>
          refine (alike_tick env).bind fun time otherTime _ => ?_
          refine (alike_append env _ _).bind fun _ _ _ => ?_
          refine Alike.bind_eq (alike_savePhase env ?_) fun _ => ?_
          · rfl
          · exact Alike.of_pure rfl

private theorem alike_isActive :
    TimelessAlike env Eq Release.isActive Release.isActive :=
  (alike_phase env).bind fun _ _ same => Alike.of_pure (active_eq same)

/-- The stored row of an epoch, or what is done without one. -/
private theorem alike_storedEpoch (epochNumber : ℚ)
    {absent : Service Epoch}
    (alike : TimelessAlike env
      (fun row other => row.timeless = other.timeless) absent absent) :
    TimelessAlike env (fun row other => row.timeless = other.timeless)
      (ask (.findEpoch epochNumber) >>= fun found =>
        match found with
        | some epoch => pure epoch
        | none => absent)
      (ask (.findEpoch epochNumber) >>= fun found =>
        match found with
        | some epoch => pure epoch
        | none => absent) := by
  refine (alike_findEpoch env epochNumber).bind fun row other same => ?_
  rcases cases_of_map_eq same with ⟨rfl, rfl⟩ |
    ⟨row, other, rfl, rfl, equal⟩
  · exact alike
  · exact Alike.of_pure equal

private theorem alike_openEpoch (epochNumber : ℚ) :
    TimelessAlike env (fun row other => row.timeless = other.timeless)
      (Commission.openEpoch epochNumber)
      (Commission.openEpoch epochNumber) :=
  alike_storedEpoch env epochNumber
    ((alike_tick env).bind fun _ _ _ => Alike.of_pure rfl)

private theorem alike_requireEpoch (epochNumber : ℚ) :
    TimelessAlike env (fun row other => row.timeless = other.timeless)
      (Commission.requireEpoch env epochNumber)
      (Commission.requireEpoch env epochNumber) :=
  alike_storedEpoch env epochNumber (Alike.of_fail _)

/-- The fields that are no times. -/
private theorem timeless_eq {row other : Epoch}
    (same : row.timeless = other.timeless) :
    row.epochNumber = other.epochNumber ∧
      row.totalFees = other.totalFees ∧
      row.distributionLog = other.distributionLog ∧
      row.status = other.status ∧
      row.operationalMargin = other.operationalMargin := by
  cases row
  cases other
  cases same
  exact ⟨rfl, rfl, rfl, rfl, rfl⟩

private theorem alike_accrue (epochNumber fee : ℚ)
    (participants : List Participation) :
    TimelessAlike env (fun row other => row.timeless = other.timeless)
      (Commission.accrue epochNumber fee participants)
      (Commission.accrue epochNumber fee participants) := by
  refine (alike_openEpoch env epochNumber).bind fun row other same => ?_
  rcases timeless_eq same with
    ⟨number, totalFees, distributionLog, status, margin⟩
  have saved :
      ({ row with totalFees := row.totalFees + fee } : Epoch).timeless =
        { other with totalFees := other.totalFees + fee }.timeless := by
    simp only [Epoch.timeless, number, totalFees, distributionLog,
      status, margin]
  refine (alike_saveEpoch env saved).bind_eq fun _ => ?_
  exact (alike_pushParticipation env _ _).bind_eq fun _ =>
    Alike.of_pure saved

private theorem alike_confirmedVerdict (cache : List (String × Bool))
    (processId : String) :
    TimelessAlike env Eq (Commission.confirmedVerdict cache processId)
      (Commission.confirmedVerdict cache processId) := by
  unfold Commission.confirmedVerdict
  cases cache.lookup processId with
  | some confirmed =>
      exact Alike.of_pure rfl
  | none =>
      refine (alike_findVerdict env processId).bind
        fun verdict other same => ?_
      have confirmed := authorizes_eq same
      unfold Emission.authorizes at confirmed
      dsimp only
      rw [confirmed]
      exact Alike.of_pure rfl

private theorem alike_weightLoop (reference rounds index : ℕ)
    (cache : List (String × Bool)) (weights : Commission.Weights) :
    TimelessAlike env Eq
      (Commission.weightLoop reference rounds index cache weights)
      (Commission.weightLoop reference rounds index cache weights) := by
  induction rounds generalizing index cache weights with
  | zero =>
      exact Alike.of_fail _
  | succ rounds inductionHypothesis =>
      refine (alike_readParticipationAt env reference index).bind_eq
        fun entry => ?_
      cases entry with
      | none =>
          exact Alike.of_pure rfl
      | some entry =>
          refine (alike_confirmedVerdict env cache
            entry.processId).bind_eq fun answer => ?_
          rcases answer with ⟨confirmed, cache⟩
          cases confirmed with
          | true =>
              exact (alike_currentWeight env entry.nodeId).bind_eq
                fun _ => inductionHypothesis _ _ _
          | false =>
              exact inductionHypothesis _ _ _

private theorem alike_confirmedWeights (epochNumber : ℚ) :
    TimelessAlike env Eq (Commission.confirmedWeights env epochNumber)
      (Commission.confirmedWeights env epochNumber) := by
  refine (alike_readParticipation env epochNumber).bind_eq
    fun remembered => ?_
  rcases remembered with _ | ⟨reference, length⟩
  · exact Alike.of_pure rfl
  · exact alike_weightLoop env _ _ _ _ _

private theorem alike_payNodes (weights : Commission.Weights)
    (distributable totalWeight : ℚ) (ids : List String)
    (distributionLog : List DistributionEntry) (paid : ℚ) :
    TimelessAlike env Eq
      (Commission.payNodes weights distributable totalWeight ids
        distributionLog paid)
      (Commission.payNodes weights distributable totalWeight ids
        distributionLog paid) := by
  induction ids generalizing distributionLog paid with
  | nil =>
      exact Alike.of_pure rfl
  | cons nodeId rest inductionHypothesis =>
      refine (alike_receivePayment env nodeId _).bind_eq fun _ => ?_
      exact (alike_recordEarned env _).bind_eq fun _ =>
        inductionHypothesis _ _

private theorem alike_payOut (weights : Commission.Weights) (total : ℚ) :
    TimelessAlike env Eq (Commission.payOut weights total)
      (Commission.payOut weights total) := by
  unfold Commission.payOut
  dsimp only
  split
  · exact alike_payNodes env _ _ _ _ _ _
  · exact Alike.of_pure rfl

private theorem alike_payEpoch (epochNumber : ℚ) :
    TimelessAlike env Eq (Commission.finalizeEpoch env epochNumber)
      (Commission.finalizeEpoch env epochNumber) := by
  refine (alike_requireEpoch env epochNumber).bind
    fun row other same => ?_
  rcases timeless_eq same with
    ⟨number, totalFees, distributionLog, status, margin⟩
  have result : Commission.toResult row = Commission.toResult other := by
    unfold Commission.toResult
    rw [number, totalFees, distributionLog, margin]
  rw [status, result, totalFees]
  split
  · exact Alike.of_pure rfl
  · refine (alike_confirmedWeights env epochNumber).bind_eq
      fun weights => ?_
    refine (alike_payOut env weights _).bind_eq fun payments => ?_
    refine (alike_addAfcAccrual env _).bind_eq fun _ => ?_
    refine (alike_tick env).bind fun time otherTime _ => ?_
    refine Alike.bind_eq (alike_saveEpoch env ?_) fun _ => ?_
    · simp only [Epoch.timeless, number]
    refine (alike_append env _ _).bind fun _ _ _ => ?_
    exact (alike_deleteParticipation env _).bind_eq fun _ =>
      Alike.of_pure rfl

private theorem alike_epochList :
    TimelessAlike env
      (fun rows others => rows.map Epoch.timeless =
        others.map Epoch.timeless)
      Commission.list Commission.list := by
  have sorted : ∀ rows : List Epoch,
      (rows.insertionSort fun first second =>
          first.epochNumber ≤ second.epochNumber).map Epoch.timeless =
        (rows.map Epoch.timeless).insertionSort fun first second =>
          first.epochNumber ≤ second.epochNumber :=
    fun rows => List.map_insertionSort _ _ _ rows fun _ _ _ _ => Iff.rfl
  refine (alike_listEpochs env).bind fun rows others same => ?_
  refine Alike.of_pure ?_
  rw [sorted, sorted, same]

/-- Nothing is known about the entries of two oversight ledgers. -/
private theorem alike_log (eventType layer description : String) :
    TimelessAlike env (fun _ _ => True)
      (AllSeeingEye.log eventType layer description)
      (AllSeeingEye.log eventType layer description) :=
  fun _ _ same => ⟨trivial, same.log eventType layer description⟩

private theorem alike_compareSupply (observed : SupplyView) :
    TimelessAlike env Eq (AllSeeingEye.compareSupply env observed)
      (AllSeeingEye.compareSupply env observed) := by
  intro left right same
  rw [AllSeeingEye.run_compareSupply, AllSeeingEye.run_compareSupply]
  refine ⟨rfl, ?_⟩
  unfold AllSeeingEye.comparedWorld
  split
  · exact same
  · exact same.log _ _ _

private theorem alike_verifyChain :
    TimelessAlike env Eq (AllSeeingEye.verifyChain env)
      (AllSeeingEye.verifyChain env) := by
  refine (alike_reconstruct env).bind_eq fun result => ?_
  cases result.ok with
  | true =>
      exact Alike.of_pure rfl
  | false =>
      exact (alike_log env _ _ _).bind fun _ _ _ => Alike.of_pure rfl

private theorem alike_registerNodes (roster : List (String × String)) :
    TimelessAlike env Eq (Orchestrator.registerNodes roster)
      (Orchestrator.registerNodes roster) := by
  induction roster with
  | nil =>
      exact Alike.of_pure rfl
  | cons node rest inductionHypothesis =>
      exact (alike_register env _ _).bind_eq fun _ => inductionHypothesis

private theorem alike_registeredNodes :
    TimelessAlike env Eq Orchestrator.registeredNodes
      Orchestrator.registeredNodes := by
  refine (alike_listNodes env).bind_eq fun registered => ?_
  split
  · exact (alike_registerNodes env _).bind_eq fun _ =>
      alike_listNodes env
  · exact Alike.of_pure rfl

private theorem alike_resolveAssignedNodes
    (explicit : Option (List String)) :
    TimelessAlike env Eq (Orchestrator.resolveAssignedNodes explicit)
      (Orchestrator.resolveAssignedNodes explicit) := by
  have registered :
      TimelessAlike env Eq
        (Orchestrator.registeredNodes >>= fun registered =>
          pure ((registered.filter fun node =>
            node.status = .active).map NodeEntity.id))
        (Orchestrator.registeredNodes >>= fun registered =>
          pure ((registered.filter fun node =>
            node.status = .active).map NodeEntity.id)) :=
    (alike_registeredNodes env).bind_eq fun _ => Alike.of_pure rfl
  rcases explicit with _ | _ | ⟨first, rest⟩
  · exact registered
  · exact registered
  · exact Alike.of_pure rfl

private theorem alike_recordExecutions (ids : List String) :
    TimelessAlike env Eq (Orchestrator.recordExecutions ids)
      (Orchestrator.recordExecutions ids) := by
  induction ids with
  | nil =>
      exact Alike.of_pure rfl
  | cons nodeId rest inductionHypothesis =>
      exact (alike_recordExecution env nodeId true).bind_eq fun _ =>
        inductionHypothesis

private theorem alike_terminate (processId : String) (verified : Fin 2)
    (reason : RunReason) (minted fee : ℚ)
    (assignedNodes events : List String) :
    TimelessAlike env Eq
      (Orchestrator.terminate env processId verified reason minted fee
        assignedNodes events)
      (Orchestrator.terminate env processId verified reason minted fee
        assignedNodes events) :=
  (alike_reserveIndex env).bind_eq fun _ =>
    (alike_totalSupply env).bind_eq fun _ => Alike.of_pure rfl

private theorem alike_executeAndVerify (processId : String)
    (nodeIds : Option (List String)) :
    TimelessAlike env Eq
      (Orchestrator.executeAndVerify env processId nodeIds)
      (Orchestrator.executeAndVerify env processId nodeIds) := by
  refine (alike_resolveAssignedNodes env nodeIds).bind_eq fun nodes => ?_
  refine (alike_capture env _ _ _ _).bind fun _ _ _ => ?_
  refine (alike_log env _ _ _).bind fun _ _ _ => ?_
  refine (alike_capture env _ _ _ _).bind fun _ _ _ => ?_
  refine (alike_capture env _ _ _ _).bind fun _ _ _ => ?_
  refine (alike_recordExecutions env nodes).bind_eq fun _ => ?_
  refine (alike_verify env processId).bind_eq fun verdict => ?_
  refine (alike_capture env _ _ _ _).bind fun _ _ _ => ?_
  exact (alike_log env _ _ _).bind fun _ _ _ => Alike.of_pure rfl

private theorem alike_rejectUnverified (processId : String)
    (nodes : List String) :
    TimelessAlike env Eq
      (Orchestrator.rejectUnverified env processId nodes)
      (Orchestrator.rejectUnverified env processId nodes) := by
  refine (alike_capture env _ _ _ _).bind fun _ _ _ => ?_
  refine (alike_reserveIndex env).bind_eq fun reserveIndex => ?_
  refine (alike_totalSupply env).bind_eq fun supplyAfter => ?_
  refine (alike_supplyView env).bind_eq fun view => ?_
  exact (alike_compareSupply env view).bind_eq fun _ => Alike.of_pure rfl

private theorem alike_settle (processId : String) (amount epoch : ℚ)
    (nodes : List String) :
    TimelessAlike env Eq
      (Orchestrator.settle env processId amount epoch nodes)
      (Orchestrator.settle env processId amount epoch nodes) := by
  refine (alike_mint env processId amount).bind_eq fun minted => ?_
  refine (alike_capture env _ _ _ _).bind fun _ _ _ => ?_
  refine (alike_log env _ _ _).bind fun _ _ _ => ?_
  refine (alike_accrue env _ _ _).bind fun _ _ _ => ?_
  refine (alike_burn env _ _).bind_eq fun burned => ?_
  refine (alike_log env _ _ _).bind fun _ _ _ => ?_
  refine (alike_reserveIndex env).bind_eq fun reserveIndex => ?_
  refine (alike_capture env _ _ _ _).bind fun _ _ _ => ?_
  refine (alike_log env _ _ _).bind fun _ _ _ => ?_
  refine (alike_supplyView env).bind_eq fun view => ?_
  refine (alike_compareSupply env view).bind_eq fun _ => ?_
  exact (alike_totalSupply env).bind_eq fun _ => Alike.of_pure rfl

private theorem alike_runProcess (input : RunProcessDto) :
    TimelessAlike env Eq (Orchestrator.runProcess env input)
      (Orchestrator.runProcess env input) := by
  refine (alike_capture env _ _ _ _).bind fun _ _ _ => ?_
  refine (alike_log env _ _ _).bind fun _ _ _ => ?_
  cases input.admissible with
  | false =>
      exact (alike_log env _ _ _).bind fun _ _ _ =>
        alike_terminate env _ _ _ _ _ _ _
  | true =>
      refine (alike_executeAndVerify env _ _).bind_eq fun answer => ?_
      rcases answer with ⟨nodes, verdict⟩
      dsimp only
      split
      · exact alike_rejectUnverified env _ _
      · exact alike_settle env _ _ _ _

private theorem alike_finalizeEpoch (epoch : ℚ) :
    TimelessAlike env Eq (Orchestrator.finalizeEpoch env epoch)
      (Orchestrator.finalizeEpoch env epoch) := by
  refine (alike_payEpoch env epoch).bind_eq fun result => ?_
  refine (alike_log env _ _ _).bind fun _ _ _ => ?_
  refine (alike_supplyView env).bind_eq fun view => ?_
  exact (alike_compareSupply env view).bind_eq fun _ => Alike.of_pure rfl

/-- What `metrics` reads of the verdicts, an epoch and the history. -/
private theorem metrics_timeless {verdicts others : List PotVerdict}
    {row other : Option Epoch} {history after : List Snapshot}
    (sameVerdicts : verdicts.map PotVerdict.timeless =
      others.map PotVerdict.timeless)
    (sameRow : row.map Epoch.timeless = other.map Epoch.timeless)
    (sameHistory : history.map ExecutionSnapshot.timeless =
      after.map ExecutionSnapshot.timeless) :
    (verdicts.filter fun row => row.verified = 1).length =
        (others.filter fun row => row.verified = 1).length ∧
      row.map Epoch.totalFees = other.map Epoch.totalFees ∧
      history.length = after.length := by
  have counted : ∀ rows : List PotVerdict,
      (rows.filter fun row => row.verified = 1).length =
        ((rows.map PotVerdict.timeless).filter fun row =>
          row.verified = 1).length := by
    intro rows
    rw [List.filter_map, List.length_map]
    rfl
  have totals : ∀ row : Option Epoch, row.map Epoch.totalFees =
      (row.map Epoch.timeless).map Epoch.totalFees := by
    intro row
    rw [Option.map_map]
    rfl
  have lengths := congrArg List.length sameHistory
  rw [List.length_map, List.length_map] at lengths
  refine ⟨?_, ?_, lengths⟩
  · rw [counted, sameVerdicts, ← counted]
  · rw [totals, sameRow, ← totals]

private theorem alike_metrics (epoch : ℚ) :
    TimelessAlike env Eq (Orchestrator.metrics env epoch)
      (Orchestrator.metrics env epoch) := by
  refine (alike_totalSupply env).bind_eq fun totalSupply => ?_
  refine Alike.bind_eq (alike_figure env _) fun retained => ?_
  refine (alike_reserveIndex env).bind_eq fun reserveIndex => ?_
  refine (alike_listVerdicts env).bind fun verdicts others same => ?_
  refine (alike_findEpoch env epoch).bind fun row other sameRow => ?_
  refine (alike_listSnapshots env).bind fun history after sameHistory => ?_
  refine (alike_isActive env).bind_eq fun active => ?_
  rcases metrics_timeless same sameRow sameHistory with
    ⟨count, pool, length⟩
  rw [count, pool, length]
  exact Alike.of_pure rfl

private theorem events_timeless (processId : String)
    (history : List Snapshot) :
    ((history.filter fun snapshot =>
        snapshot.payload.processId? = some processId).map fun snapshot =>
          ProcessEvent.mk snapshot.eventType snapshot.sequenceId
            snapshot.timestamp).map ProcessEvent.timeless =
      ((history.map ExecutionSnapshot.timeless).filter fun snapshot =>
        snapshot.payload.processId? = some processId).map fun snapshot =>
          ProcessEvent.mk snapshot.eventType snapshot.sequenceId
            snapshot.timestamp := by
  rw [List.filter_map, List.map_map, List.map_map]
  rfl

private theorem verdictView_timeless (verdict : Option PotVerdict) :
    (verdict.map fun row => (row.verified, row.reasons)) =
      (verdict.map PotVerdict.timeless).map fun row =>
        (row.verified, row.reasons) := by
  rw [Option.map_map]
  rfl

private theorem alike_getProcess (processId : String) :
    TimelessAlike env (fun view other => view.timeless = other.timeless)
      (Orchestrator.getProcess processId)
      (Orchestrator.getProcess processId) := by
  refine (alike_findVerdict env processId).bind fun verdict other same => ?_
  refine (alike_listSnapshots env).bind fun history after sameHistory => ?_
  refine Alike.of_pure ?_
  unfold ProcessView.timeless
  dsimp only
  rw [events_timeless, events_timeless, sameHistory,
    verdictView_timeless verdict, same, ← verdictView_timeless]

/-- Every method ends alike. -/
theorem Method.alike (method : Method) :
    TimelessAlike env
      (fun value other => method.timeless value = method.timeless other)
      (method.handler env) (method.handler env) := by
  cases method with
  | append eventType payload =>
      exact alike_append env eventType payload
  | latest =>
      exact alike_latest env
  | getBySequence sequenceId =>
      exact alike_getBySequence env sequenceId
  | listSnapshots =>
      exact alike_listSnapshots env
  | reconstruct =>
      exact alike_reconstruct env
  | capture processId eventType data validatorId =>
      exact alike_capture env processId eventType data validatorId
  | record processId eventType data validatorId =>
      exact alike_capture env processId eventType data validatorId
  | capturedEvents processId =>
      exact alike_readCaptured env processId
  | checkCompleteness processId =>
      exact alike_checkCompleteness env processId
  | verify processId =>
      exact alike_verify env processId
  | getVerdict processId =>
      exact alike_findVerdict env processId
  | listVerdicts =>
      exact alike_listVerdicts env
  | recordMint amount =>
      exact alike_recordMint env amount
  | recordBurn amount =>
      exact alike_recordBurn env amount
  | recordEarned amount =>
      exact alike_recordEarned env amount
  | totalSupply =>
      exact alike_totalSupply env
  | processNet =>
      exact alike_figure env _
  | retained =>
      exact alike_figure env _
  | supplySnapshot =>
      exact alike_supplySnapshot env
  | supplyView =>
      exact alike_supplyView env
  | mint processId amount =>
      exact alike_mint env processId amount
  | burn processId amount =>
      exact alike_burn env processId amount
  | emit processId amount =>
      exact alike_emit env processId amount
  | emissionSupply =>
      exact alike_totalSupply env
  | register id type =>
      exact alike_register env id type
  | listNodes =>
      exact alike_listNodes env
  | getNode id =>
      exact alike_findNode env id
  | recordExecution id success =>
      exact alike_recordExecution env id success
  | currentWeight id =>
      exact alike_currentWeight env id
  | receivePayment id amount =>
      exact alike_receivePayment env id amount
  | accrue epochNumber fee participants =>
      exact alike_accrue env epochNumber fee participants
  | payEpoch epochNumber =>
      exact alike_payEpoch env epochNumber
  | getEpoch epochNumber =>
      exact alike_findEpoch env epochNumber
  | listEpochs =>
      exact alike_epochList env
  | totalProcessVolume =>
      exact alike_totalProcessVolume env
  | totalAfcReserve =>
      exact alike_totalAfcReserve env
  | addAfcAccrual amount =>
      exact alike_addAfcAccrual env amount
  | reserveIndex =>
      exact alike_reserveIndex env
  | internalPrice base =>
      exact alike_internalPrice env base
  | velocity processVolume24h =>
      exact alike_velocity env processVolume24h
  | check threshold target processVolume24h =>
      exact alike_check env threshold target processVolume24h
  | activate threshold target processVolume24h =>
      exact alike_activate env threshold target processVolume24h
  | isActive =>
      exact alike_isActive env
  | runProcess input =>
      exact alike_runProcess env input
  | finalizeEpoch epoch =>
      exact alike_finalizeEpoch env epoch
  | metrics epoch =>
      exact alike_metrics env epoch
  | getProcess processId =>
      exact alike_getProcess env processId
  | compareSupply observed =>
      exact alike_compareSupply env observed
  | verifyChain =>
      exact alike_verifyChain env

end Services

/-! ## Observers -/

section Observers

variable (env : Environment)

private theorem unnoticed_verifyChain :
    Unnoticed (machine env) World.SameRecords
      (AllSeeingEye.verifyChain env) := by
  intro left right same
  have reconstructed : run (machine env) (Pot.reconstruct env) left =
      (.returned (NodeChain.reconstruct env.hasher left.history), left) :=
    rfl
  rw [AllSeeingEye.verifyChain, run_bind_of_returned reconstructed]
  cases (NodeChain.reconstruct env.hasher left.history).ok with
  | true =>
      exact same
  | false =>
      exact same.log_left _ _ _

/-- An observer leaves a world with the records it had. -/
theorem Observer.unnoticed (observer : Observer) :
    Unnoticed (machine env) World.SameRecords
      (observer.handler env) := by
  intro left right same
  cases observer with
  | log eventType layer description =>
      exact same.log_left eventType layer description
  | compareSupply observed =>
      change World.SameRecords (run (machine env)
        (AllSeeingEye.compareSupply env observed) left).2 right
      rw [AllSeeingEye.run_compareSupply]
      unfold AllSeeingEye.comparedWorld
      split
      · exact same
      · exact same.log_left _ _ _
  | verifyChain =>
      exact unnoticed_verifyChain env left right same
  | verifyLog =>
      change World.SameRecords (run (machine env)
        (AllSeeingEye.verifyLog env) left).2 right
      rw [AllSeeingEye.run_verifyLog]
      exact same
  | getLog =>
      exact same
  | metrics epoch =>
      rcases Orchestrator.run_metrics env same.settledLeft epoch with
        ⟨result, returned⟩
      change World.SameRecords (run (machine env)
        (Orchestrator.metrics env epoch) left).2 right
      rw [returned]
      exact same.withLedger_left.phasedWorld_left
  | getProcess processId =>
      exact same

/-- An answer but for the times in it. -/
def timelessAnswer (answer : (services env).Answer) :
    (services env).Answer :=
  ⟨answer.1, answer.2.map (Method.timeless answer.1)⟩

/-- Wherever observers are called between the methods of the services, the
methods answer what they answer without them, and leave the same records. -/
theorem observation_is_passive (calls : List (Observer ⊕ Method)) :
    let observed := Interface.serveObserved (machine env) (services env)
      (observers env) calls .initial
    let undisturbed := Interface.serve (machine env) (services env)
      (calls.filterMap Sum.getRight?) .initial
    observed.1.map (timelessAnswer env) =
        undisturbed.1.map (timelessAnswer env) ∧
      observed.2.SameRecords undisturbed.2 :=
  @Interface.serve_of_serveObserved signature ServiceError World
    (machine env) World.SameRecords (services env) (observers env)
    Method.Result Method.timeless (Method.alike env)
    (Observer.unnoticed env) calls _ _
    (World.SameRecords.refl World.settled_initial)

end Observers

end ArosParadigm
