import ArosParadigm.Spending
import ArosParadigm.DeployedRecords
import ArosParadigm.Endpoints

/-!
# Value in operation

The row of the unit ledger and the pools of the epochs are read, added to and
written back without a lock, so requests that interleave lose updates. None
of them invents value: what is burned stays within what NodeChain has minted,
what is earned within the receipts of payments, and all pools together within
the fees of what was minted.
-/

namespace ArosParadigm

open Await

section Process

variable {env : Environment} {past : List (Exchange signature)}

/-- A verification. -/
private theorem thrifty_verify (env : Environment) (processId : String) :
    Thrifty VerifyResult (Pot.verify env processId) := by
  refine thrifty_of_uses (uses_bind (uses_perform trivial _) ?_)
  intro existing
  cases existing with
  | some row =>
      trivial
  | none =>
      refine uses_bind (uses_perform trivial _) fun captured => ?_
      refine uses_bind (uses_bind (uses_perform trivial _)
        fun _ => trivial) fun chain => ?_
      refine uses_bind (uses_perform trivial _) fun snapshot => ?_
      refine uses_bind (uses_perform trivial _) fun timestamp => ?_
      exact uses_bind (uses_perform trivial _) fun _ => trivial

/-- A pool may be saved that adds to the one read before what is left. -/
theorem spends_saveEpoch {new : Epoch} {fee : ℚ}
    (isPool : new.totalFees =
      poolRegister.known new.epochNumber past + fee)
    (payable : 0 ≤ fee ∧ (0 < fee → fee ≤ poolRegister.unspent past)) :
    Spends past (.saveEpoch new) := by
  have adds : poolRegister.added past (.saveEpoch new) = fee :=
    (Register.added_of_writes rfl).trans (sub_eq_of_eq_add' isPool)
  constructor
  case burned =>
    exact Register.affords_of_idle rfl rfl
  case pools =>
    exact ⟨le_rfl, by rw [adds]; exact payable.1,
      by rw [adds]; exact payable.2⟩
  case earned =>
    exact fun _ => Register.affords_of_idle rfl rfl

theorem spends_findEpoch (epochNumber : ℚ) :
    Spends past (.findEpoch epochNumber) :=
  ⟨Register.affords_of_idle rfl rfl, Register.affords_of_idle rfl rfl,
    fun _ => Register.affords_of_idle rfl rfl⟩

private theorem spends_openEpoch (epochNumber : ℚ) :
    Obeys Spends
      (fun row later =>
        row.totalFees = poolRegister.known row.epochNumber later ∧
          burnedRegister.unspent later = burnedRegister.unspent past ∧
          poolRegister.unspent later = poolRegister.unspent past)
      (Commission.openEpoch epochNumber) past := by
  refine .perform_bind (spends_findEpoch epochNumber) fun found => ?_
  have burned : burnedRegister.unspent
      (⟨.findEpoch epochNumber, found⟩ :: past) =
        burnedRegister.unspent past :=
    Register.unspent_of_idle rfl rfl found
  have pools : poolRegister.unspent
      (⟨.findEpoch epochNumber, found⟩ :: past) =
        poolRegister.unspent past :=
    Register.unspent_of_idle rfl rfl found
  cases found with
  | some row =>
      exact ⟨(Register.known_of_reads rfl).symm, burned, pools⟩
  | none =>
      have ticks : Thrifty ℕ (ask .tick) :=
        thrifty_of_uses (uses_perform trivial _)
      refine ticks.pass fun startTime later ticked => ?_
      refine ⟨?_, ticked.same_burned.trans burned,
        ticked.same_pools.trans pools⟩
      have nothing : poolRegister.known epochNumber
          (⟨.findEpoch epochNumber, none⟩ :: past) = 0 :=
        Register.known_of_reads rfl
      exact ((ticked.known epochNumber).trans nothing).symm

/-- The fee of a process enters a pool out of what was minted. -/
private theorem spends_accrue (epochNumber : ℚ) {fee : ℚ}
    (participants : List Participation) (isNonneg : 0 ≤ fee)
    (covered : fee ≤ poolRegister.unspent past) :
    Obeys Spends
      (fun _ later => burnedRegister.unspent later =
        burnedRegister.unspent past)
      (Commission.accrue epochNumber fee participants) past := by
  refine (spends_openEpoch epochNumber).bind ?_
  rintro row middle ⟨known, sameBurned, samePools⟩
  have payable : 0 ≤ fee ∧
      (0 < fee → fee ≤ poolRegister.unspent middle) :=
    ⟨isNonneg, fun _ => covered.trans samePools.ge⟩
  refine .perform_bind
    (spends_saveEpoch (congrArg (· + fee) known) payable) fun saved => ?_
  have pushes : Thrifty Unit
      (ask (.pushParticipation epochNumber participants)) :=
    thrifty_of_uses (uses_perform trivial _)
  refine pushes.pass fun _ later pushed => ?_
  have kept : burnedRegister.unspent (⟨.saveEpoch
      { row with totalFees := row.totalFees + fee }, saved⟩ :: middle) =
        burnedRegister.unspent middle :=
    Register.unspent_of_idle rfl rfl saved
  exact pushed.same_burned.trans (kept.trans sameBurned)

private theorem computeFee_nonneg {amount : ℚ} (isNonneg : 0 ≤ amount) :
    0 ≤ Commission.computeFee amount := by
  unfold Commission.computeFee Commission.feeRate
  linarith

/-- A mint pays for a burn of the same amount and for its fee. -/
private theorem spends_mint (processId : String) {amount : ℚ}
    (isNonneg : 0 ≤ amount) :
    Obeys Spends
      (fun minted later => minted = amount ∧
        Gains amount 0 (Commission.computeFee amount) past later)
      (Emission.mint processId amount) past := by
  have finds : (Call.findVerdict processId).IsIdle := trivial
  refine .perform_bind (finds.spends past) fun verdict => ?_
  have found := finds.gains past verdict
  cases Emission.authorizes verdict with
  | false =>
      trivial
  | true =>
      have recorded : Thrifty Unit (ArosCoin.recordMint amount) := by
        intro past
        have updates := @spends_update past 0 0
          (fun row => { row with
            processMinted := row.processMinted + amount })
          (fun _ => (add_zero _).symm) (fun _ => (add_zero _).symm)
          (nothing_covered _) fun _ => nothing_covered _
        rw [neg_zero] at updates
        exact updates
      refine recorded.pass fun _ middle unmoved => ?_
      have before := found.nothing_trans unmoved
      refine .perform_bind ?_ fun snapshot => ⟨rfl, ?_⟩
      · exact ⟨⟨isNonneg, le_rfl, (nothing_covered _).2⟩,
          ⟨computeFee_nonneg isNonneg, le_rfl, (nothing_covered _).2⟩,
          fun _ => Register.affords_of_idle rfl rfl⟩
      · refine before.nothing_trans ⟨List.suffix_cons _ _, ?_, ?_, ?_, ?_⟩
        · exact sub_zero _
        · exact (Register.unspent_of_idle rfl rfl snapshot).trans
            (add_zero _).symm
        · exact sub_zero _
        · exact fun _ => Register.known_of_unread rfl

private theorem spends_burn (processId : String) {amount : ℚ}
    (isNonneg : 0 ≤ amount)
    (covered : amount ≤ burnedRegister.unspent past) :
    Obeys Spends (fun _ _ => True) (Emission.burn processId amount)
      past := by
  have updates := @spends_update past amount 0
    (fun row => { row with processBurned := row.processBurned + amount })
    (fun _ => rfl) (fun _ => (add_zero _).symm)
    ⟨isNonneg, fun _ => covered⟩ (fun _ => nothing_covered _)
  refine updates.bind fun _ middle _ => ?_
  have appends : (Call.append "emission.burned"
    (.emissionBurned processId amount)).IsIdle := trivial
  exact .perform_bind (appends.spends middle) fun _ => trivial

/-- A verified process. -/
private theorem spends_settle (processId : String) {amount : ℚ}
    (isNonneg : 0 ≤ amount) (epoch : ℚ) (nodes : List String)
    (burned : 0 ≤ burnedRegister.unspent past)
    (pools : 0 ≤ poolRegister.unspent past) :
    Obeys Spends (fun _ _ => True)
      (Orchestrator.settle env processId amount epoch nodes) past := by
  rw [Orchestrator.settle_eq]
  refine (spends_mint processId isNonneg).bind ?_
  rintro amount minted ⟨rfl, paid⟩
  have consolidates : Obeys Spends
      (fun _ later => burnedRegister.unspent later =
        burnedRegister.unspent minted)
      (Orchestrator.consolidate env processId amount epoch amount nodes)
      minted := by
    refine (watches_thrifty.onlooker (Onlooker.strict_capture _ _ _ _)).pass
      fun _ captured gains => ?_
    refine (watches_thrifty.onlooker (Onlooker.strict_log _ _ _)).pass
      fun _ logged gained => ?_
    have both := gains.nothing_trans gained
    refine (spends_accrue epoch _ (computeFee_nonneg isNonneg) ?_).bind
      fun _ later same => ?_
    · rw [both.same_pools, paid.pools]
      linarith
    · exact same.trans both.same_burned
  refine consolidates.bind fun _ accrued same => ?_
  refine (spends_burn processId isNonneg ?_).bind fun _ later _ => ?_
  · rw [same, paid.burned]
    linarith
  exact (watches_thrifty.finish env processId amount amount _ nodes
    later).weaken fun _ _ _ => trivial

theorem spends_runProcess (input : RunProcessDto) :
    Obeys Spends (fun _ _ => True) (Orchestrator.runProcess env input)
      [] := by
  cases isAdmissible : input.admissible with
  | false =>
      exact (watches_thrifty.runProcess_of_inadmissible env isAdmissible
        []).weaken fun _ _ _ => trivial
  | true =>
      rw [Orchestrator.runProcess_eq_of_admissible env isAdmissible]
      refine (watches_thrifty.onlooker
        (Orchestrator.strict_prologue env input)).pass
          fun nodes first prepared => ?_
      refine (thrifty_verify env input.processId).pass
        fun verdict second judged => ?_
      refine (watches_thrifty.onlooker
        (Orchestrator.strict_recordVerdict _ verdict)).pass
          fun _ third recorded => ?_
      have gains :=
        (prepared.nothing_trans judged).nothing_trans recorded
      by_cases confirmed : verdict.verified = 1
      · rw [if_neg (not_not.mpr confirmed)]
        exact spends_settle _ input.amountPositive.le _ _
          gains.same_burned.ge gains.same_pools.ge
      · rw [if_pos confirmed]
        exact (watches_thrifty.rejectUnverified env _ nodes third).weaken
          fun _ _ _ => trivial

end Process

section Epochs

variable {env : Environment} {past : List (Exchange signature)}
variable {weights : Commission.Weights}

/-- No weight is negative. -/
def Commission.Weights.Nonneg (weights : Commission.Weights) : Prop :=
  ∀ entry ∈ weights, 0 ≤ entry.2

theorem Commission.Weights.Nonneg.weightOf (nonneg : weights.Nonneg)
    (nodeId : String) :
    0 ≤ (Commission.weightOf weights nodeId).getD 0 := by
  unfold Commission.weightOf
  cases found : weights.lookup nodeId with
  | none =>
      exact le_rfl
  | some weight =>
      obtain ⟨front, back, rfl, _⟩ := List.lookup_eq_some_iff.mp found
      exact nonneg (nodeId, weight)
        (List.mem_append_right _ List.mem_cons_self)

theorem Commission.Weights.Nonneg.add (nonneg : weights.Nonneg)
    (nodeId : String) {weight : ℚ} (isNonneg : 0 ≤ weight) :
    (Commission.addWeight weights nodeId weight).Nonneg := by
  intro entry member
  rcases Keyed.eq_or_mem_of_mem_upsert Prod.fst member with rfl | old
  · exact add_nonneg (nonneg.weightOf nodeId) isNonneg
  · exact nonneg entry old

theorem Commission.Weights.Nonneg.payment (nonneg : weights.Nonneg)
    {distributable : ℚ} (isNonneg : 0 ≤ distributable) (nodeId : String) :
    0 ≤ Commission.paymentOf weights distributable
      (weights.map Prod.snd).sum nodeId := by
  have total : 0 ≤ (weights.map Prod.snd).sum := by
    refine List.sum_nonneg fun weight member => ?_
    obtain ⟨entry, isEntry, rfl⟩ := List.mem_map.mp member
    exact nonneg entry isEntry
  exact div_nonneg (mul_nonneg (nonneg.weightOf nodeId) isNonneg) total

private theorem nonneg_currentWeight (nodeId : String) :
    Obeys (fun _ _ => True)
      (fun weight later => past <:+ later ∧ (Sane later → 0 ≤ weight))
      (Nodes.currentWeight nodeId) past := by
  refine Obeys.extends ⟨trivial, fun stored => ?_, trivial⟩
  cases stored with
  | none =>
      trivial
  | some node =>
      exact fun sane => sane _ List.mem_cons_self

private theorem nonneg_weightLoop (reference rounds index : ℕ)
    (cache : List (String × Bool)) (nonneg : Sane past → weights.Nonneg) :
    Obeys (fun _ _ => True)
      (fun weights later => Sane later → Commission.Weights.Nonneg weights)
      (Commission.weightLoop reference rounds index cache weights)
      past := by
  induction rounds generalizing index cache weights past with
  | zero =>
      trivial
  | succ rounds inductionHypothesis =>
      refine .perform_bind trivial fun entry => ?_
      have seen : Sane (⟨.readParticipationAt reference index, entry⟩ ::
          past) → weights.Nonneg :=
        fun sane => nonneg (sane.of_suffix (List.suffix_cons _ _))
      cases entry with
      | none =>
          exact seen
      | some entry =>
          have judges : Obeys (fun _ _ => True) (fun _ _ => True)
              (Commission.confirmedVerdict cache entry.processId)
              (⟨.readParticipationAt reference index, some entry⟩ ::
                past) :=
            obeys_of_forall (fun _ _ => trivial) _
          refine judges.extends.bind ?_
          rintro ⟨isConfirmed, nextCache⟩ later ⟨isLater, -⟩
          have still : Sane later → weights.Nonneg :=
            fun sane => seen (sane.of_suffix isLater)
          cases isConfirmed with
          | false =>
              exact inductionHypothesis _ _ still
          | true =>
              refine (nonneg_currentWeight entry.nodeId).bind ?_
              rintro weight last ⟨isLast, isNonneg⟩
              refine inductionHypothesis _ _ fun sane => ?_
              have before := still (sane.of_suffix isLast)
              exact before.add _ (isNonneg sane)

/-- Sane replies give weights that are not negative. -/
private theorem nonneg_confirmedWeights (epochNumber : ℚ) :
    Obeys (fun _ _ => True)
      (fun weights later => past <:+ later ∧
        (Sane later → Commission.Weights.Nonneg weights))
      (Commission.confirmedWeights env epochNumber) past := by
  refine Obeys.extends (.perform_bind trivial fun array => ?_)
  cases array with
  | none =>
      exact fun _ => nofun
  | some array =>
      exact nonneg_weightLoop _ _ _ _ fun _ => nofun

/-- A receipt pays for what is earned. -/
private theorem spends_receivePayment (id : String) {amount : ℚ}
    (isNonneg : Sane past → 0 ≤ amount) :
    Obeys Spends (fun _ later => Gains 0 amount 0 past later)
      (Nodes.receivePayment id amount) past := by
  refine (watches_thrifty.onlooker (Onlooker.strict_requireNode id)).pass
    fun node middle gains => ?_
  have free : poolRegister.pays (.append "node.payment.received"
      (.paymentReceived node.id amount node.weight)) = 0 :=
    @worth_feeBy_of_unminted (.append _ (.paymentReceived ..)) rfl
  refine .perform_bind ?_ fun snapshot => gains.nothing_trans ?_
  · exact ⟨Register.affords_of_idle rfl rfl,
      Register.affords_of_idle free rfl,
      fun sane => ⟨isNonneg (sane.of_suffix gains.isSuffix), le_rfl,
        (nothing_covered _).2⟩⟩
  · constructor
    case isSuffix =>
      exact List.suffix_cons _ _
    case burned =>
      rw [add_zero]
      exact Register.unspent_of_idle rfl rfl snapshot
    case earned =>
      exact sub_zero _
    case pools =>
      rw [add_zero]
      exact Register.unspent_of_idle free rfl snapshot
    case known =>
      exact fun _ => Register.known_of_unread rfl

/-- A payment is earned as far as its receipt goes. -/
private theorem spends_payNodes (distributable totalWeight : ℚ)
    (ids : List String) (distributionLog : List DistributionEntry)
    (paid : ℚ) (solvent : 0 ≤ earnedRegister.unspent past)
    (payable : Sane past → ∀ nodeId,
      0 ≤ Commission.paymentOf weights distributable totalWeight nodeId) :
    Obeys Spends (fun _ later => Gains.Nothing past later)
      (Commission.payNodes weights distributable totalWeight ids
        distributionLog paid) past := by
  induction ids generalizing distributionLog paid past with
  | nil =>
      exact Gains.refl
  | cons id rest inductionHypothesis =>
      let amount :=
        Commission.paymentOf weights distributable totalWeight id
      have receives := @spends_receivePayment past id amount
        fun sane => payable sane id
      refine receives.bind fun _ middle received => ?_
      have earns := @spends_update middle 0 amount
        (fun row => { row with
          earnedRetained := row.earnedRetained + amount })
        (fun _ => (add_zero _).symm) (fun _ => rfl) (nothing_covered _)
        fun sane => ⟨payable (sane.of_suffix received.isSuffix) id,
          fun _ => by rw [received.earned]; linarith⟩
      refine earns.bind fun _ later earned => ?_
      have balanced : Gains.Nothing past later := by
        have both := received.trans earned
        rwa [neg_zero, add_zero, add_neg_cancel] at both
      refine (inductionHypothesis _ _ ?_ ?_).weaken ?_
      · rw [balanced.same_earned]
        exact solvent
      · exact fun sane => payable (sane.of_suffix balanced.isSuffix)
      · exact fun _ last gains => balanced.nothing_trans gains

/-- The payments of an epoch out of a pool that is not negative. -/
private theorem spends_payOut {total : ℚ}
    (solvent : 0 ≤ earnedRegister.unspent past)
    (nonneg : Sane past → weights.Nonneg)
    (isPool : Sane past → 0 ≤ total) :
    Obeys Spends (fun _ later => Gains.Nothing past later)
      (Commission.payOut weights total) past := by
  unfold Commission.payOut
  by_cases weighty : 0 < (weights.map Prod.snd).sum
  · simp only [if_pos weighty]
    refine spends_payNodes _ _ _ _ _ solvent fun sane => ?_
    refine (nonneg sane).payment (mul_nonneg (isPool sane) ?_)
    norm_num [Commission.marginRate]
  · simp only [if_neg weighty]
    exact Gains.refl

private theorem spends_requireEpoch (epochNumber : ℚ) :
    Obeys Spends
      (fun row later =>
        row.totalFees = poolRegister.known row.epochNumber later ∧
          earnedRegister.unspent later = earnedRegister.unspent past ∧
          (Sane later → 0 ≤ row.totalFees))
      (Commission.requireEpoch env epochNumber) past := by
  refine .perform_bind (spends_findEpoch epochNumber) fun found => ?_
  cases found with
  | none =>
      trivial
  | some row =>
      exact ⟨(Register.known_of_reads rfl).symm,
        Register.unspent_of_idle rfl rfl _,
        fun sane => sane _ List.mem_cons_self⟩

/-- A finalization writes back the pool that it has read. -/
private theorem spends_payEpoch (epochNumber : ℚ) :
    Obeys Spends (fun _ _ => True)
      (Commission.finalizeEpoch env epochNumber) [] := by
  refine (spends_requireEpoch epochNumber).bind ?_
  rintro row first ⟨known, solvent, isPool⟩
  by_cases isOpen : row.status = .opened
  case neg =>
    rw [if_pos isOpen]
    trivial
  rw [if_neg (not_not.mpr isOpen)]
  have weighs : Thrifty Commission.Weights
      (Commission.confirmedWeights env epochNumber) :=
    thrifty_of_uses (Commission.strict_confirmedWeights env
      (fun _ => trivial) (fun _ _ => trivial) (fun _ => trivial)
      (fun _ => trivial) epochNumber).uses
  refine (((weighs first).and (nonneg_confirmedWeights
    epochNumber)).permit fun _ _ => And.left).bind ?_
  rintro weights second ⟨weighed, -, nonneg⟩
  refine (spends_payOut ?_ nonneg fun sane =>
    isPool (sane.of_suffix weighed.isSuffix)).bind ?_
  · rw [weighed.same_earned, solvent]
    exact le_rfl
  rintro ⟨payments, paid⟩ third gains
  have accrues : Thrifty Unit
      (Reserve.addAfcAccrual (row.totalFees - paid)) :=
    thrifty_of_uses (uses_bind (uses_perform trivial _) fun _ => trivial)
  refine accrues.pass fun _ fourth accrued => ?_
  have ticks : Thrifty ℕ (ask .tick) :=
    thrifty_of_uses (uses_perform trivial _)
  refine ticks.pass fun endTime fifth ticked => ?_
  have since := ((weighed.nothing_trans gains).nothing_trans
    accrued).nothing_trans ticked
  refine .perform_bind (@spends_saveEpoch fifth _ 0 ?_ (nothing_covered _))
    fun saved => ?_
  · rw [add_zero, since.known]
    exact known
  have appends : ∀ eventType distributionLog, Thrifty Snapshot
      (ask (.append eventType (.epochFinalized epochNumber row.totalFees
        (row.totalFees - paid) paid (Commission.isReconciled paid
          (row.totalFees - paid) row.totalFees) distributionLog))) :=
    fun _ _ => thrifty_of_uses (uses_perform trivial _)
  refine (appends _ _).pass fun _ seventh _ => ?_
  have deletes : Thrifty Unit (ask (.deleteParticipation epochNumber)) :=
    thrifty_of_uses (uses_perform trivial _)
  exact deletes.pass fun _ _ _ => trivial

end Epochs

section Endpoints

variable {env : Environment}

private theorem spends_finalizeEpoch (epoch : ℚ) :
    Obeys Spends (fun _ _ => True) (Orchestrator.finalizeEpoch env epoch)
      [] := by
  refine (spends_payEpoch epoch).bind fun result first _ => ?_
  refine (watches_thrifty.onlooker (Onlooker.strict_log _ _ _)).pass
    fun _ second _ => ?_
  refine (watches_thrifty.ofLedger _).pass fun view third _ => ?_
  exact (watches_thrifty.onlooker
    (Onlooker.strict_compareSupply env view)).pass fun _ _ _ => trivial

private theorem spends_metrics (epoch : ℚ) :
    Obeys Spends (fun _ _ => True) (Orchestrator.metrics env epoch)
      [] := by
  refine (watches_thrifty.ofLedger _).pass fun _ first _ => ?_
  refine (watches_thrifty.ofLedger _).pass fun _ second _ => ?_
  refine (watches_thrifty.onlooker
    (Onlooker.strict_reserveIndex env)).pass fun _ third _ => ?_
  have lists : (Call.listVerdicts).IsIdle := trivial
  refine .perform_bind (lists.spends third) fun verdicts => ?_
  refine .perform_bind (spends_findEpoch epoch) fun found => ?_
  have reads : (Call.listSnapshots).IsIdle := trivial
  refine .perform_bind (reads.spends _) fun history => ?_
  have active : Thrifty Bool Release.isActive := by
    refine thrifty_of_uses (uses_bind ?_ fun _ => trivial)
    refine uses_bind (uses_perform trivial _) fun row => ?_
    cases row with
    | none =>
        exact uses_bind (uses_perform trivial _) fun _ => trivial
    | some stored =>
        trivial
  exact active.pass fun _ _ _ => trivial

/-- What every endpoint does. -/
theorem PublicCall.spends_of_isEndpoint {call : PublicCall}
    (isEndpoint : call.IsEndpoint) :
    Obeys Spends (fun _ _ => True) (call.program env) [] := by
  rcases call with method | observer
  · cases method
    case runProcess input =>
      exact (spends_runProcess input).bind fun _ _ _ => trivial
    case getProcess processId =>
      exact (watches_thrifty.getProcess processId).pass
        fun _ _ _ => trivial
    case metrics epoch =>
      exact (spends_metrics epoch).bind fun _ _ _ => trivial
    case finalizeEpoch epoch =>
      exact (spends_finalizeEpoch epoch).bind fun _ _ _ => trivial
    all_goals exact isEndpoint.elim
  · exact isEndpoint.elim

end Endpoints

/-! ## Value in operation -/

theorem worth_feeBy_eq (world : World) :
    world.worth feeBy = Commission.computeFee (world.worth mintedBy) := by
  unfold World.worth
  induction world.events with
  | nil =>
      simp [Commission.computeFee]
  | cons event events inductionHypothesis =>
      simp only [List.map_cons, List.sum_cons, inductionHypothesis, feeBy,
        Commission.computeFee]
      ring

namespace Deployed

variable {env : Environment} {admits : PublicCall → Prop} {pool : Deployed}

private theorem admitted_spends
    (only : ∀ call, admits call → call.IsEndpoint)
    (program : Service PublicCall.Answer)
    (isAdmitted : (deployment env admits).admitted program) :
    Obeys Spends (fun _ _ => True) program [] := by
  obtain ⟨call, admitted, rfl⟩ := isAdmitted
  exact PublicCall.spends_of_isEndpoint (only call admitted)

private theorem exists_funded_burned
    (only : ∀ call, admits call → call.IsEndpoint)
    (reached : Reached env admits pool) :
    ∃ credits, Vault.Funded
      (columnVault env admits ArosCoinLedger.processBurned mintedBy) pool
      credits :=
  @Vault.exists_funded _ _ _ _ _ _ _ _ _ _ _ (fun _ _ => True)
    (fun _ => True) (fun _ => rfl) le_rfl
    (fun program isAdmitted => (admitted_spends only program
      isAdmitted).permit fun _ _ spends _ => spends.burned)
    (fun _ _ _ _ => trivial) reached

private theorem exists_funded_pools
    (only : ∀ call, admits call → call.IsEndpoint)
    (reached : Reached env admits pool) :
    ∃ credits, Vault.Funded (poolVault env admits) pool credits :=
  @Vault.exists_funded _ _ _ _ _ _ _ _ _ _ _ (fun _ _ => True)
    (fun _ => True) (fun _ => rfl) le_rfl
    (fun program isAdmitted => (admitted_spends only program
      isAdmitted).permit fun _ _ spends _ => spends.pools)
    (fun _ _ _ _ => trivial) reached

/-- Neither a weight nor a pool that is read is negative. -/
private theorem sane_of_reached
    (only : ∀ call, admits call → call.IsEndpoint)
    (reached : Reached env admits pool) :
    ∀ thread ∈ pool.threads, Sane thread.past := by
  intro thread isThread exchange member
  have obeys : ∀ program, (deployment env admits).admitted program →
      Obeys (Justifies env) (fun _ _ => True) program [] := by
    rintro program ⟨call, admitted, rfl⟩
    refine call.obeys_justifies fun forges => ?_
    have isEndpoint := only call admitted
    rcases call with method | observer
    · cases method <;> first
        | exact forges
        | exact isEndpoint
    · exact forges
  have tells := ((corroborationGuard env admits).reachable obeys
    World.corroborated_initial reached).2 thread isThread exchange member
  have pools := (poolVault env admits).read_nonneg
    (fun earlier reachable epochNumber => by
      obtain ⟨_, funded⟩ := exists_funded_pools only reachable
      exact (funded.amounts epochNumber).1)
    reached thread isThread exchange member
  obtain ⟨request, reply⟩ := exchange
  cases request
  case findNode id =>
    cases reply with
    | none =>
        trivial
    | some node =>
        have sound : Nodes.Sound node := tells.2
        change 0 ≤ node.weight
        rw [sound.weight_eq_reputation]
        exact sound.reputation_nonneg
  case findEpoch epochNumber =>
    cases reply with
    | none =>
        trivial
    | some row =>
        exact pools row.epochNumber row.totalFees rfl
  all_goals trivial

private theorem exists_funded_earned
    (only : ∀ call, admits call → call.IsEndpoint)
    (reached : Reached env admits pool) :
    ∃ credits, Vault.Funded
      (columnVault env admits ArosCoinLedger.earnedRetained paidBy) pool
      credits :=
  @Vault.exists_funded _ _ _ _ _ _ _ _ _ _ _ (fun _ _ => True)
    Sane (fun _ => rfl) le_rfl
    (fun program isAdmitted => (admitted_spends only program
      isAdmitted).permit fun _ _ spends => spends.earned)
    (fun _ reachable => sane_of_reached only reachable) reached

/-- Through the endpoints no value is invented, whatever updates are lost:
what the ledger row counts as burned stays within what NodeChain has minted,
what it counts as earned within the receipts of payments, and all pools
together within the fee of what was minted. -/
theorem value_backed (env : Environment) (admits : PublicCall → Prop)
    (only : ∀ call, admits call → call.IsEndpoint) (pool : Deployed)
    (reached : Reached env admits pool) :
    (0 ≤ pool.state.ledgerRow.processBurned ∧
        pool.state.ledgerRow.processBurned ≤
          pool.state.worth mintedBy) ∧
      (0 ≤ pool.state.ledgerRow.earnedRetained ∧
        pool.state.ledgerRow.earnedRetained ≤ pool.state.worth paidBy) ∧
      (∀ row ∈ pool.state.epochs.rows, 0 ≤ row.totalFees) ∧
      (pool.state.epochs.rows.map Epoch.totalFees).sum ≤
        Commission.computeFee (pool.state.worth mintedBy) := by
  obtain ⟨_, burned⟩ := exists_funded_burned only reached
  obtain ⟨_, earned⟩ := exists_funded_earned only reached
  obtain ⟨_, pools⟩ := exists_funded_pools only reached
  have pool_of_mem : ∀ row ∈ pool.state.epochs.rows,
      pool.state.pool row.epochNumber = row.totalFees := by
    intro row member
    simp only [World.pool, Keyed.Table.find?_of_mem member,
      Option.elim_some]
  refine ⟨⟨(burned.amounts ()).1, ?_⟩, ⟨(earned.amounts ()).1, ?_⟩, ?_,
    ?_⟩
  · exact burned.amount_le ()
  · exact earned.amount_le ()
  · intro row member
    rw [← pool_of_mem row member]
    exact (pools.amounts row.epochNumber).1
  · have covered := pools.sum_amount_le pool.state.epochs.unique
    rw [List.map_map] at covered
    rw [← worth_feeBy_eq, ← List.map_congr_left pool_of_mem]
    exact covered

theorem value_backed_of_eventfulDay :
    let pool := play .plain eventfulDay
    (0 ≤ pool.state.ledgerRow.processBurned ∧
          pool.state.ledgerRow.processBurned ≤
            pool.state.worth mintedBy) ∧
        (0 ≤ pool.state.ledgerRow.earnedRetained ∧
          pool.state.ledgerRow.earnedRetained ≤
            pool.state.worth paidBy) ∧
        (∀ row ∈ pool.state.epochs.rows, 0 ≤ row.totalFees) ∧
        (pool.state.epochs.rows.map Epoch.totalFees).sum ≤
          Commission.computeFee (pool.state.worth mintedBy) :=
  value_backed .plain PublicCall.IsEndpoint (fun _ => id) _
    (reached_eventfulDay (fun _ => trivial) (fun _ => trivial)
      (fun _ => trivial) fun _ => trivial)

end Deployed

end ArosParadigm
