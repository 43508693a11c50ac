import ArosParadigm.Composition
import ArosParadigm.Corroboration

/-!
# The public methods keep to the conditions

Every public method makes a call only when what it was told before justifies
it. Only a caller who appends a payload that the services keep to themselves,
or who logs the alarm himself, makes an unjustified call.
-/

namespace ArosParadigm

open Await

/-- The alarm about NodeChain follows a history that does not
reconstruct. -/
def JustifiesAlarm (env : Environment)
    (past : List (Exchange signature)) : Call → Prop
  | .logOversight eventType layer _ =>
      IsChainAlarm eventType layer → ∃ history,
        (⟨.listSnapshots, history⟩ : Exchange signature) ∈ past ∧
          (NodeChain.reconstruct env.hasher history).ok = false
  | _ => True

/-- The conditions on a call. -/
abbrev Due (env : Environment) (past : List (Exchange signature))
    (request : Call) : Prop :=
  Justifies env past request ∧ JustifiesAlarm env past request

def Justified (env : Environment) {result : Type}
    (program : Service result) : Prop :=
  ∀ past, Obeys (Due env) (fun _ _ => True) program past

section Methods

variable {env : Environment} {result middle : Type}

theorem Call.IsFree.due {request : Call} (isFree : request.IsFree)
    (past : List (Exchange signature)) : Due env past request := by
  cases request
  case append eventType payload =>
    refine ⟨?_, trivial⟩
    cases payload <;> first | trivial | exact absurd trivial isFree
  case saveNode row =>
    exact ⟨Or.inl isFree, trivial⟩
  case savePhase row =>
    exact ⟨Or.inl isFree, trivial⟩
  case logOversight eventType layer description =>
    exact ⟨trivial, fun isAlarm => absurd isAlarm isFree⟩
  all_goals first | exact isFree.elim | exact ⟨trivial, trivial⟩

namespace Justified

theorem of_uses {program : Service result}
    (uses : Uses Call.IsFree program) : Justified env program :=
  fun _ => Obeys.of_uses (uses.weaken fun _ => Call.IsFree.due)

theorem bind {program : Service middle}
    {continuation : middle → Service result}
    (begins : Justified env program)
    (continues : ∀ value, Justified env (continuation value)) :
    Justified env (program >>= continuation) :=
  fun past => (begins past).bind fun value later _ =>
    continues value later

theorem pure (value : result) :
    Justified env (Pure.pure value : Service result) :=
  .of_uses trivial

theorem ledger : Justified env ArosCoin.ledger :=
  fun _ => Obeys.of_uses
    (ArosCoin.uses_ledger (fun _ => ⟨trivial, trivial⟩)
      (fun _ _ => ⟨trivial, trivial⟩) (fun _ => ⟨trivial, trivial⟩)
      (fun _ => ⟨trivial, trivial⟩) (fun _ => ⟨trivial, trivial⟩))

theorem update (change : ArosCoinLedger → ArosCoinLedger) :
    Justified env (ArosCoin.ledger >>= fun row =>
      ask (.saveLedger (change row))) :=
  .bind .ledger fun _ => .of_uses (uses_perform trivial _)

theorem requireNode (id : String) :
    Justified env (Nodes.requireNode id) := by
  refine .of_uses (uses_bind (uses_perform trivial _) fun node => ?_)
  cases node <;> trivial

theorem capture (processId eventType : String) (data : Json.JsObject ℚ)
    (validatorId : Option String) :
    Justified env
      (StateRecording.capture processId eventType data validatorId) := by
  intro past
  refine .perform_bind ⟨trivial, trivial⟩ fun snapshot => ?_
  refine .perform_bind ⟨?_, trivial⟩ fun _ => trivial
  exact ⟨_, validatorId, snapshot, List.mem_cons_self⟩

/-- The verdict is the one on the events and the history that were read. -/
theorem verify (processId : String) :
    Justified env (Pot.verify env processId) := by
  intro past
  refine .perform_bind ⟨trivial, trivial⟩ fun existing => ?_
  cases existing with
  | some row =>
      trivial
  | none =>
      refine .perform_bind ⟨trivial, trivial⟩ fun captured => ?_
      refine ⟨⟨trivial, trivial⟩, fun history => ?_, trivial⟩
      refine .perform_bind ⟨⟨rfl, captured, history, ?_, ?_, rfl, rfl⟩,
        trivial⟩ fun snapshot => ?_
      · exact List.mem_cons_of_mem _ List.mem_cons_self
      · exact List.mem_cons_self
      refine .perform_bind ⟨trivial, trivial⟩ fun timestamp => ?_
      refine .perform_bind ⟨⟨snapshot, rfl, ?_⟩, trivial⟩ fun _ => trivial
      exact List.mem_cons_of_mem _ List.mem_cons_self

theorem mint (processId : String) (amount : ℚ) :
    Justified env (Emission.mint processId amount) := by
  intro past
  refine .perform_bind ⟨trivial, trivial⟩ fun verdict => ?_
  cases verdict with
  | none =>
      trivial
  | some row =>
      cases isAuthorized : Emission.authorizes (some row) with
      | false =>
          trivial
      | true =>
          refine (update _ _).extends.bind fun _ later extended => ?_
          refine .perform_bind ⟨⟨rfl, row, ?_, ?_⟩, trivial⟩
            fun _ => trivial
          · exact of_decide_eq_true isAuthorized
          · exact extended.1.subset List.mem_cons_self

/-- The metrics of a node follow those that were read. -/
theorem recordExecution (id : String) (success : Bool) :
    Justified env (Nodes.recordExecution id success) := by
  intro past
  refine ⟨⟨trivial, trivial⟩, fun stored => ?_, trivial⟩
  cases stored with
  | none =>
      trivial
  | some node =>
      refine .perform_bind ⟨Or.inr ⟨id, node, success, rfl, ?_⟩,
        trivial⟩ fun _ => trivial
      exact List.mem_cons_self

/-- An accrual changes the fees of the row that was read. -/
theorem accrue (epochNumber fee : ℚ)
    (participants : List Participation) :
    Justified env (Commission.accrue epochNumber fee participants) := by
  intro past
  have pushed : ∀ (epoch : Epoch) (later : List (Exchange signature)),
      Obeys (Due env) (fun _ _ => True)
        (ask (.pushParticipation epochNumber participants) >>= fun _ =>
          Pure.pure epoch) later :=
    fun _ _ => .perform_bind ⟨trivial, trivial⟩ fun _ => trivial
  refine ⟨⟨trivial, trivial⟩, fun stored => ?_, trivial⟩
  cases stored with
  | none =>
      refine ⟨⟨trivial, trivial⟩, fun startTime => ?_, trivial⟩
      exact .perform_bind ⟨Or.inl ⟨epochNumber, startTime, _, rfl⟩,
        trivial⟩ fun _ => pushed _ _
  | some row =>
      exact .perform_bind ⟨Or.inr (Or.inl ⟨epochNumber, row, _, rfl,
        List.mem_cons_self⟩), trivial⟩ fun _ => pushed _ _

private theorem receivePayment (id : String) (amount : ℚ)
    (past : List (Exchange signature)) :
    Obeys (Due env)
      (fun _ later => ReceiptedIn later
        [⟨id, amount, Commission.reasonWork⟩])
      (Nodes.receivePayment id amount) past := by
  refine ⟨⟨trivial, trivial⟩, fun stored => ?_, trivial⟩
  cases stored with
  | none =>
      trivial
  | some node =>
      refine .perform_bind ⟨trivial, trivial⟩ fun snapshot => ?_
      intro entry member
      rw [List.mem_singleton.mp member]
      have isWork : Commission.reasonWork ≠ Commission.reasonMargin := by
        decide
      refine Or.inr ⟨isWork, node, snapshot, ?_, List.mem_cons_self⟩
      exact List.mem_cons_of_mem _ List.mem_cons_self

private theorem payNodes (weights : Commission.Weights)
    (distributable totalWeight : ℚ) (ids : List String)
    (distributionLog : List DistributionEntry) (paid : ℚ)
    (past : List (Exchange signature))
    (receipted : ReceiptedIn past distributionLog) :
    Obeys (Due env)
      (fun value later =>
        let entries := ids.map fun nodeId => DistributionEntry.mk nodeId
          (Commission.paymentOf weights distributable totalWeight nodeId)
          Commission.reasonWork
        value = (distributionLog ++ entries,
            paid + (entries.map DistributionEntry.amount).sum) ∧
          ReceiptedIn later value.1)
      (Commission.payNodes weights distributable totalWeight ids
        distributionLog paid) past := by
  induction ids generalizing distributionLog paid past with
  | nil =>
      exact ⟨by simp, receipted⟩
  | cons id rest inductionHypothesis =>
      refine (receivePayment id _ past).extends.bind ?_
      rintro _ between ⟨grown, received⟩
      refine (update _ between).extends.bind ?_
      rintro _ later ⟨extended, _⟩
      have known :=
        ((receipted.mono grown.subset).append received).mono
          extended.subset
      refine (inductionHypothesis _ _ later known).weaken ?_
      rintro value last ⟨rfl, isReceipted⟩
      exact ⟨by simp [add_assoc], isReceipted⟩

private theorem payOut (weights : Commission.Weights) (total : ℚ)
    (past : List (Exchange signature)) :
    Obeys (Due env)
      (fun value later =>
        value = (Commission.payments weights total,
            Commission.paidOf weights total) ∧
          ReceiptedIn later value.1)
      (Commission.payOut weights total) past := by
  unfold Commission.paidOf Commission.payments
  by_cases weighty : 0 < (weights.map Prod.snd).sum
  · simp only [Commission.payOut, if_pos weighty]
    refine (payNodes _ _ _ _ _ _ past (receiptedIn_nil past)).weaken
      ?_
    rintro value later ⟨rfl, isReceipted⟩
    exact ⟨by simp, isReceipted⟩
  · simp only [Commission.payOut, if_neg weighty]
    exact ⟨rfl, receiptedIn_nil past⟩

/-- A finalization follows the receipts of its payments. -/
theorem payEpoch (epochNumber : ℚ) :
    Justified env (Commission.finalizeEpoch env epochNumber) := by
  intro past
  have found :
      Justified env (Commission.requireEpoch env epochNumber) := by
    refine .of_uses (uses_bind (uses_perform trivial _) fun row => ?_)
    cases row <;> trivial
  have weighed : Justified env
      (Commission.confirmedWeights env epochNumber) :=
    .of_uses (Commission.strict_confirmedWeights env (fun _ => trivial)
      (fun _ _ => trivial) (fun _ => trivial) (fun _ => trivial)
      epochNumber).uses
  refine (found past).bind fun epoch first _ => ?_
  by_cases isOpen : epoch.status = .opened
  case neg =>
    rw [if_pos isOpen]
    trivial
  rw [if_neg (not_not.mpr isOpen)]
  refine (((weighed first).and (Commission.nodup_confirmedWeights env
    epochNumber first)).permit fun _ _ => And.left).bind ?_
  rintro weights second ⟨_, unique⟩
  refine (payOut weights epoch.totalFees second).bind ?_
  rintro _ third ⟨rfl, receipted⟩
  refine ⟨⟨trivial, trivial⟩, fun accrual => ?_, trivial⟩
  have known : ReceiptedIn
      (⟨.append "reserve.afc.accrual" (.afcAccrual
        (epoch.totalFees - Commission.paidOf weights epoch.totalFees)),
        accrual⟩ :: third)
      (Commission.distributionOf weights epoch.totalFees) := by
    refine (receipted.cons _).append ?_
    intro entry member
    rw [List.mem_singleton.mp member]
    exact Or.inl ⟨rfl, accrual, List.mem_cons_self⟩
  refine .perform_bind ⟨trivial, trivial⟩ fun endTime => ?_
  refine .perform_bind ⟨Or.inr (Or.inr ⟨epoch, weights, endTime, unique,
    rfl, known.cons _⟩), trivial⟩ fun _ => ?_
  refine .perform_bind ⟨⟨rfl, (known.cons _).cons _, epoch, weights,
    unique, rfl⟩, trivial⟩ fun _ => ?_
  exact .perform_bind ⟨trivial, trivial⟩ fun _ => trivial

/-- An activation follows an index and a velocity beyond their bounds, and
its record. -/
theorem activate (threshold target volume : ℚ) :
    Justified env (Release.activate env threshold target volume) := by
  have indexed : Justified env (Reserve.reserveIndex env) :=
    .of_uses (uses_bind (uses_bind (uses_perform trivial _)
      fun _ => trivial) fun _ => trivial)
  have velocity : Justified env (Release.velocity volume) := by
    refine .bind (.bind .ledger fun _ => .pure _) fun supply => ?_
    by_cases isEmpty : supply ≤ 0
    · rw [if_pos isEmpty]
      exact .pure _
    · rw [if_neg isEmpty]
      exact .pure _
  have checked : ∀ past, Obeys (Due env)
      (fun (check : MaturityCheck) _ => check.mature = true →
        threshold < check.reserveIndex ∧ target < check.velocity)
      (Release.check env threshold target volume) past := by
    intro past
    refine (indexed past).bind fun index later _ => ?_
    refine (velocity later).bind fun rate last _ => ?_
    exact of_decide_eq_true
  have phased : Justified env Release.phase := by
    refine .of_uses (uses_bind (uses_perform trivial _) fun row => ?_)
    cases row with
    | some existing =>
        trivial
    | none =>
        have isFree : (Call.savePhase .inactive).IsFree := rfl
        exact uses_bind (uses_perform isFree _) fun _ => trivial
  intro past
  refine (checked past).bind fun check later beyond => ?_
  refine (phased later).bind fun row last _ => ?_
  cases row.active with
  | true =>
      trivial
  | false =>
      cases isMature : check.mature with
      | false =>
          trivial
      | true =>
          refine .perform_bind ⟨trivial, trivial⟩ fun activatedAt => ?_
          refine .perform_bind ⟨⟨rfl, beyond isMature⟩, trivial⟩
            fun snapshot => ?_
          refine .perform_bind ⟨Or.inr ⟨activatedAt, _, _, threshold,
            target, snapshot, rfl, ?_⟩, trivial⟩ fun _ => trivial
          exact List.mem_cons_self

/-- The alarm follows a broken history. -/
theorem verifyChain : Justified env (AllSeeingEye.verifyChain env) := by
  intro past
  refine ⟨⟨trivial, trivial⟩, fun history => ?_, trivial⟩
  change Obeys _ _ (if _ then _ else _) _
  cases passed : (NodeChain.reconstruct env.hasher history).ok with
  | true =>
      trivial
  | false =>
      exact .perform_bind ⟨trivial, fun _ =>
        ⟨history, List.mem_cons_self, passed⟩⟩ fun _ => trivial

end Justified

theorem Assembled.justified {sent : Call → Prop}
    (isDue : ∀ request, sent request → ∀ past, Due env past request)
    {program : Service result} (assembled : Assembled env sent program) :
    Justified env program := by
  induction assembled with
  | pure value =>
      exact fun _ => trivial
  | fail reason =>
      exact fun _ => trivial
  | ask isFree =>
      exact .of_uses (uses_perform isFree _)
  | passed isSent =>
      exact fun _ => .of_uses (uses_perform (isDue _ isSent) _)
  | ledger =>
      exact .ledger
  | capture =>
      exact .capture _ _ _ _
  | verify =>
      exact .verify _
  | mint =>
      exact .mint _ _
  | recordExecution =>
      exact .recordExecution _ _
  | accrue =>
      exact .accrue _ _ _
  | payEpoch =>
      exact .payEpoch _
  | activate =>
      exact .activate _ _ _
  | verifyChain =>
      exact .verifyChain
  | bind _ _ begins continues =>
      exact .bind begins continues

end Methods

/-! ## Forged records -/

namespace PublicCall

/-- The caller appends a payload that a service keeps to itself. -/
def Forges : PublicCall → Prop
  | .inl (.append _ payload) => payload.IsOwned
  | _ => False

/-- The caller logs the alarm about NodeChain. -/
def RaisesAlarm : PublicCall → Prop
  | .inr (.log eventType layer _) => IsChainAlarm eventType layer
  | _ => False

variable {env : Environment} {call : PublicCall}

private theorem due_of_sends (honest : ¬ call.Forges)
    (quiet : ¬ call.RaisesAlarm) {request : Call}
    (sends : call.Sends request) (past : List (Exchange signature)) :
    Due env past request := by
  rcases call with method | observer
  · cases method
    case append eventType payload =>
      obtain rfl : request = .append eventType payload := sends
      have isFree : (Call.append eventType payload).IsFree := honest
      exact isFree.due past
    all_goals exact sends.elim
  · cases observer
    case log eventType layer description =>
      obtain rfl : request = .logOversight eventType layer description :=
        sends
      exact ⟨trivial, fun isAlarm => absurd isAlarm quiet⟩
    all_goals exact sends.elim

/-- Calls that forge nothing keep to the conditions of the records. -/
theorem obeys_justifies (honest : ¬ call.Forges) :
    Obeys (Justifies env) (fun _ _ => True) (call.program env) [] := by
  by_cases quiet : call.RaisesAlarm
  · rcases call with method | observer
    · exact quiet.elim
    · cases observer
      case log eventType layer description =>
        exact .perform_bind trivial fun _ => trivial
      all_goals exact quiet.elim
  · have justified : Justified env (call.program env) :=
      (PublicCall.assembled env call).justified
        fun _ => due_of_sends honest quiet
    exact (justified []).permit fun _ _ => And.left

theorem obeys_justifiesAlarm (quiet : ¬ call.RaisesAlarm) :
    Obeys (JustifiesAlarm env) (fun _ _ => True) (call.program env)
      [] := by
  by_cases honest : call.Forges
  · rcases call with method | observer
    · cases method
      case append eventType payload =>
        exact .perform_bind trivial fun _ => trivial
      all_goals exact honest.elim
    · exact honest.elim
  · have justified : Justified env (call.program env) :=
      (PublicCall.assembled env call).justified
        fun _ => due_of_sends honest quiet
    exact (justified []).permit fun _ _ => And.right

end PublicCall

end ArosParadigm
