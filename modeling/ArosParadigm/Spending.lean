import ArosParadigm.Library.Registers
import ArosParadigm.BackedAnswers

/-!
# Spending

What the row of the unit ledger and the pools of the epochs may grow by, the
calls that add no more to them than what their method has paid for, and the
parts of a method that add and pay nothing.
-/

namespace ArosParadigm

open Await

def mintedBy : ChainEvent → ℚ
  | (_, .emissionMinted _ minted) => minted
  | _ => 0

/-- The fee of what an event mints. -/
def feeBy (event : ChainEvent) : ℚ :=
  Commission.computeFee (mintedBy event)

/-- What an event pays out to a node. -/
def paidBy : ChainEvent → ℚ
  | (_, .paymentReceived _ amount _) => amount
  | _ => 0

def Call.worth (worth : ChainEvent → ℚ) : Call → ℚ
  | .append eventType payload => worth (eventType, payload)
  | _ => 0

/-- What all events of NodeChain are worth. -/
def World.worth (worth : ChainEvent → ℚ) (world : World) : ℚ :=
  (world.events.map worth).sum

def World.pool (world : World) (epochNumber : ℚ) : ℚ :=
  (world.epochs.find? epochNumber).elim 0 Epoch.totalFees

section Steps

variable {env : Environment} {admits : PublicCall → Prop}
variable {request : Call} {reply : request.Reply} {world after : World}

theorem worth_of_answered (worth : ChainEvent → ℚ)
    (answered : machine env request world = some (reply, after)) :
    after.worth worth = world.worth worth + request.worth worth := by
  have appended := (eventJournal env fun _ => True).appends request world
    reply after answered
  unfold World.worth
  rw [show after.events = world.events ++ appendedEvents ⟨request, reply⟩
    from appended, List.map_append, List.sum_append]
  congr 1
  cases request with
  | append eventType payload =>
      exact List.sum_singleton
  | _ =>
      rfl

theorem ledger_of_answered (idle : ∀ row, request ≠ .saveLedger row)
    (answered : machine env request world = some (reply, after)) :
    after.ledger = world.ledger := by
  cases request with
  | saveLedger row =>
      exact absurd rfl (idle row)
  | claimInitialization =>
      obtain ⟨_, rfl⟩ := eq_of_claimInitialization answered
      rfl
  | awaitInitialization =>
      obtain rfl := eq_of_awaitInitialization answered
      rfl
  | _ =>
      cases answered
      rfl

theorem epochs_of_answered (idle : ∀ row, request ≠ .saveEpoch row)
    (answered : machine env request world = some (reply, after)) :
    after.epochs = world.epochs := by
  cases request with
  | saveEpoch row =>
      exact absurd rfl (idle row)
  | claimInitialization =>
      obtain ⟨_, rfl⟩ := eq_of_claimInitialization answered
      rfl
  | awaitInitialization =>
      obtain rfl := eq_of_awaitInitialization answered
      rfl
  | _ =>
      cases answered
      rfl

end Steps

/-- A column of the ledger row, and the events that it may grow by. -/
def columnRegister (column : ArosCoinLedger → ℚ)
    (worth : ChainEvent → ℚ) : Register signature Unit where
  reads
    | ⟨.findLedger, row⟩ => some ((), column (row.getD .zero))
    | _ => none
  writes
    | .saveLedger row => some ((), column row)
    | _ => none
  pays := Call.worth worth

/-- The pools of the epochs, and the fees that they may grow by. -/
def poolRegister : Register signature ℚ where
  reads
    | ⟨.findEpoch epochNumber, none⟩ => some (epochNumber, 0)
    | ⟨.findEpoch _, some row⟩ => some (row.epochNumber, row.totalFees)
    | _ => none
  writes
    | .saveEpoch row => some (row.epochNumber, row.totalFees)
    | _ => none
  pays := Call.worth feeBy

section Vaults

variable (env : Environment) (admits : PublicCall → Prop)

def columnVault (column : ArosCoinLedger → ℚ) (worth : ChainEvent → ℚ) :
    Vault (deployment env admits) (columnRegister column worth) where
  amount world _ := column world.ledgerRow
  fund := World.worth worth
  told request now reply after answered key known reads := by
    cases request
    case findLedger =>
      cases answered
      cases reads
      rfl
    all_goals exact nomatch reads
  idle request now reply after answered idle := by
    have same : after.ledger = now.ledger := by
      refine ledger_of_answered ?_ answered
      rintro row rfl
      cases idle
    simp only [World.ledgerRow, same]
  written request now reply after answered key new writes := by
    cases request
    case saveLedger row =>
      cases answered
      cases writes
      exact ⟨rfl, fun _ other => absurd rfl other⟩
    all_goals exact nomatch writes
  paid _ _ _ _ answered := worth_of_answered worth answered
  breaks request now after broke := by
    have breaks : Breaks request now after := broke
    rcases breaks.eq_or_drawn with rfl | rfl | rfl <;> exact ⟨rfl, rfl⟩
  restarts _ := ⟨rfl, rfl⟩

def poolVault : Vault (deployment env admits) poolRegister where
  amount := World.pool
  fund := World.worth feeBy
  told request now reply after answered key known reads := by
    cases request
    case findEpoch epochNumber =>
      cases answered
      cases found : now.epochs.find? epochNumber with
      | none =>
          simp only [poolRegister, found] at reads
          cases reads
          simp only [World.pool, found, Option.elim_none]
      | some row =>
          simp only [poolRegister, found] at reads
          cases reads
          rw [← Keyed.Table.key_of_find? found] at found
          simp only [World.pool, found, Option.elim_some]
    all_goals exact nomatch reads
  idle request now reply after answered idle := by
    have same : after.epochs = now.epochs := by
      refine epochs_of_answered ?_ answered
      rintro row rfl
      cases idle
    funext epochNumber
    simp only [World.pool, same]
  written request now reply after answered key new writes := by
    cases request
    case saveEpoch row =>
      cases answered
      cases writes
      constructor
      · simp only [World.pool, World.saveEpoch_epochs,
          Keyed.Table.find?_save_self, Option.elim_some]
      · intro other different
        simp only [World.pool, World.saveEpoch_epochs,
          Keyed.Table.find?_save_of_ne _ different.symm]
    all_goals exact nomatch writes
  paid _ _ _ _ answered := worth_of_answered feeBy answered
  breaks request now after broke := by
    have breaks : Breaks request now after := broke
    rcases breaks.eq_or_drawn with rfl | rfl | rfl <;> exact ⟨rfl, rfl⟩
  restarts _ := ⟨rfl, rfl⟩

end Vaults

/-- `processBurned`, which grows by what was minted. -/
abbrev burnedRegister : Register signature Unit :=
  columnRegister ArosCoinLedger.processBurned mintedBy

/-- `earnedRetained`, which grows by what was paid out. -/
abbrev earnedRegister : Register signature Unit :=
  columnRegister ArosCoinLedger.earnedRetained paidBy

/-- Weights and pools that were read are not negative. -/
def SaneReply : Exchange signature → Prop
  | ⟨.findNode _, some node⟩ => 0 ≤ node.weight
  | ⟨.findEpoch _, some row⟩ => 0 ≤ row.totalFees
  | _ => True

/-- So are all that were read before. -/
def Sane (past : List (Exchange signature)) : Prop :=
  ∀ exchange ∈ past, SaneReply exchange

theorem Sane.of_suffix {past later : List (Exchange signature)}
    (sane : Sane later) (isSuffix : past <:+ later) : Sane past :=
  fun exchange member => sane exchange (isSuffix.subset member)

/-- A call adds to the ledger row and to a pool only what the calls answered
before have paid for. -/
structure Spends (past : List (Exchange signature)) (request : Call) :
    Prop where
  burned : burnedRegister.Affords past request
  pools : poolRegister.Affords past request
  earned : Sane past → earnedRegister.Affords past request

/-- What a call has gained to add since an earlier point. -/
structure Gains (burned earned pools : ℚ)
    (past later : List (Exchange signature)) : Prop where
  isSuffix : past <:+ later
  burned : burnedRegister.unspent later =
    burnedRegister.unspent past + burned
  earned : earnedRegister.unspent later =
    earnedRegister.unspent past + earned
  pools : poolRegister.unspent later = poolRegister.unspent past + pools
  known : ∀ epochNumber, poolRegister.known epochNumber later =
    poolRegister.known epochNumber past

/-- Nothing is paid or added, and no pool is read. -/
abbrev Gains.Nothing (past later : List (Exchange signature)) : Prop :=
  Gains 0 0 0 past later

section Gains

variable {past middle later : List (Exchange signature)}
variable {burned earned pools moreBurned moreEarned morePools : ℚ}

theorem Gains.trans (first : Gains burned earned pools past middle)
    (second : Gains moreBurned moreEarned morePools middle later) :
    Gains (burned + moreBurned) (earned + moreEarned) (pools + morePools)
      past later where
  isSuffix := first.isSuffix.trans second.isSuffix
  burned := by rw [second.burned, first.burned, add_assoc]
  earned := by rw [second.earned, first.earned, add_assoc]
  pools := by rw [second.pools, first.pools, add_assoc]
  known epochNumber :=
    (second.known epochNumber).trans (first.known epochNumber)

theorem Gains.refl : Gains.Nothing past past :=
  ⟨List.suffix_rfl, (add_zero _).symm, (add_zero _).symm,
    (add_zero _).symm, fun _ => rfl⟩

theorem Gains.nothing_trans (first : Gains.Nothing past middle)
    (second : Gains burned earned pools middle later) :
    Gains burned earned pools past later := by
  have both := first.trans second
  rwa [zero_add, zero_add, zero_add] at both

theorem Gains.same_burned (nothing : Gains.Nothing past later) :
    burnedRegister.unspent later = burnedRegister.unspent past := by
  rw [nothing.burned, add_zero]

theorem Gains.same_earned (nothing : Gains.Nothing past later) :
    earnedRegister.unspent later = earnedRegister.unspent past := by
  rw [nothing.earned, add_zero]

theorem Gains.same_pools (nothing : Gains.Nothing past later) :
    poolRegister.unspent later = poolRegister.unspent past := by
  rw [nothing.pools, add_zero]

end Gains

/-- The calls that pay and add nothing and read no pool. -/
def Call.IsIdle : Call → Prop
  | .append _ (.emissionMinted ..) => False
  | .append _ (.paymentReceived ..) => False
  | .saveLedger _ => False
  | .findEpoch _ => False
  | .saveEpoch _ => False
  | _ => True

section Idle

variable {request : Call}

private theorem Call.IsIdle.writes (idle : request.IsIdle) :
    (∀ column worth,
        (columnRegister column worth).writes request = none) ∧
      poolRegister.writes request = none := by
  cases request <;> first
    | exact ⟨fun _ _ => rfl, rfl⟩
    | exact idle.elim

theorem worth_feeBy_of_unminted (unminted : request.worth mintedBy = 0) :
    request.worth feeBy = 0 := by
  cases request
  case append eventType payload =>
    have nothing : mintedBy (eventType, payload) = 0 := unminted
    simp only [Call.worth, feeBy, nothing, Commission.computeFee, zero_mul]
  all_goals exact unminted

private theorem Call.IsIdle.pays (idle : request.IsIdle) :
    request.worth mintedBy = 0 ∧ request.worth paidBy = 0 ∧
      request.worth feeBy = 0 := by
  have nothing : request.worth mintedBy = 0 ∧
      request.worth paidBy = 0 := by
    cases request
    case append eventType payload =>
      cases payload <;> first
        | exact ⟨rfl, rfl⟩
        | exact idle.elim
    all_goals exact ⟨rfl, rfl⟩
  exact ⟨nothing.1, nothing.2, worth_feeBy_of_unminted nothing.1⟩

theorem Call.IsIdle.spends (idle : request.IsIdle)
    (past : List (Exchange signature)) : Spends past request := by
  obtain ⟨minted, paid, fees⟩ := idle.pays
  obtain ⟨unsaved, unaccrued⟩ := idle.writes
  exact ⟨Register.affords_of_idle minted (unsaved _ _),
    Register.affords_of_idle fees unaccrued,
    fun _ => Register.affords_of_idle paid (unsaved _ _)⟩

theorem Call.IsIdle.gains (idle : request.IsIdle)
    (past : List (Exchange signature)) (reply : request.Reply) :
    Gains.Nothing past (⟨request, reply⟩ :: past) := by
  obtain ⟨minted, paid, fees⟩ := idle.pays
  obtain ⟨unsaved, unaccrued⟩ := idle.writes
  constructor
  case isSuffix =>
    exact List.suffix_cons _ _
  case burned =>
    rw [add_zero]
    exact Register.unspent_of_idle minted (unsaved _ _) reply
  case earned =>
    rw [add_zero]
    exact Register.unspent_of_idle paid (unsaved _ _) reply
  case pools =>
    rw [add_zero]
    exact Register.unspent_of_idle fees unaccrued reply
  case known =>
    intro epochNumber
    refine Register.known_of_unread ?_
    cases request <;> first
      | rfl
      | exact idle.elim

end Idle

/-- A part of a method that pays and adds nothing and reads no pool. -/
def Thrifty (result : Type) (program : Service result) : Prop :=
  ∀ past, Obeys Spends (fun _ later => Gains.Nothing past later) program
    past

section Thrifty

variable {result first : Type} {past middle : List (Exchange signature)}

theorem thrifty_of_uses {program : Service result}
    (uses : Uses Call.IsIdle program) : Thrifty result program := by
  intro past
  induction program generalizing past with
  | done value =>
      exact Gains.refl
  | fail reason =>
      trivial
  | call request next rejected nextHypothesis rejectedHypothesis =>
      obtain ⟨idle, nextUses, rejectedUses⟩ := uses
      refine ⟨idle.spends past, fun reply => ?_,
        rejectedHypothesis rejectedUses past⟩
      refine (nextHypothesis reply (nextUses reply) _).weaken ?_
      exact fun _ later gains => (idle.gains past reply).nothing_trans gains

theorem Thrifty.since {program : Service result}
    (thrifty : Thrifty result program)
    (before : Gains.Nothing past middle) :
    Obeys Spends (fun _ later => Gains.Nothing past later) program
      middle :=
  (thrifty middle).weaken fun _ _ gains => before.nothing_trans gains

/-- A thrifty part before the rest. -/
theorem Thrifty.pass {program : Service first}
    {continuation : first → Service result}
    {post : result → List (Exchange signature) → Prop}
    (thrifty : Thrifty first program)
    (continues : ∀ value later, Gains.Nothing past later →
      Obeys Spends post (continuation value) later) :
    Obeys Spends post (program >>= continuation) past :=
  (thrifty past).bind continues

theorem Thrifty.bind {program : Service first}
    {continuation : first → Service result}
    (begins : Thrifty first program)
    (continues : ∀ value, Thrifty result (continuation value)) :
    Thrifty result (program >>= continuation) :=
  fun _ => begins.pass fun value _ gains =>
    (continues value).since gains

end Thrifty

/-! ## The ledger row -/

theorem nothing_covered (left : ℚ) :
    (0 : ℚ) ≤ 0 ∧ ((0 : ℚ) < 0 → 0 ≤ left) :=
  ⟨le_rfl, fun positive => absurd positive (lt_irrefl 0)⟩

section Ledger

variable {past : List (Exchange signature)}
variable {new : ArosCoinLedger} {burned earned : ℚ}

private theorem added_saveLedger {column : ArosCoinLedger → ℚ}
    {worth : ChainEvent → ℚ} {more : ℚ}
    (isMore : column new =
      (columnRegister column worth).known () past + more) :
    (columnRegister column worth).added past (.saveLedger new) = more :=
  (Register.added_of_writes rfl).trans (sub_eq_of_eq_add' isMore)

/-- A row may be saved that adds to the one read before what is left. -/
theorem spends_saveLedger
    (isBurned : new.processBurned = burnedRegister.known () past + burned)
    (isEarned : new.earnedRetained = earnedRegister.known () past + earned)
    (burnable : 0 ≤ burned ∧
      (0 < burned → burned ≤ burnedRegister.unspent past))
    (earnable : Sane past → 0 ≤ earned ∧
      (0 < earned → earned ≤ earnedRegister.unspent past)) :
    Spends past (.saveLedger new) := by
  have addsBurned := added_saveLedger isBurned
  have addsEarned := added_saveLedger isEarned
  constructor
  case burned =>
    exact ⟨le_rfl, by rw [addsBurned]; exact burnable.1,
      by rw [addsBurned]; exact burnable.2⟩
  case pools =>
    exact Register.affords_of_idle rfl rfl
  case earned =>
    intro sane
    obtain ⟨isNonneg, covered⟩ := earnable sane
    exact ⟨le_rfl, by rw [addsEarned]; exact isNonneg,
      by rw [addsEarned]; exact covered⟩

theorem gains_saveLedger
    (isBurned : new.processBurned = burnedRegister.known () past + burned)
    (isEarned : new.earnedRetained = earnedRegister.known () past + earned)
    (reply : Unit) :
    Gains (-burned) (-earned) 0 past (⟨.saveLedger new, reply⟩ :: past) := by
  have addsBurned := added_saveLedger isBurned
  have addsEarned := added_saveLedger isEarned
  constructor
  case isSuffix =>
    exact List.suffix_cons _ _
  case burned =>
    change _ + 0 - burnedRegister.added past (.saveLedger new) = _
    rw [addsBurned, add_zero, sub_eq_add_neg]
  case earned =>
    change _ + 0 - earnedRegister.added past (.saveLedger new) = _
    rw [addsEarned, add_zero, sub_eq_add_neg]
  case pools =>
    exact (Register.unspent_of_idle rfl rfl reply).trans
      (add_zero _).symm
  case known =>
    exact fun _ => Register.known_of_unread rfl

private theorem thrifty_ensureLedger :
    Thrifty Unit ArosCoin.ensureLedger := by
  have promiseKept : Thrifty Unit ArosCoin.promiseKept := by
    refine thrifty_of_uses (uses_bind (uses_perform trivial _) ?_)
    intro promise
    cases promise <;> trivial
  have settling : ∀ outcome, Thrifty Unit
      (ask (.settleInitialization outcome) >>= fun _ =>
        ArosCoin.promiseKept) :=
    fun outcome => .bind (thrifty_of_uses (uses_perform trivial _))
      fun _ => promiseKept
  rw [ArosCoin.ensureLedger_eq]
  refine .bind (thrifty_of_uses (uses_perform trivial _)) fun claimed => ?_
  cases claimed with
  | false =>
      exact promiseKept
  | true =>
      intro past
      have finds : (Call.findLedger).IsIdle := trivial
      have settled : ∀ {middle}, Gains.Nothing past middle →
          Obeys Spends (fun _ later => Gains.Nothing past later)
            ((ask (.settleInitialization .fulfilled)).rescue
              (fun _ => ask (.settleInitialization .rejected)) >>=
                fun _ => ArosCoin.promiseKept) middle := by
        intro middle before
        have settles :
            (Call.settleInitialization .fulfilled).IsIdle := trivial
        exact ⟨settles.spends middle,
          fun reply => promiseKept.since
            (before.nothing_trans (settles.gains middle reply)),
          (settling .rejected).since before⟩
      refine ⟨finds.spends past, fun existing => ?_, settling .rejected past⟩
      have found := finds.gains past existing
      cases existing with
      | some row =>
          exact settled found
      | none =>
          have isBurned : ArosCoinLedger.zero.processBurned =
              burnedRegister.known () (⟨.findLedger, none⟩ :: past) + 0 :=
            (add_zero _).symm
          have isEarned : ArosCoinLedger.zero.earnedRetained =
              earnedRegister.known () (⟨.findLedger, none⟩ :: past) + 0 :=
            (add_zero _).symm
          refine ⟨spends_saveLedger isBurned isEarned (nothing_covered _)
            fun _ => nothing_covered _, fun reply => ?_,
            (settling .rejected).since found⟩
          have saved := gains_saveLedger isBurned isEarned reply
          rw [neg_zero] at saved
          exact settled (found.nothing_trans saved)

/-- The row that is read. -/
theorem spends_ledger (past : List (Exchange signature)) :
    Obeys Spends
      (fun row later => Gains.Nothing past later ∧
        burnedRegister.known () later = row.processBurned ∧
        earnedRegister.known () later = row.earnedRetained)
      ArosCoin.ledger past := by
  refine thrifty_ensureLedger.pass fun _ middle gains => ?_
  have finds : (Call.findLedger).IsIdle := trivial
  refine .perform_bind (finds.spends middle) fun found => ?_
  cases found with
  | none =>
      trivial
  | some row =>
      exact ⟨gains.nothing_trans (finds.gains middle _), rfl, rfl⟩

/-- A change of the ledger row that adds what is left. -/
theorem spends_update {change : ArosCoinLedger → ArosCoinLedger}
    (isBurned : ∀ row, (change row).processBurned =
      row.processBurned + burned)
    (isEarned : ∀ row, (change row).earnedRetained =
      row.earnedRetained + earned)
    (burnable : 0 ≤ burned ∧
      (0 < burned → burned ≤ burnedRegister.unspent past))
    (earnable : Sane past → 0 ≤ earned ∧
      (0 < earned → earned ≤ earnedRegister.unspent past)) :
    Obeys Spends (fun _ later => Gains (-burned) (-earned) 0 past later)
      (ArosCoin.ledger >>= fun row => ask (.saveLedger (change row)))
      past := by
  refine (spends_ledger past).bind ?_
  rintro row middle ⟨gains, knownBurned, knownEarned⟩
  have newBurned := isBurned row
  have newEarned := isEarned row
  rw [← knownBurned] at newBurned
  rw [← knownEarned] at newEarned
  refine ⟨spends_saveLedger newBurned newEarned ?_ ?_, fun reply => ?_,
    trivial⟩
  · rwa [gains.same_burned]
  · intro sane
    rw [gains.same_earned]
    exact earnable (sane.of_suffix gains.isSuffix)
  · exact gains.nothing_trans (gains_saveLedger newBurned newEarned reply)

/-- Parts that read the ledger and leave the epochs alone. -/
theorem watches_thrifty : Watches Thrifty where
  bind := Thrifty.bind
  onlooker := by
    intro result program strict
    refine thrifty_of_uses (strict.uses.weaken fun request onlooker => ?_)
    cases request
    case append eventType payload =>
      cases payload <;> trivial
    all_goals trivial
  ledger := fun past => (spends_ledger past).weaken fun _ _ read => read.1

end Ledger

end ArosParadigm
