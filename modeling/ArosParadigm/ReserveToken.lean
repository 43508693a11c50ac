import ArosParadigm.Library.Token
import ArosParadigm.ReserveManager

/-!
# The token behind ArosCoinReserveManager

What the contract is for: a register of a token in natural numbers, with one
owner and references that are used up. The contract, with its machine words,
its unchecked arithmetic and its stored total supply, accepts the transactions
that the register accepts and changes as the register changes.
-/

namespace ArosParadigm.ReserveManager

open Token

instance neZero_addresses : NeZero (2 ^ 160) :=
  ⟨pow_ne_zero 160 two_ne_zero⟩

/-- The register of the token. -/
@[ext]
structure Register where
  book : Book Address
  owner : Address
  used : Set Bytes32

/-- How an allowance reads: `type(uint256).max` is never used up. -/
def limit (value : Uint256) : ℕ∞ :=
  if value = BitVec.allOnes 256 then ⊤ else value.toNat

def Transaction.entries (transaction : Transaction) :
    List (Entry Address) :=
  let sender := transaction.sender
  match transaction.call with
  | .mint receiver amount _ => [.issue receiver amount.toNat]
  | .burnWithReference holder amount _ => [.redeem holder amount.toNat]
  | .burn value => [.redeem sender value.toNat]
  | .burnFrom account value =>
      [.spend account sender value.toNat, .redeem account value.toNat]
  | .transfer receiver value => [.move sender receiver value.toNat]
  | .approve spender value => [.allow sender spender (limit value)]
  | .transferFrom holder receiver value =>
      [.spend holder sender value.toNat,
        .move holder receiver value.toNat]
  | .transferOwnership _ => []
  | .renounceOwnership => []

/-- The addresses that a transaction must not leave zero. -/
def Transaction.addresses (transaction : Transaction) : List Address :=
  let sender := transaction.sender
  match transaction.call with
  | .mint receiver _ _ => [receiver]
  | .burnWithReference holder _ _ => [holder]
  | .burn _ => [sender]
  | .burnFrom account _ => [sender, account]
  | .transfer receiver _ => [sender, receiver]
  | .approve spender _ => [sender, spender]
  | .transferFrom holder receiver _ => [sender, holder, receiver]
  | .transferOwnership newOwner => [newOwner]
  | .renounceOwnership => []

/-- Only the owner may send it. -/
def Call.isOwners : Call → Bool
  | .mint _ _ _ => true
  | .burnWithReference _ _ _ => true
  | .transferOwnership _ => true
  | .renounceOwnership => true
  | _ => false

/-- Who owns the contract after a call. -/
def Call.newOwner? : Call → Option Address
  | .transferOwnership newOwner => some newOwner
  | .renounceOwnership => some 0
  | _ => none

namespace Register

/-- The register of a new token. -/
def initial (deployer : Address) : Register :=
  ⟨Book.empty, deployer, ∅⟩

/-- Who may send a transaction, and when. -/
structure Admits (register : Register) (transaction : Transaction) :
    Prop where
  owned : transaction.call.isOwners = true →
    register.owner = transaction.sender
  fresh : ∀ txReference ∈ transaction.call.reference?,
    txReference ∉ register.used
  named : ∀ address ∈ transaction.addresses, address ≠ 0
  fits : register.book.supply + issued transaction.entries < 2 ^ 256

/-- The register with the entries of a transaction posted. -/
def posted (register : Register) (transaction : Transaction) :
    Option Register :=
  (register.book.postAll transaction.entries).map fun book =>
    { book := book
      owner := transaction.call.newOwner?.getD register.owner
      used := register.used ∪
        {txReference | txReference ∈ transaction.call.reference?} }

open Classical in
/-- The register after a transaction, if it accepts it. -/
noncomputable def step (register : Register) (transaction : Transaction) :
    Option Register :=
  if register.Admits transaction then register.posted transaction
  else none

/-- The register after a transaction, accepted or refused. -/
noncomputable def next (register : Register) (transaction : Transaction) :
    Register :=
  (register.step transaction).getD register

/-- A register accepts a transaction under one condition. -/
theorem step_of_iff {register : Register} {transaction : Transaction}
    {condition : Prop} [Decidable condition]
    (admits : register.Admits transaction ↔ condition) :
    register.step transaction =
      if condition then register.posted transaction else none := by
  unfold step
  by_cases holds : condition
  · rw [if_pos (admits.mpr holds), if_pos holds]
  · rw [if_neg (fun admitted => holds (admits.mp admitted)), if_neg holds]

end Register

def Contract.book (contract : Contract) : Book Address where
  held account := (contract.balances account).toNat
  allowed holder spender := limit (contract.allowances holder spender)

def Contract.register (contract : Contract) : Register where
  book := contract.book
  owner := contract.owner
  used := {txReference | contract.usedReferences txReference = true}

/-- The zero address allows nothing and is allowed nothing. -/
def Contract.Guarded (contract : Contract) : Prop :=
  ∀ holder spender, holder = 0 ∨ spender = 0 →
    contract.allowances holder spender = 0

theorem Contract.Solvent.supply_eq {contract : Contract}
    (solvent : contract.Solvent) :
    contract.book.supply = contract.totalSupply.toNat :=
  solvent

private theorem supply_lt {contract : Contract}
    (solvent : contract.Solvent) : contract.book.supply < 2 ^ 256 := by
  rw [solvent.supply_eq]
  exact contract.totalSupply.isLt

theorem limit_of_ne {value : Uint256}
    (finite : value ≠ BitVec.allOnes 256) : limit value = value.toNat :=
  if_neg finite

@[simp]
theorem limit_allOnes : limit (BitVec.allOnes 256) = ⊤ :=
  if_pos rfl

private theorem le_limit_iff {value allowance : Uint256} :
    (value.toNat : ℕ∞) ≤ limit allowance ↔ value ≤ allowance := by
  by_cases finite : allowance = BitVec.allOnes 256
  · subst finite
    have bound : value.toNat < 2 ^ 256 := value.isLt
    simp only [limit_allOnes, le_top, true_iff, BitVec.le_def,
      BitVec.toNat_allOnes]
    omega
  · rw [limit_of_ne finite, BitVec.le_def]
    exact Nat.cast_le

private theorem lt_allOnes_of_ne {value : Uint256}
    (finite : value ≠ BitVec.allOnes 256) : value < BitVec.allOnes 256 := by
  have bound : value.toNat < 2 ^ 256 := value.isLt
  have different : value.toNat ≠ 2 ^ 256 - 1 := by
    intro largest
    apply finite
    apply BitVec.eq_of_toNat_eq
    rw [largest, BitVec.toNat_allOnes]
  rw [BitVec.lt_def, BitVec.toNat_allOnes]
  omega

private theorem limit_sub {value allowance : Uint256}
    (finite : allowance ≠ BitVec.allOnes 256) (covered : value ≤ allowance) :
    limit (allowance - value) = limit allowance - value.toNat := by
  have bound : allowance.toNat < 2 ^ 256 := allowance.isLt
  have least : value.toNat ≤ allowance.toNat := BitVec.le_def.mp covered
  have difference : (allowance - value).toNat =
      allowance.toNat - value.toNat :=
    BitVec.toNat_sub_of_le covered
  have stillFinite : allowance - value ≠ BitVec.allOnes 256 := by
    intro infinite
    apply finite
    apply BitVec.eq_of_toNat_eq
    have largest := congrArg BitVec.toNat infinite
    rw [BitVec.toNat_allOnes] at largest ⊢
    omega
  rw [limit_of_ne finite, limit_of_ne stillFinite, difference]
  exact ENat.natCast_sub _ _

/-! ## The functions against the register -/

def Register.withBook (register : Register) (book : Book Address) :
    Register :=
  { register with book := book }

/-- The register that a function leaves, if it does not revert. -/
def registerOf (result : Except Revert Contract) : Option Register :=
  result.toOption.map Contract.register

section Functions

variable {contract : Contract} {sender receiver account : Address}
variable {value : Uint256}

@[simp]
theorem registerOf_ok (after : Contract) :
    registerOf (.ok after) = some after.register :=
  rfl

@[simp]
theorem registerOf_error (revert : Revert) :
    registerOf (.error revert) = none :=
  rfl

private theorem register_debit
    (covered : value ≤ contract.balances account) :
    { contract with
      balances := Balances.debit contract.balances account value }.register =
        contract.register.withBook (contract.book.hold account
          (contract.book.held account - value.toNat)) := by
  apply Register.ext
  · apply Book.ext
    · funext tested
      by_cases same : tested = account
      · subst same
        simp [Contract.register, Register.withBook, Contract.book,
          Balances.debit, BitVec.toNat_sub_of_le covered]
      · simp [Contract.register, Register.withBook, Contract.book,
          Balances.debit, same]
    · rfl
  · rfl
  · rfl

private theorem register_credit
    (fits : contract.book.held account + value.toNat < 2 ^ 256) :
    { contract with
      balances := Balances.credit contract.balances account value }.register =
        contract.register.withBook
          (contract.book.give account value.toNat) := by
  have sum : (contract.balances account + value).toNat =
      (contract.balances account).toNat + value.toNat := by
    rw [BitVec.toNat_add]
    exact Nat.mod_eq_of_lt fits
  apply Register.ext
  · apply Book.ext
    · funext tested
      by_cases same : tested = account
      · subst same
        simp [Contract.register, Register.withBook, Contract.book,
          Balances.credit, Book.give, sum]
      · simp [Contract.register, Register.withBook, Contract.book,
          Balances.credit, Book.give, same]
    · rfl
  · rfl
  · rfl

/-- `_mint` gives the value if the supply stays a machine word. -/
theorem registerOf_mint (solvent : contract.Solvent) :
    registerOf (ERC20.mint contract account value) =
      if account ≠ 0 ∧ contract.book.supply + value.toNat < 2 ^ 256 then
        some (contract.register.withBook
          (contract.book.give account value.toNat))
      else
        none := by
  unfold ERC20.mint
  by_cases isZero : account = 0
  · simp [isZero]
  · have supply := solvent.supply_eq
    unfold ERC20.update ERC20.take
    by_cases fits : contract.totalSupply.toNat + value.toNat < 2 ^ 256
    · have held := contract.book.held_le_supply account
      have given := @register_credit contract account value (by omega)
      rw [if_neg isZero, if_pos rfl, if_pos fits, if_pos ⟨isZero, by omega⟩,
        ← given]
      unfold ERC20.give
      simp only [if_neg isZero]
      rfl
    · rw [if_neg isZero, if_pos rfl, if_neg fits, if_neg (by omega)]
      rfl

/-- `_burn` takes the value if it is there. -/
theorem registerOf_burn :
    registerOf (ERC20.burn contract account value) =
      if account ≠ 0 then
        (contract.book.take account value.toNat).map
          contract.register.withBook
      else
        none := by
  unfold ERC20.burn
  by_cases isZero : account = 0
  · simp [isZero]
  · unfold ERC20.update ERC20.take Book.take
    rw [if_neg isZero, if_neg isZero, if_pos isZero]
    by_cases covered : value ≤ contract.balances account
    · have enough : value.toNat ≤ contract.book.held account :=
        BitVec.le_def.mp covered
      rw [if_neg (BitVec.not_lt.mpr covered), if_pos enough,
        Option.map_some, ← register_debit covered]
      rfl
    · have lacking : ¬ value.toNat ≤ contract.book.held account :=
        fun enough => covered (BitVec.le_def.mpr enough)
      rw [if_pos (BitVec.not_le.mp covered), if_neg lacking]
      rfl

/-- `_transfer` moves the value if it is there. -/
theorem registerOf_internalTransfer (solvent : contract.Solvent) :
    registerOf (ERC20.internalTransfer contract sender receiver value) =
      if sender ≠ 0 ∧ receiver ≠ 0 then
        (contract.book.take sender value.toNat).map fun taken =>
          contract.register.withBook (taken.give receiver value.toNat)
      else
        none := by
  unfold ERC20.internalTransfer
  by_cases fromNobody : sender = 0
  · simp [fromNobody]
  by_cases toNobody : receiver = 0
  · simp [fromNobody, toNobody]
  unfold ERC20.update ERC20.take
  rw [if_neg fromNobody, if_neg toNobody, if_neg fromNobody,
    if_pos (And.intro fromNobody toNobody)]
  by_cases covered : value ≤ contract.balances sender
  · have enough : value.toNat ≤ contract.book.held sender :=
      BitVec.le_def.mp covered
    have taken : contract.book.take sender value.toNat =
        some (contract.book.hold sender
          (contract.book.held sender - value.toNat)) :=
      if_pos enough
    have debited := register_debit covered
    have bookDebited : ({ contract with
        balances := Balances.debit contract.balances sender value } :
        Contract).book = contract.book.hold sender
          (contract.book.held sender - value.toNat) :=
      congrArg Register.book debited
    -- What has been taken fits again, since the supply is a machine word.
    have fits : (contract.book.hold sender
        (contract.book.held sender - value.toNat)).held receiver +
          value.toNat < 2 ^ 256 := by
      have whole := Book.supply_take taken
      have bound := supply_lt solvent
      have held := Book.held_le_supply (contract.book.hold sender
        (contract.book.held sender - value.toNat)) receiver
      omega
    have credited := @register_credit
      { contract with
        balances := Balances.debit contract.balances sender value }
      receiver value (bookDebited ▸ fits)
    rw [if_neg (BitVec.not_lt.mpr covered), taken, Option.map_some]
    unfold ERC20.give
    simp only [if_neg toNobody]
    refine congrArg some (credited.trans ?_)
    rw [debited]
    exact congrArg (fun book : Book Address =>
      contract.register.withBook (book.give receiver value.toNat))
      bookDebited
  · have lacking : ¬ value.toNat ≤ contract.book.held sender :=
      fun enough => covered (BitVec.le_def.mpr enough)
    have refused : contract.book.take sender value.toNat = none :=
      if_neg lacking
    rw [if_pos (BitVec.not_le.mp covered), refused]
    rfl

/-- `_approve` sets the allowance. -/
theorem registerOf_internalApprove (emitEvent : Bool) :
    registerOf (ERC20.internalApprove contract sender receiver value
      emitEvent) =
      if sender ≠ 0 ∧ receiver ≠ 0 then
        some (contract.register.withBook
          (contract.book.permit sender receiver (limit value)))
      else
        none := by
  unfold ERC20.internalApprove
  by_cases fromNobody : sender = 0
  · simp [fromNobody]
  by_cases toNobody : receiver = 0
  · simp [fromNobody, toNobody]
  rw [if_neg fromNobody, if_neg toNobody,
    if_pos (And.intro fromNobody toNobody)]
  have permitted : ({ contract with
      allowances := Function.update contract.allowances sender
        (Function.update (contract.allowances sender) receiver value) } :
      Contract).register =
        contract.register.withBook
          (contract.book.permit sender receiver (limit value)) := by
    apply Register.ext
    · apply Book.ext
      · rfl
      · funext holder spender
        by_cases sameHolder : holder = sender
        · subst sameHolder
          by_cases sameSpender : spender = receiver
          · subst sameSpender
            simp [Contract.register, Register.withBook, Contract.book,
              Book.permit]
          · simp [Contract.register, Register.withBook, Contract.book,
              Book.permit, sameSpender]
        · simp [Contract.register, Register.withBook, Contract.book,
            Book.permit, sameHolder]
    · rfl
    · rfl
  cases emitEvent <;>
    exact congrArg some permitted

/-- `_spendAllowance` uses up the value if it is allowed. -/
theorem registerOf_spendAllowance (guarded : contract.Guarded) :
    registerOf (ERC20.spendAllowance contract sender receiver value) =
      if sender ≠ 0 ∧ receiver ≠ 0 then
        (contract.book.spend sender receiver value.toNat).map
          contract.register.withBook
      else
        none := by
  unfold ERC20.spendAllowance
  simp only
  by_cases infinite :
      contract.allowances sender receiver = BitVec.allOnes 256
  · have notBelow : ¬ contract.allowances sender receiver <
        BitVec.allOnes 256 := by
      rw [infinite]
      exact BitVec.lt_irrefl _
    have someone : sender ≠ 0 ∧ receiver ≠ 0 := by
      by_contra isZero
      have nothing := guarded sender receiver (by tauto)
      rw [infinite] at nothing
      exact absurd nothing (by decide)
    have unlimited : contract.book.allowed sender receiver = ⊤ := by
      change limit (contract.allowances sender receiver) = ⊤
      rw [infinite, limit_allOnes]
    have kept : contract.book.permit sender receiver
        (contract.book.allowed sender receiver - value.toNat) =
          contract.book := by
      rw [unlimited, ENat.top_sub_natCast, ← unlimited]
      unfold Book.permit
      rw [Function.update_eq_self, Function.update_eq_self]
    rw [if_neg notBelow, if_pos someone]
    unfold Book.spend
    rw [if_pos (unlimited ▸ le_top), kept]
    rfl
  · rw [if_pos (lt_allOnes_of_ne infinite)]
    by_cases covered : value ≤ contract.allowances sender receiver
    · have enough : (value.toNat : ℕ∞) ≤
          contract.book.allowed sender receiver :=
        le_limit_iff.mpr covered
      have spent : contract.book.spend sender receiver value.toNat =
          some (contract.book.permit sender receiver
            (limit (contract.allowances sender receiver - value))) := by
        rw [limit_sub infinite covered]
        exact if_pos enough
      rw [if_neg (BitVec.not_lt.mpr covered), registerOf_internalApprove,
        spent]
      rfl
    · have lacking : ¬ (value.toNat : ℕ∞) ≤
          contract.book.allowed sender receiver :=
        fun enough => covered (le_limit_iff.mp enough)
      have refused : contract.book.spend sender receiver value.toNat =
          none :=
        if_neg lacking
      rw [if_pos (BitVec.not_le.mp covered), refused]
      simp

end Functions

section Transactions

variable {contract after : Contract} {transaction : Transaction}

private theorem registerOf_onlyOwner (contract : Contract)
    (sender : Address) (body : Except Revert Contract) :
    registerOf (Ownable.onlyOwner contract sender body) =
      if contract.owner = sender then registerOf body else none := by
  unfold Ownable.onlyOwner
  by_cases isOwner : contract.owner = sender
  · rw [if_neg (not_not_intro isOwner), if_pos isOwner]
  · rw [if_pos isOwner, if_neg isOwner]
    rfl

/-- The register with one more reference used. -/
def Register.use (register : Register) (txReference : Bytes32) :
    Register :=
  { register with
    used := register.used ∪ {other | other ∈ some txReference} }

private theorem register_use (contract : Contract)
    (txReference : Bytes32) (event : Event) :
    ((contract.use txReference).emit event).register =
      contract.register.use txReference := by
  apply Register.ext
  · rfl
  · rfl
  · ext other
    by_cases same : other = txReference
    · subst same
      simp [Contract.register, Register.use, Contract.use, Contract.emit]
    · simp [Contract.register, Register.use, Contract.use, Contract.emit,
        same]

private theorem registerOf_referenced (contract : Contract)
    (result : Except Revert Contract) (txReference : Bytes32)
    (event : Event) :
    registerOf (if contract.usedReferences txReference then
        .error (.message "Reference already used")
      else do
        let contract ← result
        return (contract.use txReference).emit event) =
      if contract.usedReferences txReference = false then
        (registerOf result).map fun register => register.use txReference
      else
        none := by
  by_cases isUsed : contract.usedReferences txReference = true
  · rw [if_pos isUsed, isUsed, if_neg Bool.noConfusion]
    rfl
  · rw [if_neg isUsed, if_pos (Bool.eq_false_of_not_eq_true isUsed)]
    cases result with
    | error revert =>
        rfl
    | ok between =>
        exact congrArg some (register_use between txReference event)

/-- A call without a reference that leaves the owner. -/
private theorem posted_of_plain {register : Register}
    (anonymous : transaction.call.reference? = none)
    (kept : transaction.call.newOwner? = none) :
    register.posted transaction =
      (register.book.postAll transaction.entries).map
        register.withBook := by
  unfold Register.posted Register.withBook
  rw [anonymous, kept]
  simp

private theorem fits_of_idle (solvent : contract.Solvent)
    (issues : issued transaction.entries = 0) :
    contract.register.book.supply + issued transaction.entries <
      2 ^ 256 := by
  rw [issues, add_zero]
  exact supply_lt solvent

theorem mint_refines (solvent : contract.Solvent)
    (sender receiver : Address) (amount : Uint256)
    (txReference : Bytes32) :
    registerOf (mint contract sender receiver amount txReference) =
      contract.register.step
        ⟨sender, .mint receiver amount txReference⟩ := by
  have admits : contract.register.Admits
      ⟨sender, .mint receiver amount txReference⟩ ↔
        contract.owner = sender ∧
          contract.usedReferences txReference = false ∧
          receiver ≠ 0 ∧
          contract.book.supply + amount.toNat < 2 ^ 256 := by
    constructor
    · rintro ⟨owned, fresh, named, fits⟩
      exact ⟨owned rfl, Bool.eq_false_of_not_eq_true (fresh txReference rfl),
        named receiver List.mem_cons_self, fits⟩
    · rintro ⟨owned, fresh, named, fits⟩
      refine ⟨fun _ => owned, ?_, ?_, fits⟩
      · rintro other ⟨⟩ isUsed
        exact absurd (isUsed.symm.trans fresh) Bool.noConfusion
      · rintro address member
        cases List.mem_singleton.mp member
        exact named
  unfold mint
  rw [Register.step_of_iff admits, registerOf_onlyOwner,
    registerOf_referenced, registerOf_mint solvent]
  by_cases owned : contract.owner = sender
  · by_cases fresh : contract.usedReferences txReference = false
    · by_cases given : receiver ≠ 0 ∧
        contract.book.supply + amount.toNat < 2 ^ 256
      · rw [if_pos owned, if_pos fresh, if_pos given,
          if_pos ⟨owned, fresh, given⟩]
        rfl
      · rw [if_pos owned, if_pos fresh, if_neg given,
          if_neg fun all => given all.2.2]
        rfl
    · rw [if_pos owned, if_neg fresh, if_neg fun all => fresh all.2.1]
  · rw [if_neg owned, if_neg fun all => owned all.1]

theorem burnWithReference_refines (solvent : contract.Solvent)
    (sender holder : Address) (amount : Uint256)
    (txReference : Bytes32) :
    registerOf (burnWithReference contract sender holder amount
      txReference) =
      contract.register.step
        ⟨sender, .burnWithReference holder amount txReference⟩ := by
  have admits : contract.register.Admits
      ⟨sender, .burnWithReference holder amount txReference⟩ ↔
        contract.owner = sender ∧
          contract.usedReferences txReference = false ∧ holder ≠ 0 := by
    constructor
    · rintro ⟨owned, fresh, named, _⟩
      exact ⟨owned rfl, Bool.eq_false_of_not_eq_true (fresh txReference rfl),
        named holder List.mem_cons_self⟩
    · rintro ⟨owned, fresh, named⟩
      refine ⟨fun _ => owned, ?_, ?_, fits_of_idle solvent rfl⟩
      · rintro other ⟨⟩ isUsed
        exact absurd (isUsed.symm.trans fresh) Bool.noConfusion
      · rintro address member
        cases List.mem_singleton.mp member
        exact named
  unfold burnWithReference
  rw [Register.step_of_iff admits, registerOf_onlyOwner,
    registerOf_referenced, registerOf_burn]
  by_cases owned : contract.owner = sender
  · by_cases fresh : contract.usedReferences txReference = false
    · by_cases named : holder ≠ 0
      · have single : contract.register.book.postAll
            [.redeem holder amount.toNat] =
              contract.book.take holder amount.toNat :=
          Book.postAll_singleton _ _
        rw [if_pos owned, if_pos fresh, if_pos named,
          if_pos ⟨owned, fresh, named⟩, Option.map_map, ← single]
        rfl
      · rw [if_pos owned, if_pos fresh, if_neg named,
          if_neg fun all => named all.2.2]
        rfl
    · rw [if_pos owned, if_neg fresh, if_neg fun all => fresh all.2.1]
  · rw [if_neg owned, if_neg fun all => owned all.1]

private theorem admits_of_anybody (solvent : contract.Solvent)
    (anybody : transaction.call.isOwners = false)
    (anonymous : transaction.call.reference? = none)
    (issues : issued transaction.entries = 0) :
    contract.register.Admits transaction ↔
      ∀ address ∈ transaction.addresses, address ≠ 0 := by
  constructor
  · rintro ⟨_, _, named, _⟩
    exact named
  · intro named
    refine ⟨?_, ?_, named, fits_of_idle solvent issues⟩
    · intro isOwners
      exact absurd (isOwners.symm.trans anybody) Bool.noConfusion
    · intro txReference isNamed
      rw [anonymous] at isNamed
      cases isNamed

theorem burn_refines (solvent : contract.Solvent) (sender : Address)
    (value : Uint256) :
    registerOf (ERC20Burnable.burn contract sender value) =
      contract.register.step ⟨sender, .burn value⟩ := by
  have admits : contract.register.Admits ⟨sender, .burn value⟩ ↔
      sender ≠ 0 := by
    rw [admits_of_anybody solvent rfl rfl rfl]
    simp [Transaction.addresses]
  have single : contract.register.book.postAll
      [.redeem sender value.toNat] = contract.book.take sender value.toNat :=
    Book.postAll_singleton _ _
  unfold ERC20Burnable.burn
  rw [Register.step_of_iff admits, registerOf_burn,
    posted_of_plain rfl rfl, ← single]
  rfl

theorem transfer_refines (solvent : contract.Solvent)
    (sender receiver : Address) (value : Uint256) :
    registerOf (ERC20.transfer contract sender receiver value) =
      contract.register.step ⟨sender, .transfer receiver value⟩ := by
  have admits : contract.register.Admits
      ⟨sender, .transfer receiver value⟩ ↔
        sender ≠ 0 ∧ receiver ≠ 0 := by
    rw [admits_of_anybody solvent rfl rfl rfl]
    simp [Transaction.addresses]
  have single : contract.register.book.postAll
      [.move sender receiver value.toNat] =
        (contract.book.take sender value.toNat).map fun taken =>
          taken.give receiver value.toNat :=
    Book.postAll_singleton _ _
  unfold ERC20.transfer
  rw [Register.step_of_iff admits, registerOf_internalTransfer solvent,
    posted_of_plain rfl rfl]
  unfold Transaction.entries
  rw [single, Option.map_map]
  rfl

theorem approve_refines (solvent : contract.Solvent)
    (sender spender : Address) (value : Uint256) :
    registerOf (ERC20.approve contract sender spender value) =
      contract.register.step ⟨sender, .approve spender value⟩ := by
  have admits : contract.register.Admits
      ⟨sender, .approve spender value⟩ ↔ sender ≠ 0 ∧ spender ≠ 0 := by
    rw [admits_of_anybody solvent rfl rfl rfl]
    simp [Transaction.addresses]
  unfold ERC20.approve
  rw [Register.step_of_iff admits, registerOf_internalApprove,
    posted_of_plain rfl rfl]
  rfl

/-- A part of an allowance is used up, and then the value moves. -/
private theorem registerOf_spending (guarded : contract.Guarded)
    {holder sender : Address} {value : Uint256}
    {next : Contract → Except Revert Contract}
    {post : Book Address → Option (Book Address)}
    (continues : holder ≠ 0 → ∀ between,
      ERC20.spendAllowance contract holder sender value = .ok between →
        registerOf (next between) =
          (post between.book).map between.register.withBook) :
    registerOf (do
      let between ← ERC20.spendAllowance contract holder sender value
      next between) =
      if holder ≠ 0 ∧ sender ≠ 0 then
        ((contract.book.spend holder sender value.toNat).bind post).map
          contract.register.withBook
      else
        none := by
  have spending := @registerOf_spendAllowance contract holder sender value
    guarded
  cases spent : ERC20.spendAllowance contract holder sender value with
  | error revert =>
      rw [spent, registerOf_error] at spending
      by_cases someone : holder ≠ 0 ∧ sender ≠ 0
      · rw [if_pos someone] at spending ⊢
        rw [Option.map_eq_none_iff.mp spending.symm]
        rfl
      · rw [if_neg someone]
        rfl
  | ok between =>
      rw [spent, registerOf_ok] at spending
      by_cases someone : holder ≠ 0 ∧ sender ≠ 0
      · rw [if_pos someone] at spending ⊢
        obtain ⟨book, isBook, isRegister⟩ :=
          Option.map_eq_some_iff.mp spending.symm
        have sameBook : between.book = book :=
          congrArg Register.book isRegister.symm
        have continued := continues someone.1 between spent
        rw [sameBook, ← isRegister] at continued
        rw [isBook]
        exact continued
      · rw [if_neg someone] at spending
        cases spending

theorem burnFrom_refines (solvent : contract.Solvent)
    (guarded : contract.Guarded) (sender account : Address)
    (value : Uint256) :
    registerOf (ERC20Burnable.burnFrom contract sender account value) =
      contract.register.step ⟨sender, .burnFrom account value⟩ := by
  have admits : contract.register.Admits
      ⟨sender, .burnFrom account value⟩ ↔ account ≠ 0 ∧ sender ≠ 0 := by
    rw [admits_of_anybody solvent rfl rfl rfl]
    simp [Transaction.addresses, and_comm]
  have pair : contract.register.book.postAll
      [.spend account sender value.toNat, .redeem account value.toNat] =
        (contract.book.spend account sender value.toNat).bind fun between =>
          between.take account value.toNat :=
    Book.postAll_pair _ _ _
  have spending := @registerOf_spending contract guarded account sender
    value (fun between => ERC20.burn between account value)
    (fun book => book.take account value.toNat)
    (fun isSomeone _ _ => registerOf_burn.trans (if_pos isSomeone))
  unfold ERC20Burnable.burnFrom
  rw [Register.step_of_iff admits, posted_of_plain rfl rfl, spending,
    ← pair]
  rfl

theorem transferFrom_refines (solvent : contract.Solvent)
    (guarded : contract.Guarded) (sender holder receiver : Address)
    (value : Uint256) :
    registerOf (ERC20.transferFrom contract sender holder receiver value) =
      contract.register.step
        ⟨sender, .transferFrom holder receiver value⟩ := by
  have admits : contract.register.Admits
      ⟨sender, .transferFrom holder receiver value⟩ ↔
        (holder ≠ 0 ∧ sender ≠ 0) ∧ receiver ≠ 0 := by
    rw [admits_of_anybody solvent rfl rfl rfl]
    simp only [Transaction.addresses, List.forall_mem_cons,
      List.not_mem_nil, false_implies, implies_true, and_true]
    constructor
    · rintro ⟨fromSomeone, isSomeone, toSomeone⟩
      exact ⟨⟨isSomeone, fromSomeone⟩, toSomeone⟩
    · rintro ⟨⟨isSomeone, fromSomeone⟩, toSomeone⟩
      exact ⟨fromSomeone, isSomeone, toSomeone⟩
  have pair : contract.register.book.postAll
      [.spend holder sender value.toNat,
        .move holder receiver value.toNat] =
        (contract.book.spend holder sender value.toNat).bind fun between =>
          between.post (.move holder receiver value.toNat) :=
    Book.postAll_pair _ _ _
  have spending := @registerOf_spending contract guarded holder sender
    value (fun between =>
      ERC20.internalTransfer between holder receiver value)
    (fun book => if receiver ≠ 0 then
      book.post (.move holder receiver value.toNat) else none)
    (by
      intro isSomeone between spent
      obtain ⟨allowances, rfl⟩ := spendAllowance_of_ok spent
      refine (@registerOf_internalTransfer
        { contract with allowances := allowances } holder receiver value
        solvent).trans ?_
      by_cases toSomeone : receiver ≠ 0
      · rw [if_pos toSomeone, if_pos ⟨isSomeone, toSomeone⟩]
        unfold Book.post
        rw [Option.map_map]
        rfl
      · rw [if_neg toSomeone, if_neg fun both => toSomeone both.2]
        rfl)
  unfold ERC20.transferFrom
  rw [Register.step_of_iff admits, posted_of_plain rfl rfl, spending]
  by_cases someone : holder ≠ 0 ∧ sender ≠ 0
  · by_cases toSomeone : receiver ≠ 0
    · simp only [if_pos toSomeone]
      rw [if_pos someone, if_pos ⟨someone, toSomeone⟩, ← pair]
      rfl
    · simp only [if_neg toSomeone]
      rw [if_pos someone, if_neg fun both => toSomeone both.2]
      simp
  · rw [if_neg someone, if_neg fun both => someone both.1]

theorem transferOwnership_refines (solvent : contract.Solvent)
    (sender newOwner : Address) :
    registerOf (Ownable.transferOwnership contract sender newOwner) =
      contract.register.step ⟨sender, .transferOwnership newOwner⟩ := by
  have admits : contract.register.Admits
      ⟨sender, .transferOwnership newOwner⟩ ↔
        contract.owner = sender ∧ newOwner ≠ 0 := by
    constructor
    · rintro ⟨owned, _, named, _⟩
      exact ⟨owned rfl, named newOwner List.mem_cons_self⟩
    · rintro ⟨owned, named⟩
      refine ⟨fun _ => owned, nofun, ?_, fits_of_idle solvent rfl⟩
      rintro address member
      cases List.mem_singleton.mp member
      exact named
  unfold Ownable.transferOwnership
  rw [Register.step_of_iff admits, registerOf_onlyOwner]
  by_cases owned : contract.owner = sender
  · by_cases named : newOwner = 0
    · rw [if_pos owned, if_pos named, if_neg fun both => both.2 named]
      rfl
    · rw [if_pos owned, if_neg named, if_pos ⟨owned, named⟩]
      refine congrArg some (Register.ext rfl rfl ?_)
      simp [Contract.register, Ownable.internalTransferOwnership,
        Contract.emit, Call.reference?]
  · rw [if_neg owned, if_neg fun both => owned both.1]

theorem renounceOwnership_refines (solvent : contract.Solvent)
    (sender : Address) :
    registerOf (Ownable.renounceOwnership contract sender) =
      contract.register.step ⟨sender, .renounceOwnership⟩ := by
  have admits : contract.register.Admits ⟨sender, .renounceOwnership⟩ ↔
      contract.owner = sender :=
    ⟨fun admitted => admitted.owned rfl, fun owned =>
      ⟨fun _ => owned, nofun, nofun, fits_of_idle solvent rfl⟩⟩
  unfold Ownable.renounceOwnership
  rw [Register.step_of_iff admits, registerOf_onlyOwner]
  by_cases owned : contract.owner = sender
  · rw [if_pos owned, if_pos owned]
    refine congrArg some (Register.ext rfl rfl ?_)
    simp [Contract.register, Ownable.internalTransferOwnership,
      Contract.emit, Call.reference?]
  · rw [if_neg owned, if_neg owned]

/-- The contract accepts what its register accepts, and changes with it. -/
theorem execute_refines (solvent : contract.Solvent)
    (guarded : contract.Guarded) (transaction : Transaction) :
    registerOf (execute contract transaction) =
      contract.register.step transaction := by
  obtain ⟨sender, call⟩ := transaction
  cases call with
  | mint receiver amount txReference =>
      exact mint_refines solvent sender receiver amount txReference
  | burnWithReference holder amount txReference =>
      exact burnWithReference_refines solvent sender holder amount
        txReference
  | burn value =>
      exact burn_refines solvent sender value
  | burnFrom account value =>
      exact burnFrom_refines solvent guarded sender account value
  | transfer receiver value =>
      exact transfer_refines solvent sender receiver value
  | approve spender value =>
      exact approve_refines solvent sender spender value
  | transferFrom holder receiver value =>
      exact transferFrom_refines solvent guarded sender holder receiver
        value
  | transferOwnership newOwner =>
      exact transferOwnership_refines solvent sender newOwner
  | renounceOwnership =>
      exact renounceOwnership_refines solvent sender

end Transactions

theorem limit_eq_zero_iff {value : Uint256} :
    limit value = 0 ↔ value = 0 := by
  by_cases finite : value = BitVec.allOnes 256
  · subst finite
    rw [limit_allOnes]
    exact ⟨fun absurdity => absurd absurdity (by simp),
      fun absurdity => absurd absurdity (by decide)⟩
  · rw [limit_of_ne finite]
    constructor
    · intro isZero
      exact BitVec.eq_of_toNat_eq (Nat.cast_eq_zero.mp isZero)
    · rintro rfl
      rfl

/-- A transaction grants nothing from or to the zero address. -/
private theorem ungranted {transaction : Transaction}
    (named : ∀ address ∈ transaction.addresses, address ≠ 0)
    {holder spender : Address} (isZero : holder = 0 ∨ spender = 0)
    (grant : Grant) :
    transaction.entries.foldl (Grant.next holder spender) grant =
      grant := by
  have apart : ∀ otherHolder otherSpender, otherHolder ≠ 0 →
      otherSpender ≠ 0 →
        ¬ (holder = otherHolder ∧ spender = otherSpender) := by
    rintro _ _ isHolder isSpender ⟨rfl, rfl⟩
    rcases isZero with isZero | isZero
    · exact isHolder isZero
    · exact isSpender isZero
  obtain ⟨sender, call⟩ := transaction
  cases call with
  | burnFrom account value =>
      have someone := apart account sender
        (named account (by simp [Transaction.addresses]))
        (named sender (by simp [Transaction.addresses]))
      simp [Transaction.entries, Grant.next, someone]
  | approve spender value =>
      have someone := apart sender spender
        (named sender (by simp [Transaction.addresses]))
        (named spender (by simp [Transaction.addresses]))
      simp [Transaction.entries, Grant.next, someone]
  | transferFrom holder receiver value =>
      have someone := apart holder sender
        (named holder (by simp [Transaction.addresses]))
        (named sender (by simp [Transaction.addresses]))
      simp [Transaction.entries, Grant.next, someone]
  | _ =>
      rfl

theorem Register.step_eq_some {register after : Register}
    {transaction : Transaction}
    (accepted : register.step transaction = some after) :
    register.Admits transaction ∧
      register.book.postAll transaction.entries = some after.book ∧
      after.owner = transaction.call.newOwner?.getD register.owner ∧
      after.used = register.used ∪
        {txReference | txReference ∈ transaction.call.reference?} := by
  unfold Register.step at accepted
  by_cases admits : register.Admits transaction
  · rw [if_pos admits] at accepted
    obtain ⟨book, isBook, rfl⟩ := Option.map_eq_some_iff.mp accepted
    exact ⟨admits, isBook, rfl, rfl⟩
  · rw [if_neg admits] at accepted
    cases accepted

theorem guarded_of_execute {contract after : Contract}
    (solvent : contract.Solvent) (guarded : contract.Guarded)
    {transaction : Transaction}
    (returned : execute contract transaction = .ok after) :
    after.Guarded := by
  have accepted := execute_refines solvent guarded transaction
  rw [returned, registerOf_ok] at accepted
  obtain ⟨admits, posted, _⟩ := Register.step_eq_some accepted.symm
  intro holder spender isZero
  have kept := Book.allowed_postAll posted holder spender
    (ungranted admits.named isZero _)
  have before : contract.register.book.allowed holder spender = 0 :=
    limit_eq_zero_iff.mpr (guarded holder spender isZero)
  rw [before, Nat.cast_zero, add_zero] at kept
  exact limit_eq_zero_iff.mp kept

/-- A contract behaves as a register. -/
structure Contract.Represents (contract : Contract)
    (register : Register) : Prop where
  stores : contract.register = register
  supply : contract.totalSupply.toNat = register.book.supply
  accepts : ∀ transaction,
    registerOf (execute contract transaction) = register.step transaction

section Life

variable {deployer : Address} {contract : Contract}

theorem register_of_deploy (deployed : deploy deployer = .ok contract) :
    contract.register = Register.initial deployer := by
  unfold deploy at deployed
  simp only at deployed
  split at deployed
  · cases deployed
  · cases deployed
    apply Register.ext
    · apply Book.ext
      · rfl
      · funext holder spender
        exact limit_eq_zero_iff.mpr rfl
    · rfl
    · ext txReference
      exact ⟨nofun, nofun⟩

theorem Life.of_concat (contract : Contract)
    (transactions : List Transaction) (transaction : Transaction) :
    Life.of contract (transactions ++ [transaction]) =
      (Life.of contract transactions).next transaction := by
  unfold Life.of
  rw [List.foldl_append]
  rfl

theorem Life.keeps {kept : Contract → Prop} (begins : kept contract)
    (transactions : List Transaction)
    (steps : ∀ earlier transaction after,
      execute (Life.of contract earlier).contract transaction = .ok after →
        kept (Life.of contract earlier).contract → kept after) :
    kept (Life.of contract transactions).contract := by
  induction transactions using List.reverseRecOn with
  | nil =>
      exact begins
  | append_singleton earlier transaction inductionHypothesis =>
      rw [Life.of_concat]
      unfold Life.next
      cases returned :
          execute (Life.of contract earlier).contract transaction with
      | error revert =>
          exact inductionHypothesis
      | ok after =>
          exact steps earlier transaction after returned inductionHypothesis

/-- The supply is what all accounts hold, and the zero address is guarded. -/
theorem sound_of_life (deployed : deploy deployer = .ok contract)
    (transactions : List Transaction) :
    (Life.of contract transactions).contract.Solvent ∧
      (Life.of contract transactions).contract.Guarded := by
  have solvent : contract.Solvent := by
    unfold deploy at deployed
    simp only at deployed
    split at deployed
    · cases deployed
    · cases deployed
      exact Balances.total_zero
  have guarded : contract.Guarded := by
    intro holder spender _
    have nothing := register_of_deploy deployed
    exact limit_eq_zero_iff.mp
      (congrArg (fun register : Register =>
        register.book.allowed holder spender) nothing)
  refine @Life.keeps contract
    (fun contract => contract.Solvent ∧ contract.Guarded)
    ⟨solvent, guarded⟩ transactions ?_
  rintro earlier transaction after returned ⟨solvent, guarded⟩
  exact ⟨(step_of_execute solvent returned).solvent,
    guarded_of_execute solvent guarded returned⟩

/-- Over its whole life the contract is the token of its register. -/
theorem contract_represents_register (deployer : Address)
    (contract : Contract) (deployed : deploy deployer = .ok contract)
    (transactions : List Transaction) :
    (Life.of contract transactions).contract.Represents
      (transactions.foldl Register.next (Register.initial deployer)) := by
  have stores : (Life.of contract transactions).contract.register =
      transactions.foldl Register.next (Register.initial deployer) := by
    induction transactions using List.reverseRecOn with
    | nil =>
        exact register_of_deploy deployed
    | append_singleton earlier transaction inductionHypothesis =>
        obtain ⟨solvent, guarded⟩ := sound_of_life deployed earlier
        have accepted := execute_refines solvent guarded transaction
        rw [List.foldl_append, ← inductionHypothesis, Life.of_concat]
        unfold Life.next
        simp only [List.foldl_cons, List.foldl_nil, Register.next]
        rw [← accepted]
        cases execute (Life.of contract earlier).contract transaction <;>
          rfl
  obtain ⟨solvent, guarded⟩ := sound_of_life deployed transactions
  rw [← stores]
  exact ⟨rfl, solvent.supply_eq.symm, execute_refines solvent guarded⟩

/-- Allowances that are used up, one without end, and calls that are
refused. -/
def allowanceTransactions : List Transaction :=
  [⟨1, .mint 2 100 7⟩, ⟨2, .approve 3 60⟩, ⟨3, .transferFrom 2 4 50⟩,
    ⟨3, .burnFrom 2 11⟩, ⟨4, .approve 5 (BitVec.allOnes 256)⟩,
    ⟨5, .burnFrom 4 20⟩, ⟨1, .mint 2 (BitVec.allOnes 256) 8⟩]

theorem allowanceTransactions_represented :
    ∃ contract, deploy 1 = .ok contract ∧
      (Life.of contract allowanceTransactions).contract.Represents
        (allowanceTransactions.foldl Register.next
          (Register.initial 1)) :=
  ⟨_, rfl, contract_represents_register 1 _ rfl allowanceTransactions⟩

example :
    (match deploy 1 with
    | .ok contract =>
        (Life.of contract allowanceTransactions).log.map Executed.revert
    | .error _ => []) =
      [none, none, none, some (.erc20InsufficientAllowance 3 10 11), none,
        none, some (.panic 0x11)] := by
  decide +kernel

end Life

end ArosParadigm.ReserveManager
