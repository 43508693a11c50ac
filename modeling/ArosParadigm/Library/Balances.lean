import Mathlib.Algebra.BigOperators.Group.Finset.Piecewise
import Mathlib.Algebra.GroupWithZero.Nat
import Mathlib.Algebra.Order.BigOperators.Group.Finset
import Mathlib.Data.Fintype.BigOperators

/-!
# Balances

Balances of machine words over finitely many accounts. A debit that is covered
and a credit that fits do not wrap, and change the total by what is moved.
-/

namespace Balances

open Finset

variable {Account : Type*} [Fintype Account] {width : ℕ}

/-- What all accounts hold. -/
def total (balances : Account → BitVec width) : ℕ :=
  ∑ account, (balances account).toNat

@[simp]
theorem total_zero : total (fun _ : Account => (0 : BitVec width)) = 0 := by
  simp [total]

theorem le_total (balances : Account → BitVec width) (account : Account) :
    (balances account).toNat ≤ total balances :=
  single_le_sum (f := fun account => (balances account).toNat)
    (fun _ _ => Nat.zero_le _) (mem_univ account)

variable [DecidableEq Account]

/-- Take a value from an account, in machine arithmetic. -/
def debit (balances : Account → BitVec width) (account : Account)
    (value : BitVec width) : Account → BitVec width :=
  Function.update balances account (balances account - value)

/-- Give a value to an account, in machine arithmetic. -/
def credit (balances : Account → BitVec width) (account : Account)
    (value : BitVec width) : Account → BitVec width :=
  Function.update balances account (balances account + value)

variable {balances : Account → BitVec width} {account : Account}
variable {value : BitVec width}

/-- One changed balance changes the total by the difference. -/
theorem total_update (balances : Account → BitVec width)
    (account : Account) (value : BitVec width) :
    total (Function.update balances account value) +
        (balances account).toNat =
      total balances + value.toNat := by
  have changed : (fun tested =>
      (Function.update balances account value tested).toNat) =
        Function.update (fun tested => (balances tested).toNat) account
          value.toNat := by
    funext tested
    by_cases same : tested = account
    · subst same
      simp
    · simp [Function.update_of_ne same]
  have whole := add_sum_erase univ
    (fun tested => (balances tested).toNat) (mem_univ account)
  unfold total
  rw [changed, sum_update_of_mem (mem_univ account),
    sdiff_singleton_eq_erase, ← whole]
  omega

theorem total_debit (covered : value ≤ balances account) :
    total (debit balances account value) + value.toNat =
      total balances := by
  have change := total_update balances account (balances account - value)
  have difference : (balances account - value).toNat =
      (balances account).toNat - value.toNat :=
    BitVec.toNat_sub_of_le covered
  have bound : value.toNat ≤ (balances account).toNat :=
    BitVec.le_def.mp covered
  unfold debit
  omega

theorem total_credit (fits : total balances + value.toNat < 2 ^ width) :
    total (credit balances account value) =
      total balances + value.toNat := by
  have change := total_update balances account (balances account + value)
  have bound := le_total balances account
  have sum : (balances account + value).toNat =
      (balances account).toNat + value.toNat := by
    rw [BitVec.toNat_add, Nat.mod_eq_of_lt]
    omega
  unfold credit
  omega

end Balances
