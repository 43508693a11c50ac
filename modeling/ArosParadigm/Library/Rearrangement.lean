import Mathlib.Data.List.Perm.Basic
import Mathlib.Data.List.Sort
import Mathlib.Logic.Function.Basic

/-!
# Rearrangement

Actions that commute wherever an invariant holds can be rearranged. Changes
of the entries of a table commute when changes of one entry do. What a list
selects is rearranged when one of its items is replaced, and a sorted list
grows at its end by an item that is not before the others.
-/

namespace Rearrangement

section Actions

variable {State Item : Type*} {invariant : State → Prop}
variable {act : State → Item → State}

/-- A run of commuting actions does not depend on their order. -/
theorem foldl_of_perm
    (kept : ∀ state item, invariant state → invariant (act state item))
    (commute : ∀ state first second, invariant state →
      act (act state first) second = act (act state second) first)
    {items others : List Item} (reordered : items.Perm others)
    {state : State} (holds : invariant state) :
    items.foldl act state = others.foldl act state := by
  induction reordered generalizing state with
  | nil =>
      rfl
  | cons item _ inductionHypothesis =>
      exact inductionHypothesis (kept state item holds)
  | swap first second rest =>
      simp only [List.foldl_cons]
      rw [commute state second first holds]
  | trans _ _ firstHypothesis secondHypothesis =>
      exact (firstHypothesis holds).trans (secondHypothesis holds)

end Actions

section Tables

variable {Key Value : Type*} [DecidableEq Key]

/-- Change one entry of a table. -/
def adjust (key : Key) (change : Value → Value) (table : Key → Value) :
    Key → Value :=
  Function.update table key (change (table key))

@[simp]
theorem adjust_self (key : Key) (change : Value → Value)
    (table : Key → Value) :
    adjust key change table key = change (table key) :=
  Function.update_self ..

theorem adjust_of_ne {key tested : Key} (other : tested ≠ key)
    (change : Value → Value) (table : Key → Value) :
    adjust key change table tested = table tested :=
  Function.update_of_ne other _ _

/-- Changes of entries commute when changes of one entry do. -/
theorem adjust_comm {first second : Key} {change later : Value → Value}
    (commute : first = second →
      ∀ value, change (later value) = later (change value))
    (table : Key → Value) :
    adjust first change (adjust second later table) =
      adjust second later (adjust first change table) := by
  funext tested
  by_cases atFirst : tested = first
  · subst atFirst
    by_cases same : tested = second
    · subst same
      simp only [adjust_self, commute rfl]
    · simp only [adjust_self, adjust_of_ne same]
  · by_cases atSecond : tested = second
    · subst atSecond
      simp only [adjust_self, adjust_of_ne atFirst]
    · simp only [adjust_of_ne atFirst, adjust_of_ne atSecond]

end Tables

section Lists

variable {Item Selected : Type*}

/-- The selected items when one item is replaced. -/
theorem filterMap_set_perm (select : Item → Option Selected)
    {items : List Item} {index : ℕ} {old : Item}
    (found : items[index]? = some old) (new : Item) :
    ((items.set index new).filterMap select ++
        (select old).toList).Perm
      (items.filterMap select ++ (select new).toList) := by
  obtain ⟨bound, isOld⟩ := List.getElem?_eq_some_iff.mp found
  have replaced := (List.set_perm_cons_eraseIdx bound new).filterMap
    select
  have kept := (List.getElem_cons_eraseIdx_perm bound).filterMap select
  rw [isOld] at kept
  have split : ∀ item : Item, ((item :: items.eraseIdx index).filterMap
      select).Perm
        ((items.eraseIdx index).filterMap select ++
          (select item).toList) := by
    intro item
    cases chosen : select item with
    | none =>
        simp [chosen]
    | some value =>
        simpa [chosen] using (List.perm_append_singleton value _).symm
  have left := (replaced.trans (split new)).append_right
    (select old).toList
  have right := (kept.symm.trans (split old)).append_right
    (select new).toList
  refine left.trans (List.Perm.trans ?_ right.symm)
  rw [List.append_assoc, List.append_assoc]
  exact List.perm_append_comm.append_left _

variable {order : Item → Item → Prop} [DecidableRel order]

private theorem orderedInsert_append_of_before {inserted last : Item}
    (before : order inserted last) (items : List Item) :
    (items ++ [last]).orderedInsert order inserted =
      items.orderedInsert order inserted ++ [last] := by
  induction items with
  | nil =>
      simp [List.orderedInsert, before]
  | cons head tail inductionHypothesis =>
      by_cases first : order inserted head
      · simp [List.orderedInsert, first]
      · simp [List.orderedInsert, first, inductionHypothesis]

theorem insertionSort_append_last {last : Item} {items : List Item}
    (bounded : ∀ item ∈ items, order item last) :
    (items ++ [last]).insertionSort order =
      items.insertionSort order ++ [last] := by
  induction items with
  | nil =>
      rfl
  | cons head tail inductionHypothesis =>
      have tailBounded : ∀ item ∈ tail, order item last :=
        fun item member => bounded item (List.mem_cons_of_mem head member)
      simp only [List.cons_append, List.insertionSort_cons,
        inductionHypothesis tailBounded]
      exact orderedInsert_append_of_before
        (bounded head List.mem_cons_self) _

end Lists

end Rearrangement
