import Mathlib.Data.List.Nodup
import Mathlib.Algebra.BigOperators.Group.List.Basic

/-!
# Keyed tables

A table is a list of rows in which every key occurs once. `save` replaces the
row with the key of the given row where it stands, or adds the row at the end.
The uniqueness of the keys is a field of the table, so no operation has to
assume it.
-/

namespace Keyed

/-- Rows in insertion order, each key once. -/
structure Table {Key Row : Type} (key : Row → Key) where
  rows : List Row
  unique : (rows.map key).Nodup

section Upsert

variable {Key Row : Type} [DecidableEq Key] (key : Row → Key)

/-- Replace the row with the key of `row`, or add `row` at the end. -/
def upsert (row : Row) : List Row → List Row
  | [] => [row]
  | head :: tail =>
      if key head = key row then row :: tail
      else head :: upsert row tail

theorem mem_map_upsert (row : Row) (rows : List Row) (tested : Key) :
    tested ∈ (upsert key row rows).map key ↔
      tested = key row ∨ tested ∈ rows.map key := by
  induction rows with
  | nil =>
      simp [upsert]
  | cons head tail inductionHypothesis =>
      by_cases same : key head = key row
      · simp [upsert, same]
      · simp only [upsert, same, if_false, List.map_cons, List.mem_cons,
          inductionHypothesis]
        tauto

/-- A row after an upsert is the given one or an old one. -/
theorem eq_or_mem_of_mem_upsert {row tested : Row} {rows : List Row}
    (member : tested ∈ upsert key row rows) :
    tested = row ∨ tested ∈ rows := by
  induction rows with
  | nil =>
      exact Or.inl (List.mem_singleton.mp member)
  | cons head tail inductionHypothesis =>
      rw [upsert] at member
      by_cases same : key head = key row
      · rw [if_pos same] at member
        exact (List.mem_cons.mp member).imp_right
          (List.mem_cons_of_mem head)
      · rw [if_neg same] at member
        rcases List.mem_cons.mp member with rfl | inside
        · exact Or.inr List.mem_cons_self
        · exact (inductionHypothesis inside).imp_right
            (List.mem_cons_of_mem head)

theorem nodup_upsert (row : Row) {rows : List Row}
    (unique : (rows.map key).Nodup) :
    ((upsert key row rows).map key).Nodup := by
  induction rows with
  | nil =>
      simp [upsert]
  | cons head tail inductionHypothesis =>
      obtain ⟨headFresh, tailUnique⟩ := List.nodup_cons.mp unique
      by_cases same : key head = key row
      · simpa [upsert, same] using unique
      · simp only [upsert, same, if_false, List.map_cons]
        refine List.nodup_cons.mpr ⟨?_, inductionHypothesis tailUnique⟩
        rw [mem_map_upsert]
        rintro (equal | member)
        · exact same equal
        · exact headFresh member

end Upsert

namespace Table

variable {Key Row : Type} [DecidableEq Key] {key : Row → Key}

@[ext]
theorem ext {Key Row : Type} {key : Row → Key} {first second : Table key}
    (same : first.rows = second.rows) : first = second := by
  cases first
  cases second
  cases same
  rfl

/-- The table without rows. -/
def empty {Key Row : Type} {key : Row → Key} : Table key :=
  ⟨[], List.nodup_nil⟩

/-- The row with a given key. -/
def find? (table : Table key) (wanted : Key) : Option Row :=
  table.rows.find? (fun row => key row = wanted)

/-- Insert the row, or overwrite the row with its key. -/
def save (table : Table key) (row : Row) : Table key :=
  ⟨upsert key row table.rows, nodup_upsert key row table.unique⟩

@[simp]
theorem rows_empty {Key Row : Type} {key : Row → Key} :
    (empty : Table key).rows = [] :=
  rfl

@[simp]
theorem find?_empty (wanted : Key) :
    (empty : Table key).find? wanted = none :=
  rfl

private theorem find?_upsert (row : Row) (rows : List Row) (wanted : Key) :
    (upsert key row rows).find? (fun tested => key tested = wanted) =
      if key row = wanted then some row
      else rows.find? (fun tested => key tested = wanted) := by
  induction rows with
  | nil =>
      by_cases hit : key row = wanted <;> simp [upsert, hit]
  | cons head tail inductionHypothesis =>
      by_cases same : key head = key row
      · by_cases hit : key row = wanted <;>
          simp [upsert, same, hit]
      · simp only [upsert, same, if_false, List.find?_cons,
          inductionHypothesis]
        by_cases hit : key row = wanted
        · subst hit
          simp [same]
        · simp [hit]

theorem find?_save (table : Table key) (row : Row) (wanted : Key) :
    (table.save row).find? wanted =
      if key row = wanted then some row else table.find? wanted :=
  find?_upsert row table.rows wanted

@[simp]
theorem find?_save_self (table : Table key) (row : Row) :
    (table.save row).find? (key row) = some row := by
  simp [find?_save]

theorem find?_save_of_ne (table : Table key) {row : Row} {wanted : Key}
    (different : key row ≠ wanted) :
    (table.save row).find? wanted = table.find? wanted := by
  simp [find?_save, different]

theorem key_of_find? {table : Table key} {wanted : Key} {row : Row}
    (found : table.find? wanted = some row) : key row = wanted := by
  simpa using List.find?_some found

theorem mem_of_find? {table : Table key} {wanted : Key} {row : Row}
    (found : table.find? wanted = some row) : row ∈ table.rows :=
  List.mem_of_find?_eq_some found

private theorem find?_of_mem_rows {rows : List Row} {row : Row}
    (unique : (rows.map key).Nodup) (member : row ∈ rows) :
    rows.find? (fun tested => key tested = key row) = some row := by
  induction rows with
  | nil =>
      cases member
  | cons head tail inductionHypothesis =>
      obtain ⟨headFresh, tailUnique⟩ := List.nodup_cons.mp unique
      rcases List.mem_cons.mp member with equal | tailMember
      · subst equal
        simp
      · have different : key head ≠ key row := by
          intro equal
          exact headFresh (equal ▸ List.mem_map_of_mem tailMember)
        simp [different, inductionHypothesis tailUnique tailMember]

theorem find?_of_mem {table : Table key} {row : Row}
    (member : row ∈ table.rows) : table.find? (key row) = some row :=
  find?_of_mem_rows table.unique member

private theorem upsert_of_mem {rows : List Row} {row : Row}
    (unique : (rows.map key).Nodup) (member : row ∈ rows) :
    upsert key row rows = rows := by
  induction rows with
  | nil =>
      cases member
  | cons head tail inductionHypothesis =>
      obtain ⟨headFresh, tailUnique⟩ := List.nodup_cons.mp unique
      rcases List.mem_cons.mp member with equal | tailMember
      · simp [upsert, equal]
      · have different : key head ≠ key row := by
          intro equal
          exact headFresh (equal ▸ List.mem_map_of_mem tailMember)
        simp [upsert, different,
          inductionHypothesis tailUnique tailMember]

/-- A save of a stored row changes nothing. -/
theorem save_of_find? {table : Table key} {wanted : Key} {row : Row}
    (found : table.find? wanted = some row) : table.save row = table := by
  have same : upsert key row table.rows = table.rows :=
    upsert_of_mem table.unique (mem_of_find? found)
  cases table
  simpa [save] using same

private theorem upsert_of_fresh {rows : List Row} {row : Row}
    (fresh : ∀ stored ∈ rows, key stored ≠ key row) :
    upsert key row rows = rows ++ [row] := by
  induction rows with
  | nil =>
      rfl
  | cons head tail inductionHypothesis =>
      have headFresh := fresh head List.mem_cons_self
      have tailFresh : ∀ stored ∈ tail, key stored ≠ key row :=
        fun stored member => fresh stored (List.mem_cons_of_mem head member)
      simp [upsert, headFresh, inductionHypothesis tailFresh]

/-- A save of a row with a new key adds the row at the end. -/
theorem rows_save_of_fresh {table : Table key} {row : Row}
    (fresh : ∀ stored ∈ table.rows, key stored ≠ key row) :
    (table.save row).rows = table.rows ++ [row] :=
  upsert_of_fresh fresh

theorem find?_eq_none_iff (table : Table key) (wanted : Key) :
    table.find? wanted = none ↔ wanted ∉ table.rows.map key := by
  change table.rows.find? _ = none ↔ _
  simp [List.find?_eq_none]

/-- A save adds a new key at the end and leaves a known one where it is. -/
theorem keys_save (table : Table key) (row : Row) :
    (table.save row).rows.map key =
      if key row ∈ table.rows.map key then table.rows.map key
      else table.rows.map key ++ [key row] := by
  change (upsert key row table.rows).map key = _
  induction table.rows with
  | nil =>
      rfl
  | cons head tail inductionHypothesis =>
      by_cases same : key head = key row
      · simp [upsert, same]
      · have other : key row ≠ key head := Ne.symm same
        by_cases known : key row ∈ tail.map key
        · rw [if_pos known] at inductionHypothesis
          rw [upsert, if_neg same, List.map_cons, List.map_cons,
            inductionHypothesis, if_pos (List.mem_cons_of_mem _ known)]
        · rw [if_neg known] at inductionHypothesis
          rw [upsert, if_neg same, List.map_cons, List.map_cons,
            inductionHypothesis, if_neg (List.not_mem_cons_of_ne_of_not_mem
              other known)]
          rfl

/-- A row of a table after a save is the saved row, or a row with another key
that the table had before. -/
theorem mem_rows_save {table : Table key} {row tested : Row}
    (member : tested ∈ (table.save row).rows) :
    tested = row ∨ tested ∈ table.rows ∧ key tested ≠ key row := by
  have found := find?_of_mem member
  by_cases same : key row = key tested
  · rw [find?_save, if_pos same] at found
    exact Or.inl (Option.some.inj found).symm
  · rw [find?_save_of_ne table same] at found
    exact Or.inr ⟨mem_of_find? found, Ne.symm same⟩

section Views

variable {View : Type} {viewKey : View → Key} {see : Row → View}

/-- A view of the rows that shows the keys sees a save as a save. -/
theorem map_rows_save (shown : ∀ row, viewKey (see row) = key row)
    (table : Table key) (row : Row) :
    (table.save row).rows.map see =
      upsert viewKey (see row) (table.rows.map see) := by
  change (upsert key row table.rows).map see = _
  induction table.rows with
  | nil =>
      rfl
  | cons head tail inductionHypothesis =>
      rw [List.map_cons, upsert, upsert, shown, shown]
      split
      · rfl
      · rw [List.map_cons, inductionHypothesis]

/-- A view of the rows that shows the keys sees the row with a key. -/
theorem map_find? (shown : ∀ row, viewKey (see row) = key row)
    (table : Table key) (wanted : Key) :
    (table.find? wanted).map see =
      (table.rows.map see).find? fun tested =>
        viewKey tested = wanted := by
  rw [List.find?_map]
  simp only [Function.comp_def, shown]
  rfl

end Views

section Sums

variable {amount : Type} [AddCommMonoid amount] (measure : Row → amount)

private theorem sum_upsert (row : Row) (rows : List Row) :
    ((upsert key row rows).map measure).sum +
        ((rows.find? (fun tested => key tested = key row)).map measure
          |>.getD 0) =
      (rows.map measure).sum + measure row := by
  induction rows with
  | nil =>
      simp [upsert]
  | cons head tail inductionHypothesis =>
      by_cases same : key head = key row
      · simp [upsert, same, add_comm, add_left_comm]
      · simp only [upsert, same, if_false, List.map_cons, List.sum_cons,
          List.find?_cons, decide_false]
        rw [add_assoc, inductionHypothesis, add_assoc]

/-- A save changes a sum over the rows by the new row minus the replaced
one. -/
theorem sum_save (table : Table key) (row : Row) :
    (((table.save row).rows).map measure).sum +
        ((table.find? (key row)).map measure |>.getD 0) =
      (table.rows.map measure).sum + measure row :=
  sum_upsert measure row table.rows

end Sums

end Table

end Keyed
