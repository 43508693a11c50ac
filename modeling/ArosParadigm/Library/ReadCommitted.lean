import ArosParadigm.Library.Program
import ArosParadigm.Library.Table

/-!
# Transactions at READ COMMITTED

A table with a unique key under concurrent transactions. A statement sees the
rows that are committed when it starts and the own writes of its transaction.
A statement that writes a row waits while another transaction has written the
row with the same key and has not ended. An insert fails when its key is
taken by then; an update changes the newest committed version of its row.

Transactions that only insert never change a committed row.
-/

namespace ReadCommitted

open Keyed

/-- A write of a transaction that has not ended. -/
structure Write (Row : Type) where
  owner : ℕ
  row : Row

/-- The committed rows and the writes that are not committed. -/
structure Database {Key Row : Type} (key : Row → Key) where
  committed : Table key
  pending : List (Write Row)

namespace Database

variable {Key Row : Type} {key : Row → Key}

/-- The writes of a transaction. -/
def own (database : Database key) (owner : ℕ) : List Row :=
  (database.pending.filter fun write => write.owner = owner).map Write.row

def write (database : Database key) (owner : ℕ) (row : Row) :
    Database key :=
  { database with pending := database.pending ++ [⟨owner, row⟩] }

/-- The writes of a transaction are taken back. -/
def rollback (database : Database key) (owner : ℕ) : Database key :=
  { database with
    pending := database.pending.filter fun write =>
      write.owner ≠ owner }

variable [DecidableEq Key]

/-- What a statement of a transaction sees. -/
def visible (database : Database key) (owner : ℕ) : Table key :=
  (database.own owner).foldl Table.save database.committed

/-- The writes of a transaction are committed. -/
def commit (database : Database key) (owner : ℕ) : Database key :=
  { database.rollback owner with committed := database.visible owner }

/-- Another transaction has written the row with this key. -/
def Locked (database : Database key) (owner : ℕ) (wanted : Key) : Prop :=
  ∃ write ∈ database.pending, write.owner ≠ owner ∧ key write.row = wanted

instance (database : Database key) (owner : ℕ) (wanted : Key) :
    Decidable (database.Locked owner wanted) :=
  inferInstanceAs (Decidable (∃ write ∈ database.pending,
    write.owner ≠ owner ∧ key write.row = wanted))

end Database

/-- The statements of transactions. -/
inductive Call (Key Row : Type) where
  /-- A query over the whole table. -/
  | read (owner : ℕ)
  | find (owner : ℕ) (wanted : Key)
  | insert (owner : ℕ) (row : Row)
  | update (owner : ℕ) (wanted : Key) (change : Row → Row)
  | commit (owner : ℕ)
  | rollback (owner : ℕ)

/-- The replies; an insert answers whether its key was free. -/
@[reducible]
def Call.Reply {Key Row : Type} (key : Row → Key) :
    Call Key Row → Type
  | .read _ => Table key
  | .find .. => Option Row
  | .insert .. => Bool
  | .update .. => Unit
  | .commit _ => Unit
  | .rollback _ => Unit

/-- One statement. -/
def step {Key Row : Type} [DecidableEq Key] {key : Row → Key} :
    (request : Call Key Row) → Database key →
      Option (request.Reply key × Database key)
  | .read owner, database => some (database.visible owner, database)
  | .find owner wanted, database =>
      some ((database.visible owner).find? wanted, database)
  | .insert owner row, database =>
      if database.Locked owner (key row) then none
      else if ((database.visible owner).find? (key row)).isSome then
        some (false, database)
      else some (true, database.write owner row)
  | .update owner wanted change, database =>
      if database.Locked owner wanted then none
      else match (database.visible owner).find? wanted with
        | some current => some ((), database.write owner (change current))
        | none => some ((), database)
  | .commit owner, database => some ((), database.commit owner)
  | .rollback owner, database => some ((), database.rollback owner)

/-! ## Transactions that only insert -/

namespace Database

section Inserts

variable {Key Row : Type} {key : Row → Key}
variable {database : Database key} {owner other : ℕ} {row : Row}

/-- All committed rows are still there. -/
def Grows (before after : Database key) : Prop :=
  ∀ row ∈ before.committed.rows, row ∈ after.committed.rows

theorem Grows.refl (database : Database key) : database.Grows database :=
  fun _ member => member

theorem Grows.trans {first second third : Database key}
    (earlier : first.Grows second) (later : second.Grows third) :
    first.Grows third :=
  fun row member => later row (earlier row member)

theorem own_write_self :
    (database.write owner row).own owner = database.own owner ++ [row] := by
  simp [own, write]

theorem own_write_of_ne (different : other ≠ owner) :
    (database.write owner row).own other = database.own other := by
  simp [own, write, Ne.symm different]

theorem own_rollback_of_ne (different : other ≠ owner) :
    (database.rollback owner).own other = database.own other := by
  unfold own rollback
  rw [List.filter_filter]
  congr 1
  refine List.filter_congr ?_
  intro tested _
  by_cases same : tested.owner = other
  · simp [same, different]
  · simp [same]

variable [DecidableEq Key]

/-- Every key that is written is written once and not committed. -/
structure InsertsOnly (database : Database key) : Prop where
  distinct : (database.pending.map fun write => key write.row).Nodup
  absent : ∀ write ∈ database.pending,
    database.committed.find? (key write.row) = none

theorem commit_committed :
    (database.commit owner).committed = database.visible owner :=
  rfl

theorem own_commit_of_ne (different : other ≠ owner) :
    (database.commit owner).own other = database.own other :=
  own_rollback_of_ne different

private theorem find?_foldl_save (rows : List Row) (table : Table key)
    {wanted : Key} (absent : wanted ∉ rows.map key) :
    (rows.foldl Table.save table).find? wanted = table.find? wanted := by
  induction rows generalizing table with
  | nil =>
      rfl
  | cons head rest inductionHypothesis =>
      simp only [List.map_cons, List.mem_cons, not_or] at absent
      rw [List.foldl_cons, inductionHypothesis _ absent.2,
        Table.find?_save_of_ne table (Ne.symm absent.1)]

private theorem key_notMem_own (inserts : database.InsertsOnly)
    {write : Write Row} (pending : write ∈ database.pending)
    (different : write.owner ≠ owner) :
    key write.row ∉ (database.own owner).map key := by
  intro member
  obtain ⟨ownRow, inside, sameKey⟩ := List.mem_map.mp member
  obtain ⟨ownWrite, filtered, rfl⟩ := List.mem_map.mp inside
  obtain ⟨ownPending, isOwner⟩ := List.mem_filter.mp filtered
  have same : ownWrite = write :=
    List.inj_on_of_nodup_map inserts.distinct ownPending pending sameKey
  subst same
  exact different (by simpa using isOwner)

/-- A committed row keeps its place before every transaction. -/
theorem find?_visible_of_mem (inserts : database.InsertsOnly)
    (member : row ∈ database.committed.rows) (owner : ℕ) :
    (database.visible owner).find? (key row) = some row := by
  rw [visible, find?_foldl_save]
  · exact Table.find?_of_mem member
  · intro inside
    obtain ⟨ownRow, ownMember, sameKey⟩ := List.mem_map.mp inside
    obtain ⟨write, filtered, rfl⟩ := List.mem_map.mp ownMember
    have absent := inserts.absent write (List.mem_filter.mp filtered).1
    rw [sameKey, Table.find?_of_mem member] at absent
    cases absent

/-- An insert keeps the condition. -/
theorem InsertsOnly.write (inserts : database.InsertsOnly)
    (unlocked : ¬database.Locked owner (key row))
    (free : (database.visible owner).find? (key row) = none)
    (first : database.own owner = []) :
    (database.write owner row).InsertsOnly := by
  have unwritten : ∀ write ∈ database.pending,
      key write.row ≠ key row := by
    intro write pending sameKey
    by_cases isOwn : write.owner = owner
    · have member : write.row ∈ database.own owner :=
        List.mem_map_of_mem (List.mem_filter.mpr
          ⟨pending, by simpa using isOwn⟩)
      rw [first] at member
      cases member
    · exact unlocked ⟨write, pending, isOwn, sameKey⟩
  constructor
  · rw [Database.write, List.map_append, List.nodup_append]
    refine ⟨inserts.distinct, by simp, ?_⟩
    intro written inside added isAdded
    obtain ⟨write, pending, rfl⟩ := List.mem_map.mp inside
    simp only [List.map_cons, List.map_nil, List.mem_singleton] at isAdded
    subst isAdded
    exact unwritten write pending
  · intro write member
    rcases List.mem_append.mp member with pending | added
    · exact inserts.absent write pending
    · rw [List.mem_singleton] at added
      subst added
      rw [visible, first] at free
      exact free

theorem InsertsOnly.rollback (inserts : database.InsertsOnly)
    (owner : ℕ) : (database.rollback owner).InsertsOnly := by
  constructor
  · exact inserts.distinct.sublist (List.filter_sublist.map _)
  · intro write member
    exact inserts.absent write (List.mem_filter.mp member).1

theorem InsertsOnly.commit (inserts : database.InsertsOnly)
    (owner : ℕ) : (database.commit owner).InsertsOnly := by
  constructor
  · exact (inserts.rollback owner).distinct
  · intro write member
    obtain ⟨pending, isOther⟩ := List.mem_filter.mp member
    rw [commit_committed, visible, find?_foldl_save]
    · exact inserts.absent write pending
    · exact key_notMem_own inserts pending (by simpa using isOther)

theorem InsertsOnly.grows_commit (inserts : database.InsertsOnly)
    (owner : ℕ) : database.Grows (database.commit owner) := by
  intro row member
  exact Table.mem_of_find? (find?_visible_of_mem inserts member owner)

theorem mem_commit (single : database.own owner = [row]) :
    row ∈ (database.commit owner).committed.rows := by
  rw [commit_committed, visible, single]
  exact Table.mem_of_find? (Table.find?_save_self database.committed row)

end Inserts

end Database

end ReadCommitted
