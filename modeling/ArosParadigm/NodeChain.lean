import ArosParadigm.Library.HashChain
import ArosParadigm.Library.Rearrangement
import ArosParadigm.Library.Table

/-!
# NodeChain

`NodeChainService` of `src/nodechain/nodechain.service.ts` over the table
`execution_snapshots`: `append` links one snapshot to the head, `list` reads
the history in ascending order, `reconstruct` replays every hash.

The module is generic in the payload, in the text that is hashed, and in what
the payload column stores, so that the services use it with their own payloads
and the JSON development uses it with JSON values.
-/

namespace ArosParadigm

open Keyed

structure ExecutionSnapshot (Payload Text : Type) where
  sequenceId : ℕ
  eventType : String
  payload : Payload
  timestamp : ℕ
  prevHash : Text
  hash : Text

/-- The text operations behind
`sha256(JSON.stringify(payload) + prevHash + sequenceId)`. -/
structure Hasher (Payload Text : Type) where
  stringify : Payload → Text
  concat : Text → Text → Text
  decimal : ℕ → Text
  emptyText : Text
  sha256 : Text → Text

/-- `sha256(payloadJson + prevHash + sequenceId)`. -/
def Hasher.linkHash {Payload Text : Type} (hasher : Hasher Payload Text)
    (payload : Payload) (prevHash : Text) (sequenceId : ℕ) : Text :=
  hasher.sha256
    (hasher.concat (hasher.concat (hasher.stringify payload) prevHash)
      (hasher.decimal sequenceId))

structure PayloadColumn (Payload Stored : Type) where
  write : Payload → Stored
  read : Stored → Payload

def PayloadColumn.same (Payload : Type) : PayloadColumn Payload Payload :=
  ⟨id, id⟩

/-- The table `execution_snapshots`, keyed by `sequenceId`. -/
abbrev SnapshotTable (Stored Text : Type) :=
  Table (ExecutionSnapshot.sequenceId :
    ExecutionSnapshot Stored Text → ℕ)

structure ReconstructResult where
  ok : Bool
  brokenAt : Option ℕ
  deriving DecidableEq

namespace NodeChain

variable {Payload Stored Text : Type}

/-- `ORDER BY sequence_id ASC` compares two rows. -/
abbrev Before (first second : ExecutionSnapshot Stored Text) : Prop :=
  first.sequenceId ≤ second.sequenceId

/-- A snapshot as a read returns it. -/
def reload (column : PayloadColumn Payload Stored)
    (row : ExecutionSnapshot Stored Text) :
    ExecutionSnapshot Payload Text :=
  ⟨row.sequenceId, row.eventType, column.read row.payload, row.timestamp,
    row.prevHash, row.hash⟩

/-- `list()`: the snapshots in ascending order of `sequenceId`. -/
def list (column : PayloadColumn Payload Stored)
    (table : SnapshotTable Stored Text) :
    List (ExecutionSnapshot Payload Text) :=
  (table.rows.insertionSort Before).map (reload column)

/-- The head that `append` reads: descending order, first row. -/
def head? (table : SnapshotTable Stored Text) :
    Option (ExecutionSnapshot Stored Text) :=
  (table.rows.insertionSort Before).getLast?

/-- The row that `append` builds over a head. -/
def nextRow (hasher : Hasher Payload Text)
    (column : PayloadColumn Payload Stored)
    (head : Option (ExecutionSnapshot Stored Text))
    (eventType : String) (payload : Payload) (timestamp : ℕ) :
    ExecutionSnapshot Stored Text :=
  let sequenceId := match head with
    | some snapshot => snapshot.sequenceId + 1
    | none => 1
  let prevHash := match head with
    | some snapshot => snapshot.hash
    | none => hasher.emptyText
  { sequenceId := sequenceId
    eventType := eventType
    payload := column.write payload
    timestamp := timestamp
    prevHash := prevHash
    hash := hasher.linkHash payload prevHash sequenceId }

/-- `append(eventType, payload)` as one transaction. -/
def append (hasher : Hasher Payload Text)
    (column : PayloadColumn Payload Stored)
    (table : SnapshotTable Stored Text)
    (eventType : String) (payload : Payload) (timestamp : ℕ) :
    SnapshotTable Stored Text :=
  table.save
    (nextRow hasher column (head? table) eventType payload timestamp)

/-- How `reconstruct` reads a snapshot. -/
def reading (hasher : Hasher Payload Text) :
    HashChain.Reading (ExecutionSnapshot Payload Text) Text where
  previous := ExecutionSnapshot.prevHash
  stored := ExecutionSnapshot.hash
  digest := fun snapshot expected =>
    hasher.linkHash snapshot.payload expected snapshot.sequenceId

/-- The loop of `reconstruct()` over the listed snapshots. -/
def reconstruct [DecidableEq Text] (hasher : Hasher Payload Text)
    (snapshots : List (ExecutionSnapshot Payload Text)) :
    ReconstructResult :=
  match HashChain.firstBroken (reading hasher) hasher.emptyText
      snapshots with
  | none => ⟨true, none⟩
  | some broken => ⟨false, some broken.sequenceId⟩

theorem reconstruct_ok_iff [DecidableEq Text]
    (hasher : Hasher Payload Text)
    (snapshots : List (ExecutionSnapshot Payload Text)) :
    (reconstruct hasher snapshots).ok = true ↔
      HashChain.Linked (reading hasher) hasher.emptyText snapshots := by
  rw [← HashChain.firstBroken_eq_none_iff]
  unfold reconstruct
  split
  · next intact =>
      simp [intact]
  · next broken found =>
      simp [found]

theorem le_of_head? {table : SnapshotTable Stored Text}
    {head row : ExecutionSnapshot Stored Text}
    (isHead : head? table = some head) (member : row ∈ table.rows) :
    row.sequenceId ≤ head.sequenceId := by
  have sorted :=
    List.pairwise_insertionSort
      (@Before Stored Text) table.rows
  have sortedMember : row ∈ table.rows.insertionSort Before := by
    simpa using member
  obtain ⟨initial, split⟩ := List.getLast?_eq_some_iff.mp isHead
  rw [split] at sorted sortedMember
  rcases List.mem_append.mp sortedMember with inInitial | atEnd
  · exact (List.pairwise_append.mp sorted).2.2 row inInitial head
      (by simp)
  · rw [List.mem_singleton.mp atEnd]

theorem rows_eq_nil_of_head? {table : SnapshotTable Stored Text}
    (noHead : head? table = none) : table.rows = [] := by
  have sortedEmpty : table.rows.insertionSort Before = [] := by
    simpa [head?] using noHead
  have permutation :=
    List.perm_insertionSort
      (@Before Stored Text) table.rows
  rw [sortedEmpty] at permutation
  exact permutation.symm.eq_nil

variable (hasher : Hasher Payload Text)
  (column : PayloadColumn Payload Stored)
  (table : SnapshotTable Stored Text)
  (eventType : String) (payload : Payload) (timestamp : ℕ)

theorem lt_nextRow {row : ExecutionSnapshot Stored Text}
    (member : row ∈ table.rows) :
    row.sequenceId <
      (nextRow hasher column (head? table) eventType payload
        timestamp).sequenceId := by
  cases isHead : head? table with
  | none =>
      rw [rows_eq_nil_of_head? isHead] at member
      cases member
  | some head =>
      exact Nat.lt_succ_of_le (le_of_head? isHead member)

theorem rows_append :
    (append hasher column table eventType payload timestamp).rows =
      table.rows ++
        [nextRow hasher column (head? table) eventType payload
          timestamp] :=
  Table.rows_save_of_fresh fun _ member =>
    Nat.ne_of_lt
      (lt_nextRow hasher column table eventType payload timestamp member)

theorem list_append :
    list column
        (append hasher column table eventType payload timestamp) =
      list column table ++
        [reload column
          (nextRow hasher column (head? table) eventType payload
            timestamp)] := by
  unfold list
  rw [rows_append, Rearrangement.insertionSort_append_last,
    List.map_append]
  · rfl
  · intro row member
    exact Nat.le_of_lt
      (lt_nextRow hasher column table eventType payload timestamp member)

theorem getLast?_list :
    (list column table).getLast? = (head? table).map (reload column) := by
  simp [list, head?, List.getLast?_map]

theorem prevHash_nextRow :
    (nextRow hasher column (head? table) eventType payload
        timestamp).prevHash =
      HashChain.tip (reading hasher) hasher.emptyText
        (list column table) := by
  unfold HashChain.tip
  rw [getLast?_list]
  cases head? table <;> rfl

theorem sequenceId_nextRow :
    (nextRow hasher column (head? table) eventType payload
        timestamp).sequenceId =
      (((list column table).map
        ExecutionSnapshot.sequenceId).getLast?.getD 0) + 1 := by
  rw [List.getLast?_map, getLast?_list]
  cases head? table <;> rfl

/-- The history stays linked when the hash of the stored payload is the hash
of the payload that was appended. -/
theorem linked_append
    (kept : ∀ prevHash sequenceId,
      hasher.linkHash (column.read (column.write payload)) prevHash
          sequenceId =
        hasher.linkHash payload prevHash sequenceId)
    (linked : HashChain.Linked (reading hasher) hasher.emptyText
      (list column table)) :
    HashChain.Linked (reading hasher) hasher.emptyText
      (list column
        (append hasher column table eventType payload timestamp)) := by
  rw [list_append]
  apply linked.append_singleton
  · exact prevHash_nextRow hasher column table eventType payload timestamp
  · rw [← prevHash_nextRow hasher column table eventType payload
      timestamp]
    exact (kept _ _).symm

end NodeChain

end ArosParadigm
