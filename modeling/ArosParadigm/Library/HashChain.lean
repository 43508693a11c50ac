import Mathlib.Data.List.Forall2
import Mathlib.Data.List.Induction

/-!
# Hash-linked lists of records

Each record carries a digest of its own content and of the digest before it.
`firstBroken` is the usual audit loop: it recomputes every digest from the
start and stops at the first record that does not fit. The list passes the
audit exactly when it is `Linked`.

`Linked.agree_of_tip` is the binding theorem: when the digests of the records
decide their content, equal last digests force equal histories.
-/

namespace HashChain

/-- How a record is read by the audit: the digest it names as its
predecessor, the digest it carries, and the digest it should carry after a
given predecessor. -/
structure Reading (Record Digest : Type) where
  previous : Record → Digest
  stored : Record → Digest
  digest : Record → Digest → Digest

variable {Record Digest : Type}

/-- The digest that the next record has to name. -/
def tip (reading : Reading Record Digest) (start : Digest)
    (records : List Record) : Digest :=
  (records.getLast?.map reading.stored).getD start

/-- Every record names the digest before it and carries its own. -/
def Linked (reading : Reading Record Digest) :
    Digest → List Record → Prop
  | _, [] => True
  | expected, head :: tail =>
      reading.previous head = expected ∧
        reading.stored head = reading.digest head expected ∧
        Linked reading (reading.stored head) tail

section Audit

variable [DecidableEq Digest]

/-- The audit loop: the first record that breaks the chain. -/
def firstBroken (reading : Reading Record Digest) :
    Digest → List Record → Option Record
  | _, [] => none
  | expected, head :: tail =>
      if reading.previous head ≠ expected ∨
          reading.stored head ≠ reading.digest head expected then
        some head
      else
        firstBroken reading (reading.stored head) tail

theorem firstBroken_eq_none_iff (reading : Reading Record Digest)
    (start : Digest) (records : List Record) :
    firstBroken reading start records = none ↔
      Linked reading start records := by
  induction records generalizing start with
  | nil =>
      simp [firstBroken, Linked]
  | cons head tail inductionHypothesis =>
      by_cases named : reading.previous head = start
      · by_cases carried :
            reading.stored head = reading.digest head start
        · simp [firstBroken, Linked, named, carried,
            ← inductionHypothesis]
        · simp [firstBroken, Linked, named, carried]
      · simp [firstBroken, Linked, named]

theorem firstBroken_map {reading : Reading Record Digest}
    {change : Record → Record}
    (previous : ∀ record, reading.previous (change record) =
      reading.previous record)
    (stored : ∀ record, reading.stored (change record) =
      reading.stored record)
    (digest : ∀ record expected, reading.digest (change record) expected =
      reading.digest record expected)
    (start : Digest) (records : List Record) :
    firstBroken reading start (records.map change) =
      (firstBroken reading start records).map change := by
  induction records generalizing start with
  | nil =>
      rfl
  | cons head tail inductionHypothesis =>
      rw [List.map_cons, firstBroken, firstBroken, previous, stored,
        digest]
      split
      · rfl
      · exact inductionHypothesis _

end Audit

/-- A change of what the audit does not read. -/
theorem linked_map_iff {reading : Reading Record Digest}
    {change : Record → Record}
    (previous : ∀ record, reading.previous (change record) =
      reading.previous record)
    (stored : ∀ record, reading.stored (change record) =
      reading.stored record)
    (digest : ∀ record expected, reading.digest (change record) expected =
      reading.digest record expected)
    (start : Digest) (records : List Record) :
    Linked reading start (records.map change) ↔
      Linked reading start records := by
  induction records generalizing start with
  | nil =>
      exact Iff.rfl
  | cons head tail inductionHypothesis =>
      simp only [List.map_cons, Linked, previous, stored, digest,
        inductionHypothesis]

@[simp]
theorem tip_nil (reading : Reading Record Digest) (start : Digest) :
    tip reading start [] = start :=
  rfl

@[simp]
theorem tip_append_singleton (reading : Reading Record Digest)
    (start : Digest) (records : List Record) (last : Record) :
    tip reading start (records ++ [last]) = reading.stored last := by
  simp [tip]

theorem tip_cons (reading : Reading Record Digest) (start : Digest)
    (head : Record) (tail : List Record) :
    tip reading start (head :: tail) =
      tip reading (reading.stored head) tail := by
  cases tail with
  | nil =>
      rfl
  | cons next rest =>
      simp [tip, List.getLast?_cons]

theorem linked_append_singleton (reading : Reading Record Digest)
    (start : Digest) (records : List Record) (last : Record) :
    Linked reading start (records ++ [last]) ↔
      Linked reading start records ∧
        reading.previous last = tip reading start records ∧
        reading.stored last =
          reading.digest last (tip reading start records) := by
  induction records generalizing start with
  | nil =>
      simp [Linked]
  | cons head tail inductionHypothesis =>
      simp only [List.cons_append, Linked, tip_cons,
        inductionHypothesis]
      tauto

theorem Linked.append_singleton {reading : Reading Record Digest}
    {start : Digest} {records : List Record} {last : Record}
    (linked : Linked reading start records)
    (named : reading.previous last = tip reading start records)
    (carried : reading.stored last =
      reading.digest last (tip reading start records)) :
    Linked reading start (records ++ [last]) :=
  (linked_append_singleton reading start records last).mpr
    ⟨linked, named, carried⟩

theorem Linked.previous_first {reading : Reading Record Digest}
    {start : Digest} {records : List Record}
    (linked : Linked reading start records) {first : Record}
    (isFirst : records[0]? = some first) :
    reading.previous first = start := by
  cases records with
  | nil =>
      cases isFirst
  | cons head tail =>
      cases isFirst
      exact linked.1

theorem Linked.previous_next {reading : Reading Record Digest}
    {start : Digest} {records : List Record}
    (linked : Linked reading start records) {index : ℕ}
    {earlier later : Record} (isEarlier : records[index]? = some earlier)
    (isLater : records[index + 1]? = some later) :
    reading.previous later = reading.stored earlier := by
  induction records generalizing start index with
  | nil =>
      cases isEarlier
  | cons head tail inductionHypothesis =>
      rw [List.getElem?_cons_succ] at isLater
      cases index with
      | zero =>
          cases isEarlier
          exact linked.2.2.previous_first isLater
      | succ index =>
          exact inductionHypothesis linked.2.2 isEarlier isLater

/-- In a linked list every record carries the digest of itself after the
predecessor that it names. -/
theorem Linked.stored_eq {reading : Reading Record Digest}
    {start : Digest} {records : List Record}
    (linked : Linked reading start records) {record : Record}
    (member : record ∈ records) :
    reading.stored record =
      reading.digest record (reading.previous record) := by
  induction records generalizing start with
  | nil =>
      cases member
  | cons head tail inductionHypothesis =>
      obtain ⟨named, carried, tailLinked⟩ := linked
      rcases List.mem_cons.mp member with equal | tailMember
      · subst equal
        rw [carried, named]
      · exact inductionHypothesis tailLinked tailMember

/-- The predecessor named by a record of a linked list is the start or the
digest carried by a record of the list. -/
theorem Linked.previous_eq {reading : Reading Record Digest}
    {start : Digest} {records : List Record}
    (linked : Linked reading start records) {record : Record}
    (member : record ∈ records) :
    reading.previous record = start ∨
      ∃ earlier ∈ records,
        reading.previous record = reading.stored earlier := by
  induction records generalizing start with
  | nil =>
      cases member
  | cons head tail inductionHypothesis =>
      obtain ⟨named, _, tailLinked⟩ := linked
      rcases List.mem_cons.mp member with equal | tailMember
      · subst equal
        exact Or.inl named
      · refine Or.inr ?_
        rcases inductionHypothesis tailLinked tailMember with
          atHead | ⟨earlier, earlierMember, equal⟩
        · exact ⟨head, List.mem_cons_self, atHead⟩
        · exact ⟨earlier, List.mem_cons_of_mem head earlierMember, equal⟩

/-- Binding: two linked lists with the same last digest have the same length
and agree at every position, provided that equal digests decide the
predecessor and the content, and that no digest is the start value. -/
theorem Linked.agree_of_tip {reading : Reading Record Digest}
    {same : Record → Record → Prop} {start : Digest}
    {left right : List Record}
    (leftLinked : Linked reading start left)
    (rightLinked : Linked reading start right)
    (decisive : ∀ first ∈ left, ∀ second ∈ right,
      reading.stored first = reading.stored second →
        reading.previous first = reading.previous second ∧
          same first second)
    (leftFresh : ∀ record ∈ left, reading.stored record ≠ start)
    (rightFresh : ∀ record ∈ right, reading.stored record ≠ start)
    (tips : tip reading start left = tip reading start right) :
    List.Forall₂
      (fun first second =>
        reading.stored first = reading.stored second ∧
          reading.previous first = reading.previous second ∧
          same first second)
      left right := by
  induction left using List.reverseRecOn generalizing right with
  | nil =>
      cases right using List.reverseRecOn with
      | nil =>
          exact List.Forall₂.nil
      | append_singleton initial last =>
          have equal : start = reading.stored last := by
            simpa using tips
          exact absurd equal.symm (rightFresh last (by simp))
  | append_singleton initial last inductionHypothesis =>
      cases right using List.reverseRecOn with
      | nil =>
          have equal : reading.stored last = start := by
            simpa using tips
          exact absurd equal (leftFresh last (by simp))
      | append_singleton otherInitial otherLast =>
          have lastEqual :
              reading.stored last = reading.stored otherLast := by
            simpa using tips
          obtain ⟨previousEqual, lastSame⟩ :=
            decisive last (by simp) otherLast (by simp) lastEqual
          obtain ⟨initialLinked, named, _⟩ :=
            (linked_append_singleton reading start initial last).mp
              leftLinked
          obtain ⟨otherLinked, otherNamed, _⟩ :=
            (linked_append_singleton reading start otherInitial
              otherLast).mp rightLinked
          have initialTips :
              tip reading start initial =
                tip reading start otherInitial := by
            rw [← named, ← otherNamed, previousEqual]
          have initialAgree :=
            inductionHypothesis initialLinked otherLinked
              (fun first firstMember second secondMember =>
                decisive first (List.mem_append_left _ firstMember)
                  second (List.mem_append_left _ secondMember))
              (fun record member =>
                leftFresh record (List.mem_append_left _ member))
              (fun record member =>
                rightFresh record (List.mem_append_left _ member))
              initialTips
          exact List.rel_append initialAgree
            (List.Forall₂.cons ⟨lastEqual, previousEqual, lastSame⟩
              List.Forall₂.nil)

/-- Binding for lists of the same length: it is enough that equal digests
decide the records that stand at the same position. -/
theorem Linked.agree_of_pairs {reading : Reading Record Digest}
    {compatible same : Record → Record → Prop}
    (decisive : ∀ first second, compatible first second →
      reading.stored first =
        reading.digest first (reading.previous first) →
      reading.stored second =
        reading.digest second (reading.previous second) →
      reading.stored first = reading.stored second →
        reading.previous first = reading.previous second ∧
          same first second)
    {left right : List Record}
    (pairs : List.Forall₂ compatible left right) :
    ∀ {leftStart rightStart : Digest},
      Linked reading leftStart left → Linked reading rightStart right →
      tip reading leftStart left = tip reading rightStart right →
        leftStart = rightStart ∧ List.Forall₂ same left right := by
  induction pairs with
  | nil =>
      exact fun _ _ tips => ⟨tips, List.Forall₂.nil⟩
  | @cons first second leftTail rightTail headPair _ inductionHypothesis =>
      rintro leftStart rightStart ⟨leftNamed, leftCarried, leftLinked⟩
        ⟨rightNamed, rightCarried, rightLinked⟩ tips
      rw [tip_cons, tip_cons] at tips
      obtain ⟨stored, tailSame⟩ :=
        inductionHypothesis leftLinked rightLinked tips
      rw [← leftNamed] at leftCarried
      rw [← rightNamed] at rightCarried
      obtain ⟨previous, headSame⟩ :=
        decisive first second headPair leftCarried rightCarried stored
      refine ⟨?_, List.Forall₂.cons headSame tailSame⟩
      rw [← leftNamed, ← rightNamed, previous]

end HashChain
