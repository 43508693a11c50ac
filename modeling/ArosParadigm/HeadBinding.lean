import ArosParadigm.PayloadChain
import Mathlib.Data.Set.Function

/-!
# What the head hash binds

Two audited histories with the same last hash have the same length and agree at
every position on the text of the payload, the sequence number and both
hashes. The hashed text has no delimiter; it is read back because an object
text is no proper prefix of another one, because a later predecessor has 64
characters, and because a sequence number has fewer than 64 digits.
-/

namespace ArosParadigm.HeadBinding

open Json NodeChain PayloadChain

def hashedText (snapshot : JsonSnapshot) : JsString :=
  (stringify numberFormat snapshot.payload).getD (utf16 "undefined") ++
    snapshot.prevHash ++ decimalText snapshot.sequenceId

/-- A history whose payloads are objects and whose sequence numbers are
positive and have fewer than 64 digits, and which `reconstruct` accepts. -/
structure Audited (sha256 : JsString → JsString)
    (snapshots : List JsonSnapshot) : Prop where
  nonempty : snapshots ≠ []
  objects : ∀ snapshot ∈ snapshots, IsObject numberFormat snapshot.payload
  positive : ∀ snapshot ∈ snapshots, 0 < snapshot.sequenceId
  short : ∀ snapshot ∈ snapshots,
    (decimalText snapshot.sequenceId).length < 64
  accepted : (reconstruct (hasher sha256) snapshots).ok = true

/-- The digest has 64 characters and no two of the hashed texts have the same
one. -/
structure Collisionless (sha256 : JsString → JsString)
    (snapshots : List JsonSnapshot) : Prop where
  length : ∀ text, (sha256 text).length = 64
  injective : Set.InjOn sha256
    {text | ∃ snapshot ∈ snapshots, text = hashedText snapshot}

variable {sha256 : JsString → JsString}

theorem Audited.linked {snapshots : List JsonSnapshot}
    (audited : Audited sha256 snapshots) :
    HashChain.Linked (reading (hasher sha256)) [] snapshots :=
  (reconstruct_ok_iff (hasher sha256) snapshots).mp audited.accepted

theorem Audited.hash_eq {snapshots : List JsonSnapshot}
    (audited : Audited sha256 snapshots) {snapshot : JsonSnapshot}
    (member : snapshot ∈ snapshots) :
    snapshot.hash = sha256 (hashedText snapshot) :=
  audited.linked.stored_eq member

theorem Audited.length_hash {snapshots : List JsonSnapshot}
    (audited : Audited sha256 snapshots)
    (length : ∀ text, (sha256 text).length = 64)
    {snapshot : JsonSnapshot} (member : snapshot ∈ snapshots) :
    snapshot.hash.length = 64 := by
  rw [audited.hash_eq member, length]

theorem Audited.length_prevHash {snapshots : List JsonSnapshot}
    (audited : Audited sha256 snapshots)
    (length : ∀ text, (sha256 text).length = 64)
    {snapshot : JsonSnapshot} (member : snapshot ∈ snapshots) :
    snapshot.prevHash.length = 0 ∨ snapshot.prevHash.length = 64 := by
  rcases audited.linked.previous_eq member with
    atStart | ⟨earlier, inside, equal⟩
  · have isEmpty : snapshot.prevHash = [] :=
      atStart
    exact Or.inl (by rw [isEmpty, List.length_nil])
  · have isHash : snapshot.prevHash = earlier.hash :=
      equal
    exact Or.inr (by rw [isHash, audited.length_hash length inside])

/-- Two snapshots agree on all that is hashed. -/
structure SameContent (first second : JsonSnapshot) : Prop where
  payload : stringify numberFormat first.payload =
    stringify numberFormat second.payload
  sequenceId : first.sequenceId = second.sequenceId

private theorem split_tail {first second firstDigits secondDigits : JsString}
    (firstLength : first.length = 0 ∨ first.length = 64)
    (secondLength : second.length = 0 ∨ second.length = 64)
    (firstShort : firstDigits.length < 64)
    (secondShort : secondDigits.length < 64)
    (equal : first ++ firstDigits = second ++ secondDigits)
    (firstNonempty : firstDigits ≠ []) (secondNonempty : secondDigits ≠ []) :
    first = second ∧ firstDigits = secondDigits := by
  have firstPositive := List.length_pos_of_ne_nil firstNonempty
  have secondPositive := List.length_pos_of_ne_nil secondNonempty
  have lengths := congrArg List.length equal
  rw [List.length_append, List.length_append] at lengths
  exact List.append_inj equal (by omega)

theorem content_of_hashedText {left right : List JsonSnapshot}
    (leftAudited : Audited sha256 left)
    (rightAudited : Audited sha256 right)
    (length : ∀ text, (sha256 text).length = 64)
    {first second : JsonSnapshot} (firstMember : first ∈ left)
    (secondMember : second ∈ right)
    (equal : hashedText first = hashedText second) :
    first.prevHash = second.prevHash ∧ SameContent first second := by
  obtain ⟨firstMembers, firstTree⟩ := leftAudited.objects first firstMember
  obtain ⟨secondMembers, secondTree⟩ :=
    rightAudited.objects second secondMember
  have firstWritten : stringify numberFormat first.payload =
      some (print (.object firstMembers)) := by
    rw [stringify, firstTree]
    rfl
  have secondWritten : stringify numberFormat second.payload =
      some (print (.object secondMembers)) := by
    rw [stringify, secondTree]
    rfl
  unfold hashedText at equal
  rw [firstWritten, secondWritten, Option.getD_some, Option.getD_some,
    List.append_assoc, List.append_assoc] at equal
  obtain ⟨sameText, sameTail⟩ :=
    text_eq_of_append_eq ⟨_, firstTree⟩ ⟨_, secondTree⟩ firstWritten
      secondWritten equal
  obtain ⟨samePrevious, sameDigits⟩ := split_tail
    (leftAudited.length_prevHash length firstMember)
    (rightAudited.length_prevHash length secondMember)
    (leftAudited.short first firstMember)
    (rightAudited.short second secondMember) sameTail
    (decimalText_ne_nil _) (decimalText_ne_nil _)
  refine ⟨samePrevious, ?_, decimalText_injective sameDigits⟩
  rw [firstWritten, secondWritten, sameText]

theorem histories_agree {left right : List JsonSnapshot}
    (leftAudited : Audited sha256 left)
    (rightAudited : Audited sha256 right)
    (collisionless : Collisionless sha256 (left ++ right))
    (sameHead : left.getLast?.map ExecutionSnapshot.hash =
      right.getLast?.map ExecutionSnapshot.hash) :
    List.Forall₂
      (fun first second : JsonSnapshot =>
        first.hash = second.hash ∧ first.prevHash = second.prevHash ∧
          SameContent first second)
      left right := by
  refine HashChain.Linked.agree_of_tip leftAudited.linked
    rightAudited.linked ?_ ?_ ?_ ?_
  · intro first firstMember second secondMember equal
    refine content_of_hashedText leftAudited rightAudited
      collisionless.length firstMember secondMember ?_
    refine collisionless.injective
      ⟨first, List.mem_append_left _ firstMember, rfl⟩
      ⟨second, List.mem_append_right _ secondMember, rfl⟩ ?_
    rw [← leftAudited.hash_eq firstMember,
      ← rightAudited.hash_eq secondMember]
    exact equal
  · intro snapshot member isStart
    have length := leftAudited.length_hash collisionless.length member
    rw [show snapshot.hash = [] from isStart] at length
    cases length
  · intro snapshot member isStart
    have length := rightAudited.length_hash collisionless.length member
    rw [show snapshot.hash = [] from isStart] at length
    cases length
  · exact congrArg (Option.getD · []) sameHead

/-! ## The payload history -/

/-- Two audited histories whose last snapshots carry the same hash have the
same length and agree at every position on `JSON.stringify(payload)`,
`sequenceId`, `prevHash` and `hash`. -/
theorem head_binds_history (sha256 : JsString → JsString)
    (left right : List JsonSnapshot) (leftAudited : Audited sha256 left)
    (rightAudited : Audited sha256 right)
    (collisionless : Collisionless sha256 (left ++ right))
    (sameHead : left.getLast?.map ExecutionSnapshot.hash =
      right.getLast?.map ExecutionSnapshot.hash) :
    left.length = right.length ∧
      List.Forall₂
        (fun first second : JsonSnapshot =>
          stringify numberFormat first.payload =
              stringify numberFormat second.payload ∧
            first.sequenceId = second.sequenceId ∧
            first.prevHash = second.prevHash ∧ first.hash = second.hash)
        left right := by
  have agree := histories_agree leftAudited rightAudited collisionless
    sameHead
  refine ⟨agree.length_eq, agree.imp ?_⟩
  rintro first second ⟨sameHash, samePrevious, same⟩
  exact ⟨same.payload, same.sequenceId, samePrevious, sameHash⟩

/-- The digest of the text of an empty object in front of `1`. -/
def firstDigest : JsString :=
  utf16
    "32c5831cf458e2271b759b2450a051285fec16d90718d1d8e74e3217d94305bb"

/-- The digest of the snapshot after it, with the payload `b: true`. -/
def secondDigest : JsString :=
  utf16
    "c74f5416e1f5028073e6a332c8b36e2d23bcc4e5fcc2458717725e271cf6e634"

/-- `sha256` on the two texts. -/
def knownDigest (text : JsString) : JsString :=
  if text = utf16 "\x7b\x7d1" then firstDigest
  else if text = utf16 "\x7b\"b\":true\x7d" ++ firstDigest ++ utf16 "2" then
    secondDigest
  else List.replicate 64 48

def knownHistory (payload : JsonPayload) : List JsonSnapshot :=
  [⟨1, "first", payload, 1, [], firstDigest⟩,
    ⟨2, "second", .object [(utf16 "b", .boolean true)], 2, firstDigest,
      secondDigest⟩]

/-- An undefined field is not part of the text. -/
def droppedField : JsonPayload :=
  .object [(utf16 "dropped", .undefined)]

theorem length_knownDigest (text : JsString) :
    (knownDigest text).length = 64 := by
  unfold knownDigest
  split_ifs
  · decide +kernel
  · decide +kernel
  · rw [List.length_replicate]

theorem audited_knownHistory :
    Audited knownDigest (knownHistory (.object [])) ∧
      Audited knownDigest (knownHistory droppedField) := by
  constructor
  all_goals
    refine ⟨List.cons_ne_nil _ _, ?_, by decide, by decide +kernel,
      by decide +kernel⟩
    intro snapshot member
    rcases List.mem_cons.mp member with rfl | inside
    · exact ⟨_, rfl⟩
    · rw [List.mem_singleton.mp inside]
      exact ⟨_, rfl⟩

theorem collisionless_knownHistory :
    Collisionless knownDigest
      (knownHistory (.object []) ++ knownHistory droppedField) := by
  refine ⟨length_knownDigest, ?_⟩
  have texts : ∀ snapshot ∈
      knownHistory (.object []) ++ knownHistory droppedField,
      hashedText snapshot ∈
        [utf16 "\x7b\x7d1", utf16 "\x7b\"b\":true\x7d" ++ firstDigest ++
          utf16 "2"] := by
    decide +kernel
  have apart : ∀ first ∈ [utf16 "\x7b\x7d1", utf16 "\x7b\"b\":true\x7d" ++
        firstDigest ++ utf16 "2"],
      ∀ second ∈ [utf16 "\x7b\x7d1", utf16 "\x7b\"b\":true\x7d" ++
        firstDigest ++ utf16 "2"],
      knownDigest first = knownDigest second → first = second := by
    decide +kernel
  rintro _ ⟨first, firstMember, rfl⟩ _ ⟨second, secondMember, rfl⟩ equal
  exact apart _ (texts first firstMember) _ (texts second secondMember)
    equal

/-- A field that is `undefined` does not change the history. -/
theorem head_binds_knownHistory :
    List.Forall₂
      (fun first second : JsonSnapshot =>
        stringify numberFormat first.payload =
            stringify numberFormat second.payload ∧
          first.sequenceId = second.sequenceId ∧
          first.prevHash = second.prevHash ∧ first.hash = second.hash)
      (knownHistory (.object [])) (knownHistory droppedField) :=
  (head_binds_history knownDigest _ _ audited_knownHistory.1
    audited_knownHistory.2 collisionless_knownHistory rfl).2

end ArosParadigm.HeadBinding
