import ArosParadigm.Library.Json.Number
import ArosParadigm.Library.Json.RoundTrip
import ArosParadigm.NodeChain

/-!
# NodeChain over JSON payloads

`NodeChainService` with its own payloads, JavaScript values, and its own texts,
lists of UTF-16 code units. The column `payload` of type `simple-json` keeps
`JSON.stringify(payload)` and is read by `JSON.parse`; only `sha256` is a
parameter.

`append` hashes the text of the value in memory and `reconstruct` the text of
the value that was read back. The two texts are equal for every value that is
serialized, so that every chain that `append` builds reconstructs.
-/

namespace ArosParadigm.PayloadChain

open Json NodeChain

abbrev JsonPayload := JsValue JsNumber

/-- The hashing of `NodeChainService`. A text that is not there is added as
`undefined`. -/
def hasher (sha256 : JsString → JsString) : Hasher JsonPayload JsString where
  stringify := fun payload =>
    (stringify numberFormat payload).getD (utf16 "undefined")
  concat := List.append
  decimal := decimalText
  emptyText := []
  sha256 := sha256

/-- The column `payload`. -/
def simpleJson : PayloadColumn JsonPayload (Option JsString) where
  write := stringify numberFormat
  read := fun stored => (stored.bind (parse numberFormat)).getD .null

abbrev JsonSnapshot := ExecutionSnapshot JsonPayload JsString

structure AppendCall where
  eventType : String
  payload : JsonPayload
  timestamp : ℕ

/-- The table after one more call. -/
def appendCall (sha256 : JsString → JsString)
    (table : SnapshotTable (Option JsString) JsString) (call : AppendCall) :
    SnapshotTable (Option JsString) JsString :=
  append (hasher sha256) simpleJson table call.eventType call.payload
    call.timestamp

/-- The table after calls that are executed one after another. -/
def appended (sha256 : JsString → JsString) (calls : List AppendCall) :
    SnapshotTable (Option JsString) JsString :=
  calls.foldl (appendCall sha256) Keyed.Table.empty

/-- `list()` after these calls. -/
def listed (sha256 : JsString → JsString) (calls : List AppendCall) :
    List JsonSnapshot :=
  list simpleJson (appended sha256 calls)

theorem stringify_stored {payload : JsonPayload}
    (serialized : (stringify numberFormat payload).isSome) :
    stringify numberFormat (simpleJson.read (simpleJson.write payload)) =
      stringify numberFormat payload := by
  obtain ⟨text, written⟩ := Option.isSome_iff_exists.mp serialized
  obtain ⟨again, isRead, sameText⟩ := stringify_parse written
  have stored : simpleJson.read (simpleJson.write payload) = again := by
    simp only [simpleJson, written, Option.bind_some, isRead,
      Option.getD_some]
  rw [stored, sameText, written]

theorem appended_concat (sha256 : JsString → JsString)
    (calls : List AppendCall) (call : AppendCall) :
    appended sha256 (calls ++ [call]) =
      appendCall sha256 (appended sha256 calls) call := by
  simp [appended]

theorem listed_concat (sha256 : JsString → JsString)
    (calls : List AppendCall) (call : AppendCall) :
    ∃ snapshot : JsonSnapshot,
      listed sha256 (calls ++ [call]) =
        listed sha256 calls ++ [snapshot] := by
  rw [listed, appended_concat, appendCall, list_append]
  exact ⟨_, rfl⟩

theorem linked_listed (sha256 : JsString → JsString)
    {calls : List AppendCall}
    (serialized : ∀ call ∈ calls,
      (stringify numberFormat call.payload).isSome) :
    HashChain.Linked (reading (hasher sha256)) []
      (listed sha256 calls) := by
  induction calls using List.reverseRecOn with
  | nil =>
      trivial
  | append_singleton calls call inductionHypothesis =>
      have before := inductionHypothesis fun other member =>
        serialized other (List.mem_append_left _ member)
      have last := serialized call (by simp)
      rw [listed, appended_concat]
      refine linked_append (hasher sha256) simpleJson _ _ _ _ ?_ before
      intro prevHash sequenceId
      simp only [Hasher.linkHash, hasher, stringify_stored last]

theorem sequenceIds_listed (sha256 : JsString → JsString)
    (calls : List AppendCall) :
    (listed sha256 calls).map ExecutionSnapshot.sequenceId =
      List.range' 1 calls.length := by
  induction calls using List.reverseRecOn with
  | nil =>
      rfl
  | append_singleton calls call inductionHypothesis =>
      have next := sequenceId_nextRow (hasher sha256) simpleJson
        (appended sha256 calls) call.eventType call.payload call.timestamp
      change _ = ((listed sha256 calls).map
        ExecutionSnapshot.sequenceId).getLast?.getD 0 + 1 at next
      have isNext : ((List.range' 1 calls.length).getLast?.getD 0) + 1 =
          1 + calls.length := by
        rcases calls.length with _ | count
        · rfl
        · rw [List.range'_concat]
          simp
          omega
      rw [inductionHypothesis, isNext] at next
      rw [listed, appended_concat, appendCall, list_append, List.map_append,
        List.length_append, List.length_singleton, List.range'_concat,
        one_mul, ← next]
      exact congrArg (· ++ [_]) inductionHypothesis

theorem prefix_listed (sha256 : JsString → JsString)
    {earlier calls : List AppendCall} (isPrefix : earlier <+: calls) :
    listed sha256 earlier <+: listed sha256 calls := by
  obtain ⟨later, rfl⟩ := isPrefix
  induction later using List.reverseRecOn with
  | nil =>
      rw [List.append_nil]
  | append_singleton later call inductionHypothesis =>
      obtain ⟨snapshot, grown⟩ :=
        listed_concat sha256 (earlier ++ later) call
      rw [← List.append_assoc, grown]
      exact inductionHypothesis.trans (List.prefix_append _ _)

/-- After any calls of `append` whose payloads are serialized: the sequence
numbers count the snapshots, every snapshot names the hash before it, the
snapshots after fewer calls are the first ones, and `reconstruct` answers
`ok: true`, also after fewer calls. -/
theorem appended_chain_reconstructs (sha256 : JsString → JsString)
    (calls : List AppendCall)
    (serialized : ∀ call ∈ calls,
      (stringify numberFormat call.payload).isSome) :
    (listed sha256 calls).map ExecutionSnapshot.sequenceId =
        List.range' 1 calls.length ∧
      (∀ first, (listed sha256 calls)[0]? = some first →
        first.prevHash = []) ∧
      (∀ index earlier later,
        (listed sha256 calls)[index]? = some earlier →
        (listed sha256 calls)[index + 1]? = some later →
          later.prevHash = earlier.hash) ∧
      ∀ fewer, fewer <+: calls →
        listed sha256 fewer <+: listed sha256 calls ∧
          (reconstruct (hasher sha256) (listed sha256 fewer)).ok = true := by
  have linked := linked_listed sha256 serialized
  refine ⟨sequenceIds_listed sha256 calls, ?_, ?_, ?_⟩
  · intro first isFirst
    exact linked.previous_first isFirst
  · intro index earlier later isEarlier isLater
    exact linked.previous_next isEarlier isLater
  · intro fewer isPrefix
    refine ⟨prefix_listed sha256 isPrefix, ?_⟩
    rw [reconstruct_ok_iff]
    exact linked_listed sha256 fun call member =>
      serialized call (isPrefix.subset member)

/-- A payload with fields that JSON changes: `undefined`, `NaN`, `-Infinity`,
a date, and nested values. -/
def silentlyChanged : JsonPayload :=
  .object
    [(utf16 "dropped", .undefined),
      (utf16 "10", .number .nan),
      (utf16 "9", .array [.undefined, .number (.infinity true)]),
      (utf16 "when", .custom [] (.string (utf16 "1970-01-01T00:00:00.000Z"))),
      (utf16 "nested", .object
        [(utf16 "quote", .string (utf16 "\""))])]

theorem appended_silentlyChanged :
    (listed (List.take 3)
        [⟨"first", silentlyChanged, 1⟩, ⟨"second", .object [], 2⟩]).map
      ExecutionSnapshot.sequenceId = [1, 2] :=
  (appended_chain_reconstructs (List.take 3)
    [⟨"first", silentlyChanged, 1⟩, ⟨"second", .object [], 2⟩]
    (by decide +kernel)).1

end ArosParadigm.PayloadChain
