import PipeLens.Lib.JsonText
import PipeLens.Queue

/-!
# The text of an envelope

`model_dump_json` of a `QueueEnvelope` writes compact JSON with the fields in
declaration order:

    "request": run_id, repository, installation_id, head_sha; "attempts"

`jsonCodec` writes that text and reads it back. It is the codec the queue runs
with; the results about the queue hold for every `EnvelopeCodec`.
-/

namespace PipeLens

open JsonText

def runIdKey : List Char := "\x7b\"request\":\x7b\"run_id\":".toList
def repositoryKey : List Char := ",\"repository\":".toList
def installationIdKey : List Char := ",\"installation_id\":".toList
def headShaKey : List Char := ",\"head_sha\":".toList
def attemptsKey : List Char := "\x7d,\"attempts\":".toList
def envelopeEnd : List Char := "\x7d".toList

/-- `QueueEnvelope.model_dump_json`. -/
def envelopeText (e : QueueEnvelope) : List Char :=
  runIdKey ++ (encodeInt e.request.runId
    ++ (repositoryKey ++ (encodeString e.request.repository
    ++ (installationIdKey ++ (encodeInt e.request.installationId
    ++ (headShaKey ++ (encodeString e.request.headSha
    ++ (attemptsKey ++ (encodeInt e.attempts ++ envelopeEnd)))))))))

/-- `QueueEnvelope.model_validate_json`, on the texts `envelopeText` writes. -/
def readEnvelope (cs : List Char) : Option QueueEnvelope := do
  let cs ← expect runIdKey cs
  let (runId, cs) ← decodeInt cs
  let cs ← expect repositoryKey cs
  let (repository, cs) ← decodeString cs
  let cs ← expect installationIdKey cs
  let (installationId, cs) ← decodeInt cs
  let cs ← expect headShaKey cs
  let (headSha, cs) ← decodeString cs
  let cs ← expect attemptsKey cs
  let (attempts, cs) ← decodeInt cs
  let _ ← expect envelopeEnd cs
  some {
    request := {
      runId := runId
      repository := repository
      installationId := installationId
      headSha := headSha }
    attempts := attempts }

/-- **An envelope is read back from its text.** -/
theorem readEnvelope_envelopeText (e : QueueEnvelope) : readEnvelope (envelopeText e) = some e := by
  have hend : expect envelopeEnd envelopeEnd = some [] := by
    have := expect_append envelopeEnd []
    rwa [List.append_nil] at this
  -- every number is followed by a comma or a closing brace
  have hrepo : repositoryKey.head?.map Char.isDigit = some false := by decide
  have hsha : headShaKey.head?.map Char.isDigit = some false := by decide
  have hclose : NoDigit envelopeEnd := by
    have hlit : envelopeEnd.head?.map Char.isDigit = some false := by decide
    have := noDigit_append hlit []
    rwa [List.append_nil] at this
  unfold readEnvelope envelopeText
  simp only [expect_append, decodeString_encodeString, Option.bind_eq_bind, Option.bind_some,
    decodeInt_encodeInt _ (noDigit_append hrepo _), decodeInt_encodeInt _ (noDigit_append hsha _),
    decodeInt_encodeInt _ hclose, hend]

/-- The codec of the deployed queue. -/
def jsonCodec : EnvelopeCodec where
  modelDumpJson e := String.ofList (envelopeText e)
  modelValidateJson s := readEnvelope s.toList
  validate_dump e := by rw [String.toList_ofList, readEnvelope_envelopeText]

example : jsonCodec.modelDumpJson
    { request := { runId := 77, repository := "acme/widgets", installationId := 5,
                   headSha := "abc123" } }
    = "\x7b\"request\":\x7b\"run_id\":77,\"repository\":\"acme/widgets\",\"installation_id\":5,\"head_sha\":\"abc123\"\x7d,\"attempts\":0\x7d" := by
  decide +kernel

end PipeLens
