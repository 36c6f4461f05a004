import PipeLens.Analysis
import PipeLens.Preprocessing
import PipeLens.Relevance

/-!
# The functions that read logs

`Analysis` leaves the functions of other modules open. Here those that read logs are
the ones of `sanitizer.py`, `preprocessing.py`, `classifier.py` and `relevance.py`.
-/

namespace PipeLens

/-- The functions with those of the log modules in place. What a negative number of context
lines does is left open. -/
def Functions.withLogFunctions (functions : Functions) (unicode : Unicode)
    (lower : List Char → List Char) : Functions :=
  { functions with
    sanitizeLog := fun raw => .ok (String.ofList (PipeLens.sanitizeLog unicode raw.toList).1)
    preprocessLogs := fun logs chunkChars contextLines maxErrorChunks =>
      match contextLines with
      | .ofNat contextLines =>
          .ok (String.ofList (PipeLens.preprocessLogs unicode contextLines maxErrorChunks
            (logs.map String.toList) chunkChars).context)
      | .negSucc _ => functions.preprocessLogs logs chunkChars contextLines maxErrorChunks
    classifyLog := fun log relatedStep => .ok (PipeLens.classifyLog unicode log relatedStep)
    correlateChangedFiles := fun log changedFiles category =>
      .ok (PipeLens.correlateChangedFiles unicode lower log.toList changedFiles category) }

end PipeLens
