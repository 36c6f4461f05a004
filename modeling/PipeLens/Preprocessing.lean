import PipeLens.Classifier
import PipeLens.Lib.Lines
import PipeLens.Sanitizer

/-!
# Preprocessing logs

`preprocessing.py`. A log is cut into chunks at line breaks, and within a line only
where the line alone is too long for a chunk. Each chunk is sanitized, and the first
few that have an error signal give their lines to the context.
-/

namespace PipeLens

/-- `max_chars`. With a limit of 0 the inner loop of `iter_text_chunks` would not end. -/
structure ChunkLimit where
  maxChars : Nat
  positive : 0 < maxChars
  deriving DecidableEq, Repr

/-- `buffered` and `buffered_chars`: the lines of the chunk that has been begun. -/
structure ChunkBuffer where
  buffered : List (List Char) := []
  bufferedChars : Nat := 0
  deriving DecidableEq, Repr

namespace ChunkBuffer

/-- `"".join(buffered)`. -/
def joined (buffer : ChunkBuffer) : List Char := buffer.buffered.flatten

/-- What is yielded when the chunk has to end here. -/
def flush (buffer : ChunkBuffer) : List (List Char) :=
  if buffer.buffered = [] then [] else [buffer.joined]

def push (buffer : ChunkBuffer) (line : List Char) : ChunkBuffer :=
  { buffered := buffer.buffered ++ [line]
    bufferedChars := buffer.bufferedChars + line.length }

end ChunkBuffer

/-- The inner loop: the chunks that are cut off a line, and what remains of it. -/
def cutLine (limit : ChunkLimit) (buffer : ChunkBuffer) (line : List Char) :
    List (List Char) × ChunkBuffer × List Char :=
  if limit.maxChars < line.length then
    let (chunks, buffer', rest) := cutLine limit {} (line.drop limit.maxChars)
    (buffer.flush ++ line.take limit.maxChars :: chunks, buffer', rest)
  else ([], buffer, line)
termination_by line.length
decreasing_by
  have := limit.positive
  rw [List.length_drop]
  omega

/-- The body of the outer loop. -/
def addLine (limit : ChunkLimit) (buffer : ChunkBuffer) (line : List Char) :
    List (List Char) × ChunkBuffer :=
  let (chunks, buffer, line) := cutLine limit buffer line
  if buffer.buffered ≠ [] ∧ limit.maxChars < buffer.bufferedChars + line.length then
    (chunks ++ buffer.flush, ChunkBuffer.push {} line)
  else (chunks, buffer.push line)

/-- The outer loop, and the last chunk. -/
def addLines (limit : ChunkLimit) (buffer : ChunkBuffer) : List (List Char) → List (List Char)
  | [] => buffer.flush
  | line :: lines =>
      let (chunks, buffer) := addLine limit buffer line
      chunks ++ addLines limit buffer lines

/-- `iter_text_chunks`. -/
def iterTextChunks (text : List Char) (limit : ChunkLimit) : List (List Char) :=
  if text = [] then [] else addLines limit {} (Text.rawLines text)

/-! ## The loop over the logs -/

structure PreprocessedLog where
  context : List Char
  redactions : List (String × Nat)
  chunksProcessed : Nat
  errorChunks : Nat
  deriving DecidableEq, Repr

/-- The variables of the loop. -/
structure PreprocessState where
  contexts : List (List Char) := []
  fallback : List Char := []
  redactions : List (String × Nat) := []
  chunksProcessed : Nat := 0
  errorChunks : Nat := 0
  deriving DecidableEq, Repr

/-- `redactions[kind] = redactions.get(kind, 0) + count`; a known kind keeps its place. -/
def addCount : List (String × Nat) → String × Nat → List (String × Nat)
  | [], item => [item]
  | known :: others, item =>
      if known.1 = item.1 then (known.1, known.2 + item.2) :: others
      else known :: addCount others item

/-- `max(1_000, chunk_chars)`. -/
def chunkLimit (chunkChars : Int) : ChunkLimit where
  maxChars := max 1000 chunkChars.toNat
  positive := by omega

section Preprocess

variable (unicode : Unicode) (contextLines : Nat) (maxErrorChunks : Int)

/-- The body of the inner loop. -/
def preprocessChunk (s : PreprocessState) (chunk : List Char) : PreprocessState :=
  let sanitized := sanitizeLog unicode chunk
  let s := { s with
    chunksProcessed := s.chunksProcessed + 1
    redactions := sanitized.2.foldl addCount s.redactions
    fallback := sanitized.1 }
  if hasErrorSignal unicode sanitized.1 = true ∧ s.errorChunks < max 1 maxErrorChunks then
    { s with
      contexts := s.contexts ++ [extractErrorContext unicode sanitized.1 contextLines 2]
      errorChunks := s.errorChunks + 1 }
  else s

/-- `preprocess_logs`. -/
def preprocessLogs (rawLogs : List (List Char)) (chunkChars : Int) : PreprocessedLog :=
  let s := (rawLogs.flatMap fun raw => iterTextChunks raw (chunkLimit chunkChars)).foldl
    (preprocessChunk unicode contextLines maxErrorChunks) {}
  let context := joinTexts "\n...\n" s.contexts
  let context :=
    if context = [] then
      if s.fallback = [] then [] else extractErrorContext unicode s.fallback contextLines
    else context
  { context := context
    redactions := s.redactions
    chunksProcessed := s.chunksProcessed
    errorChunks := s.errorChunks }

/-- `preprocess_log`. -/
def preprocessLog (raw : List Char) (chunkChars : Int) : PreprocessedLog :=
  preprocessLogs unicode contextLines maxErrorChunks [raw] chunkChars

end Preprocess

end PipeLens
