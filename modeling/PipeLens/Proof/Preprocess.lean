import PipeLens.Proof.Chunking

/-!
# What the loop over the logs computes

The loop of `preprocess_logs` in one pass agrees with a plain description: cut all
logs into chunks, sanitize each, and take the first few with an error signal. The
numbers of redactions are those of all chunks, also of the chunks that give nothing
to the context.
-/

namespace PipeLens.Proof

open Text

variable {unicode : Unicode} {contextLines : Nat} {maxErrorChunks : Int}

/-! ## One chunk -/

/-- The chunks of all logs. -/
def logChunks (rawLogs : List (List Char)) (chunkChars : Int) : List (List Char) :=
  rawLogs.flatMap fun raw => iterTextChunks raw (chunkLimit chunkChars)

/-- The number of redactions of a kind. -/
def redactionCount (counts : List (String × Nat)) (kind : String) : Nat :=
  (counts.lookup kind).getD 0

/-- `preprocessChunk` after `sanitize_log`. -/
def takeIn (unicode : Unicode) (contextLines : Nat) (maxErrorChunks : Int) (s : PreprocessState)
    (sanitized : List Char × List (String × Nat)) : PreprocessState :=
  let s := { s with
    chunksProcessed := s.chunksProcessed + 1
    redactions := sanitized.2.foldl addCount s.redactions
    fallback := sanitized.1 }
  if hasErrorSignal unicode sanitized.1 = true ∧ s.errorChunks < max 1 maxErrorChunks then
    { s with
      contexts := s.contexts ++ [extractErrorContext unicode sanitized.1 contextLines 2]
      errorChunks := s.errorChunks + 1 }
  else s

/-- What a chunk changes whatever is in it. -/
structure TakenIn (s : PreprocessState) (sanitized : List Char × List (String × Nat))
    (s' : PreprocessState) : Prop where
  processed : s'.chunksProcessed = s.chunksProcessed + 1
  redactions : s'.redactions = sanitized.2.foldl addCount s.redactions
  fallback : s'.fallback = sanitized.1

theorem takeIn_takenIn (unicode : Unicode) (contextLines : Nat) (maxErrorChunks : Int)
    (s : PreprocessState) (sanitized : List Char × List (String × Nat)) :
    TakenIn s sanitized (takeIn unicode contextLines maxErrorChunks s sanitized) := by
  unfold takeIn
  dsimp only
  split
  · exact ⟨rfl, rfl, rfl⟩
  · exact ⟨rfl, rfl, rfl⟩

theorem takeIn_picked (contextLines : Nat) {s : PreprocessState}
    {sanitized : List Char × List (String × Nat)}
    (hsignal : hasErrorSignal unicode sanitized.1 = true)
    (hroom : s.errorChunks < max 1 maxErrorChunks) :
    (takeIn unicode contextLines maxErrorChunks s sanitized).contexts
      = s.contexts ++ [extractErrorContext unicode sanitized.1 contextLines 2]
    ∧ (takeIn unicode contextLines maxErrorChunks s sanitized).errorChunks
      = s.errorChunks + 1 := by
  unfold takeIn
  dsimp only
  rw [if_pos ⟨hsignal, hroom⟩]
  exact ⟨rfl, rfl⟩

theorem takeIn_passed (contextLines : Nat) {s : PreprocessState}
    {sanitized : List Char × List (String × Nat)}
    (h : ¬ (hasErrorSignal unicode sanitized.1 = true ∧ s.errorChunks < max 1 maxErrorChunks)) :
    (takeIn unicode contextLines maxErrorChunks s sanitized).contexts = s.contexts
    ∧ (takeIn unicode contextLines maxErrorChunks s sanitized).errorChunks = s.errorChunks := by
  unfold takeIn
  dsimp only
  rw [if_neg h]
  exact ⟨rfl, rfl⟩

/-! ## The counts -/

theorem redactionCount_addCount (counts : List (String × Nat)) (item : String × Nat)
    (kind : String) :
    redactionCount (addCount counts item) kind
      = redactionCount counts kind + if item.1 = kind then item.2 else 0 := by
  unfold redactionCount
  induction counts with
  | nil =>
      rw [addCount, List.lookup_cons, List.lookup_nil]
      by_cases h : item.1 = kind
      · rw [if_pos h, show (kind == item.1) = true from beq_iff_eq.mpr h.symm]
        simp
      · rw [if_neg h, show (kind == item.1) = false from beq_eq_false_iff_ne.mpr (Ne.symm h)]
        rfl
  | cons known others ih =>
      obtain ⟨name, count⟩ := known
      rw [addCount]
      by_cases hsame : name = item.1
      · rw [if_pos hsame, List.lookup_cons, List.lookup_cons]
        dsimp only
        by_cases h : item.1 = kind
        · rw [if_pos h, show (kind == name) = true from beq_iff_eq.mpr (hsame.trans h).symm]
          rfl
        · have hne : (kind == name) = false :=
            beq_eq_false_iff_ne.mpr fun he => h (hsame.symm.trans he.symm)
          rw [if_neg h, hne]
          rfl
      · rw [if_neg hsame, List.lookup_cons, List.lookup_cons]
        cases hkind : kind == name with
        | true =>
            have hother : ¬ item.1 = kind := by
              rintro rfl
              exact hsame (beq_iff_eq.mp hkind).symm
            rw [if_neg hother]
            rfl
        | false => exact ih

/-- The kinds of a report are different. -/
def DistinctKinds (counts : List (String × Nat)) : Prop := (counts.map Prod.fst).Nodup

theorem redactionCount_foldl {found : List (String × Nat)} (hfound : DistinctKinds found)
    (counts : List (String × Nat)) (kind : String) :
    redactionCount (found.foldl addCount counts) kind
      = redactionCount counts kind + redactionCount found kind := by
  induction found generalizing counts with
  | nil => rfl
  | cons item found ih =>
      have hnodup := List.nodup_cons.mp hfound
      rw [List.foldl_cons, ih hnodup.2, redactionCount_addCount, Nat.add_assoc]
      congr 1
      have hcons : redactionCount (item :: found) kind
          = if item.1 = kind then item.2 else redactionCount found kind := by
        unfold redactionCount
        obtain ⟨name, count⟩ := item
        rw [List.lookup_cons]
        by_cases h : name = kind
        · rw [if_pos h, show (kind == name) = true from beq_iff_eq.mpr h.symm]
          rfl
        · rw [if_neg h, show (kind == name) = false from beq_eq_false_iff_ne.mpr (Ne.symm h)]
      rw [hcons]
      by_cases h : item.1 = kind
      · have habsent : redactionCount found kind = 0 := by
          unfold redactionCount
          rw [List.lookup_eq_none_iff.mpr]
          · rfl
          · intro other hother
            refine bne_iff_ne.mpr ?_
            rintro he
            refine hnodup.1 (h.trans he ▸ List.mem_map_of_mem hother)
        rw [if_pos h, if_pos h, habsent, Nat.add_zero]
      · rw [if_neg h, if_neg h, Nat.zero_add]

/-- A rule reports its own kind, once. -/
theorem redact_kinds (rules : List RedactionRule) (text : List Char) :
    ((redact rules text).2.map Prod.fst).Sublist (rules.map RedactionRule.name) := by
  induction rules generalizing text with
  | nil => exact List.Sublist.refl _
  | cons rule rules ih =>
      rw [redact]
      dsimp only
      split
      · exact (ih _).cons _
      · exact (ih _).cons_cons _

theorem sanitizeLog_kinds (raw : List Char) : DistinctKinds (sanitizeLog unicode raw).2 := by
  have hnames : ((redactionRules unicode).map RedactionRule.name).Nodup := by
    have heq : (redactionRules unicode).map RedactionRule.name
        = ["github_token", "aws_access_key", "jwt", "authorization", "secret_assignment",
          "email"] := rfl
    rw [heq]
    decide
  exact hnames.sublist (redact_kinds (redactionRules unicode) _)

/-! ## The whole loop -/

section Loop

variable (unicode : Unicode) (contextLines : Nat) (maxErrorChunks : Int)

theorem loop_processed (texts : List (List Char × List (String × Nat))) (s : PreprocessState) :
    (texts.foldl (takeIn unicode contextLines maxErrorChunks) s).chunksProcessed
      = s.chunksProcessed + texts.length := by
  induction texts generalizing s with
  | nil => rfl
  | cons sanitized texts ih =>
      have htaken := takeIn_takenIn unicode contextLines maxErrorChunks s sanitized
      rw [List.foldl_cons, ih, htaken.processed, List.length_cons]
      omega

theorem loop_fallback (texts : List (List Char × List (String × Nat))) (s : PreprocessState) :
    (texts.foldl (takeIn unicode contextLines maxErrorChunks) s).fallback
      = ((texts.getLast?).map Prod.fst).getD s.fallback := by
  induction texts generalizing s with
  | nil => rfl
  | cons sanitized texts ih =>
      have htaken := takeIn_takenIn unicode contextLines maxErrorChunks s sanitized
      rw [List.foldl_cons, ih, htaken.fallback, List.getLast?_cons]
      cases texts.getLast? with
      | none => rfl
      | some last => rfl

theorem loop_redactions {texts : List (List Char × List (String × Nat))}
    (hkinds : ∀ sanitized ∈ texts, DistinctKinds sanitized.2) (s : PreprocessState)
    (kind : String) :
    redactionCount (texts.foldl (takeIn unicode contextLines maxErrorChunks) s).redactions kind
      = redactionCount s.redactions kind
        + (texts.map fun sanitized => redactionCount sanitized.2 kind).sum := by
  induction texts generalizing s with
  | nil => rfl
  | cons sanitized texts ih =>
      have htaken := takeIn_takenIn unicode contextLines maxErrorChunks s sanitized
      rw [List.foldl_cons, ih fun other hm => hkinds other (List.mem_cons_of_mem _ hm),
        htaken.redactions, redactionCount_foldl (hkinds sanitized List.mem_cons_self),
        List.map_cons, List.sum_cons, Nat.add_assoc]

/-- The texts with a signal, up to the limit. -/
def picked (unicode : Unicode) (room : Nat) (texts : List (List Char)) : List (List Char) :=
  (texts.filter (hasErrorSignal unicode)).take room

/-- **The invariant of the loop**: what has been picked is within the limit, and what is
still picked is what there is room for. -/
theorem loop_contexts (texts : List (List Char × List (String × Nat))) {s : PreprocessState}
    {room : Nat} (hroom : (s.errorChunks + room : Int) = max 1 maxErrorChunks) :
    (texts.foldl (takeIn unicode contextLines maxErrorChunks) s).contexts
      = s.contexts ++ (picked unicode room (texts.map Prod.fst)).map
          (fun text => extractErrorContext unicode text contextLines 2)
    ∧ (texts.foldl (takeIn unicode contextLines maxErrorChunks) s).errorChunks
      = s.errorChunks + (picked unicode room (texts.map Prod.fst)).length := by
  induction texts generalizing s room with
  | nil => simp [picked]
  | cons sanitized texts ih =>
      rw [List.foldl_cons, List.map_cons]
      by_cases hpick : hasErrorSignal unicode sanitized.1 = true
          ∧ s.errorChunks < max 1 maxErrorChunks
      · obtain ⟨hcontexts, herrors⟩ := takeIn_picked contextLines hpick.1 hpick.2
        have hnext := hpick.2
        obtain ⟨left, rfl⟩ : ∃ left, room = left + 1 := ⟨room - 1, by omega⟩
        have hmore : picked unicode (left + 1) (sanitized.1 :: texts.map Prod.fst)
            = sanitized.1 :: picked unicode left (texts.map Prod.fst) := by
          unfold picked
          rw [List.filter_cons_of_pos hpick.1, List.take_succ_cons]
        have hleft : ((takeIn unicode contextLines maxErrorChunks s sanitized).errorChunks
            + left : Int) = max 1 maxErrorChunks := by
          rw [herrors]
          push_cast at hroom ⊢
          omega
        obtain ⟨hc, he⟩ := ih hleft
        rw [hc, he, hcontexts, herrors, hmore, List.map_cons, List.append_assoc, List.length_cons]
        exact ⟨rfl, by omega⟩
      · obtain ⟨hcontexts, herrors⟩ := takeIn_passed contextLines hpick
        have hmore : picked unicode room (sanitized.1 :: texts.map Prod.fst)
            = picked unicode room (texts.map Prod.fst) := by
          unfold picked
          by_cases hsignal : hasErrorSignal unicode sanitized.1 = true
          · have hfull : room = 0 := by
              have hnone : ¬ (s.errorChunks : Int) < max 1 maxErrorChunks :=
                fun hlt => hpick ⟨hsignal, hlt⟩
              omega
            rw [hfull, List.take_zero, List.take_zero]
          · rw [List.filter_cons_of_neg hsignal]
        have hsame : ((takeIn unicode contextLines maxErrorChunks s sanitized).errorChunks
            + room : Int) = max 1 maxErrorChunks := by
          rw [herrors]
          exact hroom
        obtain ⟨hc, he⟩ := ih hsame
        rw [hc, he, hcontexts, herrors, hmore]
        exact ⟨rfl, rfl⟩

end Loop

/-! ## The result -/

theorem logChunks_flatten (rawLogs : List (List Char)) (chunkChars : Int) :
    (logChunks rawLogs chunkChars).flatten = rawLogs.flatten := by
  have hone : ∀ raw, (iterTextChunks raw (chunkLimit chunkChars)).flatten = raw := by
    intro raw
    unfold iterTextChunks
    split
    · rename_i hempty
      exact hempty.symm
    · rw [addLines_flatten begun_empty fun line hm => rawLines_ne_nil hm, flatten_rawLines]
      rfl
  unfold logChunks
  induction rawLogs with
  | nil => rfl
  | cons raw rawLogs ih =>
      rw [List.flatMap_cons, List.flatten_append, hone, ih, List.flatten_cons]

/-- The state at the end of the loop. -/
theorem preprocess_state (unicode : Unicode) (contextLines : Nat) (maxErrorChunks : Int)
    (rawLogs : List (List Char)) (chunkChars : Int) :
    (rawLogs.flatMap fun raw => iterTextChunks raw (chunkLimit chunkChars)).foldl
        (preprocessChunk unicode contextLines maxErrorChunks) {}
      = ((logChunks rawLogs chunkChars).map (sanitizeLog unicode)).foldl
          (takeIn unicode contextLines maxErrorChunks) {} := by
  rw [List.foldl_map]
  rfl

/-- The context of the chunks `texts`: that of the first ones with an error signal, or else of
the last chunk. -/
def digestContext (unicode : Unicode) (contextLines : Nat) (maxErrorChunks : Int)
    (texts : List (List Char)) : List Char :=
  let sections := joinTexts "\n...\n" ((picked unicode (max 1 maxErrorChunks).toNat texts).map
    fun text => extractErrorContext unicode text contextLines 2)
  let last := texts.getLast?.getD []
  if sections = [] then
    if last = [] then [] else extractErrorContext unicode last contextLines
  else sections

/-- What is to be known of the chunks of the logs. -/
structure Digest (unicode : Unicode) (contextLines : Nat) (maxErrorChunks : Int)
    (chunks : List (List Char)) (result : PreprocessedLog) : Prop where
  context : result.context = digestContext unicode contextLines maxErrorChunks
    (chunks.map fun chunk => (sanitizeLog unicode chunk).1)
  processed : result.chunksProcessed = chunks.length
  errors : result.errorChunks = (picked unicode (max 1 maxErrorChunks).toNat
    (chunks.map fun chunk => (sanitizeLog unicode chunk).1)).length
  redactions : ∀ kind, redactionCount result.redactions kind
    = (chunks.map fun chunk => redactionCount (sanitizeLog unicode chunk).2 kind).sum

theorem preprocessLogs_digest (unicode : Unicode) (contextLines : Nat) (maxErrorChunks : Int)
    (rawLogs : List (List Char)) (chunkChars : Int) :
    Digest unicode contextLines maxErrorChunks (logChunks rawLogs chunkChars)
      (preprocessLogs unicode contextLines maxErrorChunks rawLogs chunkChars) := by
  generalize hchunks : logChunks rawLogs chunkChars = chunks
  have hstate := preprocess_state unicode contextLines maxErrorChunks rawLogs chunkChars
  rw [hchunks] at hstate
  have hroom : (({} : PreprocessState).errorChunks + ((max 1 maxErrorChunks).toNat : Nat) : Int)
      = max 1 maxErrorChunks := by
    show ((0 : Nat) + ((max 1 maxErrorChunks).toNat : Nat) : Int) = _
    omega
  have hcontexts := loop_contexts unicode contextLines maxErrorChunks
    (chunks.map (sanitizeLog unicode)) hroom
  have hfirst : (chunks.map (sanitizeLog unicode)).map Prod.fst
      = chunks.map fun chunk => (sanitizeLog unicode chunk).1 := by
    rw [List.map_map]
    rfl
  rw [hfirst, ← hstate] at hcontexts
  have hfallback := loop_fallback unicode contextLines maxErrorChunks
    (chunks.map (sanitizeLog unicode)) {}
  rw [← hstate, ← List.getLast?_map, hfirst] at hfallback
  have hprocessed := loop_processed unicode contextLines maxErrorChunks
    (chunks.map (sanitizeLog unicode)) {}
  rw [← hstate, List.length_map] at hprocessed
  have hkinds : ∀ sanitized ∈ chunks.map (sanitizeLog unicode), DistinctKinds sanitized.2 := by
    intro sanitized hm
    obtain ⟨chunk, _, rfl⟩ := List.mem_map.mp hm
    exact sanitizeLog_kinds chunk
  have hredactions := loop_redactions unicode contextLines maxErrorChunks hkinds {}
  rw [← hstate] at hredactions
  unfold preprocessLogs
  generalize (rawLogs.flatMap fun raw => iterTextChunks raw (chunkLimit chunkChars)).foldl
    (preprocessChunk unicode contextLines maxErrorChunks) {} = s
    at hcontexts hfallback hprocessed hredactions
  refine ⟨?_, ?_, ?_, ?_⟩
  · unfold digestContext
    dsimp only
    rw [hcontexts.1, hfallback]
    rfl
  · simpa using hprocessed
  · simpa using hcontexts.2
  · intro kind
    have hsum := hredactions kind
    have hnone : redactionCount ({} : PreprocessState).redactions kind = 0 := rfl
    rw [List.map_map, hnone, Nat.zero_add] at hsum
    exact hsum

/-- **The loop over the logs agrees with a plain description.** Nothing of the logs is left out
of the chunks, and the loop returns the digest of the chunks. -/
theorem preprocess_logs_agrees (unicode : Unicode) (contextLines : Nat) (maxErrorChunks : Int)
    (rawLogs : List (List Char)) (chunkChars : Int) :
    (logChunks rawLogs chunkChars).flatten = rawLogs.flatten
    ∧ Digest unicode contextLines maxErrorChunks (logChunks rawLogs chunkChars)
        (preprocessLogs unicode contextLines maxErrorChunks rawLogs chunkChars) :=
  ⟨logChunks_flatten rawLogs chunkChars,
    preprocessLogs_digest unicode contextLines maxErrorChunks rawLogs chunkChars⟩

end PipeLens.Proof
