import PipeLens.Preprocessing

/-!
# Chunks of a log

Cutting a log into chunks loses nothing: the chunks are the log, read one after the
other. No chunk is empty, none is longer than the limit, and a line is cut only if it
does not fit into a chunk.

The invariant of the loop is about the chunk that has been begun. It has no empty line,
its length is what `buffered_chars` says, and it is within the limit. A line that fits
is at the end of that chunk as soon as it has been added, and what is in a chunk that
has been begun stays together.
-/

namespace PipeLens.Proof

open Text

variable {limit : ChunkLimit} {buffer : ChunkBuffer}

/-- The chunk that has been begun. -/
structure Begun (limit : ChunkLimit) (buffer : ChunkBuffer) : Prop where
  solid : ∀ line ∈ buffer.buffered, line ≠ []
  chars : buffer.bufferedChars = buffer.joined.length
  bounded : buffer.joined.length ≤ limit.maxChars

/-- A chunk as it may be yielded. -/
def Fits (limit : ChunkLimit) (chunk : List Char) : Prop :=
  chunk ≠ [] ∧ chunk.length ≤ limit.maxChars

theorem begun_empty : Begun limit {} := by
  refine ⟨?_, rfl, Nat.zero_le _⟩
  intro line hline
  exact absurd hline List.not_mem_nil

theorem joined_push (buffer : ChunkBuffer) (line : List Char) :
    (buffer.push line).joined = buffer.joined ++ line := by
  unfold ChunkBuffer.push ChunkBuffer.joined
  rw [List.flatten_append, List.flatten_cons, List.flatten_nil, List.append_nil]

theorem flatten_flush (buffer : ChunkBuffer) : buffer.flush.flatten = buffer.joined := by
  unfold ChunkBuffer.flush
  split
  · rename_i hempty
    unfold ChunkBuffer.joined
    rw [hempty]
  · rw [List.flatten_cons, List.flatten_nil, List.append_nil]

theorem addLines_cons (limit : ChunkLimit) (buffer : ChunkBuffer) (line : List Char)
    (lines : List (List Char)) : addLines limit buffer (line :: lines)
      = (addLine limit buffer line).1 ++ addLines limit (addLine limit buffer line).2 lines := rfl

theorem Begun.joined_ne_nil (h : Begun limit buffer) (hne : buffer.buffered ≠ []) :
    buffer.joined ≠ [] := by
  obtain ⟨line, lines, heq⟩ := List.exists_cons_of_ne_nil hne
  have hline : line ≠ [] := by
    apply h.solid
    rw [heq]
    exact List.mem_cons_self
  intro hjoined
  unfold ChunkBuffer.joined at hjoined
  rw [heq, List.flatten_cons] at hjoined
  exact hline (List.append_eq_nil_iff.mp hjoined).1

theorem Begun.flush_fits (h : Begun limit buffer) : ∀ chunk ∈ buffer.flush, Fits limit chunk := by
  intro chunk hchunk
  unfold ChunkBuffer.flush at hchunk
  split at hchunk
  · exact absurd hchunk List.not_mem_nil
  · rename_i hne
    obtain rfl := List.mem_singleton.mp hchunk
    exact ⟨h.joined_ne_nil hne, h.bounded⟩

theorem Begun.push (h : Begun limit buffer) {line : List Char} (hne : line ≠ [])
    (hroom : buffer.bufferedChars + line.length ≤ limit.maxChars) :
    Begun limit (buffer.push line) := by
  have hjoined := joined_push buffer line
  have hchars := h.chars
  refine ⟨?_, ?_, ?_⟩
  · intro other hother
    rcases List.mem_append.mp hother with hold | hnew
    · exact h.solid other hold
    · rw [List.mem_singleton.mp hnew]
      exact hne
  · rw [hjoined, List.length_append]
    show buffer.bufferedChars + line.length = _
    omega
  · rw [hjoined, List.length_append]
    omega

/-! ## Cutting a line -/

/-- What the inner loop leaves. -/
structure LineCut (limit : ChunkLimit) (buffer : ChunkBuffer) (line : List Char)
    (result : List (List Char) × ChunkBuffer × List Char) : Prop where
  lossless : result.1.flatten ++ result.2.1.joined ++ result.2.2 = buffer.joined ++ line
  fits : ∀ chunk ∈ result.1, Fits limit chunk
  begun : Begun limit result.2.1
  rest : Fits limit result.2.2

theorem cutLine_cut (hbegun : Begun limit buffer) {line : List Char} (hne : line ≠ []) :
    LineCut limit buffer line (cutLine limit buffer line) := by
  fun_induction cutLine limit buffer line with
  | case1 buffer line hlong chunks buffer' rest hcut ih =>
      have hpos := limit.positive
      have hdrop : line.drop limit.maxChars ≠ [] := by
        intro hnil
        have := List.drop_eq_nil_iff.mp hnil
        omega
      have hrest := ih begun_empty hdrop
      rw [hcut] at hrest
      refine ⟨?_, ?_, hrest.begun, hrest.rest⟩
      · have hall : chunks.flatten ++ buffer'.joined ++ rest = line.drop limit.maxChars :=
          hrest.lossless
        show (buffer.flush ++ line.take limit.maxChars :: chunks).flatten ++ buffer'.joined ++ rest
          = buffer.joined ++ line
        rw [List.flatten_append, flatten_flush, List.flatten_cons]
        simp only [List.append_assoc] at hall ⊢
        rw [hall, List.take_append_drop]
      · intro chunk hchunk
        rcases List.mem_append.mp hchunk with hflush | hnew
        · exact hbegun.flush_fits chunk hflush
        · rcases List.mem_cons.mp hnew with rfl | hlater
          · have hlength : (line.take limit.maxChars).length = limit.maxChars := by
              rw [List.length_take]
              omega
            refine ⟨?_, Nat.le_of_eq hlength⟩
            intro hnil
            rw [hnil, List.length_nil] at hlength
            omega
          · exact hrest.fits chunk hlater
  | case2 buffer line hshort =>
      refine ⟨rfl, ?_, hbegun, hne, Nat.le_of_not_lt hshort⟩
      intro chunk hchunk
      exact absurd hchunk List.not_mem_nil

/-- A line that is too long is begun in a chunk of its own. -/
theorem cutLine_long {line : List Char} (h : limit.maxChars < line.length) :
    ∃ chunks, (cutLine limit buffer line).1
      = buffer.flush ++ line.take limit.maxChars :: chunks := by
  rw [cutLine, if_pos h]
  exact ⟨_, rfl⟩

theorem cutLine_short {line : List Char} (h : line.length ≤ limit.maxChars) :
    cutLine limit buffer line = ([], buffer, line) := by
  rw [cutLine, if_neg (Nat.not_lt.mpr h)]

/-! ## Adding a line -/

/-- What one round of the outer loop leaves. -/
structure Added (limit : ChunkLimit) (buffer : ChunkBuffer) (line : List Char)
    (result : List (List Char) × ChunkBuffer) : Prop where
  lossless : result.1.flatten ++ result.2.joined = buffer.joined ++ line
  fits : ∀ chunk ∈ result.1, Fits limit chunk
  begun : Begun limit result.2
  nonempty : result.2.buffered ≠ []

theorem addLine_added (hbegun : Begun limit buffer) {line : List Char} (hne : line ≠ []) :
    Added limit buffer line (addLine limit buffer line) := by
  have hcut := cutLine_cut hbegun hne
  unfold addLine
  generalize cutLine limit buffer line = result at hcut ⊢
  obtain ⟨chunks, buffer', rest⟩ := result
  have hlossless : chunks.flatten ++ buffer'.joined ++ rest = buffer.joined ++ line := hcut.lossless
  dsimp only
  split
  · rename_i hfull
    refine ⟨?_, ?_, ?_, List.cons_ne_nil _ _⟩
    · rw [joined_push, List.flatten_append, flatten_flush]
      exact hlossless
    · intro chunk hchunk
      rcases List.mem_append.mp hchunk with hold | hflush
      · exact hcut.fits chunk hold
      · exact hcut.begun.flush_fits chunk hflush
    · have hroom : 0 + rest.length ≤ limit.maxChars := by
        rw [Nat.zero_add]
        exact hcut.rest.2
      exact begun_empty.push hcut.rest.1 hroom
  · rename_i hroom
    refine ⟨?_, hcut.fits, ?_, ?_⟩
    · rw [joined_push, ← List.append_assoc]
      exact hlossless
    · -- a chunk that has not been begun has room for anything that fits
      refine hcut.begun.push hcut.rest.1 ?_
      by_cases hempty : buffer'.buffered = []
      · have hchars : buffer'.bufferedChars = 0 := by
          have hsame : buffer'.bufferedChars = buffer'.joined.length := hcut.begun.chars
          unfold ChunkBuffer.joined at hsame
          rw [hempty] at hsame
          exact hsame
        have hfits : rest.length ≤ limit.maxChars := hcut.rest.2
        show buffer'.bufferedChars + rest.length ≤ limit.maxChars
        omega
      · exact Nat.le_of_not_lt fun hlong => hroom ⟨hempty, hlong⟩
    · intro hnil
      exact List.cons_ne_nil _ _ (List.append_eq_nil_iff.mp hnil).2

/-- What is in a chunk that has been begun stays together. -/
theorem addLine_keeps (hne : buffer.buffered ≠ []) (line : List Char) :
    (∃ chunks, (addLine limit buffer line).1 = buffer.joined :: chunks)
      ∨ ((addLine limit buffer line).1 = []
        ∧ (addLine limit buffer line).2 = buffer.push line) := by
  have hflush : buffer.flush = [buffer.joined] := by
    unfold ChunkBuffer.flush
    rw [if_neg hne]
  by_cases hlong : limit.maxChars < line.length
  · left
    obtain ⟨chunks, hchunks⟩ := @cutLine_long limit buffer line hlong
    unfold addLine
    generalize cutLine limit buffer line = result at hchunks ⊢
    obtain ⟨cut, buffer', rest⟩ := result
    obtain rfl : cut = buffer.flush ++ line.take limit.maxChars :: chunks := hchunks
    dsimp only
    rw [hflush]
    split
    · exact ⟨_, rfl⟩
    · exact ⟨_, rfl⟩
  · unfold addLine
    rw [cutLine_short (Nat.le_of_not_lt hlong)]
    dsimp only
    split
    · left
      exact ⟨[], by rw [List.nil_append, hflush]⟩
    · right
      exact ⟨rfl, rfl⟩

theorem addLines_keeps (hne : buffer.buffered ≠ []) (lines : List (List Char)) :
    ∃ more chunks, addLines limit buffer lines = (buffer.joined ++ more) :: chunks := by
  induction lines generalizing buffer with
  | nil =>
      refine ⟨[], [], ?_⟩
      unfold addLines ChunkBuffer.flush
      rw [if_neg hne, List.append_nil]
  | cons line lines ih =>
      rw [addLines_cons]
      rcases @addLine_keeps limit buffer hne line with ⟨chunks, hchunks⟩ | ⟨hnone, hpush⟩
      · refine ⟨[], chunks ++ addLines limit (addLine limit buffer line).2 lines, ?_⟩
        rw [hchunks, List.append_nil]
        rfl
      · have hpushed : (addLine limit buffer line).2.buffered ≠ [] := by
          rw [hpush]
          intro hnil
          exact List.cons_ne_nil _ _ (List.append_eq_nil_iff.mp hnil).2
        obtain ⟨more, chunks, hrest⟩ := ih hpushed
        refine ⟨line ++ more, chunks, ?_⟩
        rw [hnone, List.nil_append, hrest, hpush, joined_push, List.append_assoc]

/-! ## The whole text -/

theorem addLines_flatten (hbegun : Begun limit buffer) {lines : List (List Char)}
    (hsolid : ∀ line ∈ lines, line ≠ []) :
    (addLines limit buffer lines).flatten = buffer.joined ++ lines.flatten := by
  induction lines generalizing buffer with
  | nil =>
      rw [addLines, flatten_flush, List.flatten_nil, List.append_nil]
  | cons line lines ih =>
      have hadded := addLine_added hbegun (hsolid line List.mem_cons_self)
      have hrest := ih hadded.begun fun other h => hsolid other (List.mem_cons_of_mem line h)
      rw [addLines_cons, List.flatten_append, hrest, ← List.append_assoc, hadded.lossless,
        List.flatten_cons, List.append_assoc]

theorem addLines_fits (hbegun : Begun limit buffer) {lines : List (List Char)}
    (hsolid : ∀ line ∈ lines, line ≠ []) :
    ∀ chunk ∈ addLines limit buffer lines, Fits limit chunk := by
  induction lines generalizing buffer with
  | nil => exact hbegun.flush_fits
  | cons line lines ih =>
      have hadded := addLine_added hbegun (hsolid line List.mem_cons_self)
      have hrest := ih hadded.begun fun other h => hsolid other (List.mem_cons_of_mem line h)
      intro chunk hchunk
      rw [addLines_cons] at hchunk
      rcases List.mem_append.mp hchunk with hnow | hlater
      · exact hadded.fits chunk hnow
      · exact hrest chunk hlater

/-- The text `start`, which comes after the text `before`, is within one chunk. -/
def Unsplit (chunks : List (List Char)) (before start : List Char) : Prop :=
  ∃ earlier left right later, chunks = earlier ++ (left ++ start ++ right) :: later
    ∧ earlier.flatten ++ left = before

theorem Unsplit.cons {chunks : List (List Char)} {before start : List Char}
    (h : Unsplit chunks before start) (more : List (List Char)) :
    Unsplit (more ++ chunks) (more.flatten ++ before) start := by
  obtain ⟨earlier, left, right, later, heq, hbefore⟩ := h
  refine ⟨more ++ earlier, left, right, later, ?_, ?_⟩
  · rw [heq, List.append_assoc more]
  · rw [List.flatten_append, List.append_assoc, hbefore]

/-- The line at hand, up to any place that a chunk can reach. -/
theorem addLines_unsplit_head (hbegun : Begun limit buffer) {start rest : List Char}
    (hne : start ++ rest ≠ []) (hfits : start.length ≤ limit.maxChars)
    (lines : List (List Char)) :
    Unsplit (addLines limit buffer ((start ++ rest) :: lines)) buffer.joined start := by
  have hadded := addLine_added hbegun hne
  rw [addLines_cons]
  by_cases hlong : limit.maxChars < (start ++ rest).length
  · -- the first chunk that is cut off reaches beyond `start`
    obtain ⟨chunks, hchunks⟩ := @cutLine_long limit buffer _ hlong
    have htake : (start ++ rest).take limit.maxChars
        = start ++ rest.take (limit.maxChars - start.length) := by
      rw [List.take_append, List.take_of_length_le hfits]
    have hfirst : ∃ later, (addLine limit buffer (start ++ rest)).1
        = buffer.flush ++ (start ++ rest).take limit.maxChars :: later := by
      unfold addLine
      generalize cutLine limit buffer (start ++ rest) = result at hchunks ⊢
      obtain ⟨cut, buffer', last⟩ := result
      obtain rfl : cut = buffer.flush ++ (start ++ rest).take limit.maxChars :: chunks := hchunks
      dsimp only
      split
      · exact ⟨chunks ++ buffer'.flush, by rw [List.append_assoc, List.cons_append]⟩
      · exact ⟨chunks, rfl⟩
    obtain ⟨later, hlater⟩ := hfirst
    refine ⟨buffer.flush, [], rest.take (limit.maxChars - start.length),
      later ++ addLines limit (addLine limit buffer (start ++ rest)).2 lines, ?_, ?_⟩
    · rw [hlater, htake, List.nil_append, List.append_assoc]
      rfl
    · rw [flatten_flush, List.append_nil]
  · -- the whole line is at the end of the chunk that is begun then
    obtain ⟨left, hleft⟩ : ∃ left, (addLine limit buffer (start ++ rest)).2.joined
        = left ++ (start ++ rest) := by
      unfold addLine
      rw [cutLine_short (Nat.le_of_not_lt hlong)]
      dsimp only
      split
      · exact ⟨_, joined_push _ _⟩
      · exact ⟨_, joined_push _ _⟩
    obtain ⟨more, chunks, hrest⟩ := @addLines_keeps limit _ hadded.nonempty lines
    refine ⟨(addLine limit buffer (start ++ rest)).1, left, rest ++ more, chunks, ?_, ?_⟩
    · rw [hrest, hleft]
      simp only [List.append_assoc]
    · have hall := hadded.lossless
      rw [hleft, ← List.append_assoc] at hall
      exact List.append_cancel_right hall

theorem addLines_unsplit (hbegun : Begun limit buffer) {earlier later : List (List Char)}
    {start rest : List Char}
    (hsolid : ∀ line ∈ earlier ++ (start ++ rest) :: later, line ≠ [])
    (hfits : start.length ≤ limit.maxChars) :
    Unsplit (addLines limit buffer (earlier ++ (start ++ rest) :: later))
      (buffer.joined ++ earlier.flatten) start := by
  induction earlier generalizing buffer with
  | nil =>
      rw [List.flatten_nil, List.append_nil]
      exact addLines_unsplit_head hbegun (hsolid _ List.mem_cons_self) hfits later
  | cons line earlier ih =>
      have hadded := addLine_added hbegun (hsolid line List.mem_cons_self)
      have hrest := ih hadded.begun fun other h => hsolid other (List.mem_cons_of_mem line h)
      have hmore := hrest.cons (addLine limit buffer line).1
      rw [← List.append_assoc, hadded.lossless, List.append_assoc] at hmore
      exact hmore

/-- **Chunks lose nothing.** They are the text, they are neither empty nor too long, and a
line is within one chunk if it fits into one, with or without its line break. -/
theorem iter_text_chunks_lossless (text : List Char) (limit : ChunkLimit) :
    (iterTextChunks text limit).flatten = text
      ∧ (∀ chunk ∈ iterTextChunks text limit, chunk ≠ [] ∧ chunk.length ≤ limit.maxChars)
      ∧ ∀ earlier line later, rawLines text = earlier ++ line :: later →
          (line.length ≤ limit.maxChars →
            Unsplit (iterTextChunks text limit) earlier.flatten line)
          ∧ ((content line).length ≤ limit.maxChars →
            Unsplit (iterTextChunks text limit) earlier.flatten (content line)) := by
  by_cases hempty : text = []
  · subst hempty
    refine ⟨rfl, ?_, ?_⟩
    · intro chunk hchunk
      exact absurd hchunk List.not_mem_nil
    · intro earlier line later hlines
      exact absurd hlines.symm (by simp [rawLines, splitFrom])
  · have hsolid : ∀ line ∈ rawLines text, line ≠ [] := fun line => rawLines_ne_nil
    have hchunks : iterTextChunks text limit = addLines limit {} (rawLines text) := by
      unfold iterTextChunks
      rw [if_neg hempty]
    rw [hchunks]
    refine ⟨?_, addLines_fits begun_empty hsolid, ?_⟩
    · rw [addLines_flatten begun_empty hsolid, flatten_rawLines]
      rfl
    · intro earlier line later hlines
      rw [hlines] at hsolid ⊢
      constructor
      · intro hfits
        have hwhole : line ++ [] = line := List.append_nil line
        rw [← hwhole] at hsolid ⊢
        have hline := @addLines_unsplit limit {} begun_empty earlier later line [] hsolid hfits
        rw [hwhole] at hline ⊢
        exact hline
      · intro hfits
        have hparts : content line ++ line.dropWhile (fun c => !isBreak c) = line :=
          List.takeWhile_append_dropWhile
        have hline := @addLines_unsplit limit {} begun_empty earlier later (content line)
          (line.dropWhile fun c => !isBreak c) (by rw [hparts]; exact hsolid) hfits
        rw [hparts] at hline
        exact hline

end PipeLens.Proof
