import PipeLens.Lib.Interleaving
import PipeLens.Proof.PatchPolicy

/-!
# The diff merged into its file

A patch is read here as the diff merged into the file: every line of the file and every
line of the patch, once, with its marker. The two versions of the file are the two
views of it. A line that has no break runs into the next one, which happens at most
once, and then what runs together counts as changed (`lineDiff`).
-/

namespace PipeLens.Proof

open Text

variable {unicode : Unicode}

/-! ## The merged diff -/

/-- The loop of `apply_unified_diff`, keeping what the hunks remove. -/
def mergeHunks (lines : List (List Char)) : Nat → List Hunk →
    Except PatchException (List (Marker × List Char))
  | cursor, [] => .ok ((lines.drop cursor).map fun raw => (.context, raw))
  | cursor, hunk :: hunks => do
      let start ← locateHunk lines hunk cursor
      let rest ← mergeHunks lines (start + hunk.oldLines.length) hunks
      return ((lines.drop cursor).take (start - cursor)).map (fun raw => (.context, raw))
        ++ hunk.lines ++ rest

/-- The diff merged into the file. -/
def mergedDiff (unicode : Unicode) (original patch : List Char) :
    Except PatchException (List (Marker × List Char)) := do
  let hunks ← parseHunks unicode patch
  mergeHunks (rawLines original) 0 hunks

def oldView {α : Type} (merged : List (Marker × α)) : List α :=
  (merged.filter fun line => line.1 ≠ .added).map Prod.snd

def newView {α : Type} (merged : List (Marker × α)) : List α :=
  (merged.filter fun line => line.1 ≠ .removed).map Prod.snd

/-- A line of the file that is no longer there. -/
def removedFrom : Marker → List Char → List (Marker × List Char)
  | .context, text => [(.removed, text)]
  | _, _ => []

/-- A text without a break runs into the next line that stays. -/
def runInto (marker : Marker) (text : List Char) (rest : List (Marker × List Char)) :
    List (Marker × List Char) :=
  let gone := rest.takeWhile fun line => line.1 = .removed
  match rest.dropWhile fun line => line.1 = .removed with
  | [] => (marker, text) :: rest
  | (marker', next) :: after =>
      if next = [] then (marker, text) :: (gone ++ after)
      else removedFrom marker text ++ gone ++ removedFrom marker' next
        ++ (.added, text ++ next) :: after

/-- The merged diff by its lines, without their breaks. -/
def lineDiff : List (Marker × List Char) → List (Marker × List Char)
  | [] => []
  | (marker, raw) :: rest =>
      if marker = .removed ∨ content raw ≠ raw then (marker, content raw) :: lineDiff rest
      else if raw = [] then lineDiff rest
      else runInto marker raw (lineDiff rest)

/-- The lines with something on them. -/
def solid (lines : List (Marker × List Char)) : List (Marker × List Char) :=
  lines.filter fun line => !isBlank line.2

/-! ## The merged diff and the two files -/

theorem locateHunk_spec {lines : List (List Char)} {hunk : Hunk} {cursor start : Nat}
    (h : locateHunk lines hunk cursor = .ok start) :
    cursor ≤ start ∧ ((lines.drop start).take hunk.oldLines.length).map stripNewline
      = hunk.oldLines.map stripNewline := by
  unfold locateHunk at h
  dsimp only at h
  split at h
  · rename_i hstated
    rw [← Except.ok.inj h]
    simp only [Bool.and_eq_true, decide_eq_true_eq, hunkMatches, beq_iff_eq] at hstated
    exact hstated
  · split at h
    · rename_i candidate hcandidates
      have hmem : candidate ∈ [candidate] := List.mem_singleton.mpr rfl
      rw [← hcandidates, List.mem_filter] at hmem
      rw [← Except.ok.inj h]
      simp only [Bool.and_eq_true, decide_eq_true_eq, hunkMatches, beq_iff_eq] at hmem
      exact hmem.2
    · exact nomatch h
    · exact nomatch h

/-- A hunk goes where its header says if the file has its old lines there. -/
theorem locateHunk_stated {lines : List (List Char)} {hunk : Hunk} {cursor start : Nat}
    (hstart : hunk.oldStart - 1 = start) (hcursor : cursor ≤ start)
    (hmatches : ((lines.drop start).take hunk.oldLines.length).map stripNewline
      = hunk.oldLines.map stripNewline) :
    locateHunk lines hunk cursor = .ok start := by
  have hstated : hunkMatches lines hunk start = true := by
    unfold hunkMatches
    rw [hmatches]
    exact beq_self_eq_true _
  unfold locateHunk
  dsimp only
  rw [hstart, hstated, if_pos (by simpa using hcursor)]

theorem applyHunks_stated {front window tail : List (List Char)} {hunk : Hunk}
    {hunks : List Hunk} {cursor : Nat} {result : List (List Char)}
    (hwindow : window.map stripNewline = hunk.oldLines.map stripNewline)
    (hstart : hunk.oldStart - 1 = front.length) (hcursor : cursor ≤ front.length)
    (hrest : applyHunks (front ++ (window ++ tail)) (front.length + window.length) hunks
      = .ok result) :
    applyHunks (front ++ (window ++ tail)) cursor (hunk :: hunks)
      = .ok (front.drop cursor ++ hunk.newLines ++ result) := by
  have hlength : window.length = hunk.oldLines.length := by
    simpa using congrArg List.length hwindow
  have hlocate : locateHunk (front ++ (window ++ tail)) hunk cursor = .ok front.length := by
    refine locateHunk_stated hstart hcursor ?_
    rw [List.drop_left, ← hlength, List.take_left]
    exact hwindow
  have hgap : ((front ++ (window ++ tail)).drop cursor).take (front.length - cursor)
      = front.drop cursor := by
    rw [List.drop_append_of_le_length hcursor, ← List.length_drop, List.take_left]
  rw [applyHunks, hlocate]
  show (applyHunks _ (front.length + hunk.oldLines.length) hunks >>= _) = _
  rw [← hlength, hrest]
  show Except.ok (_ ++ _ ++ _) = _
  rw [hgap]

theorem oldView_append {α : Type} (xs ys : List (Marker × α)) :
    oldView (xs ++ ys) = oldView xs ++ oldView ys := by
  simp [oldView]

theorem newView_append {α : Type} (xs ys : List (Marker × α)) :
    newView (xs ++ ys) = newView xs ++ newView ys := by
  simp [newView]

theorem oldView_context {α : Type} (xs : List α) :
    oldView (xs.map fun x => (Marker.context, x)) = xs := by
  simp [oldView, List.filter_map, Function.comp_def]

theorem newView_context {α : Type} (xs : List α) :
    newView (xs.map fun x => (Marker.context, x)) = xs := by
  simp [newView, List.filter_map, Function.comp_def]

/-- **The merged diff has both files as its views**, and is made of the file and the hunks. -/
theorem applyHunks_merge {lines : List (List Char)} {hunks : List Hunk} {cursor : Nat}
    {result : List (List Char)} (h : applyHunks lines cursor hunks = .ok result) :
    ∃ merged, mergeHunks lines cursor hunks = .ok merged ∧ newView merged = result
      ∧ (oldView merged).map stripNewline = (lines.drop cursor).map stripNewline
      ∧ ∃ kept : List (List Char), kept.Sublist (lines.drop cursor)
        ∧ Interleaved (kept.map fun raw => (.context, raw)) (hunks.flatMap Hunk.lines) merged := by
  induction hunks generalizing cursor result with
  | nil =>
      refine ⟨_, rfl, ?_, ?_, lines.drop cursor, List.Sublist.refl _, Interleaved.of_left _⟩
      · rw [newView_context]
        exact Except.ok.inj h
      · rw [oldView_context]
  | cons hunk hunks ih =>
      unfold applyHunks at h
      obtain ⟨start, hlocate, h⟩ := Program.bind_eq_ok h
      obtain ⟨rest, happly, h⟩ := Program.bind_eq_ok h
      obtain ⟨merged, hmerge, hnew, hold, kept, hkept, hinter⟩ := ih happly
      obtain ⟨hcursor, hmatches⟩ := locateHunk_spec hlocate
      -- the lines up to the hunk, those that the hunk stands for, and the rest
      have hsplit : lines.drop cursor = (lines.drop cursor).take (start - cursor)
          ++ ((lines.drop start).take hunk.oldLines.length
            ++ lines.drop (start + hunk.oldLines.length)) := by
        have h₁ := List.take_append_drop (start - cursor) (lines.drop cursor)
        have h₂ := List.take_append_drop hunk.oldLines.length (lines.drop start)
        rw [List.drop_drop, Nat.add_sub_cancel' hcursor] at h₁
        rw [List.drop_drop] at h₂
        rw [h₂, h₁]
      refine ⟨((lines.drop cursor).take (start - cursor)).map (fun raw => (.context, raw))
        ++ hunk.lines ++ merged, ?_, ?_, ?_, ?_⟩
      · unfold mergeHunks
        rw [hlocate]
        show (mergeHunks lines (start + hunk.oldLines.length) hunks >>= _) = _
        rw [hmerge]
        rfl
      · rw [newView_append, newView_append, newView_context, hnew]
        exact Except.ok.inj h
      · calc (oldView (((lines.drop cursor).take (start - cursor)).map (fun raw => (.context, raw))
                ++ hunk.lines ++ merged)).map stripNewline
            = ((lines.drop cursor).take (start - cursor)).map stripNewline
              ++ (hunk.oldLines.map stripNewline ++ (oldView merged).map stripNewline) := by
              rw [oldView_append, oldView_append, oldView_context, List.map_append,
                List.map_append, List.append_assoc]
              rfl
          _ = ((lines.drop cursor).take (start - cursor)
              ++ ((lines.drop start).take hunk.oldLines.length
                ++ lines.drop (start + hunk.oldLines.length))).map stripNewline := by
              rw [hold, ← hmatches, ← List.map_append, ← List.map_append]
          _ = (lines.drop cursor).map stripNewline := by
              rw [← hsplit]
      · refine ⟨(lines.drop cursor).take (start - cursor) ++ kept, ?_, ?_⟩
        · have hlines := (hkept.trans (List.sublist_append_right
            ((lines.drop start).take hunk.oldLines.length) _)).append_left
            ((lines.drop cursor).take (start - cursor))
          rwa [← hsplit] at hlines
        · rw [List.map_append, List.flatMap_cons, List.append_assoc]
          exact (Interleaved.of_left _).append ((Interleaved.of_right _).append hinter)

/-! ## Lines that run together -/

theorem newView_removed {gone : List (Marker × List Char)} (h : ∀ line ∈ gone, line.1 = .removed) :
    newView gone = [] := by
  unfold newView
  rw [List.filter_eq_nil_iff.mpr fun line hline => by simp [h line hline]]
  rfl

/-- What comes after a text without a break. -/
theorem runInto_cases (marker : Marker) (text : List Char) (rest : List (Marker × List Char)) :
    (newView rest = [] ∧ runInto marker text rest = (marker, text) :: rest)
    ∨ ∃ gone marker' next after, rest = gone ++ (marker', next) :: after
      ∧ (∀ line ∈ gone, line.1 = .removed) ∧ marker' ≠ .removed
      ∧ ((next = [] ∧ runInto marker text rest = (marker, text) :: (gone ++ after))
        ∨ (next ≠ [] ∧ runInto marker text rest = removedFrom marker text ++ gone
          ++ removedFrom marker' next ++ (.added, text ++ next) :: after)) := by
  have hsplit := List.takeWhile_append_dropWhile
    (p := fun line : Marker × List Char => line.1 = .removed) (l := rest)
  have hgone : ∀ line ∈ rest.takeWhile fun line => line.1 = .removed, line.1 = .removed :=
    fun line hline => by simpa using List.mem_takeWhile_imp hline
  unfold runInto
  cases hrest : rest.dropWhile fun line => line.1 = .removed with
  | nil =>
      rw [hrest, List.append_nil] at hsplit
      rw [hsplit] at hgone
      exact Or.inl ⟨newView_removed hgone, rfl⟩
  | cons line after =>
      have hhead := List.head?_dropWhile_not
        (fun line : Marker × List Char => decide (line.1 = .removed)) rest
      rw [hrest] at hhead hsplit
      refine Or.inr ⟨_, line.1, line.2, after, hsplit.symm, hgone, by simpa using hhead, ?_⟩
      dsimp only
      split
      · rename_i hnext
        exact Or.inl ⟨hnext, rfl⟩
      · rename_i hnext
        exact Or.inr ⟨hnext, rfl⟩

theorem newView_removedFrom (marker : Marker) (text : List Char) :
    newView (removedFrom marker text) = [] := by
  cases marker <;> rfl

theorem newView_cons {marker : Marker} (h : marker ≠ .removed) (text : List Char)
    (rest : List (Marker × List Char)) : newView ((marker, text) :: rest) = text :: newView rest := by
  simp [newView, h]

theorem oldView_cons {marker : Marker} (h : marker ≠ .added) (text : List Char)
    (rest : List (Marker × List Char)) : oldView ((marker, text) :: rest) = text :: oldView rest := by
  simp [oldView, h]

theorem oldView_removedFrom {marker : Marker} (h : marker ≠ .removed) (text : List Char) :
    oldView (removedFrom marker text) = oldView [(marker, text)] := by
  cases marker with
  | context => rfl
  | removed => exact absurd rfl h
  | added => rfl

theorem newView_runInto {marker : Marker} (h : marker ≠ .removed) (text : List Char)
    (rest : List (Marker × List Char)) :
    newView (runInto marker text rest) = prependTo text (newView rest) := by
  rcases runInto_cases marker text rest with ⟨hnone, heq⟩ |
    ⟨gone, marker', next, after, rfl, hgone, hmarker', ⟨rfl, heq⟩ | ⟨_, heq⟩⟩
  · rw [heq, newView_cons h, hnone]
    rfl
  · rw [heq, newView_cons h, newView_append, newView_append, newView_removed hgone,
      newView_cons hmarker']
    simp [prependTo]
  · rw [heq, newView_append, newView_append, newView_append, newView_append,
      newView_removed hgone, newView_removedFrom, newView_removedFrom, newView_cons hmarker',
      newView_cons (by decide)]
    rfl

theorem newView_lineDiff_cons {marker : Marker} (h : marker ≠ .removed) {raw : List Char}
    {rest : List (Marker × List Char)} (ih : newView (lineDiff rest) = joinLines (newView rest)) :
    newView (lineDiff ((marker, raw) :: rest)) = joinLines (newView ((marker, raw) :: rest)) := by
  rw [newView_cons h, joinLines, lineDiff]
  by_cases hbreak : content raw ≠ raw
  · rw [if_pos (Or.inr hbreak), if_pos hbreak, newView_cons h, ih]
  · rw [if_neg (by simp [h, hbreak]), if_neg hbreak]
    split
    · exact ih
    · rw [newView_runInto h, ih]

/-- **The new version**, with what runs together. -/
theorem newView_lineDiff (merged : List (Marker × List Char)) :
    newView (lineDiff merged) = joinLines (newView merged) := by
  induction merged with
  | nil => rfl
  | cons line rest ih =>
      obtain ⟨marker, raw⟩ := line
      cases marker with
      | context => exact newView_lineDiff_cons (by decide) ih
      | added => exact newView_lineDiff_cons (by decide) ih
      | removed =>
          rw [lineDiff, if_pos (Or.inl rfl)]
          exact ih

/-- Blank lines apart, the old version is not touched. -/
theorem oldView_runInto {marker : Marker} (h : marker ≠ .removed) (text : List Char)
    (rest : List (Marker × List Char)) :
    (oldView (runInto marker text rest)).filter (fun line => !isBlank line)
      = (oldView ((marker, text) :: rest)).filter fun line => !isBlank line := by
  have hcons : ∀ (marker : Marker) (text : List Char) (rest : List (Marker × List Char)),
      oldView ((marker, text) :: rest) = oldView [(marker, text)] ++ oldView rest :=
    fun marker text rest => oldView_append [(marker, text)] rest
  rcases runInto_cases marker text rest with ⟨_, heq⟩ |
    ⟨gone, marker', next, after, rfl, _, hmarker', ⟨rfl, heq⟩ | ⟨_, heq⟩⟩
  · rw [heq]
  · have hblank : (oldView [(marker', ([] : List Char))]).filter (fun line => !isBlank line)
        = [] := by
      cases marker' <;> rfl
    rw [heq, hcons marker text (gone ++ after), hcons marker text (gone ++ _), oldView_append,
      oldView_append, hcons marker' [] after]
    simp only [List.filter_append, hblank, List.nil_append]
  · have hadded : oldView [(Marker.added, text ++ next)] = [] := rfl
    rw [heq, hcons marker text (gone ++ _), oldView_append, oldView_append, oldView_append,
      oldView_append, oldView_removedFrom h, oldView_removedFrom hmarker',
      hcons .added _ after, hcons marker' next after, hadded]
    simp only [List.append_assoc, List.nil_append]

/-- **The old version.** -/
theorem oldView_lineDiff (merged : List (Marker × List Char)) :
    (oldView (lineDiff merged)).filter (fun line => !isBlank line)
      = ((oldView merged).map content).filter fun line => !isBlank line := by
  induction merged with
  | nil => rfl
  | cons line rest ih =>
      obtain ⟨marker, raw⟩ := line
      have hcons : ∀ (text : List Char) (rest : List (Marker × List Char)),
          oldView ((marker, text) :: rest) = oldView [(marker, text)] ++ oldView rest :=
        fun text rest => oldView_append [(marker, text)] rest
      have hcontent : oldView [(marker, content raw)]
          = (oldView [(marker, raw)]).map content := by
        cases marker <;> rfl
      rw [hcons raw, List.map_append, List.filter_append, ← ih, ← hcontent, ← List.filter_append,
        ← hcons]
      rw [lineDiff]
      by_cases hbreak : marker = .removed ∨ content raw ≠ raw
      · rw [if_pos hbreak]
      · rw [if_neg hbreak]
        push Not at hbreak
        rw [hbreak.2]
        split
        · rename_i hempty
          rw [hempty, hcons, List.filter_append]
          cases marker <;> rfl
        · exact oldView_runInto hbreak.1 raw _

/-! ## The lines of the hunks -/

/-- A line of a hunk is a line, and has its break from the patch. -/
theorem ReadAs.isLine {raw body : List Char} {marker : Marker} (h : ReadAs raw marker body)
    (hraw : IsLine raw) : IsLine body ∧ (content raw ≠ raw → content body ≠ body) := by
  cases h with
  | blank _ =>
      exact ⟨⟨[], ['\n'], rfl, nofun, .break (by decide)⟩, fun _ => by decide⟩
  | signed hsigned =>
      rw [startsWith_stripNewline (sign_noBreak marker) hraw] at hsigned
      obtain ⟨c, rest, hc, rfl⟩ : ∃ c rest, isBreak c = false ∧ raw = c :: rest := by
        cases marker with
        | context =>
            obtain ⟨rest, hrest⟩ := (startsWith_singleton rfl raw).mp hsigned
            exact ⟨' ', rest, by decide, hrest⟩
        | removed =>
            obtain ⟨rest, hrest⟩ := (startsWith_singleton rfl raw).mp hsigned
            exact ⟨'-', rest, by decide, hrest⟩
        | added =>
            obtain ⟨rest, hrest⟩ := (startsWith_singleton rfl raw).mp hsigned
            exact ⟨'+', rest, by decide, hrest⟩
      refine ⟨hraw.of_cons hc, fun hne heq => hne ?_⟩
      rw [content_cons hc]
      exact congrArg (c :: ·) heq

theorem flatMap_snoc (current : Hunk) (earlier : List Hunk) (marker : Marker) (body : List Char) :
    (current.snoc marker body :: earlier).reverse.flatMap Hunk.lines
      = (current :: earlier).reverse.flatMap Hunk.lines ++ [(marker, body)] := by
  simp [Hunk.snoc]

/-- Reading on, every line so far has a break; the last may have none. -/
theorem foldlM_parseLine_lines {raws : List (List Char)} {hunks hunks' : List Hunk}
    (hlines : ∀ raw ∈ raws, IsLine raw) (hbreaks : raws.Pairwise fun raw _ => content raw ≠ raw)
    (hsofar : ∀ line ∈ hunks.reverse.flatMap Hunk.lines, IsLine line.2 ∧ content line.2 ≠ line.2)
    (h : raws.foldlM (parseLine unicode) hunks = .ok hunks') :
    (∀ line ∈ hunks'.reverse.flatMap Hunk.lines, IsLine line.2)
      ∧ (hunks'.reverse.flatMap Hunk.lines).Pairwise fun line _ => content line.2 ≠ line.2 := by
  induction raws generalizing hunks with
  | nil =>
      rw [← Except.ok.inj h]
      exact ⟨fun line hline => (hsofar line hline).1,
        List.pairwise_of_forall_mem_list fun line hline _ _ => (hsofar line hline).2⟩
  | cons raw raws ih =>
      rw [List.foldlM_cons] at h
      obtain ⟨middle, hstep, hrest⟩ := Program.bind_eq_ok h
      obtain ⟨hbreak, hbreaks⟩ := List.pairwise_cons.mp hbreaks
      have hlines' := fun raw' h' => hlines raw' (List.mem_cons_of_mem raw h')
      rcases parseLine_cases hstep with ⟨_, oldStart, rfl⟩ | ⟨_, rfl, rfl, _⟩ |
        ⟨_, current, earlier, rfl, ⟨_, rfl⟩ | ⟨marker, body, hread, rfl⟩⟩
      · exact ih hlines' hbreaks (by simpa using hsofar) hrest
      · exact ih hlines' hbreaks hsofar hrest
      · exact ih hlines' hbreaks hsofar hrest
      · obtain ⟨hbody, hends⟩ := hread.isLine (hlines raw List.mem_cons_self)
        cases raws with
        | nil =>
            rw [← Except.ok.inj hrest, flatMap_snoc]
            refine ⟨fun line hline => ?_, List.pairwise_append.mpr
              ⟨List.pairwise_of_forall_mem_list fun line hline _ _ => (hsofar line hline).2,
                List.pairwise_singleton _ _, fun line hline _ _ => (hsofar line hline).2⟩⟩
            rcases List.mem_append.mp hline with hline | hline
            · exact (hsofar line hline).1
            · rw [List.mem_singleton.mp hline]
              exact hbody
        | cons next raws =>
            refine ih hlines' hbreaks (fun line hline => ?_) hrest
            rw [flatMap_snoc] at hline
            rcases List.mem_append.mp hline with hline | hline
            · exact hsofar line hline
            · rw [List.mem_singleton.mp hline]
              exact ⟨hbody, hends (hbreak next List.mem_cons_self)⟩

theorem parseHunks_lines {patch : List Char} {hunks : List Hunk}
    (h : parseHunks unicode patch = .ok hunks) :
    (∀ line ∈ hunks.flatMap Hunk.lines, IsLine line.2)
      ∧ (hunks.flatMap Hunk.lines).Pairwise fun line _ => content line.2 ≠ line.2 := by
  unfold parseHunks at h
  obtain ⟨hunks', hfold, hreturn⟩ := Program.bind_eq_ok h
  split at hreturn
  · exact nomatch hreturn
  · rw [← Except.ok.inj hreturn]
    exact foldlM_parseLine_lines (fun _ => isLine_of_mem) (rawLines_pairwise patch)
      (by simp) hfold

/-! ## The two files -/

theorem newView_solid (lines : List (Marker × List Char)) :
    newView (solid lines) = (newView lines).filter fun line => !isBlank line := by
  unfold newView solid
  rw [List.filter_map, List.filter_filter, List.filter_filter]
  simp [Bool.and_comm]

theorem oldView_solid (lines : List (Marker × List Char)) :
    oldView (solid lines) = (oldView lines).filter fun line => !isBlank line := by
  unfold oldView solid
  rw [List.filter_map, List.filter_filter, List.filter_filter]
  simp [Bool.and_comm]

theorem applyUnifiedDiff_cases {original patch updated : List Char}
    (h : applyUnifiedDiff unicode original patch = .ok updated) :
    ∃ hunks lines, parseHunks unicode patch = .ok hunks
      ∧ applyHunks (rawLines original) 0 hunks = .ok lines ∧ updated = lines.flatten := by
  unfold applyUnifiedDiff at h
  obtain ⟨hunks, hparse, h⟩ := Program.bind_eq_ok h
  obtain ⟨lines, happly, h⟩ := Program.bind_eq_ok h
  exact ⟨hunks, lines, hparse, happly, (Except.ok.inj h).symm⟩

/-- The two files of an applied patch, as views of the merged diff. -/
theorem applyUnifiedDiff_merge {original patch updated : List Char}
    (h : applyUnifiedDiff unicode original patch = .ok updated) :
    ∃ hunks merged, parseHunks unicode patch = .ok hunks
      ∧ mergedDiff unicode original patch = .ok merged
      ∧ OneLoose (fun line => content line.2 ≠ line.2) merged
      ∧ (∀ line ∈ merged, line.1 = .context ∨ line ∈ hunks.flatMap Hunk.lines)
      ∧ solidLines updated = newView (solid (lineDiff merged))
      ∧ solidLines original = oldView (solid (lineDiff merged)) := by
  obtain ⟨hunks, lines, hparse, happly, hupdated⟩ := applyUnifiedDiff_cases h
  obtain ⟨merged, hmerge, hnew, hold, kept, hkept, hinter⟩ := applyHunks_merge happly
  obtain ⟨hlines, hbreaks⟩ := parseHunks_lines hparse
  rw [List.drop_zero] at hold hkept
  have hkeptBreaks : (kept.map fun raw => (Marker.context, raw)).Pairwise
      fun line _ => content line.2 ≠ line.2 :=
    List.pairwise_map.mpr ((rawLines_pairwise original).sublist hkept)
  have hfrom : ∀ line ∈ merged, (line.1 = .context ∧ IsLine line.2)
      ∨ line ∈ hunks.flatMap Hunk.lines := by
    intro line hline
    refine (hinter.mem hline).imp_left fun hline => ?_
    obtain ⟨raw, hraw, rfl⟩ := List.mem_map.mp hline
    exact ⟨rfl, isLine_of_mem (hkept.subset hraw)⟩
  have hmerged : ∀ line ∈ merged, IsLine line.2 :=
    fun line hline => (hfrom line hline).elim And.right (hlines line)
  refine ⟨hunks, merged, hparse, ?_, hinter.oneLoose hkeptBreaks hbreaks,
    fun line hline => (hfrom line hline).imp_left And.left, ?_, ?_⟩
  · unfold mergedDiff
    rw [hparse]
    exact hmerge
  · have hlist : ∀ raw ∈ newView merged, IsLine raw := by
      intro raw hraw
      obtain ⟨line, hline, rfl⟩ := List.mem_map.mp hraw
      exact hmerged line (List.mem_filter.mp hline).1
    rw [hupdated, ← hnew, solidLines_flatten hlist, newView_solid, newView_lineDiff]
  · have hcontent : ∀ {raws : List (List Char)}, (∀ raw ∈ raws, IsLine raw) →
        (raws.map stripNewline).map content = raws.map content := by
      intro raws hraws
      rw [List.map_map]
      exact List.map_congr_left fun raw hraw => (hraws raw hraw).content_stripNewline
    have hsame : (oldView merged).map content = (rawLines original).map content := by
      rw [← hcontent fun raw hraw => ?_, ← hcontent fun _ => isLine_of_mem, hold]
      obtain ⟨line, hline, rfl⟩ := List.mem_map.mp hraw
      exact hmerged line (List.mem_filter.mp hline).1
    rw [oldView_solid, oldView_lineDiff, hsame]
    rfl

end PipeLens.Proof
