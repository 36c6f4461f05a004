import PipeLens.Lib.Program
import PipeLens.Patching

/-!
# What the policy scan sees of a patch

The policy is checked on the lines of a diff that `splitlines` finds, and there a line
that starts with `+++` or `---` counts as a header wherever it stands. `_parse_hunks`
reads the same text with another idea of where headers are: inside a hunk, such a line
is a change like any other. So a change can be hidden from the scan.

`ObeysPolicy` is the policy for the lines that `_parse_hunks` reads. `SeenThrough` says
that the lines the scan misses or misreads meet it too, and for a verified patch the
two are equivalent. The scan and the parser agree on all other lines, which is the
content of the lemmas in between.
-/

namespace PipeLens.Proof

open Text

variable {unicode : Unicode}

/-! ## The policy, as the parser reads the patch -/

/-- The lines with a marker, as `_parse_hunks` reads them. -/
def parsedLines (marker : Marker) (hunks : List Hunk) : List (List Char) :=
  ((hunks.flatMap Hunk.lines).filter fun line => line.1 = marker).map Prod.snd

def isHunkHeader (unicode : Unicode) (raw : List Char) : Bool :=
  (matchHunkHeader unicode (stripNewline raw)).isSome

/-- The lines before the first hunk. -/
def preamble (unicode : Unicode) (patch : List Char) : List (List Char) :=
  (rawLines patch).takeWhile fun raw => !isHunkHeader unicode raw

/-- The lines of the hunks, without their headers. -/
def hunkLines (unicode : Unicode) (patch : List Char) : List (List Char) :=
  ((rawLines patch).dropWhile fun raw => !isHunkHeader unicode raw).filter
    fun raw => !isHunkHeader unicode raw

/-- Whether the header lines of a diff name the file. -/
def namesFile (file : String) (line : List Char) : Bool :=
  if startsWith "diff --git" line then
    (allowedHeaders file).any fun old => (allowedHeaders file).any fun new =>
      String.ofList (strip (line.drop 10)) == old ++ " " ++ new
  else (allowedHeaders file).contains (headerName line)

/-- No pattern of the list matches the line. -/
def Clean (patterns : List (String × Regex)) (line : List Char) : Prop :=
  ∀ pattern ∈ patterns, pattern.2.search line = false

/-- The policy, for what `_parse_hunks` makes of the patch. -/
structure ObeysPolicy (unicode : Unicode) (file : String) (patch : List Char)
    (hunks : List Hunk) : Prop where
  few : (parsedLines .added hunks).length + (parsedLines .removed hunks).length ≤ maxChangedLines
  added : ∀ body ∈ parsedLines .added hunks,
    Clean (forbiddenAdditions unicode) (stripNewline body)
  workflow : startsWith workflowPrefix file.toList = true →
    ∀ body ∈ parsedLines .added hunks ++ parsedLines .removed hunks,
      Clean (workflowSensitive unicode) (stripNewline body)
  headers : ∀ raw ∈ preamble unicode patch,
    (isFileHeader raw || startsWith "diff --git" raw) = true →
      namesFile file (stripNewline raw) = true

/-! ## What the scan misses -/

/-- The scan takes the line for a header, or takes its break for the end of it. -/
def Misread (raw : List Char) : Prop := isFileHeader raw = true ∨ stripNewline raw ≠ content raw

/-- What the scan does not see of the patch is in order too. -/
structure SeenThrough (unicode : Unicode) (file : String) (patch : List Char) : Prop where
  few : (scannedChanged patch).length + ((hunkLines unicode patch).filter isFileHeader).length
    ≤ maxChangedLines
  added : ∀ raw ∈ hunkLines unicode patch, startsWith "+" raw = true → Misread raw →
    Clean (forbiddenAdditions unicode) ((stripNewline raw).drop 1)
  workflow : startsWith workflowPrefix file.toList = true →
    ∀ raw ∈ hunkLines unicode patch, (startsWith "+" raw || startsWith "-" raw) = true →
      Misread raw → Clean (workflowSensitive unicode) ((stripNewline raw).drop 1)
  headers : ∀ raw ∈ preamble unicode patch, startsWith "diff --git" raw = true →
    namesFile file (stripNewline raw) = true

/-! ## How lines start -/

theorem startsWith_content {start : String} (h : start.toList.any isBreak = false)
    (raw : List Char) : startsWith start (content raw) = startsWith start raw :=
  isPrefixOf_content (by simpa using h) raw

theorem startsWith_stripNewline {start : String} (h : start.toList.any isBreak = false)
    {raw : List Char} (hraw : IsLine raw) :
    startsWith start (stripNewline raw) = startsWith start raw :=
  hraw.isPrefixOf_stripNewline (by simpa using h)

theorem isFileHeader_content (raw : List Char) : isFileHeader (content raw) = isFileHeader raw := by
  unfold isFileHeader
  rw [startsWith_content (by decide), startsWith_content (by decide)]

theorem isFileHeader_stripNewline {raw : List Char} (hraw : IsLine raw) :
    isFileHeader (stripNewline raw) = isFileHeader raw := by
  unfold isFileHeader
  rw [startsWith_stripNewline (by decide) hraw, startsWith_stripNewline (by decide) hraw]

/-- A change starts with its marker. -/
theorem startsWith_singleton {c : Char} {start : String} (hc : start.toList = [c])
    (line : List Char) : startsWith start line = true ↔ ∃ rest, line = c :: rest := by
  unfold startsWith
  rw [hc]
  cases line with
  | nil => simp
  | cons d rest =>
      simp only [List.isPrefixOf, Bool.and_true, beq_iff_eq, List.cons.injEq]
      exact ⟨fun h => ⟨rest, h.symm, rfl⟩, fun ⟨_, h, _⟩ => h.symm⟩

theorem head_of_startsWith {c : Char} {cs : List Char} {start : String}
    (hc : start.toList = c :: cs) {line : List Char} (h : startsWith start line = true) :
    ∃ rest, line = c :: rest := by
  unfold startsWith at h
  rw [hc] at h
  cases line with
  | nil => exact nomatch h
  | cons d rest =>
      simp only [List.isPrefixOf, Bool.and_eq_true, beq_iff_eq] at h
      exact ⟨rest, by rw [h.1]⟩

/-! ## What the parser reads -/

/-- The sign of a marker. -/
def sign : Marker → String
  | .context => " "
  | .removed => "-"
  | .added => "+"

/-- What a line of a hunk is read as. -/
inductive ReadAs (raw : List Char) : Marker → List Char → Prop where
  | blank (h : stripNewline raw = []) : ReadAs raw .context ['\n']
  | signed {marker : Marker} (h : startsWith (sign marker) (stripNewline raw) = true) :
      ReadAs raw marker (raw.drop 1)

/-- What may stand before the first hunk. -/
def Introduces (raw : List Char) : Prop :=
  (isFileHeader (stripNewline raw) || startsWith "diff " (stripNewline raw)
    || startsWith "index " (stripNewline raw)) = true ∨ strip (stripNewline raw) = []

/-- **One line of `_parse_hunks`.** -/
theorem parseLine_cases {hunks hunks' : List Hunk} {raw : List Char}
    (h : parseLine unicode hunks raw = .ok hunks') :
    (isHunkHeader unicode raw = true ∧ ∃ oldStart, hunks' = ⟨oldStart, []⟩ :: hunks)
    ∨ (isHunkHeader unicode raw = false ∧ hunks = [] ∧ hunks' = [] ∧ Introduces raw)
    ∨ (isHunkHeader unicode raw = false ∧ ∃ current earlier, hunks = current :: earlier
      ∧ ((startsWith "\\" (stripNewline raw) = true ∧ hunks' = hunks)
        ∨ ∃ marker body, ReadAs raw marker body
          ∧ hunks' = current.snoc marker body :: earlier)) := by
  unfold parseLine at h
  unfold isHunkHeader
  dsimp only at h
  cases hheader : matchHunkHeader unicode (stripNewline raw) with
  | some digits =>
      rw [hheader] at h
      obtain ⟨oldStart, _, hok⟩ := Program.bind_eq_ok h
      exact Or.inl ⟨rfl, oldStart, (Except.ok.inj hok).symm⟩
  | none =>
      rw [hheader] at h
      cases hunks with
      | nil =>
          refine Or.inr (Or.inl ⟨rfl, rfl, ?_⟩)
          dsimp only at h
          split at h
          · rename_i hstart
            exact ⟨(Except.ok.inj h).symm, Or.inl hstart⟩
          · split at h
            · rename_i hblank
              exact ⟨(Except.ok.inj h).symm, Or.inr (List.isEmpty_iff.mp hblank)⟩
            · exact nomatch h
      | cons current earlier =>
          refine Or.inr (Or.inr ⟨rfl, current, earlier, rfl, ?_⟩)
          dsimp only at h
          split at h
          · rename_i hline
            exact Or.inr ⟨_, _, .blank hline, (Except.ok.inj h).symm⟩
          · rename_i rest hline
            exact Or.inl ⟨by rw [hline]; rfl, (Except.ok.inj h).symm⟩
          · rename_i rest hline
            exact Or.inr ⟨_, _, .signed (by rw [hline]; rfl), (Except.ok.inj h).symm⟩
          · rename_i rest hline
            exact Or.inr ⟨_, _, .signed (by rw [hline]; rfl), (Except.ok.inj h).symm⟩
          · rename_i rest hline
            exact Or.inr ⟨_, _, .signed (by rw [hline]; rfl), (Except.ok.inj h).symm⟩
          · exact nomatch h

theorem parsedLines_snoc (m marker : Marker) (current : Hunk) (earlier : List Hunk)
    (body : List Char) :
    parsedLines m (current.snoc marker body :: earlier).reverse
      = parsedLines m (current :: earlier).reverse ++ (if marker = m then [body] else []) := by
  unfold parsedLines Hunk.snoc
  simp only [List.reverse_cons, List.flatMap_append, List.flatMap_singleton, List.filter_append,
    List.map_append, List.append_assoc, List.append_cancel_left_eq]
  split
  · rename_i he
    simp [he]
  · rename_i hne
    simp [hne]

theorem parsedLines_begin (m : Marker) (oldStart : Nat) (hunks : List Hunk) :
    parsedLines m (⟨oldStart, []⟩ :: hunks).reverse = parsedLines m hunks.reverse := by
  unfold parsedLines
  simp

theorem sign_noBreak (m : Marker) : (sign m).toList.any isBreak = false := by
  cases m <;> decide

/-- A line has one sign at most. -/
theorem sign_unique {a b : Marker} {line : List Char} (ha : startsWith (sign a) line = true)
    (hb : startsWith (sign b) line = true) : a = b := by
  have hchar : ∀ m, startsWith (sign m) line = true →
      line.head? = some (match m with | .context => ' ' | .removed => '-' | .added => '+') := by
    intro m hm
    cases m with
    | context =>
        obtain ⟨rest, rfl⟩ := (startsWith_singleton rfl line).mp hm
        rfl
    | removed =>
        obtain ⟨rest, rfl⟩ := (startsWith_singleton rfl line).mp hm
        rfl
    | added =>
        obtain ⟨rest, rfl⟩ := (startsWith_singleton rfl line).mp hm
        rfl
  have heq := (hchar a ha).symm.trans (hchar b hb)
  revert heq
  cases a <;> cases b <;> decide

/-- A changed line is read as what its sign says. -/
theorem ReadAs.changed {raw body : List Char} {marker m : Marker} (h : ReadAs raw marker body)
    (hraw : IsLine raw) (hm : m ≠ .context) :
    (if marker = m then [body] else [])
      = ([raw].filter (startsWith (sign m))).map (List.drop 1) := by
  have hstart := startsWith_stripNewline (sign_noBreak m) hraw
  cases h with
  | blank hblank =>
      have hnot : startsWith (sign m) raw = false := by
        rw [← hstart, hblank]
        cases m <;> rfl
      simp [Ne.symm hm, hnot]
  | signed hsigned =>
      by_cases he : marker = m
      · subst he
        rw [hstart] at hsigned
        simp [hsigned]
      · have hnot : startsWith (sign m) raw = false := by
          rw [← hstart]
          cases hs : startsWith (sign m) (stripNewline raw) with
          | false => rfl
          | true => exact absurd (sign_unique hsigned hs) he
        simp [he, hnot]

/-- **The changes of the hunks**, once one has begun. -/
theorem parsedLines_foldlM {m : Marker} (hm : m ≠ .context) {raws : List (List Char)}
    {hunks hunks' : List Hunk} (hne : hunks ≠ []) (hlines : ∀ raw ∈ raws, IsLine raw)
    (h : raws.foldlM (parseLine unicode) hunks = .ok hunks') :
    parsedLines m hunks'.reverse = parsedLines m hunks.reverse
      ++ ((raws.filter fun raw => !isHunkHeader unicode raw).filter
        (startsWith (sign m))).map (List.drop 1) := by
  induction raws generalizing hunks with
  | nil =>
      rw [← Except.ok.inj h]
      simp
  | cons raw raws ih =>
      rw [List.foldlM_cons] at h
      obtain ⟨middle, hstep, hrest⟩ := Program.bind_eq_ok h
      have hraw := hlines raw List.mem_cons_self
      have hlines' := fun raw' h' => hlines raw' (List.mem_cons_of_mem raw h')
      rcases parseLine_cases hstep with ⟨hheader, oldStart, rfl⟩ | ⟨_, hnil, _⟩ |
        ⟨hheader, current, earlier, rfl, ⟨hback, rfl⟩ | ⟨marker, body, hread, rfl⟩⟩
      · rw [ih (List.cons_ne_nil _ _) hlines' hrest, parsedLines_begin]
        simp [hheader]
      · exact absurd hnil hne
      · -- a line such as `\ No newline at end of file` has another sign
        have hnot : startsWith (sign m) raw = false := by
          rw [← startsWith_stripNewline (sign_noBreak m) hraw]
          obtain ⟨rest, hrest⟩ := (startsWith_singleton rfl _).mp hback
          rw [hrest]
          cases m <;> rfl
        rw [ih hne hlines' hrest]
        simp [hheader, hnot]
      · rw [ih (List.cons_ne_nil _ _) hlines' hrest, parsedLines_snoc,
          hread.changed hraw hm, List.append_assoc, ← List.map_append, ← List.filter_append]
        simp [hheader]

/-- **The preamble, and the changes after it.** -/
theorem foldlM_parseLine {m : Marker} (hm : m ≠ .context) {raws : List (List Char)}
    {hunks : List Hunk} (hlines : ∀ raw ∈ raws, IsLine raw)
    (h : raws.foldlM (parseLine unicode) [] = .ok hunks) :
    (∀ raw ∈ raws.takeWhile fun raw => !isHunkHeader unicode raw, Introduces raw)
      ∧ parsedLines m hunks.reverse
        = (((raws.dropWhile fun raw => !isHunkHeader unicode raw).filter
          fun raw => !isHunkHeader unicode raw).filter (startsWith (sign m))).map (List.drop 1) := by
  induction raws with
  | nil =>
      rw [← Except.ok.inj h]
      exact ⟨fun _ hx => (nomatch hx), rfl⟩
  | cons raw raws ih =>
      rw [List.foldlM_cons] at h
      obtain ⟨middle, hstep, hrest⟩ := Program.bind_eq_ok h
      have hlines' := fun raw' h' => hlines raw' (List.mem_cons_of_mem raw h')
      rcases parseLine_cases hstep with ⟨hheader, oldStart, rfl⟩ | ⟨hheader, _, rfl, hintro⟩ |
        ⟨_, current, earlier, hcons, _⟩
      · have hparsed := parsedLines_foldlM hm (List.cons_ne_nil _ _) hlines' hrest
        rw [parsedLines_begin] at hparsed
        refine ⟨fun _ hx => ?_, ?_⟩
        · simp [hheader] at hx
        · rw [hparsed]
          simp [hheader, parsedLines]
      · obtain ⟨hpre, hparsed⟩ := ih hlines' hrest
        refine ⟨fun raw' hx => ?_, ?_⟩
        · rw [List.takeWhile_cons_of_pos (by simp [hheader])] at hx
          rcases List.mem_cons.mp hx with rfl | hx
          · exact hintro
          · exact hpre raw' hx
        · rw [hparsed, List.dropWhile_cons_of_pos (by simp [hheader])]
      · exact nomatch hcons

theorem parseHunks_spec {patch : List Char} {hunks : List Hunk}
    (h : parseHunks unicode patch = .ok hunks) :
    (∀ raw ∈ preamble unicode patch, Introduces raw)
      ∧ ∀ m ≠ Marker.context, parsedLines m hunks
        = ((hunkLines unicode patch).filter (startsWith (sign m))).map (List.drop 1) := by
  unfold parseHunks at h
  obtain ⟨hunks', hfold, hreturn⟩ := Program.bind_eq_ok h
  split at hreturn
  · exact nomatch hreturn
  · rw [← Except.ok.inj hreturn]
    have hlines : ∀ raw ∈ rawLines patch, IsLine raw := fun _ => isLine_of_mem
    have hadded : Marker.added ≠ .context := by decide
    exact ⟨(foldlM_parseLine hadded hlines hfold).1,
      fun m hm => (foldlM_parseLine hm hlines hfold).2⟩

/-! ## What the scan reads -/

/-- Added or removed. -/
def isSigned (line : List Char) : Bool := startsWith "+" line || startsWith "-" line

theorem isSigned_cases {line : List Char} (h : isSigned line = true) :
    ∃ m ≠ Marker.context, startsWith (sign m) line = true := by
  rcases Bool.or_eq_true _ _ ▸ h with h | h
  · exact ⟨.added, by decide, h⟩
  · exact ⟨.removed, by decide, h⟩

theorem not_isSigned_of_head {c : Char} (hplus : c ≠ '+') (hminus : c ≠ '-') (rest : List Char) :
    isSigned (c :: rest) = false := by
  have hother : ∀ {d : Char} {start : String}, start.toList = [d] → c ≠ d →
      startsWith start (c :: rest) = false := by
    intro d start hd hne
    unfold startsWith
    simp [hd, List.isPrefixOf, Ne.symm hne]
  unfold isSigned
  rw [hother rfl hplus, hother rfl hminus]
  rfl

theorem isSigned_of_isFileHeader {line : List Char} (h : isFileHeader line = true) :
    isSigned line = true := by
  unfold isSigned
  rcases Bool.or_eq_true _ _ ▸ h with h | h
  · obtain ⟨rest, hrest⟩ := head_of_startsWith rfl h
    have hplus : startsWith "+" line = true := (startsWith_singleton rfl line).mpr ⟨rest, hrest⟩
    rw [hplus, Bool.true_or]
  · obtain ⟨rest, hrest⟩ := head_of_startsWith rfl h
    have hminus : startsWith "-" line = true := (startsWith_singleton rfl line).mpr ⟨rest, hrest⟩
    rw [hminus, Bool.or_true]

theorem isSigned_stripNewline {raw : List Char} (hraw : IsLine raw) :
    isSigned (stripNewline raw) = isSigned raw := by
  unfold isSigned
  rw [startsWith_stripNewline (by decide) hraw, startsWith_stripNewline (by decide) hraw]

theorem head_of_matchHunkHeader {line : List Char}
    (h : (matchHunkHeader unicode line).isSome = true) : ∃ rest, line = '@' :: rest := by
  unfold matchHunkHeader Regex.matchStart hunkHeader at h
  cases line with
  | nil => simp [Regex.all, Regex.verbatim, Regex.run] at h
  | cons c rest =>
      by_cases hc : c = '@'
      · exact ⟨rest, by rw [hc]⟩
      · simp [Regex.all, Regex.verbatim, Regex.run, hc] at h

/-- A hunk header has no sign. -/
theorem not_isSigned_of_isHunkHeader {raw : List Char} (hraw : IsLine raw)
    (h : isHunkHeader unicode raw = true) : isSigned raw = false := by
  obtain ⟨rest, hrest⟩ := head_of_matchHunkHeader h
  rw [← isSigned_stripNewline hraw, hrest]
  exact not_isSigned_of_head (by decide) (by decide) rest

theorem not_isSigned_of_strip {line : List Char} (h : strip line = []) :
    isSigned line = false := by
  cases line with
  | nil => rfl
  | cons c rest =>
      have hspace : isSpace c = true := by
        cases hc : isSpace c with
        | true => rfl
        | false =>
            unfold strip at h
            rw [List.dropWhile_cons_of_neg (by simp [hc]), List.rdropWhile_eq_nil_iff] at h
            exact absurd (h c List.mem_cons_self) (by simp [hc])
      refine not_isSigned_of_head ?_ ?_ rest
      · rintro rfl
        exact absurd hspace (by decide)
      · rintro rfl
        exact absurd hspace (by decide)

/-- Nor has what introduces the hunks, file headers apart. -/
theorem Introduces.not_changed {raw : List Char} (hraw : IsLine raw) (h : Introduces raw) :
    (isSigned raw && !isFileHeader raw) = false := by
  rw [← isSigned_stripNewline hraw, ← isFileHeader_stripNewline hraw]
  rcases h with h | h
  · simp only [Bool.or_eq_true] at h
    rcases h with (h | h) | h
    · simp [h]
    · obtain ⟨rest, hrest⟩ := head_of_startsWith rfl h
      rw [hrest, not_isSigned_of_head (by decide) (by decide)]
      rfl
    · obtain ⟨rest, hrest⟩ := head_of_startsWith rfl h
      rw [hrest, not_isSigned_of_head (by decide) (by decide)]
      rfl
  · rw [not_isSigned_of_strip h]
    rfl

/-- **The lines that the scan takes for changes** are those of the hunks that do not look
like file headers. -/
theorem scanned_filter {patch : List Char} (hpre : ∀ raw ∈ preamble unicode patch, Introduces raw)
    {q : List Char → Bool} (hcontent : ∀ raw, q (content raw) = q raw)
    (hsigned : ∀ line, q line = true → isSigned line = true) :
    (scannedLines patch).filter q
      = ((hunkLines unicode patch).filter fun raw => q raw && !isFileHeader raw).map content := by
  have hlines : ∀ raw ∈ rawLines patch, IsLine raw := fun _ => isLine_of_mem
  have hq : ∀ raw, isSigned raw = false → q raw = false := by
    intro raw h
    cases hqr : q raw with
    | false => rfl
    | true => exact absurd ((hsigned raw hqr).symm.trans h) (by decide)
  have hall : (scannedLines patch).filter q
      = ((rawLines patch).filter fun raw => q raw && !isFileHeader raw).map content := by
    unfold scannedLines splitlines
    rw [List.filter_filter, List.filter_map]
    congr 2
    funext raw
    simp only [Function.comp_apply, hcontent, isFileHeader_content]
  rw [hall]
  congr 1
  unfold hunkLines
  rw [List.filter_filter]
  nth_rewrite 1 [← List.takeWhile_append_dropWhile (p := fun raw => !isHunkHeader unicode raw)
    (l := rawLines patch)]
  rw [List.filter_append, List.filter_eq_nil_iff.mpr, List.nil_append]
  · refine List.filter_congr fun raw hmem => ?_
    have hraw := hlines raw ((List.dropWhile_suffix _).subset hmem)
    cases hheader : isHunkHeader unicode raw with
    | false => simp
    | true => simp [hq raw (not_isSigned_of_isHunkHeader hraw hheader)]
  · intro raw hmem hP
    have hraw := hlines raw ((List.takeWhile_prefix _).subset hmem)
    have hnot := (hpre raw hmem).not_changed hraw
    simp only [Bool.and_eq_true] at hP
    rw [hsigned raw hP.1, hP.2] at hnot
    exact nomatch hnot

/-- Each change is one that the scan sees or one that it takes for a file header. -/
theorem changed_count (raws : List (List Char)) :
    (raws.filter (startsWith "+")).length + (raws.filter (startsWith "-")).length
      = (raws.filter fun raw => isSigned raw && !isFileHeader raw).length
        + (raws.filter isFileHeader).length := by
  induction raws with
  | nil => rfl
  | cons raw raws ih =>
      have hone : ¬ (startsWith "+" raw = true ∧ startsWith "-" raw = true) := fun h =>
        absurd (sign_unique (a := .added) (b := .removed) h.1 h.2) (by decide)
      have hheader : isFileHeader raw = true → isSigned raw = true := isSigned_of_isFileHeader
      unfold isSigned at ih hheader ⊢
      simp only [List.filter_cons]
      revert hone hheader ih
      cases startsWith "+" raw <;> cases startsWith "-" raw <;> cases isFileHeader raw <;>
        simp <;> omega

/-! ## Verified suggestions -/

theorem firstMatch_eq_none {patterns : List (String × Regex)} {lines : List (List Char)}
    (h : firstMatch patterns lines = none) : ∀ line ∈ lines, Clean patterns line := by
  unfold firstMatch at h
  rw [Option.map_eq_none_iff, List.find?_eq_none] at h
  intro line hline pattern hpattern
  have hnot := h pattern hpattern
  rw [Bool.not_eq_true, List.any_eq_false] at hnot
  simpa using hnot line hline

/-- What a patch has passed when `_patch_rejection` has no objection. -/
structure Accepted (env : PatchEnvironment) (files : List (String × String)) (file : String)
    (patch : List Char) : Prop where
  few : (scannedChanged patch).length ≤ maxChangedLines
  headers : ∀ line ∈ (splitlines patch).filter isFileHeader,
    (allowedHeaders file).contains (headerName line) = true
  added : ∀ line ∈ scannedAdded patch, Clean (forbiddenAdditions env.unicode) line
  workflow : startsWith workflowPrefix file.toList = true →
    ∀ line ∈ scannedAdded patch ++ scannedRemoved patch,
      Clean (workflowSensitive env.unicode) line
  applies : ∃ content updated, files.lookup file = some content
    ∧ applyUnifiedDiff env.unicode content.toList patch = .ok updated

theorem accepted_of_patchRejection {env : PatchEnvironment} {suggestion : Suggestion}
    {files : List (String × String)} (h : patchRejection env suggestion files = .ok none) :
    Accepted env files (suggestion.file.getD "") (suggestion.patch.getD "").toList := by
  unfold patchRejection at h
  dsimp only at h
  split at h
  · exact nomatch h
  rename_i content hcontent
  have hlookup : files.lookup (suggestion.file.getD "") = some content := by
    split at hcontent
    · exact nomatch hcontent
    · exact hcontent
  split at h
  · exact nomatch h
  split at h
  · exact nomatch h
  rename_i hfew
  split at h
  · exact nomatch h
  rename_i hheaders
  split at h
  · exact nomatch h
  split at h
  · exact nomatch h
  rename_i hpolicy
  have happlies : ∃ updated, applyUnifiedDiff env.unicode content.toList
      (suggestion.patch.getD "").toList = .ok updated := by
    split at h
    · exact nomatch h
    · exact nomatch h
    · rename_i updated happly
      exact ⟨updated, happly⟩
  obtain ⟨updated, happly⟩ := happlies
  unfold policyViolation at hpolicy
  dsimp only at hpolicy
  split at hpolicy
  · exact nomatch hpolicy
  split at hpolicy
  · exact nomatch hpolicy
  rename_i hadded
  refine ⟨?_, ?_, firstMatch_eq_none hadded, ?_, content, updated, hlookup, happly⟩
  · push Not at hfew
    exact hfew.2
  · intro line hline
    rw [Bool.not_eq_true, List.any_eq_false] at hheaders
    simpa using hheaders _ (List.mem_map_of_mem hline)
  · intro hfile
    rw [if_pos hfile] at hpolicy
    exact firstMatch_eq_none hpolicy

/-- **What verification returns**: a patch in the result was accepted, and is marked so. -/
theorem verified_cases {env : PatchEnvironment} {files : List (String × String)}
    {suggestions : List Suggestion} {v v' : Verification}
    (h : suggestions.foldlM (verifySuggestion env files) v = .ok v') {s : Suggestion}
    (hs : s ∈ v'.suggestions) :
    s ∈ v.suggestions ∨ s.patch.getD "" = ""
      ∨ (s.patchVerified = true
        ∧ Accepted env files (s.file.getD "") (s.patch.getD "").toList) := by
  induction suggestions generalizing v with
  | nil =>
      rw [← Except.ok.inj h] at hs
      exact Or.inl hs
  | cons suggestion suggestions ih =>
      rw [List.foldlM_cons] at h
      obtain ⟨middle, hstep, hrest⟩ := Program.bind_eq_ok h
      rcases ih hrest with hmem | hcase
      · unfold verifySuggestion at hstep
        split at hstep
        · rename_i hpatch
          rw [← Except.ok.inj hstep] at hmem
          rcases List.mem_append.mp hmem with hmem | hmem
          · exact Or.inl hmem
          · rw [List.mem_singleton.mp hmem]
            exact Or.inr (Or.inl hpatch)
        · obtain ⟨rejection, hrejection, hreturn⟩ := Program.bind_eq_ok hstep
          cases rejection with
          | none =>
              rw [← Except.ok.inj hreturn] at hmem
              rcases List.mem_append.mp hmem with hmem | hmem
              · exact Or.inl hmem
              · rw [List.mem_singleton.mp hmem]
                exact Or.inr (Or.inr ⟨rfl, accepted_of_patchRejection hrejection⟩)
          | some rejection =>
              rw [← Except.ok.inj hreturn] at hmem
              rcases List.mem_append.mp hmem with hmem | hmem
              · exact Or.inl hmem
              · rw [List.mem_singleton.mp hmem]
                exact Or.inr (Or.inl rfl)
      · exact Or.inr hcase

theorem accepted_of_verified {env : PatchEnvironment} {files : List (String × String)}
    {diagnosis result : Diagnosis} {outcomes : List ((String × String) × Nat)}
    (h : verifyPatchSuggestions env diagnosis files = .ok (result, outcomes)) {s : Suggestion}
    (hs : s ∈ result.suggestions) {patch : String} (hpatch : s.patch = some patch)
    (hne : patch ≠ "") :
    s.patchVerified = true ∧ Accepted env files (s.file.getD "") patch.toList := by
  unfold verifyPatchSuggestions at h
  obtain ⟨v, hfold, hreturn⟩ := Program.bind_eq_ok h
  obtain ⟨rfl, rfl⟩ := Prod.mk.inj (Except.ok.inj hreturn)
  rcases verified_cases hfold hs with hmem | hempty | haccepted
  · exact nomatch hmem
  · rw [hpatch] at hempty
    exact absurd hempty hne
  · rw [hpatch] at haccepted
    exact haccepted

/-! ## The result -/

/-- The text of a change is its line without the sign. -/
theorem stripNewline_drop {m : Marker} {raw : List Char} (h : startsWith (sign m) raw = true) :
    stripNewline (raw.drop 1) = (stripNewline raw).drop 1 := by
  cases m <;>
  · obtain ⟨rest, rfl⟩ := head_of_startsWith rfl h
    rw [stripNewline_cons (by decide)]
    rfl

theorem headerName_stripNewline {raw : List Char} (hraw : IsLine raw) :
    headerName (stripNewline raw) = headerName (content raw) := by
  unfold headerName
  rcases hraw.stripNewline_cases with he | ⟨c, hc, _, he⟩
  · rw [he]
  · rw [he, List.drop_append]
    congr 1
    cases 4 - (content raw).length with
    | zero => exact strip_concat_space (isSpace_of_isBreak hc) _
    | succ n => simp

/-- A change that the scan does not take for a header. -/
theorem mem_scanned {patch : List Char} (hpre : ∀ raw ∈ preamble unicode patch, Introduces raw)
    {m : Marker} (hm : m ≠ .context) {raw : List Char} (hraw : raw ∈ hunkLines unicode patch)
    (hsign : startsWith (sign m) raw = true) (hheader : isFileHeader raw = false) :
    (content raw).drop 1 ∈ ((scannedLines patch).filter (startsWith (sign m))).map (List.drop 1) := by
  have hsigned : ∀ line, startsWith (sign m) line = true → isSigned line = true := by
    intro line h
    unfold isSigned
    cases m with
    | context => exact absurd rfl hm
    | removed => rw [show startsWith "-" line = true from h, Bool.or_true]
    | added => rw [show startsWith "+" line = true from h, Bool.true_or]
  rw [scanned_filter hpre (startsWith_content (sign_noBreak m)) hsigned]
  refine List.mem_map_of_mem (List.mem_map_of_mem (List.mem_filter.mpr ⟨hraw, ?_⟩))
  rw [hsign, hheader]
  rfl

theorem mem_parsedLines {m : Marker} {patch : List Char} {hunks : List Hunk}
    (hparsed : parsedLines m hunks
      = ((hunkLines unicode patch).filter (startsWith (sign m))).map (List.drop 1))
    {body : List Char} :
    body ∈ parsedLines m hunks
      ↔ ∃ raw ∈ hunkLines unicode patch, startsWith (sign m) raw = true ∧ raw.drop 1 = body := by
  rw [hparsed]
  simp [and_assoc]

/-- **Where the scan and the parser part.** -/
theorem obeysPolicy_iff {env : PatchEnvironment} {files : List (String × String)} {file : String}
    {patch : List Char} {hunks : List Hunk} (haccepted : Accepted env files file patch)
    (hparse : parseHunks env.unicode patch = .ok hunks) :
    ObeysPolicy env.unicode file patch hunks ↔ SeenThrough env.unicode file patch := by
  obtain ⟨hpre, hparsed⟩ := parseHunks_spec hparse
  have hadded := hparsed .added (by decide)
  have hremoved := hparsed .removed (by decide)
  have hcount : (parsedLines .added hunks).length + (parsedLines .removed hunks).length
      = (scannedChanged patch).length
        + ((hunkLines env.unicode patch).filter isFileHeader).length := by
    have hscanned := scanned_filter hpre (q := isSigned) (fun raw => by
      unfold isSigned
      rw [startsWith_content (by decide), startsWith_content (by decide)]) fun _ => id
    rw [hadded, hremoved, List.length_map, List.length_map]
    refine (changed_count _).trans ?_
    rw [show scannedChanged patch = (scannedLines patch).filter isSigned from rfl, hscanned,
      List.length_map]
  -- a change of either sign, and what it takes for its text to be clean
  have hclean : ∀ {m : Marker}, m ≠ .context → ∀ {patterns : List (String × Regex)},
      (∀ line ∈ ((scannedLines patch).filter (startsWith (sign m))).map (List.drop 1),
        Clean patterns line) →
      (∀ raw ∈ hunkLines env.unicode patch, startsWith (sign m) raw = true → Misread raw →
        Clean patterns ((stripNewline raw).drop 1)) →
      ∀ body ∈ parsedLines m hunks, Clean patterns (stripNewline body) := by
    intro m hm patterns hscan hmissed body hbody
    obtain ⟨raw, hraw, hsign, rfl⟩ := (mem_parsedLines (hparsed m hm)).mp hbody
    rw [stripNewline_drop hsign]
    by_cases hread : Misread raw
    · exact hmissed raw hraw hsign hread
    · unfold Misread at hread
      push Not at hread
      rw [hread.2]
      exact hscan _ (mem_scanned hpre hm hraw hsign (by simpa using hread.1))
  constructor
  · intro hobeys
    refine ⟨hcount ▸ hobeys.few, ?_, ?_, fun raw hraw h => hobeys.headers raw hraw (by simp [h])⟩
    · intro raw hraw hsign _
      rw [← stripNewline_drop (m := .added) hsign]
      exact hobeys.added _ ((mem_parsedLines hadded).mpr ⟨raw, hraw, hsign, rfl⟩)
    · intro hfile raw hraw hsigned _
      obtain ⟨m, hm, hsign⟩ := isSigned_cases hsigned
      rw [← stripNewline_drop hsign]
      refine hobeys.workflow hfile _ (List.mem_append.mpr ?_)
      cases m with
      | context => exact absurd rfl hm
      | removed => exact Or.inr ((mem_parsedLines hremoved).mpr ⟨raw, hraw, hsign, rfl⟩)
      | added => exact Or.inl ((mem_parsedLines hadded).mpr ⟨raw, hraw, hsign, rfl⟩)
  · intro hseen
    refine ⟨hcount ▸ hseen.few, hclean (by decide) haccepted.added hseen.added, ?_, ?_⟩
    · intro hfile body hbody
      have hscan := haccepted.workflow hfile
      rcases List.mem_append.mp hbody with hbody | hbody
      · refine hclean (m := .added) (by decide)
          (fun line h => hscan line (List.mem_append_left _ h)) (fun raw hraw hsign => ?_) body hbody
        exact hseen.workflow hfile raw hraw (by rw [show startsWith "+" raw = true from hsign]; rfl)
      · refine hclean (m := .removed) (by decide)
          (fun line h => hscan line (List.mem_append_right _ h)) (fun raw hraw hsign => ?_) body hbody
        exact hseen.workflow hfile raw hraw
          (by rw [show startsWith "-" raw = true from hsign, Bool.or_true])
    · intro raw hmem hheader
      have hraw : IsLine raw := isLine_of_mem ((List.takeWhile_prefix _).subset hmem)
      cases hgit : startsWith "diff --git" raw with
      | true => exact hseen.headers raw hmem hgit
      | false =>
          rw [hgit, Bool.or_false] at hheader
          unfold namesFile
          rw [startsWith_stripNewline (by decide) hraw, hgit, if_neg (by decide),
            headerName_stripNewline hraw]
          refine haccepted.headers _ (List.mem_filter.mpr ⟨?_, ?_⟩)
          · exact List.mem_map_of_mem ((List.takeWhile_prefix _).subset hmem)
          · rw [isFileHeader_content]
            exact hheader

/-- **A verified patch obeys the policy exactly if what the scan misses does.** -/
theorem verified_obeys_iff (env : PatchEnvironment) (diagnosis result : Diagnosis)
    (files : List (String × String)) (outcomes : List ((String × String) × Nat))
    (h : verifyPatchSuggestions env diagnosis files = .ok (result, outcomes)) (s : Suggestion)
    (hs : s ∈ result.suggestions) (patch : String) (hpatch : s.patch = some patch)
    (hne : patch ≠ "") :
    s.patchVerified = true ∧ ∃ hunks, parseHunks env.unicode patch.toList = .ok hunks
      ∧ (ObeysPolicy env.unicode (s.file.getD "") patch.toList hunks
        ↔ SeenThrough env.unicode (s.file.getD "") patch.toList) := by
  obtain ⟨hverified, haccepted⟩ := accepted_of_verified h hs hpatch hne
  obtain ⟨content, updated, _, happly⟩ := haccepted.applies
  obtain ⟨hunks, hparse, _⟩ := Program.bind_eq_ok happly
  exact ⟨hverified, hunks, hparse, obeysPolicy_iff haccepted hparse⟩

instance (patterns : List (String × Regex)) (line : List Char) :
    Decidable (Clean patterns line) :=
  inferInstanceAs (Decidable (∀ pattern ∈ patterns, pattern.2.search line = false))

instance (raw : List Char) : Decidable (Misread raw) :=
  inferInstanceAs (Decidable (_ ∨ _))

/-- The tables for ASCII, and parsers that find nothing to complain about. -/
def asciiEnvironment : PatchEnvironment where
  unicode :=
    { isAlnum := Char.isAlphanum
      decimal := fun c => if c.isDigit then some (c.toNat - '0'.toNat) else none }
  redacts := fun _ => false
  parse := fun _ _ => .parsed

/-- A diagnosis with one suggestion of the language model. -/
def suggesting (file patch : String) : Diagnosis :=
  { summary := "s", rootCause := "r", confidence := 9 / 10
    evidence := [{ source := "log", content := "e" }]
    suggestions := [{ description := "d", file := some file, patch := some patch
                      source := some .llm }] }

def guidePatch : String :=
  "--- a/docs/guide.md\n+++ b/docs/guide.md\n@@ -1 +1,2 @@\n hello\n+world\n"

theorem verified_obeys_guide :
    ∃ hunks, parseHunks asciiEnvironment.unicode guidePatch.toList = .ok hunks
      ∧ ObeysPolicy asciiEnvironment.unicode "docs/guide.md" guidePatch.toList hunks := by
  have hverify : verifyPatchSuggestions asciiEnvironment (suggesting "docs/guide.md" guidePatch)
      [("docs/guide.md", "hello\n")]
      = .ok ({ suggesting "docs/guide.md" guidePatch with
          suggestions := [{ description := "d", file := some "docs/guide.md"
                            patch := some guidePatch, source := some .llm
                            patchVerified := true }] }, [(("llm", "verified"), 1)]) := by
    decide +kernel
  obtain ⟨_, hunks, hparse, hiff⟩ := verified_obeys_iff asciiEnvironment _ _ _ _ hverify _
    List.mem_cons_self guidePatch rfl (by decide)
  refine ⟨hunks, hparse, hiff.mpr ⟨?_, ?_, ?_, ?_⟩⟩
  · decide +kernel
  · decide +kernel
  · decide +kernel
  · decide +kernel

/-- A file whose name has the word `eval` in it, and a patch that adds this name to it. -/
def hiddenPatch : String :=
  "diff --git a/setup.py b/setup.py\n--- a/docs/eval guide.md\n+++ b/docs/eval guide.md\n" ++
    "@@ -1 +1,3 @@\n hello\n+world\n+++ docs/eval guide.md\n"

/-- The scan takes the last line for a header and never looks at the first one. -/
theorem hidden_change :
    ∃ result outcomes s hunks,
      verifyPatchSuggestions asciiEnvironment (suggesting "docs/eval guide.md" hiddenPatch)
        [("docs/eval guide.md", "hello\n")] = .ok (result, outcomes)
      ∧ s ∈ result.suggestions ∧ s.patchVerified = true ∧ s.patch = some hiddenPatch
      ∧ parseHunks asciiEnvironment.unicode hiddenPatch.toList = .ok hunks
      ∧ (∃ body ∈ parsedLines .added hunks,
        ¬ Clean (forbiddenAdditions asciiEnvironment.unicode) (stripNewline body))
      ∧ (∃ raw ∈ preamble asciiEnvironment.unicode hiddenPatch.toList,
        startsWith "diff --git" raw = true
          ∧ namesFile "docs/eval guide.md" (stripNewline raw) = false)
      ∧ ¬ ObeysPolicy asciiEnvironment.unicode "docs/eval guide.md" hiddenPatch.toList hunks := by
  have hbody : ¬ Clean (forbiddenAdditions asciiEnvironment.unicode)
      (stripNewline "++ docs/eval guide.md\n".toList) := by decide +kernel
  have hmem : "++ docs/eval guide.md\n".toList ∈ parsedLines .added
      [⟨1, [(.context, "hello\n".toList), (.added, "world\n".toList),
        (.added, "++ docs/eval guide.md\n".toList)]⟩] := by decide +kernel
  refine ⟨{ suggesting "docs/eval guide.md" hiddenPatch with
      suggestions := [{ description := "d", file := some "docs/eval guide.md"
                        patch := some hiddenPatch, source := some .llm
                        patchVerified := true }] }, [(("llm", "verified"), 1)], _,
    [⟨1, [(.context, "hello\n".toList), (.added, "world\n".toList),
      (.added, "++ docs/eval guide.md\n".toList)]⟩],
    by decide +kernel, List.mem_cons_self, rfl, rfl, by decide +kernel, ⟨_, hmem, hbody⟩,
    by decide +kernel, fun hobeys => hbody (hobeys.added _ hmem)⟩

end PipeLens.Proof
