import PipeLens.Proof.HunkPlacement
import PipeLens.Proof.RoundTrip

/-!
# When a line of a diff runs into the next

`unified_diff` writes a line without a break as it is, and `render_unified_diff` joins the
lines with nothing between them. So the last line of a file that has no break runs into
the next line of the diff, if there is one: the two are read as one line, and the sign of the
second becomes a character of it.

Such a diff may still apply, at a place that was not meant, but never with the result that was
meant. The argument counts characters, newlines left out: an application takes away
what the removed lines weigh and adds what the added lines weigh, wherever it happens,
and a line that changes sides changes this balance.
-/

namespace PipeLens.Proof

open Text

variable {unicode : Unicode}

/-! ## Weights -/

/-- The characters of a text, without its newlines. -/
def weight (text : List Char) : Nat := text.countP fun c => !isNewline c

theorem weight_append (xs ys : List Char) : weight (xs ++ ys) = weight xs + weight ys :=
  List.countP_append

theorem weight_cons {c : Char} (h : isNewline c = false) (text : List Char) :
    weight (c :: text) = weight text + 1 := by
  unfold weight
  rw [List.countP_cons_of_pos (by simp [h])]

theorem weight_stripNewline (text : List Char) : weight (stripNewline text) = weight text := by
  unfold stripNewline
  induction text using List.reverseRecOn with
  | nil => rfl
  | append_singleton text c ih =>
      cases hc : isNewline c with
      | true =>
          rw [List.rdropWhile_concat_pos _ _ _ hc, ih, weight_append]
          simp [weight, hc]
      | false => rw [List.rdropWhile_concat_neg _ _ _ (by simp [hc])]

/-- What lines weigh together. -/
def weights (raws : List (List Char)) : Nat := (raws.map weight).sum

@[simp] theorem weights_nil : weights [] = 0 := rfl

@[simp] theorem weights_cons (raw : List Char) (raws : List (List Char)) :
    weights (raw :: raws) = weight raw + weights raws := by
  simp [weights]

@[simp] theorem weights_append (xs ys : List (List Char)) :
    weights (xs ++ ys) = weights xs + weights ys := by
  simp [weights]

theorem weight_flatten (raws : List (List Char)) : weight raws.flatten = weights raws := by
  induction raws with
  | nil => rfl
  | cons raw raws ih => rw [List.flatten_cons, weight_append, ih, weights_cons]

theorem weights_congr {xs ys : List (List Char)}
    (h : xs.map stripNewline = ys.map stripNewline) : weights xs = weights ys := by
  have hstrip : ∀ raws : List (List Char), weights raws = weights (raws.map stripNewline) := by
    intro raws
    unfold weights
    rw [List.map_map]
    exact congrArg List.sum (List.map_congr_left fun raw _ => (weight_stripNewline raw).symm)
  rw [hstrip xs, h, ← hstrip ys]

/-! ## The balance of an application -/

/-- The lines with a marker. -/
def marked (m : Marker) (lines : List (Marker × List Char)) : List (List Char) :=
  (lines.filter fun line => line.1 = m).map Prod.snd

theorem marked_append (m : Marker) (xs ys : List (Marker × List Char)) :
    marked m (xs ++ ys) = marked m xs ++ marked m ys := by
  simp [marked]

/-- The two views share the context. -/
theorem weights_views (lines : List (Marker × List Char)) :
    weights (newView lines) + weights (marked .removed lines)
      = weights (oldView lines) + weights (marked .added lines) := by
  induction lines with
  | nil => rfl
  | cons line lines ih =>
      obtain ⟨m, raw⟩ := line
      cases m with
      | context =>
          show weights (raw :: newView lines) + weights (marked .removed lines)
            = weights (raw :: oldView lines) + weights (marked .added lines)
          rw [weights_cons, weights_cons]
          omega
      | removed =>
          show weights (newView lines) + weights (raw :: marked .removed lines)
            = weights (raw :: oldView lines) + weights (marked .added lines)
          rw [weights_cons, weights_cons]
          omega
      | added =>
          show weights (raw :: newView lines) + weights (marked .removed lines)
            = weights (oldView lines) + weights (raw :: marked .added lines)
          rw [weights_cons, weights_cons]
          omega

/-- **The balance**: what an application takes away and what it adds. -/
theorem weight_apply {original patch result : List Char}
    (h : applyUnifiedDiff unicode original patch = .ok result) :
    ∃ hunks, parseHunks unicode patch = .ok hunks
      ∧ weight result + weights (parsedLines .removed hunks)
        = weight original + weights (parsedLines .added hunks) := by
  obtain ⟨hunks, hparse, h⟩ := Program.bind_eq_ok h
  obtain ⟨lines, happly, h⟩ := Program.bind_eq_ok h
  obtain ⟨segments, tail, hcut, hresult⟩ := applyHunks_cut happly
  have horiginal : rawLines original = oldSide segments ++ tail := by
    have hlines := hcut.lines_eq
    rwa [Nat.zero_min, List.drop_zero] at hlines
  have hbalance : ∀ segments : List Segment,
      (∀ segment ∈ segments,
        segment.window.map stripNewline = segment.hunk.oldLines.map stripNewline) →
      weights (newSide segments) + weights (parsedLines .removed (segments.map Segment.hunk))
        = weights (oldSide segments)
          + weights (parsedLines .added (segments.map Segment.hunk)) := by
    intro segments hwindows
    induction segments with
    | nil => rfl
    | cons segment segments ih =>
        obtain ⟨hwindow, hwindows⟩ := List.forall_mem_cons.mp hwindows
        have hrest := ih hwindows
        have hhere := weights_views segment.hunk.lines
        have hsame : weights segment.window = weights (oldView segment.hunk.lines) :=
          weights_congr hwindow
        have hnew : weights segment.hunk.newLines = weights (newView segment.hunk.lines) := rfl
        have hparsed : ∀ m, parsedLines m ((segment :: segments).map Segment.hunk)
            = marked m segment.hunk.lines ++ parsedLines m (segments.map Segment.hunk) := by
          intro m
          simp [parsedLines, marked]
        rw [hparsed, hparsed, newSide_cons, oldSide_cons]
        simp only [weights_append]
        omega
  refine ⟨hunks, hparse, ?_⟩
  have hall := hbalance segments hcut.window_eq
  rw [hcut.hunks_eq] at hall
  rw [← Except.ok.inj h, weight_flatten, hresult, ← flatten_rawLines original, weight_flatten,
    horiginal]
  simp only [weights_append]
  omega

/-! ## The lines of a hunk, by their signs -/

/-- What the lines with a sign weigh, without it. -/
def signedWeights (m : Marker) (raws : List (List Char)) : Nat :=
  weights ((raws.filter (startsWith (sign m))).map (List.drop 1))

theorem signedWeights_append (m : Marker) (xs ys : List (List Char)) :
    signedWeights m (xs ++ ys) = signedWeights m xs + signedWeights m ys := by
  simp [signedWeights]

theorem startsWith_sign (m m' : Marker) (raw : List Char) :
    startsWith (sign m) (m'.symbol :: raw) = decide (m' = m) := by
  cases m <;> cases m' <;> rfl

theorem signedWeights_symbols (m : Marker) (lines : List (Marker × List Char)) :
    signedWeights m (lines.map fun line => line.1.symbol :: line.2)
      = weights (marked m lines) := by
  induction lines with
  | nil => rfl
  | cons line lines ih =>
      unfold signedWeights marked at ih ⊢
      rw [List.map_cons, List.filter_cons, List.filter_cons, startsWith_sign]
      by_cases hm : line.1 = m
      · simp [hm, ih]
      · simp [hm, ih]

/-- A header has no sign. -/
theorem signedWeights_header (m : Marker) (rest : List Char) (raws : List (List Char)) :
    signedWeights m (('@' :: rest) :: raws) = signedWeights m raws := by
  have hheader : startsWith (sign m) ('@' :: rest) = false := by cases m <;> rfl
  unfold signedWeights
  rw [List.filter_cons, hheader]
  rfl

theorem signedWeights_render (m : Marker) (group : OpcodeGroup) :
    signedWeights m group.render = weights (marked m group.lines) := by
  rw [← signedWeights_symbols]
  exact signedWeights_header m _ _

theorem signedWeights_groups (m : Marker) (groups : List OpcodeGroup) :
    signedWeights m (groups.flatMap OpcodeGroup.render)
      = weights (marked m (groups.flatMap OpcodeGroup.lines)) := by
  induction groups with
  | nil => rfl
  | cons group groups ih =>
      rw [List.flatMap_cons, List.flatMap_cons, signedWeights_append, signedWeights_render, ih,
        marked_append, weights_append]

/-- All changes are shown. -/
theorem marked_groupedOpcodes {m : Marker} (hm : m ≠ .context) {n : Nat} (hn : 1 ≤ n)
    (before after : List (Marker × List Char)) :
    marked m ((groupedOpcodes n before after).flatMap OpcodeGroup.lines) = marked m after := by
  induction before, after using groupedOpcodes_induction (n := n) with
  | nil before => rfl
  | skip before line after hhidden ih =>
      have hcontext := (context_of_not_shown hn hhidden).1
      rw [ih]
      unfold marked
      rw [List.filter_cons, hcontext, if_neg (by simpa using Ne.symm hm)]
  | hunk before line body rest _ ih =>
      rw [List.flatMap_cons, marked_append, marked_append, ih]

/-! ## The glued line -/

/-- Removed for added, and the other way round. -/
def opposite : Marker → Marker
  | .context => .context
  | .removed => .added
  | .added => .removed

theorem opposite_ne {m : Marker} (h : m ≠ .context) : opposite m ≠ m ∧ opposite m ≠ .context := by
  revert h
  cases m <;> decide

/-- The place where a line of the script runs into the next. What comes after it is on the
other side, because a file has one line without a break at most. -/
structure Glue (script before : List (Marker × List Char)) (line next : Marker × List Char)
    (after : List (Marker × List Char)) : Prop where
  split : script = before ++ line :: next :: after
  changed : line.1 ≠ .context
  glued : content line.2 = line.2
  breaks : ∀ l ∈ before, content l.2 ≠ l.2
  others : ∀ l ∈ next :: after, l.1 = opposite line.1
  later : ∀ l ∈ (next :: after).dropLast, content l.2 ≠ l.2

/-- Of two lines that one file has, the first has a break. -/
theorem break_of_view {m : Marker} {script before after : List (Marker × List Char)}
    {line other : Marker × List Char}
    (hview : ((script.filter fun l => l.1 ≠ m).map Prod.snd).Pairwise
      fun raw _ => content raw ≠ raw)
    (hsplit : script = before ++ line :: after) (hline : line.1 ≠ m) (hother : other ∈ after)
    (hm : other.1 ≠ m) : content line.2 ≠ line.2 := by
  rw [hsplit, List.filter_append, List.map_append, List.filter_cons_of_pos (by simpa using hline),
    List.map_cons] at hview
  have htail := (List.pairwise_append.mp hview).2.1
  refine (List.pairwise_cons.mp htail).1 other.2 ?_
  exact List.mem_map_of_mem (List.mem_filter.mpr ⟨hother, by simpa using hm⟩)

theorem exists_glue {script : List (Marker × List Char)} {original updated : List Char}
    (hold : oldView script = rawLines original) (hnew : newView script = rawLines updated)
    (h : ¬ Unglued script) : ∃ before line next after, Glue script before line next after := by
  unfold Unglued at h
  push Not at h
  obtain ⟨line, hline, hglued⟩ := h
  obtain ⟨before, middle, hmiddle⟩ := List.append_of_mem hline
  have hne : script ≠ [] := by
    intro hnone
    rw [hnone] at hline
    cases hline
  have hsplit : script = before ++ line :: (middle ++ [script.getLast hne]) := by
    rw [← List.cons_append, ← List.append_assoc, ← hmiddle, List.dropLast_append_getLast]
  obtain ⟨next, after, hafter⟩ : ∃ next after, middle ++ [script.getLast hne] = next :: after :=
    List.exists_cons_of_ne_nil (by simp)
  rw [hafter] at hsplit
  have hview : ∀ m ≠ Marker.context, ((script.filter fun l => l.1 ≠ m).map Prod.snd).Pairwise
      fun raw _ => content raw ≠ raw := by
    intro m hm
    cases m with
    | context => exact absurd rfl hm
    | removed =>
        have hpairs := rawLines_pairwise updated
        rwa [← hnew] at hpairs
    | added =>
        have hpairs := rawLines_pairwise original
        rwa [← hold] at hpairs
  have hchanged : line.1 ≠ .context := by
    intro hcontext
    obtain ⟨m, hm, hnextm⟩ : ∃ m, m ≠ Marker.context ∧ next.1 ≠ m := by
      by_cases hadded : next.1 = .added
      · exact ⟨.removed, by decide, by rw [hadded]; decide⟩
      · exact ⟨.added, by decide, hadded⟩
    have hlinem : line.1 ≠ m := by
      rw [hcontext]
      exact Ne.symm hm
    exact break_of_view (hview m hm) hsplit hlinem List.mem_cons_self hnextm hglued
  obtain ⟨hopposite, hopposite'⟩ := opposite_ne hchanged
  have hothers : ∀ l ∈ next :: after, l.1 = opposite line.1 := by
    intro l hl
    by_contra hnot
    exact break_of_view (hview _ hopposite') hsplit (Ne.symm hopposite) hl hnot hglued
  have hother : ∀ l ∈ next :: after, l.1 ≠ line.1 := by
    intro l hl
    rw [hothers l hl]
    exact hopposite
  refine ⟨before, line, next, after, hsplit, hchanged, hglued, ?_, hothers, ?_⟩
  · intro l hl
    obtain ⟨start, rest, hstart⟩ := List.append_of_mem hl
    have hl' : script = start ++ l :: (rest ++ line :: next :: after) := by
      rw [hsplit, hstart, List.append_assoc, List.cons_append]
    by_cases hside : l.1 = line.1
    · -- before the line itself, in its file
      refine break_of_view (hview _ hopposite') hl' ?_ (List.mem_append_right _ List.mem_cons_self)
        (Ne.symm hopposite)
      rw [hside]
      exact Ne.symm hopposite
    · -- before the next line, in the other file
      exact break_of_view (hview _ hchanged) hl' hside
        (List.mem_append_right _ (List.mem_cons_of_mem line List.mem_cons_self))
        (hother next List.mem_cons_self)
  · intro l hl
    obtain ⟨last, hlast, hmem⟩ : ∃ last, next :: after = (next :: after).dropLast ++ [last]
        ∧ last ∈ next :: after :=
      ⟨_, (List.dropLast_append_getLast (List.cons_ne_nil _ _)).symm, List.getLast_mem _⟩
    obtain ⟨start, rest, hstart⟩ := List.append_of_mem hl
    have hl' : script = (before ++ line :: start) ++ l :: (rest ++ [last]) := by
      rw [hsplit, hlast, hstart]
      simp
    exact break_of_view (hview _ hchanged) hl' (hother l (List.dropLast_subset _ hl))
      (List.mem_append_right _ (List.mem_singleton.mpr rfl)) (hother last hmem)

/-- Changes at the end of a script are at the end of the last hunk. -/
theorem groupedOpcodes_last {n : Nat} (hn : 1 ≤ n) {changes : List (Marker × List Char)}
    (hne : changes ≠ []) (hchanges : ∀ l ∈ changes, l.1 ≠ .context)
    (before after start : List (Marker × List Char)) (hafter : after = start ++ changes) :
    ∃ groups oldStart newStart first,
      groupedOpcodes n before after = groups ++ [⟨oldStart, newStart, first ++ changes⟩]
        ∧ ∀ l ∈ groups.flatMap OpcodeGroup.lines ++ first, l ∈ start := by
  induction before, after using groupedOpcodes_induction (n := n) generalizing start with
  | nil before =>
      have hnone := (List.append_eq_nil_iff.mp hafter.symm).2
      exact absurd hnone hne
  | skip before line after hhidden ih =>
      have hcontext := (context_of_not_shown hn hhidden).1
      cases start with
      | nil =>
          have hmem : line ∈ changes := by
            rw [List.nil_append] at hafter
            rw [← hafter]
            exact List.mem_cons_self
          exact absurd hcontext (hchanges line hmem)
      | cons first start =>
          obtain ⟨rfl, hrest⟩ := List.cons.inj hafter
          obtain ⟨groups, oldStart, newStart, lines, hgroups, hfrom⟩ := ih start hrest
          exact ⟨groups, oldStart, newStart, lines, hgroups,
            fun l hl => List.mem_cons_of_mem line (hfrom l hl)⟩
  | hunk before line body rest hrest ih =>
      rcases List.append_eq_append_iff.mp hafter with ⟨more, hstart, hmore⟩ | ⟨more, hbody, hmore⟩
      · obtain ⟨groups, oldStart, newStart, lines, hgroups, hfrom⟩ := ih more hmore
        refine ⟨_ :: groups, oldStart, newStart, lines, by rw [hgroups]; rfl, ?_⟩
        intro l hl
        rw [hstart]
        rw [List.flatMap_cons, List.append_assoc] at hl
        rcases List.mem_append.mp hl with hl | hl
        · exact List.mem_append_left _ hl
        · exact List.mem_append_right _ (hfrom l hl)
      · cases rest with
        | nil =>
            rw [List.append_nil] at hmore
            refine ⟨[], oldCount before, newCount before, start, ?_, fun l hl => by simpa using hl⟩
            rw [hbody, ← hmore]
            rfl
        | cons hidden rest =>
            -- what follows a hunk is not changed
            have hcontext := (context_of_not_shown hn (hrest (List.cons_ne_nil _ _))).1
            have hmem : hidden ∈ changes := by
              rw [hmore]
              exact List.mem_append_right _ List.mem_cons_self
            exact absurd hcontext (hchanges hidden hmem)

/-- Lines of a diff are read back, whatever follows. -/
theorem rawLines_diffLines {raws : List (List Char)} (h : ∀ raw ∈ raws, IsDiffLine raw)
    {text : List Char} (htext : text.head? ≠ some '\n') :
    rawLines (raws.flatten ++ text) = raws ++ rawLines text := by
  induction raws with
  | nil => rfl
  | cons raw raws ih =>
      obtain ⟨hraw, hraws⟩ := List.forall_mem_cons.mp h
      have hrest := ih hraws
      have hhead : (raws.flatten ++ text).head? ≠ some '\n' := by
        cases raws with
        | nil => exact htext
        | cons next raws =>
            obtain ⟨hline, hbreak, hstart⟩ := hraws next List.mem_cons_self
            have hnext : next ≠ [] := by
              intro hempty
              rw [hempty] at hbreak
              exact hbreak rfl
            rw [List.flatten_cons, List.append_assoc, List.head?_append_of_ne_nil _ hnext]
            exact hstart
      obtain ⟨line, eol, rfl, hline, hend⟩ := hraw.1
      rw [List.flatten_cons, List.append_assoc, List.append_assoc]
      cases hend with
      | none => exact absurd (by rw [content_append hline .none, List.append_nil]) hraw.2.1
      | crlf =>
          rw [List.cons_append, List.cons_append, List.nil_append, rawLines_crlf hline, hrest]
          rfl
      | @«break» c hc =>
          rw [List.cons_append, List.nil_append, rawLines_break hline hc, hrest]
          · rfl
          · intro rest hmeet
            rw [hmeet.2] at hhead
            exact hhead rfl

/-! ## The diff, up to the glued line -/

/-- A group is rendered as a header and its lines. -/
theorem render_cons (hdigits : AsciiDigits unicode) (group : OpcodeGroup) :
    ∃ rest, group.render = ('@' :: rest) :: group.lines.map (fun l => l.1.symbol :: l.2)
      ∧ IsDiffLine ('@' :: rest) ∧ isHunkHeader unicode ('@' :: rest) = true := by
  refine ⟨_, rfl, isDiffLine_header group, ?_⟩
  show isHunkHeader unicode ("@@ -".toList
    ++ formatRangeUnified group.oldStart (oldCount group.lines) ++ " +".toList
    ++ formatRangeUnified group.newStart (newCount group.lines) ++ " @@\n".toList) = true
  have hend : ∀ text : List Char, stripNewline (text ++ " @@\n".toList) = text ++ " @@".toList := by
    intro text
    have hclose : text ++ " @@\n".toList = text ++ [' ', '@'] ++ ['@'] ++ ['\n'] := by simp
    have hopen : text ++ " @@".toList = text ++ [' ', '@'] ++ ['@'] := by simp
    rw [hclose, hopen]
    unfold stripNewline
    rw [List.rdropWhile_concat_pos _ _ _ (by decide)]
    exact List.rdropWhile_concat_neg _ (text ++ [' ', '@']) '@'
      (show ¬ isNewline '@' = true by decide)
  unfold isHunkHeader
  rw [hend, matchHunkHeader_render hdigits]
  rfl

/-- The lines of a diff up to the changes at its end: two titles, and then from the first
header on. -/
structure Upto (unicode : Unicode) (path : String) (script changes : List (Marker × List Char))
    (titles body : List (List Char)) : Prop where
  diff : unifiedDiff 2 ("a/" ++ path) ("b/" ++ path) script
    = titles ++ body ++ changes.map fun l => l.1.symbol :: l.2
  lines : ∀ raw ∈ titles ++ body, IsDiffLine raw
  signed : ∀ raw ∈ titles, isSigned raw = true
  begins : ∃ header more, body = header :: more ∧ isHunkHeader unicode header = true
  balance : ∀ m ≠ Marker.context, weights (marked m script)
    = signedWeights m body + weights (marked m changes)

theorem exists_upto (hdigits : AsciiDigits unicode) {path : String}
    (hpath : path.toList.any isBreak = false) {script before changes : List (Marker × List Char)}
    (hsplit : script = before ++ changes) (hne : changes ≠ [])
    (hchanges : ∀ l ∈ changes, l.1 ≠ .context)
    (hbefore : ∀ l ∈ before, IsLine l.2 ∧ content l.2 ≠ l.2) :
    ∃ titles body, Upto unicode path script changes titles body := by
  obtain ⟨groups, oldStart, newStart, first, hgroups, hfrom⟩ :=
    groupedOpcodes_last (n := 2) (by decide) hne hchanges [] script before hsplit
  obtain ⟨rest, hheader, hheaderLine, hheaderMatch⟩ :=
    render_cons hdigits ⟨oldStart, newStart, first ++ changes⟩
  have hname : ∀ side : String, side.toList.any isBreak = false →
      (side ++ path).toList.any isBreak = false := by
    intro side hside
    rw [String.toList_append, List.any_append, hside, hpath]
    rfl
  have hold := isDiffLine_name "--- " ("a/" ++ path) (by decide) (by decide) (hname "a/" (by decide))
  have hnew := isDiffLine_name "+++ " ("b/" ++ path) (by decide) (by decide) (hname "b/" (by decide))
  have hgroupLines : ∀ raw ∈ groups.flatMap OpcodeGroup.render, IsDiffLine raw := by
    intro raw hraw
    obtain ⟨group, hgroup, hraw⟩ := List.mem_flatMap.mp hraw
    refine isDiffLine_render (fun l hl => hbefore l (hfrom l ?_)) raw hraw
    exact List.mem_append_left _ (List.mem_flatMap.mpr ⟨group, hgroup, hl⟩)
  have hfirst : ∀ raw ∈ first.map (fun l => l.1.symbol :: l.2), IsDiffLine raw := by
    intro raw hraw
    obtain ⟨l, hl, rfl⟩ := List.mem_map.mp hraw
    obtain ⟨hline, hbreak⟩ := hbefore l (hfrom l (List.mem_append_right _ hl))
    exact isDiffLine_symbol l.1 hline hbreak
  refine ⟨[("--- " ++ ("a/" ++ path) ++ "\n").toList, ("+++ " ++ ("b/" ++ path) ++ "\n").toList],
    groups.flatMap OpcodeGroup.render ++ ('@' :: rest) :: first.map fun l => l.1.symbol :: l.2,
    ?_, ?_, ?_, ?_, ?_⟩
  · unfold unifiedDiff
    rw [hgroups]
    split
    · rename_i hnone
      simp at hnone
    · rw [List.flatMap_append, List.flatMap_singleton, hheader]
      simp
  · exact List.forall_mem_append.mpr ⟨List.forall_mem_cons.mpr ⟨hold, List.forall_mem_cons.mpr
      ⟨hnew, fun _ h => absurd h List.not_mem_nil⟩⟩, List.forall_mem_append.mpr
        ⟨hgroupLines, List.forall_mem_cons.mpr ⟨hheaderLine, hfirst⟩⟩⟩
  · refine List.forall_mem_cons.mpr ⟨by simp [isSigned, startsWith], List.forall_mem_cons.mpr
      ⟨by simp [isSigned, startsWith], fun _ h => absurd h List.not_mem_nil⟩⟩
  · cases groups with
    | nil => exact ⟨_, _, rfl, hheaderMatch⟩
    | cons group groups =>
        obtain ⟨rest', hrender, _, hmatch⟩ := render_cons hdigits group
        rw [List.flatMap_cons, hrender]
        exact ⟨_, _, rfl, hmatch⟩
  · intro m hm
    have hmarked := marked_groupedOpcodes hm (n := 2) (by decide) [] script
    rw [← hmarked, hgroups, List.flatMap_append, List.flatMap_singleton, marked_append,
      marked_append, weights_append, weights_append, signedWeights_append, signedWeights_groups,
      signedWeights_header, signedWeights_symbols, Nat.add_assoc]

/-- What has a sign is no header. -/
theorem signedWeights_hunkLines {m : Marker} (hm : m ≠ .context) {raws : List (List Char)}
    (h : ∀ raw ∈ raws, IsLine raw) :
    signedWeights m (raws.filter fun raw => !isHunkHeader unicode raw) = signedWeights m raws := by
  unfold signedWeights
  rw [List.filter_filter]
  congr 2
  refine List.filter_congr fun raw hraw => ?_
  cases hheader : isHunkHeader unicode raw with
  | false => simp
  | true =>
      have hnot := not_isSigned_of_isHunkHeader (h raw hraw) hheader
      unfold isSigned at hnot
      rw [Bool.or_eq_false_iff] at hnot
      cases m with
      | context => exact absurd rfl hm
      | removed =>
          show (startsWith "-" raw && _) = startsWith "-" raw
          rw [hnot.2, Bool.false_and]
      | added =>
          show (startsWith "+" raw && _) = startsWith "+" raw
          rw [hnot.1, Bool.false_and]

/-! ## How it is read -/

section Read

variable {path : String} {script before after : List (Marker × List Char)}
  {line next : Marker × List Char} {titles body : List (List Char)}

/-- The line that is glued takes the next one with it. -/
theorem rawLines_glued (hglue : Glue script before line next after)
    (hlines : ∀ l ∈ script, IsLine l.2)
    (hupto : Upto unicode path script (line :: next :: after) titles body) :
    rawLines (unifiedDiff 2 ("a/" ++ path) ("b/" ++ path) script).flatten
      = titles ++ body ++ (line.1.symbol :: (line.2 ++ next.1.symbol :: next.2))
        :: after.map fun l => l.1.symbol :: l.2 := by
  have hin : ∀ l ∈ next :: after, IsLine l.2 := by
    intro l hl
    refine hlines l ?_
    rw [hglue.split]
    exact List.mem_append_right _ (List.mem_cons_of_mem line hl)
  have htail : rawLines ((next :: after).map fun l => l.1.symbol :: l.2).flatten
      = (next :: after).map fun l => l.1.symbol :: l.2 := by
    refine rawLines_flatten ?_ (separate_of_terminated ?_ ?_)
    · intro raw hraw
      obtain ⟨l, hl, rfl⟩ := List.mem_map.mp hraw
      exact (symbol_line l.1 (hin l hl)).1
    · rw [← List.map_dropLast]
      intro raw hraw
      obtain ⟨l, hl, rfl⟩ := List.mem_map.mp hraw
      exact (isDiffLine_symbol l.1 (hin l (List.dropLast_subset _ hl)) (hglue.later l hl)).2.1
    · intro raw hraw
      obtain ⟨l, hl, rfl⟩ := List.mem_map.mp hraw
      exact ⟨List.cons_ne_nil _ _, (symbol_line l.1 (hin l hl)).2⟩
  have hopen : ∀ c ∈ line.1.symbol :: line.2, isBreak c = false := by
    refine List.forall_mem_cons.mpr ⟨(symbol_spec line.1).1, fun c hc => ?_⟩
    rw [← hglue.glued] at hc
    simpa using List.mem_takeWhile_imp hc
  rw [hupto.diff, List.map_cons, List.flatten_append, List.flatten_cons,
    rawLines_diffLines hupto.lines, rawLines_append hopen (List.cons_ne_nil _ _), htail,
    List.map_cons, prependTo]
  · rfl
  · intro hnewline
    have hsymbol := (symbol_spec line.1).1
    rw [Option.some.inj hnewline] at hsymbol
    exact absurd hsymbol (by decide)

/-- The titles do not belong to the hunks. -/
theorem hunkLines_glued (hglue : Glue script before line next after)
    (hlines : ∀ l ∈ script, IsLine l.2)
    (hupto : Upto unicode path script (line :: next :: after) titles body) :
    hunkLines unicode (unifiedDiff 2 ("a/" ++ path) ("b/" ++ path) script).flatten
      = (body ++ (line.1.symbol :: (line.2 ++ next.1.symbol :: next.2))
          :: after.map fun l => l.1.symbol :: l.2).filter
        fun raw => !isHunkHeader unicode raw := by
  have hnot : ∀ raw ∈ titles, isHunkHeader unicode raw = false := by
    intro raw hraw
    cases hheader : isHunkHeader unicode raw with
    | false => rfl
    | true =>
        have hline := (hupto.lines raw (List.mem_append_left _ hraw)).1
        have hsigned := not_isSigned_of_isHunkHeader hline hheader
        rw [hupto.signed raw hraw] at hsigned
        cases hsigned
  obtain ⟨header, more, hbody, hheader⟩ := hupto.begins
  unfold hunkLines
  rw [rawLines_glued hglue hlines hupto, List.append_assoc,
    List.dropWhile_append_of_pos (by simpa using hnot), hbody, List.cons_append,
    List.dropWhile_cons_of_neg (by simp [hheader])]

/-- **The balance of a glued diff.** The glued line weighs more by the next line and its sign,
and the next line is not counted on its side. -/
theorem weights_glued (hglue : Glue script before line next after)
    (hlines : ∀ l ∈ script, IsLine l.2)
    (hupto : Upto unicode path script (line :: next :: after) titles body) {hunks : List Hunk}
    (hparse : parseHunks unicode (unifiedDiff 2 ("a/" ++ path) ("b/" ++ path) script).flatten
      = .ok hunks) {m : Marker} (hm : m ≠ .context) :
    weights (parsedLines m hunks) + (if next.1 = m then weight next.2 else 0)
      = weights (marked m script) + if line.1 = m then weight next.2 + 1 else 0 := by
  have hall : ∀ raw ∈ body ++ (line.1.symbol :: (line.2 ++ next.1.symbol :: next.2))
      :: after.map fun l => l.1.symbol :: l.2, IsLine raw := by
    intro raw hraw
    have hmem : raw ∈ rawLines (unifiedDiff 2 ("a/" ++ path) ("b/" ++ path) script).flatten := by
      rw [rawLines_glued hglue hlines hupto, List.append_assoc]
      exact List.mem_append_right _ hraw
    exact isLine_of_mem hmem
  have hparsed : weights (parsedLines m hunks)
      = signedWeights m body
        + (signedWeights m [line.1.symbol :: (line.2 ++ next.1.symbol :: next.2)]
          + weights (marked m after)) := by
    rw [(parseHunks_spec hparse).2 m hm]
    show signedWeights m (hunkLines unicode _) = _
    rw [hunkLines_glued hglue hlines hupto, signedWeights_hunkLines hm hall,
      ← signedWeights_symbols, signedWeights_append, ← List.singleton_append,
      signedWeights_append]
  have hglued : signedWeights m [line.1.symbol :: (line.2 ++ next.1.symbol :: next.2)]
      = if line.1 = m then weight line.2 + (weight next.2 + 1) else 0 := by
    unfold signedWeights
    rw [List.filter_singleton, startsWith_sign]
    by_cases hside : line.1 = m
    · rw [if_pos hside]
      simp [hside, weights, weight_append, weight_cons (symbol_spec next.1).2.1]
    · rw [if_neg hside]
      simp [hside]
  have hone : ∀ (l : Marker × List Char) (ls : List (Marker × List Char)),
      weights (marked m (l :: ls)) = (if l.1 = m then weight l.2 else 0) + weights (marked m ls) := by
    intro l ls
    unfold marked
    rw [List.filter_cons]
    by_cases hl : l.1 = m
    · simp [hl]
    · simp [hl]
  have hside : next.1 ≠ line.1 := by
    rw [hglue.others next List.mem_cons_self]
    exact (opposite_ne hglue.changed).1
  rw [hparsed, hglued, hupto.balance m hm, hone, hone]
  by_cases hl : line.1 = m
  · have hn : next.1 ≠ m := by
      rw [← hl]
      exact hside
    simp only [if_pos hl, if_neg hn]
    omega
  · simp only [if_neg hl]
    omega

end Read

/-- **A glued diff never gives the file that was meant.** -/
theorem apply_glued (difflib : Difflib) (hdigits : AsciiDigits unicode) {path : String}
    (hpath : path.toList.any isBreak = false) {original updated result : List Char}
    (hglued : ¬ Unglued (difflib.script (rawLines original) (rawLines updated)))
    (happly : applyUnifiedDiff unicode original (renderUnifiedDiff difflib path original updated)
      = .ok result) : weight result ≠ weight updated := by
  have hold : oldView (difflib.script (rawLines original) (rawLines updated)) = rawLines original :=
    difflib.old_eq _ _
  have hnew : newView (difflib.script (rawLines original) (rawLines updated)) = rawLines updated :=
    difflib.new_eq _ _
  obtain ⟨hunks, hparse, hbalance⟩ := weight_apply happly
  unfold renderUnifiedDiff at hparse
  generalize difflib.script (rawLines original) (rawLines updated) = script
    at hold hnew hglued hparse
  have hlines : ∀ l ∈ script, IsLine l.2 := by
    intro l hl
    rcases mem_view hl with hmem | hmem
    · rw [hold] at hmem
      exact isLine_of_mem hmem
    · rw [hnew] at hmem
      exact isLine_of_mem hmem
  obtain ⟨before, line, next, after, hglue⟩ := exists_glue hold hnew hglued
  have hchanges : ∀ l ∈ line :: next :: after, l.1 ≠ .context := by
    refine List.forall_mem_cons.mpr ⟨hglue.changed, fun l hl => ?_⟩
    rw [hglue.others l hl]
    exact (opposite_ne hglue.changed).2
  obtain ⟨titles, body, hupto⟩ := exists_upto hdigits hpath hglue.split (List.cons_ne_nil _ _)
    hchanges fun l hl => ⟨hlines l (by rw [hglue.split]; exact List.mem_append_left _ hl),
      hglue.breaks l hl⟩
  have hremoved := weights_glued hglue hlines hupto hparse (m := .removed) (by decide)
  have hadded := weights_glued hglue hlines hupto hparse (m := .added) (by decide)
  have htext : ∀ text, weights (rawLines text) = weight text := by
    intro text
    rw [← weight_flatten, flatten_rawLines]
  have hviews := weights_views script
  rw [hold, hnew, htext, htext] at hviews
  have hother := hglue.others next List.mem_cons_self
  have hchanged := hglue.changed
  cases hline : line.1 with
  | context => exact absurd hline hchanged
  | removed =>
      have hnext : next.1 = .added := by rw [hother, hline]; rfl
      rw [hline, hnext] at hremoved hadded
      simp only [reduceCtorEq, if_true, if_false] at hremoved hadded
      omega
  | added =>
      have hnext : next.1 = .removed := by rw [hother, hline]; rfl
      rw [hline, hnext] at hremoved hadded
      simp only [reduceCtorEq, if_true, if_false] at hremoved hadded
      omega

end PipeLens.Proof
