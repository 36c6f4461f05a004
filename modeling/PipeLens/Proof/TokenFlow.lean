import PipeLens.Proof.Preprocess
import PipeLens.Proof.RelatedFiles
import PipeLens.Proof.Sanitizing

/-!
# Where sanitized text goes

What is made of sanitized text holds no token either. The code breaks it into lines,
strips them and joins them again, always at a character that is in no word and in no
token. It never cuts a token-free text elsewhere without sanitizing the pieces again,
which matters, since a cut inside a word can make a token of a part of it.
-/

namespace PipeLens.Proof

open PipeLens Regex Text

/-! ## Stops -/

/-- A character that ends every token. -/
def TokenStop (unicode : Unicode) (c : Char) : Prop :=
  ∀ body ∈ tokenBodies, Stop unicode.isWord body c

/-- The code points of white space, and a few more that are in no token. -/
def blankCodes : List Nat :=
  List.range 0x21 ++ [0x85, 0xa0, 0x1680] ++ List.range' 0x2000 11
    ++ [0x2028, 0x2029, 0x202f, 0x205f, 0x3000]

theorem blankCodes_excluded :
    ∀ n ∈ blankCodes, ∀ body ∈ tokenBodies, body.excludes (Char.ofNat n) = true := by decide

theorem mem_blankCodes {c : Char} (h : isSpace c = true) : c.toNat ∈ blankCodes := by
  simp only [isSpace, Bool.or_eq_true, Bool.and_eq_true, decide_eq_true_eq, beq_iff_eq] at h
  simp only [blankCodes, List.mem_append, List.mem_range, List.mem_range'_1, List.mem_cons,
    List.not_mem_nil]
  omega

theorem separators_excluded : ∀ body ∈ tokenBodies,
    body.excludes ',' = true ∧ body.excludes '/' = true := by decide

theorem TokenFree.of_body {unicode : Unicode} {text : List Char}
    (h : ∀ body ∈ tokenBodies, body.search text = false) : TokenFree unicode text := by
  intro body hbody
  rw [← Bool.not_eq_true]
  intro hfound
  have hin := search_body_of_bounded (token_plain body hbody) hfound
  rw [h body hbody] at hin
  exact absurd hin (by simp)

theorem TokenFree.nil {unicode : Unicode} : TokenFree unicode [] := TokenFree.of_body (by decide)

theorem TokenFree.append_stop {unicode : Unicode} {a b : List Char} {c : Char}
    (ha : TokenFree unicode a) (hc : TokenStop unicode c) (hb : TokenFree unicode b) :
    TokenFree unicode (a ++ c :: b) := by
  intro body hbody
  rw [← Bool.not_eq_true]
  intro hfound
  have hplain := token_plain body hbody
  have hnull := token_nonempty body hbody
  rcases search_append_stop hplain hnull (hc body hbody) hfound with h | h
  · rw [ha body hbody] at h
    exact absurd h (by simp)
  · rw [hb body hbody] at h
    exact absurd h (by simp)

section Flow

variable {unicode : Unicode} (hstd : StandardTables unicode)
include hstd

theorem tokenStop_space {c : Char} (hc : isSpace c = true) : TokenStop unicode c := by
  intro body hbody
  refine ⟨isWord_space hstd hc, ?_⟩
  have hex := blankCodes_excluded c.toNat (mem_blankCodes hc) body hbody
  rwa [Char.ofNat_toNat] at hex

theorem tokenStop_comma : TokenStop unicode ',' := fun body hbody =>
  ⟨isWord_ascii hstd (by decide) (by decide), (separators_excluded body hbody).1⟩

theorem tokenStop_slash : TokenStop unicode '/' := fun body hbody =>
  ⟨isWord_ascii hstd (by decide) (by decide), (separators_excluded body hbody).2⟩

/-! ## Parts -/

/-- A part between white space, or at an end of the text. -/
theorem TokenFree.part {x part z : List Char} (h : TokenFree unicode (x ++ part ++ z))
    (hx : ∀ c ∈ x.getLast?, isSpace c = true) (hz : ∀ c ∈ z.head?, isSpace c = true) :
    TokenFree unicode part := by
  have hout : ∀ d : Option Char, (∀ c ∈ d, isSpace c = true) → d.any unicode.isWord = false := by
    intro d hd
    cases d with
    | none => rfl
    | some c => exact isWord_space hstd (hd c rfl)
  intro body hbody
  rw [← Bool.not_eq_true]
  intro hfound
  have hleft : CleanCut unicode.isWord x.getLast? part.head? := by
    rintro ⟨hword, _⟩
    rw [hout _ hx] at hword
    exact absurd hword (by simp)
  have hright : CleanCut unicode.isWord part.getLast? z.head? := by
    rintro ⟨_, hword⟩
    rw [hout _ hz] at hword
    exact absurd hword (by simp)
  have hwhole := search_of_clean_part (token_plain body hbody) (token_nonempty body hbody) hleft
    hright hfound
  rw [h body hbody] at hwhole
  exact absurd hwhole (by simp)

theorem TokenFree.line {text line : List Char} (h : TokenFree unicode text)
    (hline : line ∈ splitlines text) : TokenFree unicode line := by
  obtain ⟨start, rest, rfl, hstart, hrest⟩ := line_in_text hline
  exact h.part hstd (fun c hc => isSpace_of_isBreak (hstart c hc))
    fun c hc => isSpace_of_isBreak (hrest c hc)

omit hstd in
/-- What `strip` takes off is white space. -/
theorem strip_parts (text : List Char) : ∃ x z, text = x ++ strip text ++ z
    ∧ (∀ c ∈ x, isSpace c = true) ∧ ∀ c ∈ z, isSpace c = true := by
  refine ⟨text.takeWhile isSpace, (text.dropWhile isSpace).rtakeWhile isSpace, ?_,
    fun c hc => List.mem_takeWhile_imp hc, ?_⟩
  · unfold strip List.rdropWhile List.rtakeWhile
    rw [List.append_assoc, ← List.reverse_append, List.takeWhile_append_dropWhile,
      List.reverse_reverse, List.takeWhile_append_dropWhile]
  · intro c hc
    unfold List.rtakeWhile at hc
    exact List.mem_takeWhile_imp (List.mem_reverse.mp hc)

theorem TokenFree.strip {text : List Char} (h : TokenFree unicode text) :
    TokenFree unicode (strip text) := by
  obtain ⟨x, z, htext, hx, hz⟩ := strip_parts text
  rw [htext] at h
  exact h.part hstd (fun c hc => hx c (List.mem_of_getLast? hc))
    fun c hc => hz c (List.mem_of_mem_head? hc)

/-! ## Joining -/

/-- A separator after which a token has to start anew. -/
def Separates (unicode : Unicode) (separator : List Char) : Prop :=
  ∀ a b, TokenFree unicode a → TokenFree unicode b → TokenFree unicode (a ++ (separator ++ b))

omit hstd in
theorem TokenFree.intercalate {separator : List Char} (hsep : Separates unicode separator)
    {texts : List (List Char)} (h : ∀ text ∈ texts, TokenFree unicode text) :
    TokenFree unicode (separator.intercalate texts) := by
  induction texts with
  | nil => exact TokenFree.nil
  | cons text texts ih =>
      have hfirst := h text List.mem_cons_self
      have hrest := ih fun other hm => h other (List.mem_cons_of_mem _ hm)
      cases texts with
      | nil => simpa using hfirst
      | cons next texts =>
          rw [List.intercalate_cons_cons, List.append_assoc]
          exact hsep _ _ hfirst hrest

theorem separates_newline : Separates unicode "\n".toList := fun _ _ ha hb =>
  ha.append_stop (tokenStop_space hstd (by decide)) hb

theorem separates_dots : Separates unicode "\n...\n".toList := by
  intro a b ha hb
  have hstop : TokenStop unicode '\n' := tokenStop_space hstd (by decide)
  have hdots : TokenFree unicode "...".toList := TokenFree.of_body (by decide)
  exact ha.append_stop hstop (hdots.append_stop hstop hb)

theorem separates_comma : Separates unicode ", ".toList := by
  intro a b ha hb
  have hspace : TokenStop unicode ' ' := tokenStop_space hstd (by decide)
  have hnil : TokenFree unicode [] := TokenFree.nil
  exact ha.append_stop (tokenStop_comma hstd) (hnil.append_stop hspace hb)

theorem separates_slash : Separates unicode " / ".toList := by
  intro a b ha hb
  have hspace : TokenStop unicode ' ' := tokenStop_space hstd (by decide)
  have hnil : TokenFree unicode [] := TokenFree.nil
  exact ha.append_stop hspace
    (hnil.append_stop (tokenStop_slash hstd) (hnil.append_stop hspace hb))

/-! ## Functions of sanitized text -/

theorem extractErrorContext_free {log : List Char} (h : TokenFree unicode log)
    (contextLines maxSections : Nat) :
    TokenFree unicode (extractErrorContext unicode log contextLines maxSections) := by
  have hline : ∀ line ∈ splitlines log, TokenFree unicode line := fun line hm => h.line hstd hm
  unfold extractErrorContext
  dsimp only
  split
  · refine TokenFree.intercalate (separates_newline hstd) fun line hm => hline line ?_
    unfold lastLines at hm
    split at hm
    · exact hm
    · exact List.mem_of_mem_drop hm
  · refine TokenFree.intercalate (separates_dots hstd) fun text hm => ?_
    obtain ⟨range, _, rfl⟩ := List.mem_map.mp hm
    refine TokenFree.intercalate (separates_newline hstd) fun line hm => hline line ?_
    exact List.mem_of_mem_take (List.mem_of_mem_drop hm)

theorem classifyLog_free {log : String} (h : TokenFree unicode log.toList)
    (relatedStep : Option String) :
    TokenFree unicode (classifyLog unicode log relatedStep).firstError.toList := by
  have hline : ∀ line ∈ strippedLines log.toList, TokenFree unicode line := by
    intro line hm
    obtain ⟨raw, hraw, rfl⟩ := List.mem_map.mp (List.mem_filter.mp hm).1
    exact (h.line hstd hraw).strip hstd
  have hmatch : ∀ (lines : List (List Char)) line rule,
      firstRuleMatch unicode lines = some (line, rule) → line ∈ lines := by
    intro lines line rule hfound
    induction lines with
    | nil => exact absurd hfound (by simp [firstRuleMatch])
    | cons first lines ih =>
        rw [firstRuleMatch] at hfound
        split at hfound
        · exact List.mem_cons_of_mem _ (ih hfound)
        · obtain ⟨rfl, _⟩ := Prod.mk.inj (Option.some.inj hfound)
          exact List.mem_cons_self
  unfold classifyLog
  dsimp only
  split
  · rename_i line rule hfound
    dsimp only
    rw [String.toList_ofList]
    exact hline line (hmatch _ line rule hfound)
  · dsimp only
    split
    · rename_i line hfound
      rw [String.toList_ofList]
      exact hline line (List.mem_of_find?_eq_some hfound)
    · split
      · exact TokenFree.of_body (by decide)
      · rename_i line lines hlines
        rw [String.toList_ofList]
        exact hline line (hlines ▸ List.mem_cons_self)

theorem preprocessLogs_free (contextLines : Nat) (maxErrorChunks : Int)
    (rawLogs : List (List Char)) (chunkChars : Int) :
    TokenFree unicode
      (preprocessLogs unicode contextLines maxErrorChunks rawLogs chunkChars).context := by
  have hdigest := preprocessLogs_digest unicode contextLines maxErrorChunks rawLogs chunkChars
  rw [hdigest.context]
  generalize htexts : (logChunks rawLogs chunkChars).map
    (fun chunk => (sanitizeLog unicode chunk).1) = texts
  have hfree : ∀ text ∈ texts, TokenFree unicode text := by
    intro text hm
    rw [← htexts] at hm
    obtain ⟨chunk, _, rfl⟩ := List.mem_map.mp hm
    exact sanitizeLog_free hstd chunk
  have hlast : TokenFree unicode (texts.getLast?.getD []) := by
    cases hl : texts.getLast? with
    | none => exact TokenFree.nil
    | some last => exact hfree last (List.mem_of_getLast? hl)
  unfold digestContext
  dsimp only
  split
  · split
    · exact TokenFree.nil
    · exact extractErrorContext_free hstd hlast contextLines 5
  · refine TokenFree.intercalate (separates_dots hstd) fun part hm => ?_
    obtain ⟨text, htext, rfl⟩ := List.mem_map.mp hm
    have hin : text ∈ texts := (List.mem_filter.mp (List.mem_of_mem_take htext)).1
    exact extractErrorContext_free hstd (hfree text hin) contextLines 2

/-- The excerpts of related files are sanitized once more. -/
theorem correlateChangedFiles_free {lower : List Char → List Char} {log : List Char}
    {changedFiles : List ChangedFile} {category : ErrorCategory} {limit : Nat} {file : RelatedFile}
    (hfile : file ∈ correlateChangedFiles unicode lower log changedFiles category limit)
    {excerpt : String} (hexcerpt : file.patchExcerpt = some excerpt) :
    TokenFree unicode excerpt.toList := by
  obtain ⟨changed, _, hrelated⟩ := List.mem_filterMap.mp (Ranking.mem_firstOf _ hfile)
  have hpatch := (relatedFile_some hrelated).excerpt
  rw [hexcerpt] at hpatch
  unfold matchingPatchExcerpt at hpatch
  split at hpatch
  · exact absurd hpatch (by simp)
  · split at hpatch
    · exact absurd hpatch (by simp)
    · dsimp only at hpatch
      split at hpatch
      · exact absurd hpatch (by simp)
      · rw [Option.some.inj hpatch, String.toList_ofList]
        exact sanitizeLog_free hstd _

end Flow

end PipeLens.Proof
