import PipeLens.Proof.RulePatch

/-!
# Hash-locked pins

A requirement whose hashes are listed with it must not be changed without its hashes, so that
`propose_version_patches` writes a note where it would write a diff. A requirement may go on
over several lines, each but the last ending with a backslash. The code does not follow them:
it looks for hashes on the line of the pin, and at the start of the next.
-/

namespace PipeLens.Proof

open Text Substitution

variable {env : PatchEnvironment} {sameLetter : Char → Char → Bool} {difflib : Difflib}

/-! ## Requirements over several lines -/

/-- The line goes on. -/
def continues (line : List Char) : Bool := line.getLast? == some '\\'

/-- The lines that belong together. -/
def logicalLines : List (List Char) → List (List (List Char))
  | [] => []
  | line :: lines =>
      if continues line then
        match logicalLines lines with
        | [] => [[line]]
        | group :: groups => (line :: group) :: groups
      else [line] :: logicalLines lines

def hasPin (sameLetter : Char → Char → Bool) (bump : VersionBump) (text : List Char) : Bool :=
  !(founds (pieces (bump.findPin sameLetter) text)).isEmpty

/-- A requirement, over as many lines as it takes, has the pin and a hash. -/
def HashLocked (sameLetter : Char → Char → Bool) (bump : VersionBump) (content : List Char) :
    Prop :=
  ∃ group ∈ logicalLines (splitlines content),
    hasPin sameLetter bump (['\n'].intercalate group) = true
      ∧ occursIn "--hash=" (['\n'].intercalate group) = true

/-- There is a hash on the line of a pin, or the next line starts with one. -/
def HashNearby (sameLetter : Char → Char → Bool) (bump : VersionBump) (content : List Char) :
    Prop :=
  ∃ earlier line later, splitlines content = earlier ++ line :: later
    ∧ hasPin sameLetter bump line = true
    ∧ (occursIn "--hash=" line = true ∨ startsWith "--hash=" (strip (later.headD [])) = true)

/-! ## The check -/

/-- What `_is_hash_locked` looks at. -/
theorem isHashLocked_iff {bump : VersionBump} {lines : List (List Char)} :
    isHashLocked (bump.findPin sameLetter) lines = true
      ↔ ∃ earlier line later, lines = earlier ++ line :: later
        ∧ hasPin sameLetter bump line = true
        ∧ (occursIn "--hash=" line = true
          ∨ startsWith "--hash=" (strip (later.headD [])) = true) := by
  induction lines with
  | nil =>
      refine iff_of_false (fun h => by cases h) ?_
      rintro ⟨earlier, line, later, heq, _⟩
      exact absurd heq.symm (List.append_ne_nil_of_right_ne_nil _ (List.cons_ne_nil _ _))
  | cons line lines ih =>
      rw [isHashLocked, Bool.or_eq_true, Bool.and_eq_true, Bool.or_eq_true, ih]
      constructor
      · rintro (⟨hpin, hhash⟩ | ⟨earlier, line', later, rfl, hthere⟩)
        · exact ⟨[], line, lines, rfl, hpin, hhash⟩
        · exact ⟨line :: earlier, line', later, rfl, hthere⟩
      · rintro ⟨earlier, line', later, heq, hthere⟩
        cases earlier with
        | nil =>
            obtain ⟨rfl, rfl⟩ := List.cons.inj heq
            exact Or.inl hthere
        | cons first earlier =>
            obtain ⟨rfl, hlines⟩ := List.cons.inj heq
            exact Or.inr ⟨earlier, line', later, hlines, hthere⟩

/-! ## Pins in lines -/

/-- A sequence of characters matches where these characters stand. -/
theorem run_chars {ps : List (Char → Bool)} {text rest before : List Char}
    {groups : List (Nat × List Char)} (h : List.Forall₂ (fun p c => p c = true) ps text) :
    (Regex.all (ps.map .char)).run ⟨before, text ++ rest, groups⟩
      = [⟨text.reverse ++ before, rest, groups⟩] := by
  induction h generalizing before with
  | nil => rfl
  | @cons p c ps text hc _ ih =>
      have hone : (Regex.char p).run ⟨before, c :: text ++ rest, groups⟩
          = [⟨c :: before, text ++ rest, groups⟩] := by
        simp [Regex.run, hc]
      have hrest := @ih (c :: before)
      rw [List.map_cons, Regex.all, Regex.run, hone, List.flatMap_singleton, hrest]
      simp

/-- **Where a pin is found**: its characters, whatever their case, with none of a name before
them and none of a version behind. -/
theorem findPin_ne_none_iff {bump : VersionBump} {before after : List Char} :
    bump.findPin sameLetter before after ≠ none
      ↔ before.head?.any isNameChar = false
        ∧ ∃ text rest, after = text ++ rest
          ∧ List.Forall₂ (fun x c => sameLetter x c = true) bump.pin text
          ∧ rest.head?.any isVersionChar = false := by
  unfold VersionBump.findPin
  rw [← Function.comp_def Regex.char sameLetter, ← List.map_map]
  cases hbefore : before.head?.any isNameChar with
  | true => simp
  | false =>
      rw [if_neg Bool.false_ne_true, Ne, Option.map_eq_none_iff]
      constructor
      · intro h
        obtain ⟨pos, hpos⟩ := Option.ne_none_iff_exists'.mp h
        obtain ⟨text, htext, hall⟩ := mem_run_chars (List.mem_of_find?_eq_some hpos)
        rw [List.forall₂_map_left_iff] at hall
        exact ⟨rfl, text, pos.after, htext, hall, by simpa using List.find?_some hpos⟩
      · rintro ⟨_, text, rest, rfl, hall, hrest⟩
        rw [run_chars (List.forall₂_map_left_iff.mpr hall), List.find?_singleton, hrest]
        simp

theorem pin_ne_nil (bump : VersionBump) : bump.pin ≠ [] := by
  unfold VersionBump.pin
  simp

theorem hasPin_iff {bump : VersionBump} {text : List Char} :
    hasPin sameLetter bump text = true
      ↔ ∃ start pin rest, text = start ++ pin ++ rest
        ∧ List.Forall₂ (fun x c => sameLetter x c = true) bump.pin pin
        ∧ start.getLast?.any isNameChar = false ∧ rest.head?.any isVersionChar = false := by
  have hfounds := @founds_ne_nil_iff (bump.findPin sameLetter) text
  unfold hasPin
  rw [Bool.not_eq_true', ← Bool.not_eq_true, List.isEmpty_iff, ← Ne, hfounds]
  simp only [findPin_ne_none_iff, List.head?_reverse]
  constructor
  · rintro ⟨start, after, rfl, _, hstart, pin, rest, rfl, hpin, hrest⟩
    exact ⟨start, pin, rest, (List.append_assoc ..).symm, hpin, hstart, hrest⟩
  · rintro ⟨start, pin, rest, rfl, hpin, hstart, hrest⟩
    refine ⟨start, pin ++ rest, List.append_assoc .., ?_, hstart, pin, rest, rfl, hpin, hrest⟩
    intro hnil
    have hlength := hpin.length_eq
    rw [(List.append_eq_nil_iff.mp hnil).1, List.length_nil, List.length_eq_zero_iff] at hlength
    exact pin_ne_nil bump hlength

/-- A break is no character of a name or a version. -/
theorem not_pinChar_of_isBreak {c : Char} (h : isBreak c = true) :
    isNameChar c = false ∧ isVersionChar c = false := by
  have hascii : ∀ n < 128, isBreak (Char.ofNat n) = true →
      isNameChar (Char.ofNat n) = false ∧ isVersionChar (Char.ofNat n) = false := by decide
  by_cases hsmall : c.toNat < 128
  · have hc := hascii c.toNat hsmall
    rw [Char.ofNat_toNat] at hc
    exact hc h
  · simp only [isBreak, Bool.or_eq_true, Bool.and_eq_true, decide_eq_true_eq, beq_iff_eq] at h
    have hcases : c.toNat = 0x85 ∨ c.toNat = 0x2028 ∨ c.toNat = 0x2029 := by omega
    rw [← Char.ofNat_toNat c]
    rcases hcases with hc | hc | hc
    · rw [hc]; decide
    · rw [hc]; decide
    · rw [hc]; decide

/-- **A pin in a line is a pin of the file.** -/
theorem hasPin_of_line {bump : VersionBump} {content line : List Char}
    (h : line ∈ splitlines content) (hpin : hasPin sameLetter bump line = true) :
    hasPin sameLetter bump content = true := by
  obtain ⟨before, after, rfl, hbefore, hafter⟩ := line_in_text h
  obtain ⟨start, pin, rest, rfl, hall, hstart, hrest⟩ := hasPin_iff.mp hpin
  refine hasPin_iff.mpr ⟨before ++ start, pin, rest ++ after, by simp, hall, ?_, ?_⟩
  · rw [List.getLast?_append]
    cases hlast : start.getLast? with
    | some c =>
        rw [hlast] at hstart
        exact hstart
    | none =>
        cases hbreak : before.getLast? with
        | none => rfl
        | some c => exact (not_pinChar_of_isBreak (hbefore c hbreak)).1
  · rw [List.head?_append]
    cases hhead : rest.head? with
    | some c =>
        rw [hhead] at hrest
        exact hrest
    | none =>
        cases hbreak : after.head? with
        | none => rfl
        | some c => exact (not_pinChar_of_isBreak (hafter c hbreak)).2

/-! ## The result -/

/-- For this bump nothing is proposed for the file, among whatever else is proposed, and a note
tells to make the lock again. -/
structure LeftAlone (env : PatchEnvironment) (sameLetter : Char → Char → Bool) (difflib : Difflib)
    (bump : VersionBump) (file : String × String) : Prop where
  alone : proposeVersionPatches env sameLetter difflib [bump] [file]
    = some ⟨[], [lockRegenerationNote env file.1 file.2.toList bump]⟩
  among : ∀ p, proposeFile env sameLetter difflib bump p file
    = some { p with notes := p.notes ++ [lockRegenerationNote env file.1 file.2.toList bump] }

theorem propose_single {bump : VersionBump} {file : String × String} :
    proposeVersionPatches env sameLetter difflib [bump] [file]
      = proposeFile env sameLetter difflib bump ⟨[], []⟩ file := by
  simp [proposeVersionPatches, sortedItems]

/-- **A file is left alone exactly if the check finds a lock.** -/
theorem leftAlone_iff {bump : VersionBump} {file : String × String} :
    LeftAlone env sameLetter difflib bump file ↔ HashNearby sameLetter bump file.2.toList := by
  unfold HashNearby
  rw [← isHashLocked_iff]
  constructor
  · intro h
    have hnote := h.among ⟨[], []⟩
    by_contra hlocked
    unfold proposeFile at hnote
    dsimp only at hnote
    rw [if_neg hlocked] at hnote
    split at hnote
    · have hnone := congrArg Proposals.notes (Option.some.inj hnote)
      cases hnone
    · obtain ⟨parts, _, hp⟩ := Option.map_eq_some_iff.mp hnote
      have hsuggestions := congrArg Proposals.suggestions hp
      cases hsuggestions
  · intro hlocked
    obtain ⟨earlier, line, later, hlines, hpin, _⟩ := isHashLocked_iff.mp hlocked
    have hmem : line ∈ splitlines file.2.toList := by rw [hlines]; simp
    have hpinned := hasPin_of_line hmem hpin
    have hstep : ∀ p, proposeFile env sameLetter difflib bump p file
        = some { p with
            notes := p.notes ++ [lockRegenerationNote env file.1 file.2.toList bump] } := by
      intro p
      unfold proposeFile
      dsimp only
      rw [if_neg (by simpa [hasPin] using hpinned), if_pos hlocked]
    exact ⟨propose_single.trans (hstep _), hstep⟩

/-- **A hash-locked requirement is left alone** exactly if there is a hash on the line of a pin,
or at the start of the next. Other lines of the requirement are not looked at. -/
theorem hash_locked_iff (env : PatchEnvironment) (sameLetter : Char → Char → Bool)
    (difflib : Difflib) (bump : VersionBump) (path content : String) :
    (HashLocked sameLetter bump content.toList →
        LeftAlone env sameLetter difflib bump (path, content))
      ↔ (¬ HashLocked sameLetter bump content.toList
        ∨ HashNearby sameLetter bump content.toList) := by
  rw [leftAlone_iff, ← imp_iff_not_or]

def markedLock : String :=
  "foo==1 \\\n    ; python_version >= '3' \\\n    --hash=sha256:aa\n"

/-- **A diff for a locked requirement**: a marker stands between the pin and the hash. -/
theorem locked_pin_rewritten :
    ¬ ∀ (difflib : Difflib) (bump : VersionBump) (path content : String),
      HashLocked foldLetter bump content.toList →
        LeftAlone asciiEnvironment foldLetter difflib bump (path, content) := by
  intro h
  have hlocked : HashLocked foldLetter fooBump markedLock.toList := by
    refine ⟨splitlines markedLock.toList, ?_, ?_⟩
    · decide +kernel
    · decide +kernel
  have hnone : proposeVersionPatches asciiEnvironment foldLetter replaceAll [fooBump]
      [("r.txt", markedLock)] ≠ some ⟨[], [lockRegenerationNote asciiEnvironment "r.txt"
        markedLock.toList fooBump]⟩ := by
    decide +kernel
  exact hnone (h replaceAll fooBump "r.txt" markedLock hlocked).alone

end PipeLens.Proof
