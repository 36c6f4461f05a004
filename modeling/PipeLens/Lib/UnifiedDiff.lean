import Mathlib.Data.List.Infix

/-!
# Unified diffs

The format, and what it means to apply a diff by the book: the counts of a header are
those of the hunk, its old lines stand at the line that the header states, byte for byte,
and a hunk without old lines goes behind that line. A line ends with `\n` and with nothing
else; a note behind it says that it has no newline.

A diff is given by its parts, and its text is what they make. Lines in front of the first
header say nothing, and so do the lines from the first one on that is no line of a hunk.
-/

namespace Unified

/-! ## Lines of a text -/

/-- Cuts a text behind each newline. -/
def cutLines : List Char → List (List Char)
  | [] => []
  | c :: rest =>
      if c = '\n' then ['\n'] :: cutLines rest
      else
        match cutLines rest with
        | [] => [[c]]
        | line :: lines => (c :: line) :: lines

/-- Empty, or with a newline at the end. -/
def Ended (text : List Char) : Prop := ∀ c ∈ text.getLast?, c = '\n'

instance (text : List Char) : Decidable (Ended text) := Option.decidableForallMem text.getLast?

theorem flatten_cutLines (text : List Char) : (cutLines text).flatten = text := by
  fun_induction cutLines text with
  | case1 => rfl
  | case2 rest ih => simp [ih]
  | case3 c rest hc hnone ih => simpa [hnone] using ih
  | case4 c rest hc line lines hlines ih =>
      rw [hlines] at ih
      rw [← ih]
      rfl

theorem cutLines_ne_nil {text : List Char} : ∀ line ∈ cutLines text, line ≠ [] := by
  fun_induction cutLines text with
  | case1 => exact nofun
  | case2 rest ih =>
      intro line hline
      rcases List.mem_cons.mp hline with rfl | hline
      · exact List.cons_ne_nil _ _
      · exact ih line hline
  | case3 c rest hc hnone ih =>
      intro line hline
      rw [List.mem_singleton.mp hline]
      exact List.cons_ne_nil _ _
  | case4 c rest hc line lines hlines ih =>
      intro other hother
      rcases List.mem_cons.mp hother with rfl | hother
      · exact List.cons_ne_nil _ _
      · exact ih other (hlines ▸ List.mem_cons_of_mem _ hother)

/-- Every line of such a text has its newline. -/
theorem Ended.getLast_line {text : List Char} (h : Ended text) :
    ∀ line ∈ cutLines text, line.getLast? = some '\n' := by
  fun_induction cutLines text with
  | case1 => exact nofun
  | case2 rest ih =>
      intro line hline
      rcases List.mem_cons.mp hline with rfl | hline
      · rfl
      · refine ih (fun d hd => h d ?_) line hline
        rw [List.getLast?_cons, Option.mem_def.mp hd]
        rfl
  | case3 c rest hc hnone ih =>
      have hrest : rest = [] := by rw [← flatten_cutLines rest, hnone]; rfl
      rw [hrest] at h
      exact absurd (h c rfl) hc
  | case4 c rest hc line lines hlines ih =>
      have hne : rest ≠ [] := by
        intro hnil
        rw [hnil] at hlines
        exact nomatch hlines
      have hrest := ih fun d hd => h d (by rwa [List.getLast?_cons_of_ne_nil hne])
      intro other hother
      rcases List.mem_cons.mp hother with rfl | hother
      · have hline : line ∈ cutLines rest := hlines ▸ List.mem_cons_self
        rw [List.getLast?_cons_of_ne_nil (cutLines_ne_nil line hline)]
        exact hrest line hline
      · exact hrest other (hlines ▸ List.mem_cons_of_mem _ hother)

/-! ## The format -/

/-- What can stand on a line. -/
abbrev LineText := { text : List Char // '\n' ∉ text }

/-- A number as it is written. -/
structure Number where
  digits : List Char
  nonempty : digits ≠ []
  isDigit : ∀ c ∈ digits, c.isDigit = true

def Number.value (number : Number) : Nat := Nat.ofDigitChars 10 number.digits 0

def Number.ofNat (n : Nat) : Number where
  digits := Nat.toDigits 10 n
  nonempty := Nat.toDigits_ne_nil
  isDigit := fun _ hc => Nat.isDigit_of_mem_toDigits (by decide) (by decide) hc

/-- A range of lines. A count that is left out is 1. -/
structure Range where
  start : Number
  count : Option Number

namespace Range

def size (range : Range) : Nat := (range.count.map Number.value).getD 1

def countText (range : Range) : List Char :=
  match range.count with
  | none => []
  | some count => ',' :: count.digits

end Range

inductive Sign where
  | context | removed | added
  deriving DecidableEq, Repr

def Sign.symbol : Sign → Char
  | .context => ' '
  | .removed => '-'
  | .added => '+'

inductive Line where
  | body (sign : Sign) (text : LineText)
  /-- Nothing at all, for a line of context without text. -/
  | bare
  /-- The line before has no newline. -/
  | note (text : LineText)

def Line.text : Line → List Char
  | .body sign text => sign.symbol :: text.val ++ ['\n']
  | .bare => ['\n']
  | .note text => '\\' :: ' ' :: text.val ++ ['\n']

structure Hunk where
  old : Range
  new : Range
  /-- What follows the ranges in the header. -/
  heading : LineText
  lines : List Line

/-- The text of a header. -/
def headerText (old new : Range) (heading : List Char) : List Char :=
  "@@ -".toList ++ (old.start.digits ++ (old.countText ++ (" +".toList
    ++ (new.start.digits ++ (new.countText ++ (" @@".toList ++ heading))))))

theorem ne_headerText {line : List Char} (h : line.head? ≠ some '@') (old new : Range)
    (heading : List Char) : line ≠ headerText old new heading := by
  intro heq
  rw [heq] at h
  exact h rfl

def Hunk.texts (hunk : Hunk) : List (List Char) :=
  (headerText hunk.old hunk.new hunk.heading.val ++ ['\n']) :: hunk.lines.map Line.text

/-- How the lines of a hunk begin, if they are not bare. -/
def isHunkSign (c : Char) : Bool := [' ', '-', '+', '\\'].contains c

/-- A diff of one file. -/
structure Diff where
  /-- What stands in front of the first header. -/
  preamble : List LineText
  hunks : List Hunk
  /-- What stands behind the last hunk. -/
  trailer : List LineText
  nonempty : hunks ≠ []
  noHeader : ∀ line ∈ preamble ++ trailer, ∀ old new heading, line.val ≠ headerText old new heading
  noHunkLine : ∀ line ∈ trailer.head?, ∃ c, line.val.head? = some c ∧ isHunkSign c = false

namespace Diff

def preambleText (diff : Diff) : List Char := diff.preamble.flatMap fun line => line.val ++ ['\n']

def trailerText (diff : Diff) : List Char := diff.trailer.flatMap fun line => line.val ++ ['\n']

def text (diff : Diff) : List Char :=
  diff.preambleText ++ ((diff.hunks.flatMap Hunk.texts).flatten ++ diff.trailerText)

end Diff

/-! ## Application -/

/-- How a line ends, as what comes behind it says. -/
def ending : List Line → List Char
  | .note _ :: _ => []
  | _ => ['\n']

/-- The lines of a hunk with their ends. -/
def entries : List Line → List (Sign × List Char)
  | [] => []
  | .body sign text :: lines => (sign, text.val ++ ending lines) :: entries lines
  | .bare :: lines => (.context, ending lines) :: entries lines
  | .note _ :: lines => entries lines

namespace Hunk

def oldLines (hunk : Hunk) : List (List Char) :=
  ((entries hunk.lines).filter fun entry => entry.1 ≠ .added).map Prod.snd

def newLines (hunk : Hunk) : List (List Char) :=
  ((entries hunk.lines).filter fun entry => entry.1 ≠ .removed).map Prod.snd

/-- The header has the counts of the hunk. -/
def CountsAgree (hunk : Hunk) : Prop :=
  hunk.old.size = hunk.oldLines.length ∧ hunk.new.size = hunk.newLines.length

instance (hunk : Hunk) : Decidable hunk.CountsAgree := inferInstanceAs (Decidable (_ ∧ _))

/-- The lines of the file in front of a hunk. Old lines cannot start at a line 0. -/
def position (hunk : Hunk) : Option Nat :=
  if hunk.oldLines = [] then some hunk.old.start.value
  else if hunk.old.start.value = 0 then none
  else some (hunk.old.start.value - 1)

/-- The last line of the file that a hunk is about. -/
def reach (hunk : Hunk) : Nat :=
  if hunk.oldLines = [] then hunk.old.start.value
  else hunk.old.start.value - 1 + hunk.oldLines.length

end Hunk

/-- The application from line `done` on. Every hunk has to stand where it is stated. -/
def applyHunks (lines : List (List Char)) : Nat → List Hunk → Option (List (List Char))
  | done, [] => some (lines.drop done)
  | done, hunk :: hunks => do
      let position ← hunk.position
      if done ≤ position ∧ position ≤ lines.length
          ∧ (lines.drop position).take hunk.oldLines.length = hunk.oldLines then
        let rest ← applyHunks lines (position + hunk.oldLines.length) hunks
        return (lines.drop done).take (position - done) ++ hunk.newLines ++ rest
      else none

namespace Diff

/-- The file with the diff applied. -/
def apply (diff : Diff) (original : List Char) : Option (List Char) :=
  if ∀ hunk ∈ diff.hunks, hunk.CountsAgree then
    (applyHunks (cutLines original) 0 diff.hunks).map List.flatten
  else none

/-- A count is wrong, or the old lines of a hunk are nowhere in the file. -/
def Disagrees (diff : Diff) (original : List Char) : Prop :=
  (∃ hunk ∈ diff.hunks, ¬ hunk.CountsAgree)
    ∨ ∃ hunk ∈ diff.hunks, ¬ hunk.oldLines <:+: cutLines original

end Diff

/-- What the application asks of the first hunk. -/
theorem applyHunks_cons {lines result : List (List Char)} {done : Nat} {hunk : Hunk}
    {hunks : List Hunk} (h : applyHunks lines done (hunk :: hunks) = some result) :
    ∃ position rest, hunk.position = some position ∧ done ≤ position
      ∧ position ≤ lines.length
      ∧ (lines.drop position).take hunk.oldLines.length = hunk.oldLines
      ∧ applyHunks lines (position + hunk.oldLines.length) hunks = some rest
      ∧ result = (lines.drop done).take (position - done) ++ hunk.newLines ++ rest := by
  unfold applyHunks at h
  obtain ⟨position, hposition, h⟩ := Option.bind_eq_some_iff.mp h
  split at h
  · rename_i hchecks
    obtain ⟨rest, hrest, h⟩ := Option.bind_eq_some_iff.mp h
    exact ⟨position, rest, hposition, hchecks.1, hchecks.2.1, hchecks.2.2, hrest,
      (Option.some.inj h).symm⟩
  · exact nomatch h

theorem Hunk.reach_eq {hunk : Hunk} {position : Nat} (h : hunk.position = some position) :
    hunk.reach = position + hunk.oldLines.length := by
  unfold Hunk.position at h
  unfold Hunk.reach
  split at h
  · rename_i hempty
    rw [if_pos hempty, Option.some.inj h, hempty, List.length_nil, Nat.add_zero]
  · rename_i hne
    split at h
    · exact nomatch h
    · rw [if_neg hne, Option.some.inj h]

/-- No hunk is about lines that the file does not have. -/
theorem reach_le {lines result : List (List Char)} {done : Nat} {hunks : List Hunk}
    (h : applyHunks lines done hunks = some result) :
    ∀ hunk ∈ hunks, hunk.reach ≤ lines.length := by
  induction hunks generalizing done result with
  | nil => exact nofun
  | cons hunk hunks ih =>
      obtain ⟨position, rest, hposition, _, hle, hwindow, hrest, _⟩ := applyHunks_cons h
      intro other hother
      rcases List.mem_cons.mp hother with rfl | hother
      · have hlength := congrArg List.length hwindow
        rw [List.length_take, List.length_drop] at hlength
        rw [Hunk.reach_eq hposition]
        omega
      · exact ih hrest other hother

/-- The lines that all hunks are about. -/
theorem exists_reach {lines : List (List Char)} {p : List Char → Prop} {hunks : List Hunk}
    (hle : ∀ hunk ∈ hunks, hunk.reach ≤ lines.length)
    (h : ∀ hunk ∈ hunks, ∀ line ∈ lines.take hunk.reach, p line) :
    ∃ front back, lines = front ++ back ∧ (∀ hunk ∈ hunks, hunk.reach ≤ front.length)
      ∧ ∀ line ∈ front, p line := by
  suffices hcount : ∃ k ≤ lines.length, (∀ hunk ∈ hunks, hunk.reach ≤ k)
      ∧ ∀ line ∈ lines.take k, p line by
    obtain ⟨k, hk, hreach, hlines⟩ := hcount
    refine ⟨lines.take k, lines.drop k, (List.take_append_drop k lines).symm, ?_, hlines⟩
    rwa [List.length_take, Nat.min_eq_left hk]
  induction hunks with
  | nil => exact ⟨0, Nat.zero_le _, nofun, nofun⟩
  | cons hunk hunks ih =>
      rw [List.forall_mem_cons] at hle h
      obtain ⟨k, hk, hreach, hlines⟩ := ih hle.2 h.2
      rcases Nat.le_total hunk.reach k with hsmall | hlarge
      · exact ⟨k, hk, List.forall_mem_cons.mpr ⟨hsmall, hreach⟩, hlines⟩
      · exact ⟨hunk.reach, hle.1, List.forall_mem_cons.mpr ⟨Nat.le_refl _,
          fun other hother => (hreach other hother).trans hlarge⟩, h.1⟩

end Unified
