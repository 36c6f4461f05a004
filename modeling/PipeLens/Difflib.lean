import PipeLens.Patching

/-!
# Rendering a diff

`render_unified_diff` of `patching.py`, with what it uses of `difflib`. Which lines
`SequenceMatcher` takes for changed is left open: a `Difflib` has some edit script for
any two files. An edit script is a list of marked lines that has both files as its views.

What `unified_diff` makes of the script is fixed. A line is shown if it is changed or at
most `n` lines away from a changed one, and lines in a row that are shown make a hunk.
-/

namespace PipeLens

/-- `SequenceMatcher`, up to the choice of an edit script. -/
structure Difflib where
  script : List (List Char) → List (List Char) → List (Marker × List Char)
  old_eq : ∀ old new, ((script old new).filter fun line => line.1 ≠ .added).map Prod.snd = old
  new_eq : ∀ old new, ((script old new).filter fun line => line.1 ≠ .removed).map Prod.snd = new

/-- The first character of a line in a hunk. -/
def Marker.symbol : Marker → Char
  | .context => ' '
  | .removed => '-'
  | .added => '+'

/-- A group of `get_grouped_opcodes`: where it starts in the two files, from 0, and its lines. -/
structure OpcodeGroup where
  oldStart : Nat
  newStart : Nat
  lines : List (Marker × List Char)
  deriving DecidableEq, Repr

/-- Whether a changed line is among the next `n + 1` lines, or the `n` lines before them. -/
def isShown (n : Nat) (before after : List (Marker × List Char)) : Bool :=
  (before.take n).any (fun line => line.1 ≠ .context)
    || (after.take (n + 1)).any fun line => line.1 ≠ .context

/-- The lines of a script that the old file has. -/
def oldCount (script : List (Marker × List Char)) : Nat :=
  (script.filter fun line => line.1 ≠ .added).length

/-- The lines of a script that the new file has. -/
def newCount (script : List (Marker × List Char)) : Nat :=
  (script.filter fun line => line.1 ≠ .removed).length

/-- `get_grouped_opcodes(n)` from here on; `before` is what the script has before, in reverse. -/
def groupedOpcodes (n : Nat) (before : List (Marker × List Char)) :
    List (Marker × List Char) → List OpcodeGroup
  | [] => []
  | line :: after =>
      let later := groupedOpcodes n (line :: before) after
      if !isShown n before (line :: after) then later
      else if after.isEmpty || !isShown n (line :: before) after then
        ⟨oldCount before, newCount before, [line]⟩ :: later
      else
        match later with
        | [] => [⟨oldCount before, newCount before, [line]⟩]
        | group :: later => ⟨oldCount before, newCount before, line :: group.lines⟩ :: later

/-- `_format_range_unified`, for a range by its start and its length. -/
def formatRangeUnified (start length : Nat) : List Char :=
  if length = 1 then (toString (start + 1)).toList
  else (toString (if length = 0 then start else start + 1)).toList
    ++ ',' :: (toString length).toList

/-- The lines of `unified_diff` for one group. -/
def OpcodeGroup.render (group : OpcodeGroup) : List (List Char) :=
  ("@@ -".toList ++ formatRangeUnified group.oldStart (oldCount group.lines) ++ " +".toList
    ++ formatRangeUnified group.newStart (newCount group.lines) ++ " @@\n".toList)
    :: group.lines.map fun line => line.1.symbol :: line.2

/-- `difflib.unified_diff`, for an edit script of the two files. -/
def unifiedDiff (n : Nat) (fromfile tofile : String) (script : List (Marker × List Char)) :
    List (List Char) :=
  match groupedOpcodes n [] script with
  | [] => []
  | groups =>
      ("--- " ++ fromfile ++ "\n").toList :: ("+++ " ++ tofile ++ "\n").toList
        :: groups.flatMap OpcodeGroup.render

/-- `render_unified_diff`. -/
def renderUnifiedDiff (difflib : Difflib) (path : String) (original updated : List Char) :
    List Char :=
  (unifiedDiff 2 ("a/" ++ path) ("b/" ++ path)
    (difflib.script (Text.rawLines original) (Text.rawLines updated))).flatten

end PipeLens
