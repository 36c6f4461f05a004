import PipeLens.Proof.HunkPlacement

/-!
# Privileges and triggers in a verified workflow patch

The policy looks at each changed line of a workflow by itself. It rejects the lines of
the keys `permissions` and `on`, and so a patch neither adds nor removes a key. What it
cannot see is which block a changed line lands in.

The hunks are laid over the file, and behind each key the first change is looked up that
comes before its block ends. If no such change lands in the block or moves its end, and
no key is made or broken where lines run together, the blocks stay as they are. A change
that lands in a block can only go unnoticed there by putting back the line it takes away.
-/

namespace PipeLens.Proof

open Text

variable {unicode : Unicode}

/-! ## Blocks -/

/-- The number of leading blanks. -/
def indent (line : List Char) : Nat := (line.takeWhile (· == ' ')).length

/-- Whether the line is that of a key, at any depth. -/
def isKey (name : String) (line : List Char) : Bool :=
  let text := line.dropWhile (· == ' ')
  startsWith name text && ((text.drop name.length).dropWhile (· == ' ')).head? == some ':'

/-- The keys that grant privileges or trigger runs. -/
def isSensitiveKey (line : List Char) : Bool :=
  isKey "permissions" line || (isKey "on" line && indent line == 0)

/-- Each `permissions:` block and the top-level `on:` block: the line of the key and the lines
below it that are indented deeper. -/
def blocks : List (List Char) → List (List (List Char))
  | [] => []
  | line :: rest =>
      if isSensitiveKey line then
        (line :: rest.takeWhile fun below => decide (indent line < indent below)) :: blocks rest
      else blocks rest

/-- No key is added or removed. -/
def KeysKept (lines : List (Marker × List Char)) : Prop :=
  ∀ line ∈ lines, line.1 ≠ .context → isSensitiveKey line.2 = false

/-- The first change behind a key, before its block ends. -/
structure Landing where
  /-- That of the key. -/
  depth : Nat
  line : List Char
  /-- What the version without the line has there. -/
  other : Option (List Char)

/-- Neither the changed line nor the one that the other version has there is in the block. -/
structure Landing.IsOutside (landing : Landing) : Prop where
  line : indent landing.line ≤ landing.depth
  other : ∀ other ∈ landing.other, indent other ≤ landing.depth

/-- Where the first change behind a key of depth `d` lands. -/
def landing (d : Nat) : List (Marker × List Char) → Option Landing
  | [] => none
  | (.context, line) :: rest => if d < indent line then landing d rest else none
  | (.removed, line) :: rest =>
      some ⟨d, line, (rest.find? fun next => next.1 ≠ .removed).map Prod.snd⟩
  | (.added, line) :: rest =>
      some ⟨d, line, (rest.find? fun next => next.1 ≠ .added).map Prod.snd⟩

/-- Where the first changes behind the keys that stay land. -/
def landings : List (Marker × List Char) → List Landing
  | [] => []
  | (marker, line) :: rest =>
      if marker = .context ∧ isSensitiveKey line = true then
        (landing (indent line) rest).toList ++ landings rest
      else landings rest

/-- No block is in the way of a change. -/
structure Spared (lines : List (Marker × List Char)) : Prop where
  keys : KeysKept lines
  outside : ∀ landing ∈ landings (solid lines), landing.IsOutside

/-- No change behind a key puts back the line that it takes away. -/
def NothingPutBack (lines : List (Marker × List Char)) : Prop :=
  ∀ landing ∈ landings (solid lines), landing.other ≠ some landing.line

/-! ## Changes behind a key -/

/-- The lines of a block. -/
def deeper (d : Nat) (lines : List (List Char)) : List (List Char) :=
  lines.takeWhile fun line => decide (d < indent line)

theorem deeper_cons_of_lt {d : Nat} {line : List Char} (h : d < indent line)
    (lines : List (List Char)) : deeper d (line :: lines) = line :: deeper d lines :=
  List.takeWhile_cons_of_pos (by simpa using h)

theorem deeper_cons_of_le {d : Nat} {line : List Char} (h : indent line ≤ d)
    (lines : List (List Char)) : deeper d (line :: lines) = [] :=
  List.takeWhile_cons_of_neg (by simpa using h)

theorem deeper_eq_nil_iff {d : Nat} {lines : List (List Char)} :
    deeper d lines = [] ↔ ∀ line ∈ lines.head?, indent line ≤ d := by
  cases lines with
  | nil => simp [deeper]
  | cons line lines =>
      rcases Nat.lt_or_ge d (indent line) with h | h
      · rw [deeper_cons_of_lt h]
        simp [h]
      · rw [deeper_cons_of_le h]
        simp [h]

theorem oldView_head (lines : List (Marker × List Char)) :
    (oldView lines).head? = (lines.find? fun next => next.1 ≠ .added).map Prod.snd := by
  rw [oldView, List.head?_map, List.head?_filter]

theorem newView_head (lines : List (Marker × List Char)) :
    (newView lines).head? = (lines.find? fun next => next.1 ≠ .removed).map Prod.snd := by
  rw [newView, List.head?_map, List.head?_filter]

/-- One version has a line more in front of the block. -/
theorem deeper_cons_iff {d : Nat} {line : List Char} {lines others : List (List Char)}
    (hother : others.head? ≠ some line) :
    deeper d (line :: lines) = deeper d others
      ↔ indent line ≤ d ∧ ∀ other ∈ others.head?, indent other ≤ d := by
  rcases Nat.lt_or_ge d (indent line) with hlt | hle
  · rw [deeper_cons_of_lt hlt]
    constructor
    · intro h
      -- the other version would have to go on with the same line
      cases others with
      | nil => exact nomatch h
      | cons other others =>
          rcases Nat.lt_or_ge d (indent other) with hin | hout
          · rw [deeper_cons_of_lt hin] at h
            exact absurd (congrArg some (List.cons.inj h).1.symm) hother
          · rw [deeper_cons_of_le hout] at h
            exact nomatch h
    · intro h
      omega
  · rw [deeper_cons_of_le hle, eq_comm, deeper_eq_nil_iff]
    exact (and_iff_right hle).symm

/-- Changes outside leave the block as it is. -/
theorem deeper_eq_of_outside {d : Nat} {lines : List (Marker × List Char)}
    (h : ∀ l ∈ landing d lines, l.IsOutside) :
    deeper d (oldView lines) = deeper d (newView lines) := by
  induction lines with
  | nil => rfl
  | cons line rest ih =>
      obtain ⟨marker, line⟩ := line
      cases marker with
      | context =>
          show deeper d (line :: oldView rest) = deeper d (line :: newView rest)
          rcases Nat.lt_or_ge d (indent line) with hlt | hle
          · rw [landing, if_pos hlt] at h
            rw [deeper_cons_of_lt hlt, deeper_cons_of_lt hlt, ih h]
          · rw [deeper_cons_of_le hle, deeper_cons_of_le hle]
      | removed =>
          have hout := h _ rfl
          show deeper d (line :: oldView rest) = deeper d (newView rest)
          -- both blocks end here
          rw [deeper_cons_of_le hout.line, eq_comm, deeper_eq_nil_iff, newView_head]
          exact hout.other
      | added =>
          have hout := h _ rfl
          show deeper d (oldView rest) = deeper d (line :: newView rest)
          rw [deeper_cons_of_le hout.line, deeper_eq_nil_iff, oldView_head]
          exact hout.other

/-- A change in the block shows, unless it puts back the line that it takes away. -/
theorem outside_of_deeper_eq {d : Nat} {lines : List (Marker × List Char)}
    (hback : ∀ l ∈ landing d lines, l.other ≠ some l.line)
    (h : deeper d (oldView lines) = deeper d (newView lines)) :
    ∀ l ∈ landing d lines, l.IsOutside := by
  induction lines with
  | nil => exact nofun
  | cons line rest ih =>
      obtain ⟨marker, line⟩ := line
      cases marker with
      | context =>
          have h : deeper d (line :: oldView rest) = deeper d (line :: newView rest) := h
          rcases Nat.lt_or_ge d (indent line) with hlt | hle
          · rw [landing, if_pos hlt] at hback ⊢
            rw [deeper_cons_of_lt hlt, deeper_cons_of_lt hlt] at h
            exact ih hback (List.cons.inj h).2
          · rw [landing, if_neg (Nat.not_lt.mpr hle)]
            exact nofun
      | removed =>
          have h : deeper d (line :: oldView rest) = deeper d (newView rest) := h
          have hother := hback _ rfl
          rw [← newView_head] at hother
          intro l hl
          obtain rfl := Option.some.inj hl
          obtain ⟨hline, hnext⟩ := (deeper_cons_iff hother).mp h
          exact ⟨hline, fun other hmem => hnext other (newView_head rest ▸ hmem)⟩
      | added =>
          have h : deeper d (oldView rest) = deeper d (line :: newView rest) := h
          have hother := hback _ rfl
          rw [← oldView_head] at hother
          intro l hl
          obtain rfl := Option.some.inj hl
          obtain ⟨hline, hnext⟩ := (deeper_cons_iff hother).mp h.symm
          exact ⟨hline, fun other hmem => hnext other (oldView_head rest ▸ hmem)⟩

theorem landings_key {line : List Char} (h : isSensitiveKey line = true)
    (rest : List (Marker × List Char)) :
    landings ((.context, line) :: rest)
      = (landing (indent line) rest).toList ++ landings rest := by
  rw [landings, if_pos ⟨rfl, h⟩]

theorem landings_other {line : List Char} (h : isSensitiveKey line = false) (marker : Marker)
    (rest : List (Marker × List Char)) : landings ((marker, line) :: rest) = landings rest := by
  rw [landings, if_neg fun hboth => by simp [h] at hboth]

theorem blocks_cons (line : List Char) (rest : List (List Char)) :
    blocks (line :: rest)
      = if isSensitiveKey line then (line :: deeper (indent line) rest) :: blocks rest
        else blocks rest := rfl

theorem blocks_cons_other {line : List Char} (h : isSensitiveKey line = false)
    (rest : List (List Char)) : blocks (line :: rest) = blocks rest := by
  rw [blocks_cons, h]
  rfl

/-- A key that stays: its block, and then the blocks behind it. -/
theorem blocks_key_iff {line : List Char} (h : isSensitiveKey line = true)
    {olds news : List (List Char)} :
    blocks (line :: news) = blocks (line :: olds)
      ↔ deeper (indent line) olds = deeper (indent line) news ∧ blocks news = blocks olds := by
  rw [blocks_cons, blocks_cons, if_pos h, if_pos h, List.cons.injEq, List.cons.injEq,
    eq_comm (a := deeper _ olds)]
  simp

section Views

variable {merged : List (Marker × List Char)} (hkept : KeysKept merged)
include hkept

/-- **Changes outside the blocks** leave them as they are. -/
theorem blocks_eq_of_outside (h : ∀ l ∈ landings merged, l.IsOutside) :
    blocks (newView merged) = blocks (oldView merged) := by
  induction merged with
  | nil => rfl
  | cons line rest ih =>
      obtain ⟨marker, line⟩ := line
      have hkept' : KeysKept rest := fun l hl => hkept l (List.mem_cons_of_mem _ hl)
      have hhead := hkept _ List.mem_cons_self
      cases marker with
      | context =>
          show blocks (line :: newView rest) = blocks (line :: oldView rest)
          cases hkey : isSensitiveKey line with
          | true =>
              rw [landings_key hkey, List.forall_mem_append] at h
              refine (blocks_key_iff hkey).mpr ⟨deeper_eq_of_outside fun l hl => h.1 l ?_,
                ih hkept' h.2⟩
              rwa [Option.mem_toList]
          | false =>
              rw [landings_other hkey] at h
              rw [blocks_cons_other hkey, blocks_cons_other hkey, ih hkept' h]
      | removed =>
          rw [landings_other (hhead nofun)] at h
          show blocks (newView rest) = blocks (line :: oldView rest)
          rw [blocks_cons_other (hhead nofun), ih hkept' h]
      | added =>
          rw [landings_other (hhead nofun)] at h
          show blocks (line :: newView rest) = blocks (oldView rest)
          rw [blocks_cons_other (hhead nofun), ih hkept' h]

/-- **Blocks that stay** have no change in them, if none is undone. -/
theorem outside_of_blocks_eq (hback : ∀ l ∈ landings merged, l.other ≠ some l.line)
    (h : blocks (newView merged) = blocks (oldView merged)) :
    ∀ l ∈ landings merged, l.IsOutside := by
  induction merged with
  | nil => exact nofun
  | cons line rest ih =>
      obtain ⟨marker, line⟩ := line
      have hkept' : KeysKept rest := fun l hl => hkept l (List.mem_cons_of_mem _ hl)
      have hhead := hkept _ List.mem_cons_self
      cases marker with
      | context =>
          have h : blocks (line :: newView rest) = blocks (line :: oldView rest) := h
          cases hkey : isSensitiveKey line with
          | true =>
              -- the block of this key is the same, and so are those behind it
              obtain ⟨hdeeper, hblocks⟩ := (blocks_key_iff hkey).mp h
              rw [landings_key hkey, List.forall_mem_append] at hback ⊢
              have hlanding := outside_of_deeper_eq (fun l hl => hback.1 l (by
                rwa [Option.mem_toList])) hdeeper
              exact ⟨fun l hl => hlanding l (by rwa [Option.mem_toList] at hl),
                ih hkept' hback.2 hblocks⟩
          | false =>
              rw [landings_other hkey] at hback ⊢
              rw [blocks_cons_other hkey, blocks_cons_other hkey] at h
              exact ih hkept' hback h
      | removed =>
          have h : blocks (newView rest) = blocks (line :: oldView rest) := h
          rw [landings_other (hhead nofun)] at hback ⊢
          rw [blocks_cons_other (hhead nofun)] at h
          exact ih hkept' hback h
      | added =>
          have h : blocks (line :: newView rest) = blocks (oldView rest) := h
          rw [landings_other (hhead nofun)] at hback ⊢
          rw [blocks_cons_other (hhead nofun)] at h
          exact ih hkept' hback h

end Views

/-! ## The keys -/

def keys (lines : List (List Char)) : List (List Char) := lines.filter isSensitiveKey

theorem keys_append (xs ys : List (List Char)) : keys (xs ++ ys) = keys xs ++ keys ys :=
  List.filter_append ..

/-- Each block has its key in front. -/
theorem blocks_keys (lines : List (List Char)) :
    (blocks lines).map List.head? = (keys lines).map some := by
  induction lines with
  | nil => rfl
  | cons line rest ih =>
      unfold blocks keys
      split
      · rename_i hkey
        rw [List.filter_cons_of_pos hkey, List.map_cons, List.map_cons, ih]
        rfl
      · rename_i hkey
        rw [List.filter_cons_of_neg hkey, ih]
        rfl

theorem keys_eq_of_blocks {lines lines' : List (List Char)} (h : blocks lines = blocks lines') :
    keys lines = keys lines' := by
  have hmap : (keys lines).map some = (keys lines').map some := by
    rw [← blocks_keys, ← blocks_keys, h]
  exact List.map_injective_iff.mpr (fun _ _ => Option.some.inj) hmap

/-- A line counts in both versions, or not at all. -/
theorem keys_cons_iff {marker : Marker} {text : List Char} {rest : List (Marker × List Char)}
    (hhead : marker ≠ .context → isSensitiveKey text = false) :
    keys (oldView ((marker, text) :: rest)) = keys (newView ((marker, text) :: rest))
      ↔ keys (oldView rest) = keys (newView rest) := by
  cases marker with
  | context =>
      show keys ([text] ++ oldView rest) = keys ([text] ++ newView rest) ↔ _
      rw [keys_append, keys_append, List.append_cancel_left_eq]
  | removed =>
      show keys ([text] ++ oldView rest) = keys (newView rest) ↔ _
      have hnot : isSensitiveKey text = false := hhead nofun
      simp [keys, hnot]
  | added =>
      show keys (oldView rest) = keys ([text] ++ newView rest) ↔ _
      have hnot : isSensitiveKey text = false := hhead nofun
      simp [keys, hnot]

namespace KeysKept

variable {lines : List (Marker × List Char)}

theorem sublist {lines' : List (Marker × List Char)} (h : KeysKept lines)
    (hsub : ∀ line ∈ lines', line ∈ lines) : KeysKept lines' :=
  fun line hline => h line (hsub line hline)

theorem cons {marker : Marker} {text : List Char}
    (h : marker ≠ .context → isSensitiveKey text = false) (hlines : KeysKept lines) :
    KeysKept ((marker, text) :: lines) := by
  intro line hline
  rcases List.mem_cons.mp hline with rfl | hline
  · exact h
  · exact hlines line hline

theorem keys_eq (h : KeysKept lines) : keys (oldView lines) = keys (newView lines) := by
  induction lines with
  | nil => rfl
  | cons line rest ih =>
      have hrest : keys (oldView rest) = keys (newView rest) :=
        ih fun line hline => h line (List.mem_cons_of_mem _ hline)
      exact (keys_cons_iff (h _ List.mem_cons_self)).mpr hrest

end KeysKept

theorem mem_removedFrom {marker : Marker} {text : List Char} {line : Marker × List Char}
    (h : line ∈ removedFrom marker text) : line = (.removed, text) := by
  cases marker with
  | context => exact List.mem_singleton.mp h
  | removed => exact nomatch h
  | added => exact nomatch h

theorem mem_oldView_of_removed {gone : List (Marker × List Char)} {text : List Char}
    (h : (Marker.removed, text) ∈ gone) : text ∈ oldView gone :=
  List.mem_map_of_mem (List.mem_filter.mpr ⟨h, by simp⟩)

theorem keys_singleton_of_ne {lines : List (List Char)} {joined : List Char}
    (h : keys lines = keys [joined]) (hne : ∀ line ∈ lines, line ≠ joined) :
    keys lines = [] ∧ isSensitiveKey joined = false := by
  cases hkey : isSensitiveKey joined with
  | false =>
      refine ⟨?_, rfl⟩
      rw [h]
      simp [keys, hkey]
  | true =>
      have hmem : joined ∈ keys lines := by
        rw [h]
        exact List.mem_filter.mpr ⟨List.mem_singleton.mpr rfl, hkey⟩
      exact absurd rfl (hne joined (List.mem_filter.mp hmem).1)

/-- If the keys are the same, what runs together has neither been a key nor become one. -/
theorem keysKept_runInto {marker : Marker} {text : List Char} {rest : List (Marker × List Char)}
    (htext : text ≠ []) (hadded : marker ≠ .context → isSensitiveKey text = false)
    (hrest : KeysKept rest)
    (hkeys : keys (oldView (runInto marker text rest)) = keys (newView (runInto marker text rest))) :
    KeysKept (runInto marker text rest) := by
  rcases runInto_cases marker text rest with ⟨_, heq⟩ |
    ⟨gone, marker', next, after, rfl, hgone, hmarker', ⟨_, heq⟩ | ⟨hnext, heq⟩⟩
  · rw [heq]
    exact hrest.cons hadded
  · rw [heq]
    refine (hrest.sublist fun line hline => ?_).cons hadded
    rcases List.mem_append.mp hline with hline | hline
    · exact List.mem_append_left _ hline
    · exact List.mem_append_right _ (List.mem_cons_of_mem _ hline)
  · have hkept : KeysKept gone := hrest.sublist fun line => List.mem_append_left _
    have hafter : KeysKept after :=
      hrest.sublist fun line hline => List.mem_append_right _ (List.mem_cons_of_mem _ hline)
    have hgoneKeys : keys (oldView gone) = [] := by
      rw [hkept.keys_eq, newView_removed hgone]
      rfl
    -- the keys that were there before, and the one that may be there now
    have hsame : keys (oldView (removedFrom marker text) ++ oldView (removedFrom marker' next))
        = keys [text ++ next] := by
      have hcons : oldView ((Marker.added, text ++ next) :: after) = oldView after := rfl
      rw [heq, oldView_append, oldView_append, oldView_append, hcons, newView_append,
        newView_append, newView_append, newView_removed hgone, newView_removedFrom,
        newView_removedFrom, newView_cons (by decide), List.nil_append, List.nil_append,
        List.nil_append, ← List.singleton_append, keys_append, keys_append, keys_append,
        keys_append, hgoneKeys, hafter.keys_eq, List.append_nil] at hkeys
      rw [keys_append]
      exact List.append_cancel_right hkeys
    rw [← oldView_append] at hsame
    have hremoved : ∀ line ∈ removedFrom marker text ++ removedFrom marker' next,
        line.1 = .removed ∧ (line.2 = text ∨ line.2 = next) := by
      intro line hline
      rcases List.mem_append.mp hline with hline | hline
      · rw [mem_removedFrom hline]
        exact ⟨rfl, Or.inl rfl⟩
      · rw [mem_removedFrom hline]
        exact ⟨rfl, Or.inr rfl⟩
    obtain ⟨hnone, hnot⟩ := keys_singleton_of_ne hsame fun line hline => by
      obtain ⟨old, hold, rfl⟩ := List.mem_map.mp hline
      rcases (hremoved old (List.mem_filter.mp hold).1).2 with h | h
      · rw [h]
        simpa using hnext
      · rw [h]
        simpa using htext
    have hlost : KeysKept (removedFrom marker text ++ removedFrom marker' next) := by
      intro line hline _
      have hold : line.2 ∈ oldView (removedFrom marker text ++ removedFrom marker' next) :=
        mem_oldView_of_removed ((hremoved line hline).1 ▸ hline)
      simpa using List.filter_eq_nil_iff.mp hnone line.2 hold
    rw [heq]
    intro line hline
    rcases List.mem_append.mp hline with hline | hline
    · rcases List.mem_append.mp hline with hline | hline
      · rcases List.mem_append.mp hline with hline | hline
        · exact hlost line (List.mem_append_left _ hline)
        · exact hkept line hline
      · exact hlost line (List.mem_append_right _ hline)
    · exact hafter.cons (fun _ => hnot) line hline

/-- As long as only the last line has no break, nothing runs together. -/
theorem keysKept_lineDiff_of_pairwise {merged : List (Marker × List Char)}
    (hbreaks : merged.Pairwise fun line _ => content line.2 ≠ line.2)
    (hkept : KeysKept (merged.map fun line => (line.1, content line.2))) :
    KeysKept (lineDiff merged) := by
  induction merged with
  | nil => exact fun _ hline => nomatch hline
  | cons line rest ih =>
      obtain ⟨marker, raw⟩ := line
      obtain ⟨hbreak, hbreaks⟩ := List.pairwise_cons.mp hbreaks
      have hhead : marker ≠ .context → isSensitiveKey (content raw) = false :=
        hkept _ List.mem_cons_self
      have hrest : KeysKept (lineDiff rest) :=
        ih hbreaks (hkept.sublist fun line => List.mem_cons_of_mem _)
      rw [lineDiff]
      split
      · exact hrest.cons hhead
      · rename_i hnot
        push Not at hnot
        split
        · exact hrest
        · cases rest with
          | nil =>
              rw [← hnot.2]
              exact hrest.cons hhead
          | cons next rest => exact absurd hnot.2 (hbreak next List.mem_cons_self)

/-- **Where lines run together** the keys tell whether one is made or broken. -/
theorem keysKept_lineDiff {merged : List (Marker × List Char)}
    (hloose : OneLoose (fun line => content line.2 ≠ line.2) merged)
    (hkept : KeysKept (merged.map fun line => (line.1, content line.2)))
    (hkeys : keys (oldView (lineDiff merged)) = keys (newView (lineDiff merged))) :
    KeysKept (lineDiff merged) := by
  induction merged with
  | nil => exact fun _ hline => nomatch hline
  | cons line rest ih =>
      obtain ⟨marker, raw⟩ := line
      have hhead : marker ≠ .context → isSensitiveKey (content raw) = false :=
        hkept _ List.mem_cons_self
      have hkept' : KeysKept (rest.map fun line => (line.1, content line.2)) :=
        hkept.sublist fun line => List.mem_cons_of_mem _
      rcases hloose with ⟨hbreak, hloose⟩ | hbreaks
      · rw [lineDiff, if_pos (Or.inr hbreak)] at hkeys ⊢
        refine (ih hloose hkept' ?_).cons hhead
        exact (keys_cons_iff hhead).mp hkeys
      · have hrest : KeysKept (lineDiff rest) := keysKept_lineDiff_of_pairwise hbreaks hkept'
        rw [lineDiff] at hkeys ⊢
        split at hkeys
        · rename_i hbreak
          rw [if_pos hbreak]
          exact hrest.cons hhead
        · rename_i hbreak
          rw [if_neg hbreak]
          push Not at hbreak
          rw [hbreak.2] at hhead
          split at hkeys
          · rename_i hempty
            rw [if_pos hempty]
            exact hrest
          · rename_i hne
            rw [if_neg hne]
            exact keysKept_runInto hne hhead hrest hkeys

/-! ## The keys that the policy knows -/

/-- What a key looks like. -/
theorem isKey_eq {name : String} {line : List Char} (h : isKey name line = true) :
    ∃ before between rest, line = before ++ (name.toList ++ (between ++ ':' :: rest))
      ∧ (∀ c ∈ before, c = ' ') ∧ ∀ c ∈ between, c = ' ' := by
  unfold isKey startsWith at h
  simp only [Bool.and_eq_true, beq_iff_eq, List.isPrefixOf_iff_prefix] at h
  obtain ⟨⟨tail, htail⟩, hcolon⟩ := h
  rw [← htail, ← String.length_toList, List.drop_left] at hcolon
  obtain ⟨rest, hrest⟩ := List.head?_eq_some_iff.mp hcolon
  refine ⟨line.takeWhile (· == ' '), tail.takeWhile (· == ' '), rest, ?_, ?_, ?_⟩
  · rw [← hrest, List.takeWhile_append_dropWhile, htail, List.takeWhile_append_dropWhile]
  · exact fun c hc => by simpa using List.mem_takeWhile_imp hc
  · exact fun c hc => by simpa using List.mem_takeWhile_imp hc

/-- The pattern for a key finds it. -/
theorem search_key {name : String} {line : List Char} (h : isKey name line = true) (r : Regex) :
    (Regex.alt (.all [.start, .star space, Regex.lit name, .star space, Regex.lit ":"]) r).search
      line = true := by
  obtain ⟨before, between, rest, rfl, hbefore, hbetween⟩ := isKey_eq h
  have hspace : ∀ {cs : List Char}, (∀ c ∈ cs, c = ' ') → ∀ c ∈ cs, isSpace c = true := by
    intro cs hcs c hc
    rw [hcs c hc]
    decide
  have hrun : (⟨[':'].reverse ++ (between.reverse ++ (name.toList.reverse ++ (before.reverse ++ []))),
        rest, []⟩ : Regex.Pos)
      ∈ (Regex.all [.start, .star space, Regex.lit name, .star space, Regex.lit ":"]).run
        ⟨[], before ++ (name.toList ++ (between ++ ':' :: rest)), []⟩ := by
    refine Regex.mem_run_seq _ (List.mem_singleton.mpr rfl) ?_
    refine Regex.mem_run_seq _ (Regex.mem_run_star (hspace hbefore)) ?_
    refine Regex.mem_run_seq _ Regex.mem_run_lit ?_
    refine Regex.mem_run_seq _ (Regex.mem_run_star (hspace hbetween)) ?_
    exact Regex.mem_run_seq _ Regex.mem_run_lit (List.mem_singleton.mpr rfl)
  exact Regex.search_of_run (List.mem_append_left _ hrun)

theorem not_isSensitiveKey_of_clean {line : List Char} (h : Clean (workflowSensitive unicode) line) :
    isSensitiveKey line = false := by
  cases hkey : isSensitiveKey line with
  | false => rfl
  | true =>
      rcases Bool.or_eq_true _ _ ▸ hkey with hkey | hkey
      · have hnone := h _ List.mem_cons_self
        exact absurd ((search_key hkey _).symm.trans hnone) (by decide)
      · have hnone := h _ (List.mem_cons_of_mem _ List.mem_cons_self)
        exact absurd ((search_key (Bool.and_eq_true _ _ ▸ hkey).1 _).symm.trans hnone) (by decide)

theorem content_drop {m : Marker} {raw : List Char} (h : startsWith (sign m) raw = true) :
    (content raw).drop 1 = content (raw.drop 1) := by
  cases m <;>
  · obtain ⟨rest, rfl⟩ := head_of_startsWith rfl h
    rw [content_cons (by decide)]
    rfl

/-- **No change of a verified workflow patch is a key.** -/
theorem not_isSensitiveKey_of_changed {env : PatchEnvironment} {files : List (String × String)}
    {file : String} {patch : List Char} {hunks : List Hunk}
    (haccepted : Accepted env files file patch)
    (hfile : startsWith workflowPrefix file.toList = true)
    (hparse : parseHunks env.unicode patch = .ok hunks) {line : Marker × List Char}
    (hline : line ∈ hunks.flatMap Hunk.lines) (hmarker : line.1 ≠ .context) :
    isSensitiveKey (content line.2) = false := by
  obtain ⟨hpre, hparsed⟩ := parseHunks_spec hparse
  have hbody : line.2 ∈ parsedLines line.1 hunks :=
    List.mem_map_of_mem (List.mem_filter.mpr ⟨hline, by simp⟩)
  obtain ⟨raw, hraw, hsign, hdrop⟩ := (mem_parsedLines (hparsed line.1 hmarker)).mp hbody
  have hcontent : (content raw).drop 1 = content line.2 := by
    rw [← hdrop]
    exact content_drop hsign
  cases hheader : isFileHeader raw with
  | false =>
      have hscanned := mem_scanned hpre hmarker hraw hsign hheader
      rw [hcontent] at hscanned
      refine not_isSensitiveKey_of_clean (haccepted.workflow hfile _ (List.mem_append.mpr ?_))
      cases hm : line.1 with
      | context => exact absurd hm hmarker
      | removed =>
          rw [hm] at hscanned
          exact Or.inr hscanned
      | added =>
          rw [hm] at hscanned
          exact Or.inl hscanned
  | true =>
      -- such a line has its sign twice, and no key starts with one
      rw [← hcontent]
      rcases Bool.or_eq_true _ _ ▸ hheader with h | h
      · rw [← startsWith_content (by decide)] at h
        obtain ⟨rest, hrest⟩ := List.isPrefixOf_iff_prefix.mp h
        rw [← hrest]
        rfl
      · rw [← startsWith_content (by decide)] at h
        obtain ⟨rest, hrest⟩ := List.isPrefixOf_iff_prefix.mp h
        rw [← hrest]
        rfl

/-! ## The result -/

theorem isBlank_of_isSensitiveKey {line : List Char} (h : isSensitiveKey line = true) :
    isBlank line = false := by
  have hkey : ∀ {name : String}, isKey name line = true → isBlank line = false := by
    intro name hname
    obtain ⟨before, between, rest, rfl, _, _⟩ := isKey_eq hname
    refine List.all_eq_false.mpr ⟨':', ?_, by decide⟩
    simp
  rcases Bool.or_eq_true _ _ ▸ h with h | h
  · exact hkey h
  · exact hkey (Bool.and_eq_true _ _ ▸ h).1

theorem keys_filter (lines : List (List Char)) :
    keys (lines.filter fun line => !isBlank line) = keys lines := by
  unfold keys
  rw [List.filter_filter]
  refine List.filter_congr fun line _ => ?_
  cases hkey : isSensitiveKey line with
  | false => rfl
  | true => simp [isBlank_of_isSensitiveKey hkey]

/-- Blank lines do not count. -/
theorem KeysKept.solid {lines : List (Marker × List Char)} (h : KeysKept lines) :
    KeysKept (solid lines) :=
  h.sublist fun _ hline => (List.mem_filter.mp hline).1

/-- The keys decide first, and then what lies behind them. -/
theorem spared_of_blocks_eq {merged : List (Marker × List Char)}
    (hloose : OneLoose (fun line => content line.2 ≠ line.2) merged)
    (hkept : KeysKept (merged.map fun line => (line.1, content line.2)))
    (hback : NothingPutBack (lineDiff merged))
    (h : blocks (newView (solid (lineDiff merged))) = blocks (oldView (solid (lineDiff merged)))) :
    Spared (lineDiff merged) := by
  have hkeys := keys_eq_of_blocks h
  rw [newView_solid, oldView_solid, keys_filter, keys_filter] at hkeys
  have hdiff := keysKept_lineDiff hloose hkept hkeys.symm
  exact ⟨hdiff, outside_of_blocks_eq hdiff.solid hback h⟩

/-- **A verified workflow patch leaves the blocks as they are if no key is made or broken where
lines run together and no first change behind a key is in its block.** Unless a line is put back
that was taken away, it does so only then. If no line runs into another, the policy has seen to
the keys. -/
theorem workflow_blocks_iff (env : PatchEnvironment) (diagnosis result : Diagnosis)
    (files : List (String × String)) (outcomes : List ((String × String) × Nat))
    (h : verifyPatchSuggestions env diagnosis files = .ok (result, outcomes)) (s : Suggestion)
    (hs : s ∈ result.suggestions) (patch : String) (hpatch : s.patch = some patch)
    (hne : patch ≠ "") (hfile : startsWith workflowPrefix (s.file.getD "").toList = true) :
    s.patchVerified = true ∧ ∃ original updated hunks merged,
      files.lookup (s.file.getD "") = some original
      ∧ applyUnifiedDiff env.unicode original.toList patch.toList = .ok updated
      ∧ parseHunks env.unicode patch.toList = .ok hunks
      ∧ LaidOver (rawLines original.toList) 0 hunks merged
      ∧ (merged.Pairwise (fun line _ => content line.2 ≠ line.2) → KeysKept (lineDiff merged))
      ∧ (Spared (lineDiff merged) →
        blocks (solidLines updated) = blocks (solidLines original.toList))
      ∧ (NothingPutBack (lineDiff merged) →
        blocks (solidLines updated) = blocks (solidLines original.toList) →
        Spared (lineDiff merged)) := by
  obtain ⟨hverified, haccepted⟩ := accepted_of_verified h hs hpatch hne
  obtain ⟨original, updated, hlookup, happly⟩ := haccepted.applies
  obtain ⟨hunks, merged, hparse, hmerge, hloose, hfrom, hnew, hold⟩ := applyUnifiedDiff_merge happly
  have hlaid : LaidOver (rawLines original.toList) 0 hunks merged := by
    unfold mergedDiff at hmerge
    rw [hparse] at hmerge
    exact laidOver_iff.mpr hmerge
  have hkept : KeysKept (merged.map fun line => (line.1, content line.2)) := by
    intro line hline hmarker
    obtain ⟨line, hmem, rfl⟩ := List.mem_map.mp hline
    refine not_isSensitiveKey_of_changed haccepted hfile hparse ?_ hmarker
    exact (hfrom line hmem).resolve_left hmarker
  refine ⟨hverified, original, updated, hunks, merged, hlookup, happly, hparse, hlaid,
    fun hbreaks => keysKept_lineDiff_of_pairwise hbreaks hkept, ?_, ?_⟩
  · intro hspared
    rw [hnew, hold]
    exact blocks_eq_of_outside hspared.keys.solid hspared.outside
  · intro hback hblocks
    rw [hnew, hold] at hblocks
    exact spared_of_blocks_eq hloose hkept hback hblocks

instance (landing : Landing) : Decidable landing.IsOutside :=
  decidable_of_iff (indent landing.line ≤ landing.depth
      ∧ ∀ other ∈ landing.other, indent other ≤ landing.depth)
    ⟨fun h => ⟨h.1, h.2⟩, fun h => ⟨h.line, h.other⟩⟩

instance (lines : List (Marker × List Char)) : Decidable (KeysKept lines) :=
  inferInstanceAs (Decidable (∀ line ∈ lines, _ → _))

def workflowText : String :=
  "on: push\npermissions:\n  contents: read\njobs:\n  test:\n    runs-on: x\n"

/-- A change right behind a block. -/
def environmentPatch : String :=
  "@@ -3,2 +3,4 @@\n   contents: read\n+env:\n+  LEVEL: 1\n jobs:\n"

theorem workflow_blocks_environment :
    ∃ updated, applyUnifiedDiff asciiEnvironment.unicode workflowText.toList
        environmentPatch.toList = .ok updated
      ∧ blocks (solidLines updated) = blocks (solidLines workflowText.toList) := by
  have hverify : verifyPatchSuggestions asciiEnvironment
      (suggesting ".github/workflows/ci.yml" environmentPatch)
      [(".github/workflows/ci.yml", workflowText)]
      = .ok ({ suggesting ".github/workflows/ci.yml" environmentPatch with
          suggestions := [{ description := "d", file := some ".github/workflows/ci.yml"
                            patch := some environmentPatch, source := some .llm
                            patchVerified := true }] }, [(("llm", "verified"), 1)]) := by
    decide +kernel
  obtain ⟨_, original, updated, hunks, merged, hlookup, happly, hparse, hlaid, _, hspared, _⟩ :=
    workflow_blocks_iff asciiEnvironment _ _ _ _ hverify _ List.mem_cons_self environmentPatch rfl
      (by decide) (by decide)
  cases Option.some.inj (hlookup.symm.trans (show _ = some workflowText from rfl))
  refine ⟨updated, happly, hspared ?_⟩
  have hhunks : parseHunks asciiEnvironment.unicode environmentPatch.toList
      = .ok [⟨3, [(.context, "  contents: read\n".toList), (.added, "env:\n".toList),
        (.added, "  LEVEL: 1\n".toList), (.context, "jobs:\n".toList)]⟩] := by
    decide +kernel
  cases Except.ok.inj (hparse.symm.trans hhunks)
  have hmerged : mergeHunks (rawLines workflowText.toList) 0
      [⟨3, [(.context, "  contents: read\n".toList), (.added, "env:\n".toList),
        (.added, "  LEVEL: 1\n".toList), (.context, "jobs:\n".toList)]⟩]
      = .ok [(.context, "on: push\n".toList), (.context, "permissions:\n".toList),
        (.context, "  contents: read\n".toList), (.added, "env:\n".toList),
        (.added, "  LEVEL: 1\n".toList), (.context, "jobs:\n".toList),
        (.context, "  test:\n".toList), (.context, "    runs-on: x\n".toList)] := by
    decide +kernel
  cases Except.ok.inj ((laidOver_iff.mp hlaid).symm.trans hmerged)
  exact ⟨by decide +kernel, by decide +kernel⟩

/-- A scope that the policy does not list. -/
def pagesPatch : String :=
  "@@ -2,2 +2,3 @@\n permissions:\n   contents: read\n+  pages: write\n"

def pagesText : List Char :=
  ["on: push\n", "permissions:\n", "  contents: read\n", "  pages: write\n", "jobs:\n",
    "  test:\n", "    runs-on: x\n"].flatMap String.toList

/-- The patch grants a permission, and is verified. -/
theorem permission_granted :
    ∃ result outcomes s updated,
      verifyPatchSuggestions asciiEnvironment (suggesting ".github/workflows/ci.yml" pagesPatch)
        [(".github/workflows/ci.yml", workflowText)] = .ok (result, outcomes)
      ∧ s ∈ result.suggestions ∧ s.patchVerified = true ∧ s.patch = some pagesPatch
      ∧ s.file = some ".github/workflows/ci.yml"
      ∧ applyUnifiedDiff asciiEnvironment.unicode workflowText.toList pagesPatch.toList
        = .ok updated
      ∧ blocks (solidLines updated) ≠ blocks (solidLines workflowText.toList) := by
  have hold : blocks (solidLines workflowText.toList)
      = [["on: push".toList], ["permissions:".toList, "  contents: read".toList]] := by
    decide +kernel
  have hnew : blocks (solidLines pagesText)
      = [["on: push".toList],
        ["permissions:".toList, "  contents: read".toList, "  pages: write".toList]] := by
    decide +kernel
  refine ⟨{ suggesting ".github/workflows/ci.yml" pagesPatch with
      suggestions := [{ description := "d", file := some ".github/workflows/ci.yml"
                        patch := some pagesPatch, source := some .llm
                        patchVerified := true }] }, [(("llm", "verified"), 1)], _,
    pagesText, by decide +kernel, List.mem_cons_self, rfl, rfl, rfl, by decide +kernel, ?_⟩
  rw [hnew, hold]
  decide

end PipeLens.Proof
