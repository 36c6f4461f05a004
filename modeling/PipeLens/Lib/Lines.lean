import Mathlib.Data.List.Chain
import PipeLens.Lib.Text

/-!
# Lines put together

When the lines of a text can be read off again after they have been put together, and
what is lost when they cannot. A line without a break runs into the next, and so does
one that ends with `\r` if the next starts with `\n`.
-/

namespace Text

/-! ## Lines that stay apart -/

/-- Two lines that are read as one when they meet. -/
def Joins (raw next : List Char) : Prop :=
  content raw = raw ∨ (raw.getLast? = some '\r' ∧ next.head? = some '\n')

instance (raw next : List Char) : Decidable (Joins raw next) :=
  inferInstanceAs (Decidable (_ ∨ _))

/-- Lines that can be read off from the text they make. -/
structure Separate (raws : List (List Char)) : Prop where
  nonempty : ∀ raw ∈ raws, raw ≠ []
  apart : raws.IsChain fun raw next => ¬ Joins raw next

instance (raws : List (List Char)) : Decidable (Separate raws) :=
  decidable_of_iff ((∀ raw ∈ raws, raw ≠ []) ∧ raws.IsChain fun raw next => ¬ Joins raw next)
    ⟨fun h => ⟨h.1, h.2⟩, fun h => ⟨h.nonempty, h.apart⟩⟩

theorem splitFrom_flatten (line text : List Char) :
    (splitFrom line text).flatten = line.reverse ++ text := by
  fun_induction splitFrom line text with
  | case1 line hempty => simp [List.isEmpty_iff.mp hempty]
  | case2 line hempty => simp
  | case3 line rest ih => simp [ih]
  | case4 line c rest _ hbreak ih => simp [ih]
  | case5 line c rest _ hbreak ih => simp [ih]

/-- The lines of a text make it up again. -/
theorem flatten_rawLines (text : List Char) : (rawLines text).flatten = text :=
  splitFrom_flatten [] text

theorem Separate.tail {raw : List Char} {raws : List (List Char)} (h : Separate (raw :: raws)) :
    Separate raws :=
  ⟨fun raw' h' => h.nonempty raw' (List.mem_cons_of_mem raw h'), h.apart.tail⟩

theorem Separate.cons {raw : List Char} {raws : List (List Char)} (h : Separate raws)
    (hne : raw ≠ []) (hjoins : ∀ next ∈ raws.head?, ¬ Joins raw next) : Separate (raw :: raws) where
  nonempty := by
    intro raw' h'
    rcases List.mem_cons.mp h' with rfl | h'
    · exact hne
    · exact h.nonempty raw' h'
  apart := List.IsChain.cons h.apart hjoins

/-- **Separate lines are read off again.** -/
theorem rawLines_flatten {raws : List (List Char)} (hlines : ∀ raw ∈ raws, IsLine raw)
    (h : Separate raws) : rawLines raws.flatten = raws := by
  induction raws with
  | nil => rfl
  | cons raw raws ih =>
      have hrest : rawLines raws.flatten = raws :=
        ih (fun r hr => hlines r (List.mem_cons_of_mem raw hr)) h.tail
      obtain ⟨line, eol, rfl, hline, hend⟩ := hlines raw List.mem_cons_self
      rw [List.flatten_cons, List.append_assoc]
      cases hend with
      | none =>
          have hne : line ≠ [] := by
            simpa using h.nonempty (line ++ []) List.mem_cons_self
          rw [List.nil_append, rawLines_append hline hne, hrest, List.append_nil]
          cases raws with
          | nil => rfl
          | cons next raws =>
              refine absurd (Or.inl ?_) (List.isChain_cons_cons.mp h.apart).1
              exact (content_append hline .none).trans (List.append_nil line).symm
      | crlf =>
          rw [List.cons_append, List.cons_append, List.nil_append, rawLines_crlf hline, hrest]
      | @«break» c hc =>
          rw [List.cons_append, List.nil_append, rawLines_break hline hc, hrest]
          intro rest hmeet
          cases raws with
          | nil => exact nomatch hmeet.2
          | cons next raws =>
              have hne := h.nonempty next (by simp)
              refine (List.isChain_cons_cons.mp h.apart).1 (Or.inr ⟨by simp [hmeet.1], ?_⟩)
              have hhead := congrArg List.head? hmeet.2
              rw [List.flatten_cons, List.head?_append_of_ne_nil _ hne] at hhead
              exact hhead

/-- **Lines are only lost by meeting**: if as many are read off, they are separate. -/
theorem separate_of_length {raws : List (List Char)} (hlines : ∀ raw ∈ raws, IsLine raw) :
    (rawLines raws.flatten).length ≤ raws.length
      ∧ ((rawLines raws.flatten).length = raws.length → Separate raws) := by
  induction raws with
  | nil => exact ⟨Nat.le_refl 0, fun _ => ⟨fun _ h => absurd h List.not_mem_nil, .nil⟩⟩
  | cons raw raws ih =>
      obtain ⟨hle, hsep⟩ := ih fun r hr => hlines r (List.mem_cons_of_mem raw hr)
      obtain ⟨line, eol, rfl, hline, hend⟩ := hlines raw List.mem_cons_self
      rw [List.flatten_cons, List.append_assoc, List.length_cons]
      cases hend with
      | none =>
          rw [List.append_nil, List.nil_append]
          by_cases hempty : line = []
          · subst hempty
            exact ⟨by simpa using Nat.le_succ_of_le hle, fun heq => by
              simp only [List.nil_append] at heq
              omega⟩
          · rw [rawLines_append hline hempty]
            cases hrest : rawLines raws.flatten with
            | nil =>
                refine ⟨by simp [prependTo], fun heq => ?_⟩
                have hnil : raws = [] := by
                  refine List.eq_nil_of_length_eq_zero ?_
                  simp only [prependTo, List.length_singleton] at heq
                  omega
                rw [hnil]
                exact ⟨by simpa using hempty, List.isChain_singleton _⟩
            | cons first others =>
                rw [hrest, List.length_cons] at hle
                simp only [prependTo, List.length_cons]
                exact ⟨by omega, fun heq => absurd heq (by omega)⟩
      | crlf =>
          rw [List.cons_append, List.cons_append, List.nil_append, rawLines_crlf hline,
            List.length_cons]
          refine ⟨by omega, fun heq => (hsep (by omega)).cons (by simp) fun next _ hjoins => ?_⟩
          rcases hjoins with hnone | hmeet
          · rw [content_append hline .crlf] at hnone
            simp at hnone
          · simp at hmeet
      | @«break» c hc =>
          rw [List.cons_append, List.nil_append]
          by_cases hcrlf : c = '\r' ∧ ∃ rest, raws.flatten = '\n' :: rest
          · obtain ⟨rfl, rest, hnext⟩ := hcrlf
            have hempty : rawLines ('\n' :: rest) = ['\n'] :: rawLines rest :=
              @rawLines_break [] (fun _ h => absurd h List.not_mem_nil) '\n' (by decide) rest fun _ h => absurd h.1 (by decide)
            rw [hnext, hempty, List.length_cons] at hle
            rw [hnext, rawLines_crlf hline, List.length_cons]
            exact ⟨by omega, fun heq => absurd heq (by omega)⟩
          · rw [rawLines_break hline hc _ fun rest h => hcrlf ⟨h.1, rest, h.2⟩, List.length_cons]
            refine ⟨by omega, fun heq => ?_⟩
            have hrest := hsep (by omega)
            refine hrest.cons (by simp) fun next hnext hjoins => ?_
            rcases hjoins with hnone | hmeet
            · exact content_ne_of_break hline hc hnone
            · cases raws with
              | nil => cases hnext
              | cons first others =>
                  obtain rfl : first = next := Option.some.inj hnext
                  obtain ⟨c', rest', rfl⟩ :=
                    List.exists_cons_of_ne_nil (hrest.nonempty first List.mem_cons_self)
                  have hfirst : c' = '\n' := Option.some.inj hmeet.2
                  refine hcrlf ⟨by simpa using hmeet.1, rest' ++ others.flatten, ?_⟩
                  rw [hfirst]
                  rfl

/-! ## Terminated texts -/

/-- Empty, or with a break at the end. -/
def Terminated (text : List Char) : Prop := ∀ c ∈ text.getLast?, isBreak c = true

instance (text : List Char) : Decidable (Terminated text) :=
  Option.decidableForallMem text.getLast?

theorem splitFrom_ne_nil (line text : List Char) : ∀ raw ∈ splitFrom line text, raw ≠ [] := by
  fun_induction splitFrom line text with
  | case1 line hempty => exact fun raw hraw => absurd hraw List.not_mem_nil
  | case2 line hempty =>
      intro raw hraw
      rw [List.mem_singleton.mp hraw]
      simpa using hempty
  | case3 line rest ih =>
      intro raw hraw
      rcases List.mem_cons.mp hraw with rfl | hraw
      · simp
      · exact ih raw hraw
  | case4 line c rest _ hbreak ih =>
      intro raw hraw
      rcases List.mem_cons.mp hraw with rfl | hraw
      · simp
      · exact ih raw hraw
  | case5 line c rest _ hbreak ih => exact ih

theorem rawLines_ne_nil {text raw : List Char} (h : raw ∈ rawLines text) : raw ≠ [] :=
  splitFrom_ne_nil [] text raw h

theorem IsLine.getLast_break {raw : List Char} (h : IsLine raw) (hbreak : content raw ≠ raw) :
    ∃ front c, raw = front ++ [c] ∧ isBreak c = true := by
  obtain ⟨line, eol, rfl, hline, hend⟩ := h
  cases hend with
  | none =>
      have hc := content_append hline .none
      rw [List.append_nil] at hc hbreak
      exact absurd hc hbreak
  | @«break» c hc => exact ⟨line, c, rfl, hc⟩
  | crlf => exact ⟨line ++ ['\r'], '\n', by simp, by decide⟩

/-- A line stands between breaks. -/
theorem line_in_text {text line : List Char} (h : line ∈ splitlines text) :
    ∃ start rest, text = start ++ line ++ rest
      ∧ (∀ c ∈ start.getLast?, isBreak c = true) ∧ (∀ c ∈ rest.head?, isBreak c = true) := by
  obtain ⟨raw, hraw, rfl⟩ := List.mem_map.mp h
  obtain ⟨earlier, later, hlines⟩ := List.append_of_mem hraw
  have htext : text = earlier.flatten ++ raw ++ later.flatten := by
    rw [← flatten_rawLines text, hlines]
    simp
  have hpairs := rawLines_pairwise text
  rw [hlines, List.pairwise_append] at hpairs
  obtain ⟨_, hlater, hearlier⟩ := hpairs
  have hstart : ∀ c ∈ earlier.flatten.getLast?, isBreak c = true := by
    rcases List.eq_nil_or_concat earlier with rfl | ⟨front, last, rfl⟩
    · intro c hc
      cases hc
    · have hmem : last ∈ rawLines text := by rw [hlines]; simp
      have hbreak := hearlier last (by simp) raw List.mem_cons_self
      obtain ⟨start, c, rfl, hc⟩ := (isLine_of_mem hmem).getLast_break hbreak
      intro d hd
      simp at hd
      rw [← hd]
      exact hc
  obtain ⟨line, eol, hsplit, hline, hend⟩ := isLine_of_mem hraw
  have hcontent : content raw = line := by rw [hsplit, content_append hline hend]
  refine ⟨earlier.flatten, eol ++ later.flatten, ?_, hstart, ?_⟩
  · rw [htext, hcontent, hsplit]
    simp
  cases hend with
  | none =>
      -- only the last line has no break
      have hsame : content raw = raw := by rw [hcontent, hsplit, List.append_nil]
      cases later with
      | nil =>
          intro c hc
          cases hc
      | cons next later => exact absurd hsame (List.rel_of_pairwise_cons hlater List.mem_cons_self)
  | @«break» c hc =>
      intro d hd
      rw [← Option.some.inj hd]
      exact hc
  | crlf =>
      intro d hd
      rw [← Option.some.inj hd]
      decide

/-- There are not more lines than characters. -/
theorem length_rawLines_le (text : List Char) : (rawLines text).length ≤ text.length := by
  have hcount : ∀ raws : List (List Char), (∀ raw ∈ raws, raw ≠ []) →
      raws.length ≤ raws.flatten.length := by
    intro raws hraws
    induction raws with
    | nil => exact Nat.le_refl 0
    | cons raw raws ih =>
        have hraw := List.length_pos_iff.mpr (hraws raw List.mem_cons_self)
        have hrest := ih fun r hr => hraws r (List.mem_cons_of_mem raw hr)
        rw [List.flatten_cons, List.length_append, List.length_cons]
        omega
  have hlines := hcount (rawLines text) fun _ => rawLines_ne_nil
  rwa [flatten_rawLines] at hlines

/-- Every line of a terminated text has a break. -/
theorem Terminated.content_ne {text raw : List Char} (h : Terminated text)
    (hraw : raw ∈ rawLines text) : content raw ≠ raw := by
  obtain ⟨before, after, hsplit⟩ := List.append_of_mem hraw
  have hpairs := rawLines_pairwise text
  rw [hsplit] at hpairs
  obtain ⟨_, hlast, _⟩ := List.pairwise_append.mp hpairs
  cases after with
  | cons next after => exact (List.pairwise_cons.mp hlast).1 next List.mem_cons_self
  | nil =>
      -- the last line ends as the text does
      intro hcontent
      obtain ⟨line, c, hline⟩ := List.eq_nil_or_concat raw |>.resolve_left (rawLines_ne_nil hraw)
      have hend : text.getLast? = some c := by
        rw [← flatten_rawLines text, hsplit, hline]
        simp
      have hbreak := h c hend
      have hmem : c ∈ content raw := by
        rw [hcontent, hline]
        simp
      have hnot : isBreak c = false := by simpa using List.mem_takeWhile_imp hmem
      rw [hbreak] at hnot
      exact nomatch hnot

/-- Lines stay apart if none but the last is without a break, and none starts with a newline. -/
theorem separate_of_terminated {raws : List (List Char)}
    (hbreaks : ∀ raw ∈ raws.dropLast, content raw ≠ raw)
    (hstarts : ∀ raw ∈ raws, raw ≠ [] ∧ raw.head? ≠ some '\n') : Separate raws := by
  induction raws with
  | nil => exact ⟨nofun, .nil⟩
  | cons raw raws ih =>
      obtain ⟨hne, _⟩ := hstarts raw List.mem_cons_self
      have hrest : Separate raws := by
        refine ih (fun r hr => hbreaks r ?_) fun r hr => hstarts r (List.mem_cons_of_mem raw hr)
        cases raws with
        | nil => cases hr
        | cons next raws => exact List.mem_cons_of_mem raw hr
      refine hrest.cons hne fun next hnext hjoins => ?_
      have hmem : next ∈ raws := List.mem_of_mem_head? hnext
      rcases hjoins with hnone | hmeet
      · refine hbreaks raw ?_ hnone
        rw [List.dropLast_cons_of_ne_nil (List.ne_nil_of_mem hmem)]
        exact List.mem_cons_self
      · exact (hstarts next (List.mem_cons_of_mem raw hmem)).2 hmeet.2

/-! ## Texts put together -/

theorem separate_rawLines (text : List Char) : Separate (rawLines text) := by
  refine (separate_of_length fun raw hraw => isLine_of_mem hraw).2 ?_
  rw [flatten_rawLines]

/-- The last line ends as the text does. -/
theorem getLast_of_rawLines {text last : List Char} (h : last ∈ (rawLines text).getLast?) :
    last.getLast? = text.getLast? := by
  obtain ⟨earlier, hsplit⟩ := List.getLast?_eq_some_iff.mp h
  have hne : last ≠ [] := rawLines_ne_nil (List.mem_of_getLast? h)
  have htext : text = earlier.flatten ++ last := by
    rw [← flatten_rawLines text, hsplit]
    simp
  rw [htext, List.getLast?_append_of_ne_nil _ hne]

/-- After a newline the lines begin anew. -/
theorem rawLines_append_of_newline {text : List Char} (h : text.getLast? = some '\n')
    (more : List Char) : rawLines (text ++ more) = rawLines text ++ rawLines more := by
  have hsep : Separate (rawLines text ++ rawLines more) := by
    refine ⟨?_, ?_⟩
    · intro raw hraw
      rcases List.mem_append.mp hraw with hraw | hraw
      · exact rawLines_ne_nil hraw
      · exact rawLines_ne_nil hraw
    · refine List.isChain_append.mpr ⟨(separate_rawLines text).apart,
        (separate_rawLines more).apart, ?_⟩
      intro last hlast next hnext hjoins
      have hterminated : Terminated text := by
        intro c hc
        rw [h] at hc
        obtain rfl := Option.some.inj hc
        decide
      rcases hjoins with hnone | hmeet
      · exact hterminated.content_ne (List.mem_of_getLast? hlast) hnone
      · rw [getLast_of_rawLines hlast, h] at hmeet
        exact absurd hmeet.1 (by decide)
  have hlines : ∀ raw ∈ rawLines text ++ rawLines more, IsLine raw := by
    intro raw hraw
    rcases List.mem_append.mp hraw with hraw | hraw
    · exact isLine_of_mem hraw
    · exact isLine_of_mem hraw
  have hall := rawLines_flatten hlines hsep
  rwa [List.flatten_append, flatten_rawLines, flatten_rawLines] at hall

/-- Lines that end with a newline stay as they are, whatever comes behind them. -/
theorem rawLines_lines {raws : List (List Char)}
    (h : ∀ raw ∈ raws, IsLine raw ∧ raw.getLast? = some '\n') (more : List Char) :
    rawLines (raws.flatten ++ more) = raws ++ rawLines more := by
  induction raws with
  | nil => rfl
  | cons raw raws ih =>
      obtain ⟨hline, hlast⟩ := h raw List.mem_cons_self
      have hne : raw ≠ [] := by
        intro hnil
        rw [hnil] at hlast
        exact nomatch hlast
      have hone : rawLines raw = [raw] := by
        have hall := rawLines_flatten (List.forall_mem_singleton.mpr hline)
          ⟨List.forall_mem_singleton.mpr hne, .singleton raw⟩
        rwa [List.flatten_cons, List.flatten_nil, List.append_nil] at hall
      rw [List.flatten_cons, List.append_assoc, rawLines_append_of_newline hlast, hone,
        ih fun r hr => h r (List.mem_cons_of_mem raw hr)]
      rfl

/-! ## Copies of a line -/

/-- A text that is a line, some number of times. -/
def IsCopies (line text : List Char) : Prop := ∃ n, text = (List.replicate n line).flatten

/-- A terminated line is not the same read from a place within it on. -/
theorem not_rotated {line front back : List Char} (h : IsLine line) (hbreak : content line ≠ line)
    (hline : line = front ++ back) (hfront : front ≠ []) (hback : back ≠ []) :
    line ≠ back ++ front := by
  intro hrotated
  obtain ⟨c, hc⟩ : ∃ c, front.getLast? = some c :=
    Option.isSome_iff_exists.mp (by simpa using hfront)
  -- the last character of the line is one that comes earlier too
  have hlast : line.getLast? = some c := by
    rw [hrotated, List.getLast?_append, hc]
    rfl
  obtain ⟨init, hinit⟩ : ∃ init, front = init ++ [c] :=
    List.getLast?_eq_some_iff.mp hc
  obtain ⟨text, eol, rfl, htext, hend⟩ := h
  have hbefore : ∀ {rest}, text ++ rest = init ++ c :: back → rest.length ≤ back.length →
      isBreak c = false := by
    intro rest heq hle
    have hlength := congrArg List.length heq
    simp only [List.length_append, List.length_cons] at hlength
    have hmem : c ∈ text := by
      have hget := congrArg (·[init.length]?) heq
      simp only [List.getElem?_append_right (Nat.le_refl _), Nat.sub_self, List.getElem?_cons_zero,
        List.getElem?_append_left (show init.length < text.length by omega)] at hget
      exact List.mem_of_getElem? hget
    exact htext c hmem
  have hwhole : text ++ eol = init ++ c :: back := by
    rw [hline, hinit, List.append_assoc, List.singleton_append]
  have hpos := List.length_pos_iff.mpr hback
  cases hend with
  | none =>
      refine hbreak ?_
      rw [content_append htext .none, List.append_nil]
  | @«break» d hd =>
      have hcd : d = c := by simpa using hlast
      have hnot := hbefore hwhole hpos
      rw [← hcd, hd] at hnot
      exact nomatch hnot
  | crlf =>
      have hc' : c = '\n' := by simpa using hlast.symm
      rw [hc'] at hwhole hbefore
      by_cases hlong : 2 ≤ back.length
      · exact absurd (hbefore hwhole (by simpa using hlong)) (by decide)
      · have hone : back.length = 1 := by omega
        obtain ⟨d, rfl⟩ := List.length_eq_one_iff.mp hone
        have hsplit : text ++ ['\r'] ++ ['\n'] = init ++ ['\n'] ++ [d] := by
          simpa using hwhole
        have hpair := (List.append_inj' hsplit rfl).1
        have hlasts := (List.append_inj' hpair rfl).2
        exact absurd hlasts (by decide)

theorem isCopies_append {line text : List Char} (h : IsCopies line text) :
    IsCopies line (line ++ text) := by
  obtain ⟨n, rfl⟩ := h
  exact ⟨n + 1, by rw [List.replicate_succ, List.flatten_cons]⟩

/-- **What can be put before or behind a line alike** is that line, some number of times. -/
theorem isCopies_iff {line : List Char} (h : IsLine line) (hbreak : content line ≠ line)
    (text : List Char) : IsCopies line text ↔ text ++ line = line ++ text := by
  constructor
  · intro hcopies
    obtain ⟨n, rfl⟩ := hcopies
    rw [← List.flatten_concat, ← List.flatten_cons, ← List.replicate_succ, ← List.replicate_succ']
  · intro hcommute
    induction hlength : text.length using Nat.strong_induction_on generalizing text with
    | _ length ih =>
        rcases List.append_eq_append_iff.mp hcommute with ⟨back, hline, hrotated⟩ |
          ⟨rest, hfront, hback⟩
        · by_cases hempty : text = []
          · exact ⟨0, hempty⟩
          by_cases hnone : back = []
          · rw [hnone, List.append_nil] at hline
            exact ⟨1, by simpa using hline.symm⟩
          · exact absurd hrotated (not_rotated h hbreak hline hempty hnone)
        · have hshorter : rest.length < length := by
            have hpos : 0 < line.length := by
              refine List.length_pos_iff.mpr fun hnone => hbreak ?_
              rw [hnone]
              rfl
            rw [← hlength, hfront, List.length_append]
            omega
          rw [hfront]
          exact isCopies_append (ih rest.length hshorter rest (hback.symm.trans hfront) rfl)

end Text
