import Mathlib.Data.List.Basic

/-!
# Substitutions

Replacing all that is found in a text. A search gives, for a place in the text, how many
characters are found there. Going from left to right, the text falls into pieces: what is
found, and single characters between. A substitution keeps the characters and replaces
what is found.
-/

namespace Substitution

inductive Piece where
  | kept (c : Char)
  | found (text : List Char)
  deriving DecidableEq, Repr

/-- What is found at a place, between the text before it, in reverse, and the text after it. -/
abbrev Search := List Char → List Char → Option Nat

/-- The pieces of a text from here on, for a search that finds no empty text. -/
def piecesFrom (find : Search) : Nat → List Char → List Char → List Piece
  | 0, _, after => after.map .kept
  | _ + 1, _, [] => []
  | n + 1, before, c :: after =>
      match find before (c :: after) with
      | none => .kept c :: piecesFrom find n (c :: before) after
      | some k =>
          .found ((c :: after).take k)
            :: piecesFrom find n (((c :: after).take k).reverse ++ before) ((c :: after).drop k)

def pieces (find : Search) (text : List Char) : List Piece :=
  piecesFrom find (text.length + 1) [] text

/-- What a piece becomes. -/
def Piece.replace (f : List Char → List Char) : Piece → List Char
  | .kept c => [c]
  | .found text => f text

def Piece.found? : Piece → Option (List Char)
  | .kept _ => none
  | .found text => some text

/-- All that is found. -/
def founds (ps : List Piece) : List (List Char) := ps.filterMap Piece.found?

/-- The text with everything that is found replaced. -/
def replaceAll (f : List Char → List Char) (ps : List Piece) : List Char :=
  ps.flatMap (Piece.replace f)

variable {find : Search} {f g : List Char → List Char} {ps : List Piece}

/-- What is found was found somewhere. -/
theorem mem_founds {n : Nat} {before after text : List Char}
    (h : text ∈ founds (piecesFrom find n before after)) :
    ∃ before' after' k, find before' after' = some k ∧ text = after'.take k := by
  induction n generalizing before after with
  | zero =>
      rw [piecesFrom, founds, List.filterMap_map] at h
      obtain ⟨c, _, hc⟩ := List.mem_filterMap.mp h
      cases hc
  | succ n ih =>
      cases after with
      | nil => cases h
      | cons c after =>
          rw [piecesFrom] at h
          split at h
          · exact ih h
          · rename_i k hk
            rcases List.mem_cons.mp h with rfl | h
            · exact ⟨before, c :: after, k, hk, rfl⟩
            · exact ih h

/-- Nothing is found exactly if nothing can be found anywhere. -/
theorem founds_eq_nil_iff {n : Nat} {before after : List Char} (hn : after.length < n) :
    founds (piecesFrom find n before after) = []
      ↔ ∀ mid rest, after = mid ++ rest → rest ≠ [] → find (mid.reverse ++ before) rest = none := by
  induction n generalizing before after with
  | zero => exact absurd hn (Nat.not_lt_zero _)
  | succ n ih =>
      cases after with
      | nil =>
          refine iff_of_true rfl fun mid rest h hrest => ?_
          exact absurd (List.append_eq_nil_iff.mp h.symm).2 hrest
      | cons c after =>
          rw [piecesFrom]
          split
          · rename_i hnone
            have hlength : after.length < n := Nat.lt_of_succ_lt_succ hn
            show founds (piecesFrom find n (c :: before) after) = [] ↔ _
            rw [ih hlength]
            constructor
            · intro h mid rest heq hrest
              cases mid with
              | nil =>
                  rw [List.nil_append] at heq
                  rw [← heq]
                  exact hnone
              | cons d mid =>
                  obtain ⟨rfl, hmid⟩ := List.cons.inj heq
                  have hfind := h mid rest hmid hrest
                  rwa [List.reverse_cons, List.append_assoc]
            · intro h mid rest heq hrest
              have hfind := h (c :: mid) rest (congrArg (c :: ·) heq) hrest
              rwa [List.reverse_cons, List.append_assoc] at hfind
          · rename_i k hk
            refine iff_of_false (fun h => absurd h (List.cons_ne_nil _ _)) fun h => ?_
            have hnone := h [] (c :: after) rfl (List.cons_ne_nil _ _)
            rw [List.reverse_nil, List.nil_append, hk] at hnone
            cases hnone

/-- Something is found exactly if it can be found somewhere. -/
theorem founds_ne_nil_iff {text : List Char} :
    founds (pieces find text) ≠ []
      ↔ ∃ mid rest, text = mid ++ rest ∧ rest ≠ [] ∧ find mid.reverse rest ≠ none := by
  have hnone := @founds_eq_nil_iff find _ [] _ (Nat.lt_succ_self text.length)
  rw [pieces, Ne, hnone]
  simp only [List.append_nil, not_forall, exists_prop]

theorem length_replaceAll {a : Nat} (h : ∀ text ∈ founds ps, (f text).length = a) :
    (replaceAll f ps).length + (founds ps).length = ps.length + a * (founds ps).length := by
  induction ps with
  | nil => rfl
  | cons p ps ih =>
      cases p with
      | kept c =>
          have hrest := ih h
          show (c :: replaceAll f ps).length + (founds ps).length
            = (ps.length + 1) + a * (founds ps).length
          rw [List.length_cons]
          omega
      | found text =>
          have hrest := ih fun t ht => h t (List.mem_cons_of_mem text ht)
          have hhere := h text List.mem_cons_self
          show (f text ++ replaceAll f ps).length + ((founds ps).length + 1)
            = (ps.length + 1) + a * ((founds ps).length + 1)
          rw [List.length_append, Nat.mul_succ]
          omega

/-- Replacements of one length can be told apart piece by piece. -/
theorem eq_of_replaceAll_eq {a : Nat} (hf : ∀ text ∈ founds ps, (f text).length = a)
    (hg : ∀ text ∈ founds ps, (g text).length = a) (h : replaceAll f ps = replaceAll g ps) :
    ∀ text ∈ founds ps, f text = g text := by
  induction ps with
  | nil => exact fun text ht => absurd ht List.not_mem_nil
  | cons p ps ih =>
      cases p with
      | kept c => exact ih hf hg (List.cons.inj h).2
      | found text =>
          have hlength : (f text).length = (g text).length := by
            rw [hf text List.mem_cons_self, hg text List.mem_cons_self]
          obtain ⟨hhere, hrest⟩ := List.append_inj h hlength
          refine List.forall_mem_cons.mpr ⟨hhere, ih ?_ ?_ hrest⟩
          · exact fun t ht => hf t (List.mem_cons_of_mem text ht)
          · exact fun t ht => hg t (List.mem_cons_of_mem text ht)

theorem replaceAll_congr (h : ∀ text ∈ founds ps, f text = g text) :
    replaceAll f ps = replaceAll g ps := by
  induction ps with
  | nil => rfl
  | cons p ps ih =>
      cases p with
      | kept c => exact congrArg (c :: ·) (ih h)
      | found text =>
          show f text ++ replaceAll f ps = g text ++ replaceAll g ps
          rw [h text List.mem_cons_self, ih fun t ht => h t (List.mem_cons_of_mem text ht)]

/-- **Two substitutions are the same** if they replace everything by the same. Replacements
of a fixed length cannot make up for one another. -/
theorem replaceAll_eq_iff {a b : Nat} (hf : ∀ text ∈ founds ps, (f text).length = a)
    (hg : ∀ text ∈ founds ps, (g text).length = b) :
    replaceAll f ps = replaceAll g ps ↔ ∀ text ∈ founds ps, f text = g text := by
  refine ⟨fun h => ?_, replaceAll_congr⟩
  have hlength := congrArg List.length h
  have hlengthF := length_replaceAll hf
  have hlengthG := length_replaceAll hg
  have hproduct : a * (founds ps).length = b * (founds ps).length := by omega
  rcases Nat.eq_zero_or_pos (founds ps).length with hnone | hpos
  · rw [List.length_eq_zero_iff.mp hnone]
    exact fun text ht => absurd ht List.not_mem_nil
  · have hsame : a = b := Nat.eq_of_mul_eq_mul_right hpos hproduct
    exact eq_of_replaceAll_eq hf (fun text ht => (hg text ht).trans hsame.symm) h

end Substitution
