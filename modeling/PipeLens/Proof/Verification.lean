import PipeLens.Lib.Program
import PipeLens.Proof.PatchPolicy

/-!
# Verification, suggestion by suggestion

`verify_patch_suggestions` is a loop with three accumulators. What it does with a suggestion
depends on the patch, the file and the source of this suggestion, and on nothing that
came before. So the loop is a verdict for every suggestion, and the accumulators are what
the verdicts make of them.
-/

namespace PipeLens.Proof

/-- What becomes of a suggestion. -/
inductive Judgement where
  /-- It has no patch. -/
  | untouched
  | verified
  | rejected (reason : String)
  deriving DecidableEq, Repr

/-- `if not suggestion.patch`, the other way round. -/
def hasPatch (s : Suggestion) : Bool := s.patch.getD "" ≠ ""

/-- The verdict on a suggestion; an error is what the check raises. -/
def judge (env : PatchEnvironment) (files : List (String × String)) (s : Suggestion) :
    Except String Judgement :=
  if hasPatch s then
    (patchRejection env s files).map fun
      | none => .verified
      | some reason => .rejected reason
  else .ok .untouched

namespace Judgement

def mark : Judgement → Suggestion → Suggestion
  | untouched, s => s
  | verified, s => { s with patchVerified := true }
  | rejected _, s => { s with patch := none, patchVerified := false }

def note? : Judgement → Option String
  | rejected reason => some ("수정 diff를 검증하지 못해 제외했습니다: " ++ reason)
  | _ => none

/-- The key under which it is counted. -/
def outcome? : Judgement → Option String
  | untouched => none
  | verified => some "verified"
  | rejected _ => some "rejected"

end Judgement

/-- Counts a suggestion. -/
def tallied (outcomes : List ((String × String) × Nat)) (s : Suggestion) (verdict : Judgement) :
    List ((String × String) × Nat) :=
  match verdict.outcome? with
  | none => outcomes
  | some outcome => countOutcome outcomes (sourceValue s, outcome)

/-- What the loop has collected after one more suggestion. -/
def recorded (v : Verification) (s : Suggestion) (verdict : Judgement) : Verification where
  suggestions := v.suggestions ++ [verdict.mark s]
  notes := v.notes ++ verdict.note?.toList
  outcomes := tallied v.outcomes s verdict

variable {env : PatchEnvironment} {files : List (String × String)}

/-! ## The loop -/

theorem verifySuggestion_eq (v : Verification) (s : Suggestion) :
    verifySuggestion env files v s = (judge env files s).map (recorded v s) := by
  unfold verifySuggestion judge
  by_cases hpatch : s.patch.getD "" = ""
  · rw [if_pos hpatch, if_neg (by simp [hasPatch, hpatch])]
    simp [Except.map, recorded, Judgement.mark, Judgement.note?, tallied, Judgement.outcome?]
  · rw [if_neg hpatch, if_pos (by simpa [hasPatch] using hpatch)]
    cases patchRejection env s files with
    | error message => rfl
    | ok rejection =>
        cases rejection with
        | none =>
            simp [Except.map, bind, Except.bind, pure, Except.pure, recorded, Judgement.mark,
              Judgement.note?, tallied, Judgement.outcome?]
        | some reason =>
            simp [Except.map, bind, Except.bind, pure, Except.pure, recorded, Judgement.mark,
              Judgement.note?, tallied, Judgement.outcome?]

/-- The verdicts on a list of suggestions. -/
abbrev Judged (env : PatchEnvironment) (files : List (String × String)) :
    List Suggestion → List Judgement → Prop :=
  List.Forall₂ fun s verdict => judge env files s = .ok verdict

/-- **The loop returns** what the verdicts make of the suggestions, if there are verdicts. -/
theorem foldlM_verifySuggestion {suggestions : List Suggestion} {v v' : Verification} :
    suggestions.foldlM (verifySuggestion env files) v = .ok v'
      ↔ ∃ verdicts, Judged env files suggestions verdicts
        ∧ v' = (suggestions.zip verdicts).foldl (fun v p => recorded v p.1 p.2) v := by
  induction suggestions generalizing v with
  | nil =>
      constructor
      · intro h
        exact ⟨[], .nil, (Except.ok.inj h).symm⟩
      · rintro ⟨verdicts, hjudged, rfl⟩
        cases hjudged
        rfl
  | cons s suggestions ih =>
      rw [List.foldlM_cons, verifySuggestion_eq]
      constructor
      · intro h
        obtain ⟨middle, hstep, hrest⟩ := Program.bind_eq_ok h
        cases hjudge : judge env files s with
        | error message =>
            rw [hjudge] at hstep
            cases hstep
        | ok verdict =>
            rw [hjudge] at hstep
            obtain rfl := Except.ok.inj hstep
            obtain ⟨verdicts, hjudged, rfl⟩ := ih.mp hrest
            exact ⟨verdict :: verdicts, .cons hjudge hjudged, rfl⟩
      · rintro ⟨verdicts, hjudged, rfl⟩
        cases hjudged with
        | @cons _ verdict _ verdicts hjudge hjudged =>
            rw [hjudge]
            exact ih.mpr ⟨verdicts, hjudged, rfl⟩

theorem verifyPatchSuggestions_iff {diagnosis result : Diagnosis}
    {outcomes : List ((String × String) × Nat)} :
    verifyPatchSuggestions env diagnosis files = .ok (result, outcomes)
      ↔ ∃ verdicts, Judged env files diagnosis.suggestions verdicts
        ∧ ∃ v, v = (diagnosis.suggestions.zip verdicts).foldl (fun v p => recorded v p.1 p.2)
            ⟨[], diagnosis.notes, []⟩
          ∧ result = { diagnosis with suggestions := v.suggestions, notes := v.notes }
          ∧ outcomes = v.outcomes := by
  unfold verifyPatchSuggestions
  constructor
  · intro h
    obtain ⟨v, hfold, hreturn⟩ := Program.bind_eq_ok h
    obtain ⟨verdicts, hjudged, hv⟩ := foldlM_verifySuggestion.mp hfold
    obtain ⟨rfl, rfl⟩ := Prod.mk.inj (Except.ok.inj hreturn)
    exact ⟨verdicts, hjudged, v, hv, rfl, rfl⟩
  · rintro ⟨verdicts, hjudged, v, hv, rfl, rfl⟩
    have hfold := foldlM_verifySuggestion.mpr ⟨verdicts, hjudged, hv⟩
    rw [hfold]
    rfl

/-! ## What is collected -/

theorem suggestions_foldl (pairs : List (Suggestion × Judgement)) (v : Verification) :
    (pairs.foldl (fun v p => recorded v p.1 p.2) v).suggestions
      = v.suggestions ++ pairs.map fun p => p.2.mark p.1 := by
  induction pairs generalizing v with
  | nil => simp
  | cons p pairs ih =>
      rw [List.foldl_cons, ih]
      simp [recorded]

theorem notes_foldl (pairs : List (Suggestion × Judgement)) (v : Verification) :
    (pairs.foldl (fun v p => recorded v p.1 p.2) v).notes
      = v.notes ++ pairs.filterMap fun p => p.2.note? := by
  induction pairs generalizing v with
  | nil => simp
  | cons p pairs ih =>
      rw [List.foldl_cons, ih, recorded, List.filterMap_cons]
      cases p.2.note? with
      | none => simp
      | some note => simp

theorem outcomes_foldl (pairs : List (Suggestion × Judgement)) (v : Verification) :
    (pairs.foldl (fun v p => recorded v p.1 p.2) v).outcomes
      = pairs.foldl (fun outcomes p => tallied outcomes p.1 p.2) v.outcomes := by
  induction pairs generalizing v with
  | nil => rfl
  | cons p pairs ih =>
      rw [List.foldl_cons, ih]
      rfl

/-! ## Counts -/

/-- What is counted for a source. -/
def sourceCount (source : String) (outcomes : List ((String × String) × Nat)) : Nat :=
  ((outcomes.filter fun entry => entry.1.1 = source).map Prod.snd).sum

theorem countOutcome_keys (outcomes : List ((String × String) × Nat)) (key : String × String) :
    (countOutcome outcomes key).map Prod.fst
      = if key ∈ outcomes.map Prod.fst then outcomes.map Prod.fst
        else outcomes.map Prod.fst ++ [key] := by
  unfold countOutcome
  by_cases hkey : key ∈ outcomes.map Prod.fst
  · rw [if_pos (by simpa using hkey), if_pos hkey, List.map_map]
    refine List.map_congr_left fun entry _ => ?_
    show (if entry.1 = key then (key, entry.2 + 1) else entry).1 = entry.1
    split
    · rename_i heq
      exact heq.symm
    · rfl
  · rw [if_neg (by simpa using hkey), if_neg hkey]
    simp

theorem nodup_countOutcome {outcomes : List ((String × String) × Nat)}
    (h : (outcomes.map Prod.fst).Nodup) (key : String × String) :
    ((countOutcome outcomes key).map Prod.fst).Nodup := by
  rw [countOutcome_keys]
  split
  · exact h
  · rename_i hkey
    exact List.nodup_append.mpr ⟨h, by simp, fun k hk k' hk' => by
      rw [List.mem_singleton.mp hk']
      exact fun heq => hkey (heq ▸ hk)⟩

theorem sourceCount_countOutcome {outcomes : List ((String × String) × Nat)}
    (h : (outcomes.map Prod.fst).Nodup) (key : String × String) (source : String) :
    sourceCount source (countOutcome outcomes key)
      = sourceCount source outcomes + if key.1 = source then 1 else 0 := by
  have hcons : ∀ (entry : (String × String) × Nat) (rest : List ((String × String) × Nat)),
      sourceCount source (entry :: rest)
        = (if entry.1.1 = source then entry.2 else 0) + sourceCount source rest := by
    intro entry rest
    unfold sourceCount
    rw [List.filter_cons]
    by_cases heq : entry.1.1 = source
    · simp [heq]
    · simp [heq]
  have hmap : ∀ entries : List ((String × String) × Nat), key ∉ entries.map Prod.fst →
      (entries.map fun entry => if entry.1 = key then (key, entry.2 + 1) else entry)
        = entries := by
    intro entries hnot
    refine (List.map_congr_left fun entry hentry => ?_).trans (List.map_id entries)
    rw [if_neg]
    · rfl
    · exact fun heq => hnot (heq ▸ List.mem_map_of_mem hentry)
  unfold countOutcome
  by_cases hkey : key ∈ outcomes.map Prod.fst
  · rw [if_pos (by simpa using hkey)]
    induction outcomes with
    | nil => cases hkey
    | cons entry rest ih =>
        obtain ⟨hhead, hrest⟩ := List.nodup_cons.mp h
        rw [List.map_cons, hcons, hcons]
        by_cases heq : entry.1 = key
        · -- the entry that is there; no other has this key
          have hnot : key ∉ rest.map Prod.fst := heq ▸ hhead
          rw [if_pos heq, hmap rest hnot, heq]
          split
          · omega
          · omega
        · rw [if_neg heq]
          rcases List.mem_cons.mp hkey with hhere | hthere
          · exact absurd hhere.symm heq
          · have hlater := ih hrest hthere
            omega
  · rw [if_neg (by simpa using hkey)]
    unfold sourceCount
    rw [List.filter_append, List.map_append, List.sum_append, List.filter_cons]
    by_cases heq : key.1 = source
    · simp [heq]
    · simp [heq]

/-- **Every suggestion with a patch is counted once**, for its source. -/
theorem sourceCount_foldl {suggestions : List Suggestion} {verdicts : List Judgement}
    (hjudged : Judged env files suggestions verdicts) (source : String)
    {outcomes : List ((String × String) × Nat)} (h : (outcomes.map Prod.fst).Nodup) :
    sourceCount source
        ((suggestions.zip verdicts).foldl (fun outcomes p => tallied outcomes p.1 p.2) outcomes)
      = sourceCount source outcomes
        + (suggestions.filter fun s => hasPatch s && sourceValue s == source).length := by
  induction hjudged generalizing outcomes with
  | nil => rfl
  | @cons s verdict suggestions verdicts hjudge _ ih =>
      rw [List.zip_cons_cons, List.foldl_cons, List.filter_cons]
      unfold judge at hjudge
      by_cases hpatch : hasPatch s
      · -- verified or rejected, and counted in both cases
        have hcounted : ∃ outcome, verdict.outcome? = some outcome := by
          rw [if_pos hpatch] at hjudge
          cases hrejection : patchRejection env s files with
          | error message =>
              rw [hrejection] at hjudge
              cases hjudge
          | ok rejection =>
              rw [hrejection] at hjudge
              obtain rfl := Except.ok.inj hjudge
              cases rejection with
              | none => exact ⟨"verified", rfl⟩
              | some reason => exact ⟨"rejected", rfl⟩
        obtain ⟨outcome, houtcome⟩ := hcounted
        have htallied : tallied outcomes s verdict
            = countOutcome outcomes (sourceValue s, outcome) := by
          unfold tallied
          rw [houtcome]
        rw [htallied, ih (nodup_countOutcome h _), sourceCount_countOutcome h]
        by_cases hsource : sourceValue s = source
        · rw [if_pos hsource, if_pos (by simp [hpatch, hsource]), List.length_cons]
          omega
        · rw [if_neg hsource, if_neg (by simp [hsource])]
          omega
      · rw [if_neg hpatch] at hjudge
        obtain rfl := Except.ok.inj hjudge
        rw [if_neg (by simp [hpatch])]
        exact ih h

/-! ## The filter -/

/-- What verification makes of a suggestion. -/
structure Filtered (s s' : Suggestion) : Prop where
  description : s'.description = s.description
  file : s'.file = s.file
  source : s'.source = s.source
  untouched : hasPatch s = false → s' = s
  kept : hasPatch s = true →
    (s'.patch = s.patch ∧ s'.patchVerified = true)
      ∨ (s'.patch = none ∧ s'.patchVerified = false)

theorem filtered_mark {s : Suggestion} {verdict : Judgement}
    (h : judge env files s = .ok verdict) : Filtered s (verdict.mark s) := by
  unfold judge at h
  by_cases hpatch : hasPatch s
  · rw [if_pos hpatch] at h
    cases hrejection : patchRejection env s files with
    | error message =>
        rw [hrejection] at h
        cases h
    | ok rejection =>
        rw [hrejection] at h
        obtain rfl := Except.ok.inj h
        have hnot : hasPatch s ≠ false := by rw [hpatch]; decide
        cases rejection with
        | none => exact ⟨rfl, rfl, rfl, fun hno => absurd hno hnot, fun _ => Or.inl ⟨rfl, rfl⟩⟩
        | some reason =>
            exact ⟨rfl, rfl, rfl, fun hno => absurd hno hnot, fun _ => Or.inr ⟨rfl, rfl⟩⟩
  · rw [if_neg hpatch] at h
    obtain rfl := Except.ok.inj h
    exact ⟨rfl, rfl, rfl, fun _ => rfl, fun hyes => absurd hyes hpatch⟩

theorem filtered_marks {suggestions : List Suggestion} {verdicts : List Judgement}
    (hjudged : Judged env files suggestions verdicts) :
    List.Forall₂ Filtered suggestions ((suggestions.zip verdicts).map fun p => p.2.mark p.1) := by
  induction hjudged with
  | nil => exact .nil
  | cons hjudge _ ih => exact .cons (filtered_mark hjudge) ih

/-- Whether the patch of a suggestion was dropped. -/
def isDropped (pair : Suggestion × Suggestion) : Bool := hasPatch pair.1 && pair.2.patch.isNone

/-- There is a note for a suggestion exactly if its patch was dropped. -/
theorem note?_isSome {s : Suggestion} {verdict : Judgement}
    (h : judge env files s = .ok verdict) :
    verdict.note?.isSome = isDropped (s, verdict.mark s) := by
  unfold judge at h
  unfold isDropped
  by_cases hpatch : hasPatch s
  · rw [if_pos hpatch] at h
    cases hrejection : patchRejection env s files with
    | error message =>
        rw [hrejection] at h
        cases h
    | ok rejection =>
        rw [hrejection] at h
        obtain rfl := Except.ok.inj h
        cases rejection with
        | none =>
            have hsome : s.patch.isNone = false := by
              cases hp : s.patch with
              | none => simp [hasPatch, hp] at hpatch
              | some patch => rfl
            show false = (hasPatch s && s.patch.isNone)
            rw [hsome, Bool.and_false]
        | some reason =>
            show true = (hasPatch s && true)
            rw [hpatch]
            rfl
  · rw [if_neg hpatch] at h
    obtain rfl := Except.ok.inj h
    show false = (hasPatch s && s.patch.isNone)
    rw [Bool.eq_false_iff.mpr hpatch, Bool.false_and]

/-- A suggestion that went through verification passes it as it is. -/
theorem judge_mark {s : Suggestion} {verdict : Judgement} (h : judge env files s = .ok verdict) :
    ∃ verdict', judge env files (verdict.mark s) = .ok verdict'
      ∧ verdict'.mark (verdict.mark s) = verdict.mark s ∧ verdict'.note? = none := by
  cases verdict with
  | untouched => exact ⟨.untouched, h, rfl, rfl⟩
  | verified => exact ⟨.verified, h, rfl, rfl⟩
  | rejected reason => exact ⟨.untouched, rfl, rfl, rfl⟩

theorem judged_marks {suggestions : List Suggestion} {verdicts : List Judgement}
    (hjudged : Judged env files suggestions verdicts) :
    ∃ verdicts', Judged env files ((suggestions.zip verdicts).map fun p => p.2.mark p.1) verdicts'
      ∧ ((((suggestions.zip verdicts).map fun p => p.2.mark p.1).zip verdicts').map
          fun p => p.2.mark p.1) = (suggestions.zip verdicts).map (fun p => p.2.mark p.1)
      ∧ ∀ verdict' ∈ verdicts', verdict'.note? = none := by
  induction hjudged with
  | nil => exact ⟨[], .nil, rfl, fun _ h => absurd h List.not_mem_nil⟩
  | @cons s verdict suggestions verdicts hjudge _ ih =>
      obtain ⟨verdict', hjudge', hmark, hnote⟩ := judge_mark hjudge
      obtain ⟨verdicts', hjudged', hmarks, hnotes⟩ := ih
      refine ⟨verdict' :: verdicts', .cons hjudge' hjudged', ?_,
        List.forall_mem_cons.mpr ⟨hnote, hnotes⟩⟩
      rw [List.zip_cons_cons, List.map_cons, List.zip_cons_cons, List.map_cons]
      exact congrArg₂ List.cons hmark hmarks

/-- Only what is rejected is counted as rejected. -/
theorem not_rejected_foldl {pairs : List (Suggestion × Judgement)}
    (hnotes : ∀ p ∈ pairs, p.2.note? = none) {outcomes : List ((String × String) × Nat)}
    (h : ∀ entry ∈ outcomes, entry.1.2 ≠ "rejected") :
    ∀ entry ∈ pairs.foldl (fun outcomes p => tallied outcomes p.1 p.2) outcomes,
      entry.1.2 ≠ "rejected" := by
  induction pairs generalizing outcomes with
  | nil => exact h
  | cons p pairs ih =>
      obtain ⟨hnote, hnotes⟩ := List.forall_mem_cons.mp hnotes
      refine ih hnotes ?_
      obtain ⟨s, verdict⟩ := p
      cases verdict with
      | untouched => exact h
      | rejected reason => cases hnote
      | verified =>
          intro entry hentry
          have hkey : entry.1 ∈ (countOutcome outcomes (sourceValue s, "verified")).map Prod.fst :=
            List.mem_map_of_mem hentry
          rw [countOutcome_keys] at hkey
          have hcases : entry.1 ∈ outcomes.map Prod.fst ∨ entry.1 = (sourceValue s, "verified") := by
            split at hkey
            · exact Or.inl hkey
            · exact (List.mem_append.mp hkey).imp_right List.mem_singleton.mp
          rcases hcases with hold | hnew
          · obtain ⟨old, hmem, heq⟩ := List.mem_map.mp hold
            rw [← heq]
            exact h old hmem
          · rw [hnew]
            simp

/-- The account that verification gives of itself. -/
structure Accounted (diagnosis result : Diagnosis) (outcomes : List ((String × String) × Nat)) :
    Prop where
  filtered : List.Forall₂ Filtered diagnosis.suggestions result.suggestions
  /-- Nothing else is touched. -/
  rest : { result with suggestions := diagnosis.suggestions, notes := diagnosis.notes } = diagnosis
  notes : ∃ reasons : List String,
    result.notes = diagnosis.notes
      ++ reasons.map (fun reason => "수정 diff를 검증하지 못해 제외했습니다: " ++ reason)
    ∧ reasons.length = ((diagnosis.suggestions.zip result.suggestions).filter isDropped).length
  counts : ∀ source, sourceCount source outcomes
    = (diagnosis.suggestions.filter fun s => hasPatch s && sourceValue s == source).length

/-- The notes are those on the suggestions that are dropped. -/
theorem notes_judged {suggestions : List Suggestion} {verdicts : List Judgement}
    (hjudged : Judged env files suggestions verdicts) :
    ∃ reasons : List String,
      (suggestions.zip verdicts).filterMap (fun p => p.2.note?)
        = reasons.map (fun reason => "수정 diff를 검증하지 못해 제외했습니다: " ++ reason)
      ∧ reasons.length = ((suggestions.zip
          ((suggestions.zip verdicts).map fun p => p.2.mark p.1)).filter isDropped).length := by
  induction hjudged with
  | nil => exact ⟨[], rfl, rfl⟩
  | @cons s verdict suggestions verdicts hjudge _ ih =>
      obtain ⟨reasons, hreasons, hlength⟩ := ih
      have hdropped := note?_isSome hjudge
      rw [List.zip_cons_cons, List.map_cons, List.zip_cons_cons, List.filter_cons, ← hdropped,
        List.filterMap_cons]
      cases verdict with
      | untouched => exact ⟨reasons, hreasons, hlength⟩
      | verified => exact ⟨reasons, hreasons, hlength⟩
      | rejected reason =>
          refine ⟨reason :: reasons, ?_, congrArg Nat.succ hlength⟩
          show _ :: _ = _ :: _
          rw [hreasons]

theorem accounted_of_judged {diagnosis : Diagnosis} {verdicts : List Judgement} {v : Verification}
    (hjudged : Judged env files diagnosis.suggestions verdicts)
    (hv : v = (diagnosis.suggestions.zip verdicts).foldl (fun v p => recorded v p.1 p.2)
      ⟨[], diagnosis.notes, []⟩) :
    Accounted diagnosis { diagnosis with suggestions := v.suggestions, notes := v.notes }
      v.outcomes where
  filtered := by
    rw [hv, suggestions_foldl, List.nil_append]
    exact filtered_marks hjudged
  rest := rfl
  notes := by
    obtain ⟨reasons, hreasons, hlength⟩ := notes_judged hjudged
    refine ⟨reasons, ?_, ?_⟩
    · rw [hv, notes_foldl, hreasons]
    · rw [hv, suggestions_foldl, List.nil_append]
      exact hlength
  counts := by
    intro source
    have hnone : (([] : List ((String × String) × Nat)).map Prod.fst).Nodup := List.nodup_nil
    rw [hv, outcomes_foldl, sourceCount_foldl hjudged source hnone]
    exact Nat.zero_add _

theorem accounted_of_ok {diagnosis result : Diagnosis} {outcomes : List ((String × String) × Nat)}
    (h : verifyPatchSuggestions env diagnosis files = .ok (result, outcomes)) :
    Accounted diagnosis result outcomes := by
  obtain ⟨verdicts, hjudged, v, hv, rfl, rfl⟩ := verifyPatchSuggestions_iff.mp h
  exact accounted_of_judged hjudged hv

/-- A second verification finds nothing to do. -/
theorem verify_again {diagnosis result : Diagnosis} {outcomes : List ((String × String) × Nat)}
    (h : verifyPatchSuggestions env diagnosis files = .ok (result, outcomes)) :
    ∃ outcomes', verifyPatchSuggestions env result files = .ok (result, outcomes')
      ∧ ∀ entry ∈ outcomes', entry.1.2 ≠ "rejected" := by
  obtain ⟨verdicts, hjudged, v, hv, rfl, rfl⟩ := verifyPatchSuggestions_iff.mp h
  have hsuggestions : v.suggestions
      = (diagnosis.suggestions.zip verdicts).map fun p => p.2.mark p.1 := by
    rw [hv, suggestions_foldl, List.nil_append]
  obtain ⟨verdicts', hjudged', hmarks, hnone⟩ := judged_marks hjudged
  rw [← hsuggestions] at hjudged' hmarks
  have hpairs : ∀ p ∈ v.suggestions.zip verdicts', p.2.note? = none :=
    fun p hp => hnone p.2 (List.of_mem_zip hp).2
  have hsilent : (v.suggestions.zip verdicts').filterMap
      (fun p : Suggestion × Judgement => p.2.note?) = [] := List.filterMap_eq_nil_iff.mpr hpairs
  refine ⟨_, verifyPatchSuggestions_iff.mpr ⟨verdicts', hjudged', _, rfl, ?_, rfl⟩, ?_⟩
  · rw [suggestions_foldl, notes_foldl, List.nil_append, hmarks]
    show _ = { diagnosis with
      suggestions := v.suggestions
      notes := v.notes ++ (v.suggestions.zip verdicts').filterMap
        fun p : Suggestion × Judgement => p.2.note? }
    rw [hsilent, List.append_nil]
  · rw [outcomes_foldl]
    exact not_rejected_foldl hpairs fun _ h => absurd h List.not_mem_nil

/-- **Verification is a filter that keeps account**, and what it returns passes it as it is. -/
theorem verify_accounts (env : PatchEnvironment) (files : List (String × String))
    (diagnosis result : Diagnosis) (outcomes : List ((String × String) × Nat))
    (h : verifyPatchSuggestions env diagnosis files = .ok (result, outcomes)) :
    Accounted diagnosis result outcomes
      ∧ ∃ outcomes', verifyPatchSuggestions env result files = .ok (result, outcomes')
        ∧ ∀ entry ∈ outcomes', entry.1.2 ≠ "rejected" :=
  ⟨accounted_of_ok h, verify_again h⟩

/-- A patch that applies and one for a file that is not there. -/
theorem verify_accounts_guide :
    let diagnosis := { suggesting "docs/guide.md" guidePatch with
      suggestions := (suggesting "docs/guide.md" guidePatch).suggestions
        ++ (suggesting "docs/other.md" guidePatch).suggestions }
    ∃ result outcomes,
      verifyPatchSuggestions asciiEnvironment diagnosis [("docs/guide.md", "hello\n")]
        = .ok (result, outcomes)
      ∧ Accounted diagnosis result outcomes := by
  intro diagnosis
  have hverify : verifyPatchSuggestions asciiEnvironment diagnosis [("docs/guide.md", "hello\n")]
      = .ok ({ diagnosis with
          suggestions := [{ description := "d", file := some "docs/guide.md"
                            patch := some guidePatch, source := some .llm
                            patchVerified := true },
                          { description := "d", file := some "docs/other.md"
                            patch := none, source := some .llm }]
          notes := ["수정 diff를 검증하지 못해 제외했습니다: " ++
            "대상 파일을 head 기준으로 확인할 수 없습니다."] },
        [(("llm", "verified"), 1), (("llm", "rejected"), 1)]) := by
    decide +kernel
  exact ⟨_, _, hverify, (verify_accounts asciiEnvironment _ _ _ _ hverify).1⟩

end PipeLens.Proof
