import PipeLens.RunContext

/-!
# The trust level is right

A `Forge` is what GitHub knows about repositories. What it answers describes them, and
leaves out what it likes: an id, a name, a deleted repository. From such answers
`repository_context` finds a run trusted only if its head is in the repository itself,
and takes it for a run of a fork only if it is not. The search for a pull request that
GitHub has left out does not change this.
-/

namespace PipeLens.Proof

open Program GitHubAnswers

/-- The repositories of GitHub. Ids and names tell them apart, names whatever their case. -/
structure Forge (casefold : String → String) where
  Repo : Type
  id : Repo → Int
  fullName : Repo → String
  id_inj : ∀ a b, id a = id b → a = b
  name_inj : ∀ a b, casefold (fullName a) = casefold (fullName b) → a = b
  casefold_empty : ∀ text, casefold "" = casefold text → text = ""

variable {github : GitHubAnswers} {forge : Forge github.casefold} {repo head : forge.Repo}

/-- What the value says of a repository is true of `repo`. -/
structure Describes (forge : Forge github.casefold) (value : Json) (repo : forge.Repo) :
    Prop where
  id : ∀ id, value.get "id" .null = .ok id → id = .null ∨ id = .int (forge.id repo)
  name : ∀ name, value.get "full_name" .null = .ok (.str name) →
    github.casefold name = github.casefold (forge.fullName repo)

/-- A pull request whose head is in `head`. -/
structure PullRequestOf (forge : Forge github.casefold) (pullRequest : Json)
    (head : forge.Repo) : Prop where
  head : ∀ value, sideRepository pullRequest "head" = .ok value → Describes forge value head
  base : ∀ value, sideRepository pullRequest "base" = .ok value →
    ∃ base, Describes forge value base

/-- A run whose head is in `head`. -/
structure RunOf (forge : Forge github.casefold) (run : Json) (head : forge.Repo) : Prop where
  pullRequest : ∀ pullRequest, firstPullRequest run = .ok pullRequest →
    pullRequest.truthy = true → PullRequestOf forge pullRequest head
  headRepository : ∀ value, run.get "head_repository" .null = .ok value →
    Describes forge value.orEmpty head

/-- What a trust level says of a run. -/
structure Right (repo head : forge.Repo) (level : TrustLevel) : Prop where
  trusted : level = .trusted → head = repo
  untrusted : level = .untrustedFork → head ≠ repo

/-! ## `_trust_level` -/

theorem right_unverified : Right repo head .unverified where
  trusted h := nomatch h
  untrusted h := nomatch h

/-- A comparison that tells the two repositories apart. -/
theorem right_of_iff {p : Prop} [Decidable p] (h : p ↔ head = repo) {level : TrustLevel}
    (hlevel : (if p then Except.ok .trusted else Except.ok .untrustedFork : Except PyException _)
      = .ok level) : Right repo head level := by
  by_cases hp : p
  · rw [if_pos hp] at hlevel
    obtain rfl := Except.ok.inj hlevel
    exact ⟨fun _ => h.mp hp, fun hfork => nomatch hfork⟩
  · rw [if_neg hp] at hlevel
    obtain rfl := Except.ok.inj hlevel
    exact ⟨fun htrusted => (nomatch htrusted), fun _ heq => hp (h.mpr heq)⟩

theorem name_iff {headName repoName : String}
    (hhead : github.casefold headName = github.casefold (forge.fullName head))
    (hrepo : github.casefold repoName = github.casefold (forge.fullName repo)) :
    github.casefold headName = github.casefold repoName ↔ head = repo := by
  rw [hhead, hrepo]
  constructor
  · exact forge.name_inj head repo
  · rintro rfl
    rfl

theorem levelByName_right {repository : String} {value : Json} {level : TrustLevel}
    (hrepo : github.casefold repository = github.casefold (forge.fullName repo))
    (hvalue : Describes forge value head) (h : github.levelByName repository value = .ok level) :
    Right repo head level := by
  unfold levelByName at h
  obtain ⟨name, hname, h⟩ := bind_eq_ok h
  split at h
  · rename_i headFullName
    exact right_of_iff (name_iff (hvalue.name _ hname) hrepo) h
  · obtain rfl := Except.ok.inj h
    exact right_unverified

theorem levelBySides_right {repository baseFullName : String} {headSide headRepository : Json}
    {level : TrustLevel}
    (hrepo : github.casefold repository = github.casefold (forge.fullName repo))
    (hbase : github.casefold baseFullName = github.casefold (forge.fullName repo))
    (hside : Describes forge headSide head) (hhead : Describes forge headRepository head)
    (h : github.levelBySides repository baseFullName headSide headRepository = .ok level) :
    Right repo head level := by
  unfold levelBySides at h
  obtain ⟨headName, hheadName, h⟩ := bind_eq_ok h
  split at h
  · exact right_of_iff (name_iff (hside.name _ hheadName) hbase) h
  · refine levelByName_right hrepo ?_ h
    split
    · exact hside
    · exact hhead

theorem equal_int (m n : Int) : (Json.int m).equal (.int n) = true ↔ m = n := by
  have hcast : (Json.int m).equal (.int n) = ((m : Rat) == (n : Rat)) := rfl
  rw [hcast, beq_iff_eq]
  exact Rat.intCast_inj

/-- **`_trust_level` is right** about a run that GitHub describes truly. -/
theorem trustLevel_right {repository : String} {run : Json} {level : TrustLevel}
    (hrepo : github.casefold repository = github.casefold (forge.fullName repo))
    (hrun : RunOf forge run head) (h : github.trustLevel repository run = .ok level) :
    Right repo head level := by
  unfold trustLevel at h
  obtain ⟨pullRequest, hpull, h⟩ := bind_eq_ok h
  obtain ⟨headRepository, hhead, h⟩ := bind_eq_ok h
  have hheadRepository := hrun.headRepository headRepository hhead
  dsimp only at h
  split at h
  · rename_i htruthy
    have hpullRequest := hrun.pullRequest pullRequest hpull htruthy
    obtain ⟨headSide, hheadSide, h⟩ := bind_eq_ok h
    obtain ⟨baseSide, hbaseSide, h⟩ := bind_eq_ok h
    obtain ⟨base, hbase⟩ := hpullRequest.base baseSide hbaseSide
    have hside := hpullRequest.head headSide hheadSide
    obtain ⟨baseName, hbaseName, h⟩ := bind_eq_ok h
    split at h
    · rename_i baseFullName
      split at h
      · obtain rfl := Except.ok.inj h
        exact right_unverified
      · rename_i hsame
        -- the base is the repository itself
        have hbaseRepo : github.casefold baseFullName
            = github.casefold (forge.fullName repo) := (not_not.mp hsame).trans hrepo
        have hbaseEq : base = repo :=
          (name_iff (hbase.name _ hbaseName) hrepo).mp (not_not.mp hsame)
        obtain ⟨headId, hheadId, h⟩ := bind_eq_ok h
        obtain ⟨baseId, hbaseId, h⟩ := bind_eq_ok h
        split at h
        · exact levelBySides_right hrepo hbaseRepo hside hheadRepository h
        · exact levelBySides_right hrepo hbaseRepo hside hheadRepository h
        · rename_i hheadNull hbaseNull
          have hids : headId.equal baseId = true ↔ head = repo := by
            rcases hside.id headId hheadId with rfl | rfl
            · exact absurd rfl hheadNull
            · rcases hbase.id baseId hbaseId with rfl | rfl
              · exact absurd rfl hbaseNull
              · rw [equal_int, hbaseEq]
                exact ⟨forge.id_inj head repo, fun heq => by rw [heq]⟩
          exact right_of_iff hids h
    · obtain rfl := Except.ok.inj h
      exact right_unverified
  · exact levelByName_right hrepo hheadRepository h

/-! ## The search for a pull request -/

theorem lookup_replaced {fields : List (String × Json)} {key other : String} {item : Json} :
    (fields.map fun field => if field.1 = key then (key, item) else field).lookup other
      = if other = key then (fields.lookup key).map fun _ => item else fields.lookup other := by
  induction fields with
  | nil => simp
  | cons field fields ih =>
      obtain ⟨name, value⟩ := field
      rw [List.map_cons]
      by_cases hname : name = key
      · subst hname
        rw [if_pos rfl, List.lookup_cons]
        by_cases hother : other = name
        · subst hother
          simp
        · rw [show (other == name) = false from beq_eq_false_iff_ne.mpr hother]
          rw [ih, if_neg hother, if_neg hother, List.lookup_cons,
            show (other == name) = false from beq_eq_false_iff_ne.mpr hother]
      · rw [if_neg hname, List.lookup_cons, ih]
        by_cases hother : other = name
        · subst hother
          simp [hname]
        · rw [show (other == name) = false from beq_eq_false_iff_ne.mpr hother]
          rw [List.lookup_cons, List.lookup_cons,
            show (other == name) = false from beq_eq_false_iff_ne.mpr hother,
            show (key == name) = false from beq_eq_false_iff_ne.mpr (Ne.symm hname)]

theorem get_withField {run item value : Json} {key other : String}
    (h : run.get key .null = .ok value) (default : Json) :
    (run.withField key item).get other default
      = if other = key then .ok item else run.get other default := by
  cases run with
  | dict fields =>
      unfold Json.withField
      dsimp only
      split
      · rename_i hsome
        obtain ⟨known, hknown⟩ := Option.isSome_iff_exists.mp hsome
        unfold Json.get
        dsimp only
        rw [lookup_replaced]
        split
        · rw [hknown]
          rfl
        · rfl
      · rename_i hnone
        rw [Option.not_isSome_iff_eq_none] at hnone
        unfold Json.get
        dsimp only
        rw [List.lookup_append, List.lookup_cons, List.lookup_nil]
        by_cases hother : other = key
        · subst hother
          simp [hnone]
        · rw [if_neg hother, show (other == key) = false from beq_eq_false_iff_ne.mpr hother]
          simp
  | null | bool _ | int _ | float _ | str _ | list _ => exact nomatch h

theorem selectItems_some {isSelected : Json → Except PyException Bool} {items found : List Json}
    (h : selectItems isSelected items = .ok found) :
    ∀ item ∈ found, item ∈ items ∧ isSelected item = .ok true := by
  induction items generalizing found with
  | nil =>
      obtain rfl := Except.ok.inj h
      exact fun item hm => absurd hm List.not_mem_nil
  | cons first items ih =>
      rw [selectItems] at h
      obtain ⟨selected, hselected, h⟩ := bind_eq_ok h
      obtain ⟨others, hothers, h⟩ := bind_eq_ok h
      obtain rfl := Except.ok.inj h
      have hlater : ∀ item ∈ others, item ∈ first :: items ∧ isSelected item = .ok true :=
        fun item hm => ⟨List.mem_cons_of_mem _ (ih hothers item hm).1, (ih hothers item hm).2⟩
      cases selected with
      | false => exact hlater
      | true =>
          intro item hm
          rcases List.mem_cons.mp hm with rfl | hm
          · exact ⟨List.mem_cons_self, hselected⟩
          · exact hlater item hm

/-- The two ways in which the code reads a side of a pull request agree. -/
theorem side_agrees {pullRequest side value repoValue : Json} {key : String}
    (hside : sideRepository pullRequest key = .ok value)
    (hget : pullRequest.get key .null = .ok side)
    (hrepo : side.orEmpty.get "repo" .null = .ok repoValue) : repoValue.orEmpty = value := by
  unfold sideRepository at hside
  obtain ⟨found, hfound, hside⟩ := bind_eq_ok hside
  obtain ⟨repoFound, hrepoFound, hside⟩ := bind_eq_ok hside
  obtain rfl := Except.ok.inj hside
  suffices hsame : side.orEmpty = found by
    rw [hsame, hrepoFound] at hrepo
    rw [Except.ok.inj hrepo]
  cases pullRequest with
  | dict fields =>
      unfold Json.get at hfound hget
      dsimp only at hfound hget
      obtain rfl := Except.ok.inj hfound
      obtain rfl := Except.ok.inj hget
      cases hlookup : fields.lookup key with
      | none => rfl
      | some value =>
          rw [hlookup] at hrepoFound
          cases value with
          | dict others =>
              cases others with
              | nil => rfl
              | cons field others => rfl
          | null | bool _ | int _ | float _ | str _ | list _ => exact nomatch hrepoFound
  | null | bool _ | int _ | float _ | str _ | list _ => exact nomatch hget

/-- What GitHub lists describes some repositories truly. -/
structure Genuine (forge : Forge github.casefold) (pullRequest : Json) : Prop where
  side : ∀ key, key = "head" ∨ key = "base" → ∀ value,
    sideRepository pullRequest key = .ok value → ∃ repo, Describes forge value repo

/-- A pull request that matches is one of the head's. -/
theorem isRunOf_head {repository headSha headFullName : String} {pullRequest : Json}
    (hgenuine : Genuine forge pullRequest) (hne : headFullName ≠ "")
    (hname : github.casefold headFullName = github.casefold (forge.fullName head))
    (h : github.isRunOf repository headSha headFullName pullRequest = .ok true) :
    PullRequestOf forge pullRequest head := by
  refine ⟨fun value hvalue => ?_, fun value hvalue => hgenuine.side "base" (Or.inr rfl) value hvalue⟩
  unfold isRunOf at h
  obtain ⟨headSide, hhead, h⟩ := bind_eq_ok h
  obtain ⟨baseSide, _, h⟩ := bind_eq_ok h
  obtain ⟨headValue, hheadValue, h⟩ := bind_eq_ok h
  obtain ⟨baseValue, _, h⟩ := bind_eq_ok h
  obtain ⟨sha, _, h⟩ := bind_eq_ok h
  have hsame := side_agrees hvalue hhead hheadValue
  split at h
  · exact nomatch h
  · obtain ⟨same, hhas, h⟩ := bind_eq_ok h
    cases same with
    | false => exact nomatch h
    | true =>
        rw [hsame] at hhas
        unfold hasName at hhas
        obtain ⟨fullName, hfull, hhas⟩ := bind_eq_ok hhas
        split at hhas
        · rename_i name
          have hfold : github.casefold name = github.casefold headFullName :=
            beq_iff_eq.mp (Except.ok.inj hhas)
          obtain ⟨other, hother⟩ := hgenuine.side "head" (Or.inl rfl) value hvalue
          have hnamed : value.get "full_name" .null = .ok (.str name) := by
            cases value with
            | dict fields =>
                unfold Json.get at hfull ⊢
                dsimp only at hfull ⊢
                cases hlookup : fields.lookup "full_name" with
                | none =>
                    -- without a name the empty one would be that of the head
                    rw [hlookup] at hfull
                    obtain rfl := Json.str.inj (Except.ok.inj hfull)
                    exact absurd (forge.casefold_empty _ hfold) hne
                | some found =>
                    rw [hlookup] at hfull
                    exact hfull
            | null | bool _ | int _ | float _ | str _ | list _ => exact nomatch hfull
          have heq : other = head := by
            refine forge.name_inj _ _ ?_
            rw [← hother.name name hnamed, hfold, hname]
          rw [heq] at hother
          exact hother
        · exact nomatch hhas

theorem pullRequestHead_some {run : Json} {headFullName headOwner headBranch : String}
    (hrun : RunOf forge run head)
    (h : pullRequestHead run = .ok (some (headFullName, headOwner, headBranch))) :
    headFullName ≠ "" ∧ github.casefold headFullName = github.casefold (forge.fullName head) := by
  unfold pullRequestHead at h
  obtain ⟨headRepository, hhead, h⟩ := bind_eq_ok h
  obtain ⟨fullName, hfull, h⟩ := bind_eq_ok h
  obtain ⟨branch, _, h⟩ := bind_eq_ok h
  cases fullName with
  | str name =>
      cases branch with
      | str branchName =>
          dsimp only at h
          split at h
          · exact nomatch Except.ok.inj h
          · rename_i howner
            have hparts := Option.some.inj (Except.ok.inj h)
            obtain rfl := (Prod.mk.inj hparts).1
            refine ⟨?_, (hrun.headRepository headRepository hhead).name name hfull⟩
            intro hempty
            rw [hempty] at howner
            exact howner (Or.inr (Or.inl rfl))
      | null | bool _ | int _ | float _ | list _ | dict _ => exact nomatch Except.ok.inj h
  | null | bool _ | int _ | float _ | list _ | dict _ => exact nomatch Except.ok.inj h

/-- Only what is listed of the pull requests changes. -/
theorem runOf_withField {run pullRequest : Json} (hrun : RunOf forge run head)
    {pullRequests : Json} (hget : run.get "pull_requests" .null = .ok pullRequests)
    (hpull : PullRequestOf forge pullRequest head) :
    RunOf forge (run.withField "pull_requests" (.list [pullRequest])) head := by
  constructor
  · intro first hfirst _
    unfold firstPullRequest at hfirst
    rw [get_withField hget, if_pos rfl] at hfirst
    obtain rfl := Except.ok.inj hfirst
    exact hpull
  · intro value hvalue
    rw [get_withField hget, if_neg (by decide)] at hvalue
    exact hrun.headRepository value hvalue

/-! ## `repository_context` -/

variable (github) in
/-- GitHub's answers about the run describe it truly. -/
structure TrueAnswers (forge : Forge github.casefold) (repository : String) (runId : Int)
    (head : forge.Repo) : Prop where
  run : ∀ n response run, github.answer n (.run repository runId) = .ok response →
    response.json = some run → RunOf forge run head
  pulls : ∀ n filter response listing pullRequests,
    github.answer n (.pulls repository filter) = .ok response → response.json = some listing →
    listing.iterate = .ok pullRequests → ∀ pullRequest ∈ pullRequests, Genuine forge pullRequest

theorem returns_reading {α : Type} {x : Except PyException α} {Q : α → Prop}
    (h : ∀ a, x = .ok a → Q a) : Returns (reading x) Q := by
  cases x with
  | error e => exact Returns.throw
  | ok a => exact Returns.pure (h a rfl)

theorem returns_requestJson {request : GitHubRequest} {Q : Json → Prop}
    (h : ∀ n response value, github.answer n request = .ok response →
      response.json = some value → Q value) : Returns (github.requestJson request) Q := by
  have hsent : Returns (github.request request)
      fun response => ∃ n, github.answer n request = .ok response := by
    intro requests response requests' hexec
    unfold GitHubAnswers.request at hexec
    rw [exec_ofRun] at hexec
    cases hanswer : github.answer requests.length request with
    | error message =>
        rw [hanswer] at hexec
        exact nomatch (Prod.mk.inj hexec).1
    | ok found =>
        rw [hanswer] at hexec
        obtain rfl := Except.ok.inj (Prod.mk.inj hexec).1
        exact ⟨_, hanswer⟩
  refine Returns.bind hsent fun response hresponse => ?_
  refine Returns.bind Returns.any fun _ _ => ?_
  obtain ⟨n, hanswer⟩ := hresponse
  split
  · rename_i value hjson
    exact Returns.pure (h n response value hanswer hjson)
  · exact Returns.throw

theorem resolveExternalPullRequest_runOf {repository headSha : String} {runId : Int} {run : Json}
    (htrue : TrueAnswers github forge repository runId head) (hrun : RunOf forge run head) :
    Returns (github.resolveExternalPullRequest repository headSha run)
      fun run => RunOf forge run head := by
  unfold resolveExternalPullRequest
  refine Returns.bind (Q := fun value => run.get "pull_requests" .null = .ok value)
    (returns_reading fun _ hvalue => hvalue) fun known hknown => ?_
  split
  · exact Returns.pure hrun
  · refine Returns.bind Returns.any fun _ _ => ?_
    split
    · exact Returns.pure hrun
    · refine Returns.bind Returns.any fun _ _ => ?_
      split
      · exact Returns.pure hrun
      · refine Returns.bind (Q := fun found => pullRequestHead run = .ok found)
          (returns_reading fun _ hfound => hfound) fun found hfound => ?_
        split
        · exact Returns.pure hrun
        · rename_i headFullName headOwner headBranch
          obtain ⟨hne, hname⟩ := pullRequestHead_some hrun hfound
          refine Returns.bind (returns_requestJson
            fun n response listing hanswer hjson pullRequests =>
              htrue.pulls n _ response listing pullRequests hanswer hjson)
            fun listing hlisting => ?_
          refine Returns.bind (returns_reading hlisting) fun pullRequests hgenuine => ?_
          refine Returns.bind (returns_reading fun found hfound => selectItems_some hfound)
            fun found hselected => ?_
          split
          · rename_i pullRequest
            obtain ⟨hlisted, hmatches⟩ := hselected pullRequest (List.mem_singleton_self _)
            exact Returns.pure (runOf_withField hrun hknown
              (isRunOf_head (hgenuine pullRequest hlisted) hne hname hmatches))
          · exact Returns.pure hrun

theorem repositoryContext_right {repository headSha : String} {runId : Int}
    (hrepo : github.casefold repository = github.casefold (forge.fullName repo))
    (htrue : TrueAnswers github forge repository runId head) :
    Returns (github.repositoryContext repository runId headSha)
      fun context => Right repo head context.trustLevel := by
  unfold repositoryContext
  refine Returns.bind (returns_requestJson fun n response run hanswer hjson =>
    htrue.run n response run hanswer hjson) fun run hrun => ?_
  refine Returns.bind (resolveExternalPullRequest_runOf htrue hrun) fun run hrun => ?_
  refine Returns.bind Returns.any fun changed _ => ?_
  refine Returns.bind Returns.any fun workflowId _ => ?_
  refine Returns.bind Returns.any fun workflow _ => ?_
  refine Returns.bind Returns.any fun number _ => ?_
  refine Returns.bind (returns_reading fun level hlevel => trustLevel_right hrepo hrun hlevel)
    fun level hlevel => ?_
  split
  · exact Returns.pure hlevel
  · exact Returns.throw

/-- **The context that is collected for a run has the right trust level**, whether or not
GitHub has named the pull request. -/
theorem context_trust_right (github : GitHubAnswers) (forge : Forge github.casefold)
    (repo head : forge.Repo) {repository headSha : String} {runId : Int}
    {requests requests' : List GitHubRequest} {context : RepositoryContext}
    (hrepo : github.casefold repository = github.casefold (forge.fullName repo))
    (htrue : TrueAnswers github forge repository runId head)
    (hexec : exec (github.repositoryContext repository runId headSha) requests
      = (.ok context, requests')) :
    (context.trustLevel = .trusted → head = repo)
      ∧ (context.trustLevel = .untrustedFork → head ≠ repo) := by
  have hright := repositoryContext_right hrepo htrue requests context requests' hexec
  exact ⟨hright.trusted, hright.untrusted⟩

/-! A pull request from a fork, which GitHub has left out of the run. -/

inductive WidgetRepo where
  | upstream
  | fork

/-- `str.casefold` of the names below. -/
def lowerAscii (text : String) : String := String.ofList (text.toList.map Char.toLower)

def widgetForge : Forge lowerAscii where
  Repo := WidgetRepo
  id
    | .upstream => 1
    | .fork => 2
  fullName
    | .upstream => "acme/example"
    | .fork => "mallory/example"
  id_inj a b h := by
    cases a <;> cases b <;> first | rfl | exact absurd h (by decide)
  name_inj a b h := by
    cases a <;> cases b <;> first | rfl | exact absurd h (by decide)
  casefold_empty text h := by
    have hempty : text.toList.map Char.toLower = [] := (String.ofList_inj.mp h).symm
    exact String.toList_eq_nil_iff.mp (List.map_eq_nil_iff.mp hempty)

def forkSide : Json :=
  .dict [("sha", .str "abc123"), ("repo", .dict [("id", .int 2), ("full_name", .str "Mallory/Example")])]

def upstreamSide : Json :=
  .dict [("repo", .dict [("id", .int 1), ("full_name", .str "acme/example")])]

def widgetAnswers : GitHubAnswers where
  answer _ request :=
    let answered (body : Json) : Except String GitHubResponse :=
      .ok { statusCode := 200, json := some body, text := "" }
    match request with
    | .run _ _ => answered (.dict
        [("event", .str "pull_request"), ("head_branch", .str "fix"),
          ("head_repository", .dict [("full_name", .str "mallory/example")]),
          ("pull_requests", .list [])])
    | .pulls _ _ => answered (.list
        [.dict [("number", .int 3), ("head", forkSide), ("base", upstreamSide)]])
    | .pullFiles _ _ => answered (.list [.dict [("filename", .str "ci.yml")]])
    | _ => .error "404 Not Found"
  casefold := lowerAscii
  validateInt
    | .int n => some n
    | _ => none
  str := fun _ => ""

theorem widgetAnswers_true :
    TrueAnswers widgetAnswers widgetForge "acme/example" 77 .fork where
  run n response run hanswer hjson := by
    obtain rfl := Except.ok.inj hanswer
    obtain rfl := Option.some.inj hjson
    constructor
    · intro pullRequest hpull htruthy
      obtain rfl := Except.ok.inj hpull
      exact nomatch htruthy
    · intro value hvalue
      obtain rfl := Except.ok.inj hvalue
      constructor
      · intro id hid
        exact Or.inl (Except.ok.inj hid).symm
      · intro name hname
        obtain rfl := Json.str.inj (Except.ok.inj hname)
        rfl
  pulls n filter response listing pullRequests hanswer hjson hiterate pullRequest hm := by
    obtain rfl := Except.ok.inj hanswer
    obtain rfl := Option.some.inj hjson
    obtain rfl := Except.ok.inj hiterate
    obtain rfl := List.mem_singleton.mp hm
    constructor
    intro key hkey value hvalue
    rcases hkey with rfl | rfl
    · obtain rfl := Except.ok.inj hvalue
      refine ⟨.fork, fun id hid => Or.inr (Except.ok.inj hid).symm, fun name hname => ?_⟩
      obtain rfl := Json.str.inj (Except.ok.inj hname)
      decide
    · obtain rfl := Except.ok.inj hvalue
      refine ⟨.upstream, fun id hid => Or.inr (Except.ok.inj hid).symm, fun name hname => ?_⟩
      obtain rfl := Json.str.inj (Except.ok.inj hname)
      rfl

theorem context_trust_right_widget :
    ∃ context requests,
      exec (widgetAnswers.repositoryContext "acme/example" 77 "abc123") [] = (.ok context, requests)
        ∧ context.pullRequestNumber = some 3 ∧ context.trustLevel = .untrustedFork
        ∧ (context.trustLevel = .untrustedFork → WidgetRepo.fork ≠ .upstream) := by
  have hrun : ∃ context requests,
      exec (widgetAnswers.repositoryContext "acme/example" 77 "abc123") [] = (.ok context, requests)
        ∧ context.pullRequestNumber = some 3 ∧ context.trustLevel = .untrustedFork :=
    ⟨_, _, rfl, rfl, rfl⟩
  obtain ⟨context, requests, hexec, hnumber, hlevel⟩ := hrun
  have hright := context_trust_right widgetAnswers widgetForge WidgetRepo.upstream WidgetRepo.fork
    (by decide) widgetAnswers_true hexec
  exact ⟨context, requests, hexec, hnumber, hlevel, hright.2⟩

end PipeLens.Proof
