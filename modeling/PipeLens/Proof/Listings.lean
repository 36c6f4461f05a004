import PipeLens.Lib.Paging
import PipeLens.RunContext

/-!
# The listings of GitHub

GitHub serves a listing in pages of 100, and the listing may grow while its pages are
read. `user_installations` and `failed_jobs` read the whole of it, as it was when the last
page was asked for. `_previous_successful_sha` searches in at most ten pages, and finds
what a search through the first thousand runs finds, though each new run moves the others
on to later pages.
-/

namespace PipeLens.Proof

open Program GitHubAnswers Paging

variable {github : GitHubAnswers}

/-- The request with this number is answered with these items. -/
structure Serves (github : GitHubAnswers) (n : Nat) (request : GitHubRequest) (key : String)
    (items : List Json) : Prop where
  response : ∃ response body, github.answer n request = .ok response
    ∧ 200 ≤ response.statusCode ∧ response.statusCode ≤ 299 ∧ response.json = some body
    ∧ body.get key (.list []) = .ok (.list items)

theorem Serves.of_page {n : Nat} {request : GitHubRequest} {key text : String}
    {items : List Json} (h : github.answer n request
      = .ok { statusCode := 200, json := some (.dict [(key, .list items)]), text := text }) :
    Serves github n request key items := by
  refine ⟨_, _, h, Nat.le_refl 200, show (200 : Nat) ≤ 299 by decide, rfl, ?_⟩
  unfold Json.get
  dsimp only
  rw [List.lookup_cons_self]
  rfl

theorem exec_request {request : GitHubRequest} {requests : List GitHubRequest}
    {response : GitHubResponse} (h : github.answer requests.length request = .ok response) :
    exec (github.request request) requests = (.ok response, requests ++ [request]) := by
  unfold GitHubAnswers.request
  rw [exec_ofRun, h]

theorem exec_reading {α : Type} {x : Except PyException α} {a : α} (h : x = .ok a)
    (requests : List GitHubRequest) : exec (reading x) requests = (.ok a, requests) := by
  rw [h]
  rfl

/-- The items of a page that is served. -/
theorem exec_served {α : Type} {request : GitHubRequest} {requests : List GitHubRequest}
    {key : String} {items : List Json} (h : Serves github requests.length request key items)
    (rest : List Json → GitHubReader α) :
    exec (do
        let body ← github.requestJson request
        let batch ← reading (body.get key (.list []) >>= Json.iterate)
        rest batch) requests
      = exec (rest items) (requests ++ [request]) := by
  obtain ⟨response, body, hanswer, hlow, hhigh, hjson, hget⟩ := h.response
  have hbatch : (body.get key (.list []) >>= Json.iterate) = .ok items := by
    rw [hget]
    rfl
  have hbody : exec (github.requestJson request) requests = (.ok body, requests ++ [request]) := by
    unfold requestJson
    rw [exec_bind, exec_request hanswer]
    dsimp only
    rw [raiseForStatus, if_pos ⟨hlow, hhigh⟩, exec_bind, exec_pure]
    dsimp only
    rw [hjson]
    rfl
  rw [exec_bind, hbody]
  dsimp only
  rw [exec_bind, exec_reading hbatch]

/-! ## Listings that are read to their end -/

/-- Up to the first page that is not full, the loop gathers the pages. -/
theorem readPages_gather {request : Nat → GitHubRequest} {key : String}
    {read : Nat → List Json} {start last : Nat}
    (hserves : ∀ k, Serves github (start + k) (request (k + 1)) key (read k))
    (hlast : (read last).length < 100) (hfull : ∀ j, j < last → 100 ≤ (read j).length)
    {fuel k : Nat} (hk : k ≤ last) (hfuel : last < k + fuel) {requests : List GitHubRequest}
    (hstart : requests.length = start + k) :
    exec (github.readPages request key fuel (k + 1)) requests
      = (.ok (gather 100 read fuel k),
          requests ++ (List.range' (k + 1) (last + 1 - k)).map request) := by
  induction fuel generalizing k requests with
  | zero => omega
  | succ fuel ih =>
      have hpage := hserves k
      rw [← hstart] at hpage
      rw [readPages, exec_served hpage, gather]
      rcases Nat.lt_or_eq_of_le hk with hlt | rfl
      · have hnot : ¬ (read k).length < 100 := Nat.not_lt.mpr (hfull k hlt)
        have hlength : (requests ++ [request (k + 1)]).length = start + (k + 1) := by
          rw [List.length_append, List.length_singleton, hstart, Nat.add_assoc]
        rw [if_neg hnot, if_neg hnot, exec_bind, ih (by omega) (by omega) hlength]
        dsimp only
        have hcount : last + 1 - k = (last + 1 - (k + 1)) + 1 := by omega
        rw [hcount, List.range'_succ, List.map_cons, List.append_assoc]
        rfl
      · rw [if_pos hlast, if_pos hlast, Nat.add_sub_cancel_left]
        rfl

/-- The loop over the pages of a listing that grows at its end. -/
theorem readPages_whole {request : Nat → GitHubRequest} {key : String}
    {listing : Nat → List Json} {requests : List GitHubRequest}
    (hserves : ∀ k, Serves github (requests.length + k) (request (k + 1)) key
      (page 100 k (listing k)))
    (hgrows : Paging.Grows listing) {bound fuel : Nat} (hbound : ∀ k, (listing k).length ≤ bound)
    (hfuel : bound < 100 * fuel) :
    ∃ last, LastPage 100 listing last
      ∧ exec (github.readPages request key fuel 1) requests
        = (.ok (listing last), requests ++ (List.range' 1 (last + 1)).map request) := by
  obtain ⟨last, hlt, hlast, hall⟩ := gather_all hgrows hbound hfuel
  have hshort : (page 100 last (listing last)).length < 100 := by
    have hnotFull := hlast.notFull
    rw [length_page]
    omega
  have hfull : ∀ j, j < last → 100 ≤ (page 100 j (listing j)).length := by
    intro j hj
    have hbefore := hlast.full j hj
    rw [length_page]
    omega
  have hrun := readPages_gather hserves hshort hfull (Nat.zero_le last)
    (by rwa [Nat.zero_add]) (Nat.add_zero _).symm
  rw [hall] at hrun
  exact ⟨last, hlast, hrun⟩

/-- **`user_installations`** returns the installations as they are when the last page is asked
for, each once, and asks for no page twice. -/
theorem installations_read_whole (github : GitHubAnswers) (listing : Nat → List Json)
    (requests : List GitHubRequest) (bound fuel : Nat)
    (hserves : ∀ k, Serves github (requests.length + k) (.userInstallations (k + 1))
      "installations" (page 100 k (listing k)))
    (hgrows : Paging.Grows listing) (hbound : ∀ k, (listing k).length ≤ bound)
    (hfuel : bound < 100 * fuel) :
    ∃ last, LastPage 100 listing last
      ∧ exec (github.userInstallations fuel) requests
        = (.ok (listing last),
            requests ++ (List.range' 1 (last + 1)).map .userInstallations) :=
  readPages_whole hserves hgrows hbound hfuel

/-- Whether a job failed. -/
def isFailed : Json → Bool
  | .dict fields => ((fields.lookup "conclusion").getD .null).str? == some "failure"
  | _ => false

/-- A job that the code can read; `made` is what it makes of those that failed. -/
structure ReadableJob (github : GitHubAnswers) (made : Json → RawFailedJob) (job : Json) :
    Prop where
  isDict : ∃ fields, job = .dict fields
  failed : isFailed job = true → github.failedJob job = .ok (made job)

theorem failedAmong_filter {made : Json → RawFailedJob} {jobs : List Json}
    (h : ∀ job ∈ jobs, ReadableJob github made job) :
    github.failedAmong jobs = .ok ((jobs.filter isFailed).map made) := by
  induction jobs with
  | nil => rfl
  | cons job jobs ih =>
      have hjob := h job List.mem_cons_self
      have hrest := ih fun other hm => h other (List.mem_cons_of_mem _ hm)
      obtain ⟨fields, hfields⟩ := hjob.isDict
      have hget : job.get "conclusion" .null = .ok ((fields.lookup "conclusion").getD .null) := by
        rw [hfields]
        rfl
      rw [failedAmong, hget, List.filter_cons]
      by_cases hfailed : isFailed job = true
      · have hconclusion : ((fields.lookup "conclusion").getD .null).str? = some "failure" := by
          rw [hfields] at hfailed
          exact beq_iff_eq.mp hfailed
        rw [if_pos hfailed]
        change (if ((fields.lookup "conclusion").getD .null).str? = some "failure" then _ else _) = _
        rw [if_pos hconclusion, hjob.failed hfailed, hrest]
        rfl
      · have hconclusion : ((fields.lookup "conclusion").getD .null).str? ≠ some "failure" := by
          intro heq
          rw [hfields] at hfailed
          exact hfailed (beq_iff_eq.mpr heq)
        rw [if_neg hfailed]
        change (if ((fields.lookup "conclusion").getD .null).str? = some "failure" then _ else _) = _
        rw [if_neg hconclusion, hrest]

/-- **`failed_jobs`** makes its result of all jobs that failed, as they are when the last page
is asked for. -/
theorem failed_jobs_read_whole (github : GitHubAnswers) (repository : String) (runId : Int)
    (made : Json → RawFailedJob) (listing : Nat → List Json) (requests : List GitHubRequest)
    (bound fuel : Nat)
    (hserves : ∀ k, Serves github (requests.length + k) (.jobs repository runId (k + 1))
      "jobs" (page 100 k (listing k)))
    (hgrows : Paging.Grows listing) (hbound : ∀ k, (listing k).length ≤ bound)
    (hfuel : bound < 100 * fuel)
    (hreadable : ∀ k, ∀ job ∈ listing k, ReadableJob github made job) :
    ∃ last, LastPage 100 listing last
      ∧ exec (github.failedJobs fuel repository runId) requests
        = (.ok (((listing last).filter isFailed).map made),
            requests ++ (List.range' 1 (last + 1)).map (.jobs repository runId)) := by
  obtain ⟨last, hlast, hrun⟩ := readPages_whole hserves hgrows hbound hfuel
  refine ⟨last, hlast, ?_⟩
  unfold failedJobs
  rw [exec_bind, hrun]
  dsimp only
  exact exec_reading (failedAmong_filter (hreadable last)) _

/-- Job 120 has failed, in its second step. -/
def jobItem (i : Nat) : Json :=
  .dict [("id", .int i), ("name", .str "test"),
    ("conclusion", .str (if i = 120 then "failure" else "success")),
    ("steps", .list
      [.dict [("name", .str "checkout"), ("conclusion", .str "success")],
        .dict [("name", .str "pytest"), ("conclusion", .str "failure")]])]

/-- What the code makes of it. -/
def madeJob (job : Json) : RawFailedJob where
  jobId := match job.index "id" with
    | .ok id => id
    | .error _ => .null
  name := .str "test"
  failedSteps := [.str "pytest"]
  runnerLabels := []
  workflowName := .null
  headBranch := .null

/-- A listing that has grown by five jobs in the end. -/
def growing (k : Nat) : List Json := (List.range (150 + min k 5)).map jobItem

theorem growing_grows : Paging.Grows growing := by
  intro k
  obtain ⟨more, hmore⟩ : ∃ more, 150 + min (k + 1) 5 = 150 + min k 5 + more :=
    ⟨min (k + 1) 5 - min k 5, by omega⟩
  unfold growing
  rw [hmore]
  generalize 150 + min k 5 = n
  rw [List.range_add, List.map_append]
  exact List.prefix_append _ _

theorem growing_length (k : Nat) : (growing k).length = 150 + min k 5 := by
  rw [growing, List.length_map, List.length_range]

def growingAnswers : GitHubAnswers where
  answer n request :=
    match request with
    | .jobs _ _ k =>
        .ok { statusCode := 200, text := ""
              json := some (.dict [("jobs", .list (page 100 (k - 1) (growing n)))]) }
    | _ => .error "404 Not Found"
  casefold := fun text => text
  validateInt := fun _ => none
  str := fun _ => ""

theorem lastPage_growing {last : Nat} (h : LastPage 100 growing last) : last = 1 := by
  have hstart := h.start
  have hnotFull := h.notFull
  rw [growing_length] at hstart hnotFull
  omega

theorem failed_jobs_read_whole_growing :
    exec (growingAnswers.failedJobs 2 "acme/example" 77) []
      = (.ok (((growing 1).filter isFailed).map madeJob),
          [.jobs "acme/example" 77 1, .jobs "acme/example" 77 2]) := by
  have hserves : ∀ k, Serves growingAnswers (([] : List GitHubRequest).length + k)
      (.jobs "acme/example" 77 (k + 1)) "jobs" (page 100 k (growing k)) := by
    intro k
    rw [List.length_nil, Nat.zero_add]
    exact Serves.of_page rfl
  have hreadable : ∀ k, ∀ job ∈ growing k, ReadableJob growingAnswers madeJob job := by
    intro k job hm
    obtain ⟨i, _, rfl⟩ := List.mem_map.mp hm
    exact ⟨⟨_, rfl⟩, fun _ => rfl⟩
  have hbound : ∀ k, (growing k).length ≤ 155 := by
    intro k
    rw [growing_length]
    omega
  obtain ⟨last, hlast, hrun⟩ := failed_jobs_read_whole growingAnswers "acme/example" 77 madeJob
    growing [] 155 2 hserves growing_grows hbound (by omega) hreadable
  obtain rfl := lastPage_growing hlast
  exact hrun

/-! ## The previous success -/

/-- `head_sha` of a candidate. -/
def headShaOf (candidate : Json) : Option String :=
  match candidate.get "head_sha" .null with
  | .ok headSha => headSha.str?
  | .error _ => none

/-- What the code expects of a candidate; `p` says whether it is older. -/
structure Candidate (createdAt : Json) (p : Json → Bool) (candidate : Json) : Prop where
  isDict : ∃ fields, candidate = .dict fields
  older : isOlder createdAt candidate = .ok (p candidate)

theorem olderSuccess_find {createdAt : Json} {p : Json → Bool} {candidates : List Json}
    (h : ∀ candidate ∈ candidates, Candidate createdAt p candidate) :
    olderSuccess createdAt candidates = .ok ((candidates.find? p).map headShaOf) := by
  induction candidates with
  | nil => rfl
  | cons candidate candidates ih =>
      have hfirst := h candidate List.mem_cons_self
      have hrest := ih fun other hm => h other (List.mem_cons_of_mem _ hm)
      rw [olderSuccess, hfirst.older, List.find?_cons]
      cases p candidate with
      | true =>
          obtain ⟨fields, rfl⟩ := hfirst.isDict
          rfl
      | false => exact hrest

/-- The loop over the pages is a search in them. -/
theorem successPages_search {repository : String} {workflowId branch createdAt : Json}
    {p : Json → Bool} {read : Nat → List Json} {start : Nat}
    (hserves : ∀ k, Serves github (start + k)
      (.workflowRuns repository workflowId branch (k + 1)) "workflow_runs" (read k))
    (hcandidates : ∀ k, ∀ candidate ∈ read k, Candidate createdAt p candidate)
    {fuel k : Nat} {requests : List GitHubRequest} (hstart : requests.length = start + k) :
    ∃ count, count ≤ fuel
      ∧ exec (github.successPages repository workflowId branch createdAt fuel (k + 1)) requests
        = (.ok ((search p 100 read fuel k).bind headShaOf),
            requests ++ (List.range' (k + 1) count).map
              (.workflowRuns repository workflowId branch)) := by
  induction fuel generalizing k requests with
  | zero =>
      refine ⟨0, Nat.le_refl 0, ?_⟩
      rw [List.range'_zero, List.map_nil, List.append_nil]
      rfl
  | succ fuel ih =>
      have hpage := hserves k
      rw [← hstart] at hpage
      rw [successPages, exec_served hpage, exec_bind,
        exec_reading (olderSuccess_find (hcandidates k)), search]
      dsimp only
      cases (read k).find? p with
      | some candidate =>
          refine ⟨1, by omega, ?_⟩
          rfl
      | none =>
          dsimp only [Option.map_none]
          by_cases hshort : (read k).length < 100
          · refine ⟨1, by omega, ?_⟩
            rw [if_pos hshort, if_pos hshort]
            rfl
          · have hlength : (requests ++ [GitHubRequest.workflowRuns repository workflowId branch
                (k + 1)]).length = start + (k + 1) := by
              rw [List.length_append, List.length_singleton, hstart, Nat.add_assoc]
            obtain ⟨count, hcount, hrest⟩ := ih hlength
            refine ⟨count + 1, by omega, ?_⟩
            rw [if_neg hshort, if_neg hshort, hrest, List.range'_succ, List.map_cons,
              List.append_assoc]
            rfl

/-- **`_previous_successful_sha`** finds the newest success that is older than the run, as far
as the first thousand reach, in at most ten requests. New runs that succeed meanwhile
hide none. -/
theorem previous_success_found (github : GitHubAnswers) (repository : String)
    (run workflowId branch createdAt : Json) (p : Json → Bool) (listing : Nat → List Json)
    (requests : List GitHubRequest)
    (hworkflow : run.get "workflow_id" .null = .ok workflowId) (hknown : workflowId ≠ .null)
    (hbranch : run.get "head_branch" .null = .ok branch) (htruthy : branch.truthy = true)
    (hcreated : run.get "created_at" .null = .ok createdAt)
    (hserves : ∀ k, Serves github (requests.length + k)
      (.workflowRuns repository workflowId branch (k + 1)) "workflow_runs"
      (page 100 k (listing k)))
    (hcandidates : ∀ k, ∀ candidate ∈ listing k, Candidate createdAt p candidate)
    (hgrows : GrowsAtFront p listing) :
    ∃ last count, last < 10 ∧ count ≤ 10
      ∧ exec (github.previousSuccessfulSha repository run) requests
        = (.ok ((((listing last).take 1000).find? p).bind headShaOf),
            requests ++ (List.range' 1 count).map (.workflowRuns repository workflowId branch))
      ∧ ((listing last).length ≤ 1000 →
        ((listing last).take 1000).find? p = (listing 0).find? p) := by
  obtain ⟨last, _, hlast, hsearch⟩ := search_from hgrows 100 9 (k := 0)
    (by rw [Nat.mul_zero, List.take_zero, List.find?_nil])
  have hpages : ∀ k, ∀ candidate ∈ page 100 k (listing k), Candidate createdAt p candidate :=
    fun k candidate hm => hcandidates k candidate (List.mem_of_mem_drop (List.mem_of_mem_take hm))
  obtain ⟨count, hcount, hrun⟩ := successPages_search hserves hpages (Nat.add_zero _).symm
  rw [hsearch] at hrun
  refine ⟨last, count, by omega, hcount, ?_, fun hshort => ?_⟩
  · unfold previousSuccessfulSha
    rw [hworkflow, hbranch, hcreated]
    cases workflowId with
    | null => exact absurd rfl hknown
    | bool _ | int _ | float _ | str _ | list _ | dict _ =>
        rw [exec_bind, exec_reading rfl]
        dsimp only
        rw [exec_bind, exec_reading rfl]
        dsimp only
        rw [exec_bind, exec_reading rfl]
        dsimp only
        rw [if_pos htruthy]
        exact hrun
  · rw [List.take_of_length_le hshort]
    exact hgrows.find?_eq last

/-! A hundred newer runs fill the first page, and between two pages one more run succeeds. -/

def successItem (createdAt headSha : String) : Json :=
  .dict [("created_at", .str createdAt), ("head_sha", .str headSha)]

def newerSuccess : Json := successItem "2026-03-02T10:00:00Z" "fed456"

def successListing (k : Nat) : List Json :=
  List.replicate (k + 100) newerSuccess ++ [successItem "2026-03-01T07:00:00Z" "abc123"]

def isBefore (candidate : Json) : Bool :=
  match isOlder (.str "2026-03-02T09:00:00Z") candidate with
  | .ok older => older
  | .error _ => false

def successAnswers : GitHubAnswers where
  answer n request :=
    match request with
    | .workflowRuns _ _ _ k =>
        .ok { statusCode := 200, text := ""
              json := some (.dict
                [("workflow_runs", .list (page 100 (k - 1) (successListing n)))]) }
    | _ => .error "404 Not Found"
  casefold := fun text => text
  validateInt := fun _ => none
  str := fun _ => ""

def mainRun : Json :=
  .dict [("workflow_id", .int 9), ("head_branch", .str "main"),
    ("created_at", .str "2026-03-02T09:00:00Z")]

theorem previous_success_found_growing :
    ∃ requests, exec (successAnswers.previousSuccessfulSha "acme/example" mainRun) []
        = (.ok (some "abc123"), requests)
      ∧ requests = [.workflowRuns "acme/example" (.int 9) (.str "main") 1,
        .workflowRuns "acme/example" (.int 9) (.str "main") 2] := by
  have hserves : ∀ k, Serves successAnswers (([] : List GitHubRequest).length + k)
      (.workflowRuns "acme/example" (.int 9) (.str "main") (k + 1)) "workflow_runs"
      (page 100 k (successListing k)) := by
    intro k
    rw [List.length_nil, Nat.zero_add]
    exact Serves.of_page rfl
  have hcandidates : ∀ k, ∀ candidate ∈ successListing k,
      Candidate (.str "2026-03-02T09:00:00Z") isBefore candidate := by
    intro k candidate hm
    have hcases : candidate = newerSuccess
        ∨ candidate = successItem "2026-03-01T07:00:00Z" "abc123" := by
      rcases List.mem_append.mp hm with hm | hm
      · exact Or.inl (List.eq_of_mem_replicate hm)
      · exact Or.inr (List.mem_singleton.mp hm)
    rcases hcases with rfl | rfl
    · exact ⟨⟨_, rfl⟩, rfl⟩
    · exact ⟨⟨_, rfl⟩, rfl⟩
  have hgrows : GrowsAtFront isBefore successListing := by
    intro k
    refine ⟨[newerSuccess], ?_, ?_⟩
    · unfold successListing
      rw [Nat.add_right_comm, List.replicate_succ, List.cons_append, List.singleton_append]
    · intro candidate hm
      obtain rfl := List.mem_singleton.mp hm
      decide +kernel
  obtain ⟨last, count, hlast, _, hrun, hshort⟩ := previous_success_found successAnswers
    "acme/example" mainRun (.int 9) (.str "main") (.str "2026-03-02T09:00:00Z") isBefore successListing
    [] rfl nofun rfl rfl rfl hserves hcandidates hgrows
  have hlength : (successListing last).length ≤ 1000 := by
    rw [successListing, List.length_append, List.length_replicate]
    simp only [List.length_cons, List.length_nil]
    omega
  have hfound : ((successListing 0).find? isBefore).bind headShaOf = some "abc123" := by
    decide +kernel
  rw [hshort hlength, hfound] at hrun
  -- the first page is full of newer runs
  have htwo : (exec (successAnswers.previousSuccessfulSha "acme/example" mainRun) []).2.length
      = 2 := by
    decide +kernel
  rw [hrun, List.nil_append, List.length_map, List.length_range'] at htwo
  refine ⟨_, hrun, ?_⟩
  rw [htwo]
  rfl

end PipeLens.Proof
