import Shipper.Catalog
import Mathlib.Data.List.Forall2

/-!
# Runs of calls on one catalog

A run is a sequence of `CreateRepoIfNotExist` calls, each on the catalog the
one before it left, each in a world of its own: the factory may answer a name
differently from call to call. Callers running at once are serialized by the
catalog's mutex, so this is every way the catalog is used; `Shipper.Mutex`
derives that from the goroutines themselves.

Every per-call law of `Shipper.Catalog` lifts to the steps of a run. The map
at the end is read off the calls alone: its keys are the names of the
successful calls, and each entry is the repository built by the first of them.
-/

namespace Shipper

variable {World Cache Repo : Type}

/-- One call made to the catalog: the world it runs in and its URL. -/
structure Request (World : Type) where
  world : World
  repoURL : String

/-- One call of a run: the catalog it found, what it did, the catalog it left. -/
structure Step (World Cache Repo : Type) where
  before : Catalog World Cache Repo
  call : Call Cache Repo
  after : Catalog World Cache Repo

section Run

variable (lib : Library Cache Repo)

/-- The calls of `requests` in order, each on the catalog the previous one
left: the steps taken and the catalog at the end. -/
def run : Catalog World Cache Repo → List (Request World) →
    List (Step World Cache Repo) × Catalog World Cache Repo
  | c, [] => ([], c)
  | c, request :: requests =>
    let outcome := c.createRepoIfNotExist lib request.world request.repoURL
    let rest := run outcome.2 requests
    (⟨c, outcome.1, outcome.2⟩ :: rest.1, rest.2)

variable {lib}

/-- A run of no requests makes no call. -/
@[simp] theorem run_nil (c : Catalog World Cache Repo) : run lib c [] = ([], c) := rfl

/-- A run of a request and more is that request's call followed by the run of
the rest from the catalog the call left. -/
theorem run_cons {c after : Catalog World Cache Repo} {request : Request World}
    {call : Call Cache Repo} (requests : List (Request World))
    (ran : c.createRepoIfNotExist lib request.world request.repoURL = (call, after)) :
    run lib c (request :: requests) =
      (⟨c, call, after⟩ :: (run lib after requests).1, (run lib after requests).2) := by
  simp only [run, ran]

/-- The steps of a run are the calls of its requests in order, each on the
catalog the step found, and that catalog keeps the factory the run started
with. -/
theorem run_forall₂ (c : Catalog World Cache Repo) (requests : List (Request World)) :
    List.Forall₂ (fun s r => s.before.factory = c.factory ∧
      s.before.createRepoIfNotExist lib r.world r.repoURL = (s.call, s.after))
      (run lib c requests).1 requests := by
  induction requests generalizing c with
  | nil => exact .nil
  | cons request requests inductionHypothesis =>
    rcases ran : c.createRepoIfNotExist lib request.world request.repoURL with ⟨call, after⟩
    rw [run_cons requests ran]
    exact .cons ⟨rfl, ran⟩ ((inductionHypothesis after).imp fun _ _ ⟨same, step⟩ =>
      ⟨same.trans (factory_kept ran), step⟩)

/-- A run of two request lists is the run of the second from where the first
ended. -/
theorem run_append (c : Catalog World Cache Repo) (first second : List (Request World)) :
    run lib c (first ++ second) =
      ((run lib c first).1 ++ (run lib (run lib c first).2 second).1,
        (run lib (run lib c first).2 second).2) := by
  induction first generalizing c with
  | nil => rfl
  | cons request first inductionHypothesis =>
    rcases ran : c.createRepoIfNotExist lib request.world request.repoURL with ⟨call, after⟩
    simp only [List.cons_append, run_cons _ ran, inductionHypothesis]

/-- A run makes one call per request, on the request's URL. -/
theorem run_repoURLs (c : Catalog World Cache Repo) (requests : List (Request World)) :
    (run lib c requests).1.map (·.call.repoURL) = requests.map (·.repoURL) := by
  induction requests generalizing c with
  | nil => rfl
  | cons request requests inductionHypothesis =>
    rcases ran : c.createRepoIfNotExist lib request.world request.repoURL with ⟨call, after⟩
    simp only [run_cons requests ran, List.map_cons, inductionHypothesis, call_repoURL ran]

/-- Every step of a run is a call on the catalog it found, in some world. -/
theorem step_of_mem {c : Catalog World Cache Repo} {requests : List (Request World)}
    {s : Step World Cache Repo} (member : s ∈ (run lib c requests).1) :
    ∃ world, s.before.createRepoIfNotExist lib world s.call.repoURL = (s.call, s.after) := by
  induction requests generalizing c with
  | nil => cases member
  | cons request requests inductionHypothesis =>
    rcases ran : c.createRepoIfNotExist lib request.world request.repoURL with ⟨call, after⟩
    rw [run_cons requests ran] at member
    rcases List.mem_cons.mp member with rfl | later
    · exact ⟨request.world, by rwa [call_repoURL ran]⟩
    · exact inductionHypothesis later

/-- Entries present at the start of a run are there at its end. -/
theorem run_kept {c : Catalog World Cache Repo} {requests : List (Request World)}
    {name : String} {repo : Repo} (present : c.repos name = some repo) :
    (run lib c requests).2.repos name = some repo := by
  induction requests generalizing c with
  | nil => exact present
  | cons request requests inductionHypothesis =>
    rcases ran : c.createRepoIfNotExist lib request.world request.repoURL with ⟨call, after⟩
    rw [run_cons requests ran]
    exact inductionHypothesis (repos_kept ran present)

/-- An entry present after any step of a run is there at its end. -/
theorem run_after_kept {c : Catalog World Cache Repo} {requests : List (Request World)}
    {s : Step World Cache Repo} (member : s ∈ (run lib c requests).1)
    {name : String} {repo : Repo} (present : s.after.repos name = some repo) :
    (run lib c requests).2.repos name = some repo := by
  induction requests generalizing c with
  | nil => cases member
  | cons request requests inductionHypothesis =>
    rcases ran : c.createRepoIfNotExist lib request.world request.repoURL with ⟨call, after⟩
    rw [run_cons requests ran] at member ⊢
    rcases List.mem_cons.mp member with rfl | later
    · exact run_kept present
    · exact inductionHypothesis later

/-- Entries present at the start of a run are there before each of its
steps. -/
theorem before_kept {c : Catalog World Cache Repo} {requests : List (Request World)}
    {t : Step World Cache Repo} (member : t ∈ (run lib c requests).1)
    {name : String} {repo : Repo} (present : c.repos name = some repo) :
    t.before.repos name = some repo := by
  induction requests generalizing c with
  | nil => cases member
  | cons request requests inductionHypothesis =>
    rcases ran : c.createRepoIfNotExist lib request.world request.repoURL with ⟨call, after⟩
    rw [run_cons requests ran] at member
    rcases List.mem_cons.mp member with rfl | later
    · exact present
    · exact inductionHypothesis later (repos_kept ran present)

/-- Once the factory has returned a cache for a name, no later call of the run
invokes it on that name again. -/
theorem run_invoked_pairwise (c : Catalog World Cache Repo) (requests : List (Request World)) :
    (run lib c requests).1.Pairwise fun s t => ∀ name cache answer,
      s.call.invoked = some (name, .ok cache) → t.call.invoked ≠ some (name, answer) := by
  induction requests generalizing c with
  | nil => exact List.Pairwise.nil
  | cons request requests inductionHypothesis =>
    rcases ran : c.createRepoIfNotExist lib request.world request.repoURL with ⟨call, after⟩
    rw [run_cons requests ran]
    refine List.Pairwise.cons (fun t member name cache answer stored again => ?_)
      (inductionHypothesis after)
    obtain ⟨world, later⟩ := step_of_mem member
    have present := before_kept member (invoked_stored ran stored)
    simp [(invoked_absent later again).2] at present

/-- Once a call has returned a repository, every later call of the run on a
URL of the same name that parses returns that repository without invoking the
factory. -/
theorem run_found_pairwise (c : Catalog World Cache Repo) (requests : List (Request World)) :
    (run lib c requests).1.Pairwise fun s t => s.call.err = none →
      lib.url2name t.call.repoURL = lib.url2name s.call.repoURL →
      lib.parseRequestURI t.call.repoURL = none →
      t.call.invoked = none ∧ t.call.err = none ∧ t.call.repo = s.call.repo := by
  induction requests generalizing c with
  | nil => exact List.Pairwise.nil
  | cons request requests inductionHypothesis =>
    rcases ran : c.createRepoIfNotExist lib request.world request.repoURL with ⟨call, after⟩
    rw [run_cons requests ran]
    refine List.Pairwise.cons (fun t member succeeded sameName parsed => ?_)
      (inductionHypothesis after)
    obtain ⟨world, later⟩ := step_of_mem member
    obtain ⟨repo, returned, stored⟩ := succeeded_entry ran succeeded
    have present := before_kept member stored
    rw [← call_repoURL ran, ← sameName] at present
    rw [(Prod.mk.inj (later.symm.trans (eq_of_created (.found repo parsed present)))).1]
    exact ⟨rfl, rfl, returned.symm⟩

/-- A name has an entry at the end of a run exactly when it had one at the
start or some call of the run succeeded for it. -/
theorem run_keys (c : Catalog World Cache Repo) (requests : List (Request World))
    (name : String) :
    ((run lib c requests).2.repos name).isSome ↔ (c.repos name).isSome ∨
      ∃ s ∈ (run lib c requests).1,
        s.call.err = none ∧ lib.url2name s.call.repoURL = name := by
  induction requests generalizing c with
  | nil => simp
  | cons request requests inductionHypothesis =>
    rcases ran : c.createRepoIfNotExist lib request.world request.repoURL with ⟨call, after⟩
    rw [run_cons requests ran, inductionHypothesis, repos_isSome ran]
    simp only [List.mem_cons, exists_eq_or_imp, call_repoURL ran, or_assoc]

/-- On a name absent at the start of a run, the first call that succeeded for
the name invoked the factory and got a cache, and the entry at the end is the
repository `NewRepo` built from that call's URL and that cache. -/
theorem run_first {c : Catalog World Cache Repo} {requests : List (Request World)}
    {pre post : List (Step World Cache Repo)} {s : Step World Cache Repo}
    (split : (run lib c requests).1 = pre ++ s :: post) (succeeded : s.call.err = none)
    (first : ∀ t ∈ pre, t.call.err = none →
      lib.url2name t.call.repoURL ≠ lib.url2name s.call.repoURL)
    (absent : c.repos (lib.url2name s.call.repoURL) = none) :
    ∃ cache, s.call.invoked = some (lib.url2name s.call.repoURL, .ok cache) ∧
      (run lib c requests).2.repos (lib.url2name s.call.repoURL) =
        some (lib.newRepo s.call.repoURL cache) := by
  induction requests generalizing c pre with
  | nil => simp at split
  | cons request requests inductionHypothesis =>
    rcases ran : c.createRepoIfNotExist lib request.world request.repoURL with ⟨call, after⟩
    rw [run_cons requests ran] at split ⊢
    cases pre with
    | nil =>
      obtain ⟨rfl, -⟩ := List.cons.inj split
      rw [call_repoURL ran] at absent ⊢
      obtain ⟨cache, invoked, -, stored⟩ := stored_of_absent ran succeeded absent
      exact ⟨cache, invoked, run_kept stored⟩
    | cons t pre =>
      obtain ⟨rfl, rest⟩ := List.cons.inj split
      have untouched : ¬(call.err = none ∧
          lib.url2name request.repoURL = lib.url2name s.call.repoURL) := by
        rintro ⟨ok, same⟩
        exact first _ (List.mem_cons_self _ _) ok (by rwa [call_repoURL ran])
      exact inductionHypothesis rest (fun t member => first t (List.mem_cons_of_mem _ member))
        (by rwa [repos_frame ran untouched])

end Run

/-- Any sequence of calls on a catalog made by `NewCatalog`, each in its own
world. Each call invokes the factory exactly when its URL parses and its name
is absent, gets the factory's answer in its world, and fails exactly when the
URL is rejected or that answer is an error. The map's keys are the names of the
calls that succeeded, and each entry is the repository built by the first of
them from its URL and its factory's cache; no step replaces an entry; the
factory is invoked only on absent names; a successful call returns the entry
for its name; a failing call returns nil and leaves the catalog as it was, its
error the parser's or the factory's. -/
theorem newCatalog_run_memo (lib : Library Cache Repo) (factory : CacheFactory World Cache)
    (requests : List (Request World)) :
    let steps := (run lib (newCatalog factory) requests).1
    let final := (run lib (newCatalog factory) requests).2
    steps.map (·.call.repoURL) = requests.map (·.repoURL) ∧
    List.Forall₂ (fun s r =>
      (s.call.invoked.isSome = true ↔ lib.parseRequestURI r.repoURL = none ∧
        s.before.repos (lib.url2name r.repoURL) = none) ∧
      (∀ name answer, s.call.invoked = some (name, answer) → answer = factory name r.world) ∧
      (s.call.err = none ↔ lib.parseRequestURI r.repoURL = none ∧
        ∀ name cause, s.call.invoked ≠ some (name, .error cause))) steps requests ∧
    (∀ name, (final.repos name).isSome ↔
      ∃ s ∈ steps, s.call.err = none ∧ lib.url2name s.call.repoURL = name) ∧
    (∀ pre s post, steps = pre ++ s :: post → s.call.err = none →
      (∀ t ∈ pre, t.call.err = none →
        lib.url2name t.call.repoURL ≠ lib.url2name s.call.repoURL) →
      ∃ cache, s.call.invoked = some (lib.url2name s.call.repoURL, .ok cache) ∧
        final.repos (lib.url2name s.call.repoURL) = some (lib.newRepo s.call.repoURL cache)) ∧
    (∀ s ∈ steps, ∀ name repo, s.before.repos name = some repo →
      s.after.repos name = some repo ∧ final.repos name = some repo) ∧
    (∀ s ∈ steps, ∀ name answer, s.call.invoked = some (name, answer) →
      name = lib.url2name s.call.repoURL ∧ s.before.repos name = none) ∧
    (∀ s ∈ steps, s.call.err = none → ∃ repo, s.call.repo = some repo ∧
      s.after.repos (lib.url2name s.call.repoURL) = some repo ∧
      final.repos (lib.url2name s.call.repoURL) = some repo) ∧
    (∀ s ∈ steps, ∀ err, s.call.err = some err →
      s.call.repo = none ∧ s.after = s.before ∧
      ((lib.parseRequestURI s.call.repoURL = some err ∧ s.call.invoked = none) ∨
        ∃ cause, s.call.invoked = some (lib.url2name s.call.repoURL, .error cause) ∧
          err = "failed to create cache: " ++ cause)) := by
  intro steps final
  refine ⟨run_repoURLs _ _, (run_forall₂ _ requests).imp fun s r ⟨same, ran⟩ =>
      ⟨invoked_isSome_iff ran, fun _ _ invoked => by rw [invoked_answer ran invoked, same]; rfl,
        err_eq_none_iff ran⟩, fun name => ?_,
    fun pre s post split succeeded first => run_first split succeeded first rfl,
    fun s member name repo present => ?_, fun s member name answer invoked => ?_,
    fun s member succeeded => ?_, fun s member err failed => ?_⟩
  · simpa [newCatalog] using run_keys (newCatalog factory) requests name
  all_goals obtain ⟨world, ran⟩ := step_of_mem member
  · have kept := repos_kept ran present
    exact ⟨kept, run_after_kept member kept⟩
  · exact invoked_absent ran invoked
  · obtain ⟨repo, returned, stored⟩ := succeeded_entry ran succeeded
    exact ⟨repo, returned, stored, run_after_kept member stored⟩
  · exact failed_unchanged ran failed

end Shipper
