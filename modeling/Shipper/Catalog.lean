import Mathlib.Logic.Function.Basic

/-!
# The chart repository catalog

`Catalog` of package `repo` owns one `Repo` per repository name and hands the
same repository to every caller whose URL has that name. The repository is
built on the first call that finds its name absent and gets a cache from the
factory; a URL that does not parse, or a factory that fails, leaves the
catalog as it was.

`url.ParseRequestURI` of Go's library and `url2name` and `NewRepo` of package
`repo` are outside this development: `Library` takes them as parameters, so
every result holds for any choice of them. The factory is an effectful Go
function; its answer is read in the `World` of the call that invokes it, and
two invocations on one name may answer differently. A call invokes the factory
at most once, so the world of a call can stand for everything that one answer
depends on, the factory's own state included. One call here runs alone: the
catalog's mutex is the subject of `Shipper.Mutex`.
-/

namespace Shipper

variable {World Cache Repo : Type}

/-- The functions `CreateRepoIfNotExist` calls that are not defined beside it.
`parseRequestURI` gives the error of `url.ParseRequestURI`, `none` when the
URL is accepted; the parsed URL itself is discarded by the source. -/
structure Library (Cache Repo : Type) where
  parseRequestURI : String → Option String
  url2name : String → String
  newRepo : String → Cache → Repo

/-- `CacheFactory`: the cache for a repository name, or the factory's error,
as the factory answers in a given world. The world of a call stands for
whatever the answer of that call depends on, the state a Go closure keeps
between invocations included; a result that compares two runs holds for runs
in which the factory gives each call the same answer. -/
def CacheFactory (World Cache : Type) := String → World → Except String Cache

/-- `Catalog`: the factory and the map `repos` from name to repository. A
missing key reads as `none`, as Go's comma-ok lookup reports it. -/
structure Catalog (World Cache Repo : Type) where
  factory : CacheFactory World Cache
  repos : String → Option Repo

/-- `NewCatalog`: an empty map and the given factory. -/
def newCatalog (factory : CacheFactory World Cache) : Catalog World Cache Repo :=
  { factory := factory, repos := fun _ => none }

/-- What one `CreateRepoIfNotExist` call did. `repo` and `err` are the two Go
results (`none` is nil); `invoked` is the factory invocation the call made, as
the name it passed and the answer it got. -/
structure Call (Cache Repo : Type) where
  repoURL : String
  invoked : Option (String × Except String Cache)
  repo : Option Repo
  err : Option String

section Create

variable (lib : Library Cache Repo)

/-- `CreateRepoIfNotExist`, the whole critical section included. The URL is
checked first; a present name returns its repository without consulting the
factory; otherwise the factory's cache goes into a new repository, which is
stored under the name and returned. -/
def Catalog.createRepoIfNotExist (c : Catalog World Cache Repo) (world : World)
    (repoURL : String) : Call Cache Repo × Catalog World Cache Repo :=
  match lib.parseRequestURI repoURL with
  | some err => (⟨repoURL, none, none, some err⟩, c)
  | none =>
    let name := lib.url2name repoURL
    match c.repos name with
    | some repo => (⟨repoURL, none, some repo, none⟩, c)
    | none =>
      match c.factory name world with
      | .error err =>
        (⟨repoURL, some (name, .error err), none, some ("failed to create cache: " ++ err)⟩, c)
      | .ok cache =>
        let repo := lib.newRepo repoURL cache
        (⟨repoURL, some (name, .ok cache), some repo, none⟩,
          { c with repos := Function.update c.repos name (some repo) })

/-- The four ways a call goes, each with the guards that select it. -/
inductive Created (c : Catalog World Cache Repo) (world : World) (repoURL : String) :
    Call Cache Repo → Catalog World Cache Repo → Prop where
  | rejected (err : String) (parsed : lib.parseRequestURI repoURL = some err) :
      Created c world repoURL ⟨repoURL, none, none, some err⟩ c
  | found (repo : Repo) (parsed : lib.parseRequestURI repoURL = none)
      (present : c.repos (lib.url2name repoURL) = some repo) :
      Created c world repoURL ⟨repoURL, none, some repo, none⟩ c
  | refused (err : String) (parsed : lib.parseRequestURI repoURL = none)
      (absent : c.repos (lib.url2name repoURL) = none)
      (answer : c.factory (lib.url2name repoURL) world = .error err) :
      Created c world repoURL
        ⟨repoURL, some (lib.url2name repoURL, .error err), none,
          some ("failed to create cache: " ++ err)⟩ c
  | stored (cache : Cache) (parsed : lib.parseRequestURI repoURL = none)
      (absent : c.repos (lib.url2name repoURL) = none)
      (answer : c.factory (lib.url2name repoURL) world = .ok cache) :
      Created c world repoURL
        ⟨repoURL, some (lib.url2name repoURL, .ok cache),
          some (lib.newRepo repoURL cache), none⟩
        ⟨c.factory, Function.update c.repos (lib.url2name repoURL)
          (some (lib.newRepo repoURL cache))⟩

variable {lib}

/-- Every call is one of the four cases of `Created`. This is the only lemma
that unfolds `createRepoIfNotExist`. -/
theorem created_of_eq {c after : Catalog World Cache Repo} {world : World}
    {repoURL : String} {call : Call Cache Repo}
    (ran : c.createRepoIfNotExist lib world repoURL = (call, after)) :
    Created lib c world repoURL call after := by
  unfold Catalog.createRepoIfNotExist at ran
  split at ran
  · cases ran; exact .rejected _ ‹_›
  · dsimp only at ran
    split at ran
    · cases ran; exact .found _ ‹_› ‹_›
    · split at ran <;> cases ran
      · exact .refused _ ‹_› ‹_› ‹_›
      · exact .stored _ ‹_› ‹_› ‹_›

section Call

variable {c after : Catalog World Cache Repo} {world : World} {repoURL : String}
  {call : Call Cache Repo}

/-- A call records the URL it was given. -/
theorem call_repoURL (ran : c.createRepoIfNotExist lib world repoURL = (call, after)) :
    call.repoURL = repoURL := by
  cases created_of_eq ran <;> rfl

/-- No call removes or replaces an entry of the map. -/
theorem repos_kept (ran : c.createRepoIfNotExist lib world repoURL = (call, after))
    {name : String} {repo : Repo} (present : c.repos name = some repo) :
    after.repos name = some repo := by
  cases created_of_eq ran with
  | stored cache _ absent _ =>
    have other : name ≠ lib.url2name repoURL := fun same => by simp_all
    simpa [Function.update_noteq other] using present
  | _ => exact present

/-- A call changes the map only at the name of its own URL, and only when it
succeeds. -/
theorem repos_frame (ran : c.createRepoIfNotExist lib world repoURL = (call, after))
    {name : String} (untouched : ¬(call.err = none ∧ lib.url2name repoURL = name)) :
    after.repos name = c.repos name := by
  cases created_of_eq ran with
  | stored cache =>
    have other : name ≠ lib.url2name repoURL := fun same => untouched ⟨rfl, same.symm⟩
    exact Function.update_noteq other _ _
  | _ => rfl

/-- After a call, a name has an entry exactly when it had one before or the
call succeeded for it. -/
theorem repos_isSome (ran : c.createRepoIfNotExist lib world repoURL = (call, after))
    (name : String) :
    (after.repos name).isSome ↔
      (c.repos name).isSome ∨ (call.err = none ∧ lib.url2name repoURL = name) := by
  cases created_of_eq ran with
  | found repo _ present =>
    constructor
    · exact .inl
    · rintro (kept | ⟨-, rfl⟩)
      · exact kept
      · simp [present]
  | stored cache =>
    by_cases same : name = lib.url2name repoURL
    · subst same; simp
    · simp [Function.update_noteq same, Ne.symm same]
  | _ => simp

/-- A successful call on an absent name invoked the factory on that name, got a
cache, and stored and returned the repository `NewRepo` built from the URL and
that cache. -/
theorem stored_of_absent (ran : c.createRepoIfNotExist lib world repoURL = (call, after))
    (succeeded : call.err = none) (absent : c.repos (lib.url2name repoURL) = none) :
    ∃ cache, call.invoked = some (lib.url2name repoURL, .ok cache) ∧
      call.repo = some (lib.newRepo repoURL cache) ∧
      after.repos (lib.url2name repoURL) = some (lib.newRepo repoURL cache) := by
  cases created_of_eq ran with
  | rejected => cases succeeded
  | found repo _ present => simp [present] at absent
  | refused => cases succeeded
  | stored cache => exact ⟨cache, rfl, rfl, Function.update_same _ _ _⟩

/-- A call whose factory invocation returned a cache stored the repository
`NewRepo` built from it under the invoked name. -/
theorem invoked_stored (ran : c.createRepoIfNotExist lib world repoURL = (call, after))
    {name : String} {cache : Cache} (invoked : call.invoked = some (name, .ok cache)) :
    after.repos name = some (lib.newRepo repoURL cache) := by
  cases created_of_eq ran with
  | rejected | found | refused => cases invoked
  | stored =>
    cases invoked
    exact Function.update_same _ _ _

/-- The factory is invoked only on the name of the call's URL, and only when
the map has no entry for that name. -/
theorem invoked_absent (ran : c.createRepoIfNotExist lib world repoURL = (call, after))
    {name : String} {answer : Except String Cache}
    (invoked : call.invoked = some (name, answer)) :
    name = lib.url2name repoURL ∧ c.repos name = none := by
  cases created_of_eq ran with
  | rejected | found => cases invoked
  | refused _ _ absent | stored _ _ absent =>
    cases invoked
    exact ⟨rfl, absent⟩

/-- The factory is invoked exactly when the URL parses and the map has no entry
for its name. -/
theorem invoked_isSome_iff (ran : c.createRepoIfNotExist lib world repoURL = (call, after)) :
    call.invoked.isSome = true ↔
      lib.parseRequestURI repoURL = none ∧ c.repos (lib.url2name repoURL) = none := by
  cases created_of_eq ran <;> simp_all

/-- The answer a call records is the one the catalog's factory gives in the
call's world. -/
theorem invoked_answer (ran : c.createRepoIfNotExist lib world repoURL = (call, after))
    {name : String} {answer : Except String Cache}
    (invoked : call.invoked = some (name, answer)) : answer = c.factory name world := by
  cases created_of_eq ran with
  | rejected | found => cases invoked
  | refused _ _ _ given | stored _ _ _ given =>
    cases invoked
    exact given.symm

/-- A call succeeds exactly when its URL parses and the factory, if invoked,
gave a cache. -/
theorem err_eq_none_iff (ran : c.createRepoIfNotExist lib world repoURL = (call, after)) :
    call.err = none ↔ lib.parseRequestURI repoURL = none ∧
      ∀ name cause, call.invoked ≠ some (name, .error cause) := by
  cases created_of_eq ran <;> simp_all

/-- No call changes the factory. -/
theorem factory_kept (ran : c.createRepoIfNotExist lib world repoURL = (call, after)) :
    after.factory = c.factory := by
  cases created_of_eq ran <;> rfl

/-- A successful call returns a repository, and the map holds that repository
under the name of the URL when the call returns. -/
theorem succeeded_entry (ran : c.createRepoIfNotExist lib world repoURL = (call, after))
    (succeeded : call.err = none) :
    ∃ repo, call.repo = some repo ∧ after.repos (lib.url2name repoURL) = some repo := by
  cases created_of_eq ran with
  | rejected | refused => cases succeeded
  | found repo _ present => exact ⟨repo, rfl, present⟩
  | stored cache => exact ⟨_, rfl, Function.update_same _ _ _⟩

/-- A failing call returns a nil repository and leaves the catalog as it was.
Its error is the parser's, with the factory not invoked, or the factory's
error behind the prefix of `CreateRepoIfNotExist`. -/
theorem failed_unchanged (ran : c.createRepoIfNotExist lib world repoURL = (call, after))
    {err : String} (failed : call.err = some err) :
    call.repo = none ∧ after = c ∧
      ((lib.parseRequestURI repoURL = some err ∧ call.invoked = none) ∨
        ∃ cause, call.invoked = some (lib.url2name repoURL, .error cause) ∧
          err = "failed to create cache: " ++ cause) := by
  cases created_of_eq ran with
  | rejected _ parsed =>
    cases failed
    exact ⟨rfl, rfl, .inl ⟨parsed, rfl⟩⟩
  | refused cause =>
    cases failed
    exact ⟨rfl, rfl, .inr ⟨cause, rfl, rfl⟩⟩
  | found | stored => cases failed

end Call

/-- `Created` describes exactly what a call does: each case, guards met, is
what `createRepoIfNotExist` computes. -/
theorem eq_of_created {c after : Catalog World Cache Repo} {world : World}
    {repoURL : String} {call : Call Cache Repo}
    (created : Created lib c world repoURL call after) :
    c.createRepoIfNotExist lib world repoURL = (call, after) := by
  cases created <;> simp_all [Catalog.createRepoIfNotExist]

end Create

end Shipper
