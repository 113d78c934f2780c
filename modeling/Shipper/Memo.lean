import Shipper.Run

/-!
# The catalog as a get-or-create table

What the catalog is for, stated without its code: a table from names to
repositories where a request for a name fails and changes nothing, or returns
the name's entry, making one when there is none. Entries are never changed,
so every successful answer for a name is the entry the table ends with.

`createRepoIfNotExist` refines one request of this table, on the name of its
URL, and a run of `Shipper.Run` refines a sequence of requests.
-/

namespace Shipper.Memo

variable {Repo : Type}

/-- One request for `name` on `before`, with its `answer` (`none` for a
failure), leaving `after`. -/
inductive GetOrCreate : (String → Option Repo) → String → Option Repo →
    (String → Option Repo) → Prop where
  | failed (table : String → Option Repo) (name : String) : GetOrCreate table name none table
  | found (table : String → Option Repo) (name : String) (repo : Repo)
      (present : table name = some repo) : GetOrCreate table name (some repo) table
  | made (table : String → Option Repo) (name : String) (repo : Repo)
      (absent : table name = none) :
      GetOrCreate table name (some repo) (Function.update table name (some repo))

/-- A sequence of requests, each as a name and its answer, from `before` to
`after`. -/
inductive Requests : (String → Option Repo) → List (String × Option Repo) →
    (String → Option Repo) → Prop where
  | nil (table : String → Option Repo) : Requests table [] table
  | cons {before middle after : String → Option Repo} {name : String}
      {answer : Option Repo} {rest : List (String × Option Repo)}
      (first : GetOrCreate before name answer middle) (others : Requests middle rest after) :
      Requests before ((name, answer) :: rest) after

variable {before after : String → Option Repo} {name : String} {answer : Option Repo}

/-- A request keeps every entry. -/
theorem GetOrCreate.kept (request : GetOrCreate before name answer after) {other : String}
    {repo : Repo} (present : before other = some repo) : after other = some repo := by
  cases request with
  | made _ absent =>
    have distinct : other ≠ name := fun same => by simp_all
    simpa [Function.update_noteq distinct] using present
  | _ => exact present

/-- A successful answer is the entry of its name after the request. -/
theorem GetOrCreate.answered (request : GetOrCreate before name answer after) {repo : Repo}
    (succeeded : answer = some repo) : after name = some repo := by
  cases request with
  | failed => cases succeeded
  | found _ present => cases succeeded; exact present
  | made => cases succeeded; exact Function.update_same _ _ _

/-- A sequence of requests keeps every entry. -/
theorem Requests.kept {history : List (String × Option Repo)}
    (requests : Requests before history after) {other : String} {repo : Repo}
    (present : before other = some repo) : after other = some repo := by
  induction requests with
  | nil => exact present
  | cons first _ inductionHypothesis => exact inductionHypothesis (first.kept present)

/-- Every successful answer of a sequence is the entry its name ends with, so
all successful answers for one name are one repository. -/
theorem Requests.answered {history : List (String × Option Repo)}
    (requests : Requests before history after) {repo : Repo}
    (member : (name, some repo) ∈ history) : after name = some repo := by
  induction requests with
  | nil => cases member
  | cons first others inductionHypothesis =>
    rcases List.mem_cons.mp member with same | later
    · cases same
      exact others.kept (first.answered rfl)
    · exact inductionHypothesis later

end Shipper.Memo

namespace Shipper

open Memo

variable {World Cache Repo : Type} {lib : Library Cache Repo}

/-- One call is one request of the table, on the name of its URL, answered by
the repository the call returns. -/
theorem createRepoIfNotExist_refines {c after : Catalog World Cache Repo} {world : World}
    {repoURL : String} {call : Call Cache Repo}
    (ran : c.createRepoIfNotExist lib world repoURL = (call, after)) :
    GetOrCreate c.repos (lib.url2name repoURL) call.repo after.repos := by
  cases created_of_eq ran with
  | rejected | refused => exact .failed _ _
  | found repo _ present => exact .found _ _ repo present
  | stored cache _ absent => exact .made _ _ _ absent

/-- A run is a sequence of requests of the table: each call asks for the name
of its URL and is answered by the repository it returns. -/
theorem run_refines (c : Catalog World Cache Repo) (requests : List (Request World)) :
    Requests c.repos
      ((run lib c requests).1.map fun s => (lib.url2name s.call.repoURL, s.call.repo))
      (run lib c requests).2.repos := by
  induction requests generalizing c with
  | nil => exact .nil _
  | cons request requests inductionHypothesis =>
    rcases ran : c.createRepoIfNotExist lib request.world request.repoURL with ⟨call, after⟩
    rw [run_cons requests ran, List.map_cons, call_repoURL ran]
    exact .cons (createRepoIfNotExist_refines ran) (inductionHypothesis after)

end Shipper
