import Shipper.Memo
import Shipper.History
import Mathlib.Data.List.Pairwise

/-!
# What callers racing on one catalog can observe

Through `Shipper.Mutex`, the laws of a sequential run hold of every
interleaving, in the order the calls took effect. The linearized calls refine
the get-or-create table of `Shipper.Memo`. Two goroutines that returned without
error for one repository name got the same repository, and the catalog holds
it under that name at every later point, a critical section in progress
included. The factory hands out a cache for a name at most once: no two
goroutines that returned both got one for it.

No step of any interleaving removes or replaces an entry of the map. A
goroutine that has not passed `Lock` when another has returned a repository,
and asks for a URL of the same name, gets that repository from the map: what
one caller saw returned, every later caller sees.
-/

namespace Shipper

variable {World Cache Repo : Type}

section Reachable

variable (lib : Library Cache Repo) (requests : Nat → Request World)

/-- A configuration some schedule reaches from the first one. -/
def Config.Reachable (start : Catalog World Cache Repo) (cfg : Config World Cache Repo) :
    Prop :=
  ∃ schedule, (Config.initial start).exec lib requests schedule = cfg

variable {lib requests} {start : Catalog World Cache Repo} {cfg : Config World Cache Repo}

/-- Every reachable configuration meets the invariant. -/
theorem Config.Reachable.serialized (reach : cfg.Reachable lib requests start) :
    Serialized lib requests start cfg := by
  obtain ⟨schedule, rfl⟩ := reach
  exact serialized_exec lib requests start schedule

/-- The call a goroutine made is a call of the run of the linearized calls. -/
theorem Serialized.mem_order (inv : Serialized lib requests start cfg) {i : Nat}
    {call : Call Cache Repo} (result : (cfg.pcs i).result = some call) :
    ∃ s ∈ (run lib start (cfg.linearized.map requests)).1, s.call = call := by
  have member : some call ∈ cfg.linearized.map (fun j => (cfg.pcs j).result) :=
    List.mem_map.mpr ⟨i, (inv.result_iff i).mp (by simp [result]), result⟩
  rw [← inv.calls] at member
  obtain ⟨s, inOrder, same⟩ := List.mem_map.mp member
  exact ⟨s, inOrder, Option.some.inj same⟩

/-- Every entry of the committed catalog is in the shared one, whatever the
holder of the mutex is doing. -/
theorem Serialized.catalog_kept (inv : Serialized lib requests start cfg) {name : String}
    {repo : Repo} (present : (cfg.committed lib requests start).repos name = some repo) :
    cfg.catalog.repos name = some repo := by
  cases held : cfg.holder with
  | none => rwa [inv.free held]
  | some h =>
    have inside := (inv.holder_iff h).mpr held
    cases pc : cfg.pcs h with
    | lookup => rwa [(inv.inside pc rfl).2.2]
    | invoke | store => rwa [(inv.inside pc rfl).2.2.1]
    | unlock call => exact repos_kept (inv.inside pc rfl).2 present
    | _ => simp [pc, Pc.holdsLock] at inside

/-- A relation that holds between every call of the run of the linearized
calls and each later one holds, one way or the other, between the calls of any
two goroutines that made one. -/
theorem Serialized.pairwise_results (inv : Serialized lib requests start cfg)
    (related : Call Cache Repo → Call Cache Repo → Prop)
    (ordered : (run lib start (cfg.linearized.map requests)).1.Pairwise
      fun s t => related s.call t.call)
    {i j : Nat} (distinct : i ≠ j) {first second : Call Cache Repo}
    (resultFirst : (cfg.pcs i).result = some first)
    (resultSecond : (cfg.pcs j).result = some second) :
    related first second ∨ related second first := by
  have either : cfg.linearized.Pairwise fun k l =>
      (∀ c d, (cfg.pcs k).result = some c → (cfg.pcs l).result = some d → related c d) ∨
        ∀ c d, (cfg.pcs l).result = some c → (cfg.pcs k).result = some d → related c d :=
    (inv.pairwise_calls related ordered).imp .inl
  have members : ∀ k call, (cfg.pcs k).result = some call → k ∈ cfg.linearized :=
    fun k _ result => (inv.result_iff k).mp (by simp [result])
  rcases either.forall (fun _ _ => Or.symm) (members i first resultFirst)
    (members j second resultSecond) distinct with forward | backward
  · exact .inl (forward _ _ resultFirst resultSecond)
  · exact .inr (backward _ _ resultSecond resultFirst)

end Reachable

/-- Every interleaving refines the get-or-create table of `Shipper.Memo`. The
goroutines that have passed their linearization points, in the order they
passed them, are a sequence of requests from the first catalog's table, each
on the name of its URL and answered by the repository of its call; the shared
catalog holds every entry of the table they end with, and is that table
whenever the mutex is free. -/
theorem exec_refines (lib : Library Cache Repo) (requests : Nat → Request World)
    (start : Catalog World Cache Repo) (schedule : List Nat) :
    let cfg := (Config.initial start).exec lib requests schedule
    ∃ table, Memo.Requests start.repos (cfg.linearized.filterMap fun i =>
        (cfg.pcs i).result.map fun call => (lib.url2name call.repoURL, call.repo)) table ∧
      (∀ name repo, table name = some repo → cfg.catalog.repos name = some repo) ∧
      (cfg.holder = none → cfg.catalog.repos = table) := by
  intro cfg
  have inv := serialized_exec lib requests start schedule
  let answer := fun call : Call Cache Repo => (lib.url2name call.repoURL, call.repo)
  have history : (cfg.linearized.filterMap fun i => (cfg.pcs i).result.map answer) =
      (run lib start (cfg.linearized.map requests)).1.map fun s => answer s.call :=
    calc (cfg.linearized.filterMap fun i => (cfg.pcs i).result.map answer)
        _ = (cfg.linearized.map fun i => (cfg.pcs i).result).filterMap (Option.map answer) :=
          (List.filterMap_map (fun i => (cfg.pcs i).result) (Option.map answer) _).symm
        _ = ((run lib start (cfg.linearized.map requests)).1.map fun s => some s.call).filterMap
            (Option.map answer) := by rw [inv.calls]
        _ = (run lib start (cfg.linearized.map requests)).1.map fun s => answer s.call := by
          rw [List.filterMap_map]; exact congrFun (List.filterMap_eq_map _) _
  exact ⟨(cfg.committed lib requests start).repos, history ▸ run_refines start _,
    fun _ _ => inv.catalog_kept, fun free => by rw [inv.free free]⟩

section Laws

variable {lib : Library Cache Repo} {requests : Nat → Request World}
  {start : Catalog World Cache Repo} {cfg : Config World Cache Repo}

/-- In any interleaving, goroutines that returned without error for URLs of
one name returned one and the same repository, and the catalog holds it under
that name. -/
theorem exec_same_repo (reach : cfg.Reachable lib requests start) {i j : Nat}
    {first second : Call Cache Repo} (returnedFirst : (cfg.pcs i).returned = some first)
    (returnedSecond : (cfg.pcs j).returned = some second) (succeeded : first.err = none)
    (succeededToo : second.err = none)
    (sameName : lib.url2name first.repoURL = lib.url2name second.repoURL) :
    ∃ repo, first.repo = some repo ∧ second.repo = some repo ∧
      cfg.catalog.repos (lib.url2name first.repoURL) = some repo := by
  have inv := reach.serialized
  obtain ⟨s, inOrder, rfl⟩ := inv.mem_order (Pc.result_of_returned returnedFirst)
  obtain ⟨t, inOrderToo, rfl⟩ := inv.mem_order (Pc.result_of_returned returnedSecond)
  obtain ⟨_, ranFirst⟩ := step_of_mem inOrder
  obtain ⟨_, ranSecond⟩ := step_of_mem inOrderToo
  obtain ⟨repo, returned, stored⟩ := succeeded_entry ranFirst succeeded
  obtain ⟨other, returnedToo, storedToo⟩ := succeeded_entry ranSecond succeededToo
  have final := run_after_kept inOrder stored
  have finalToo := run_after_kept inOrderToo storedToo
  rw [← sameName, final] at finalToo
  cases finalToo
  exact ⟨repo, returned, returnedToo, inv.catalog_kept final⟩

/-- A library for concrete runs: an empty URL is rejected, a name is its URL,
and a repository is its URL with its cache. -/
def chartsLibrary : Library Nat (String × Nat) :=
  ⟨fun repoURL => if repoURL = "" then some "empty url" else none, id,
    fun repoURL cache => (repoURL, cache)⟩

/-- A factory whose cache is the world it runs in. -/
def chartsFactory : CacheFactory Nat Nat := fun _ world => .ok world

/-- Every goroutine asks for one chart repository, goroutine `i` in world `i`. -/
def chartsRequests : Nat → Request Nat :=
  fun i => ⟨i, "https://registry.example.com/charts"⟩

/-- Goroutine 0 makes its whole call while goroutine 1 waits in `Lock`; then
goroutine 1 makes its call. -/
def lockedOut : List Nat := [0, 1, 0, 1, 0, 0, 0, 0, 1, 1, 1, 1]

/-- The goroutine that waited in `Lock` returns the repository the first one
created. -/
theorem exec_same_repo_lockedOut :
    let cfg := (Config.initial (newCatalog chartsFactory)).exec chartsLibrary chartsRequests
      lockedOut
    let charts := "https://registry.example.com/charts"
    cfg.Reachable chartsLibrary chartsRequests (newCatalog chartsFactory) ∧
    (cfg.pcs 0).returned = some ⟨charts, some (charts, .ok 0), some (charts, 0), none⟩ ∧
    (cfg.pcs 1).returned = some ⟨charts, none, some (charts, 0), none⟩ ∧
    ∃ repo, some (charts, 0) = some repo ∧ some (charts, 0) = some repo ∧
      cfg.catalog.repos (chartsLibrary.url2name charts) = some repo := by
  intro cfg charts
  have returnedFirst : (cfg.pcs 0).returned =
      some ⟨charts, some (charts, .ok 0), some (charts, 0), none⟩ := by rfl
  have returnedSecond : (cfg.pcs 1).returned = some ⟨charts, none, some (charts, 0), none⟩ := by
    rfl
  exact ⟨⟨lockedOut, rfl⟩, returnedFirst, returnedSecond,
    exec_same_repo ⟨lockedOut, rfl⟩ returnedFirst returnedSecond rfl rfl rfl⟩

/-- In any interleaving, no two goroutines that returned both got a cache from
the factory for one name. -/
theorem exec_created_once (reach : cfg.Reachable lib requests start) {i j : Nat}
    (distinct : i ≠ j) {first second : Call Cache Repo}
    (returnedFirst : (cfg.pcs i).returned = some first)
    (returnedSecond : (cfg.pcs j).returned = some second) {name : String}
    {cache other : Cache} (created : first.invoked = some (name, .ok cache)) :
    second.invoked ≠ some (name, .ok other) := by
  rcases reach.serialized.pairwise_results (fun c d => ∀ name cache answer,
      c.invoked = some (name, .ok cache) → d.invoked ≠ some (name, answer))
    (run_invoked_pairwise start _) distinct (Pc.result_of_returned returnedFirst)
    (Pc.result_of_returned returnedSecond) with forward | backward
  · exact forward name cache _ created
  · exact fun createdToo => backward name other _ createdToo created

/-- Of the two goroutines, only the first got a cache from the factory. -/
theorem exec_created_once_lockedOut :
    let cfg := (Config.initial (newCatalog chartsFactory)).exec chartsLibrary chartsRequests
      lockedOut
    let charts := "https://registry.example.com/charts"
    cfg.Reachable chartsLibrary chartsRequests (newCatalog chartsFactory) ∧ (0 : Nat) ≠ 1 ∧
    (cfg.pcs 0).returned = some ⟨charts, some (charts, .ok 0), some (charts, 0), none⟩ ∧
    (cfg.pcs 1).returned = some ⟨charts, none, some (charts, 0), none⟩ ∧
    (none : Option (String × Except String Nat)) ≠ some (charts, .ok 0) := by
  intro cfg charts
  have returnedFirst : (cfg.pcs 0).returned =
      some ⟨charts, some (charts, .ok 0), some (charts, 0), none⟩ := by rfl
  have returnedSecond : (cfg.pcs 1).returned = some ⟨charts, none, some (charts, 0), none⟩ := by
    rfl
  exact ⟨⟨lockedOut, rfl⟩, by decide, returnedFirst, returnedSecond,
    exec_created_once ⟨lockedOut, rfl⟩ (by decide) returnedFirst returnedSecond rfl⟩

variable (lib requests start) in
/-- No step of any interleaving removes or replaces an entry of the shared
map, a critical section in progress included: an entry present at one point
is there, unchanged, at every later point. -/
theorem exec_repos_kept (schedule more : List Nat) {name : String} {repo : Repo}
    (present : ((Config.initial start).exec lib requests schedule).catalog.repos name =
      some repo) :
    ((Config.initial start).exec lib requests (schedule ++ more)).catalog.repos name =
      some repo := by
  have inv := serialized_exec lib requests start schedule
  rw [Config.exec_append]
  generalize (Config.initial start).exec lib requests schedule = cfg at inv present
  induction more generalizing cfg with
  | nil => exact present
  | cons i more inductionHypothesis =>
    exact inductionHypothesis _ (inv.step i) (inv.step_repos_kept i present)

/-- The entry goroutine 0 writes before it unlocks stays while goroutine 1
runs and after goroutine 0 returns. -/
theorem exec_repos_kept_charts :
    let cfg := (Config.initial (newCatalog chartsFactory)).exec chartsLibrary chartsRequests
    let charts := "https://registry.example.com/charts"
    (cfg [0, 0, 0, 0, 0]).catalog.repos charts = some (charts, 0) ∧
    (cfg ([0, 0, 0, 0, 0] ++ [1, 1, 0, 1, 1, 1])).catalog.repos charts = some (charts, 0) := by
  intro cfg charts
  have present : (cfg [0, 0, 0, 0, 0]).catalog.repos charts = some (charts, 0) := by rfl
  exact ⟨present, exec_repos_kept _ _ _ _ [1, 1, 0, 1, 1, 1] present⟩

variable (lib requests start) in
/-- A goroutine that has not passed `Lock` when another has returned a
repository, and whose URL parses and has the same name, returns that
repository, without error and without invoking the factory, whatever the
goroutines do in between. -/
theorem exec_sees_returned (schedule more : List Nat) {i j : Nat}
    {first second : Call Cache Repo}
    (returnedFirst : (((Config.initial start).exec lib requests schedule).pcs i).returned =
      some first)
    (succeeded : first.err = none)
    (notStarted : ((Config.initial start).exec lib requests schedule).pcs j = .parse)
    (returnedSecond :
      (((Config.initial start).exec lib requests (schedule ++ more)).pcs j).returned =
        some second)
    (sameName : lib.url2name second.repoURL = lib.url2name first.repoURL)
    (parsed : lib.parseRequestURI second.repoURL = none) :
    second.invoked = none ∧ second.err = none ∧ second.repo = first.repo := by
  have early := serialized_exec lib requests start schedule
  have late := serialized_exec lib requests start (schedule ++ more)
  rw [Config.exec_append] at returnedSecond late
  generalize (Config.initial start).exec lib requests schedule = cfg at *
  obtain ⟨extra, grown, -⟩ := Config.exec_linearized lib requests cfg more
  have earlyMember : i ∈ cfg.linearized :=
    (early.result_iff i).mp (by simp [Pc.result_of_returned returnedFirst])
  have lateMember : j ∈ extra := by
    have member := (late.result_iff j).mp (by simp [Pc.result_of_returned returnedSecond])
    rw [grown] at member
    exact (List.mem_append.mp member).resolve_left
      (early.not_mem_linearized (by simp [notStarted, Pc.result]))
  have before : List.Sublist [i, j] (cfg.exec lib requests more).linearized := by
    rw [grown]
    exact (List.singleton_sublist.mpr earlyMember).append
      (List.singleton_sublist.mpr lateMember)
  exact late.ordered_results (fun c d => c.err = none →
      lib.url2name d.repoURL = lib.url2name c.repoURL → lib.parseRequestURI d.repoURL = none →
      d.invoked = none ∧ d.err = none ∧ d.repo = c.repo)
    (run_found_pairwise start _) before
    (Pc.result_of_returned (Config.exec_returned_pc returnedFirst more))
    (Pc.result_of_returned returnedSecond) succeeded sameName parsed

/-- Goroutine 1 starts after goroutine 0 has returned, and gets the repository
goroutine 0 created from the map. -/
theorem exec_sees_returned_afterwards :
    let cfg := (Config.initial (newCatalog chartsFactory)).exec chartsLibrary chartsRequests
    let charts := "https://registry.example.com/charts"
    let first : Call Nat (String × Nat) := ⟨charts, some (charts, .ok 0), some (charts, 0), none⟩
    let second : Call Nat (String × Nat) := ⟨charts, none, some (charts, 0), none⟩
    ((cfg [0, 0, 0, 0, 0, 0]).pcs 0).returned = some first ∧
    (cfg [0, 0, 0, 0, 0, 0]).pcs 1 = .parse ∧
    ((cfg ([0, 0, 0, 0, 0, 0] ++ [1, 1, 1, 1])).pcs 1).returned = some second ∧
    second.invoked = none ∧ second.err = none ∧ second.repo = first.repo := by
  intro cfg charts first second
  have returnedFirst : ((cfg [0, 0, 0, 0, 0, 0]).pcs 0).returned = some first := by rfl
  have notStarted : (cfg [0, 0, 0, 0, 0, 0]).pcs 1 = .parse := by rfl
  have returnedSecond :
      ((cfg ([0, 0, 0, 0, 0, 0] ++ [1, 1, 1, 1])).pcs 1).returned = some second := by rfl
  exact ⟨returnedFirst, notStarted, returnedSecond,
    exec_sees_returned _ _ _ _ _ returnedFirst rfl notStarted returnedSecond rfl rfl⟩

end Laws

end Shipper
