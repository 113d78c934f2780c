import Shipper.Progress

/-!
# What a step leaves behind

A step of goroutine `i` moves `i` alone, takes the mutex for `i` or gives it
up, and appends `i`, if anything, to the linearization order. A goroutine that
has returned keeps its results, and the order after a longer schedule extends
the order after a shorter one by goroutines of the extension.

No step removes or replaces an entry of the shared map. The map write of
`CreateRepoIfNotExist` is unconditional in the source; what keeps it on an
absent name is the lookup made under the same hold of the mutex, which
`Pending` records.

A relation that holds between each call of the run of the linearized calls and
every later one holds between the calls of any two goroutines in the order
they passed their linearization points.
-/

namespace Shipper

variable {World Cache Repo : Type}

section Step

variable {lib : Library Cache Repo} {requests : Nat → Request World}
  {cfg : Config World Cache Repo}

/-- A step of goroutine `i` moves no other goroutine. -/
theorem Config.step_pcs_ne {i j : Nat} (other : j ≠ i) :
    (cfg.step lib requests i).pcs j = cfg.pcs j := by
  cases pc : cfg.pcs i <;> simp only [Config.step, pc] <;> (try split) <;> (try split) <;>
    simp [Function.update_noteq other]

/-- After a step of goroutine `i`, the holder of the mutex is `i` or held it
before. -/
theorem Config.step_holder {i h : Nat} (held : (cfg.step lib requests i).holder = some h) :
    h = i ∨ cfg.holder = some h := by
  cases pc : cfg.pcs i <;> simp only [Config.step, pc] at held <;> (try split at held) <;>
    (try split at held) <;> simp_all

/-- A goroutine that has returned keeps its results. -/
theorem Config.step_returned_pc {k : Nat} {call : Call Cache Repo}
    (returned : (cfg.pcs k).returned = some call) (i : Nat) :
    ((cfg.step lib requests i).pcs k).returned = some call := by
  by_cases same : k = i
  · subst same
    rwa [Config.step_of_returned (by simp [returned])]
  · rwa [Config.step_pcs_ne same]

variable (lib requests) in
/-- A step of goroutine `i` appends nothing or `i` to the linearization order. -/
theorem Config.step_linearized (cfg : Config World Cache Repo) (i : Nat) :
    (cfg.step lib requests i).linearized = cfg.linearized ∨
      (cfg.step lib requests i).linearized = cfg.linearized ++ [i] := by
  cases pc : cfg.pcs i <;> simp only [Config.step, pc] <;> (try split) <;> (try split) <;> simp

end Step

section Schedule

variable {lib : Library Cache Repo} {requests : Nat → Request World}

variable (lib requests) in
/-- The linearization order after a schedule is the order before it followed
by goroutines of the schedule. -/
theorem Config.exec_linearized (cfg : Config World Cache Repo) (schedule : List Nat) :
    ∃ extra, (cfg.exec lib requests schedule).linearized = cfg.linearized ++ extra ∧
      extra ⊆ schedule := by
  induction schedule generalizing cfg with
  | nil => exact ⟨[], (List.append_nil _).symm, List.nil_subset _⟩
  | cons i schedule inductionHypothesis =>
    obtain ⟨extra, grown, within⟩ := inductionHypothesis (cfg.step lib requests i)
    rcases cfg.step_linearized lib requests i with same | appended
    · exact ⟨extra, by rw [Config.exec, grown, same],
        fun _ member => List.mem_cons_of_mem i (within member)⟩
    · exact ⟨i :: extra, by rw [Config.exec, grown, appended, List.append_assoc]; rfl,
        List.cons_subset_cons i within⟩

/-- A goroutine that has returned keeps its results through any schedule. -/
theorem Config.exec_returned_pc {cfg : Config World Cache Repo} {k : Nat}
    {call : Call Cache Repo} (returned : (cfg.pcs k).returned = some call)
    (schedule : List Nat) :
    ((cfg.exec lib requests schedule).pcs k).returned = some call := by
  induction schedule generalizing cfg with
  | nil => exact returned
  | cons i schedule inductionHypothesis =>
    exact inductionHypothesis (Config.step_returned_pc returned i)

end Schedule

section Invariant

variable {lib : Library Cache Repo} {requests : Nat → Request World}
  {start : Catalog World Cache Repo} {cfg : Config World Cache Repo}

/-- No step removes or replaces an entry of the shared map. Only `store`
writes to it, on the name its lookup found absent under the same hold of the
mutex. -/
theorem Serialized.step_repos_kept (inv : Serialized lib requests start cfg) (i : Nat)
    {name : String} {repo : Repo} (present : cfg.catalog.repos name = some repo) :
    (cfg.step lib requests i).catalog.repos name = some repo := by
  cases pc : cfg.pcs i with
  | store cache =>
    obtain ⟨-, -, same, absent, -⟩ := inv.inside pc rfl
    have other : name ≠ lib.url2name (requests i).repoURL := fun named => by
      rw [named, same, absent] at present
      cases present
    simpa [Config.step, pc, Function.update_noteq other] using present
  | _ => simp only [Config.step, pc]; (try split) <;> (try split) <;> simpa using present

/-- The call a goroutine made is on its own request's URL. -/
theorem Serialized.result_repoURL (inv : Serialized lib requests start cfg) {i : Nat}
    {call : Call Cache Repo} (result : (cfg.pcs i).result = some call) :
    call.repoURL = (requests i).repoURL := by
  have urls := congrArg (List.map (Option.map (·.repoURL))) inv.calls
  have named : ((run lib start (cfg.linearized.map requests)).1.map fun s => s.call.repoURL) =
      (cfg.linearized.map requests).map (·.repoURL) := run_repoURLs _ _
  replace named := congrArg (List.map some) named
  simp only [List.map_map, Function.comp_def, Option.map_some'] at urls named
  rw [named] at urls
  simpa [result] using
    (List.map_inj_left.mp urls i ((inv.result_iff i).mp (by simp [result]))).symm

/-- A relation between each call of the run of the linearized calls and every
later one holds between the calls of the goroutines, in the order they passed
their linearization points. -/
theorem Serialized.pairwise_calls (inv : Serialized lib requests start cfg)
    (related : Call Cache Repo → Call Cache Repo → Prop)
    (ordered : (run lib start (cfg.linearized.map requests)).1.Pairwise
      fun s t => related s.call t.call) :
    cfg.linearized.Pairwise fun k l => ∀ c d, (cfg.pcs k).result = some c →
      (cfg.pcs l).result = some d → related c d := by
  have onCalls : (cfg.linearized.map fun k => (cfg.pcs k).result).Pairwise
      fun a b => ∀ c d, a = some c → b = some d → related c d := by
    rw [← inv.calls, List.pairwise_map]
    exact ordered.imp fun holds c d left right => by
      cases left; cases right; exact holds
  exact List.pairwise_map.mp onCalls

/-- Of two goroutines that passed their linearization points one after the
other, the call of the first relates to the call of the second. -/
theorem Serialized.ordered_results (inv : Serialized lib requests start cfg)
    (related : Call Cache Repo → Call Cache Repo → Prop)
    (ordered : (run lib start (cfg.linearized.map requests)).1.Pairwise
      fun s t => related s.call t.call)
    {i j : Nat} (before : List.Sublist [i, j] cfg.linearized) {first second : Call Cache Repo}
    (resultFirst : (cfg.pcs i).result = some first)
    (resultSecond : (cfg.pcs j).result = some second) : related first second :=
  List.pairwise_pair.mp ((inv.pairwise_calls related ordered).sublist before) _ _
    resultFirst resultSecond

end Invariant

end Shipper
