import Shipper.History

/-!
# Each name on its own

A call reads and writes the map only at the name of its URL, and no call
changes the factory. What a call returns therefore depends on its world, its
URL and the entry for its name alone: the catalog passes nothing from the calls
for one name to the calls for another. With the factory giving each call the
answer it gave it, the calls of a run for one name go as if the calls for
other names were not there: they return what they return in the run of the
requests for that name alone, and leave the same entry. A Go factory that
keeps state between invocations can pass something between names itself; the
world of each request fixes the answer it gave, so this is not ruled out here.

The catalog has one mutex for all names, but through `Shipper.Mutex` the same
holds of every interleaving: the goroutines for one name, in the order their
calls took effect, returned what their calls return run alone from the first
catalog.
-/

namespace Shipper

variable {World Cache Repo : Type} {lib : Library Cache Repo}

/-- Two catalogs with one factory and one entry for the name of a URL answer a
call on it alike, and are left with one entry for that name. -/
theorem createRepoIfNotExist_congr {c d : Catalog World Cache Repo} (world : World)
    (repoURL : String) (factory : c.factory = d.factory)
    (entry : c.repos (lib.url2name repoURL) = d.repos (lib.url2name repoURL)) :
    (c.createRepoIfNotExist lib world repoURL).1 = (d.createRepoIfNotExist lib world repoURL).1 ∧
      (c.createRepoIfNotExist lib world repoURL).2.repos (lib.url2name repoURL) =
        (d.createRepoIfNotExist lib world repoURL).2.repos (lib.url2name repoURL) := by
  rcases ranC : c.createRepoIfNotExist lib world repoURL with ⟨callC, afterC⟩
  rcases ranD : d.createRepoIfNotExist lib world repoURL with ⟨callD, afterD⟩
  cases created_of_eq ranC <;> cases created_of_eq ranD <;> simp_all

variable (lib) in
/-- The calls of a run for one name, and the entry they leave for it, are
those of the run of the requests for that name alone, from a catalog with the
same factory and the same entry for the name. -/
theorem run_filter_name (name : String) {c d : Catalog World Cache Repo}
    (factory : c.factory = d.factory) (entry : c.repos name = d.repos name)
    (requests : List (Request World)) :
    ((run lib c requests).1.filter fun s => lib.url2name s.call.repoURL = name).map (·.call) =
      (run lib d (requests.filter fun r => lib.url2name r.repoURL = name)).1.map (·.call) ∧
    (run lib c requests).2.repos name =
      (run lib d (requests.filter fun r => lib.url2name r.repoURL = name)).2.repos name := by
  induction requests generalizing c d with
  | nil => exact ⟨rfl, entry⟩
  | cons request requests inductionHypothesis =>
    rcases ran : c.createRepoIfNotExist lib request.world request.repoURL with ⟨call, after⟩
    rw [run_cons requests ran]
    by_cases named : lib.url2name request.repoURL = name
    · subst named
      rcases ranD : d.createRepoIfNotExist lib request.world request.repoURL with
        ⟨callD, afterD⟩
      obtain ⟨sameCall, sameEntry⟩ :=
        createRepoIfNotExist_congr request.world request.repoURL factory entry
      rw [ran, ranD] at sameCall sameEntry
      obtain ⟨calls, entries⟩ := inductionHypothesis
        (by rw [factory_kept ran, factory_kept ranD, factory]) sameEntry
      rw [List.filter_cons_of_pos (by simp [call_repoURL ran]),
        List.filter_cons_of_pos (by simp), run_cons _ ranD, List.map_cons, List.map_cons, calls]
      exact ⟨congrArg (· :: _) sameCall, entries⟩
    · rw [List.filter_cons_of_neg (by simpa [call_repoURL ran]),
        List.filter_cons_of_neg (by simpa)]
      exact inductionHypothesis (by rw [factory_kept ran, factory])
        ((repos_frame ran fun ⟨_, same⟩ => named same).trans entry)

/-- In any interleaving, the goroutines whose URLs have one name, in the order
their calls took effect, made the calls those requests make when run alone,
one after another, from the first catalog, the factory giving each call the
answer its world fixes: no goroutine for another name changes what they see.
Whenever the mutex is free, the entry for the name is the one that run
leaves. -/
theorem exec_per_name (lib : Library Cache Repo) (requests : Nat → Request World)
    (start : Catalog World Cache Repo) (schedule : List Nat) (name : String) :
    let cfg := (Config.initial start).exec lib requests schedule
    let mine := cfg.linearized.filter fun i => lib.url2name (requests i).repoURL = name
    (run lib start (mine.map requests)).1.map (fun s => some s.call) =
      mine.map (fun i => (cfg.pcs i).result) ∧
    (cfg.holder = none →
      cfg.catalog.repos name = (run lib start (mine.map requests)).2.repos name) := by
  intro cfg mine
  have inv := serialized_exec lib requests start schedule
  obtain ⟨calls, entry⟩ := run_filter_name lib name rfl rfl (cfg.linearized.map requests)
  have alone : mine.map requests =
      (cfg.linearized.map requests).filter fun r => lib.url2name r.repoURL = name := by
    rw [List.filter_map]; rfl
  let any : Option (Call Cache Repo) → Bool := fun o =>
    o.any fun c => lib.url2name c.repoURL = name
  have ours : cfg.linearized.filter (any ∘ fun i => (cfg.pcs i).result) = mine :=
    List.filter_congr fun i member => by
      obtain ⟨call, result⟩ := Option.isSome_iff_exists.mp ((inv.result_iff i).mpr member)
      simp [any, result, inv.result_repoURL result]
  have filtered := congrArg (List.filter any) inv.calls
  rw [List.filter_map, List.filter_map, ours] at filtered
  refine ⟨?_, fun free => by rw [inv.free free, alone, ← entry]; rfl⟩
  calc (run lib start (mine.map requests)).1.map (fun s => some s.call)
      _ = ((run lib start (cfg.linearized.map requests)).1.filter
          fun s => lib.url2name s.call.repoURL = name).map fun s => some s.call := by
        rw [alone]
        simpa only [List.map_map, Function.comp_def] using (congrArg (List.map some) calls).symm
      _ = mine.map fun i => (cfg.pcs i).result := filtered

end Shipper
