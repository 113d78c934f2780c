import Shipper.Run

/-!
# Goroutines sharing one catalog

`CreateRepoIfNotExist` checks its URL, takes the catalog's mutex, reads the
map, may call the factory and write the map, and runs its deferred `Unlock`
before it returns to its caller. Each caller here is a goroutine with a
program counter at one of those points, and a schedule says which goroutine
moves next: every interleaving is a schedule.

The URL check reads nothing shared, so it is taken in the same step as the
`Lock` it precedes: a rejected URL returns at once, without the mutex, and a
goroutine at `parse` whose URL is accepted waits there for the mutex. The
deferred `Unlock` and the return to the caller are two steps, and between them
other goroutines may make whole calls.

Two events are linearization points: the deferred `Unlock`, and the rejection
of a URL. `linearized` lists the goroutines in the order they passed theirs;
it is bookkeeping of the model, and no step reads it. The mutex serializes the
critical sections. At most one goroutine is past `Lock`; the calls of
`linearized`, run alone in that order from the first catalog, are the calls
the goroutines made; and whenever the mutex is free the catalog is the one
that run ends with.
-/

namespace Shipper

variable {World Cache Repo : Type}

/-- Where a goroutine is in `CreateRepoIfNotExist`. At `parse` it has not yet
passed `Lock`; from `lookup` to `unlock` it holds the mutex; `store` carries
the factory's cache; `unlock`, `unlocked` and `done` carry the results of the
call, before the deferred `Unlock`, after it, and once returned. -/
inductive Pc (Cache Repo : Type) where
  | parse
  | lookup
  | invoke
  | store (cache : Cache)
  | unlock (call : Call Cache Repo)
  | unlocked (call : Call Cache Repo)
  | done (call : Call Cache Repo)

/-- Whether a goroutine at this point holds the mutex. -/
def Pc.holdsLock : Pc Cache Repo → Bool
  | .lookup | .invoke | .store _ | .unlock _ => true
  | _ => false

/-- The call a goroutine made, once it has passed its linearization point. -/
def Pc.result : Pc Cache Repo → Option (Call Cache Repo)
  | .unlocked call | .done call => some call
  | _ => none

/-- The call a goroutine returned, once it has returned. -/
def Pc.returned : Pc Cache Repo → Option (Call Cache Repo)
  | .done call => some call
  | _ => none

/-- A goroutine that holds the mutex has not passed its linearization point. -/
theorem Pc.result_of_holdsLock {pc : Pc Cache Repo} (holds : pc.holdsLock = true) :
    pc.result = none := by
  cases pc <;> first | rfl | cases holds

/-- A goroutine that holds the mutex has not returned. -/
theorem Pc.returned_of_holdsLock {pc : Pc Cache Repo} (holds : pc.holdsLock = true) :
    pc.returned = none := by
  cases pc <;> first | rfl | cases holds

/-- What a goroutine returned is the call it made. -/
theorem Pc.result_of_returned {pc : Pc Cache Repo} {call : Call Cache Repo}
    (returned : pc.returned = some call) : pc.result = some call := by
  cases pc <;> simp_all [Pc.returned, Pc.result]

/-- The shared catalog, the goroutine holding its mutex, the program counter
of every goroutine, and the goroutines that have passed their linearization
point, in order. -/
structure Config (World Cache Repo : Type) where
  catalog : Catalog World Cache Repo
  holder : Option Nat
  pcs : Nat → Pc Cache Repo
  linearized : List Nat

/-- Every goroutine before its URL check, the mutex free. -/
def Config.initial (c : Catalog World Cache Repo) : Config World Cache Repo :=
  ⟨c, none, fun _ => .parse, []⟩

/-- Goroutine `i` moves to `pc`. -/
def Config.moveTo (cfg : Config World Cache Repo) (i : Nat) (pc : Pc Cache Repo) :
    Config World Cache Repo :=
  { cfg with pcs := Function.update cfg.pcs i pc }

/-- Goroutine `i` passes its linearization point, to `pc`. -/
def Config.linearize (cfg : Config World Cache Repo) (i : Nat) (pc : Pc Cache Repo) :
    Config World Cache Repo :=
  { cfg with pcs := Function.update cfg.pcs i pc, linearized := cfg.linearized ++ [i] }

section Frame

variable (cfg : Config World Cache Repo) (i : Nat) (pc : Pc Cache Repo)

/-- Moving a goroutine leaves the catalog. -/
@[simp] theorem Config.moveTo_catalog : (cfg.moveTo i pc).catalog = cfg.catalog := rfl
/-- Moving a goroutine leaves the mutex. -/
@[simp] theorem Config.moveTo_holder : (cfg.moveTo i pc).holder = cfg.holder := rfl
/-- Moving a goroutine leaves the linearization order. -/
@[simp] theorem Config.moveTo_linearized : (cfg.moveTo i pc).linearized = cfg.linearized := rfl
/-- Moving a goroutine changes its program counter alone. -/
@[simp] theorem Config.moveTo_pcs : (cfg.moveTo i pc).pcs = Function.update cfg.pcs i pc := rfl
/-- A linearization point leaves the catalog. -/
@[simp] theorem Config.linearize_catalog : (cfg.linearize i pc).catalog = cfg.catalog := rfl
/-- A linearization point leaves the mutex. -/
@[simp] theorem Config.linearize_holder : (cfg.linearize i pc).holder = cfg.holder := rfl
/-- A linearization point appends its goroutine to the order. -/
@[simp] theorem Config.linearize_linearized :
    (cfg.linearize i pc).linearized = cfg.linearized ++ [i] := rfl
/-- A linearization point changes the program counter of its goroutine alone. -/
@[simp] theorem Config.linearize_pcs :
    (cfg.linearize i pc).pcs = Function.update cfg.pcs i pc := rfl

end Frame

section Goroutines

variable (lib : Library Cache Repo) (requests : Nat → Request World)

/-- Goroutine `i`, which calls `CreateRepoIfNotExist` with `requests i`, takes
its next step: one access to the shared state, with the local computation
before it. A goroutine waiting in `Lock`, or one that has returned, does not
move. -/
def Config.step (cfg : Config World Cache Repo) (i : Nat) : Config World Cache Repo :=
  let repoURL := (requests i).repoURL
  let name := lib.url2name repoURL
  match cfg.pcs i with
  | .parse =>
    match lib.parseRequestURI repoURL with
    | some err => cfg.linearize i (.done ⟨repoURL, none, none, some err⟩)
    | none =>
      match cfg.holder with
      | none => { cfg.moveTo i .lookup with holder := some i }
      | some _ => cfg
  | .lookup =>
    match cfg.catalog.repos name with
    | some repo => cfg.moveTo i (.unlock ⟨repoURL, none, some repo, none⟩)
    | none => cfg.moveTo i .invoke
  | .invoke =>
    match cfg.catalog.factory name (requests i).world with
    | .error err =>
      cfg.moveTo i (.unlock ⟨repoURL, some (name, .error err), none,
        some ("failed to create cache: " ++ err)⟩)
    | .ok cache => cfg.moveTo i (.store cache)
  | .store cache =>
    let repo := lib.newRepo repoURL cache
    { cfg.moveTo i (.unlock ⟨repoURL, some (name, .ok cache), some repo, none⟩) with
      catalog := { cfg.catalog with repos := Function.update cfg.catalog.repos name (some repo) } }
  | .unlock call => { cfg.linearize i (.unlocked call) with holder := none }
  | .unlocked call => cfg.moveTo i (.done call)
  | .done _ => cfg

/-- The goroutines move in the order of `schedule`. -/
def Config.exec (cfg : Config World Cache Repo) : List Nat → Config World Cache Repo
  | [] => cfg
  | i :: schedule => (cfg.step lib requests i).exec schedule

/-- Where the linearized calls, run from `start` in their order, leave the
catalog. -/
def Config.committed (start : Catalog World Cache Repo) (cfg : Config World Cache Repo) :
    Catalog World Cache Repo :=
  (run lib start (cfg.linearized.map requests)).2

/-- What the goroutine holding the mutex has done, against `committed`, the
catalog its call started from. Nothing is written before `store`; at `unlock`
the goroutine holds the results `CreateRepoIfNotExist` returns alone on
`committed`, and the catalog is the one that call leaves. -/
def Pending (committed current : Catalog World Cache Repo) (request : Request World) :
    Pc Cache Repo → Prop
  | .lookup => lib.parseRequestURI request.repoURL = none ∧ current = committed
  | .invoke => lib.parseRequestURI request.repoURL = none ∧ current = committed ∧
      committed.repos (lib.url2name request.repoURL) = none
  | .store cache => lib.parseRequestURI request.repoURL = none ∧ current = committed ∧
      committed.repos (lib.url2name request.repoURL) = none ∧
      committed.factory (lib.url2name request.repoURL) request.world = .ok cache
  | .unlock call =>
      committed.createRepoIfNotExist lib request.world request.repoURL = (call, current)
  | _ => False

/-- The invariant of every configuration a schedule reaches from
`Config.initial start`. -/
structure Serialized (start : Catalog World Cache Repo) (cfg : Config World Cache Repo) :
    Prop where
  holder_iff : ∀ i, (cfg.pcs i).holdsLock = true ↔ cfg.holder = some i
  result_iff : ∀ i, (cfg.pcs i).result.isSome = true ↔ i ∈ cfg.linearized
  nodup : cfg.linearized.Nodup
  calls : (run lib start (cfg.linearized.map requests)).1.map (fun s => some s.call) =
    cfg.linearized.map (fun i => (cfg.pcs i).result)
  free : cfg.holder = none → cfg.catalog = cfg.committed lib requests start
  pending : ∀ i, cfg.holder = some i →
    Pending lib (cfg.committed lib requests start) cfg.catalog (requests i) (cfg.pcs i)

variable {lib requests} {start : Catalog World Cache Repo}

/-- The first configuration meets the invariant. -/
theorem serialized_initial : Serialized lib requests start (Config.initial start) where
  holder_iff i := by simp [Config.initial, Pc.holdsLock]
  result_iff i := by simp [Config.initial, Pc.result]
  nodup := List.nodup_nil
  calls := rfl
  free _ := rfl
  pending i held := by cases held

section Invariant

variable {cfg : Config World Cache Repo}

/-- A goroutine short of its linearization point is not in the order. -/
theorem Serialized.not_mem_linearized (inv : Serialized lib requests start cfg) {i : Nat}
    (pending : (cfg.pcs i).result = none) : i ∉ cfg.linearized := fun member => by
  simpa [pending] using (inv.result_iff i).mpr member

/-- Moving goroutine `i` keeps the calls of the order, when `i` is not in it
or keeps its call. -/
theorem map_result_update {linearized : List Nat} {pcs : Nat → Pc Cache Repo} {i : Nat}
    {pc : Pc Cache Repo} (keep : i ∈ linearized → pc.result = (pcs i).result) :
    linearized.map (fun j => (Function.update pcs i pc j).result) =
      linearized.map (fun j => (pcs j).result) :=
  List.map_congr_left fun j member => by
    by_cases same : j = i
    · subst same; rw [Function.update_same, keep member]
    · rw [Function.update_noteq same]

/-- The holder after goroutine `i` moves: the others keep their relation to the
mutex, and `i` holds it exactly at a point inside the critical section. -/
theorem holder_iff_update {pcs : Nat → Pc Cache Repo} {holder holder' : Option Nat} {i : Nat}
    {pc : Pc Cache Repo} (before : ∀ j, (pcs j).holdsLock = true ↔ holder = some j)
    (others : ∀ j, j ≠ i → (holder = some j ↔ holder' = some j))
    (self : pc.holdsLock = true ↔ holder' = some i) :
    ∀ j, (Function.update pcs i pc j).holdsLock = true ↔ holder' = some j := by
  intro j
  by_cases same : j = i
  · subst same; simpa using self
  · rw [Function.update_noteq same, before, others j same]

/-- A goroutine moves to a point with the call it had, with the holder and the
catalog changed only as the invariant allows. -/
theorem Serialized.move (inv : Serialized lib requests start cfg) {i : Nat}
    {pc : Pc Cache Repo} (same : pc.result = (cfg.pcs i).result) {holder : Option Nat}
    {catalog : Catalog World Cache Repo}
    (holder_iff : ∀ j, (Function.update cfg.pcs i pc j).holdsLock = true ↔ holder = some j)
    (free : holder = none → catalog = cfg.committed lib requests start)
    (pending : ∀ j, holder = some j → Pending lib (cfg.committed lib requests start) catalog
      (requests j) (Function.update cfg.pcs i pc j)) :
    Serialized lib requests start
      ⟨catalog, holder, Function.update cfg.pcs i pc, cfg.linearized⟩ where
  holder_iff := holder_iff
  result_iff j := by
    by_cases moved : j = i
    · subst moved; simpa [same] using inv.result_iff j
    · simpa [Function.update_noteq moved] using inv.result_iff j
  nodup := inv.nodup
  calls := by rw [map_result_update fun _ => same]; exact inv.calls
  free := free
  pending := pending

/-- The holder of the mutex moves inside the critical section, as far as
`Pending` allows. -/
theorem Serialized.holder_move (inv : Serialized lib requests start cfg) {i : Nat}
    (held : cfg.holder = some i) {pc : Pc Cache Repo} (holds : pc.holdsLock = true)
    {catalog : Catalog World Cache Repo}
    (pending : Pending lib (cfg.committed lib requests start) catalog (requests i) pc) :
    Serialized lib requests start
      ⟨catalog, cfg.holder, Function.update cfg.pcs i pc, cfg.linearized⟩ := by
  refine inv.move (by rw [Pc.result_of_holdsLock holds,
      Pc.result_of_holdsLock ((inv.holder_iff i).mpr held)])
    (holder_iff_update inv.holder_iff (fun _ _ => Iff.rfl) (by simp [holds, held]))
    (fun free => by simp [held] at free) fun j same => ?_
  rw [held] at same
  cases same
  simpa using pending

/-- A linearization point appends one call to the run of the linearized calls,
on the catalog that run ended with. -/
theorem run_linearized_append {linearized : List Nat} {i : Nat} {call : Call Cache Repo}
    {after : Catalog World Cache Repo}
    (ran : (run lib start (linearized.map requests)).2.createRepoIfNotExist lib
      (requests i).world (requests i).repoURL = (call, after)) :
    run lib start ((linearized ++ [i]).map requests) =
      ((run lib start (linearized.map requests)).1 ++
        [⟨(run lib start (linearized.map requests)).2, call, after⟩], after) := by
  rw [List.map_append, run_append, List.map_singleton, run_cons [] ran]
  rfl

/-- A goroutine short of its linearization point passes it with the call it
makes alone on the committed catalog, and the catalog that call leaves becomes
the committed one. -/
theorem Serialized.linearize (inv : Serialized lib requests start cfg) {i : Nat}
    (short : (cfg.pcs i).result = none) {pc : Pc Cache Repo} {call : Call Cache Repo}
    (result : pc.result = some call) {after : Catalog World Cache Repo}
    (ran : (cfg.committed lib requests start).createRepoIfNotExist lib (requests i).world
      (requests i).repoURL = (call, after))
    {holder : Option Nat} {catalog : Catalog World Cache Repo}
    (holder_iff : ∀ j, (Function.update cfg.pcs i pc j).holdsLock = true ↔ holder = some j)
    (free : holder = none → catalog = after)
    (pending : ∀ j, holder = some j → Pending lib after catalog (requests j) (cfg.pcs j)) :
    Serialized lib requests start
      ⟨catalog, holder, Function.update cfg.pcs i pc, cfg.linearized ++ [i]⟩ where
  holder_iff := holder_iff
  result_iff j := by
    by_cases moved : j = i
    · subst moved; simp [result]
    · simpa [Function.update_noteq moved, moved] using inv.result_iff j
  nodup := List.pairwise_append.mpr ⟨inv.nodup, List.pairwise_singleton _ _,
    fun j member k single => by
      rw [List.mem_singleton.mp single]
      rintro rfl
      exact inv.not_mem_linearized short member⟩
  calls := by
    rw [run_linearized_append ran, List.map_append, List.map_append,
      map_result_update fun member => absurd member (inv.not_mem_linearized short), ← inv.calls]
    simp [result]
  free := by
    simp only [Config.committed]
    rw [run_linearized_append ran]
    exact free
  pending j held := by
    have released : pc.holdsLock = false := by
      cases holds : pc.holdsLock
      · rfl
      · simp [Pc.result_of_holdsLock holds] at result
    have other : j ≠ i := fun same => by
      subst same; simpa [released] using (holder_iff j).mpr held
    simp only [Config.committed]
    rw [run_linearized_append ran, Function.update_noteq other]
    exact pending j held

/-- A goroutine inside the critical section holds the mutex and has done what
`Pending` allows. -/
theorem Serialized.inside (inv : Serialized lib requests start cfg) {i : Nat}
    {pc : Pc Cache Repo} (located : cfg.pcs i = pc) (holds : pc.holdsLock = true) :
    cfg.holder = some i ∧
      Pending lib (cfg.committed lib requests start) cfg.catalog (requests i) pc := by
  have held := (inv.holder_iff i).mp (located ▸ holds)
  exact ⟨held, located ▸ inv.pending i held⟩

/-- A goroutine outside the critical section does not hold the mutex. -/
theorem Serialized.outside (inv : Serialized lib requests start cfg) {i : Nat}
    (out : (cfg.pcs i).holdsLock = false) : cfg.holder ≠ some i := fun held => by
  simpa [out] using (inv.holder_iff i).mpr held

/-- Every step of every goroutine keeps the invariant. -/
theorem Serialized.step (inv : Serialized lib requests start cfg) (i : Nat) :
    Serialized lib requests start (cfg.step lib requests i) := by
  cases pc : cfg.pcs i with
  | parse =>
    have outside := inv.outside (show (cfg.pcs i).holdsLock = false by simp [pc, Pc.holdsLock])
    cases parsed : lib.parseRequestURI (requests i).repoURL with
    | some err =>
      simp only [Config.step, pc, parsed]
      exact inv.linearize (by simp [pc, Pc.result]) (by rfl)
        (eq_of_created (.rejected err parsed))
        (holder_iff_update inv.holder_iff (fun _ _ => Iff.rfl)
          (by simpa [Pc.holdsLock] using outside))
        inv.free inv.pending
    | none =>
      cases holder : cfg.holder with
      | some _ => simpa [Config.step, pc, parsed, holder] using inv
      | none =>
        simp only [Config.step, pc, parsed, holder]
        refine inv.move (by simp [pc, Pc.result])
          (holder_iff_update inv.holder_iff (fun j other => by simp [holder, Ne.symm other])
            (by simp [Pc.holdsLock])) (by simp) fun j held => ?_
        cases held
        rw [Function.update_same]
        exact ⟨parsed, inv.free holder⟩
  | lookup =>
    obtain ⟨held, parsed, same⟩ := inv.inside pc rfl
    cases present : cfg.catalog.repos (lib.url2name (requests i).repoURL) with
    | some repo =>
      simp only [Config.step, pc, present]
      exact inv.holder_move held (by rfl)
        (same ▸ eq_of_created (.found repo parsed (same ▸ present)))
    | none =>
      simp only [Config.step, pc, present]
      exact inv.holder_move held (by rfl) ⟨parsed, same, same ▸ present⟩
  | invoke =>
    obtain ⟨held, parsed, same, absent⟩ := inv.inside pc rfl
    cases answer : cfg.catalog.factory (lib.url2name (requests i).repoURL) (requests i).world with
    | error err =>
      simp only [Config.step, pc, answer]
      exact inv.holder_move held (by rfl)
        (same ▸ eq_of_created (.refused err parsed (same ▸ absent) answer))
    | ok cache =>
      simp only [Config.step, pc, answer]
      exact inv.holder_move held (by rfl) ⟨parsed, same, absent, same ▸ answer⟩
  | store cache =>
    obtain ⟨held, parsed, same, absent, answer⟩ := inv.inside pc rfl
    simp only [Config.step, pc]
    exact inv.holder_move held (by rfl)
      (same ▸ eq_of_created (.stored cache parsed (same ▸ absent) (same ▸ answer)))
  | unlock call =>
    obtain ⟨held, pending⟩ := inv.inside pc rfl
    simp only [Config.step, pc]
    exact inv.linearize (by simp [pc, Pc.result]) (by rfl) pending
      (holder_iff_update inv.holder_iff (fun j other => by simp [held, Ne.symm other])
        (by simp [Pc.holdsLock])) (fun _ => rfl) (fun _ free => by cases free)
  | unlocked call =>
    have outside := inv.outside (show (cfg.pcs i).holdsLock = false by simp [pc, Pc.holdsLock])
    simp only [Config.step, pc]
    refine inv.move (by simp [pc, Pc.result])
      (holder_iff_update inv.holder_iff (fun _ _ => Iff.rfl)
        (by simpa [Pc.holdsLock] using outside)) inv.free fun j held => ?_
    have other : j ≠ i := fun same => outside (same ▸ held)
    simpa [Function.update_noteq other] using inv.pending j held
  | done call => simpa [Config.step, pc] using inv

/-- Every schedule keeps the invariant. -/
theorem Serialized.exec (inv : Serialized lib requests start cfg) (schedule : List Nat) :
    Serialized lib requests start (cfg.exec lib requests schedule) := by
  induction schedule generalizing cfg with
  | nil => exact inv
  | cons i schedule inductionHypothesis => exact inductionHypothesis (inv.step i)

end Invariant

variable (lib requests)

/-- Every configuration a schedule reaches from the first one keeps the
invariant. -/
theorem serialized_exec (start : Catalog World Cache Repo) (schedule : List Nat) :
    Serialized lib requests start ((Config.initial start).exec lib requests schedule) :=
  serialized_initial.exec schedule

/-- Any interleaving of goroutines calling `CreateRepoIfNotExist` on one
catalog. A goroutine is inside the critical section exactly when it holds the
mutex, so at most one is; the goroutines that have passed their linearization
point, their `Unlock` or the rejection of their URL, are listed once each in
the order they passed it, and they are exactly the goroutines with a call;
run alone in that order from the first catalog, their calls are the calls the
goroutines made; and whenever the mutex is free, the catalog is the one that
run ends with. -/
theorem exec_serialized (start : Catalog World Cache Repo) (schedule : List Nat) :
    let cfg := (Config.initial start).exec lib requests schedule
    let order := run lib start (cfg.linearized.map requests)
    (∀ i, (cfg.pcs i).holdsLock = true ↔ cfg.holder = some i) ∧
    (∀ i j, (cfg.pcs i).holdsLock = true → (cfg.pcs j).holdsLock = true → i = j) ∧
    (∀ i, (cfg.pcs i).result.isSome = true ↔ i ∈ cfg.linearized) ∧ cfg.linearized.Nodup ∧
    order.1.map (fun s => some s.call) = cfg.linearized.map (fun i => (cfg.pcs i).result) ∧
    (cfg.holder = none → cfg.catalog = order.2) := by
  have inv := serialized_exec lib requests start schedule
  exact ⟨inv.holder_iff, fun i j inside other => Option.some.inj
      (((inv.holder_iff i).mp inside).symm.trans ((inv.holder_iff j).mp other)),
    inv.result_iff, inv.nodup, inv.calls, inv.free⟩

end Goroutines

end Shipper
