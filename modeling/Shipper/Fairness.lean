import Shipper.Agreement
import Mathlib.Algebra.Order.BigOperators.Group.List
import Mathlib.Algebra.Order.Ring.Nat

/-!
# Every goroutine returns under fair scheduling

Go's mutex promises no order among the goroutines waiting in `Lock`, so a
waiting goroutine can be passed over. It is passed over boundedly often: each
goroutine makes one call, so each can take the mutex ahead of it once.

A schedule is fair in rounds when, in every round, each goroutine of a group
takes a turn and no other goroutine does. The group's outstanding steps, the
sum of their `remaining`, never grow, and every round lowers them unless all
have returned: when its turn comes, the holder of the mutex moves, or with the
mutex free any goroutine still running moves. A goroutine has at most six steps
to make: the URL check with the attempt at `Lock`, the lookup, the call of the
factory, the map write, the deferred `Unlock` and the return. Six rounds a
goroutine are then enough for the whole group to return. They leave the mutex
free, every goroutine of the group with the call it made in the run of the
group's calls in the order they took effect, and the catalog that run leaves.
-/

namespace Shipper

variable {World Cache Repo : Type}

/-- The steps the goroutines of `goroutines` have left at most, summed. -/
def Config.outstanding (cfg : Config World Cache Repo) (goroutines : List Nat) : Nat :=
  (goroutines.map fun i => (cfg.pcs i).remaining).sum

section Measure

variable (lib : Library Cache Repo) (requests : Nat → Request World)

/-- A step leaves the configuration as it was, or moves its goroutine closer
to returning. -/
theorem Config.step_stalled_or_closer (cfg : Config World Cache Repo) (i : Nat) :
    cfg.step lib requests i = cfg ∨
      ((cfg.step lib requests i).pcs i).remaining < (cfg.pcs i).remaining := by
  cases pc : cfg.pcs i <;> simp only [Config.step, pc] <;> (try split) <;> (try split) <;>
    simp [Pc.remaining]

/-- No step moves a goroutine away from returning. -/
theorem Config.step_remaining_le (cfg : Config World Cache Repo) (i j : Nat) :
    ((cfg.step lib requests i).pcs j).remaining ≤ (cfg.pcs j).remaining := by
  by_cases same : j = i
  · subst same
    rcases cfg.step_stalled_or_closer lib requests j with stalled | closer
    · rw [stalled]
    · exact closer.le
  · rw [Config.step_pcs_ne same]

/-- No schedule raises the outstanding steps of a group. -/
theorem Config.outstanding_exec_le (cfg : Config World Cache Repo) (goroutines : List Nat)
    (schedule : List Nat) :
    (cfg.exec lib requests schedule).outstanding goroutines ≤ cfg.outstanding goroutines := by
  induction schedule generalizing cfg with
  | nil => exact Nat.le_refl _
  | cons i schedule inductionHypothesis =>
    exact (inductionHypothesis _).trans
      (List.sum_le_sum fun j _ => cfg.step_remaining_le lib requests i j)

/-- A schedule of goroutines of a group lowers the group's outstanding steps,
unless each of its steps, taken first, leaves the configuration as it was. -/
theorem Config.exec_stalled_or_lower (cfg : Config World Cache Repo)
    {goroutines schedule : List Nat} (within : schedule ⊆ goroutines) :
    (∀ i ∈ schedule, cfg.step lib requests i = cfg) ∨
      (cfg.exec lib requests schedule).outstanding goroutines < cfg.outstanding goroutines := by
  induction schedule generalizing cfg with
  | nil => exact .inl fun _ member => nomatch member
  | cons i schedule inductionHypothesis =>
    obtain ⟨inside, rest⟩ := List.cons_subset.mp within
    rcases cfg.step_stalled_or_closer lib requests i with stalled | closer
    · rcases inductionHypothesis cfg rest with others | lower
      · exact .inl (List.forall_mem_cons.mpr ⟨stalled, others⟩)
      · exact .inr (by rwa [Config.exec, stalled])
    · refine .inr (lt_of_le_of_lt ((cfg.step lib requests i).outstanding_exec_le lib requests
        goroutines schedule) ?_)
      exact List.sum_lt_sum _ _ (fun j _ => cfg.step_remaining_le lib requests i j)
        ⟨i, inside, closer⟩

end Measure

section Rounds

variable {lib : Library Cache Repo} {requests : Nat → Request World}
  {start : Catalog World Cache Repo} {cfg : Config World Cache Repo} {goroutines : List Nat}

/-- A schedule of goroutines of a group gives the mutex to none outside it. -/
theorem Config.exec_holder_mem {schedule : List Nat} (within : schedule ⊆ goroutines)
    (inside : ∀ h, cfg.holder = some h → h ∈ goroutines) :
    ∀ h, (cfg.exec lib requests schedule).holder = some h → h ∈ goroutines := by
  induction schedule generalizing cfg with
  | nil => exact inside
  | cons i schedule inductionHypothesis =>
    obtain ⟨member, rest⟩ := List.cons_subset.mp within
    refine inductionHypothesis rest fun h held => ?_
    rcases Config.step_holder held with rfl | before
    · exact member
    · exact inside h before

/-- A round in which every goroutine of a group takes a turn, and no other,
lowers the group's outstanding steps while one of them is still running. The
goroutine that can move is the holder of the mutex, or with the mutex free the
one still running. -/
theorem Serialized.round_lower (inv : Serialized lib requests start cfg) {round : List Nat}
    (covers : goroutines ⊆ round) (within : round ⊆ goroutines)
    (inside : ∀ h, cfg.holder = some h → h ∈ goroutines)
    (running : ∃ i ∈ goroutines, (cfg.pcs i).returned = none) :
    (cfg.exec lib requests round).outstanding goroutines < cfg.outstanding goroutines := by
  refine (cfg.exec_stalled_or_lower lib requests within).resolve_left fun stalled => ?_
  obtain ⟨i, member, free, stillRunning⟩ : ∃ i ∈ goroutines,
      (cfg.holder = none ∨ cfg.holder = some i) ∧ (cfg.pcs i).returned = none := by
    cases held : cfg.holder with
    | none =>
      obtain ⟨i, member, stillRunning⟩ := running
      exact ⟨i, member, .inl rfl, stillRunning⟩
    | some h =>
      exact ⟨h, inside h held, .inr rfl,
        Pc.returned_of_holdsLock ((inv.holder_iff h).mpr held)⟩
  have closer := (inv.step_alone stillRunning free).1
  rw [stalled i (covers member)] at closer
  exact lt_irrefl _ closer

/-- Fair rounds, as many as the group's outstanding steps, bring every
goroutine of the group to return. -/
theorem Serialized.rounds_return (inv : Serialized lib requests start cfg)
    {rounds : List (List Nat)}
    (fair : ∀ round ∈ rounds, goroutines ⊆ round ∧ round ⊆ goroutines)
    (inside : ∀ h, cfg.holder = some h → h ∈ goroutines)
    (enough : cfg.outstanding goroutines ≤ rounds.length) :
    ∀ i ∈ goroutines,
      ((cfg.exec lib requests rounds.flatten).pcs i).returned.isSome = true := by
  induction rounds generalizing cfg with
  | nil =>
    intro i member
    refine Pc.returned_of_remaining (Nat.le_zero.mp (le_trans ?_ enough))
    exact List.le_sum_of_mem (List.mem_map_of_mem _ member)
  | cons round rounds inductionHypothesis =>
    by_cases running : ∃ i ∈ goroutines, (cfg.pcs i).returned = none
    · obtain ⟨covers, within⟩ := fair round (List.mem_cons_self _ _)
      have lower := inv.round_lower covers within inside running
      rw [List.length_cons] at enough
      rw [List.flatten_cons, Config.exec_append]
      exact inductionHypothesis (inv.exec round)
        (fun later member => fair later (List.mem_cons_of_mem _ member))
        (Config.exec_holder_mem within inside) (by omega)
    · push_neg at running
      intro i member
      obtain ⟨call, returned⟩ := Option.ne_none_iff_exists'.mp (running i member)
      simp [Config.exec_returned_pc returned]

end Rounds

/-- Goroutines calling `CreateRepoIfNotExist` on one catalog, scheduled in
rounds in which each of them takes a turn and no other goroutine does. Six
rounds a goroutine bring every one of them to return. Then they and no other
goroutine have taken effect, the mutex is free, and, in the order the calls
took effect, each goroutine returned the call the run of their requests makes,
and the catalog is the one that run leaves. -/
theorem exec_rounds_return (lib : Library Cache Repo) (requests : Nat → Request World)
    (start : Catalog World Cache Repo) (goroutines : List Nat) (rounds : List (List Nat))
    (fair : ∀ round ∈ rounds, goroutines ⊆ round ∧ round ⊆ goroutines)
    (enough : 6 * goroutines.length ≤ rounds.length) :
    let cfg := (Config.initial start).exec lib requests rounds.flatten
    (∀ i ∈ goroutines, (cfg.pcs i).returned.isSome = true) ∧
    (∀ i, i ∈ cfg.linearized ↔ i ∈ goroutines) ∧ cfg.holder = none ∧
    (run lib start (cfg.linearized.map requests)).1.map (fun s => some s.call) =
      cfg.linearized.map (fun i => (cfg.pcs i).returned) ∧
    cfg.catalog = (run lib start (cfg.linearized.map requests)).2 := by
  intro cfg
  have inv := serialized_exec lib requests start rounds.flatten
  have within : rounds.flatten ⊆ goroutines := fun i member => by
    obtain ⟨round, inRounds, inRound⟩ := List.mem_flatten.mp member
    exact (fair round inRounds).2 inRound
  have inside : ∀ h, cfg.holder = some h → h ∈ goroutines :=
    Config.exec_holder_mem within fun _ held => by cases held
  have initially : (Config.initial start).outstanding goroutines = 6 * goroutines.length := by
    simp [Config.outstanding, Config.initial, Pc.remaining, mul_comm]
  have returned : ∀ i ∈ goroutines, (cfg.pcs i).returned.isSome = true :=
    serialized_initial.rounds_return fair (fun _ held => by cases held) (initially ▸ enough)
  have free : cfg.holder = none := by
    cases held : cfg.holder with
    | none => rfl
    | some h =>
      have holds := (inv.holder_iff h).mpr held
      simpa [Pc.returned_of_holdsLock holds] using returned h (inside h held)
  have settled : ∀ i ∈ goroutines, (cfg.pcs i).result = (cfg.pcs i).returned :=
    fun i member => by
      obtain ⟨call, done⟩ := Option.isSome_iff_exists.mp (returned i member)
      rw [done, Pc.result_of_returned done]
  have linearized : ∀ i, i ∈ cfg.linearized ↔ i ∈ goroutines := fun i => by
    obtain ⟨extra, grown, scheduled⟩ := Config.exec_linearized lib requests
      (Config.initial start) rounds.flatten
    refine ⟨fun member => ?_, fun member => (inv.result_iff i).mp ?_⟩
    · rw [show cfg.linearized = [] ++ extra from grown, List.nil_append] at member
      exact within (scheduled member)
    · rw [settled i member]
      exact returned i member
  exact ⟨returned, linearized, free, inv.calls.trans (List.map_congr_left fun i member =>
    settled i ((linearized i).mp member)), inv.free free⟩

/-- Two goroutines asking for one chart repository, taking turns for twelve
rounds. -/
theorem exec_rounds_return_alternating :
    let cfg := (Config.initial (newCatalog chartsFactory)).exec chartsLibrary chartsRequests
      (List.replicate 12 [0, 1]).flatten
    (∀ round ∈ List.replicate 12 [0, 1], [0, 1] ⊆ round ∧ round ⊆ [0, 1]) ∧
    6 * [0, 1].length ≤ (List.replicate 12 [0, 1]).length ∧
    (∀ i ∈ [0, 1], (cfg.pcs i).returned.isSome = true) ∧
    (∀ i, i ∈ cfg.linearized ↔ i ∈ [0, 1]) ∧ cfg.holder = none ∧
    (run chartsLibrary (newCatalog chartsFactory)
      (cfg.linearized.map chartsRequests)).1.map (fun s => some s.call) =
      cfg.linearized.map (fun i => (cfg.pcs i).returned) ∧
    cfg.catalog = (run chartsLibrary (newCatalog chartsFactory)
      (cfg.linearized.map chartsRequests)).2 := by
  intro cfg
  have fair : ∀ round ∈ List.replicate 12 [0, 1], [0, 1] ⊆ round ∧ round ⊆ [0, 1] := by
    decide
  have enough : 6 * [0, 1].length ≤ (List.replicate 12 [0, 1]).length := by decide
  exact ⟨fair, enough, exec_rounds_return chartsLibrary chartsRequests (newCatalog chartsFactory)
    [0, 1] (List.replicate 12 [0, 1]) fair enough⟩

end Shipper
