import Shipper.Mutex

/-!
# Every call can return

`CreateRepoIfNotExist` releases the mutex on every path through its critical
section, the factory's error included, by its deferred `Unlock`. No goroutine
is left waiting in `Lock` for good: from every configuration a schedule
reaches, any goroutine returns within ten more steps, at most four for the
holder of the mutex to reach its `Unlock` and six for the goroutine's own
call.
-/

namespace Shipper

variable {World Cache Repo : Type}

/-- The most steps a goroutine that is never blocked needs to return from this
point: the longest path from it to the end of `CreateRepoIfNotExist`. -/
def Pc.remaining : Pc Cache Repo → Nat
  | .parse => 6
  | .lookup => 5
  | .invoke => 4
  | .store _ => 3
  | .unlock _ => 2
  | .unlocked _ => 1
  | .done _ => 0

/-- No goroutine is more than six steps from returning. -/
theorem Pc.remaining_le_six (pc : Pc Cache Repo) : pc.remaining ≤ 6 := by
  cases pc <;> simp [Pc.remaining]

/-- The holder of the mutex is two to five steps from returning, the last of
them after its `Unlock`. -/
theorem Pc.remaining_of_holdsLock {pc : Pc Cache Repo} (holds : pc.holdsLock = true) :
    2 ≤ pc.remaining ∧ pc.remaining ≤ 5 := by
  cases pc <;> simp_all [Pc.remaining, Pc.holdsLock]

/-- A goroutine that has returned has no step left. -/
theorem Pc.remaining_of_returned {pc : Pc Cache Repo} {call : Call Cache Repo}
    (returned : pc.returned = some call) : pc.remaining = 0 := by
  cases pc <;> simp_all [Pc.remaining, Pc.returned]

/-- A goroutine with no step left has returned. -/
theorem Pc.returned_of_remaining {pc : Pc Cache Repo} (zero : pc.remaining = 0) :
    pc.returned.isSome = true := by
  cases pc <;> simp_all [Pc.remaining, Pc.returned]

/-- Two schedules one after the other are their concatenation. -/
theorem Config.exec_append (lib : Library Cache Repo) (requests : Nat → Request World)
    (cfg : Config World Cache Repo) (first second : List Nat) :
    cfg.exec lib requests (first ++ second) =
      (cfg.exec lib requests first).exec lib requests second := by
  induction first generalizing cfg with
  | nil => rfl
  | cons i first inductionHypothesis => exact inductionHypothesis _

section Alone

variable {lib : Library Cache Repo} {requests : Nat → Request World}
  {start : Catalog World Cache Repo} {cfg : Config World Cache Repo}

/-- A goroutine that has returned does not move. -/
theorem Config.step_of_returned {i : Nat} (returned : (cfg.pcs i).returned.isSome = true) :
    cfg.step lib requests i = cfg := by
  cases pc : cfg.pcs i <;> simp_all [Config.step, Pc.returned]

/-- A goroutine that has not returned, with the mutex free or its own, moves
one step closer to returning and takes the mutex, if at all, for itself. -/
theorem Serialized.step_alone (inv : Serialized lib requests start cfg) {i : Nat}
    (running : (cfg.pcs i).returned = none) (free : cfg.holder = none ∨ cfg.holder = some i) :
    ((cfg.step lib requests i).pcs i).remaining < (cfg.pcs i).remaining ∧
      ((cfg.step lib requests i).holder = none ∨
        (cfg.step lib requests i).holder = some i) := by
  cases pc : cfg.pcs i with
  | done => simp [pc, Pc.returned] at running
  | parse =>
    have unheld : cfg.holder = none :=
      free.resolve_right (inv.outside (by simp [pc, Pc.holdsLock]))
    simp only [Config.step, pc]
    split <;> simp [unheld, Pc.remaining]
  | _ =>
    simp only [Config.step, pc]
    (try split) <;> simp [Pc.remaining, free]

/-- A goroutine run alone, with the mutex free or its own, comes one step
closer to returning at each of its steps until it returns, and the mutex is
then free or its own. -/
theorem Serialized.run_alone (inv : Serialized lib requests start cfg) {i : Nat}
    (free : cfg.holder = none ∨ cfg.holder = some i) (steps : Nat) :
    ((cfg.exec lib requests (List.replicate steps i)).pcs i).remaining ≤
        (cfg.pcs i).remaining - steps ∧
      ((cfg.exec lib requests (List.replicate steps i)).holder = none ∨
        (cfg.exec lib requests (List.replicate steps i)).holder = some i) := by
  induction steps generalizing cfg with
  | zero => exact ⟨Nat.le_refl _, free⟩
  | succ steps inductionHypothesis =>
    rw [List.replicate_succ]
    cases returned : (cfg.pcs i).returned with
    | some call =>
      rw [Config.exec, Config.step_of_returned (by simp [returned])]
      have finished := Pc.remaining_of_returned returned
      have later := inductionHypothesis inv free
      exact ⟨by omega, later.2⟩
    | none =>
      obtain ⟨closer, stillFree⟩ := inv.step_alone returned free
      have later := inductionHypothesis (inv.step i) stillFree
      rw [Config.exec]
      exact ⟨by omega, later.2⟩

end Alone

/-- No goroutine waits for good. From every configuration a schedule reaches,
any goroutine returns within ten more steps: the holder of the mutex, if it is
another goroutine, runs to its `Unlock`, and the goroutine then makes its own
call. -/
theorem exec_returns (lib : Library Cache Repo) (requests : Nat → Request World)
    (start : Catalog World Cache Repo) (schedule : List Nat) (i : Nat) :
    ∃ more : List Nat, more.length ≤ 10 ∧
      (((Config.initial start).exec lib requests (schedule ++ more)).pcs i).returned.isSome =
        true := by
  have inv := serialized_exec lib requests start schedule
  simp only [Config.exec_append]
  generalize (Config.initial start).exec lib requests schedule = cfg at inv ⊢
  obtain ⟨first, short, cleared⟩ : ∃ first : List Nat, first.length ≤ 4 ∧
      ((cfg.exec lib requests first).holder = none ∨
        (cfg.exec lib requests first).holder = some i) := by
    cases held : cfg.holder with
    | none => exact ⟨[], by simp, .inl held⟩
    | some h =>
      by_cases same : h = i
      · exact ⟨[], by simp, .inr (same ▸ held)⟩
      have bounds := Pc.remaining_of_holdsLock ((inv.holder_iff h).mpr held)
      obtain ⟨near, holder⟩ := inv.run_alone (.inr held) ((cfg.pcs h).remaining - 1)
      refine ⟨List.replicate ((cfg.pcs h).remaining - 1) h, by simp; omega, .inl ?_⟩
      refine holder.resolve_right fun stillHeld => ?_
      have stillBounds := Pc.remaining_of_holdsLock (((inv.exec _).holder_iff h).mpr stillHeld)
      omega
  obtain ⟨near, -⟩ :=
    (inv.exec first).run_alone cleared ((cfg.exec lib requests first).pcs i).remaining
  refine ⟨first ++ List.replicate ((cfg.exec lib requests first).pcs i).remaining i, ?_, ?_⟩
  · have bounded := Pc.remaining_le_six ((cfg.exec lib requests first).pcs i)
    simp only [List.length_append, List.length_replicate]
    omega
  · rw [Config.exec_append]
    exact Pc.returned_of_remaining (by omega)

end Shipper
