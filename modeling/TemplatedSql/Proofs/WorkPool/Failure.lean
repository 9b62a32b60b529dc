import TemplatedSql.Proofs.WorkPool.Serial

/-!
# After the first error

An error that is recorded stays. From then on whoever looks before executing an item skips it, so what is still
executed was being executed already. The worker that recorded the error has stopped; of the others each finishes
at most one item more. A worker whose item fails takes no other, so no more items fail than there are workers.
-/

namespace TemplatedSql

/-- The item that a worker executes. -/
def Worker.executing {α ε : Type} : Worker α ε → Multiset α
  | running a => {a}
  | _ => 0

/-- Counts a worker that takes no item any more. -/
def Worker.done {α ε : Type} : Worker α ε → Nat
  | failing _ | stopped => 1
  | _ => 0

namespace WorkPool

variable {α ρ ε : Type} {f : α → ρ} {failure : ρ → Option ε} {i : Nat} {p q r : WorkPool α ρ ε}

/-! ## What the workers do -/

/-- The items that are being executed. -/
def inExecution (p : WorkPool α ρ ε) : Multiset α :=
  (p.workers.map Worker.executing).sum

/-- How many workers take no item any more. -/
def finished (p : WorkPool α ρ ε) : Nat :=
  (p.workers.map Worker.done).sum

/-- No worker executes an item and takes none any more. -/
theorem card_inExecution_add_finished_le (p : WorkPool α ρ ε) :
    p.inExecution.card + p.finished ≤ p.workers.length := by
  unfold inExecution finished
  induction p.workers with
  | nil => exact le_rfl
  | cons w ws ih =>
    have hw : w.executing.card + w.done ≤ 1 := by
      cases w <;> simp [Worker.executing, Worker.done]
    simp only [List.map_cons, List.sum_cons, Multiset.card_add, List.length_cons]
    omega

theorem finished_pos (h : .stopped ∈ p.workers) : 0 < p.finished := by
  obtain ⟨before, after, hworkers⟩ := List.append_of_mem h
  rw [finished, hworkers, List.map_append, List.map_cons, List.sum_append, List.sum_cons, Worker.done]
  omega

/-! ## Pools with an error -/

/-- What holds of a pool with an error and of a later one: no worker began to execute an item in between. -/
structure Drains (p q : WorkPool α ρ ε) : Prop where
  error : q.error = p.error
  unbegun : ∀ (i : Nat) a, q.workers[i]? = some (.running a) → p.workers[i]? = some (.running a)
  executed : ∃ more, q.executed = p.executed ++ more ∧ (more.map Prod.fst : List α) + q.inExecution = p.inExecution

namespace Drains

theorem refl (p : WorkPool α ρ ε) : Drains p p where
  error := rfl
  unbegun _ _ h := h
  executed := ⟨[], (List.append_nil _).symm, zero_add _⟩

theorem trans (h₁ : Drains p q) (h₂ : Drains q r) : Drains p r where
  error := h₂.error.trans h₁.error
  unbegun i a h := h₁.unbegun i a (h₂.unbegun i a h)
  executed := by
    obtain ⟨more, hq, hmore⟩ := h₁.executed
    obtain ⟨rest, hr, hrest⟩ := h₂.executed
    refine ⟨more ++ rest, by rw [hr, hq, List.append_assoc], ?_⟩
    rw [List.map_append, ← Multiset.coe_add, add_assoc, hrest, hmore]

/-- A worker goes on without beginning to execute an item; only if it was executing one can that be finished. -/
theorem of_set {v w : Worker α ε} (h : p.workers[i]? = some v) (hworkers : q.workers = p.workers.set i w)
    (hw : w.executing = 0) (herror : q.error = p.error) {more : List (α × ρ)}
    (hexecuted : q.executed = p.executed ++ more) (hmore : (more.map Prod.fst : List α) = v.executing) :
    Drains p q where
  error := herror
  unbegun j a hj := by
    rw [hworkers, List.getElem?_set] at hj
    split at hj
    · split at hj
      · cases hj
        exact absurd hw (Multiset.singleton_ne_zero a)
      · cases hj
    · exact hj
  executed := by
    refine ⟨more, hexecuted, ?_⟩
    have := sum_map_set Worker.executing w h
    rw [hw, add_zero] at this
    rw [hmore, inExecution, inExecution, hworkers, add_comm, this]

end Drains

theorem Steps.drains (h : Steps f failure i p q) (he : p.error.isSome) : Drains p q := by
  obtain ⟨e, he⟩ := Option.isSome_iff_exists.mp he
  cases h with
  | leave h | take h | skip h => exact .of_set h rfl rfl rfl (List.append_nil _).symm rfl
  | begin h hnone =>
    rw [he] at hnone
    cases hnone
  | done h | fail h => exact .of_set h rfl rfl rfl rfl rfl
  | record h => exact .of_set h rfl rfl (by simp [setWorker, he]) (List.append_nil _).symm rfl

section
variable {schedule : Nat → Nat} {time later : Nat}

theorem drains_after (hle : time ≤ later) (he : (after f failure schedule p time).error.isSome) :
    Drains (after f failure schedule p time) (after f failure schedule p later) :=
  after_induction_from hle (.refl _) fun _ _ _ hdrains hstep =>
    hdrains.trans (hstep.drains (by rwa [hdrains.error]))

end

/-! ## Workers that take no item any more -/

/-- The executed items that failed. -/
def failures (failure : ρ → Option ε) (p : WorkPool α ρ ε) : Nat :=
  p.executed.countP fun x => (failure x.2).isSome

/-- Each failure costs a worker, the first that is recorded too. -/
structure Paid (failure : ρ → Option ε) (p : WorkPool α ρ ε) : Prop where
  failures : p.failures failure ≤ p.finished
  recorded : p.error.isSome → .stopped ∈ p.workers

theorem Paid.start (asked : Nat) (items : List α) : Paid failure (WorkPool.start asked items : WorkPool α ρ ε) where
  failures := Nat.zero_le _
  recorded h := by cases h

/-- A worker that has not stopped goes on. -/
theorem Paid.of_set (c : Paid failure p) {v w : Worker α ε} (h : p.workers[i]? = some v) (hv : v ≠ .stopped)
    (hworkers : q.workers = p.workers.set i w)
    (hfailures : q.failures failure + v.done ≤ p.failures failure + w.done)
    (hrecorded : q.error = p.error ∨ w = .stopped) : Paid failure q where
  failures := by
    have hfinished : q.finished + v.done = p.finished + w.done := by
      rw [finished, finished, hworkers]
      exact sum_map_set Worker.done w h
    have := c.failures
    omega
  recorded he := by
    rw [hworkers]
    rcases hrecorded with herror | rfl
    · exact mem_setWorker_of_ne w h hv (c.recorded (herror ▸ he))
    · exact self_mem_setWorker h

theorem Paid.steps (c : Paid failure p) (h : Steps f failure i p q) : Paid failure q := by
  have hsucc {a : α} {w : Worker α ε} (b : Bool) (hb : (failure (f a)).isSome = b) :
      ({ p with executed := p.executed ++ [(a, f a)] }.setWorker i w).failures failure =
        p.failures failure + b.toNat := by
    simp only [WorkPool.failures, setWorker, List.countP_append, List.countP_singleton, hb]
    cases b <;> rfl
  cases h with
  | leave h => exact c.of_set h (by simp) rfl (Nat.le_succ _) (.inr rfl)
  | take h | skip h | begin h => exact c.of_set h (by simp) rfl le_rfl (.inl rfl)
  | done h hf => exact c.of_set h (by simp) rfl (hsucc false (by rw [hf]; rfl)).le (.inl rfl)
  | fail h hf => exact c.of_set h (by simp) rfl (hsucc true (by rw [hf]; rfl)).le (.inl rfl)
  | record h => exact c.of_set h (by simp) rfl le_rfl (.inr rfl)

section
variable {asked : Nat} {items : List α} {schedule : Nat → Nat} {time : Nat}

theorem length_workers_after :
    (after f failure schedule (start asked items) time).workers.length = min (threads asked) items.length :=
  after_induction (by simp [start]) (fun _ _ _ ih h => h.length_workers.trans ih) schedule time

theorem paid_after : Paid failure (after f failure schedule (start asked items) time) :=
  after_induction (.start asked items) (fun _ _ _ ih h => ih.steps h) schedule time

/-- Once an error is recorded, one worker at least has stopped. -/
theorem card_inExecution_after (he : (after f failure schedule (start asked items) time).error.isSome) :
    (after f failure schedule (start asked items) time).inExecution.card ≤ threads asked - 1 := by
  have hpos := finished_pos (paid_after.recorded he)
  have hle := card_inExecution_add_finished_le (after f failure schedule (start asked items) time)
  rw [length_workers_after] at hle
  omega

end

/-! ## Runs -/

/-- What a run gives is what there is from some point of time on. -/
theorem exists_outcome_after (f : α → ρ) (failure : ρ → Option ε) (asked : Nat) (schedule : Nat → Nat)
    (items : List α) : ∃ last, ∀ later, last ≤ later →
      run f failure asked schedule items = (after f failure schedule (start asked items) later).outcome := by
  obtain ⟨last, hfinish, hactive⟩ := exists_finish_eq_after f failure schedule (start asked items)
  refine ⟨last, fun later hle => ?_⟩
  rw [after_eq_of_active_eq_nil hle hactive, run, hfinish]

/-- Only the number of workers matters, not how many threads were asked for. -/
theorem run_congr {asked asked' : Nat} {items : List α} {schedule : Nat → Nat}
    (h : min (threads asked) items.length = min (threads asked') items.length) :
    run f failure asked schedule items = run f failure asked' schedule items := by
  rw [run, run, start, start, h]

/-- Whatever the number of threads, the items, the failing ones among them and the schedule are, an error once
recorded is the error of the run, no worker begins to execute an item after it, and what is still finished was in
execution then: at most one item for each other worker. At most as many executed items fail as there are threads. A
single worker executes the items in their order up to the first that fails, and skips all after it. -/
theorem no_work_after_error (f : α → ρ) (failure : ρ → Option ε) (asked : Nat) (schedule : Nat → Nat)
    (items : List α) :
    let o := run f failure asked schedule items
    let pool := after f failure schedule (start asked items)
    (∀ time e, (pool time).error = some e →
      (∀ later, time ≤ later → (pool later).error = some e ∧ ∀ (i : Nat) a,
        (pool later).workers[i]? = some (.running a) → (pool time).workers[i]? = some (.running a)) ∧
      o.error = some e ∧ ∃ more, o.executed = (pool time).executed ++ more ∧
        (more.map Prod.fst : List α) ≤ (pool time).inExecution ∧ more.length ≤ threads asked - 1) ∧
    o.executed.countP (fun x => (failure x.2).isSome) ≤ threads asked ∧
    (min (threads asked) items.length ≤ 1 →
      (∀ a ∈ items, failure (f a) = none) ∧ o = ⟨results f items, [], none⟩ ∨
      ∃ before a later e, items = before ++ a :: later ∧ (∀ b ∈ before, failure (f b) = none) ∧
        failure (f a) = some e ∧ o = ⟨results f (before ++ [a]), later, some e⟩) := by
  intro o pool
  obtain ⟨last, hlast⟩ := exists_outcome_after f failure asked schedule items
  refine ⟨fun time e he => ?_, ?_, fun hone => ?_⟩
  · have hsome : (pool time).error.isSome := by
      rw [he]
      rfl
    have ho : o = (pool (max time last)).outcome := hlast _ (le_max_right time last)
    have hend := drains_after (le_max_left time last) hsome
    obtain ⟨more, hmore, hsum⟩ := hend.executed
    have hsub : (more.map Prod.fst : List α) ≤ (pool time).inExecution := hsum ▸ Multiset.le_add_right _ _
    refine ⟨fun later hlater => ?_, ?_, more, ?_, hsub, ?_⟩
    · have hdrains := drains_after hlater hsome
      exact ⟨hdrains.error.trans he, hdrains.unbegun⟩
    · rw [ho]
      exact hend.error.trans he
    · rw [ho]
      exact hmore
    · have hcard := Multiset.card_le_card hsub
      rw [Multiset.coe_card, List.length_map] at hcard
      exact hcard.trans (card_inExecution_after hsome)
  · have hpaid : Paid failure (pool last) := paid_after
    have hlength : (pool last).workers.length = min (threads asked) items.length := length_workers_after
    have hworkers : (pool last).finished ≤ (pool last).workers.length :=
      (Nat.le_add_left _ _).trans (card_inExecution_add_finished_le _)
    have ho : o = (pool last).outcome := hlast last le_rfl
    rw [ho]
    exact hpaid.failures.trans (hworkers.trans (hlength.le.trans (min_le_left _ _)))
  · have hmin : min (threads asked) items.length = min (threads 1) items.length := by
      simp only [threads] at hone ⊢
      omega
    have ho : o = run f failure 1 schedule items := run_congr hmin
    rw [ho]
    exact run_serial le_rfl f failure schedule items

/-- Two workers that both execute a failing item: the second is finished after the error of the first has been
recorded. -/
theorem no_work_after_error_of_two :
    let f : Nat → Except Nat Unit := .error
    let schedule : Nat → Nat := fun time => if time = 1 ∨ time = 3 then 1 else 0
    let pool := after f WorkPool.failure schedule (start 2 [1, 2, 3])
    let o := run f WorkPool.failure 2 schedule [1, 2, 3]
    (pool 6).error = some 1 ∧ (pool 6).executed = [(1, .error 1)] ∧ (pool 6).inExecution = {2} ∧
      o.executed = [(1, .error 1), (2, .error 2)] ∧
      ∃ more, o.executed = (pool 6).executed ++ more ∧ (more.map Prod.fst : List Nat) ≤ ({2} : Multiset Nat) ∧
        more.length ≤ 1 := by
  intro f schedule pool o
  have he : (pool 6).error = some 1 := by decide +kernel
  have hexecuted : (pool 6).executed = [(1, .error 1)] := by decide +kernel
  have hin : (pool 6).inExecution = {2} := by decide +kernel
  have ho : o.executed = [(1, .error 1), (2, .error 2)] := by decide +kernel
  obtain ⟨-, -, hmore⟩ := (no_work_after_error f WorkPool.failure 2 schedule [1, 2, 3]).1 6 1 he
  exact ⟨he, hexecuted, hin, ho, hin ▸ hmore⟩

end WorkPool

end TemplatedSql
