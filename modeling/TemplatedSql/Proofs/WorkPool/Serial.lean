import TemplatedSql.Proofs.WorkPool.Account

/-!
# A single worker

One worker executes the items in their order, up to the first that fails.
-/

namespace TemplatedSql

/-- The item that a worker has taken and not yet executed or skipped, as a list. -/
def Worker.taken {α ε : Type} : Worker α ε → List α
  | checking a | running a => [a]
  | idle | failing _ | stopped => []

namespace WorkPool

variable {α ρ ε : Type} {f : α → ρ} {failure : ρ → Option ε} {i : Nat} {items : List α}
  {p q : WorkPool α ρ ε}

/-- How far one worker has come: `before` are the items that it executed without an error. -/
inductive Serial (f : α → ρ) (failure : ρ → Option ε) (items : List α) (p : WorkPool α ρ ε) : Prop
  | going (before : List α) {w : Worker α ε} (worker : p.workers = [w]) (alive : w.error? = none)
      (left : w.isStopped = true → p.queue = []) (order : before ++ w.taken ++ p.queue = items)
      (succeeded : ∀ a ∈ before, failure (f a) = none) (executed : p.executed = results f before)
      (skipped : p.skipped = []) (error : p.error = none)
  | failed {before : List α} {a : α} {e : ε} {w : Worker α ε} (worker : p.workers = [w])
      (state : w = .failing e ∧ p.error = none ∨ w = .stopped ∧ p.error = some e)
      (order : before ++ a :: p.queue = items) (succeeded : ∀ b ∈ before, failure (f b) = none)
      (failure : failure (f a) = some e) (executed : p.executed = results f (before ++ [a]))
      (skipped : p.skipped = [])

theorem Serial.start {asked : Nat} (hasked : asked ≤ 1) (h : items ≠ []) :
    Serial f failure items (WorkPool.start asked items) := by
  have hlength : min (threads asked) items.length = 1 := by
    have := List.length_pos_of_ne_nil h
    simp only [threads]
    omega
  have hworkers : (WorkPool.start asked items : WorkPool α ρ ε).workers = [.idle] := by
    rw [WorkPool.start, hlength]
    rfl
  exact .going [] hworkers rfl (absurd · Bool.false_ne_true) (List.nil_append items) (List.forall_mem_nil _) rfl rfl rfl

theorem Serial.steps (s : Serial f failure items p) (h : Steps f failure i p q) :
    Serial f failure items q := by
  have only {w v : Worker α ε} (hw : p.workers = [w]) (hi : p.workers[i]? = some v) : i = 0 ∧ v = w := by
    rw [hw, List.getElem?_singleton] at hi
    split at hi
    · next h0 => exact ⟨h0, (Option.some.inj hi).symm⟩
    · cases hi
  have set {w v : Worker α ε} (hw : p.workers = [w]) (hi : i = 0) : p.workers.set i v = [v] := by
    rw [hw, hi]
    rfl
  cases s with
  | @going before w worker alive left order succeeded executed skipped error =>
    cases h with
    | leave h hq =>
      obtain ⟨hi, rfl⟩ := only worker h
      exact .going before (set worker hi) rfl (fun _ => hq) order succeeded executed skipped error
    | @take a queue h hq =>
      obtain ⟨hi, rfl⟩ := only worker h
      refine .going before (set worker hi) rfl (absurd · Bool.false_ne_true) ?_ succeeded executed skipped error
      simpa [Worker.taken, setWorker, hq] using order
    | skip h he =>
      rw [error] at he
      cases he
    | begin h he =>
      obtain ⟨hi, rfl⟩ := only worker h
      exact .going before (set worker hi) rfl (absurd · Bool.false_ne_true) order succeeded executed skipped error
    | @done a h hf =>
      obtain ⟨hi, rfl⟩ := only worker h
      refine .going (before ++ [a]) (set worker hi) rfl (absurd · Bool.false_ne_true) ?_ ?_ ?_ skipped error
      · simpa [Worker.taken, setWorker] using order
      · simpa [or_imp, forall_and, hf] using succeeded
      · simp [setWorker, executed, results]
    | @fail a e h hf =>
      obtain ⟨hi, rfl⟩ := only worker h
      refine .failed (set worker hi) (.inl ⟨rfl, error⟩) ?_ succeeded hf ?_ skipped
      · simpa [Worker.taken, setWorker] using order
      · simp [setWorker, executed, results]
    | record h =>
      obtain ⟨hi, rfl⟩ := only worker h
      cases alive
  | failed worker state order succeeded hf executed skipped =>
    rcases state with ⟨rfl, herror⟩ | ⟨rfl, herror⟩
    · cases h with
      | record h =>
        obtain ⟨hi, hw⟩ := only worker h
        cases hw
        exact .failed (set worker hi) (.inr ⟨rfl, by simp [setWorker, herror]⟩) order succeeded hf executed skipped
      | leave h | take h | skip h | begin h | done h | fail h => cases (only worker h).2
    · obtain ⟨v, hi, hv⟩ := h.exists_worker
      obtain ⟨-, rfl⟩ := only worker hi
      cases hv

/-- With one worker, either no item fails and all are executed in their order, or the items are executed up to
the first that fails, and no others. -/
theorem run_serial {asked : Nat} (hasked : asked ≤ 1) (f : α → ρ) (failure : ρ → Option ε)
    (schedule : Nat → Nat) (items : List α) :
    ((∀ a ∈ items, failure (f a) = none) ∧
      run f failure asked schedule items = ⟨results f items, [], none⟩) ∨
    ∃ before a later e, items = before ++ a :: later ∧ (∀ b ∈ before, failure (f b) = none) ∧
      failure (f a) = some e ∧
      run f failure asked schedule items = ⟨results f (before ++ [a]), later, some e⟩ := by
  obtain ⟨time, hrun, hended⟩ := exists_ended f failure asked schedule items
  by_cases hitems : items = []
  · subst hitems
    refine .inl ⟨List.forall_mem_nil _, ?_⟩
    have herror : (after f failure schedule (start asked []) time).error = none := by
      simpa using hended.error_isSome_iff
    have hnil := hended.perm.eq_nil
    rw [List.append_eq_nil_iff, List.map_eq_nil_iff] at hnil
    rw [hrun, outcome, herror]
    exact congrArg₂ (Outcome.mk · · none) hnil.1 hnil.2
  have hserial : Serial f failure items (after f failure schedule (start asked items) time) :=
    after_induction (.start hasked hitems) (fun i q r ih h => ih.steps h) schedule time
  rw [hrun]
  cases hserial with
  | @going before w worker alive left order succeeded executed skipped error =>
    have hstopped := hended.stopped w (by simp [worker])
    obtain rfl : before = items := by
      cases w with
      | stopped => simpa [Worker.taken, left rfl] using order
      | idle | checking | running | failing => cases hstopped
    exact .inl ⟨succeeded, by simp [outcome, executed, skipped, error, left hstopped]⟩
  | @failed before a e w worker state order succeeded hf executed skipped =>
    refine .inr ⟨before, a, _, e, order.symm, succeeded, hf, ?_⟩
    rcases state with ⟨rfl, -⟩ | ⟨-, error⟩
    · cases hended.stopped (.failing e) (by simp [worker])
    · simp [outcome, executed, skipped, error]

end WorkPool

end TemplatedSql
