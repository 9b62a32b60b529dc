import Mathlib.Data.List.Basic
import TemplatedSql.WorkPool

/-!
# Steps of a worker pool

What a step of a worker can be, and how a pool goes on from one point of time to the next until all workers
have stopped. Every sequence of steps is the one of some schedule, so what holds for every schedule holds
for every interleaving of the workers.
-/

namespace TemplatedSql

/-- The error that a worker has to record. -/
def Worker.error? {α ε : Type} : Worker α ε → Option ε
  | failing e => some e
  | _ => none

namespace WorkPool

variable {α ρ ε : Type} {f : α → ρ} {failure : ρ → Option ε} {i : Nat} {p q : WorkPool α ρ ε}

/-- What a worker that has not stopped can do, with the pool it leaves behind. -/
inductive Steps (f : α → ρ) (failure : ρ → Option ε) (i : Nat) (p : WorkPool α ρ ε) :
    WorkPool α ρ ε → Prop
  | leave : p.workers[i]? = some .idle → p.queue = [] → Steps f failure i p (p.setWorker i .stopped)
  | take {a queue} : p.workers[i]? = some .idle → p.queue = a :: queue →
      Steps f failure i p ({ p with queue }.setWorker i (.checking a))
  | skip {a} : p.workers[i]? = some (.checking a) → p.error.isSome →
      Steps f failure i p ({ p with skipped := p.skipped ++ [a] }.setWorker i .idle)
  | begin {a} : p.workers[i]? = some (.checking a) → p.error = none →
      Steps f failure i p (p.setWorker i (.running a))
  | done {a} : p.workers[i]? = some (.running a) → failure (f a) = none →
      Steps f failure i p ({ p with executed := p.executed ++ [(a, f a)] }.setWorker i .idle)
  | fail {a e} : p.workers[i]? = some (.running a) → failure (f a) = some e →
      Steps f failure i p ({ p with executed := p.executed ++ [(a, f a)] }.setWorker i (.failing e))
  | record {e} : p.workers[i]? = some (.failing e) →
      Steps f failure i p ({ p with error := p.error <|> some e }.setWorker i .stopped)

theorem steps_step {w : Worker α ε} (h : p.workers[i]? = some w) (hw : w.isStopped = false) :
    Steps f failure i p (p.step f failure i) := by
  cases w with
  | stopped => cases hw
  | idle =>
    rw [step, h]
    cases hq : p.queue with
    | nil => exact .leave h hq
    | cons a queue => exact .take h hq
  | checking a =>
    simp only [step, h]
    split
    · next he => exact .skip h he
    · next he => exact .begin h (by simpa using he)
  | running a =>
    simp only [step, h]
    split
    · next hf => exact .done h hf
    · next e hf => exact .fail h hf
  | failing e =>
    rw [step, h]
    exact .record h

theorem Steps.length_workers (h : Steps f failure i p q) : q.workers.length = p.workers.length := by
  cases h <;> exact List.length_set

/-- Whoever is among the workers after a step of one of them was so before, or is the one that went on. -/
theorem mem_setWorker {w v : Worker α ε} (h : v ∈ (p.setWorker i w).workers) : v ∈ p.workers ∨ v = w :=
  List.mem_or_eq_of_mem_set h

theorem self_mem_setWorker {w v : Worker α ε} (h : p.workers[i]? = some v) :
    w ∈ (p.setWorker i w).workers :=
  List.mem_set (List.getElem?_eq_some_iff.mp h).1 w

/-- Whoever does not go on stays among the workers. -/
theorem mem_setWorker_of_ne {u v : Worker α ε} (w : Worker α ε) (h : p.workers[i]? = some v) (hne : v ≠ u)
    (hu : u ∈ p.workers) : u ∈ (p.setWorker i w).workers := by
  obtain ⟨j, hj⟩ := List.mem_iff_getElem?.mp hu
  have hij : i ≠ j := by
    rintro rfl
    exact hne (Option.some.inj (h.symm.trans hj))
  exact List.mem_iff_getElem?.mpr ⟨j, (List.getElem?_set_ne hij).trans hj⟩

/-! ## Points of time -/

theorem next?_eq_none_iff {choice : Nat} : p.next? choice = none ↔ p.active = [] := by
  rw [next?, List.getElem?_eq_none_iff, ← List.length_eq_zero_iff]
  constructor
  · intro h
    by_contra hpos
    have := Nat.mod_lt choice (Nat.pos_of_ne_zero hpos)
    omega
  · intro h
    rw [h]
    exact Nat.zero_le _

/-- Each worker that has not stopped can be chosen. -/
theorem exists_next? {w : Worker α ε} (h : p.workers[i]? = some w) (hw : w.isStopped = false) :
    ∃ choice, p.next? choice = some i := by
  have hi : i ∈ p.active := by
    refine List.mem_filter.mpr ⟨List.mem_range.mpr (List.getElem?_eq_some_iff.mp h).1, ?_⟩
    rw [h]
    simpa using hw
  obtain ⟨n, hn, hget⟩ := List.getElem_of_mem hi
  refine ⟨n, ?_⟩
  rw [next?, Nat.mod_eq_of_lt hn, List.getElem?_eq_getElem hn, hget]

theorem isStopped_of_active_eq_nil (h : p.active = []) {w : Worker α ε} (hw : w ∈ p.workers) :
    w.isStopped = true := by
  obtain ⟨i, hi, rfl⟩ := List.getElem_of_mem hw
  by_contra hs
  obtain ⟨choice, hc⟩ :=
    exists_next? (List.getElem?_eq_getElem hi) (by simpa using hs)
  rw [next?_eq_none_iff.mpr h] at hc
  cases hc

section
variable (f : α → ρ) (failure : ρ → Option ε) (schedule : Nat → Nat) (p : WorkPool α ρ ε)

/-- The pool at a point of time. -/
def after : Nat → WorkPool α ρ ε
  | 0 => p
  | time + 1 =>
    let q := after time
    match q.next? (schedule time) with
    | none => q
    | some i => q.step f failure i

/-- The error that the worker whose turn it is has to record at a point of time. -/
def recording? (time : Nat) : Option ε :=
  let q := after f failure schedule p time
  (q.next? (schedule time)).bind fun i => q.workers[i]?.bind Worker.error?

end

section
variable {schedule : Nat → Nat} {time : Nat}

/-- From one point of time to the next, either a worker makes a step, or all have stopped. -/
theorem after_succ (f : α → ρ) (failure : ρ → Option ε) (schedule : Nat → Nat) (p : WorkPool α ρ ε)
    (time : Nat) :
    (∃ i, (after f failure schedule p time).next? (schedule time) = some i ∧
      Steps f failure i (after f failure schedule p time) (after f failure schedule p (time + 1))) ∨
    ((after f failure schedule p time).active = [] ∧
      after f failure schedule p (time + 1) = after f failure schedule p time) := by
  cases h : (after f failure schedule p time).next? (schedule time) with
  | none => exact .inr ⟨next?_eq_none_iff.mp h, by simp only [after, h]⟩
  | some i =>
    obtain ⟨w, hi, hw⟩ := exists_of_next? h
    refine .inl ⟨i, rfl, ?_⟩
    simp only [after, h]
    exact steps_step hi hw

/-- What a step preserves holds at every point of time from the first at which it does. -/
theorem after_induction_from {motive : WorkPool α ρ ε → Prop} {schedule : Nat → Nat} {time later : Nat}
    (hle : time ≤ later) (start : motive (after f failure schedule p time))
    (steps : ∀ i q r, motive q → Steps f failure i q r → motive r) :
    motive (after f failure schedule p later) := by
  induction hle with
  | refl => exact start
  | @step later _ ih =>
    rcases after_succ f failure schedule p later with ⟨i, -, h⟩ | ⟨-, h⟩
    · exact steps i _ _ ih h
    · rw [h]
      exact ih

/-- What a step preserves holds at every point of time. -/
theorem after_induction {motive : WorkPool α ρ ε → Prop} (start : motive p)
    (steps : ∀ i q r, motive q → Steps f failure i q r → motive r) (schedule : Nat → Nat) (time : Nat) :
    motive (after f failure schedule p time) :=
  after_induction_from (Nat.zero_le time) start steps

/-- Once all workers have stopped, nothing changes any more. -/
theorem after_eq_of_active_eq_nil {schedule : Nat → Nat} {time later : Nat} (hle : time ≤ later)
    (h : (after f failure schedule p time).active = []) :
    after f failure schedule p later = after f failure schedule p time := by
  induction hle with
  | refl => rfl
  | @step later _ ih =>
    rcases after_succ f failure schedule p later with ⟨i, hi, -⟩ | ⟨-, hsame⟩
    · rw [ih, next?_eq_none_iff.mpr h] at hi
      cases hi
    · rw [hsame, ih]

/-- Whatever the schedule is, there is a point of time at which all workers have stopped. -/
theorem exists_finish_eq_after (f : α → ρ) (failure : ρ → Option ε) (schedule : Nat → Nat)
    (p : WorkPool α ρ ε) :
    ∃ time, finish f failure schedule 0 p = after f failure schedule p time ∧
      (after f failure schedule p time).active = [] := by
  suffices h : ∀ n time, (after f failure schedule p time).weight = n →
      ∃ last, finish f failure schedule time (after f failure schedule p time) =
        after f failure schedule p last ∧ (after f failure schedule p last).active = [] from h _ 0 rfl
  intro n
  induction n using Nat.strongRecOn with
  | ind n ih =>
    intro time hn
    rw [finish]
    split
    · next h => exact ⟨time, rfl, next?_eq_none_iff.mp h⟩
    · next i h =>
      obtain ⟨w, hi, hw⟩ := exists_of_next? h
      have hstep : (after f failure schedule p time).step f failure i = after f failure schedule p (time + 1) := by
        simp only [after, h]
      have hlt := weight_step_lt f failure hi hw
      rw [hstep] at hlt ⊢
      exact ih _ (hn ▸ hlt) _ rfl

/-- The pools that steps of the workers lead to, in any order. -/
inductive Reaches (f : α → ρ) (failure : ρ → Option ε) (p : WorkPool α ρ ε) : WorkPool α ρ ε → Prop
  | refl : Reaches f failure p p
  | step {q r : WorkPool α ρ ε} (i : Nat) : Reaches f failure p q → Steps f failure i q r →
      Reaches f failure p r

theorem Steps.exists_worker (h : Steps f failure i p q) :
    ∃ w, p.workers[i]? = some w ∧ w.isStopped = false := by
  cases h with
  | leave h | take h | skip h | begin h | done h | fail h | record h => exact ⟨_, h, rfl⟩

theorem Steps.eq_step (h : Steps f failure i p q) : q = p.step f failure i := by
  cases h with
  | leave h hq | take h hq => simp only [step, h, hq]
  | skip h he => simp only [step, h, he, if_true]
  | begin h he => simp [step, h, he]
  | done h hf | fail h hf => simp only [step, h, hf]
  | record h => simp only [step, h]

theorem after_congr {schedule' : Nat → Nat} (h : ∀ t < time, schedule t = schedule' t) :
    after f failure schedule p time = after f failure schedule' p time := by
  induction time with
  | zero => rfl
  | succ time ih =>
    simp only [after, ih fun t ht => h t (Nat.lt_succ_of_lt ht), h time (Nat.lt_succ_self time)]

/-- Every order in which the workers can make their steps is that of a schedule. -/
theorem reaches_iff_exists_schedule :
    Reaches f failure p q ↔ ∃ schedule time, after f failure schedule p time = q := by
  constructor
  · intro h
    induction h with
    | refl => exact ⟨fun _ => 0, 0, rfl⟩
    | @step q r i _ hs ih =>
      obtain ⟨schedule, time, rfl⟩ := ih
      obtain ⟨w, hi, hw⟩ := hs.exists_worker
      obtain ⟨choice, hc⟩ := exists_next? hi hw
      refine ⟨fun t => if t = time then choice else schedule t, time + 1, ?_⟩
      have hbefore : after f failure (fun t => if t = time then choice else schedule t) p time =
          after f failure schedule p time :=
        after_congr fun t ht => if_neg (Nat.ne_of_lt ht)
      simp only [after, hbefore, if_true, hc, hs.eq_step]
  · rintro ⟨schedule, time, rfl⟩
    exact after_induction .refl (fun i q r h hs => .step i h hs) schedule time

end

end WorkPool

end TemplatedSql
