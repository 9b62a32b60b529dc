/-!
# Worker pools

Workers take items from a queue until it is empty. A worker looks whether an error has been recorded
after it has taken an item: if so, it skips the item. A worker whose item fails records the error, unless
there is one already, and stops. What runs is never interrupted.

The steps of the workers may come in any order, which a schedule gives: at each point of time it chooses
among the workers that have not stopped. Every run ends, whatever the schedule is.
-/

namespace TemplatedSql

/-- What a worker is about to do. -/
inductive Worker (α ε : Type)
  /-- To take an item. -/
  | idle
  /-- To look whether the item it took is to be skipped. -/
  | checking (item : α)
  /-- To execute an item. -/
  | running (item : α)
  /-- To record the error of its item. -/
  | failing (error : ε)
  /-- Nothing any more. -/
  | stopped

/-- How many steps a worker can still make before it takes another item or stops. -/
def Worker.weight {α ε : Type} : Worker α ε → Nat
  | idle => 1
  | checking _ => 4
  | running _ => 3
  | failing _ => 2
  | stopped => 0

/-- Whether a worker has stopped. -/
def Worker.isStopped {α ε : Type} : Worker α ε → Bool
  | stopped => true
  | _ => false

/-- The workers, what they share, and what has become of the items so far. -/
structure WorkPool (α ρ ε : Type) where
  workers : List (Worker α ε)
  queue : List α
  /-- The executed items with their results, in the order in which they were finished. -/
  executed : List (α × ρ) := []
  skipped : List α := []
  /-- The error that was recorded first. -/
  error : Option ε := none

namespace WorkPool

variable {α ρ ε : Type}

/-- The pool in which one worker has gone on. -/
def setWorker (p : WorkPool α ρ ε) (i : Nat) (w : Worker α ε) : WorkPool α ρ ε :=
  { p with workers := p.workers.set i w }

/-- A step of a worker. `f` executes an item, and `failure` says whether the result is an error. -/
def step (f : α → ρ) (failure : ρ → Option ε) (i : Nat) (p : WorkPool α ρ ε) : WorkPool α ρ ε :=
  match p.workers[i]? with
  | none | some .stopped => p
  | some .idle =>
    match p.queue with
    | [] => p.setWorker i .stopped
    | a :: queue => { p with queue }.setWorker i (.checking a)
  | some (.checking a) =>
    if p.error.isSome then { p with skipped := p.skipped ++ [a] }.setWorker i .idle
    else p.setWorker i (.running a)
  | some (.running a) =>
    let r := f a
    let p := { p with executed := p.executed ++ [(a, r)] }
    match failure r with
    | none => p.setWorker i .idle
    | some e => p.setWorker i (.failing e)
  | some (.failing e) => { p with error := p.error <|> some e }.setWorker i .stopped

/-- The workers that have not stopped. -/
def active (p : WorkPool α ρ ε) : List Nat :=
  (List.range p.workers.length).filter fun i => p.workers[i]?.any fun w => !w.isStopped

/-- The worker that a number chooses among those that have not stopped. -/
def next? (p : WorkPool α ρ ε) (choice : Nat) : Option Nat :=
  p.active[choice % p.active.length]?

/-- The weights of all workers together. -/
def weights (ws : List (Worker α ε)) : Nat :=
  ws.foldr (fun w n => w.weight + n) 0

/-- How many steps can still be made at most. -/
def weight (p : WorkPool α ρ ε) : Nat :=
  4 * p.queue.length + weights p.workers

theorem weights_set (ws : List (Worker α ε)) (i : Nat) (v w : Worker α ε) (h : ws[i]? = some v) :
    weights (ws.set i w) + v.weight = weights ws + w.weight := by
  induction ws generalizing i with
  | nil => simp at h
  | cons u ws ih =>
    cases i with
    | zero =>
      simp only [List.getElem?_cons_zero, Option.some.injEq] at h
      subst h
      simp only [weights, List.set_cons_zero, List.foldr_cons]
      omega
    | succ i =>
      simp only [List.getElem?_cons_succ] at h
      have := ih i h
      simp only [weights, List.set_cons_succ, List.foldr_cons] at this ⊢
      omega

theorem weight_setWorker (p : WorkPool α ρ ε) {i : Nat} {v : Worker α ε} (w : Worker α ε)
    (h : p.workers[i]? = some v) : (p.setWorker i w).weight + v.weight = p.weight + w.weight := by
  have := weights_set p.workers i v w h
  simp only [weight, setWorker]
  omega

theorem exists_of_next? {p : WorkPool α ρ ε} {choice i : Nat} (h : p.next? choice = some i) :
    ∃ w, p.workers[i]? = some w ∧ w.isStopped = false := by
  have hi : i ∈ p.active := List.mem_of_getElem? h
  simp only [active, List.mem_filter, Option.any_eq_true] at hi
  obtain ⟨-, w, hw, hs⟩ := hi
  exact ⟨w, hw, by simpa using hs⟩

/-- A step of a worker that has not stopped leaves fewer steps to make. -/
theorem weight_step_lt (f : α → ρ) (failure : ρ → Option ε) {i : Nat} {p : WorkPool α ρ ε}
    {w : Worker α ε} (h : p.workers[i]? = some w) (hw : w.isStopped = false) :
    (p.step f failure i).weight < p.weight := by
  cases w with
  | stopped => simp [Worker.isStopped] at hw
  | idle =>
    simp only [step, h]
    cases hq : p.queue with
    | nil =>
      have := weight_setWorker p .stopped h
      simp only [Worker.weight] at this
      simp only []
      omega
    | cons a queue =>
      have := weight_setWorker { p with queue } (.checking a) h
      simp only [Worker.weight, weight, hq, List.length_cons] at this ⊢
      omega
  | checking a =>
    simp only [step, h]
    split
    · have := weight_setWorker { p with skipped := p.skipped ++ [a] } .idle h
      simp only [Worker.weight, weight] at this ⊢
      omega
    · have := weight_setWorker p (.running a) h
      simp only [Worker.weight] at this
      omega
  | running a =>
    simp only [step, h]
    split
    · have := weight_setWorker { p with executed := p.executed ++ [(a, f a)] } .idle h
      simp only [Worker.weight, weight] at this ⊢
      omega
    · rename_i e _
      have := weight_setWorker { p with executed := p.executed ++ [(a, f a)] } (.failing e) h
      simp only [Worker.weight, weight] at this ⊢
      omega
  | failing e =>
    simp only [step, h]
    have := weight_setWorker { p with error := p.error <|> some e } .stopped h
    simp only [Worker.weight, weight] at this ⊢
    omega

/-- Lets the workers make their steps from a point of time on until all of them have stopped. -/
def finish (f : α → ρ) (failure : ρ → Option ε) (schedule : Nat → Nat) (time : Nat)
    (p : WorkPool α ρ ε) : WorkPool α ρ ε :=
  match _h : p.next? (schedule time) with
  | none => p
  | some i => finish f failure schedule (time + 1) (p.step f failure i)
termination_by p.weight
decreasing_by
  obtain ⟨w, h, hw⟩ := exists_of_next? _h
  exact weight_step_lt f failure h hw

/-- How many workers there are for a number of threads that was asked for. -/
def threads (asked : Nat) : Nat :=
  max asked 1

/-- The pool before the first step: every item is queued, and no worker is without an item. -/
def start (asked : Nat) (items : List α) : WorkPool α ρ ε where
  workers := List.replicate (min (threads asked) items.length) .idle
  queue := items

/-- What became of the items in the end. What is left in the queue counts as skipped. -/
structure Outcome (α ρ ε : Type) where
  executed : List (α × ρ)
  skipped : List α
  error : Option ε

/-- What became of the items so far. -/
def outcome (p : WorkPool α ρ ε) : Outcome α ρ ε :=
  ⟨p.executed, p.skipped ++ p.queue, p.error⟩

/-- Executes every item, or skips it after an error. -/
def run (f : α → ρ) (failure : ρ → Option ε) (asked : Nat) (schedule : Nat → Nat) (items : List α) :
    Outcome α ρ ε :=
  (finish f failure schedule 0 (start asked items)).outcome

/-- The error that a result is. -/
def failure : Except ε α → Option ε
  | .ok _ => none
  | .error e => some e

/-- The number of items, all of which were executed, or the error. -/
def Outcome.result (o : Outcome α ρ ε) : Except ε Nat :=
  match o.error with
  | none => .ok o.executed.length
  | some e => .error e

end WorkPool

end TemplatedSql
