import Mathlib.Algebra.Order.Group.Multiset
import Mathlib.Tactic.Abel
import TemplatedSql.Proofs.WorkPool.Step

/-!
# What becomes of the items

Every item is in the queue, with a worker, executed or skipped, and in one of these places only. An item that
fails leaves its error with its worker until the error is recorded, and nothing is skipped or left behind
before an error is recorded.
-/

namespace TemplatedSql

/-- The item that a worker has taken and not yet executed or skipped. -/
def Worker.held {α ε : Type} : Worker α ε → Multiset α
  | checking a | running a => {a}
  | idle | failing _ | stopped => 0

namespace WorkPool

variable {α ρ ε : Type} {f : α → ρ} {failure : ρ → Option ε} {i : Nat} {p q : WorkPool α ρ ε}

/-- The items that workers have. -/
def held (ws : List (Worker α ε)) : Multiset α :=
  ws.foldr (fun w items => w.held + items) 0

/-- All items, wherever they are. -/
def contents (p : WorkPool α ρ ε) : Multiset α :=
  (p.executed.map Prod.fst : List α) + (p.skipped : List α) + held p.workers + (p.queue : List α)

/-- Items with what executing them gives. -/
def results (f : α → ρ) (items : List α) : List (α × ρ) :=
  items.map fun a => (a, f a)

/-- What all workers have together changes by what one of them has. -/
theorem sum_map_set {M : Type} [AddCommMonoid M] (g : Worker α ε → M) {ws : List (Worker α ε)} {v : Worker α ε}
    (w : Worker α ε) (h : ws[i]? = some v) : ((ws.set i w).map g).sum + g v = (ws.map g).sum + g w := by
  induction ws generalizing i with
  | nil => cases h
  | cons u ws ih =>
    cases i with
    | zero =>
      cases h
      simp only [List.set_cons_zero, List.map_cons, List.sum_cons]
      abel
    | succ i =>
      simp only [List.set_cons_succ, List.map_cons, List.sum_cons]
      rw [add_assoc, ih h, add_assoc]

theorem held_eq_sum (ws : List (Worker α ε)) : held ws = (ws.map Worker.held).sum := by
  rw [List.sum_eq_foldr, List.foldr_map]
  rfl

theorem held_set {ws : List (Worker α ε)} {v : Worker α ε} (w : Worker α ε) (h : ws[i]? = some v) :
    held (ws.set i w) + v.held = held ws + w.held := by
  rw [held_eq_sum, held_eq_sum]
  exact sum_map_set Worker.held w h

/-- A worker that goes on with the same item, or without any as before, changes no place. -/
theorem held_set_eq {ws : List (Worker α ε)} {v w : Worker α ε} (h : ws[i]? = some v) (hw : w.held = v.held) :
    held (ws.set i w) = held ws := by
  have := held_set w h
  rw [hw] at this
  exact add_right_cancel this

/-- No item is lost in a step, and none comes twice. -/
theorem Steps.contents_eq (h : Steps f failure i p q) : q.contents = p.contents := by
  cases h with
  | leave h | begin h | record h =>
    simp only [contents, setWorker]
    rw [held_set_eq h (by rfl)]
  | @take a queue h hq =>
    have hheld : held (p.workers.set i (.checking a)) = held p.workers + {a} := by
      have := held_set (.checking a) h
      simpa only [Worker.held, add_zero] using this
    simp only [contents, setWorker, hheld, hq, ← Multiset.cons_coe, ← Multiset.singleton_add]
    abel
  | @skip a h he =>
    have hheld : held (p.workers.set i .idle) + {a} = held p.workers := by
      have := held_set .idle h
      simpa only [Worker.held, add_zero] using this
    simp only [contents, setWorker, ← hheld, ← Multiset.coe_add, Multiset.coe_singleton]
    abel
  | @done a h hf =>
    have hheld : held (p.workers.set i .idle) + {a} = held p.workers := by
      have := held_set .idle h
      simpa only [Worker.held, add_zero] using this
    simp only [contents, setWorker, ← hheld, List.map_append, List.map_cons, List.map_nil, ← Multiset.coe_add,
      Multiset.coe_singleton]
    abel
  | @fail a e h hf =>
    have hheld : held (p.workers.set i (.failing e)) + {a} = held p.workers := by
      have := held_set (.failing e) h
      simpa only [Worker.held, add_zero] using this
    simp only [contents, setWorker, ← hheld, List.map_append, List.map_cons, List.map_nil, ← Multiset.coe_add,
      Multiset.coe_singleton]
    abel

theorem held_start (n : Nat) : held (List.replicate n (Worker.idle : Worker α ε)) = 0 := by
  induction n with
  | zero => rfl
  | succ n ih =>
    rw [List.replicate_succ, held, List.foldr_cons]
    exact (zero_add _).trans ih

theorem contents_start (asked : Nat) (items : List α) :
    (start asked items : WorkPool α ρ ε).contents = (items : List α) := by
  simp [contents, start, held_start]

/-- Workers that have stopped have no items. -/
theorem held_eq_zero {ws : List (Worker α ε)} (h : ∀ w ∈ ws, w.isStopped = true) : held ws = 0 := by
  induction ws with
  | nil => rfl
  | cons w ws ih =>
    have hw : w.held = 0 := by
      cases w with
      | stopped => rfl
      | idle | checking | running | failing => cases h _ List.mem_cons_self
    rw [held, List.foldr_cons, hw, zero_add]
    exact ih fun v hv => h v (List.mem_cons_of_mem _ hv)

/-! ## Errors -/

/-- An item was executed and failed with an error. -/
def Failed (f : α → ρ) (failure : ρ → Option ε) (p : WorkPool α ρ ε) (e : ε) : Prop :=
  ∃ a, (a, f a) ∈ p.executed ∧ failure (f a) = some e

/-- How the places of the items and the errors go together. -/
structure Consistent (f : α → ρ) (failure : ρ → Option ε) (p : WorkPool α ρ ε) : Prop where
  result : ∀ x ∈ p.executed, x.2 = f x.1
  failing : ∀ e, .failing e ∈ p.workers → Failed f failure p e
  recorded : ∀ e, p.error = some e → Failed f failure p e
  noticed : ∀ e, Failed f failure p e → p.error.isSome ∨ ∃ e', .failing e' ∈ p.workers
  skipped : p.skipped ≠ [] → p.error.isSome
  left : .stopped ∈ p.workers → p.queue = [] ∨ p.error.isSome

theorem Consistent.start (asked : Nat) (items : List α) :
    Consistent f failure (WorkPool.start asked items) where
  result := by simp [WorkPool.start]
  failing := by simp [WorkPool.start]
  recorded := by simp [WorkPool.start]
  noticed := by simp [WorkPool.start, Failed]
  skipped := by simp [WorkPool.start]
  left := by simp [WorkPool.start]

/-- Only the queue, the skipped items and a worker that has not failed go on. -/
theorem Consistent.move (c : Consistent f failure p) {v w : Worker α ε} (h : p.workers[i]? = some v)
    (hv : ∀ e, v ≠ .failing e) (hw : ∀ e, w ≠ .failing e) {queue skipped : List α}
    (hskipped : skipped = p.skipped ∨ p.error.isSome)
    (hleft : queue = [] ∨ w ≠ .stopped ∧ (p.queue = [] → queue = [])) :
    Consistent f failure ({ p with queue, skipped }.setWorker i w) where
  result := c.result
  failing e he := c.failing e ((mem_setWorker he).resolve_right (hw e).symm)
  recorded := c.recorded
  noticed e he := by
    rcases c.noticed e he with hs | ⟨e', he'⟩
    · exact .inl hs
    · exact .inr ⟨e', mem_setWorker_of_ne (p := { p with queue, skipped }) w h (hv e') he'⟩
  skipped hs := by
    rcases hskipped with rfl | he
    · exact c.skipped hs
    · exact he
  left hs := by
    rcases hleft with hq | ⟨hw, hq⟩
    · exact .inl hq
    · exact (c.left ((mem_setWorker hs).resolve_right hw.symm)).imp_left hq

/-- A worker executes its item, and goes on according to the result. -/
theorem Consistent.execute (c : Consistent f failure p) {a : α} {w : Worker α ε}
    (h : p.workers[i]? = some (.running a)) (hw : ∀ e, w = .failing e ↔ failure (f a) = some e)
    (hstopped : w ≠ .stopped) :
    Consistent f failure ({ p with executed := p.executed ++ [(a, f a)] }.setWorker i w) := by
  have before {e} (hf : Failed f failure p e) :
      Failed f failure ({ p with executed := p.executed ++ [(a, f a)] }.setWorker i w) e :=
    hf.imp fun b hb => ⟨List.mem_append_left _ hb.1, hb.2⟩
  refine ⟨fun x hx => ?_, fun e he => ?_, fun e he => before (c.recorded e he), fun e he => ?_, c.skipped,
    fun hs => c.left ((mem_setWorker hs).resolve_right hstopped.symm)⟩
  · rcases List.mem_append.mp hx with hx | hx
    · exact c.result x hx
    · cases List.mem_singleton.mp hx
      rfl
  · rcases mem_setWorker he with he | he
    · exact before (c.failing e he)
    · exact ⟨a, List.mem_append_right _ List.mem_cons_self, (hw e).mp he.symm⟩
  · obtain ⟨b, hb, hfail⟩ := he
    rcases List.mem_append.mp hb with hb | hb
    · rcases c.noticed e ⟨b, hb, hfail⟩ with hs | ⟨e', he'⟩
      · exact .inl hs
      · exact .inr ⟨e', mem_setWorker_of_ne w h (by simp) he'⟩
    · cases List.mem_singleton.mp hb
      cases (hw e).mpr hfail
      exact .inr ⟨e, self_mem_setWorker h⟩

theorem Consistent.steps (c : Consistent f failure p) (h : Steps f failure i p q) : Consistent f failure q := by
  cases h with
  | leave h hq => exact c.move h (by simp) (by simp) (.inl rfl) (.inl hq)
  | take h hq => exact c.move h (by simp) (by simp) (.inl rfl) (.inr ⟨by simp, by simp [hq]⟩)
  | skip h he => exact c.move h (by simp) (by simp) (.inr he) (.inr ⟨by simp, id⟩)
  | begin h he => exact c.move h (by simp) (by simp) (.inl rfl) (.inr ⟨by simp, id⟩)
  | done h hf => exact c.execute h (by simp [hf]) (by simp)
  | fail h hf => exact c.execute h (by simp [hf]) (by simp)
  | @record e h =>
    have he : (p.error <|> some e).isSome := by cases p.error <;> rfl
    refine ⟨c.result, fun e' hm => c.failing e' ((mem_setWorker hm).resolve_right (by simp)), fun e' hr => ?_,
      fun _ _ => .inl he, fun _ => he, fun _ => .inr he⟩
    cases hp : p.error with
    | none =>
      simp only [setWorker, hp] at hr
      cases hr
      exact c.failing e (List.mem_of_getElem? h)
    | some e₀ =>
      simp only [setWorker, hp] at hr
      exact c.recorded e' (hp.trans hr)

/-! ## The first error -/

section
variable {schedule : Nat → Nat} {time : Nat}

theorem Steps.error_eq (h : Steps f failure i p q) : q.error = p.error.or (p.workers[i]?.bind Worker.error?) := by
  cases h with
  | leave h | take h | skip h | begin h | done h | fail h =>
    rw [h]
    exact Option.or_none.symm
  | record h =>
    rw [h]
    cases hp : p.error <;> simp [setWorker, Worker.error?]

/-- The error of a pool is the first that a worker recorded. -/
theorem error_after (hp : p.error = none) :
    (after f failure schedule p time).error =
      (List.range time).findSome? (recording? f failure schedule p) := by
  induction time with
  | zero => exact hp
  | succ time ih =>
    rw [List.range_succ, List.findSome?_append, ← ih]
    rcases after_succ f failure schedule p time with ⟨i, hi, h⟩ | ⟨hi, h⟩
    · rw [h.error_eq, List.findSome?_singleton, recording?, hi]
      rfl
    · rw [h, List.findSome?_singleton, recording?, next?_eq_none_iff.mpr hi]
      exact Option.or_none.symm

theorem exists_first_recording (hp : p.error = none) {e : ε}
    (h : (after f failure schedule p time).error = some e) :
    ∃ t, recording? f failure schedule p t = some e ∧
      ∀ t' < t, recording? f failure schedule p t' = none := by
  rw [error_after hp] at h
  obtain ⟨before, t, later, hrange, ht, hnone⟩ := List.findSome?_eq_some_iff.mp h
  refine ⟨t, ht, fun t' hlt => hnone t' ?_⟩
  have hlater : ∀ t'' ∈ later, t < t'' := by
    have := List.pairwise_lt_range (n := time)
    rw [hrange, List.pairwise_append, List.pairwise_cons] at this
    exact this.2.1.1
  have hmem : t' ∈ before ++ t :: later := by
    have : t ∈ List.range time := by simp [hrange]
    rw [← hrange]
    exact List.mem_range.mpr (hlt.trans (List.mem_range.mp this))
  rcases List.mem_append.mp hmem with hmem | hmem
  · exact hmem
  · rcases List.mem_cons.mp hmem with rfl | hmem
    · exact absurd hlt (lt_irrefl _)
    · exact absurd (hlater t' hmem) hlt.not_gt

end

/-! ## The end of a run -/

/-- How a run over some items ends: all workers have stopped, and what they did is consistent. -/
structure Ended (f : α → ρ) (failure : ρ → Option ε) (asked : Nat) (items : List α) (p : WorkPool α ρ ε) :
    Prop where
  stopped : ∀ w ∈ p.workers, w.isStopped = true
  workers : p.workers.length = min (threads asked) items.length
  contents : p.contents = (items : Multiset α)
  consistent : Consistent f failure p

section
variable {asked : Nat} {items : List α}

theorem exists_ended (f : α → ρ) (failure : ρ → Option ε) (asked : Nat) (schedule : Nat → Nat)
    (items : List α) :
    ∃ time, run f failure asked schedule items =
        (after f failure schedule (start asked items) time).outcome ∧
      Ended f failure asked items (after f failure schedule (start asked items) time) := by
  obtain ⟨time, hfinish, hactive⟩ := exists_finish_eq_after f failure schedule (start asked items)
  refine ⟨time, congrArg outcome hfinish, fun w hw => isStopped_of_active_eq_nil hactive hw, ?_, ?_, ?_⟩
  · exact after_induction (by simp [start]) (fun i q r ih h => h.length_workers.trans ih) schedule time
  · exact after_induction (contents_start asked items) (fun i q r ih h => h.contents_eq.trans ih) schedule time
  · exact after_induction (.start asked items) (fun i q r ih h => ih.steps h) schedule time

namespace Ended

theorem perm (h : Ended f failure asked items p) :
    (p.outcome.executed.map Prod.fst ++ p.outcome.skipped).Perm items := by
  rw [← Multiset.coe_eq_coe, ← h.contents, WorkPool.contents, held_eq_zero h.stopped, add_zero, add_assoc,
    Multiset.coe_add, Multiset.coe_add]
  rfl

/-- Unless an error is recorded, every item was executed. -/
theorem skipped_eq_nil (h : Ended f failure asked items p) (he : p.error = none) : p.outcome.skipped = [] := by
  have hskipped : p.skipped = [] := by
    by_contra hs
    have := h.consistent.skipped hs
    simp [he] at this
  cases hw : p.workers with
  | nil =>
    -- Without workers there were no items.
    have hitems : items = [] := by
      have := h.workers
      simp only [hw, List.length_nil, threads] at this
      exact List.length_eq_zero_iff.mp (by omega)
    have := h.perm.length_eq
    rw [List.length_append, hitems] at this
    exact List.length_eq_zero_iff.mp (Nat.eq_zero_of_add_eq_zero_left this)
  | cons w ws =>
    have hstopped : .stopped ∈ p.workers := by
      have := h.stopped w (by simp [hw])
      cases w with
      | stopped => simp [hw]
      | idle | checking | running | failing => cases this
    rw [outcome, hskipped, (h.consistent.left hstopped).resolve_right (by simp [he])]
    rfl

/-- An error is recorded if and only if an item fails. -/
theorem error_isSome_iff (h : Ended f failure asked items p) :
    p.error.isSome ↔ ∃ a ∈ items, (failure (f a)).isSome := by
  constructor
  · intro he
    obtain ⟨e, he⟩ := Option.isSome_iff_exists.mp he
    obtain ⟨a, ha, hf⟩ := h.consistent.recorded e he
    refine ⟨a, h.perm.mem_iff.mp (List.mem_append_left _ (List.mem_map_of_mem ha)), ?_⟩
    rw [hf]
    rfl
  · rintro ⟨a, ha, hf⟩
    obtain ⟨e, hf⟩ := Option.isSome_iff_exists.mp hf
    by_contra hnone
    have hnone : p.error = none := by simpa using hnone
    have hexecuted : a ∈ p.executed.map Prod.fst := by
      have := h.perm.mem_iff.mpr ha
      rwa [h.skipped_eq_nil hnone, List.append_nil] at this
    obtain ⟨⟨a', r⟩, hx, rfl⟩ := List.mem_map.mp hexecuted
    obtain rfl : r = f a' := h.consistent.result _ hx
    rcases h.consistent.noticed e ⟨a', hx, hf⟩ with he | ⟨e', he⟩
    · simp [hnone] at he
    · cases h.stopped _ he

theorem error_eq_none_iff (h : Ended f failure asked items p) :
    p.error = none ↔ ∀ a ∈ items, failure (f a) = none := by
  have := not_congr h.error_isSome_iff
  simpa using this

theorem result_eq_iff (h : Ended f failure asked items p) :
    p.outcome.result = .ok items.length ↔ ∀ a ∈ items, failure (f a) = none := by
  rw [← h.error_eq_none_iff]
  cases he : p.error with
  | none =>
    have := h.perm.length_eq
    rw [h.skipped_eq_nil he, List.append_nil, List.length_map] at this
    simp [Outcome.result, outcome, he] at this ⊢
    exact this
  | some e => simp [Outcome.result, outcome, he]

theorem executed_eq_results (h : Ended f failure asked items p) :
    p.executed = results f (p.executed.map Prod.fst) := by
  rw [results, List.map_map]
  refine (List.map_id _).symm.trans (List.map_congr_left fun x hx => ?_)
  exact Prod.ext rfl (h.consistent.result x hx)

end Ended

/-- A run without an error executes all items. -/
theorem executed_perm_results {schedule : Nat → Nat} (h : (run f failure asked schedule items).error = none) :
    (run f failure asked schedule items).executed.Perm (results f items) := by
  obtain ⟨time, hrun, hended⟩ := exists_ended f failure asked schedule items
  rw [hrun] at h ⊢
  have hperm := hended.perm
  rw [hended.skipped_eq_nil h, List.append_nil] at hperm
  rw [outcome, hended.executed_eq_results]
  exact hperm.map _

theorem run_error_eq_none_iff {schedule : Nat → Nat} :
    (run f failure asked schedule items).error = none ↔ ∀ a ∈ items, failure (f a) = none := by
  obtain ⟨time, hrun, hended⟩ := exists_ended f failure asked schedule items
  rw [hrun]
  exact hended.error_eq_none_iff

theorem exists_failed_of_run {schedule : Nat → Nat} {e : ε}
    (h : (run f failure asked schedule items).error = some e) : ∃ a ∈ items, failure (f a) = some e := by
  obtain ⟨time, hrun, hended⟩ := exists_ended f failure asked schedule items
  rw [hrun] at h
  obtain ⟨a, ha, hf⟩ := hended.consistent.recorded e h
  exact ⟨a, hended.perm.mem_iff.mp (List.mem_append_left _ (List.mem_map_of_mem ha)), hf⟩

end

/-- Whatever the number of threads, the items, the failing ones among them and the schedule are, each item is
executed or skipped, and that once. There is an error if and only if some item fails; it is the error of an
item that was executed, and the first that a worker recorded. -/
theorem run_accounts_for_items (f : α → ρ) (failure : ρ → Option ε) (asked : Nat) (schedule : Nat → Nat)
    (items : List α) :
    let o := run f failure asked schedule items
    let recording := recording? f failure schedule (start asked items)
    (o.executed.map Prod.fst ++ o.skipped).Perm items ∧
    o.executed.length + o.skipped.length = items.length ∧
    (∀ x ∈ o.executed, x.2 = f x.1) ∧
    (o.error.isSome ↔ ∃ a ∈ items, (failure (f a)).isSome) ∧
    (∀ e, o.error = some e →
      (∃ a, (a, f a) ∈ o.executed ∧ failure (f a) = some e) ∧
      ∃ time, recording time = some e ∧ ∀ t < time, recording t = none) ∧
    (o.result = .ok items.length ↔ ∀ a ∈ items, failure (f a) = none) ∧
    run f failure 0 schedule items = run f failure 1 schedule items := by
  obtain ⟨time, hrun, h⟩ := exists_ended f failure asked schedule items
  intro o recording
  have ho : o = _ := hrun
  rw [ho]
  refine ⟨h.perm, ?_, h.consistent.result, h.error_isSome_iff, fun e he => ⟨h.consistent.recorded e he, ?_⟩,
    h.result_eq_iff, rfl⟩
  · have := h.perm.length_eq
    rwa [List.length_append, List.length_map] at this
  · exact exists_first_recording rfl he

end WorkPool

end TemplatedSql
