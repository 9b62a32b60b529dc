import Mathlib
import TemplatedSql.Proofs.Except
import TemplatedSql.Value.Action

/-! # A range is an arithmetic progression

The items of a range are the terms of the progression that come before its stop. How many there are is a distance
divided by the step and rounded up; neither the distance nor an item leaves the signed integers of 128 bits where the
bounds and the step have 64. -/

namespace TemplatedSql

/-- An integer comes before another one in the direction of a step. -/
def Precedes (step a b : Int) : Prop :=
  if 0 < step then a < b else b < a

/-- The items are, in order, the terms of the progression from `start` that come before `stop`. -/
def Progression (start stop step : Int) (items : List Int) : Prop :=
  ∀ (i : Nat) (x : Int), items[i]? = some x ↔ x = start + i * step ∧ Precedes step x stop

/-- The start, the stop and the step that the integers given to a range stand for. -/
inductive RangeBounds : List Int → Int → Int → Int → Prop
  | stop {stop} : RangeBounds [stop] 0 stop 1
  | startStop {start stop} : RangeBounds [start, stop] start stop 1
  | startStopStep {start stop step} : RangeBounds [start, stop, step] start stop step

/-! ### How many items there are -/

/-- A distance divided by a step and rounded up says how many steps stay below the distance. -/
theorem lt_roundedUp_iff {span size : Int} (hsize : 0 < size) (i : Nat) :
    i < (if span ≤ 0 then 0 else ((span - 1) / size + 1).toNat) ↔ i * size < span := by
  split
  · rename_i hspan
    have hsteps : 0 ≤ i * size := Int.mul_nonneg (Int.natCast_nonneg i) hsize.le
    omega
  · have hle : (i : Int) ≤ (span - 1) / size ↔ i * size ≤ span - 1 := Int.le_ediv_iff_mul_le hsize
    omega

theorem lt_rangeCount_iff {start stop step : Int} (hstep : step ≠ 0) (i : Nat) :
    i < rangeCount start stop step ↔ Precedes step (start + i * step) stop := by
  have hsize : 0 < (step.natAbs : Int) := Int.natCast_pos.mpr (Int.natAbs_pos.mpr hstep)
  rw [rangeCount]
  refine (lt_roundedUp_iff hsize i).trans ?_
  rw [Precedes]
  rcases lt_or_gt_of_ne hstep with hneg | hpos
  · have habs : (i : Int) * step.natAbs = -(i * step) := by
      rw [Int.ofNat_natAbs_of_nonpos hneg.le, Int.mul_neg]
    rw [if_neg (by omega), if_neg (by omega)]
    omega
  · rw [if_pos hpos, if_pos hpos, Int.natAbs_of_nonneg hpos.le]
    omega

theorem progression_rangeCount {start stop step : Int} (hstep : step ≠ 0) :
    Progression start stop step ((List.range (rangeCount start stop step)).map fun (i : Nat) => start + i * step) := by
  intro i x
  rw [List.getElem?_map]
  rcases Nat.lt_or_ge i (rangeCount start stop step) with hi | hi
  · rw [List.getElem?_range hi, Option.map_some, Option.some.injEq, eq_comm]
    refine ⟨?_, fun h => h.1⟩
    rintro rfl
    exact ⟨rfl, (lt_rangeCount_iff hstep i).mp hi⟩
  · rw [List.getElem?_eq_none (by rwa [List.length_range])]
    constructor
    · intro h
      cases h
    · rintro ⟨rfl, hbefore⟩
      exact absurd ((lt_rangeCount_iff hstep i).mpr hbefore) (Nat.not_lt.mpr hi)

/-! ### Arithmetic in 128 bits -/

/-- An integer, if 128 bits with a sign hold it. -/
def wide? (i : Int) : Option Int :=
  if -0x80000000000000000000000000000000 ≤ i ∧ i ≤ 0x7fffffffffffffffffffffffffffffff then some i else none

/-- A quotient rounded toward zero, if there is one and 128 bits hold it. -/
def wideQuotient? (a b : Int) : Option Int :=
  if b = 0 then none else wide? (a.tdiv b)

/-- The number of items of a range, computed in 128 bits. -/
def wideCount? (start stop step : Int) : Option Int := do
  let span ← wide? (if 0 < step then stop - start else start - stop)
  if span ≤ 0 then some 0
  else do
    let last ← wide? (span - 1)
    let size ← wide? |step|
    let steps ← wideQuotient? last size
    wide? (steps + 1)

/-- An item of a range, computed in 128 bits. -/
def wideItem? (start step : Int) (i : Nat) : Option Int := do
  let distance ← wide? (i * step)
  wide? (start + distance)

/-- The signed integers of 64 bits. -/
def Number.InInt64 (i : Int) : Prop :=
  Number.minInt64 ≤ i ∧ i ≤ Number.maxInt64

instance (i : Int) : Decidable (Number.InInt64 i) :=
  inferInstanceAs (Decidable (Number.minInt64 ≤ i ∧ i ≤ Number.maxInt64))

theorem wide?_of_abs_le {i : Int} (h : |i| ≤ 0x7fffffffffffffffffffffffffffffff) : wide? i = some i := by
  obtain ⟨hlow, hhigh⟩ := abs_le.mp h
  exact if_pos ⟨by omega, hhigh⟩

theorem Number.InInt64.bounded {i : Int} (h : Number.InInt64 i) : |i| ≤ 0x8000000000000000 := by
  obtain ⟨hlow, hhigh⟩ := h
  rw [Number.minInt64] at hlow
  rw [Number.maxInt64] at hhigh
  exact abs_le.mpr ⟨hlow, by omega⟩

/-- The integers that a range gets are clamped to 64 bits. -/
theorem Argument.inInt64_of_integer {a : Argument} {i : Int} (h : a.integer = .ok i) : Number.InInt64 i := by
  have hclamp (n : Int) : Number.InInt64 (Number.clamp64 n) := by
    unfold Number.clamp64 Number.InInt64 Number.minInt64 Number.maxInt64
    split
    · omega
    · split <;> omega
  unfold Argument.integer at h
  dsimp only at h
  split at h
  · split at h
    · cases h
      exact hclamp _
    · cases h
  · cases h

/-- So the bounds and the step of every call have 64 bits. -/
theorem RangeBounds.inInt64 {arguments : List Argument} {integers : List Int} {start stop step : Int}
    (h : RangeBounds integers start stop step) (harguments : arguments.mapM Argument.integer = .ok integers) :
    Number.InInt64 start ∧ Number.InInt64 stop ∧ Number.InInt64 step := by
  have hintegers : ∀ i ∈ integers, Number.InInt64 i := by
    intro i hi
    obtain ⟨a, -, ha⟩ := exists_of_mem_mapM harguments hi
    exact Argument.inInt64_of_integer ha
  cases h with
  | stop => exact ⟨by decide, hintegers _ (by simp), by decide⟩
  | startStop => exact ⟨hintegers _ (by simp), hintegers _ (by simp), by decide⟩
  | startStopStep => exact ⟨hintegers _ (by simp), hintegers _ (by simp), hintegers _ (by simp)⟩

theorem wideCount?_eq {start stop step : Int} (hstart : Number.InInt64 start) (hstop : Number.InInt64 stop)
    (hstep : Number.InInt64 step) (hzero : step ≠ 0) :
    wideCount? start stop step = some (rangeCount start stop step : Int) := by
  obtain ⟨hstartLow, hstartHigh⟩ := abs_le.mp hstart.bounded
  obtain ⟨hstopLow, hstopHigh⟩ := abs_le.mp hstop.bounded
  have hsize : 0 < |step| := abs_pos.mpr hzero
  have hsizeHigh := hstep.bounded
  have hbound : |if 0 < step then stop - start else start - stop| ≤ 0x10000000000000000 := by
    split <;> exact abs_le.mpr ⟨by omega, by omega⟩
  rw [wideCount?, rangeCount, ← Int.abs_eq_natAbs]
  generalize (if 0 < step then stop - start else start - stop) = span at hbound ⊢
  obtain ⟨-, hspanHigh⟩ := abs_le.mp hbound
  rw [wide?_of_abs_le (hbound.trans (by decide))]
  dsimp only [Option.bind_eq_bind, Option.bind_some]
  split
  · rfl
  · -- The quotient of what is not negative stays between zero and the distance.
    have hlast : 0 ≤ span - 1 := by omega
    have hquotient : 0 ≤ (span - 1) / |step| := Int.ediv_nonneg hlast hsize.le
    have hquotientHigh : (span - 1) / |step| ≤ span - 1 := Int.ediv_le_self _ hlast
    have hfirst : wide? (span - 1) = some (span - 1) := wide?_of_abs_le (abs_le.mpr ⟨by omega, by omega⟩)
    have habs : wide? |step| = some |step| := wide?_of_abs_le (abs_le.mpr ⟨by omega, by omega⟩)
    have hsteps : wideQuotient? (span - 1) |step| = some ((span - 1) / |step|) := by
      rw [wideQuotient?, if_neg hsize.ne', Int.tdiv_eq_ediv_of_nonneg hlast]
      exact wide?_of_abs_le (abs_le.mpr ⟨by omega, by omega⟩)
    rw [hfirst, Option.bind_some, habs, Option.bind_some, hsteps, Option.bind_some,
      wide?_of_abs_le (abs_le.mpr ⟨by omega, by omega⟩), Int.toNat_of_nonneg (by omega)]

theorem wideItem?_eq {start step : Int} (hstart : Number.InInt64 start) (hstep : Number.InInt64 step) {i : Nat}
    (hi : i < maxRangeItems) : wideItem? start step i = some (start + i * step) := by
  have hdistance : |(i : Int) * step| ≤ 100000 * 0x8000000000000000 := by
    rw [abs_mul, Nat.abs_cast]
    exact mul_le_mul (Int.ofNat_le.mpr hi.le) hstep.bounded (abs_nonneg step) (by decide)
  obtain ⟨hlow, hhigh⟩ := abs_le.mp hdistance
  obtain ⟨hstartLow, hstartHigh⟩ := abs_le.mp hstart.bounded
  rw [wideItem?, wide?_of_abs_le (abs_le.mpr ⟨by omega, by omega⟩)]
  exact wide?_of_abs_le (abs_le.mpr ⟨by omega, by omega⟩)

/-! ### The items -/

theorem rangeItems_eq {start stop step : Int} (hstep : step ≠ 0) : rangeItems start stop step =
    if rangeCount start stop step ≤ maxRangeItems then
      .ok ((List.range (rangeCount start stop step)).map fun (i : Nat) => start + i * step)
    else .error (.runtime s!"range() would produce {rangeCount start stop step} items, limit is {maxRangeItems}") := by
  rw [rangeItems, if_neg hstep]
  dsimp only
  split
  · rename_i hmany
    rw [if_neg (Nat.not_le.mpr hmany)]
  · rename_i hfew
    rw [if_pos (Nat.not_lt.mp hfew)]

/-- What a call of `range` does is told by the items between its bounds. -/
theorem act_range {arguments : List Argument} {integers : List Int} {start stop step : Int}
    (hbounds : RangeBounds integers start stop step) (h : arguments.mapM Argument.integer = .ok integers) :
    Builtin.range.act arguments =
      .ofExcept ((rangeItems start stop step).map fun items => .list (items.map fun i => .number (.ofInt i))) := by
  rw [Builtin.act, rangeValue, h]
  cases hbounds <;> rfl

/-- A range is exact. Between bounds of 64 bits there are only so many terms of the progression that come before the
    stop. Where they are no more than the limit, a call gives them in order, each as a number, and otherwise it fails with
    their count. The count and all items are found within 128 bits and without a division by zero. -/
theorem range_is_progression {start stop step : Int} (hstart : Number.InInt64 start) (hstop : Number.InInt64 stop)
    (hstep : Number.InInt64 step) (hzero : step ≠ 0) :
    ∃ items : List Int, Progression start stop step items ∧ (¬Precedes step start stop → items = []) ∧
      wideCount? start stop step = some (items.length : Int) ∧
      (items.length ≤ maxRangeItems → ∀ i < items.length, wideItem? start step i = items[i]?) ∧
      ∀ (arguments : List Argument) (integers : List Int), RangeBounds integers start stop step →
        arguments.mapM Argument.integer = .ok integers →
        Builtin.range.act arguments =
          if items.length ≤ maxRangeItems then .finish (.list (items.map fun i => .number (.ofInt i)))
          else .fail (.runtime s!"range() would produce {items.length} items, limit is {maxRangeItems}") := by
  let items := (List.range (rangeCount start stop step)).map fun (i : Nat) => start + i * step
  have hprogression : Progression start stop step items := progression_rangeCount hzero
  have hlength : items.length = rangeCount start stop step := by simp [items]
  refine ⟨items, hprogression, fun hbehind => ?_, ?_, fun hfew i hi => ?_, fun arguments integers hbounds h => ?_⟩
  · refine List.length_eq_zero_iff.mp (hlength.trans (Nat.eq_zero_of_not_pos fun hpos => hbehind ?_))
    simpa using (lt_rangeCount_iff hzero 0).mp hpos
  · rw [hlength]
    exact wideCount?_eq hstart hstop hstep hzero
  · rw [wideItem?_eq hstart hstep (Nat.lt_of_lt_of_le hi hfew)]
    obtain ⟨hterm, -⟩ := (hprogression i _).mp (List.getElem?_eq_getElem hi)
    rw [List.getElem?_eq_getElem hi, hterm]
  · rw [act_range hbounds h, rangeItems_eq hzero, hlength]
    split <;> rfl

/-- From the greatest integer down to before the least one in steps as large as the least one: the distance, and the
    step taken without its sign, are no integers of 64 bits. -/
theorem range_is_progression_between_extremes :
    let arguments : List Argument := [⟨none, .number 1e19⟩, ⟨none, .number (-1e19)⟩, ⟨none, .number (-1e19)⟩]
    arguments.mapM Argument.integer = .ok [9223372036854775807, -9223372036854775808, -9223372036854775808] ∧
      Builtin.range.act arguments =
        .finish (.list [.number (.ofInt 9223372036854775807), .number (.ofInt (-1))]) := by
  intro arguments
  have hup : Number.integer? 1e19 = some 10000000000000000000 := by decide +kernel
  have hdown : Number.integer? (-1e19) = some (-10000000000000000000) := by decide +kernel
  have harguments : arguments.mapM Argument.integer =
      .ok [9223372036854775807, -9223372036854775808, -9223372036854775808] := by
    rw [mapM_eq_ok_iff]
    simp [arguments, Argument.integer, hup, hdown, Number.clamp64, Number.minInt64, Number.maxInt64]
  obtain ⟨items, hprogression, -, hcount, -, hact⟩ := range_is_progression
    (by decide : Number.InInt64 9223372036854775807) (by decide : Number.InInt64 (-9223372036854775808))
    (by decide : Number.InInt64 (-9223372036854775808)) (by decide)
  have hlength : items.length = 2 := by
    have hcomputed : wideCount? 9223372036854775807 (-9223372036854775808) (-9223372036854775808) = some 2 := by
      decide +kernel
    exact Int.ofNat.inj (Option.some.inj (hcount.symm.trans hcomputed))
  obtain ⟨first, second, rfl⟩ := List.length_eq_two.mp hlength
  obtain ⟨rfl, -⟩ := (hprogression 0 first).mp rfl
  obtain ⟨rfl, -⟩ := (hprogression 1 second).mp rfl
  exact ⟨harguments, hact arguments _ .startStopStep harguments⟩

end TemplatedSql
