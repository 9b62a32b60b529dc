/-!
# Tables

A table gives values to names. Setting a name changes its entry in place or adds one at the end, so the
order of a table is that in which its names were first set.
-/

namespace TemplatedSql

/-- Names with their values. -/
abbrev Table (α : Type) := List (String × α)

namespace Table

variable {α : Type}

/-- The value of a name. -/
def get? (t : Table α) (name : String) : Option α :=
  t.lookup name

/-- The table with a value for a name. -/
def set (t : Table α) (name : String) (v : α) : Table α :=
  match t with
  | [] => [(name, v)]
  | (k, w) :: rest => if name = k then (k, v) :: rest else (k, w) :: set rest name v

/-- The table with the entries of another set in turn. -/
def setAll (t : Table α) (entries : Table α) : Table α :=
  entries.foldl (fun t e => t.set e.1 e.2) t

@[simp] theorem get?_nil (name : String) : get? ([] : Table α) name = none := rfl

theorem get?_cons (k : String) (w : α) (t : Table α) (name : String) :
    get? ((k, w) :: t) name = if name = k then some w else get? t name := by
  by_cases h : name = k
  · simp [get?, h]
  · simp [get?, List.lookup_cons, h, beq_eq_false_iff_ne.2 h]

theorem mem_of_get? {t : Table α} {name : String} {v : α} (h : t.get? name = some v) : (name, v) ∈ t := by
  obtain ⟨l, r, rfl, -⟩ := List.lookup_eq_some_iff.mp h
  simp

/-- Setting a name changes what that name has and nothing else. -/
theorem get?_set (t : Table α) (name : String) (v : α) (other : String) :
    (t.set name v).get? other = if other = name then some v else t.get? other := by
  induction t with
  | nil => simp [set, get?_cons]
  | cons e t ih =>
    obtain ⟨k, w⟩ := e
    by_cases h : name = k
    · subst h
      by_cases g : other = name <;> simp [set, get?_cons, g]
    · by_cases g : other = k
      · subst g
        simp [set, get?_cons, h, Ne.symm h]
      · simp [set, get?_cons, h, g, ih]

end Table

end TemplatedSql
