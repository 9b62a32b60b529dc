import TemplatedSql.Proofs.Provenance.Reach

/-! # The names of native functions

A value holds a function of the host by its key, and by a name that is in its text. A host makes each of its functions
with one name. Where it hands its functions over by these names, every value that comes up in a session holds them by
the same names. -/

namespace TemplatedSql

/-- All macros, and each function of the host by the name that it was made with. -/
def Environment.known (env : Environment) : Known where
  macros := Set.univ
  hosts key := {name | ∃ f, env.hosts[key]? = some f ∧ f.name = name}

namespace Value
variable {env : Environment} {u v : Value}

/-- A function of the host that the value holds, with its key and the name that it goes by there. What another function
    holds does not count. -/
inductive HoldsHost : Value → Nat → String → Prop
  | function {key name} : HoldsHost (.function (.host key name)) key name
  | item {items v key name} (hmem : v ∈ items) (h : HoldsHost v key name) : HoldsHost (.list items) key name
  | entry {entries k v key name} (hmem : (k, v) ∈ entries) (h : HoldsHost v key name) :
    HoldsHost (.mapping entries) key name

theorem HoldsHost.known {known : Known} {key : Nat} {name : String} (h : v.HoldsHost key name) (hv : v.Among known) :
    name ∈ known.hosts key := by
  induction h with
  | function => exact Function.among_host.mp (among_function.mp hv)
  | item hmem _ ih => exact ih (among_list.mp hv _ hmem)
  | entry hmem _ ih => exact ih (among_mapping.mp hv _ hmem)

/-- No function of the host goes by two names, one in each of two values. -/
def OneName (v w : Value) : Prop :=
  ∀ key a b, v.HoldsHost key a → w.HoldsHost key b → a = b

end Value

/-! ### Values that come up -/

namespace Value
variable {env : Environment} {u v : Value}

/-- The value comes up in a session that hands functions of the host over by the names that they were made with: during
    one of the operations an expression evaluates to it, or it is read or given by a call. -/
def ComesUp (env : Environment) (v : Value) : Prop :=
  ∃ ops op rest c first start n a d, (∀ op ∈ ops, Session.Op.Among env.known op) ∧
    Session.Reaches env ops .initial (op :: rest) c ∧ Session.Op.Starts c op first start ∧
    Activity.Within env first start n a d ∧ a.Gives env d v

theorem ComesUp.among (henv : env.Among env.known) (h : v.ComesUp env) : v.Among env.known := by
  obtain ⟨ops, op, rest, c, first, start, n, a, d, hops, hreaches, hstarts, hwithin, hgives⟩ := h
  obtain ⟨hrest, hc⟩ := hreaches.among henv hops .initial
  obtain ⟨hfirst, hstart⟩ := hstarts.among (hrest op List.mem_cons_self) hc
  obtain ⟨ha, hd⟩ := hwithin.among Set.mem_univ henv hfirst hstart
  exact hgives.among henv ha hd

end Value

end TemplatedSql
