import TemplatedSql.Proofs.Printing.Subtree
import TemplatedSql.Proofs.Relocation.Tree
import TemplatedSql.Tree.Printer

/-! # The source text of moved trees

The text of a tree shows nothing of its places, so a tree can be compared with what its text is parsed to by moving
all places of both to one. -/

namespace TemplatedSql

/-- The place that all places are moved to. -/
def Position.toStart (_ : Position) : Position := .start

/-- The body without its places, and with texts next to each other as one. -/
def Body.unplaced (b : Body) : Body :=
  b.relocate Position.toStart Position.toStart

mutual

theorem Expr.relocate_toStart : ∀ e : Expr, e.relocate Position.toStart = e.unplaced
  | .literal .. | .name .. => by
    simp only [Expr.relocate, Expr.unplaced, Position.toStart]
  | .list _ items => by
    simp only [Expr.relocate, Expr.unplaced, Position.toStart, Expr.relocateAll_toStart items]
  | .member _ target _ => by
    simp only [Expr.relocate, Expr.unplaced, Position.toStart, target.relocate_toStart]
  | .index _ left right | .binary _ _ left right => by
    simp only [Expr.relocate, Expr.unplaced, Position.toStart, left.relocate_toStart, right.relocate_toStart]
  | .unary _ _ operand => by
    simp only [Expr.relocate, Expr.unplaced, Position.toStart, operand.relocate_toStart]
  | .call _ callee arguments => by
    simp only [Expr.relocate, Expr.unplaced, Position.toStart, callee.relocate_toStart,
      CallArgument.relocateAll_toStart arguments]

theorem Expr.relocateAll_toStart : ∀ es : List Expr, Expr.relocateAll Position.toStart es = Expr.unplacedOf es
  | [] => by
    simp only [Expr.relocateAll, Expr.unplacedOf]
  | e :: es => by
    simp only [Expr.relocateAll, Expr.unplacedOf, e.relocate_toStart, Expr.relocateAll_toStart es]

theorem CallArgument.relocateAll_toStart : ∀ as : List CallArgument,
    CallArgument.relocateAll Position.toStart as = CallArgument.unplacedOf as
  | [] => by
    simp only [CallArgument.relocateAll, CallArgument.unplacedOf]
  | ⟨name, e⟩ :: as => by
    simp only [CallArgument.relocateAll, CallArgument.relocate, CallArgument.unplacedOf, CallArgument.unplaced,
      e.relocate_toStart, CallArgument.relocateAll_toStart as]

end

section
variable (g : Position → Position)

mutual

theorem Expr.source_relocate : ∀ e : Expr, (e.relocate g).source = e.source
  | .literal .. | .name .. => by
    simp only [Expr.relocate, Expr.source]
  | .list _ items => by
    simp only [Expr.relocate, Expr.source, Expr.sources_relocate items]
  | .member _ target _ => by
    simp only [Expr.relocate, Expr.source, target.source_relocate]
  | .index _ left right | .binary _ _ left right => by
    simp only [Expr.relocate, Expr.source, left.source_relocate, right.source_relocate]
  | .unary _ op operand => by
    cases op <;> simp only [Expr.relocate, Expr.source, operand.source_relocate]
  | .call _ callee arguments => by
    simp only [Expr.relocate, Expr.source, callee.source_relocate, CallArgument.sources_relocate arguments]

theorem Expr.sources_relocate : ∀ es : List Expr, Expr.sources (Expr.relocateAll g es) = Expr.sources es
  | [] => by
    simp only [Expr.relocateAll]
  | e :: es => by
    simp only [Expr.relocateAll, Expr.sources, e.source_relocate, Expr.sources_relocate es]

theorem CallArgument.sources_relocate : ∀ as : List CallArgument,
    CallArgument.sources (CallArgument.relocateAll g as) = CallArgument.sources as
  | [] => by
    simp only [CallArgument.relocateAll]
  | ⟨none, e⟩ :: as | ⟨some _, e⟩ :: as => by
    simp only [CallArgument.relocateAll, CallArgument.relocate, CallArgument.sources, CallArgument.source,
      e.source_relocate, CallArgument.sources_relocate as]

end

end

theorem Node.sources_before (n : Node) (ns : List Node) : Node.sources (n.before ns) = n.source ++ Node.sources ns := by
  unfold before
  split
  · simp only [sources, source, String.append_assoc]
  · rw [sources]

section
variable (h : Position → Position)

mutual

theorem Node.source_relocate : ∀ (n : Node) (g : Position → Position), (n.relocate h g).source = n.source
  | .text .., _ => by
    simp only [Node.relocate, Node.source]
  | .output _ e, g | .assign _ _ e, g => by
    simp only [Node.relocate, Node.source, e.source_relocate]
  | .branch _ condition body rest, g => by
    simp only [Node.relocate, Node.source, condition.source_relocate, body.source_relocate, rest.source_relocate]
  | .loop _ _ iterable body, g => by
    simp only [Node.relocate, Node.source, iterable.source_relocate, body.source_relocate]
  | .macroDef ⟨_, _, _, body⟩, _ => by
    simp only [Node.relocate, Node.source, MacroDef.relocate, MacroDef.source, body.source_relocate]

theorem Alternative.source_relocate : ∀ (a : Alternative) (g : Position → Position), (a.relocate h g).source = a.source
  | .nothing, _ => by
    simp only [Alternative.relocate]
  | .otherwise body, g => by
    simp only [Alternative.relocate, Alternative.source, body.source_relocate]
  | .elseIf condition body rest, g => by
    simp only [Alternative.relocate, Alternative.source, condition.source_relocate, body.source_relocate,
      rest.source_relocate]

/-- The text of a body shows neither its places nor how its text is divided. -/
theorem Body.source_relocate : ∀ (b : Body) (g : Position → Position), (b.relocate h g).source = b.source
  | ⟨_, nodes⟩, g => by
    simp only [Body.relocate, Body.source, Node.sources_relocateAll nodes]

theorem Node.sources_relocateAll : ∀ (ns : List Node) (g : Position → Position),
    Node.sources (Node.relocateAll h g ns) = Node.sources ns
  | [], _ => by
    simp only [Node.relocateAll]
  | n :: ns, g => by
    rw [Node.relocateAll, Node.sources_before, n.source_relocate, Node.sources_relocateAll ns, Node.sources]

end

end

end TemplatedSql
