import TemplatedSql.Tree

/-! # The expressions in a tree

What is shown of an expression that is written out and read back concerns all its parts, and holds up to the places
that the tree keeps. -/

namespace TemplatedSql

mutual

/-- An expression and all its parts. -/
def Expr.subtrees : Expr → List Expr
  | e@(.literal ..) | e@(.name ..) => [e]
  | e@(.list _ items) => e :: Expr.subtreesOf items
  | e@(.member _ target _) => e :: target.subtrees
  | e@(.index _ target index) => e :: (target.subtrees ++ index.subtrees)
  | e@(.binary _ _ left right) => e :: (left.subtrees ++ right.subtrees)
  | e@(.unary _ _ operand) => e :: operand.subtrees
  | e@(.call _ callee arguments) => e :: (callee.subtrees ++ CallArgument.subtreesOf arguments)

def Expr.subtreesOf : List Expr → List Expr
  | [] => []
  | e :: es => e.subtrees ++ Expr.subtreesOf es

def CallArgument.subtrees : CallArgument → List Expr
  | ⟨_, value⟩ => value.subtrees

def CallArgument.subtreesOf : List CallArgument → List Expr
  | [] => []
  | a :: as => a.subtrees ++ CallArgument.subtreesOf as

end

mutual

/-- The expressions that a node holds, and those of the bodies in it. -/
def Node.expressions : Node → List Expr
  | .text .. => []
  | .output _ expr => [expr]
  | .branch _ condition body rest => condition :: (body.expressions ++ rest.expressions)
  | .loop _ _ iterable body => iterable :: body.expressions
  | .macroDef definition => definition.expressions
  | .assign _ _ value => [value]

def Alternative.expressions : Alternative → List Expr
  | .nothing => []
  | .otherwise body => body.expressions
  | .elseIf condition body rest => condition :: (body.expressions ++ rest.expressions)

def MacroDef.expressions : MacroDef → List Expr
  | ⟨_, _, _, body⟩ => body.expressions

/-- The expressions that the nodes of a body hold, however deep. -/
def Body.expressions : Body → List Expr
  | ⟨_, nodes⟩ => Node.expressionsOf nodes

def Node.expressionsOf : List Node → List Expr
  | [] => []
  | n :: ns => n.expressions ++ Node.expressionsOf ns

end

mutual

/-- The expression without its places. -/
def Expr.unplaced : Expr → Expr
  | .literal _ value => .literal .start value
  | .list _ items => .list .start (Expr.unplacedOf items)
  | .name _ name => .name .start name
  | .member _ target name => .member .start target.unplaced name
  | .index _ target index => .index .start target.unplaced index.unplaced
  | .binary _ op left right => .binary .start op left.unplaced right.unplaced
  | .unary _ op operand => .unary .start op operand.unplaced
  | .call _ callee arguments => .call .start callee.unplaced (CallArgument.unplacedOf arguments)

def Expr.unplacedOf : List Expr → List Expr
  | [] => []
  | e :: es => e.unplaced :: Expr.unplacedOf es

def CallArgument.unplaced : CallArgument → CallArgument
  | ⟨name, value⟩ => ⟨name, value.unplaced⟩

def CallArgument.unplacedOf : List CallArgument → List CallArgument
  | [] => []
  | a :: as => a.unplaced :: CallArgument.unplacedOf as

end

theorem Expr.mem_subtrees_self (e : Expr) : e ∈ e.subtrees := by
  cases e <;> simp only [Expr.subtrees, List.mem_cons, true_or]

mutual

/-- The parts of a part are parts. -/
theorem Expr.subtrees_subset : ∀ (e : Expr), ∀ s ∈ e.subtrees, s.subtrees ⊆ e.subtrees
  | .literal p v, s, hs | .name p n, s, hs => by
    rw [Expr.subtrees, List.mem_singleton] at hs
    subst hs
    exact List.Subset.refl _
  | .list p items, s, hs => by
    rw [Expr.subtrees, List.mem_cons] at hs
    rcases hs with rfl | hs
    · exact List.Subset.refl _
    · rw [Expr.subtrees]
      exact List.subset_cons_of_subset _ (Expr.subtreesOf_subset items s hs)
  | .member p target name, s, hs => by
    rw [Expr.subtrees, List.mem_cons] at hs
    rcases hs with rfl | hs
    · exact List.Subset.refl _
    · rw [Expr.subtrees]
      exact List.subset_cons_of_subset _ (target.subtrees_subset s hs)
  | .index p left right, s, hs | .binary p op left right, s, hs => by
    rw [Expr.subtrees, List.mem_cons, List.mem_append] at hs
    rcases hs with rfl | hs | hs
    · exact List.Subset.refl _
    · rw [Expr.subtrees]
      exact List.subset_cons_of_subset _ (List.subset_append_of_subset_left _ (left.subtrees_subset s hs))
    · rw [Expr.subtrees]
      exact List.subset_cons_of_subset _ (List.subset_append_of_subset_right _ (right.subtrees_subset s hs))
  | .unary p op operand, s, hs => by
    rw [Expr.subtrees, List.mem_cons] at hs
    rcases hs with rfl | hs
    · exact List.Subset.refl _
    · rw [Expr.subtrees]
      exact List.subset_cons_of_subset _ (operand.subtrees_subset s hs)
  | .call p callee arguments, s, hs => by
    rw [Expr.subtrees, List.mem_cons, List.mem_append] at hs
    rcases hs with rfl | hs | hs
    · exact List.Subset.refl _
    · rw [Expr.subtrees]
      exact List.subset_cons_of_subset _ (List.subset_append_of_subset_left _ (callee.subtrees_subset s hs))
    · rw [Expr.subtrees]
      exact List.subset_cons_of_subset _
        (List.subset_append_of_subset_right _ (CallArgument.subtreesOf_subset arguments s hs))

theorem Expr.subtreesOf_subset : ∀ (items : List Expr), ∀ s ∈ Expr.subtreesOf items,
    s.subtrees ⊆ Expr.subtreesOf items
  | [], s, hs => by
    rw [Expr.subtreesOf] at hs
    cases hs
  | e :: es, s, hs => by
    rw [Expr.subtreesOf, List.mem_append] at hs
    rw [Expr.subtreesOf]
    rcases hs with hs | hs
    · exact List.subset_append_of_subset_left _ (e.subtrees_subset s hs)
    · exact List.subset_append_of_subset_right _ (Expr.subtreesOf_subset es s hs)

theorem CallArgument.subtreesOf_subset : ∀ (arguments : List CallArgument), ∀ s ∈ CallArgument.subtreesOf arguments,
    s.subtrees ⊆ CallArgument.subtreesOf arguments
  | [], s, hs => by
    rw [CallArgument.subtreesOf] at hs
    cases hs
  | ⟨name, value⟩ :: as, s, hs => by
    rw [CallArgument.subtreesOf, CallArgument.subtrees, List.mem_append] at hs
    rw [CallArgument.subtreesOf, CallArgument.subtrees]
    rcases hs with hs | hs
    · exact List.subset_append_of_subset_left _ (value.subtrees_subset s hs)
    · exact List.subset_append_of_subset_right _ (CallArgument.subtreesOf_subset as s hs)

end

end TemplatedSql
