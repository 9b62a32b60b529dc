import TemplatedSql.Tree

/-! # Trees with other places

A tree is moved by a function on places, the bodies of its macros by another, and texts that stand next to each
other become one. What a template renders to does not depend on either. -/

namespace TemplatedSql

/-! ### Places -/

mutual

/-- The places that an expression keeps. -/
def Expr.places : Expr → List Position
  | .literal p _ | .name p _ => [p]
  | .list p items => p :: Expr.placesOf items
  | .member p target _ => p :: target.places
  | .index p target index => p :: (target.places ++ index.places)
  | .binary p _ left right => p :: (left.places ++ right.places)
  | .unary p _ operand => p :: operand.places
  | .call p callee arguments => p :: (callee.places ++ CallArgument.placesOf arguments)

def Expr.placesOf : List Expr → List Position
  | [] => []
  | e :: es => e.places ++ Expr.placesOf es

def CallArgument.places : CallArgument → List Position
  | ⟨_, value⟩ => value.places

def CallArgument.placesOf : List CallArgument → List Position
  | [] => []
  | a :: as => a.places ++ CallArgument.placesOf as

end

theorem Expr.position_mem_places (e : Expr) : e.position ∈ e.places := by
  cases e <;> simp [Expr.position, Expr.places]

mutual

/-- The places that a node keeps, and all that is in it. -/
def Node.places : Node → List Position
  | .text p _ => [p]
  | .output p e => p :: e.places
  | .branch p condition body rest => p :: (condition.places ++ body.places ++ rest.places)
  | .loop p _ iterable body => p :: (iterable.places ++ body.places)
  | .macroDef d => d.places
  | .assign p _ value => p :: value.places

def Alternative.places : Alternative → List Position
  | .nothing => []
  | .otherwise body => body.places
  | .elseIf condition body rest => condition.places ++ body.places ++ rest.places

def MacroDef.places : MacroDef → List Position
  | ⟨p, _, _, body⟩ => p :: body.places

def Body.places : Body → List Position
  | ⟨p, nodes⟩ => p :: Node.placesOf nodes

def Node.placesOf : List Node → List Position
  | [] => []
  | n :: ns => n.places ++ Node.placesOf ns

end

mutual

/-- The macros that a node defines, outside those of other macros. -/
def Node.macros : Node → List MacroDef
  | .text .. | .output .. | .assign .. => []
  | .branch _ _ body rest => body.macros ++ rest.macros
  | .loop _ _ _ body => body.macros
  | .macroDef d => [d]

def Alternative.macros : Alternative → List MacroDef
  | .nothing => []
  | .otherwise body => body.macros
  | .elseIf _ body rest => body.macros ++ rest.macros

def Body.macros : Body → List MacroDef
  | ⟨_, nodes⟩ => Node.macrosOf nodes

def Node.macrosOf : List Node → List MacroDef
  | [] => []
  | n :: ns => n.macros ++ Node.macrosOf ns

end

theorem MacroDef.places_of_body (d : MacroDef) : d.body.places ⊆ d.places := by
  obtain ⟨p, name, parameters, body⟩ := d
  rw [MacroDef.places]
  exact List.subset_cons_self p _

mutual

theorem Node.places_of_mem_macros : ∀ (n : Node), ∀ d ∈ n.macros, d.places ⊆ n.places
  | .text .., d, h | .output .., d, h | .assign .., d, h => by
    rw [Node.macros] at h
    cases h
  | .branch p condition body rest, d, h => by
    rw [Node.macros, List.mem_append] at h
    rw [Node.places]
    refine List.subset_cons_of_subset p ?_
    rcases h with h | h
    · exact List.subset_append_of_subset_left _
        (List.subset_append_of_subset_right _ (body.places_of_mem_macros d h))
    · exact List.subset_append_of_subset_right _ (rest.places_of_mem_macros d h)
  | .loop p targets iterable body, d, h => by
    rw [Node.macros] at h
    rw [Node.places]
    exact List.subset_cons_of_subset p (List.subset_append_of_subset_right _ (body.places_of_mem_macros d h))
  | .macroDef d', d, h => by
    rw [Node.macros, List.mem_singleton] at h
    subst h
    rw [Node.places]
    exact List.Subset.refl _

theorem Alternative.places_of_mem_macros : ∀ (a : Alternative), ∀ d ∈ a.macros, d.places ⊆ a.places
  | .nothing, d, h => by
    rw [Alternative.macros] at h
    cases h
  | .otherwise body, d, h => by
    rw [Alternative.macros] at h
    rw [Alternative.places]
    exact body.places_of_mem_macros d h
  | .elseIf condition body rest, d, h => by
    rw [Alternative.macros, List.mem_append] at h
    rw [Alternative.places]
    rcases h with h | h
    · exact List.subset_append_of_subset_left _
        (List.subset_append_of_subset_right _ (body.places_of_mem_macros d h))
    · exact List.subset_append_of_subset_right _ (rest.places_of_mem_macros d h)

theorem Body.places_of_mem_macros : ∀ (b : Body), ∀ d ∈ b.macros, d.places ⊆ b.places
  | ⟨p, nodes⟩, d, h => by
    rw [Body.macros] at h
    rw [Body.places]
    exact List.subset_cons_of_subset p (Node.placesOf_of_mem_macros nodes d h)

theorem Node.placesOf_of_mem_macros : ∀ (ns : List Node), ∀ d ∈ Node.macrosOf ns, d.places ⊆ Node.placesOf ns
  | [], d, h => by
    rw [Node.macrosOf] at h
    cases h
  | n :: ns, d, h => by
    rw [Node.macrosOf, List.mem_append] at h
    rw [Node.placesOf]
    rcases h with h | h
    · exact List.subset_append_of_subset_left _ (n.places_of_mem_macros d h)
    · exact List.subset_append_of_subset_right _ (Node.placesOf_of_mem_macros ns d h)

end

/-! ### Moving -/

mutual

/-- The expression with its places moved. -/
def Expr.relocate (g : Position → Position) : Expr → Expr
  | .literal p value => .literal (g p) value
  | .list p items => .list (g p) (Expr.relocateAll g items)
  | .name p name => .name (g p) name
  | .member p target name => .member (g p) (target.relocate g) name
  | .index p target index => .index (g p) (target.relocate g) (index.relocate g)
  | .binary p op left right => .binary (g p) op (left.relocate g) (right.relocate g)
  | .unary p op operand => .unary (g p) op (operand.relocate g)
  | .call p callee arguments => .call (g p) (callee.relocate g) (CallArgument.relocateAll g arguments)

def Expr.relocateAll (g : Position → Position) : List Expr → List Expr
  | [] => []
  | e :: es => e.relocate g :: Expr.relocateAll g es

def CallArgument.relocate (g : Position → Position) : CallArgument → CallArgument
  | ⟨name, value⟩ => ⟨name, value.relocate g⟩

def CallArgument.relocateAll (g : Position → Position) : List CallArgument → List CallArgument
  | [] => []
  | a :: as => a.relocate g :: CallArgument.relocateAll g as

end

/-- A node before others, where a text goes on with the text that comes next. -/
def Node.before : Node → List Node → List Node
  | .text p s, .text _ t :: ns => .text p (s ++ t) :: ns
  | n, ns => n :: ns

mutual

/-- The node with its places moved by `g`, but those in macros by `h`, and without texts next to each other. -/
def Node.relocate (h : Position → Position) : (Position → Position) → Node → Node
  | g, .text p s => .text (g p) s
  | g, .output p e => .output (g p) (e.relocate g)
  | g, .branch p condition body rest =>
    .branch (g p) (condition.relocate g) (body.relocate h g) (rest.relocate h g)
  | g, .loop p targets iterable body => .loop (g p) targets (iterable.relocate g) (body.relocate h g)
  | _, .macroDef d => .macroDef (d.relocate h)
  | g, .assign p name value => .assign (g p) name (value.relocate g)

def Alternative.relocate (h : Position → Position) : (Position → Position) → Alternative → Alternative
  | _, .nothing => .nothing
  | g, .otherwise body => .otherwise (body.relocate h g)
  | g, .elseIf condition body rest => .elseIf (condition.relocate g) (body.relocate h g) (rest.relocate h g)

def MacroDef.relocate (h : Position → Position) : MacroDef → MacroDef
  | ⟨p, name, parameters, body⟩ => ⟨h p, name, parameters, body.relocate h h⟩

def Body.relocate (h : Position → Position) : (Position → Position) → Body → Body
  | g, ⟨p, nodes⟩ => ⟨g p, Node.relocateAll h g nodes⟩

def Node.relocateAll (h : Position → Position) : (Position → Position) → List Node → List Node
  | _, [] => []
  | g, n :: ns => (n.relocate h g).before (Node.relocateAll h g ns)

end

/-! ### One move after another -/

section
variable (g g' : Position → Position)

mutual

theorem Expr.relocate_relocate : ∀ e : Expr, (e.relocate g).relocate g' = e.relocate (g' ∘ g)
  | .literal .. | .name .. => by
    simp only [Expr.relocate, Function.comp_apply]
  | .list _ items => by
    simp only [Expr.relocate, Function.comp_apply, Expr.relocateAll_relocateAll items]
  | .member _ target _ => by
    simp only [Expr.relocate, Function.comp_apply, target.relocate_relocate]
  | .index _ left right | .binary _ _ left right => by
    simp only [Expr.relocate, Function.comp_apply, left.relocate_relocate, right.relocate_relocate]
  | .unary _ _ operand => by
    simp only [Expr.relocate, Function.comp_apply, operand.relocate_relocate]
  | .call _ callee arguments => by
    simp only [Expr.relocate, Function.comp_apply, callee.relocate_relocate,
      CallArgument.relocateAll_relocateAll arguments]

theorem Expr.relocateAll_relocateAll : ∀ es : List Expr,
    Expr.relocateAll g' (Expr.relocateAll g es) = Expr.relocateAll (g' ∘ g) es
  | [] => rfl
  | e :: es => by
    simp only [Expr.relocateAll, e.relocate_relocate, Expr.relocateAll_relocateAll es]

theorem CallArgument.relocateAll_relocateAll : ∀ as : List CallArgument,
    CallArgument.relocateAll g' (CallArgument.relocateAll g as) = CallArgument.relocateAll (g' ∘ g) as
  | [] => rfl
  | ⟨name, e⟩ :: as => by
    simp only [CallArgument.relocateAll, CallArgument.relocate, e.relocate_relocate,
      CallArgument.relocateAll_relocateAll as]

end

end

section
variable (h h' : Position → Position)

/-- A text before another one before others is the longer text before them. -/
theorem Node.text_before_before (p q : Position) (s t : String) (ns : List Node) :
    (Node.text p s).before ((Node.text q t).before ns) = (Node.text p (s ++ t)).before ns := by
  cases ns with
  | nil => rfl
  | cons n ns =>
    cases n with
    | text r u => simp only [before, String.append_assoc]
    | _ => rfl

theorem Node.relocateAll_before (g : Position → Position) (n : Node) (ns : List Node) :
    Node.relocateAll h g (n.before ns) = (n.relocate h g).before (Node.relocateAll h g ns) := by
  generalize hbefore : n.before ns = ms
  unfold before at hbefore
  split at hbefore <;> subst hbefore
  · simp only [relocateAll, relocate, text_before_before]
  · rw [relocateAll]

mutual

theorem Node.relocate_relocate : ∀ (n : Node) (g g' : Position → Position),
    (n.relocate h g).relocate h' g' = n.relocate (h' ∘ h) (g' ∘ g)
  | .text .., _, _ => by
    simp only [Node.relocate, Function.comp_apply]
  | .output _ e, g, g' | .assign _ _ e, g, g' => by
    simp only [Node.relocate, Function.comp_apply, e.relocate_relocate]
  | .branch _ condition body rest, g, g' => by
    simp only [Node.relocate, Function.comp_apply, condition.relocate_relocate, body.relocate_relocate,
      rest.relocate_relocate]
  | .loop _ _ iterable body, g, g' => by
    simp only [Node.relocate, Function.comp_apply, iterable.relocate_relocate, body.relocate_relocate]
  | .macroDef ⟨_, _, _, body⟩, _, _ => by
    simp only [Node.relocate, MacroDef.relocate, Function.comp_apply, body.relocate_relocate]

theorem Alternative.relocate_relocate : ∀ (a : Alternative) (g g' : Position → Position),
    (a.relocate h g).relocate h' g' = a.relocate (h' ∘ h) (g' ∘ g)
  | .nothing, _, _ => by
    simp only [Alternative.relocate]
  | .otherwise body, g, g' => by
    simp only [Alternative.relocate, body.relocate_relocate]
  | .elseIf condition body rest, g, g' => by
    simp only [Alternative.relocate, condition.relocate_relocate, body.relocate_relocate, rest.relocate_relocate]

/-- A body that is moved twice is moved at once. -/
theorem Body.relocate_relocate : ∀ (b : Body) (g g' : Position → Position),
    (b.relocate h g).relocate h' g' = b.relocate (h' ∘ h) (g' ∘ g)
  | ⟨_, nodes⟩, g, g' => by
    simp only [Body.relocate, Function.comp_apply, Node.relocateAll_relocateAll nodes]

theorem Node.relocateAll_relocateAll : ∀ (ns : List Node) (g g' : Position → Position),
    Node.relocateAll h' g' (Node.relocateAll h g ns) = Node.relocateAll (h' ∘ h) (g' ∘ g) ns
  | [], _, _ => by
    simp only [Node.relocateAll]
  | n :: ns, g, g' => by
    simp only [Node.relocateAll, Node.relocateAll_before, n.relocate_relocate, Node.relocateAll_relocateAll ns]

end

end

end TemplatedSql
