import TemplatedSql.Proofs.Grammar.Places
import TemplatedSql.Value

/-! # The shape of parsed trees

Whatever the tokens, a tree that the parser builds has statements in bodies alone and expressions everywhere else,
conditions with a first branch, loops with one name or two, parameters and arguments with distinct names, defaults that
are literals, and places where tokens start. The shape is told of a tree whose parts are all of one kind, where any part
could stand anywhere. -/

namespace TemplatedSql

mutual

/-- A part of a template without its places. -/
inductive Part
  | text (text : String)
  | output (expr : Part)
  | literal (value : Value)
  | list (items : List Part)
  | name (name : String)
  | member (target : Part) (name : String)
  | index (target index : Part)
  | binary (op : BinaryOp) (left right : Part)
  | unary (op : UnaryOp) (operand : Part)
  | call (callee : Part) (arguments : List NamedPart)
  | branch (arms : List Arm) (otherwise : Option (List Part))
  | loop (targets : List String) (iterable : Part) (body : List Part)
  | macroDef (name : String) (parameters : List (String × Option Value)) (body : List Part)
  | assign (name : String) (value : Part)

/-- An argument of a call, perhaps with a name. -/
structure NamedPart where
  name : Option String
  value : Part

/-- A condition and the body it guards. -/
structure Arm where
  condition : Part
  body : List Part

end

/-! ### Well-formed parts -/

/-- The value is a number, a string or a boolean. -/
def Value.IsScalar : Value → Prop
  | .number _ | .string _ | .boolean _ => True
  | _ => False

mutual

/-- The part is an expression, all of its own parts are, and no two arguments of a call have one name. -/
def Part.IsExpression : Part → Prop
  | .literal _ | .name _ => True
  | .list items => Part.AreExpressions items
  | .member target _ => target.IsExpression
  | .index target index => target.IsExpression ∧ index.IsExpression
  | .binary _ left right => left.IsExpression ∧ right.IsExpression
  | .unary _ operand => operand.IsExpression
  | .call callee arguments => callee.IsExpression ∧ NamedPart.AreExpressions arguments ∧
      (arguments.filterMap (·.name)).Nodup
  | .text _ | .output _ | .branch .. | .loop .. | .macroDef .. | .assign .. => False

def Part.AreExpressions : List Part → Prop
  | [] => True
  | part :: parts => part.IsExpression ∧ Part.AreExpressions parts

def NamedPart.IsExpression : NamedPart → Prop
  | ⟨_, value⟩ => value.IsExpression

def NamedPart.AreExpressions : List NamedPart → Prop
  | [] => True
  | argument :: arguments => argument.IsExpression ∧ NamedPart.AreExpressions arguments

end

mutual

/-- The part may stand in a body: it is a text, an expression to show or a statement with well-formed parts. -/
def Part.IsStatement : Part → Prop
  | .text _ => True
  | .output expr => expr.IsExpression
  | .branch arms none => arms ≠ [] ∧ Arm.AreWellFormed arms
  | .branch arms (some body) => arms ≠ [] ∧ Arm.AreWellFormed arms ∧ Part.AreStatements body
  | .loop targets iterable body => (targets.length = 1 ∨ targets.length = 2) ∧ iterable.IsExpression ∧
      Part.AreStatements body
  | .macroDef _ parameters body => (parameters.map (·.1)).Nodup ∧
      (∀ parameter ∈ parameters, ∀ value ∈ parameter.2, value.IsScalar) ∧ Part.AreStatements body
  | .assign _ value => value.IsExpression
  | .literal _ | .list _ | .name _ | .member .. | .index .. | .binary .. | .unary .. | .call .. => False

/-- The parts may stand in a body. -/
def Part.AreStatements : List Part → Prop
  | [] => True
  | part :: parts => part.IsStatement ∧ Part.AreStatements parts

def Arm.IsWellFormed : Arm → Prop
  | ⟨condition, body⟩ => condition.IsExpression ∧ Part.AreStatements body

def Arm.AreWellFormed : List Arm → Prop
  | [] => True
  | arm :: arms => arm.IsWellFormed ∧ Arm.AreWellFormed arms

end

/-! ### The parts of a tree -/

mutual

def Expr.part : Expr → Part
  | .literal _ value => .literal (.ofLiteral value)
  | .list _ items => .list (Expr.partsOf items)
  | .name _ name => .name name
  | .member _ target name => .member target.part name
  | .index _ target index => .index target.part index.part
  | .binary _ op left right => .binary op left.part right.part
  | .unary _ op operand => .unary op operand.part
  | .call _ callee arguments => .call callee.part (CallArgument.partsOf arguments)

def Expr.partsOf : List Expr → List Part
  | [] => []
  | e :: es => e.part :: Expr.partsOf es

def CallArgument.part : CallArgument → NamedPart
  | ⟨name, value⟩ => ⟨name, value.part⟩

def CallArgument.partsOf : List CallArgument → List NamedPart
  | [] => []
  | a :: as => a.part :: CallArgument.partsOf as

end

/-- The name of a parameter and the value of its default. -/
def Parameter.entry (p : Parameter) : String × Option Value :=
  (p.name, p.default.map Value.ofLiteral)

mutual

def Node.part : Node → Part
  | .text _ text => .text text
  | .output _ expr => .output expr.part
  | .branch _ condition body rest => .branch (⟨condition.part, body.parts⟩ :: rest.arms) rest.otherwise?
  | .loop _ targets iterable body => .loop targets.names iterable.part body.parts
  | .macroDef definition => definition.part
  | .assign _ name value => .assign name value.part

/-- The further conditions with their bodies. -/
def Alternative.arms : Alternative → List Arm
  | .nothing | .otherwise _ => []
  | .elseIf condition body rest => ⟨condition.part, body.parts⟩ :: rest.arms

/-- The body for where no condition holds. -/
def Alternative.otherwise? : Alternative → Option (List Part)
  | .nothing => none
  | .otherwise body => some body.parts
  | .elseIf _ _ rest => rest.otherwise?

def MacroDef.part : MacroDef → Part
  | ⟨_, name, parameters, body⟩ => .macroDef name (parameters.map Parameter.entry) body.parts

def Body.parts : Body → List Part
  | ⟨_, nodes⟩ => Node.partsOf nodes

def Node.partsOf : List Node → List Part
  | [] => []
  | n :: ns => n.part :: Node.partsOf ns

end

theorem CallArgument.filterMap_name_partsOf (as : List CallArgument) :
    (CallArgument.partsOf as).filterMap (·.name) = as.filterMap (·.name) := by
  induction as with
  | nil => rfl
  | cons a as ih =>
    obtain ⟨name, value⟩ := a
    rw [CallArgument.partsOf, CallArgument.part, List.filterMap_cons, List.filterMap_cons, ih]

theorem Value.isScalar_ofLiteral (l : Literal) : (Value.ofLiteral l).IsScalar := by
  cases l <;> exact trivial

/-! ### Derivations -/

namespace Grammar

mutual

theorem Arguments.distinct : ∀ {seen : List String} (d : Arguments seen),
    (d.trees.filterMap (·.name)).Nodup ∧ ∀ name ∈ seen, name ∉ d.trees.filterMap (·.name)
  | _, .close _ => by
    rw [Arguments.trees]
    exact ⟨List.nodup_nil, fun _ _ => List.not_mem_nil⟩
  | _, .positional value more => by
    rw [Arguments.trees]
    exact more.distinct
  | _, .named name sign hseen value more => by
    obtain ⟨hnodup, hnames⟩ := more.distinct
    rw [Arguments.trees, List.filterMap_cons]
    refine ⟨List.nodup_cons.mpr ⟨hnames _ List.mem_cons_self, hnodup⟩, fun other hother hmem => ?_⟩
    rcases List.mem_cons.mp hmem with rfl | hmem
    · exact hseen hother
    · exact hnames other (List.mem_cons_of_mem _ hother) hmem

theorem MoreArguments.distinct : ∀ {seen : List String} (d : MoreArguments seen),
    (d.trees.filterMap (·.name)).Nodup ∧ ∀ name ∈ seen, name ∉ d.trees.filterMap (·.name)
  | _, .close _ => by
    rw [MoreArguments.trees]
    exact ⟨List.nodup_nil, fun _ _ => List.not_mem_nil⟩
  | _, .comma _ arguments => by
    rw [MoreArguments.trees]
    exact arguments.distinct

end

mutual

theorem Expression.isExpression : ∀ {l : Parser.Level} (d : Expression l), d.tree.part.IsExpression
  | _, .not sign operand | _, .minus sign operand => by
    rw [Expression.tree, Expr.part]
    exact operand.isExpression
  | _, .plus sign operand => by
    rw [Expression.tree]
    exact operand.isExpression
  | _, .chain hl first more => by
    rw [Expression.tree]
    exact more.isExpression first.isExpression
  | _, .applied target postfixes => by
    rw [Expression.tree]
    exact postfixes.isExpression target.isExpression

theorem Chain.isExpression : ∀ {l : Parser.Level} (d : Chain l) {left : Expr}, left.part.IsExpression →
    (d.tree left).part.IsExpression
  | _, .nil, left, h => by
    rw [Chain.tree]
    exact h
  | _, .cons operator right more, left, h => by
    rw [Chain.tree]
    refine more.isExpression ?_
    rw [Expr.part]
    exact ⟨h, right.isExpression⟩

theorem Primary.isExpression : ∀ (d : Primary), d.tree.part.IsExpression
  | .number _ | .string _ | .trueWord _ | .falseWord _ | .name _ => by
    rw [Primary.tree, Expr.part]
    exact trivial
  | .paren opening inner closing => by
    rw [Primary.tree]
    exact inner.isExpression
  | .list opening items => by
    rw [Primary.tree, Expr.part]
    exact items.areExpressions

theorem Postfixes.isExpression : ∀ (d : Postfixes) {target : Expr}, target.part.IsExpression →
    (d.tree target).part.IsExpression
  | .nil, target, h => by
    rw [Postfixes.tree]
    exact h
  | .call opening arguments more, target, h => by
    rw [Postfixes.tree]
    refine more.isExpression ?_
    rw [Expr.part, Part.IsExpression, CallArgument.filterMap_name_partsOf]
    exact ⟨h, arguments.areExpressions, arguments.distinct.1⟩
  | .index opening index closing more, target, h => by
    rw [Postfixes.tree]
    refine more.isExpression ?_
    rw [Expr.part]
    exact ⟨h, index.isExpression⟩
  | .member dot name more, target, h => by
    rw [Postfixes.tree]
    refine more.isExpression ?_
    rw [Expr.part]
    exact h

theorem Arguments.areExpressions : ∀ {seen : List String} (d : Arguments seen),
    NamedPart.AreExpressions (CallArgument.partsOf d.trees)
  | _, .close _ => by
    rw [Arguments.trees, CallArgument.partsOf]
    exact trivial
  | _, .positional value more | _, .named _ _ _ value more => by
    rw [Arguments.trees, CallArgument.partsOf, CallArgument.part]
    exact ⟨value.isExpression, more.areExpressions⟩

theorem MoreArguments.areExpressions : ∀ {seen : List String} (d : MoreArguments seen),
    NamedPart.AreExpressions (CallArgument.partsOf d.trees)
  | _, .close _ => by
    rw [MoreArguments.trees, CallArgument.partsOf]
    exact trivial
  | _, .comma _ arguments => by
    rw [MoreArguments.trees]
    exact arguments.areExpressions

theorem Items.areExpressions : ∀ (d : Items), Part.AreExpressions (Expr.partsOf d.trees)
  | .close _ => by
    rw [Items.trees, Expr.partsOf]
    exact trivial
  | .item value more => by
    rw [Items.trees, Expr.partsOf]
    exact ⟨value.isExpression, more.areExpressions⟩

theorem MoreItems.areExpressions : ∀ (d : MoreItems), Part.AreExpressions (Expr.partsOf d.trees)
  | .close _ => by
    rw [MoreItems.trees, Expr.partsOf]
    exact trivial
  | .comma _ items => by
    rw [MoreItems.trees]
    exact items.areExpressions

end

theorem Parameters.distinct : ∀ {seen : List String} (d : Parameters seen),
    (d.parameters.map (·.name)).Nodup ∧ ∀ name ∈ seen, name ∉ d.parameters.map (·.name)
  | _, .close _ => ⟨List.nodup_nil, fun _ _ => List.not_mem_nil⟩
  | seen, .last name hseen _ _ => by
    rw [Parameters.parameters, List.map_singleton]
    refine ⟨List.nodup_singleton _, fun other hother hmem => hseen ?_⟩
    rw [List.mem_singleton] at hmem
    subst hmem
    exact hother
  | _, .cons name hseen _ _ more => by
    obtain ⟨hnodup, hnames⟩ := more.distinct
    rw [Parameters.parameters, List.map_cons]
    refine ⟨List.nodup_cons.mpr ⟨hnames _ List.mem_cons_self, hnodup⟩, fun other hother hmem => ?_⟩
    rcases List.mem_cons.mp hmem with rfl | hmem
    · exact hseen hother
    · exact hnames other (List.mem_cons_of_mem _ hother) hmem

theorem Nodes.parts_body (d : Nodes) (next : Token) : (d.body next).parts = Node.partsOf d.trees := by
  rw [Nodes.body, Body.parts]

mutual

theorem Nodes.areStatements : ∀ (d : Nodes), Part.AreStatements (Node.partsOf d.trees)
  | .nil => by
    rw [Nodes.trees, Node.partsOf]
    exact trivial
  | .text t more => by
    rw [Nodes.trees, Node.partsOf, Node.part]
    exact ⟨trivial, more.areStatements⟩
  | .blank t more | .comment t more => by
    rw [Nodes.trees]
    exact more.areStatements
  | .output opening expr closing more => by
    rw [Nodes.trees, Node.partsOf, Node.part]
    exact ⟨expr.isExpression, more.areStatements⟩
  | .statement opening statement more => by
    rw [Nodes.trees, Node.partsOf]
    exact ⟨statement.isStatement, more.areStatements⟩

theorem Statement.isStatement : ∀ (d : Statement), d.tree.part.IsStatement
  | .branch word condition closing body rest => by
    obtain ⟨harms, hotherwise⟩ := rest.areWellFormed
    have hfirst : Arm.IsWellFormed ⟨condition.tree.part, Node.partsOf body.trees⟩ :=
      ⟨condition.isExpression, body.areStatements⟩
    rw [Statement.tree, Node.part, body.parts_body]
    cases hrest : rest.tree.otherwise? with
    | none => exact ⟨List.cons_ne_nil _ _, hfirst, harms⟩
    | some last => exact ⟨List.cons_ne_nil _ _, ⟨hfirst, harms⟩, hotherwise last hrest⟩
  | .loop word names sign iterable closing body last => by
    rw [Statement.tree, Node.part, body.parts_body]
    refine ⟨?_, iterable.isExpression, body.areStatements⟩
    cases names with
    | one name => exact Or.inl rfl
    | two first comma second => exact Or.inr rfl
  | .macroDef word name paren parameters closing body last => by
    rw [Statement.tree, Node.part, MacroDef.part, body.parts_body]
    refine ⟨?_, fun parameter hparameter value hvalue => ?_, body.areStatements⟩
    · rw [List.map_map]
      exact parameters.distinct.1
    · obtain ⟨p, -, rfl⟩ := List.mem_map.mp hparameter
      obtain ⟨l, -, rfl⟩ := Option.mem_map.mp hvalue
      exact Value.isScalar_ofLiteral l
  | .assign word name sign value closing => by
    rw [Statement.tree, Node.part]
    exact value.isExpression

theorem Alternative.areWellFormed : ∀ (d : Alternative), Arm.AreWellFormed d.tree.arms ∧
    ∀ body, d.tree.otherwise? = some body → Part.AreStatements body
  | .nothing last => by
    rw [Alternative.tree]
    refine ⟨trivial, fun body hbody => ?_⟩
    cases hbody
  | .otherwise tag body last => by
    rw [Alternative.tree]
    refine ⟨trivial, fun parts hparts => ?_⟩
    cases hparts
    rw [body.parts_body]
    exact body.areStatements
  | .elseIf opening word condition closing body rest => by
    obtain ⟨harms, hotherwise⟩ := rest.areWellFormed
    rw [Alternative.tree, TemplatedSql.Alternative.arms, body.parts_body]
    exact ⟨⟨⟨condition.isExpression, body.areStatements⟩, harms⟩, hotherwise⟩

end

end Grammar

/-! ### All lists of tokens -/

/-- The tokens with an end token after them, in the place of the last one, unless they end in one. -/
def Token.terminated (tokens : List Token) : List Token :=
  if tokens.getLast?.map (·.kind) = some .eof then tokens
  else tokens ++ [⟨.eof, "", tokens.getLast?.elim ⟨0, 0⟩ Token.start⟩]

theorem Token.subset_terminated (tokens : List Token) : tokens ⊆ Token.terminated tokens := by
  unfold Token.terminated
  split
  · exact List.Subset.refl tokens
  · exact List.subset_append_left _ _

/-- Where the parser says that the tokens end, one of them starts, or the end token that comes after them. -/
theorem Token.exists_stop (tokens : List Token) : ∃ t ∈ Token.terminated tokens,
    t.start = (tokens.find? (·.kind == .eof) <|> tokens.getLast?).elim ⟨0, 0⟩ Token.start := by
  cases hfind : tokens.find? (·.kind == .eof) with
  | some stop => exact ⟨stop, Token.subset_terminated tokens (List.mem_of_find?_eq_some hfind), rfl⟩
  | none =>
    cases hlast : tokens.getLast? with
    | some last => exact ⟨last, Token.subset_terminated tokens (List.mem_of_getLast? hlast), rfl⟩
    | none =>
      rw [List.getLast?_eq_none_iff] at hlast
      subst hlast
      exact ⟨⟨.eof, "", ⟨0, 0⟩⟩, List.mem_singleton_self _, rfl⟩

open TemplatedSql.Grammar

/-- What is parsed of any tokens is derived from those before the first end token. -/
theorem Body.derivation_of_ofTokens {tokens : List Token} {body : Body} (h : Body.ofTokens tokens = .ok body) :
    ∃ (d : Nodes) (stop : Token), d.tokens = tokens.takeWhile (·.kind != .eof) ∧
      stop ∈ Token.terminated tokens ∧ d.body stop = body := by
  obtain ⟨stop, hstop, hstart⟩ := Token.exists_stop tokens
  unfold Body.ofTokens at h
  obtain ⟨⟨⟨nodes, word⟩, rest, hshort⟩, hread, hbody⟩ := bind_eq_ok_iff.mp h
  obtain ⟨d, htokens, htrees⟩ := nodes_sound ⟨hshort, hread⟩
  refine ⟨d, stop, htokens, hstop, ?_⟩
  rw [Nodes.body, ← place_tokens, htokens, hstart, htrees]
  exact Except.ok.inj hbody

/-- Parsed trees are well formed, whatever the tokens. Only texts, expressions to show and statements stand in bodies,
    and all that stands elsewhere is an expression; a condition has a first branch, a loop has one name or two, the
    parameters of a macro and the names in a call are distinct, and a default is a number, a string or a boolean. Every
    place that the tree keeps is the start of a token, perhaps of the end token that comes after them.

    That the names are distinct and where the places come from is the parser's doing. The other clauses hold of every
    body, as the types of the tree leave nothing else to stand there: they are said of the parts, which have one type
    for all, so that they can be read without the tree. -/
theorem parsed_tree_wellFormed {tokens : List Token} {body : Body} (h : Body.ofTokens tokens = .ok body) :
    Part.AreStatements body.parts ∧ ∀ p ∈ body.places, ∃ t ∈ Token.terminated tokens, t.start = p := by
  obtain ⟨d, stop, htokens, hstop, rfl⟩ := Body.derivation_of_ofTokens h
  rw [d.parts_body]
  refine ⟨d.areStatements, d.placesOfBody stop (fun t ht => ⟨t, ?_, rfl⟩) ⟨stop, hstop, rfl⟩⟩
  rw [htokens] at ht
  exact Token.subset_terminated tokens ((List.takeWhile_sublist _).subset ht)

/-- A macro with a default and a call with a name, in tokens that go on after an end token and do not end in one. -/
theorem parsed_tree_wellFormed_past_end :
    let tokens : List Token :=
      [⟨.stmtOpen, "\x7b%", ⟨1, 1⟩⟩, ⟨.macroWord, "macro", ⟨1, 4⟩⟩, ⟨.identifier, "m", ⟨1, 10⟩⟩,
        ⟨.leftParen, "(", ⟨1, 11⟩⟩, ⟨.identifier, "x", ⟨1, 12⟩⟩, ⟨.comma, ",", ⟨1, 13⟩⟩, ⟨.identifier, "y", ⟨1, 15⟩⟩,
        ⟨.assign, "=", ⟨1, 16⟩⟩, ⟨.string, "b", ⟨1, 17⟩⟩, ⟨.rightParen, ")", ⟨1, 20⟩⟩, ⟨.stmtClose, "%\x7d", ⟨1, 22⟩⟩,
        ⟨.exprOpen, "\x7b\x7b", ⟨2, 1⟩⟩, ⟨.identifier, "x", ⟨2, 4⟩⟩, ⟨.leftParen, "(", ⟨2, 5⟩⟩,
        ⟨.identifier, "z", ⟨2, 6⟩⟩, ⟨.assign, "=", ⟨2, 7⟩⟩, ⟨.identifier, "y", ⟨2, 8⟩⟩, ⟨.rightParen, ")", ⟨2, 9⟩⟩,
        ⟨.exprClose, "\x7d\x7d", ⟨2, 11⟩⟩, ⟨.stmtOpen, "\x7b%", ⟨3, 1⟩⟩, ⟨.endmacroWord, "endmacro", ⟨3, 4⟩⟩,
        ⟨.stmtClose, "%\x7d", ⟨3, 13⟩⟩, ⟨.eof, "", ⟨3, 15⟩⟩, ⟨.comma, ",", ⟨9, 9⟩⟩]
    let call : Expr := .call ⟨2, 4⟩ (.name ⟨2, 4⟩ "x") [⟨some "z", .name ⟨2, 8⟩ "y"⟩]
    let body : Body := ⟨⟨1, 1⟩, [.macroDef ⟨⟨1, 4⟩, "m", [⟨"x", none⟩, ⟨"y", some (.string "b")⟩],
      ⟨⟨2, 1⟩, [.output ⟨2, 1⟩ call]⟩⟩]⟩
    Body.ofTokens tokens = .ok body ∧ Part.AreStatements body.parts ∧
      ∀ p ∈ body.places, ∃ t ∈ Token.terminated tokens, t.start = p := by
  intro tokens call body
  have hparse : Body.ofTokens tokens = .ok body := by cbv
  exact ⟨hparse, parsed_tree_wellFormed hparse⟩

end TemplatedSql
