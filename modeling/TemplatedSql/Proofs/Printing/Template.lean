import TemplatedSql.Proofs.Printing.RoundTrip
import TemplatedSql.Proofs.Printing.Tag
import TemplatedSql.Proofs.Relocation.Render
import TemplatedSql.Proofs.Relocation.Source

/-! # Templates are read back as they were written

The text of a clean body is cut into the tokens of a derivation, whose nodes are those of the body up to the places in
them and to how text is divided. The recursion is on the derivation that the body came from, and carries the text that
stands before the nodes: it ends up in one token with the texts after it. -/

namespace TemplatedSql

open Position (toStart)
open TemplatedSql.Grammar

/-! ### Nodes and the text before them -/

/-- The nodes after a text, which is left out if it is empty. -/
def Node.afterText (text : List Char) (ns : List Node) : List Node :=
  if text = [] then ns else (Node.text .start (.ofList text)).before ns

theorem Node.afterText_nil (ns : List Node) : afterText [] ns = ns :=
  if_pos rfl

theorem Node.afterText_append (text : List Char) {s : String} (hs : s ≠ "") (ns : List Node) :
    afterText (text ++ s.toList) ns = afterText text ((Node.text .start s).before ns) := by
  have hne : s.toList ≠ [] := fun h => hs (String.toList_eq_nil_iff.mp h)
  rw [afterText, afterText, if_neg (List.append_ne_nil_of_right_ne_nil text hne), String.ofList_append, String.ofList_toList]
  split
  · rename_i hempty
    rw [hempty, String.ofList_nil, String.empty_append]
  · cases ns with
    | nil => rfl
    | cons n ns => cases n <;> simp [before, String.append_assoc]

/-- What stands after a body: nothing, or the tag that ends it. -/
inductive Closes : List Char → List Char → Prop
  | nothing : Closes [] []
  | tag {more} : Closes ['{'] ('{' :: '%' :: ' ' :: more)

/-- The tokens of nodes with the given ones as their unplaced nodes. -/
def ReadAs (ns : List Node) (ts : List Token) : Prop :=
  ∃ d : Nodes, ts = d.tokens ∧ Node.relocateAll toStart toStart d.trees = ns

/-- The tokens of a node: a derivation of whatever follows goes on from there. -/
def Node.ReadBack (n : Node) (ts : List Token) : Prop :=
  ∃ first : Nodes → Nodes, ∀ more, (first more).tokens = ts ++ more.tokens ∧
    Node.relocateAll toStart toStart (first more).trees =
      n.relocate toStart toStart :: Node.relocateAll toStart toStart more.trees

variable {next rest text : List Char}

/-- Text between tags is read back as one node, if there is any. -/
theorem cuts_afterText (htext : OpensNothing (text ++ next)) (hrest : Closes next rest) :
    CutsOutside text rest (ReadAs (Node.afterText text [])) := by
  by_cases hempty : text = []
  · subst hempty
    refine CutsOutside.nil.mono ?_
    rintro ts rfl
    exact ⟨.nil, by rw [Nodes.tokens], by rw [Nodes.trees, Node.relocateAll]; rfl⟩
  · have hcuts : CutsOutside text rest (Single .text (.ofList text)) := by
      cases hrest with
      | nothing => exact cuts_text_end hempty (by rwa [List.append_nil] at htext)
      | tag => exact cuts_text (.inr rfl) hempty htext
    refine hcuts.mono ?_
    rintro ts ⟨t, ht, rfl⟩
    refine ⟨.text t .nil, by rw [Nodes.tokens, Nodes.tokens], ?_⟩
    rw [Nodes.trees, Nodes.trees, Node.afterText, if_neg hempty, ht]
    simp only [Node.relocateAll, Node.relocate, toStart]

/-- A node that is no text starts with a tag. -/
theorem Node.source_of_tag {n : Node} (hn : ∀ p s, n ≠ .text p s) : ∃ mark more, (mark = '{' ∨ mark = '%') ∧
    n.source.toList = '{' :: mark :: ' ' :: more := by
  cases n with
  | text p s => exact absurd rfl (hn p s)
  | output p e => exact ⟨'{', _, .inl rfl, by rw [source]; simp; rfl⟩
  | branch p condition body rest => exact ⟨'%', _, .inr rfl, by rw [source]; simp [toList_statementTag]; rfl⟩
  | loop p targets iterable body => exact ⟨'%', _, .inr rfl, by rw [source]; simp [toList_statementTag]; rfl⟩
  | macroDef d =>
    obtain ⟨p, name, parameters, body⟩ := d
    exact ⟨'%', _, .inr rfl, by rw [source, MacroDef.source]; simp [toList_statementTag]; rfl⟩
  | assign p name value => exact ⟨'%', _, .inr rfl, by rw [source, toList_statementTag]⟩

theorem Node.before_of_tag {n : Node} (hn : ∀ p s, n ≠ .text p s) (ns : List Node) :
    (n.relocate toStart toStart).before ns = n.relocate toStart toStart :: ns := by
  cases n with
  | text p s => exact absurd rfl (hn p s)
  | _ => simp only [relocate, before]

theorem Node.allClean_tag {n : Node} (hn : ∀ p s, n ≠ .text p s) (ns : List Node) :
    AllClean next text (n :: ns) ↔ OpensNothing (text ++ ['{']) ∧ n.Clean ∧ AllClean next [] ns := by
  cases n with
  | text p s => exact absurd rfl (hn p s)
  | _ => rw [AllClean]; simp

/-- A tag and the text before it are read back together with what comes after the tag. -/
theorem cuts_node {n : Node} {more : List Char} {ns : List Node} (htext : OpensNothing (text ++ ['{']))
    (hn : ∀ p s, n ≠ .text p s) (hnode : CutsOutside n.source.toList (more ++ rest) n.ReadBack)
    (hmore : CutsOutside more rest (ReadAs ns)) :
    CutsOutside (text ++ (n.source.toList ++ more)) rest
      (ReadAs (Node.afterText text (n.relocate toStart toStart :: ns))) := by
  have hcons : CutsOutside (n.source.toList ++ more) rest (ReadAs (n.relocate toStart toStart :: ns)) := by
    refine (hnode.append hmore).mono ?_
    rintro ts ⟨us, _, rfl, ⟨first, hfirst⟩, d, rfl, rfl⟩
    exact ⟨first d, (hfirst d).1.symm, (hfirst d).2⟩
  by_cases hempty : text = []
  · subst hempty
    exact hcons
  · obtain ⟨mark, tail, hmark, hsource⟩ := Node.source_of_tag hn
    have hcuts : CutsOutside text ((n.source.toList ++ more) ++ rest) (Single .text (.ofList text)) := by
      rw [hsource]
      exact cuts_text hmark hempty htext
    refine (hcuts.append hcons).mono ?_
    rintro ts ⟨_, _, rfl, ⟨t, ht, rfl⟩, d, rfl, hd⟩
    refine ⟨.text t d, by rw [Nodes.tokens]; rfl, ?_⟩
    rw [Nodes.trees, Node.relocateAll, Node.relocate, hd, ht, Node.afterText, if_neg hempty]
    rfl

/-- A statement is read back if its tokens are those of a derivation of it. -/
theorem readBack_statement {n : Node} {ts : List Token} (opening : Word .stmtOpen) (d : Statement)
    (htokens : ts = opening.val :: d.tokens) (hn : ∀ p s, n ≠ .text p s)
    (htree : d.tree.relocate toStart toStart = n.relocate toStart toStart) : n.ReadBack ts := by
  refine ⟨fun more => .statement opening d more, fun more => ⟨?_, ?_⟩⟩
  · rw [Nodes.tokens, htokens, List.cons_append]
  · rw [Nodes.trees, Node.relocateAll, htree, Node.before_of_tag hn]

/-! ### All templates -/

/-- What ends a block is read back with the alternatives before it. -/
def Alternative.ReadBack (a : TemplatedSql.Alternative) (ts : List Token) : Prop :=
  ∃ d : Grammar.Alternative, ts = d.tokens ∧ d.tree.relocate toStart toStart = a.relocate toStart toStart

theorem closes_statementTag (body : String) (rest : List Char) :
    Closes ['{'] ((statementTag body).toList ++ rest) := by
  rw [toList_statementTag]
  exact .tag

theorem Alternative.closes (a : TemplatedSql.Alternative) :
    Closes ['{'] ((a.source ++ statementTag "endif").toList ++ rest) := by
  cases a with
  | nothing =>
    rw [source, String.empty_append]
    exact closes_statementTag _ _
  | otherwise body =>
    rw [source, String.toList_append, String.toList_append, List.append_assoc, List.append_assoc]
    exact closes_statementTag _ _
  | elseIf condition body more =>
    rw [source, String.toList_append, String.toList_append, String.toList_append, List.append_assoc, List.append_assoc,
      List.append_assoc]
    exact closes_statementTag _ _

theorem Derives.readBack {e : Expr} {ts : List Token} (h : Derives e ts) :
    ∃ d : Expression .or, d.tokens = ts ∧ d.tree.relocate toStart = e.relocate toStart := by
  obtain ⟨d, htokens, htree⟩ := h.expression .or
  exact ⟨d, htokens, by rw [Expr.relocate_toStart, Expr.relocate_toStart, htree]⟩

theorem ReadsBack.output {e : Expr} (he : ReadsBack e) (p : Position) :
    CutsOutside (Node.output p e).source.toList rest (Node.output p e).ReadBack := by
  have hsource : (Node.output p e).source.toList = '{' :: '{' :: ' ' :: (e.source.toList ++ ' ' :: ['}', '}']) := by
    rw [Node.source]
    simp
  have hopens : ('{', TokenKind.exprOpen, TokenKind.exprClose) ∈ tagMarks := by decide
  rw [hsource]
  refine (cuts_tag hopens (by decide) (he.cuts (follows_cons rfl _))).mono ?_
  rintro ts ⟨opening, us, closing, rfl, hus⟩
  obtain ⟨d, rfl, hd⟩ := hus.readBack
  refine ⟨fun more => .output opening d closing more, fun more => ⟨by rw [Nodes.tokens]; simp, ?_⟩⟩
  rw [Nodes.trees, Node.relocateAll, Node.relocate, Node.relocate, hd]
  rfl

namespace Grammar

theorem Expression.readsBack {l : Parser.Level} (d : Expression l) (h : ∀ t ∈ d.tokens, t.Scanned)
    (hclean : d.tree.Clean) : ReadsBack d.tree :=
  hclean.readsBack (d.legible fun t ht => (h t ht).toLexed)

theorem LoopNames.isName (d : LoopNames) (h : ∀ t ∈ d.tokens, t.Lexed) : ∀ name ∈ d.targets.names, IsName name := by
  cases d with
  | one name =>
    simp only [tokens, List.forall_mem_singleton] at h
    simp only [targets, Targets.names, List.forall_mem_singleton]
    exact h.name name.property
  | two first comma second =>
    simp only [tokens, List.forall_mem_cons] at h
    simp only [targets, Targets.names, List.forall_mem_cons]
    exact ⟨h.1.name first.property, h.2.2.1.name second.property, List.forall_mem_nil _⟩

theorem Statement.tree_ne_text (d : Statement) (p : Position) (s : String) : d.tree ≠ .text p s := by
  cases d <;> simp [Statement.tree]

theorem Nodes.relocate_body (d : Nodes) (next : Token) :
    (d.body next).relocate toStart toStart = ⟨.start, Node.relocateAll toStart toStart d.trees⟩ := by
  rw [Nodes.body, Body.relocate]
  rfl

theorem Nodes.clean_body (d : Nodes) (opening : Token) :
    (d.body opening).Clean next ↔ Node.AllClean next [] d.trees := by
  rw [Nodes.body, Body.Clean]

mutual

theorem Nodes.readBack : ∀ (d : Nodes) {next text rest : List Char}, (∀ t ∈ d.tokens, t.Scanned) →
    Node.AllClean next text d.trees → Closes next rest →
    CutsOutside (text ++ (Node.sources d.trees).toList) rest
      (ReadAs (Node.afterText text (Node.relocateAll toStart toStart d.trees)))
  | .nil, next, text, rest, _, hclean, hrest => by
    rw [Nodes.trees, Node.AllClean] at hclean
    rw [Nodes.trees, Node.sources, String.toList_empty, List.append_nil, Node.relocateAll]
    exact cuts_afterText hclean hrest
  | .text t more, next, text, rest, h, hclean, hrest => by
    rw [Nodes.tokens, List.forall_mem_cons] at h
    rw [Nodes.trees, Node.AllClean] at hclean
    have hcuts := more.readBack h.2 hclean hrest
    rw [Node.afterText_append text (h.1.text t.property), List.append_assoc, ← String.toList_append] at hcuts
    rw [Nodes.trees, Node.sources, Node.source, Node.relocateAll, Node.relocate]
    exact hcuts
  | .blank t more, next, text, rest, h, hclean, hrest | .comment t more, next, text, rest, h, hclean, hrest => by
    rw [Nodes.tokens, List.forall_mem_cons] at h
    rw [Nodes.trees] at hclean ⊢
    exact more.readBack h.2 hclean hrest
  | .output opening expr closing more, next, text, rest, h, hclean, hrest => by
    simp only [Nodes.tokens, List.forall_mem_cons, List.forall_mem_append] at h
    simp only [Nodes.trees, Node.AllClean, Node.Clean] at hclean
    have hmore := more.readBack h.2.2.2 hclean.2.2 hrest
    have hexpr := expr.readsBack h.2.1 hclean.2.1
    rw [Nodes.trees, Node.sources, String.toList_append, Node.relocateAll]
    exact cuts_node hclean.1 (by simp) (hexpr.output _) hmore
  | .statement opening statement more, next, text, rest, h, hclean, hrest => by
    simp only [Nodes.tokens, List.forall_mem_cons, List.forall_mem_append] at h
    rw [Nodes.trees, Node.allClean_tag statement.tree_ne_text] at hclean
    have hmore := more.readBack h.2.2 hclean.2.2 hrest
    rw [Nodes.trees, Node.sources, String.toList_append, Node.relocateAll, Node.before_of_tag statement.tree_ne_text]
    exact cuts_node hclean.1 statement.tree_ne_text (statement.readBack h.2.1 hclean.2.1) hmore

theorem Statement.readBack : ∀ (d : Statement) {rest : List Char}, (∀ t ∈ d.tokens, t.Scanned) → d.tree.Clean →
    CutsOutside d.tree.source.toList rest d.tree.ReadBack
  | .branch word condition closing body alternative, rest, h, hclean => by
    simp only [Statement.tokens, List.forall_mem_cons, List.forall_mem_append] at h
    simp only [Statement.tree, Node.Clean, Nodes.clean_body] at hclean
    obtain ⟨hcondition, hbody, halternative⟩ := hclean
    have hif : ("if", TokenKind.ifWord) ∈ blockWords := by decide
    have hsource : (Statement.branch word condition closing body alternative).tree.source.toList =
        (statementTag ("if" ++ " " ++ condition.tree.source)).toList ++ ((Node.sources body.trees).toList ++
          (alternative.tree.source ++ statementTag "endif").toList) := by
      simp [Statement.tree, Node.source, Nodes.body, Body.source]
    rw [hsource]
    refine ((cuts_statementTag (cuts_condition hif (condition.readsBack h.2.1 hcondition))).append <|
      (body.readBack h.2.2.2.1 hbody alternative.tree.closes).append <|
      alternative.readBack h.2.2.2.2 halternative).mono ?_
    rintro ts ⟨_, _, rfl, ⟨opening, _, last, rfl, _, us, rfl, ⟨word', -, rfl⟩, hus⟩, _, _, rfl, ⟨d, rfl, hd⟩, d', rfl, hd'⟩
    obtain ⟨e, rfl, he⟩ := hus.readBack
    refine readBack_statement opening (.branch word' e last d d') (by simp [Statement.tokens])
      (Statement.tree_ne_text _) ?_
    simp only [Statement.tree, Node.relocate, Nodes.relocate_body, he, hd', hd, Node.afterText_nil]
    rfl
  | .loop word names sign iterable closing body last, rest, h, hclean => by
    simp only [Statement.tokens, List.forall_mem_cons, List.forall_mem_append] at h
    simp only [Statement.tree, Node.Clean, Nodes.clean_body] at hclean
    obtain ⟨hiterable, hbody⟩ := hclean
    have hnames := names.isName fun t ht => (h.2.1 t ht).toLexed
    have hendfor : ("endfor", TokenKind.endforWord) ∈ blockWords := by decide
    have hsource : (Statement.loop word names sign iterable closing body last).tree.source.toList =
        (statementTag ("for " ++ ", ".intercalate names.targets.names ++ " in " ++ iterable.tree.source)).toList ++
          ((Node.sources body.trees).toList ++ (statementTag "endfor").toList) := by
      simp [Statement.tree, Node.source, Nodes.body, Body.source]
    rw [hsource]
    refine ((cuts_statementTag (cuts_loopHead hnames (iterable.readsBack h.2.2.2.1 hiterable))).append <|
      (body.readBack h.2.2.2.2.2.1 hbody (closes_statementTag _ _)).append <| cuts_wordTag hendfor).mono ?_
    rintro ts ⟨_, _, rfl, ⟨opening, _, close, rfl, word', names', sign', us, rfl, hnames', hus⟩, _, _, rfl,
      ⟨d, rfl, hd⟩, last', rfl⟩
    obtain ⟨e, rfl, he⟩ := hus.readBack
    refine readBack_statement opening (.loop word' names' sign' e close d last') (by simp [Statement.tokens])
      (Statement.tree_ne_text _) ?_
    simp only [Statement.tree, Node.relocate, Nodes.relocate_body, he, hd, hnames', Node.afterText_nil]
    rfl
  | .macroDef word name paren parameters closing body last, rest, h, hclean => by
    simp only [Statement.tokens, List.forall_mem_cons, List.forall_mem_append] at h
    simp only [Statement.tree, Node.Clean, MacroDef.Clean, Nodes.clean_body] at hclean
    obtain ⟨hparameters, hbody⟩ := hclean
    have hnames := parameters.declared fun t ht => (h.2.2.2.1 t ht).toLexed
    have hendmacro : ("endmacro", TokenKind.endmacroWord) ∈ blockWords := by decide
    have hsource : (Statement.macroDef word name paren parameters closing body last).tree.source.toList =
        (statementTag ("macro " ++ name.val.text ++ "(" ++
          ", ".intercalate (parameters.parameters.map Parameter.source) ++ ")")).toList ++
          ((Node.sources body.trees).toList ++ (statementTag "endmacro").toList) := by
      simp [Statement.tree, Node.source, MacroDef.source, Nodes.body, Body.source]
    rw [hsource]
    refine ((cuts_statementTag (cuts_macroHead (h.2.1.name name.property) hnames hparameters)).append <|
      (body.readBack h.2.2.2.2.2.1 hbody (closes_statementTag _ _)).append <| cuts_wordTag hendmacro).mono ?_
    rintro ts ⟨_, _, rfl, ⟨opening, _, close, rfl, word', name', paren', parameters', rfl, hname, hparameters'⟩, _, _,
      rfl, ⟨d, rfl, hd⟩, last', rfl⟩
    refine readBack_statement opening (.macroDef word' name' paren' parameters' close d last')
      (by simp [Statement.tokens]) (Statement.tree_ne_text _) ?_
    simp only [Statement.tree, Node.relocate, MacroDef.relocate, Nodes.relocate_body, hd, hname, hparameters',
      Node.afterText_nil]
    rfl
  | .assign word name sign value closing, rest, h, hclean => by
    simp only [Statement.tokens, List.forall_mem_cons, List.forall_mem_append] at h
    simp only [Statement.tree, Node.Clean] at hclean
    rw [Statement.tree, Node.source]
    refine (cuts_statementTag (cuts_assignment (h.2.1.name name.property) (value.readsBack h.2.2.2.1 hclean))).mono ?_
    rintro ts ⟨opening, _, last, rfl, word', name', sign', us, rfl, hname, hus⟩
    obtain ⟨d, rfl, hd⟩ := hus.readBack
    refine readBack_statement opening (.assign word' name' sign' d last) (by rw [Statement.tokens]; rfl) (by simp) ?_
    rw [Statement.tree, Node.relocate, Node.relocate, hd, hname]
    rfl

theorem Alternative.readBack : ∀ (d : Alternative) {rest : List Char}, (∀ t ∈ d.tokens, t.Scanned) → d.tree.Clean →
    CutsOutside (d.tree.source ++ statementTag "endif").toList rest d.tree.ReadBack
  | .nothing last, rest, h, hclean => by
    have hendif : ("endif", TokenKind.endifWord) ∈ blockWords := by decide
    rw [Alternative.tree, TemplatedSql.Alternative.source, String.empty_append]
    refine (cuts_wordTag hendif).mono ?_
    rintro ts ⟨tag, rfl⟩
    exact ⟨.nothing tag, by rw [Alternative.tokens], by rw [Alternative.tree]⟩
  | .otherwise tag body last, rest, h, hclean => by
    simp only [Alternative.tokens, List.forall_mem_append] at h
    simp only [Alternative.tree, TemplatedSql.Alternative.Clean, Nodes.clean_body] at hclean
    have helse : ("else", TokenKind.elseWord) ∈ blockWords := by decide
    have hendif : ("endif", TokenKind.endifWord) ∈ blockWords := by decide
    have hsource : ((Alternative.otherwise tag body last).tree.source ++ statementTag "endif").toList =
        (statementTag "else").toList ++ ((Node.sources body.trees).toList ++ (statementTag "endif").toList) := by
      simp [Alternative.tree, TemplatedSql.Alternative.source, Nodes.body, Body.source]
    rw [hsource]
    refine ((cuts_wordTag helse).append <| (body.readBack h.2.1 hclean (closes_statementTag _ _)).append <|
      cuts_wordTag hendif).mono ?_
    rintro ts ⟨_, _, rfl, ⟨tag', rfl⟩, _, _, rfl, ⟨d, rfl, hd⟩, last', rfl⟩
    refine ⟨.otherwise tag' d last', by rw [Alternative.tokens], ?_⟩
    simp only [Alternative.tree, TemplatedSql.Alternative.relocate, Nodes.relocate_body, hd, Node.afterText_nil]
  | .elseIf opening word condition closing body alternative, rest, h, hclean => by
    simp only [Alternative.tokens, List.forall_mem_cons, List.forall_mem_append] at h
    simp only [Alternative.tree, TemplatedSql.Alternative.Clean, Nodes.clean_body] at hclean
    obtain ⟨hcondition, hbody, halternative⟩ := hclean
    have helif : ("elif", TokenKind.elifWord) ∈ blockWords := by decide
    have hsource : ((Alternative.elseIf opening word condition closing body alternative).tree.source ++
        statementTag "endif").toList =
        (statementTag ("elif" ++ " " ++ condition.tree.source)).toList ++ ((Node.sources body.trees).toList ++
          (alternative.tree.source ++ statementTag "endif").toList) := by
      simp [Alternative.tree, TemplatedSql.Alternative.source, Nodes.body, Body.source]
    rw [hsource]
    refine ((cuts_statementTag (cuts_condition helif (condition.readsBack h.2.2.1 hcondition))).append <|
      (body.readBack h.2.2.2.2.1 hbody alternative.tree.closes).append <|
      alternative.readBack h.2.2.2.2.2 halternative).mono ?_
    rintro ts ⟨_, _, rfl, ⟨opening', _, last, rfl, _, us, rfl, ⟨word', -, rfl⟩, hus⟩, _, _, rfl, ⟨d, rfl, hd⟩, d', rfl, hd'⟩
    obtain ⟨e, rfl, he⟩ := hus.readBack
    refine ⟨.elseIf opening' word' e last d d', by simp [Alternative.tokens], ?_⟩
    simp only [Alternative.tree, TemplatedSql.Alternative.relocate, Nodes.relocate_body, he, hd', hd,
      Node.afterText_nil]

end

end Grammar

/-! ### Templates that come out of the parser -/

theorem scanned_of_scan {source : String} {tokens : List Token} (h : Token.scan source = .ok tokens) :
    ∀ t ∈ tokens, t.Scanned := by
  obtain ⟨segments, hlaid, -, rfl⟩ := Token.scan_laid h
  simpa using hlaid.scanned

/-- A clean body is parsed again from its text, up to places and to how text is divided. -/
theorem Body.Clean.parsed {source : String} {body : Body} (hclean : body.Clean [])
    (hsource : Body.ofSource source = .ok body) :
    ∃ body', Body.ofSource body.source = .ok body' ∧ body'.unplaced = body.unplaced := by
  obtain ⟨d, stop, hscan, -, -, rfl⟩ := Body.derivation_of_ofSource hsource
  have hscanned : ∀ t ∈ d.tokens, t.Scanned := fun t ht => scanned_of_scan hscan t (List.mem_append_left _ ht)
  obtain ⟨ts, ⟨d', rfl, hd'⟩, hcuts⟩ := d.readBack hscanned (d.clean_body stop |>.mp hclean) .nothing .start
  have hscan' := hcuts _ (scanFrom_outside_nil _)
  rw [List.append_nil, List.nil_append] at hscan'
  have hprinted : (d.body stop).source = Node.sources d.trees := by rw [Nodes.body, Body.source]
  have hscanned' : Token.scan (d.body stop).source =
      .ok (d'.tokens ++ [⟨.eof, "", Position.start.after (Node.sources d.trees).toList⟩]) := by
    rw [hprinted, Token.scan_eq]
    exact hscan'
  refine ⟨_, bind_eq_ok_iff.mpr ⟨_, hscanned', d'.parsed (forall_ne_eof_of_scan hscanned') rfl⟩, ?_⟩
  rw [Body.unplaced, Body.unplaced, Nodes.relocate_body, Nodes.relocate_body, hd', Node.afterText_nil]

section
variable {env : Environment} {body body' : Body}

/-- Bodies that differ in places and in how text is divided render to the same text. -/
theorem Session.render_of_unplaced_eq (hplaceless : env.Placeless) (h : body'.unplaced = body.unplaced) (c : Context)
    (text : String) :
    (∃ d, render env body' c = .done text d) ↔ ∃ d, render env body c = .done text d := by
  have hmoved : Context.Relocated toStart { c with given := c.given + 1 }
      { c with arena := c.arena.relocate toStart, given := c.given + 1 } :=
    ⟨rfl, rfl, rfl, rfl, rfl, rfl, rfl⟩
  have hbody (b : Body) := renderBody_relocated (k := toStart) hplaceless env.allowance (fun _ _ => True) toStart b
    ⟨.given c.given, []⟩ (fun _ => trivial) (fun _ => trivial) _ _ hmoved
  have hb' := hbody body'
  rw [← Body.unplaced, h] at hb'
  exact (hb'.done_iff text).trans ((hbody body).done_iff text).symm

end

/-- A parsed template that is clean renders back to an equivalent source: the source parses to a body that is the same
    up to places and to how text is divided, renders back to the same source, and renders to the same text wherever
    native functions take no notice of places. -/
theorem template_source_reads_back {source : String} {body : Body} (hsource : Body.ofSource source = .ok body)
    (hclean : body.Clean []) :
    ∃ body', Body.ofSource body.source = .ok body' ∧ body'.unplaced = body.unplaced ∧ body'.source = body.source ∧
      ∀ env : Environment, env.Placeless → ∀ c text,
        (∃ d, Session.render env body' c = .done text d) ↔ ∃ d, Session.render env body c = .done text d := by
  obtain ⟨body', hparsed, hunplaced⟩ := hclean.parsed hsource
  refine ⟨body', hparsed, hunplaced, ?_, fun env hplaceless => Session.render_of_unplaced_eq hplaceless hunplaced⟩
  have hsame := congrArg Body.source hunplaced
  rwa [Body.unplaced, Body.unplaced, Body.source_relocate, Body.source_relocate] at hsame

/-- A comment that asks to drop the blanks around it, and a macro with a default. -/
theorem template_source_reads_back_around_comment :
    let source := "a \x7b#- b -#\x7d c\x7b% macro m(x='d') %\x7d\x7b\x7b x \x7d\x7d\x7b% endmacro %\x7d"
    ∃ body body', Body.ofSource source = .ok body ∧
      Body.ofSource "ac\x7b% macro m(x='d') %\x7d\x7b\x7b x \x7d\x7d\x7b% endmacro %\x7d" = .ok body' ∧
      body'.unplaced = body.unplaced ∧ ∃ d, Session.render {} body' .initial = .done "ac" d := by
  intro source
  have hsource : Body.ofSource source = .ok ⟨⟨1, 1⟩, [.text ⟨1, 1⟩ "a", .text ⟨1, 13⟩ "c",
      .macroDef ⟨⟨1, 17⟩, "m", [⟨"x", some (.string "d")⟩], ⟨⟨1, 34⟩, [.output ⟨1, 34⟩ (.name ⟨1, 37⟩ "x")]⟩⟩]⟩ := by
    cbv
  have hprinted : (Body.mk ⟨1, 1⟩ [.text ⟨1, 1⟩ "a", .text ⟨1, 13⟩ "c",
      .macroDef ⟨⟨1, 17⟩, "m", [⟨"x", some (.string "d")⟩], ⟨⟨1, 34⟩, [.output ⟨1, 34⟩ (.name ⟨1, 37⟩ "x")]⟩⟩]).source =
      "ac\x7b% macro m(x='d') %\x7d\x7b\x7b x \x7d\x7d\x7b% endmacro %\x7d" := rfl
  obtain ⟨body', hparsed, hunplaced, -, hrender⟩ := template_source_reads_back hsource (by
    simp only [Body.Clean, Node.AllClean, Node.Clean, MacroDef.Clean]
    refine ⟨?_, ⟨?_, opensNothing_brace, ?_, opensNothing_brace⟩, ?_⟩
    · decide
    · simp [Literal.Clean]
    · simp [Expr.Clean, Expr.subtrees, Expr.PartClean]
    · decide)
  rw [hprinted] at hparsed
  exact ⟨_, body', hsource, hparsed, hunplaced, (hrender {} ⟨rfl, List.forall_mem_nil _⟩ .initial "ac").mpr ⟨_, rfl⟩⟩

/-- Text and a tag can stand apart in a source for a hyphen alone, which does not come back. -/
theorem template_source_opens_another_tag :
    ∃ body, Body.ofSource "\x7b \x7b\x7b- x \x7d\x7d" = .ok body ∧ body.source = "\x7b\x7b\x7b x \x7d\x7d" ∧
      ∀ body', Body.ofSource body.source ≠ .ok body' := by
  have hsource : Body.ofSource "\x7b \x7b\x7b- x \x7d\x7d" =
      .ok ⟨⟨1, 1⟩, [.text ⟨1, 1⟩ "\x7b", .output ⟨1, 3⟩ (.name ⟨1, 7⟩ "x")]⟩ := by cbv
  have hprinted : (Body.mk ⟨1, 1⟩ [.text ⟨1, 1⟩ "\x7b", .output ⟨1, 3⟩ (.name ⟨1, 7⟩ "x")]).source =
      "\x7b\x7b\x7b x \x7d\x7d" := rfl
  have hfails : Token.scan "\x7b\x7b\x7b x \x7d\x7d" = .error ⟨⟨1, 3⟩, .lex "unexpected character `\x7b`"⟩ := by
    decide +kernel
  refine ⟨_, hsource, hprinted, fun body' h => ?_⟩
  rw [hprinted, Body.ofSource, hfails] at h
  cases h

end TemplatedSql
