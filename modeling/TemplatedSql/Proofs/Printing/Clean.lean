import TemplatedSql.Proofs.Printing.ReadBack

/-! # Templates whose text is not taken for anything else

What separates the parts of a source need not be in its tree: comments, dropped blanks and the parentheses around a
number are not. So there are trees whose text is not read back: where what remains of two texts, or of a text and the
tag after it, opens a tag together, where an attribute is read of a bare number, and where a number is written as a
word. A body is clean if there is no such thing in it. -/

namespace TemplatedSql

/-- A literal whose text reads back to it. That the text of a finite number does, unless it is minus zero, is taken from
    those who write and read it. -/
def Literal.Clean : Literal → Prop
  | .number n => Number.Finite n ∧ Number.ofString? (Number.text n) = some n
  | _ => True

/-- What is clean of every part of a clean expression. -/
def Expr.PartClean : Expr → Prop
  | .literal _ v => v.Clean
  | .member _ target _ => target.isNumber = false
  | _ => True

/-- An expression without numbers that are written as words and without attributes of bare numbers. -/
def Expr.Clean (e : Expr) : Prop :=
  ∀ s ∈ e.subtrees, s.PartClean

mutual

def Node.Clean : Node → Prop
  | .text .. => True
  | .output _ e | .assign _ _ e => e.Clean
  | .branch _ condition body rest => condition.Clean ∧ body.Clean ['{'] ∧ rest.Clean
  | .loop _ _ iterable body => iterable.Clean ∧ body.Clean ['{']
  | .macroDef d => d.Clean

def Alternative.Clean : Alternative → Prop
  | .nothing => True
  | .otherwise body => body.Clean ['{']
  | .elseIf condition body rest => condition.Clean ∧ body.Clean ['{'] ∧ rest.Clean

def MacroDef.Clean : MacroDef → Prop
  | ⟨_, _, parameters, body⟩ => (∀ q ∈ parameters, ∀ v ∈ q.default, v.Clean) ∧ body.Clean ['{']

/-- A body that is clean in front of `next`: the brace of the tag that ends it, or nothing at all. -/
def Body.Clean (next : List Char) : Body → Prop
  | ⟨_, nodes⟩ => Node.AllClean next [] nodes

/-- Nodes that are clean between `text` and `next`. -/
def Node.AllClean (next : List Char) : List Char → List Node → Prop
  | text, [] => OpensNothing (text ++ next)
  | text, .text _ s :: nodes => Node.AllClean next (text ++ s.toList) nodes
  | text, node :: nodes => OpensNothing (text ++ ['{']) ∧ node.Clean ∧ Node.AllClean next [] nodes

end

/-! ### Clean expressions that come out of the parser -/

theorem Expr.Legible.printable_of_clean {e : Expr} (h : e.Legible) (hclean : e.PartClean) : e.Printable := by
  cases e with
  | literal p v =>
    cases v with
    | number n =>
      refine ⟨?_, hclean.2⟩
      rw [Number.text_eq_plainText h]
      exact Number.numerical_plainText h hclean.1
    | boolean b => trivial
    | string s => trivial
  | member p target word => exact ⟨h, hclean⟩
  | name p word => exact h
  | call p callee arguments => exact h
  | list p items => trivial
  | index p target inner => trivial
  | binary p op left right => trivial
  | unary p op operand => trivial

theorem Expr.Clean.readsBack {e : Expr} (hclean : e.Clean) (h : ∀ s ∈ e.subtrees, s.Legible) : ReadsBack e :=
  e.readsBack fun s hs => (h s hs).printable_of_clean (hclean s hs)

/-! ### The tokens of a source -/

/-- A token as sources are cut into them: besides names and numbers, texts have the text for it. -/
structure Token.Scanned (t : Token) : Prop extends t.Lexed where
  text : t.kind = .text → t.text ≠ ""

theorem Laid.scanned {close : Option TokenKind} {p : Position} {segments : List Segment} (h : Laid close p segments) :
    ∀ s ∈ segments, s.token.Scanned := by
  have htext : ∀ s ∈ segments, s.token.kind = .text → s.token.text ≠ "" := by
    induction h with
    | eof => exact List.forall_mem_cons.mpr ⟨TokenKind.noConfusion, List.forall_mem_nil _⟩
    | text hne _ _ ih =>
      exact List.forall_mem_cons.mpr ⟨fun _ hempty => hne (String.ofList_eq_empty_iff.mp hempty), ih⟩
    | blanks _ _ _ ih | comment _ _ _ _ ih => exact List.forall_mem_cons.mpr ⟨TokenKind.noConfusion, ih⟩
    | opened hmark _ _ _ ih =>
      have hmarks : ∀ m ∈ tagMarks, m.2.1 ≠ .text := by decide
      exact List.forall_mem_cons.mpr ⟨fun hkind => absurd hkind (hmarks _ hmark), ih⟩
    | inner _ hkind _ _ ih =>
      refine List.forall_mem_cons.mpr ⟨?_, ih⟩
      rintro rfl
      cases hkind
    | closed _ hclose _ _ ih =>
      refine List.forall_mem_cons.mpr ⟨?_, ih⟩
      rintro rfl
      cases hclose
  exact fun s hs => ⟨h.lexed s hs, htext s hs⟩

end TemplatedSql
