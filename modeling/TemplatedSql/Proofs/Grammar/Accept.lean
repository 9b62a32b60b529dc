import TemplatedSql.Proofs.Grammar.Complete
import TemplatedSql.Proofs.Grammar.Sound
import TemplatedSql.Proofs.Grammar.Unique
import TemplatedSql.Proofs.Token.Layout

/-! # The parser accepts exactly its grammar

A list of tokens parses if and only if it has a derivation, the body that comes out is the one that the derivation
stands for, and no list has two derivations. -/

namespace TemplatedSql

open TemplatedSql.Grammar TemplatedSql.Parser

variable {front : List Token} {stop : Token}

/-- What is parsed are the tokens before the first end token, which is the place where they run out. -/
theorem Body.ofTokens_append_eq (hfront : ∀ t ∈ front, t.kind ≠ .eof) (hstop : stop.kind = .eof) :
    Body.ofTokens (front ++ [stop]) =
      Parser.nodes stop.start [] front >>= fun body => .ok ⟨place stop.start front, body.value.1⟩ := by
  have htake : (front ++ [stop]).takeWhile (·.kind != .eof) = front := by
    rw [List.takeWhile_append_of_pos (by simpa using hfront)]
    simp [hstop]
  have hfind : (front ++ [stop]).find? (·.kind == .eof) = some stop := by
    rw [List.find?_append, List.find?_eq_none.mpr (by simpa using hfront)]
    simp [hstop]
  unfold Body.ofTokens
  rw [htake, hfind]
  rfl

theorem Body.ofTokens_append (hfront : ∀ t ∈ front, t.kind ≠ .eof) (hstop : stop.kind = .eof) {body : Body} :
    Body.ofTokens (front ++ [stop]) = .ok body ↔ ∃ nodes word rest,
      Reads (Parser.nodes stop.start [] front) (nodes, word) rest ∧ ⟨place stop.start front, nodes⟩ = body := by
  rw [Body.ofTokens_append_eq hfront hstop, bind_eq_ok_iff]
  constructor
  · rintro ⟨⟨⟨nodes, word⟩, rest, hshort⟩, hread, hbody⟩
    exact ⟨nodes, word, rest, ⟨hshort, hread⟩, Except.ok.inj hbody⟩
  · rintro ⟨nodes, word, rest, ⟨hshort, hread⟩, rfl⟩
    exact ⟨⟨(nodes, word), rest, hshort⟩, hread, rfl⟩

theorem place_tokens (d : Nodes) (stop : Token) : place stop.start d.tokens = (d.tokens.head?.getD stop).start := by
  cases d.tokens <;> rfl

/-- What a derivation derives is parsed. -/
theorem Grammar.Nodes.parsed (d : Nodes) (hfront : ∀ t ∈ d.tokens, t.kind ≠ .eof) (hstop : stop.kind = .eof) :
    Body.ofTokens (d.tokens ++ [stop]) = .ok (d.body stop) := by
  have hend : Reads (nodes stop.start [] []) ([], .eof) [] := reads_nodes_nil.mpr ⟨rfl, rfl, rfl⟩
  have hread := d.read (by decide) hend
  rw [List.append_nil] at hread
  exact (Body.ofTokens_append hfront hstop).mpr ⟨d.trees, .eof, [], hread, by rw [Nodes.body, place_tokens]⟩

/-- Parsing accepts what the grammar derives, and nothing else. Tokens that end in an end token, and have no other, are
    parsed into a body just if there is a derivation of them, whose tree with its places is that body; and they have one
    derivation at most. -/
theorem parse_accepts_grammar (hfront : ∀ t ∈ front, t.kind ≠ .eof) (hstop : stop.kind = .eof) :
    (∀ body : Body, Body.ofTokens (front ++ [stop]) = .ok body ↔ ∃ d : Nodes, d.tokens = front ∧ d.body stop = body) ∧
    ∀ d d' : Nodes, d.tokens = front → d'.tokens = front → d = d' := by
  refine ⟨fun body => ?_, fun d d' hd hd' => Nodes.eq_of_tokens (hd.trans hd'.symm)⟩
  constructor
  · intro h
    obtain ⟨nodes, word, rest, hread, rfl⟩ := (Body.ofTokens_append hfront hstop).mp h
    obtain ⟨d, rfl, rfl⟩ := nodes_sound hread
    exact ⟨d, rfl, by rw [Nodes.body, place_tokens]⟩
  · rintro ⟨d, rfl, rfl⟩
    exact d.parsed hfront hstop

theorem parse_accepts_difference :
    ∃ d : Nodes, d.tokens = [⟨.exprOpen, "\x7b\x7b", ⟨1, 1⟩⟩, ⟨.identifier, "a", ⟨1, 4⟩⟩, ⟨.minus, "-", ⟨1, 6⟩⟩,
        ⟨.identifier, "b", ⟨1, 8⟩⟩, ⟨.minus, "-", ⟨1, 10⟩⟩, ⟨.identifier, "c", ⟨1, 12⟩⟩,
        ⟨.exprClose, "\x7d\x7d", ⟨1, 14⟩⟩] ∧
      d.body ⟨.eof, "", ⟨1, 16⟩⟩ = ⟨⟨1, 1⟩, [.output ⟨1, 1⟩ (.binary ⟨1, 10⟩ .sub
        (.binary ⟨1, 6⟩ .sub (.name ⟨1, 4⟩ "a") (.name ⟨1, 8⟩ "b")) (.name ⟨1, 12⟩ "c"))]⟩ :=
  ((parse_accepts_grammar (by decide) rfl).1 _).mp (by cbv)

/-- A source that parses is cut into what a derivation derives and an end token. -/
theorem Body.derivation_of_ofSource {source : String} {body : Body} (h : Body.ofSource source = .ok body) :
    ∃ (d : Nodes) (stop : Token), Token.scan source = .ok (d.tokens ++ [stop]) ∧ stop.kind = .eof ∧
      (∀ t ∈ d.tokens, t.kind ≠ .eof) ∧ d.body stop = body := by
  obtain ⟨tokens, hscan, hparse⟩ := bind_eq_ok_iff.mp h
  obtain ⟨segments, hlaid, -, hsegments⟩ := Token.scan_laid hscan
  obtain ⟨front, stop, htokens, hstop, -, hfront⟩ := hlaid.endsOnce
  rw [hsegments] at htokens
  subst htokens
  obtain ⟨nodes, word, rest, hread, rfl⟩ := (Body.ofTokens_append hfront hstop).mp hparse
  obtain ⟨d, rfl, rfl⟩ := nodes_sound hread
  exact ⟨d, stop, hscan, hstop, hfront, by rw [Nodes.body, place_tokens]⟩

end TemplatedSql
