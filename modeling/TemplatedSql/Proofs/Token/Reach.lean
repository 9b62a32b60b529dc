import TemplatedSql.Proofs.Token.Layout

/-! # How far a source is cut

A source can be cut up to a place if what stands before it consists of comments, of tags and of text before these, and
of the start of a tag that is open there. What stands before the place and what stands after it are then cut each on its
own: the tokens of the source are those of the two, one after the other. -/

namespace TemplatedSql

/-- Where a source is cut up to: outside tags, with a hyphen that drops blanks right before the place or none, or inside
    a tag that is to be closed by a token of the kind given and opens at the place given. -/
inductive Site
  | outside (trim : Bool)
  | inside (close : TokenKind) (opened : List Char)

/-- How scanning goes on there. -/
def Site.mode : Site → ScanMode
  | outside trim => .outside trim
  | inside close opened => .inside ⟨close, .reached opened⟩

/-- The places that a source can be cut up to. -/
inductive Cut (source : List Char) : Site → List Char → Prop
  | start : Cut source (.outside false) []
  /-- Past a comment. -/
  | comment {trim before rest text hyphen inner more} (h : Cut source (.outside trim) before)
    (hsource : before ++ rest = source)
    (hopening : FirstOpening rest text '#' hyphen (inner ++ ['#', '}'] ++ more)) (hinner : EndsNoComment inner) :
    Cut source (.outside (inner.getLast? = some '-'))
      (before ++ (text ++ '{' :: '#' :: (hyphen ++ inner ++ ['#', '}'])))
  /-- Past the opening of a tag. -/
  | opened {trim before rest text mark hyphen body kind close} (h : Cut source (.outside trim) before)
    (hsource : before ++ rest = source) (hmark : (mark, kind, close) ∈ tagMarks)
    (hopening : FirstOpening rest text mark hyphen body) :
    Cut source (.inside close (before ++ text)) (before ++ (text ++ '{' :: mark :: hyphen))
  /-- Past white space in a tag. -/
  | gap {close opened before c} (h : Cut source (.inside close opened) before) (hgap : isGap c = true) :
    Cut source (.inside close opened) (before ++ [c])
  /-- Past a token in a tag. -/
  | inner {close opened before raw rest text} {kind : TokenKind} (h : Cut source (.inside close opened) before)
    (hsource : before ++ (raw ++ rest) = source) (htaken : Taken (raw ++ rest) raw (.ok (kind, text)))
    (hkind : kind.isClose = false) : Cut source (.inside close opened) (before ++ raw)
  /-- Past the closing of a tag. -/
  | closed {close opened before raw rest text} (h : Cut source (.inside close opened) before)
    (hsource : before ++ (raw ++ rest) = source) (htaken : Taken (raw ++ rest) raw (.ok (close, text)))
    (hclose : close.isClose = true) : Cut source (.outside (raw.head? = some '-')) (before ++ raw)

/-! ### Scanning goes from place to place -/

theorem Position.reached_append (before cs : List Char) : reached (before ++ cs) = (reached before).after cs := by
  rw [← start_after, ← start_after, after_append]

/-- Scanning goes on from a place that a source can be cut up to, with the rest of the source. -/
structure Stands (source : List Char) (site : Site) (before : List Char) (mode : ScanMode) (cs : List Char)
    (p : Position) : Prop where
  cut : Cut source site before
  mode_eq : site.mode = mode
  place : .reached before = p
  split : before ++ cs = source

namespace Stands
variable {source before cs text hyphen : List Char} {site : Site} {trim : Bool} {tag : Opening} {p : Position}

theorem start (source : List Char) : Stands source (.outside false) [] (.outside false) source .start :=
  ⟨.start, rfl, rfl, rfl⟩

theorem outside (h : Stands source site before (.outside trim) cs p) : site = .outside trim := by
  have hmode := h.mode_eq
  cases site <;> cases hmode
  rfl

theorem inside (h : Stands source site before (.inside tag) cs p) :
    ∃ opened, site = .inside tag.close opened ∧ tag.start = .reached opened := by
  have hmode := h.mode_eq
  cases site <;> cases hmode
  exact ⟨_, rfl, rfl⟩

theorem comment {inner more : List Char} (h : Stands source site before (.outside trim) cs p)
    (hopening : FirstOpening cs text '#' hyphen (inner ++ ['#', '}'] ++ more)) (hinner : EndsNoComment inner) :
    Stands source (.outside (inner.getLast? = some '-')) (before ++ (text ++ '{' :: '#' :: (hyphen ++ inner ++ ['#', '}'])))
      (.outside (inner.getLast? = some '-')) more ((p.after text).after ('{' :: '#' :: (hyphen ++ inner ++ ['#', '}']))) where
  cut := (h.outside ▸ h.cut).comment h.split hopening hinner
  mode_eq := rfl
  place := by rw [Position.reached_append, Position.after_append, h.place]
  split := by
    rw [← h.split, hopening.split]
    simp

theorem opened {mark : Char} {kind close : TokenKind} {body : List Char}
    (h : Stands source site before (.outside trim) cs p) (hmark : (mark, kind, close) ∈ tagMarks)
    (hopening : FirstOpening cs text mark hyphen body) :
    Stands source (.inside close (before ++ text)) (before ++ (text ++ '{' :: mark :: hyphen))
      (.inside ⟨close, p.after text⟩) body ((p.after text).after ('{' :: mark :: hyphen)) where
  cut := (h.outside ▸ h.cut).opened h.split hmark hopening
  mode_eq := by rw [Site.mode, Position.reached_append, h.place]
  place := by rw [Position.reached_append, Position.after_append, h.place]
  split := by
    rw [← h.split, hopening.split]
    simp

theorem gap {c : Char} (h : Stands source site before (.inside tag) (c :: cs) p) (hgap : isGap c = true) :
    Stands source site (before ++ [c]) (.inside tag) cs (p.next c) where
  cut := by
    obtain ⟨opened, rfl, -⟩ := h.inside
    exact h.cut.gap hgap
  mode_eq := h.mode_eq
  place := by
    rw [Position.reached_append, h.place]
    rfl
  split := by
    rw [List.append_assoc]
    exact h.split

section Taken
variable {raw rest : List Char} {kind : TokenKind} {found : String}
  (h : Stands source site before (.inside tag) (raw ++ rest) p)
include h

theorem token (htaken : Taken (raw ++ rest) raw (.ok (kind, found))) (hkind : kind.isClose = false) :
    Stands source site (before ++ raw) (.inside tag) rest (p.after raw) where
  cut := by
    obtain ⟨opened, rfl, -⟩ := h.inside
    exact h.cut.inner h.split htaken hkind
  mode_eq := h.mode_eq
  place := by rw [Position.reached_append, h.place]
  split := by rw [List.append_assoc, h.split]

theorem closed (htaken : Taken (raw ++ rest) raw (.ok (tag.close, found))) (hclose : tag.close.isClose = true) :
    Stands source (.outside (raw.head? = some '-')) (before ++ raw) (.outside (raw.head? = some '-')) rest
      (p.after raw) where
  cut := by
    obtain ⟨opened, rfl, -⟩ := h.inside
    exact h.cut.closed h.split htaken hclose
  mode_eq := rfl
  place := by rw [Position.reached_append, h.place]
  split := by rw [List.append_assoc, h.split]

end Taken

end Stands

/-! ### What stands before a place -/

/-- What stands before a place that a source can be cut up to, cut into segments: then white space inside a tag. -/
structure Fronts (source : List Char) (site : Site) (before : List Char) (front : List Segment) (gap : List Char) :
    Prop where
  chars : front.flatMap Segment.chars ++ gap = before
  gap_outside : site.mode.close? = none → gap = []
  laid : ∀ segments, Laid site.mode.close? (.reached before) segments →
    before ++ segments.flatMap Segment.chars = source → Laid none .start (front ++ Segment.extend gap segments)
  munched : ∀ rest result, before ++ rest = source → Munched site.mode rest (.reached before) result →
    Munched (.outside false) source .start (result.map (front.map (·.token) ++ ·))

namespace Fronts
variable {source before gap : List Char} {front : List Segment} {site site' : Site}

/-- Segments that are cut off next end the white space before them. -/
theorem append (h : Fronts source site before front gap) (run : List Segment) (hne : run ≠ []) {raw : List Char}
    (hchars : run.flatMap Segment.chars = raw)
    (hlaid : ∀ segments, before ++ (raw ++ segments.flatMap Segment.chars) = source →
      Laid site'.mode.close? ((Position.reached before).after raw) segments →
      Laid site.mode.close? (.reached before) (run ++ segments))
    (hmunched : ∀ rest result, before ++ (raw ++ rest) = source →
      Munched site'.mode rest ((Position.reached before).after raw) result →
      Munched site.mode (raw ++ rest) (.reached before) (result.map (run.map (·.token) ++ ·))) :
    Fronts source site' (before ++ raw) (front ++ Segment.extend gap run) [] where
  chars := by
    rw [List.append_nil, List.flatMap_append, Segment.flatMap_extend hne, hchars, ← h.chars, List.append_assoc]
  gap_outside _ := rfl
  laid segments hsegments hsource := by
    rw [Position.reached_append] at hsegments
    rw [List.append_assoc] at hsource
    have hall := h.laid (run ++ segments) (hlaid segments hsource hsegments)
      (by rw [List.flatMap_append, hchars, hsource])
    obtain ⟨s, run, rfl⟩ := List.exists_cons_of_ne_nil hne
    rw [List.append_assoc, Segment.extend_nil]
    exact hall
  munched rest result hsource hrest := by
    rw [Position.reached_append] at hrest
    rw [List.append_assoc] at hsource
    have hall := h.munched _ _ hsource (hmunched rest result hsource hrest)
    cases result <;> simpa [Except.map] using hall

/-- White space inside a tag is cut off. -/
theorem skip {close : TokenKind} {opened : List Char} (h : Fronts source (.inside close opened) before front gap)
    {c : Char} (hgap : isGap c = true) :
    Fronts source (.inside close opened) (before ++ [c]) front (gap ++ [c]) where
  chars := by rw [← List.append_assoc, h.chars]
  gap_outside hclose := nomatch hclose
  laid segments hsegments hsource := by
    rw [Position.reached_append] at hsegments
    have hextended := Laid.extend hgap hsegments
    rw [← Segment.extend_extend]
    refine h.laid _ hextended ?_
    rw [Segment.flatMap_extend hsegments.ne_nil, ← List.append_assoc, hsource]
  munched rest result hsource hrest := by
    rw [Position.reached_append] at hrest
    rw [List.append_assoc] at hsource
    exact h.munched _ _ hsource (.gap hgap hrest)

/-- A text is cut off together with what opens after it. -/
theorem opening {trim : Bool} (h : Fronts source (.outside trim) before front gap)
    {rest text hyphen body more : List Char} {mark : Char} (hsource : before ++ rest = source)
    (hopening : FirstOpening rest text mark hyphen body)
    {raw : List Char} (hraw : raw ++ more = '{' :: mark :: (hyphen ++ body)) {token : Token}
    (hlaid : ∀ segments, segments.flatMap Segment.chars = more →
      Laid site'.mode.close? (((Position.reached before).after text).after raw) segments →
      Laid none ((Position.reached before).after text) (⟨[], raw, token⟩ :: segments))
    (hmunched : ∀ result, Munched site'.mode more (((Position.reached before).after text).after raw) result →
      Munched (.outside trim) rest (.reached before)
        (result.map (textTokens trim (!hyphen.isEmpty) text (.reached before) ++ token :: ·))) :
    ∃ front gap, Fronts source site' (before ++ (text ++ raw)) front gap := by
  obtain ⟨left, kept, right, htrims, htokens⟩ := exists_trims trim (!hyphen.isEmpty) text
  have hmore : ∀ {cs}, before ++ (text ++ raw ++ cs) = source → cs = more := by
    intro cs hcs
    rw [← hsource, hopening.split, ← hraw, List.append_assoc] at hcs
    exact List.append_cancel_left (List.append_cancel_left (List.append_cancel_left hcs))
  let run := Segment.ofParts (.reached before) left kept right ++ [⟨[], raw, token⟩]
  refine ⟨_, _, h.append run (by simp [run]) ?_ ?_ ?_⟩
  · simp [run, Segment.flatMap_ofParts, Segment.chars, htrims.split]
  · intro segments hsegments hrest
    have hchars := hmore hsegments
    rw [Position.after_append] at hrest
    rw [List.append_assoc (Segment.ofParts _ _ _ _)]
    refine .ofParts htrims ?_ (hlaid segments hchars hrest)
    have hnext : (raw ++ more).take 1 = ['{'] := by rw [hraw]; rfl
    simpa [Segment.chars, hchars, hnext] using hopening.first
  · intro cs result hcs hrest
    obtain rfl := hmore hcs
    rw [Position.after_append] at hrest
    have hcut := hmunched result hrest
    rw [hopening.split, ← hraw] at hcut
    cases result <;> simpa [run, Except.map, Segment.map_ofParts, htokens, Site.mode] using hcut

/-- A token inside a tag is cut off. -/
theorem take {close : TokenKind} {opened : List Char} (h : Fronts source (.inside close opened) before front gap)
    {raw rest : List Char} {token : Token} (hsource : before ++ (raw ++ rest) = source)
    (hlaid : ∀ segments, segments.flatMap Segment.chars = rest →
      Laid site'.mode.close? ((Position.reached before).after raw) segments →
      Laid (some close) (.reached before) (⟨[], raw, token⟩ :: segments))
    (hmunched : ∀ result, Munched site'.mode rest ((Position.reached before).after raw) result →
      Munched (.inside ⟨close, .reached opened⟩) (raw ++ rest) (.reached before) (result.map (token :: ·))) :
    ∃ front gap, Fronts source site' (before ++ raw) front gap := by
  have hrest : ∀ {cs}, before ++ (raw ++ cs) = source → cs = rest := fun hcs =>
    List.append_cancel_left (List.append_cancel_left (hcs.trans hsource.symm))
  refine ⟨_, _, h.append [⟨[], raw, token⟩] (List.cons_ne_nil _ _) (by simp [Segment.chars]) ?_ ?_⟩
  · exact fun segments hcs hsegments => hlaid segments (hrest hcs) hsegments
  · intro cs result hcs hresult
    obtain rfl := hrest hcs
    exact hmunched result hresult

end Fronts

/-- What stands before a place that a source can be cut up to is cut on its own. The induction is on how far it is. -/
theorem Cut.fronts {source before : List Char} {site : Site} (h : Cut source site before) :
    ∃ front gap, Fronts source site before front gap := by
  induction h with
  | start =>
    refine ⟨[], [], rfl, fun _ => rfl, fun segments hsegments _ => ?_, fun rest result hsource hrest => ?_⟩
    · rw [Segment.extend_nil]
      exact hsegments
    · obtain rfl : rest = source := hsource
      cases result <;> exact hrest
  | comment _ hsource hopening hinner ih =>
    obtain ⟨front, gap, hfronts⟩ := ih
    exact hfronts.opening hsource hopening (by simp)
      (fun _ _ hsegments => .comment rfl hopening.hyphen_of_comment hinner hsegments)
      (fun _ hresult => .comment hopening hinner hresult)
  | opened _ hsource hmark hopening ih =>
    obtain ⟨front, gap, hfronts⟩ := ih
    exact hfronts.opening hsource hopening rfl
      (fun _ hchars hsegments => .opened hmark rfl (hchars ▸ hopening.hyphen) hsegments)
      (fun _ hresult => .opened hmark hopening (Position.reached_append _ _ ▸ hresult))
  | gap _ hgap ih =>
    obtain ⟨front, gap, hfronts⟩ := ih
    exact ⟨front, _, hfronts.skip hgap⟩
  | inner _ hsource htaken hkind ih =>
    obtain ⟨front, gap, hfronts⟩ := ih
    have hinner := htaken.spelled.inner_or_close.resolve_right (Bool.eq_false_iff.mp hkind)
    exact hfronts.take hsource
      (fun _ hchars hsegments => .inner (List.forall_mem_nil _) hinner (hchars ▸ htaken) hsegments)
      (fun _ hresult => .token htaken hkind hresult)
  | closed _ hsource htaken hclose ih =>
    obtain ⟨front, gap, hfronts⟩ := ih
    obtain rfl := htaken.closing_text hclose
    exact hfronts.take hsource
      (fun _ hchars hsegments => .closed (List.forall_mem_nil _) hclose (hchars ▸ htaken) hsegments)
      (fun _ hresult => .closed htaken hclose hresult)

end TemplatedSql
