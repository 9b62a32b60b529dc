import TemplatedSql.Proofs.Grammar.Tape

/-! # Moving the cursor

The parser with a cursor does what the parser does on the tokens before the first end token. Each step of it is followed
by the step of the parser of the same name; the tokens that it takes pay for the turns that it makes, nine for each. -/

namespace TemplatedSql.Tape

open TemplatedSql.Parser (Parsed)

/-! ### Movement -/

/-- A turn after which its loop goes on moved the cursor. -/
def Turn.Advances (turn : Turn) : Prop :=
  turn.again = true → turn.after < turn.before

/-- The turns `old` are still there, and every turn after them advanced. -/
def Since (old : List Turn) (c : Tape) : Prop :=
  ∃ new, c.turns = new ++ old ∧ ∀ turn ∈ new, turn.Advances

/-- The cursor stands before `ts`, among which there is no end token, with `tail` and the last token behind them. -/
structure Stands (tail ts : List Token) (c : Tape) : Prop where
  left : c.left = ts ++ tail
  inner : ∀ t ∈ ts, t.kind ≠ .eof

/-- The turns so far and the nine turns that each token may still pay for. -/
def work (c : Tape) : Nat :=
  c.turns.length + 9 * c.left.length

/-- The cursor moved over the tokens that were taken, which paid for the turns; `gain` is what they could pay for besides. -/
structure Moves (gain : Int) (c c' : Tape) : Prop where
  takes : ∃ read, c.left = read ++ c'.left ∧ c'.taken = read.reverse ++ c.taken
  turns_le : c.turns.length ≤ c'.turns.length
  work_le : (c'.work : Int) + gain ≤ c.work

variable {last : Token} {tail ts : List Token} {c c' c'' : Tape} {gain gain' : Int}

namespace Moves

theorem refl (c : Tape) : Moves 0 c c where
  takes := ⟨[], rfl, rfl⟩
  turns_le := Nat.le_refl _
  work_le := by omega

theorem trans (h : Moves gain c c') (h' : Moves gain' c' c'') : Moves (gain + gain') c c'' where
  takes := by
    obtain ⟨read, hleft, htaken⟩ := h.takes
    obtain ⟨read', hleft', htaken'⟩ := h'.takes
    exact ⟨read ++ read', by rw [hleft, hleft', List.append_assoc], by simp [htaken', htaken]⟩
  turns_le := Nat.le_trans h.turns_le h'.turns_le
  work_le := by
    have := h.work_le
    have := h'.work_le
    omega

theorem weaken (h : Moves gain c c') (hle : gain' ≤ gain) : Moves gain' c c' where
  takes := h.takes
  turns_le := h.turns_le
  work_le := by
    have := h.work_le
    omega

theorem length_le (h : Moves gain c c') : c'.left.length ≤ c.left.length := by
  obtain ⟨read, hleft, -⟩ := h.takes
  rw [hleft, List.length_append]
  omega

/-- The turns are never taken back, so a gain comes from tokens only. -/
theorem length_lt (h : Moves gain c c') (hgain : 0 < gain) : c'.left.length < c.left.length := by
  have hwork := h.work_le
  have hturns := h.turns_le
  unfold work at hwork
  omega

/-- A turn costs one. -/
theorem turned (h : Moves gain c c') (loop : Loop) (again : Bool) : Moves (gain - 1) c (turned loop c c' again) where
  takes := h.takes
  turns_le := Nat.le_succ_of_le h.turns_le
  work_le := by
    have hwork := h.work_le
    unfold work at hwork
    simp only [work, Tape.turned, List.length_cons]
    omega

end Moves

theorem Stands.turned (h : Stands tail ts c') (loop : Loop) (c : Tape) (again : Bool) :
    Stands tail ts (turned loop c c' again) where
  left := h.left
  inner := h.inner

namespace Since
variable {old : List Turn}

theorem refl (c : Tape) : Since c.turns c :=
  ⟨[], rfl, List.forall_mem_nil _⟩

theorem trans (h : Since old c) (h' : Since c.turns c') : Since old c' := by
  obtain ⟨new, hold, hnew⟩ := h
  obtain ⟨new', hold', hnew'⟩ := h'
  refine ⟨new' ++ new, by rw [hold', hold, List.append_assoc], fun turn hturn => ?_⟩
  exact (List.mem_append.mp hturn).elim (hnew' turn) (hnew turn)

theorem suffix (h : Since old c) : old <:+ c.turns := by
  obtain ⟨new, hold, -⟩ := h
  exact ⟨new, hold.symm⟩

theorem turned (h : Since old c') (loop : Loop) {again : Bool} (hagain : again = true → c'.left.length < c.left.length) :
    Since old (turned loop c c' again) := by
  obtain ⟨new, hold, hnew⟩ := h
  exact ⟨_ :: new, congrArg (List.cons _) hold, List.forall_mem_cons.mpr ⟨hagain, hnew⟩⟩

end Since

/-! ### Outcomes -/

theorem ok_bind {α β : Type} (a : α) (g : α → Except TemplateError β) : (Except.ok a >>= g) = g a := rfl

theorem map_eq_bind {α β : Type} (r : Except TemplateError α) (f : α → β) : r.map f = r >>= fun a => .ok (f a) := by
  cases r <;> rfl

theorem map_bind {α β γ : Type} (r : Except TemplateError α) (g : α → Except TemplateError β) (f : β → γ) :
    (r >>= g).map f = r >>= fun a => (g a).map f := by
  cases r <;> rfl

theorem map_map {α β γ : Type} (r : Except TemplateError α) (f : α → β) (g : β → γ) :
    (r.map f).map g = r.map fun a => g (f a) := by
  cases r <;> rfl

/-- What a step of the parser gives, and the tokens that it leaves. -/
def told {α : Type} {n : Nat} (r : Except TemplateError (Parsed α n)) : Except TemplateError (α × List Token) :=
  r.map fun p => (p.value, p.rest)

/-- A run ends as `m` says: with its error after no more than `most` turns, or with a value for which `post` holds. It
reaches the limit only where the limit falls `short`. Either way the turns after the turns `old` advanced. -/
inductive Ends {α γ : Type} (old : List Turn) (short : Prop) (most : Nat)
    (post : Except TemplateError γ → α → Tape → Prop) (m : Except TemplateError γ) : Outcome α → Prop
  | gives {a : α} {c : Tape} (h : post m a c) (hsince : Since old c) : Ends old short most post m (.gives a c)
  | fails {e : TemplateError} {c : Tape} (hm : m = .error e) (hmost : c.turns.length ≤ most) (hsince : Since old c) :
    Ends old short most post m (.fails e c)
  | stuck (h : short) : Ends old short most post m .stuck

/-- The run from `c` ends as `m` says. -/
def Meets {α γ : Type} (short : Prop) (most : Nat) (post : Except TemplateError γ → α → Tape → Prop)
    (m : Except TemplateError γ) (x : Run α) (c : Tape) : Prop :=
  Ends c.turns short most post m (x c)

/-- A run from `c` gives what a step of the parser gives, and leaves the tokens that the step leaves. -/
def Gives (tail : List Token) (gain : Int) (c : Tape) {α : Type} (m : Except TemplateError (α × List Token)) (a : α)
    (c' : Tape) : Prop :=
  ∃ rest, m = .ok (a, rest) ∧ Stands tail rest c' ∧ Moves gain c c'

/-- A run from `c` gives what was found there, or nothing. -/
def Finds (tail : List Token) (gain : Int) (c : Tape) {α γ : Type} {n : Nat} (found : Option (Parsed α n))
    (_ : Except TemplateError γ) (o : Option α) (c' : Tape) : Prop :=
  match found with
  | none => o = none ∧ c' = c
  | some p => o = some p.value ∧ Stands tail p.rest c' ∧ Moves gain c c'

/-- The token at which the parser runs out of tokens. -/
def stop (last : Token) (tail : List Token) : Token :=
  tail.head?.getD last

section
variable {α β γ δ σ : Type} {n k : Nat} {short short' : Prop} {most most' : Nat} {m : Except TemplateError γ}
  {post post' : Except TemplateError γ → α → Tape → Prop} {x : Run α}

namespace Meets

theorem mono (h : Meets short' most' post' m x c) (hshort : short' → short) (hmost : most' ≤ most)
    (hpost : ∀ a c, post' m a c → post m a c) : Meets short most post m x c := by
  unfold Meets at h ⊢
  revert h
  cases x c with
  | gives a c' =>
    rintro ⟨h, hsince⟩
    exact .gives (hpost _ _ h) hsince
  | fails e c' =>
    rintro (_ | ⟨hm, hle, hsince⟩)
    exact .fails hm (Nat.le_trans hle hmost) hsince
  | stuck =>
    rintro (_ | _ | h)
    exact .stuck (hshort h)

theorem weaken (h : Meets short' most' post m x c) (hshort : short' → short) (hmost : most' ≤ most) :
    Meets short most post m x c :=
  h.mono hshort hmost fun _ _ => id

theorem pure {a : α} (h : post m a c) : Meets short most post m (pure a) c :=
  .gives h (.refl c)

/-- A run takes no turn back. -/
theorem suffix (h : Meets short most post m x c) (hx : (x c).tape? = some c') : c.turns <:+ c'.turns := by
  unfold Meets at h
  revert h
  cases ho : x c with
  | gives a e =>
    rintro ⟨-, hsince⟩
    rw [ho] at hx
    cases hx
    exact hsince.suffix
  | fails error e =>
    rintro (_ | ⟨-, -, hsince⟩)
    rw [ho] at hx
    cases hx
    exact hsince.suffix
  | stuck =>
    rw [ho] at hx
    cases hx

/-- A run that goes on after turns that advanced. -/
theorem since {o : Outcome α} {old : List Turn} (h : Ends c.turns short most post m o) (hsince : Since old c) :
    Ends old short most post m o := by
  cases h with
  | gives h h' => exact .gives h (hsince.trans h')
  | fails hm hmost h' => exact .fails hm hmost (hsince.trans h')
  | stuck h => exact .stuck h

theorem bind {x : Run β} {f : β → Run α} {P : Except TemplateError γ → β → Tape → Prop}
    (h : Meets short most P m x c) (hf : ∀ b c', P m b c' → Meets short most post m (f b) c') :
    Meets short most post m (x >>= f) c := by
  unfold Meets at h ⊢
  cases hx : x c with
  | gives b c' =>
    rw [hx] at h
    rw [Run.bind_gives hx]
    obtain ⟨h, hsince⟩ := h
    exact since (hf b c' h) hsince
  | fails e c' =>
    rw [hx] at h
    rw [Run.bind_fails hx]
    obtain _ | ⟨hm, hmost, hsince⟩ := h
    exact .fails hm hmost hsince
  | stuck =>
    rw [hx] at h
    rw [Run.bind_stuck hx]
    obtain _ | _ | h := h
    exact .stuck h

theorem peek {f : Token → Run α} (h : Meets short most post m (f (c.token last)) c) :
    Meets short most post m (peek last >>= f) c :=
  h

theorem peekSecond {f : Token → Run α} (h : Meets short most post m (f (c.left.tail.head?.getD last)) c) :
    Meets short most post m (peekSecond last >>= f) c :=
  h

theorem advance {f : Token → Run α} (h : Meets short most post m (f (c.token last)) (c.next last)) :
    Meets short most post m (advance last >>= f) c :=
  h

/-- A step of the parser and what comes after it. -/
theorem andThen {x : Run β} {f : β → Run α} {r : Except TemplateError (Parsed β n)}
    {g : Parsed β n → Except TemplateError γ} (h : Meets short' most' (Gives tail gain c) (told r) x c)
    (hshort : short' → short) (hmost : most' ≤ most)
    (hf : ∀ (p : Parsed β n) (c' : Tape), r = .ok p → Stands tail p.rest c' → Moves gain c c' →
      Meets short most post (g p) (f p.value) c') : Meets short most post (r >>= g) (x >>= f) c := by
  unfold Meets at h
  cases r with
  | error e =>
    -- The run cannot give a value, and fails with the same error.
    refine bind (P := fun _ _ _ => False) ?_ fun _ _ h => h.elim
    unfold Meets
    revert h
    cases x c with
    | gives b c' =>
      rintro ⟨⟨rest, hm, -⟩, -⟩
      cases hm
    | fails e' c' =>
      rintro (_ | ⟨hm, hturns, hsince⟩)
      cases hm
      exact .fails rfl (Nat.le_trans hturns hmost) hsince
    | stuck =>
      rintro (_ | _ | h)
      exact .stuck (hshort h)
  | ok p =>
    refine bind (P := fun _ b c' => b = p.value ∧ Stands tail p.rest c' ∧ Moves gain c c') ?_ ?_
    · unfold Meets
      revert h
      cases x c with
      | gives b c' =>
        rintro ⟨⟨rest, hm, hstands, hmoves⟩, hsince⟩
        cases hm
        exact .gives ⟨rfl, hstands, hmoves⟩ hsince
      | fails e' c' =>
        rintro (_ | ⟨hm, -⟩)
        cases hm
      | stuck =>
        rintro (_ | _ | h)
        exact .stuck (hshort h)
    · rintro b c' ⟨rfl, hstands, hmoves⟩
      exact hf p c' rfl hstands hmoves

/-- A step of the parser and what comes after it, of which something else is made. -/
theorem step {x : Run β} {f : β → Run α} {r : Except TemplateError (Parsed β n)}
    {g : Parsed β n → Except TemplateError δ} {view : δ → γ}
    (h : Meets short' most' (Gives tail gain c) (told r) x c) (hshort : short' → short) (hmost : most' ≤ most)
    (hf : ∀ (p : Parsed β n) (c' : Tape), r = .ok p → Stands tail p.rest c' → Moves gain c c' →
      Meets short most post ((g p).map view) (f p.value) c') :
    Meets short most post ((r >>= g).map view) (x >>= f) c := by
  rw [map_bind]
  exact h.andThen hshort hmost hf

/-- A last step of the parser and what the run makes of it. -/
theorem finish {x : Run β} {f : β → Run α} {r : Except TemplateError (Parsed β n)} {view : Parsed β n → γ}
    (h : Meets short' most' (Gives tail gain c) (told r) x c) (hshort : short' → short) (hmost : most' ≤ most)
    (hf : ∀ (p : Parsed β n) (c' : Tape), Stands tail p.rest c' → Moves gain c c' →
      Meets short most post (.ok (view p)) (f p.value) c') : Meets short most post (r.map view) (x >>= f) c := by
  rw [map_eq_bind]
  exact h.andThen hshort hmost fun p c' _ => hf p c'

/-- A loop, of which the parser makes something else. -/
theorem loop {m : Except TemplateError δ} {x : Run β} {f : β → Run α} {P : Except TemplateError δ → β → Tape → Prop}
    {view : δ → γ} (h : Meets short most P m x c)
    (hf : ∀ b c', P m b c' → Meets short most post (m.map view) (f b) c') :
    Meets short most post (m.map view) (x >>= f) c := by
  refine bind (P := fun _ b c' => P m b c') ?_ hf
  unfold Meets at h ⊢
  revert h
  cases x c with
  | gives b c' =>
    rintro ⟨h, hsince⟩
    exact .gives h hsince
  | fails e c' =>
    rintro (_ | ⟨hm, hmost, hsince⟩)
    exact .fails (by rw [hm]; rfl) hmost hsince
  | stuck =>
    rintro (_ | _ | h)
    exact .stuck h

/-- Something that may come next, and what comes after it. -/
theorem find {x : Run (Option β)} {f : Option β → Run α} {found : Option (Parsed β n)}
    (h : Meets short most (Finds tail gain c found) m x c)
    (hnone : found = none → Meets short most post m (f none) c)
    (hsome : ∀ (p : Parsed β n) (c' : Tape), found = some p → Stands tail p.rest c' → Moves gain c c' →
      Meets short most post m (f (some p.value)) c') : Meets short most post m (x >>= f) c := by
  refine bind h fun o c' ho => ?_
  cases found with
  | none =>
    obtain ⟨rfl, rfl⟩ := ho
    exact hnone rfl
  | some p =>
    obtain ⟨rfl, hstands, hmoves⟩ := ho
    exact hsome p c' rfl hstands hmoves

/-- The number that a token spells, and what comes after it. -/
theorem number {t : Token} {f : Float → Run α} {g : Float → Except TemplateError δ} {view : δ → γ}
    (hmost : c.turns.length ≤ most) (h : ∀ v, Parser.readNumber t = .ok v → Meets short most post ((g v).map view) (f v) c) :
    Meets short most post ((Parser.readNumber t >>= g).map view) (number t >>= f) c := by
  rw [Tape.number]
  cases hnumber : Parser.readNumber t with
  | ok v => exact h v hnumber
  | error e => exact .fails rfl hmost (.refl c)

end Meets

/-- What a step gives, where the parser goes on with nothing but that. -/
theorem told_bind_ok {r : Except TemplateError (Parsed β n)} {q : Parsed β n → Parsed β k}
    (h : ∀ p, (q p).value = p.value ∧ (q p).rest = p.rest) :
    ((r >>= fun p => .ok (q p)).map fun p => (p.value, p.rest)) = told r := by
  cases r with
  | error e => rfl
  | ok p => exact congrArg Except.ok (Prod.ext (h p).1 (h p).2)

/-- A last step of the parser. -/
theorem Meets.lastStep {r : Except TemplateError (Parsed β n)} {q : Parsed β n → Parsed β k}
    {post : Except TemplateError (β × List Token) → α → Tape → Prop} (h : Meets short most post (told r) x c)
    (hq : ∀ p, (q p).value = p.value ∧ (q p).rest = p.rest) :
    Meets short most post ((r >>= fun p => .ok (q p)).map fun p => (p.value, p.rest)) x c :=
  told_bind_ok hq ▸ h

/-! ### Turns -/

/-- How a turn ends: it goes on with a state for which the parser does the same, or leaves the loop, and then the parser
goes on as `after` says. -/
def TurnEnds (tail : List Token) (inv : σ → Prop) (M : σ → List Token → Except TemplateError γ)
    (after : α → List Token → Except TemplateError γ) (c : Tape) (m : Except TemplateError γ) : σ ⊕ α → Tape → Prop
  | .inl s, c' => inv s ∧ ∃ rest, m = M s rest ∧ Stands tail rest c' ∧ Moves 1 c c'
  | .inr a, c' => ∃ rest, m = after a rest ∧ Stands tail rest c' ∧ Moves 0 c c'

/-- A loop whose turns go on only after they moved the cursor comes to an end, with one turn that is not paid for. -/
theorem meets_repeatTurns {inv : σ → Prop} {M : σ → List Token → Except TemplateError γ}
    {after : α → List Token → Except TemplateError γ} (loop : Loop) {turn : σ → Run (σ ⊕ α)}
    (hturn : ∀ {s c ts}, inv s → Stands tail ts c → c.left.length ≤ n →
      Meets short c.work (TurnEnds tail inv M after c) (M s ts) (turn s) c)
    (limit : Nat) (s : σ) {c : Tape} {ts : List Token} (hs : inv s) (hc : Stands tail ts c) (hn : c.left.length ≤ n)
    (hlimit : limit ≤ c.left.length → short) :
    Meets short (c.work + 1) (fun m a c' => ∃ rest, m = after a rest ∧ Stands tail rest c' ∧ Moves (-1) c c') (M s ts)
      (repeatTurns loop turn limit s) c := by
  induction limit generalizing s c ts with
  | zero => exact .stuck (hlimit (Nat.zero_le _))
  | succ limit ih =>
    have h := hturn hs hc hn
    unfold Meets at h ⊢
    rw [repeatTurns]
    revert h
    cases turn s c with
    | gives r c' =>
      rintro ⟨h, hsince⟩
      cases r with
      | inl s' =>
        obtain ⟨hs', rest, hm, hstands, hmoves⟩ := h
        have hless := hmoves.length_lt Int.one_pos
        have hturned := hmoves.turned loop true
        dsimp only
        rw [hm]
        refine Meets.since (Meets.mono (ih s' hs' (hstands.turned loop c true) ?_ ?_) id ?_ ?_)
          (hsince.turned loop fun _ => hless)
        · exact Nat.le_trans hturned.length_le hn
        · exact fun hle => hlimit (Nat.lt_of_le_of_lt hle hless)
        · have := hturned.work_le
          omega
        · rintro a c'' ⟨rest', hm', hstands', hmoves'⟩
          exact ⟨rest', hm', hstands', hturned.trans hmoves'⟩
      | inr a =>
        obtain ⟨rest, hm, hstands, hmoves⟩ := h
        exact .gives ⟨rest, hm, hstands.turned loop c false, hmoves.turned loop false⟩ (hsince.turned loop nofun)
    | fails e c' =>
      rintro (_ | ⟨hm, hturns, hsince⟩)
      exact .fails hm (Nat.succ_le_succ hturns) (hsince.turned loop nofun)
    | stuck =>
      rintro (_ | _ | h)
      exact .stuck h

/-- Such a loop remembers its turns, as no turn takes back what was remembered before it. -/
theorem remembers_repeatTurns {inv : σ → Prop} {M : σ → List Token → Except TemplateError γ}
    {after : α → List Token → Except TemplateError γ} (loop : Loop) {turn : σ → Run (σ ⊕ α)}
    (hturn : ∀ {s c ts}, inv s → Stands tail ts c → c.left.length ≤ n →
      Meets short c.work (TurnEnds tail inv M after c) (M s ts) (turn s) c)
    (limit : Nat) (s : σ) {c : Tape} {ts : List Token} (hs : inv s) (hc : Stands tail ts c) (hn : c.left.length ≤ n) :
    Remembers loop turn limit s c := by
  induction limit generalizing s c ts with
  | zero =>
    intro e he
    cases he
  | succ limit ih =>
    have h := hturn hs hc hn
    unfold Meets at h
    intro e
    rw [repeatTurns, laps]
    revert h
    cases turn s c with
    | gives r c' =>
      rintro ⟨h, hsince⟩
      have hlap (again : Bool) : (⟨loop, c.left.length, c'.left.length, again⟩ :: c.turns).Sublist
          (turned loop c c' again).turns := hsince.suffix.sublist.cons_cons _
      cases r with
      | inl s' =>
        obtain ⟨hs', rest, -, hstands, hmoves⟩ := h
        intro he
        have hrest := ih s' hs' (hstands.turned loop c true)
          (Nat.le_trans (hmoves.turned loop true).length_le hn) e he
        rw [List.reverse_cons, List.append_assoc, List.singleton_append]
        exact ((List.Sublist.refl _).append (hlap true)).trans hrest
      | inr a =>
        intro he
        cases he
        exact hlap false
    | fails error c' =>
      rintro (_ | ⟨-, -, hsince⟩) he
      cases he
      exact hsince.suffix.sublist.cons_cons _
    | stuck =>
      intro _ he
      cases he

end

/-! ### Tokens -/

theorem turns_le_work (c : Tape) : c.turns.length ≤ c.work :=
  Nat.le_add_right _ _

namespace Stands
variable {t u : Token}

theorem token_nil (h : Stands tail [] c) : c.token last = stop last tail := by
  rw [token, h.left]
  rfl

theorem token_cons (h : Stands tail (t :: ts) c) : c.token last = t := by
  rw [token, h.left]
  rfl

theorem second_cons (h : Stands tail (t :: u :: ts) c) : c.left.tail.head?.getD last = u := by
  rw [h.left]
  rfl

theorem start (h : Stands tail ts c) : Parser.place (stop last tail).start ts = (c.token last).start := by
  cases ts with
  | nil => rw [h.token_nil, Parser.place]
  | cons t ts => rw [h.token_cons, Parser.place]

/-- What the token at the cursor is not, the next token is not. -/
theorem head_ne (h : Stands tail ts c) {kind : TokenKind} (hne : (c.token last).kind ≠ kind) :
    ∀ t ∈ ts.head?, t.kind ≠ kind := by
  cases ts with
  | nil => simp
  | cons t ts =>
    rw [h.token_cons] at hne
    simpa using hne

theorem next (h : Stands tail (t :: ts) c) : Stands tail ts (c.next last) where
  left := by
    rw [Tape.next, h.left]
    rfl
  inner := fun u hu => h.inner u (List.mem_cons_of_mem t hu)

theorem moves_next (h : Stands tail (t :: ts) c) : Moves 9 c (c.next last) where
  takes := ⟨[t], by rw [Tape.next, h.left]; rfl, by rw [Tape.next, h.token_cons]; rfl⟩
  turns_le := Nat.le_refl _
  work_le := by
    simp only [work, Tape.next, h.left, List.cons_append, List.tail_cons, List.length_cons]
    omega

end Stands

section
variable {α γ : Type} {short : Prop} {most : Nat} {m : Except TemplateError γ}
  {post : Except TemplateError γ → α → Tape → Prop} (hstop : (stop last tail).kind = .eof)
include hstop

theorem Stands.kind_nil (h : Stands tail [] c) : (c.token last).kind = .eof :=
  h.token_nil ▸ hstop

theorem Stands.kind_second {t : Token} (h : Stands tail [t] c) : (c.left.tail.head?.getD last).kind = .eof := by
  rw [h.left]
  exact hstop

/-- The error at the cursor. -/
theorem Stands.mismatch (h : Stands tail ts c) (expected : String) :
    (⟨(c.token last).start, .parse expected (c.token last).describe⟩ : TemplateError) =
      Parser.mismatch (stop last tail).start expected ts := by
  cases ts with
  | nil =>
    rw [h.token_nil, Parser.mismatch, Parser.place]
    simp [Token.describe, hstop]
  | cons t ts =>
    rw [h.token_cons]
    rfl

theorem Stands.unexpected (h : Stands tail ts c) {expected : String} (hmost : c.turns.length ≤ most)
    (hm : m = .error (Parser.mismatch (stop last tail).start expected ts)) :
    Meets short most post m (unexpected last expected) c :=
  .fails (hm.trans (congrArg Except.error (h.mismatch hstop expected).symm)) hmost (.refl c)

theorem Stands.expect (h : Stands tail ts c) {kind : TokenKind} (hkind : kind ≠ .eof) :
    Meets short c.work (Gives tail 9 c) (told (Parser.expect (stop last tail).start kind ts)) (expect last kind) c := by
  rw [Tape.expect]
  refine .peek ?_
  cases ts with
  | nil =>
    rw [h.kind_nil hstop, if_neg (Ne.symm hkind)]
    exact h.unexpected hstop c.turns_le_work rfl
  | cons t ts =>
    rw [h.token_cons, Parser.expect]
    by_cases ht : t.kind = kind
    · rw [if_pos ht, if_pos ht]
      exact .gives ⟨ts, by rw [h.token_cons]; rfl, h.next, h.moves_next⟩ (.refl c)
    · rw [if_neg ht, if_neg ht]
      exact h.unexpected hstop c.turns_le_work rfl

/-- A token that is taken if it comes next. -/
theorem Stands.eat (h : Stands tail ts c) {kind : TokenKind} (hkind : kind ≠ .eof) :
    Meets short most (Finds tail 9 c (Parser.accept? kind ts)) m (eat last kind) c := by
  rw [Tape.eat]
  refine .peek ?_
  cases ts with
  | nil =>
    rw [h.kind_nil hstop, if_neg (Ne.symm hkind)]
    exact .pure ⟨rfl, rfl⟩
  | cons t ts =>
    rw [h.token_cons, Parser.accept?]
    by_cases ht : t.kind = kind
    · rw [if_pos ht, if_pos ht]
      exact .advance (.pure ⟨congrArg some h.token_cons, h.next, h.moves_next⟩)
    · rw [if_neg ht, if_neg ht]
      exact .pure ⟨rfl, rfl⟩

omit hstop in
/-- A token that stands for a value. -/
theorem Stands.single {t : Token} (h : Stands tail (t :: ts) c) (a : α) :
    Meets short most (Gives tail 9 c) (told (.ok (.nothing a ts))) (single last a) c :=
  .advance (.pure ⟨ts, rfl, h.next, h.moves_next⟩)

/-- A turn that leaves a list before the token that closes it. -/
theorem Stands.unlessClosed {σ : Type} {inv : σ → Prop} {M : σ → List Token → Except TemplateError γ}
    {after : α → List Token → Except TemplateError γ} {close : TokenKind} {a : α} {go : Run (σ ⊕ α)}
    (h : Stands tail ts c) (hclose : close ≠ .eof) (hend : ∀ t rest, ts = t :: rest → t.kind = close → m = after a ts)
    (hgo : (∀ t ∈ ts.head?, t.kind ≠ close) → Meets short most (TurnEnds tail inv M after c) m go c) :
    Meets short most (TurnEnds tail inv M after c) m
      (peek last >>= fun t => if t.kind = close then pure (.inr a) else go) c := by
  refine .peek ?_
  by_cases ht : (c.token last).kind = close
  · rw [if_pos ht]
    cases ts with
    | nil => exact absurd (ht.symm.trans (h.kind_nil hstop)) hclose
    | cons t rest => exact .pure ⟨t :: rest, hend t rest rfl (h.token_cons ▸ ht), h, .refl c⟩
  · rw [if_neg ht]
    exact hgo (h.head_ne ht)

/-- The end of a turn that has read an item of a list. -/
theorem Stands.separated {β : Type} {inv : List β → Prop} {M after : List β → List Token → Except TemplateError γ}
    {list : List β} (h : Stands tail ts c') (hmoves : Moves 1 c c') (hinv : inv list)
    (hm : m = (Parser.accept? .comma ts).elim (after list ts) fun comma => M list comma.rest) :
    Meets short most (TurnEnds tail inv M after c) m (separated last list) c' := by
  rw [Tape.separated]
  refine .find (h.eat hstop (by decide)) (fun hnone => ?_) fun comma c'' hcomma hstands hmoves' => ?_
  · rw [hnone] at hm
    exact .pure ⟨ts, hm, h, hmoves.weaken (by decide)⟩
  · rw [hcomma] at hm
    exact .pure ⟨hinv, comma.rest, hm, hstands, (hmoves.trans hmoves').weaken (by decide)⟩

/-! ### Operators -/

omit hstop in
theorem operator?_eof (l : Parser.Level) : l.operator? .eof = none := by
  cases l <;> rfl

/-- An operator that is taken if it comes next. -/
theorem Stands.operator? (h : Stands tail ts c) (l : Parser.Level) :
    Meets short most (Finds tail 9 c (Parser.operator? l ts)) m (operator? last l) c := by
  rw [Tape.operator?]
  refine .peek ?_
  cases ts with
  | nil =>
    rw [h.kind_nil hstop, operator?_eof]
    refine .peek (.peekSecond ?_)
    rw [h.kind_nil hstop, if_neg (by simp)]
    exact .pure ⟨rfl, rfl⟩
  | cons t ts =>
    rw [h.token_cons, Parser.operator?.eq_def]
    dsimp only
    cases hop : l.operator? t.kind with
    | some op => exact .advance (.pure ⟨by rw [h.token_cons], h.next, h.moves_next⟩)
    | none =>
      refine .peek (.peekSecond ?_)
      rw [h.token_cons]
      cases ts with
      | nil =>
        rw [h.kind_second hstop, if_neg (by simp)]
        exact .pure ⟨rfl, rfl⟩
      | cons u ts =>
        rw [h.second_cons]
        dsimp only
        by_cases hnotIn : l = .comparison ∧ t.kind = .notWord ∧ u.kind = .inWord
        · rw [if_pos hnotIn, if_pos hnotIn]
          refine .advance (.advance (.pure ⟨by rw [h.next.token_cons], h.next.next, ?_⟩))
          exact (h.moves_next.trans h.next.moves_next).weaken (by decide)
        · rw [if_neg hnotIn, if_neg hnotIn]
          exact .pure ⟨rfl, rfl⟩

end

end TemplatedSql.Tape
