import TemplatedSql.Proofs.Number.Sign

/-! # How numbers are written

An integer that is meant to read as one has the same text as any other number, if it has no sign: its shortest
decimal is the integer itself, without the zeros at its end, and these are put back. The text of a number without a
sign consists of digits and perhaps a point, and starts with a digit. -/

namespace TemplatedSql.Number

open Decimal

/-! ### Digits -/

theorem digitsOf_mul_ten {n : Nat} (hn : 0 < n) : digitsOf (n * 10) = digitsOf n ++ ['0'] := by
  have happend := Nat.toDigits_append_toDigits (b := 10) (n := n) (d := 0) (by decide) hn (by decide)
  rw [Nat.toDigits_zero] at happend
  rw [digitsOf, digitsOf, happend]
  congr 1
  omega

theorem digitsOf_mul_pow {n : Nat} (hn : 0 < n) (k : Nat) :
    digitsOf (n * 10 ^ k) = digitsOf n ++ List.replicate k '0' := by
  induction k with
  | zero => simp
  | succ k ih =>
    have hpos : 0 < n * 10 ^ k := Nat.mul_pos hn (Nat.pow_pos (by decide))
    rw [Nat.pow_succ, ← Nat.mul_assoc, digitsOf_mul_ten hpos, ih, List.append_assoc, List.replicate_succ']

/-- Taking zeros out of the digits leaves what the decimal stands for, here an integer. -/
theorem strip_integer (fuel : Nat) {q : Nat} (hq : 0 < q) (x : Nat) : ∃ q' x' : Nat, 0 < q' ∧
    strip fuel ⟨q, x⟩ = ⟨q', x'⟩ ∧ q' * 10 ^ x' = q * 10 ^ x := by
  induction fuel generalizing q x with
  | zero => exact ⟨q, x, hq, rfl, rfl⟩
  | succ fuel ih =>
    rw [strip]
    split
    · rename_i h
      simp only [Bool.and_eq_true, decide_eq_true_eq, bne_iff_ne, ne_eq] at h
      have hten : q / 10 * 10 = q := Nat.div_mul_cancel (Nat.dvd_of_mod_eq_zero h.1)
      obtain ⟨q', x', hq', hstrip, hvalue⟩ := ih (q := q / 10) (by omega) (x + 1)
      refine ⟨q', x', hq', hstrip, hvalue.trans ?_⟩
      rw [Nat.pow_succ', ← Nat.mul_assoc, hten]
    · exact ⟨q, x, hq, rfl, rfl⟩

theorem plain_integer {q : Nat} (hq : 0 < q) (x : Nat) : plain ⟨q, x⟩ = digitsOf (q * 10 ^ x) := by
  obtain ⟨q', x', hq', hstrip, hvalue⟩ := strip_integer (width q) hq x
  rw [plain]
  dsimp only
  rw [hstrip, if_pos (Int.natCast_nonneg x'), Int.toNat_natCast, ← hvalue, digitsOf_mul_pow hq']

/-! ### The shortest decimal of an integer -/

section
variable {N k : Nat} (hN : 0 < N) (hk : 3 ≤ k)
include hN hk

/-- The numbers that round to an integer are so close to it that no other integer is among them. -/
theorem inside_iff (m g c P : Nat) (hg : 0 < g ∧ g ≤ 2) :
    (if m % 2 = 0 then decide (N * 2 ^ (k + 2) - g ≤ c * P * 2 ^ (k + 2) ∧ c * P * 2 ^ (k + 2) ≤ N * 2 ^ (k + 2) + 2)
      else decide (N * 2 ^ (k + 2) - g < c * P * 2 ^ (k + 2) ∧ c * P * 2 ^ (k + 2) < N * 2 ^ (k + 2) + 2)) =
    decide (c * P = N) := by
  have hd : 2 ^ 5 ≤ 2 ^ (k + 2) := Nat.pow_le_pow_right (by decide) (by omega)
  generalize 2 ^ (k + 2) = d at *
  generalize c * P = x
  rcases Nat.lt_trichotomy x N with hlt | rfl | hlt
  · have hgap : x * d + d ≤ N * d := by
      rw [← Nat.succ_mul]
      exact Nat.mul_le_mul_right d hlt
    split <;> rw [decide_eq_decide] <;> constructor <;> omega
  · have hpos : 0 < x * d := Nat.mul_pos hN (by omega)
    split <;> rw [decide_eq_decide] <;> constructor <;> omega
  · have hgap : N * d + d ≤ x * d := by
      rw [← Nat.succ_mul]
      exact Nat.mul_le_mul_right d hlt
    split <;> rw [decide_eq_decide] <;> constructor <;> omega

theorem withDigits_integer {j : Nat} (hj : j ≤ width N) : withDigits (N * 2 ^ k) (-k) j =
    if 10 ^ (width N - j) ∣ N then some ⟨N / 10 ^ (width N - j), (width N - j : Nat)⟩ else none := by
  have hunit : (-(k : Int) - 2).toNat = 0 := by omega
  have hden : (2 - -(k : Int)).toNat = k + 2 := by omega
  have hpos : 0 < 2 ^ (k + 2) := Nat.pow_pos (by decide)
  have hvalue : 4 * (N * 2 ^ k) = N * 2 ^ (k + 2) := by
    rw [Nat.mul_comm 4, Nat.mul_assoc, Nat.pow_add]
  have hmagnitude : magnitude (N * 2 ^ (k + 2)) (2 ^ (k + 2)) = width N := by
    rw [magnitude, if_pos (Nat.le_mul_of_pos_left _ hN), Nat.mul_div_cancel _ hpos]
  have hu : (width N : Int) - j = ((width N - j : Nat) : Int) := by omega
  have hgap : 0 < gapBelow (N * 2 ^ k) (-k) ∧ gapBelow (N * 2 ^ k) (-k) ≤ 2 := by
    unfold gapBelow
    split <;> decide
  have hshrink : (-((width N - j : Nat) : Int)).toNat = 0 := by omega
  generalize hP : 10 ^ (width N - j) = P
  have hP0 : 0 < P := hP ▸ Nat.pow_pos (by decide)
  have hquotient : N * 2 ^ (k + 2) / (1 * P * 2 ^ (k + 2)) = N / P := by
    rw [Nat.one_mul, Nat.mul_div_mul_right _ _ hpos]
  have habove : ¬(N / P + 1) * P = N := by
    have := Nat.div_add_mod N P
    have := Nat.mod_lt N hP0
    rw [Nat.succ_mul, Nat.mul_comm]
    omega
  have hbelow : N / P * P = N ↔ P ∣ N := ⟨fun h => ⟨N / P, by rw [Nat.mul_comm, h]⟩, Nat.div_mul_cancel⟩
  unfold withDigits
  simp only [Nat.pow_eq, hunit, hden, hvalue, hmagnitude, hu, hshrink, Int.toNat_natCast, hP, Nat.mul_one,
    Nat.pow_zero, hquotient, inside_iff hN hk _ _ _ _ hgap, habove, hbelow]
  by_cases h : P ∣ N <;> simp [h]

/-- The search ends at the latest with as many digits as the integer has. -/
theorem shortest_integer (hwidth : width N ≤ 17) : ∃ u : Nat, 10 ^ u ∣ N ∧
    shortest (N * 2 ^ k) (-k) = ⟨N / 10 ^ u, u⟩ := by
  have hsplit : List.range' 1 17 = List.range' 1 (width N) ++ List.range' (1 + width N) (17 - width N) := by
    rw [List.range'_append_1]
    congr 1
    omega
  have hwhole : withDigits (N * 2 ^ k) (-k) (width N) = some ⟨N, 0⟩ := by
    rw [withDigits_integer hN hk (Nat.le_refl _), Nat.sub_self, Nat.pow_zero, if_pos (Nat.one_dvd N), Nat.div_one]
    rfl
  have hmem : width N ∈ List.range' 1 (width N) := by
    have : 0 < width N := Nat.length_toDigits_pos
    rw [List.mem_range'_1]
    omega
  cases hfound : (List.range' 1 (width N)).findSome? (withDigits (N * 2 ^ k) (-k)) with
  | none =>
    rw [List.findSome?_eq_none_iff.mp hfound _ hmem] at hwhole
    cases hwhole
  | some d =>
    obtain ⟨j, hj, hd⟩ := List.exists_of_findSome?_eq_some hfound
    rw [List.mem_range'_1] at hj
    rw [withDigits_integer hN hk (by omega)] at hd
    split at hd
    · rename_i hdvd
      cases hd
      exact ⟨_, hdvd, by rw [shortest, hsplit, List.findSome?_append, hfound]; rfl⟩
    · cases hd

/-- A small integer is written with its own digits. -/
theorem plain_shortest_integer (hwidth : width N ≤ 17) : (shortest (N * 2 ^ k) (-k)).plain = digitsOf N := by
  obtain ⟨u, hdvd, hshortest⟩ := shortest_integer hN hk hwidth
  have hpos : 0 < N / 10 ^ u := Nat.div_pos (Nat.le_of_dvd hN hdvd) (Nat.pow_pos (by decide))
  rw [hshortest, plain_integer hpos, Nat.div_mul_cancel hdvd]

end

/-! ### The parts of a number -/

/-- A mantissa is short of its leading bit only where the exponent is the smallest. -/
theorem parts_finite {x : Float} {negative : Bool} {m : Nat} {e : Int} (h : parts x = .finite negative m e) :
    leadingBit ≤ m ∨ m < leadingBit ∧ e = -1074 := by
  unfold parts Parts.ofBits at h
  dsimp only at h
  split at h
  · split at h <;> cases h
  · split at h
    · cases h
      exact Or.inr ⟨Nat.mod_lt _ (by decide), rfl⟩
    · cases h
      exact Or.inl (Nat.le_add_right _ _)

theorem width_le {N w : Nat} (hw : 0 < w) (h : N < 10 ^ w) : width N ≤ w :=
  (Nat.length_toDigits_le_iff (by decide) hw).mpr h

/-- An integer below `10 ^ 15` without a sign is a mantissa whose last bits, at least three, are zeros. -/
theorem exists_of_integerOf? {x : Float} {m : Nat} {e i : Int} (hparts : parts x = .finite false m e)
    (h : integerOf? false m e = some i) (hi : i.natAbs < 1000000000000000) :
    ∃ N : Nat, i = N ∧ (N = 0 ∧ m = 0 ∨ 0 < N ∧ ∃ k : Nat, 3 ≤ k ∧ m = N * 2 ^ k ∧ e = -k) := by
  have hm := parts_finite hparts
  unfold leadingBit at hm
  unfold integerOf? at h
  simp only [Bool.false_eq_true, if_false, Int.one_mul, Nat.pow_eq] at h
  split at h
  · -- A power of two without a fraction makes the number too large.
    cases h
    have hpow : m ≤ m * 2 ^ e.toNat := Nat.le_mul_of_pos_right m (Nat.pow_pos (by decide))
    rw [Int.natAbs_natCast] at hi
    omega
  · split at h
    · rename_i hdvd
      cases h
      have hcancel := Nat.div_mul_cancel (Nat.dvd_of_mod_eq_zero hdvd)
      refine ⟨_, rfl, ?_⟩
      rw [Int.natAbs_natCast] at hi
      generalize m / 2 ^ (-e).toNat = N at hi hcancel ⊢
      rcases Nat.eq_zero_or_pos N with rfl | hN
      · exact Or.inl ⟨rfl, by rw [← hcancel, Nat.zero_mul]⟩
      · refine Or.inr ⟨hN, (-e).toNat, ?_, hcancel.symm, by omega⟩
        rcases hm with hm | ⟨-, rfl⟩
        · rcases Nat.lt_or_ge (-e).toNat 3 with hk | hk
          · have hpow : 2 ^ (-e).toNat ≤ 2 ^ 2 := Nat.pow_le_pow_right (by decide) (by omega)
            have := Nat.mul_le_mul_left N hpow
            omega
          · exact hk
        · decide
    · cases h

/-- Without a sign, integers are written no differently from other numbers. -/
theorem text_eq_plainText {x : Float} (h : Unsigned x) : text x = plainText x := by
  unfold text
  split
  · rename_i i hi
    split
    · rename_i hsmall
      unfold integer? at hi
      split at hi
      · rename_i negative m e hparts
        cases h.parts hparts
        obtain ⟨N, rfl, ⟨rfl, rfl⟩ | ⟨hN, k, hk, rfl, rfl⟩⟩ := exists_of_integerOf? hparts hi hsmall
        · rw [plainText, hparts]
          rfl
        · have hpos : N * 2 ^ k ≠ 0 := by
            have := Nat.mul_pos hN (Nat.pow_pos (n := k) (show 0 < 2 by decide))
            omega
          have hwidth : width N ≤ 15 := width_le (by decide) hsmall
          rw [plainText, hparts]
          dsimp only
          rw [if_neg hpos, plain_shortest_integer hN hk (by omega)]
          exact Nat.repr_eq_ofList_toDigits
      · cases hi
    · rfl
  · rfl

/-! ### The characters of a number -/

/-- Neither infinite nor what is no number. -/
def Finite (x : Float) : Prop :=
  ∃ negative m e, parts x = .finite negative m e

/-- A digit, and then digits and points. -/
def Numerical (cs : List Char) : Prop :=
  ∃ c part, cs = c :: part ∧ c.isDigit = true ∧ ∀ d ∈ part, d.isDigit = true ∨ d = '.'

theorem numerical_of_digits {cs : List Char} (hne : cs ≠ []) (h : ∀ d ∈ cs, d.isDigit = true) : Numerical cs := by
  obtain ⟨c, part, rfl⟩ := List.exists_cons_of_ne_nil hne
  obtain ⟨hc, hpart⟩ := List.forall_mem_cons.mp h
  exact ⟨c, part, rfl, hc, fun d hd => Or.inl (hpart d hd)⟩

theorem Numerical.append {cs ds : List Char} (h : Numerical cs) (hds : ∀ d ∈ ds, d.isDigit = true ∨ d = '.') :
    Numerical (cs ++ ds) := by
  obtain ⟨c, part, rfl, hc, hpart⟩ := h
  exact ⟨c, part ++ ds, rfl, hc, List.forall_mem_append.mpr ⟨hpart, hds⟩⟩

theorem numerical_plain (d : Decimal) : Numerical d.plain := by
  have hdigits : ∀ n, ∀ c ∈ digitsOf n, c.isDigit = true :=
    fun n c hc => Nat.isDigit_of_mem_toDigits (by decide) (by decide) hc
  have hzeros : ∀ n, ∀ c ∈ List.replicate n '0', c.isDigit = true := by
    intro n c hc
    rw [List.eq_of_mem_replicate hc]
    rfl
  unfold plain
  dsimp only
  generalize strip (width d.digits) d = d'
  split
  · exact (numerical_of_digits Nat.toDigits_ne_nil (hdigits _)).append fun c hc => Or.inl (hzeros _ c hc)
  · generalize (-d'.exponent).toNat = places
    generalize hcs : List.replicate (places + 1 - (digitsOf d'.digits).length) '0' ++ digitsOf d'.digits = cs
    have hall : ∀ c ∈ cs, c.isDigit = true := hcs ▸ List.forall_mem_append.mpr ⟨hzeros _, hdigits _⟩
    have hlength : places < cs.length := by
      rw [← hcs, List.length_append, List.length_replicate]
      omega
    -- At least one digit stands before the point.
    have hne : cs.take (cs.length - places) ≠ [] := by
      rw [ne_eq, List.take_eq_nil_iff]
      rintro (hzero | rfl)
      · omega
      · exact Nat.not_lt_zero _ hlength
    refine (numerical_of_digits hne fun c hc => hall c (List.mem_of_mem_take hc)).append ?_
    exact List.forall_mem_cons.mpr ⟨Or.inr rfl, fun c hc => Or.inl (hall c (List.mem_of_mem_drop hc))⟩

theorem numerical_plainText {x : Float} (h : Unsigned x) (hfinite : Finite x) : Numerical (plainText x).toList := by
  obtain ⟨negative, m, e, hparts⟩ := hfinite
  cases h.parts hparts
  rw [plainText, hparts]
  dsimp only
  rw [if_neg Bool.false_ne_true, String.toList_ofList]
  split
  · exact ⟨'0', [], rfl, rfl, List.forall_mem_nil _⟩
  · exact numerical_plain _

/-- A finite number is written with a minus sign before its digits, or without one. -/
theorem numerical_text {x : Float} (hfinite : Finite x) :
    ∃ body, Numerical body ∧ ((text x).toList = body ∨ (text x).toList = '-' :: body) := by
  have hdecimal (n : Nat) : Numerical n.repr.toList := by
    rw [Nat.repr_eq_ofList_toDigits, String.toList_ofList]
    exact numerical_of_digits Nat.toDigits_ne_nil fun c hc => Nat.isDigit_of_mem_toDigits (by decide) (by decide) hc
  have hplain : ∃ body, Numerical body ∧ ((plainText x).toList = body ∨ (plainText x).toList = '-' :: body) := by
    obtain ⟨negative, m, e, hparts⟩ := hfinite
    have hbody : Numerical (if m = 0 then ['0'] else (shortest m e).plain) := by
      split
      · exact ⟨'0', [], rfl, rfl, List.forall_mem_nil _⟩
      · exact numerical_plain _
    refine ⟨_, hbody, ?_⟩
    rw [plainText, hparts]
    dsimp only
    rw [String.toList_ofList]
    cases negative with
    | false => exact .inl rfl
    | true => exact .inr rfl
  unfold text
  split
  · rename_i i hi
    split
    · cases i with
      | ofNat n => exact ⟨_, hdecimal n, .inl rfl⟩
      | negSucc n => exact ⟨_, hdecimal (n + 1), .inr (String.toList_append ..)⟩
    · exact hplain
  · exact hplain

end TemplatedSql.Number
