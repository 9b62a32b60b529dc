import TemplatedSql.Proofs.Number.Sign

/-! # Numbers that are equal

A comparison of two numbers takes each for what its parts say. Numbers that are none equal nothing, zeros equal each
other whatever their signs, and other numbers equal those with the same parts only. The text of a number has no sign
where the number is zero, so equal numbers have the same text. -/

namespace TemplatedSql.Number

open Float.Model (UnpackedFloat)
open Float.Model.UnpackedFloat (Sign)

/-! ### What a comparison sees -/

/-- The sign, which may be set or not. -/
def signOf (negative : Bool) : Sign :=
  if negative then .negative else .positive

/-- What the parts are taken for in a comparison. -/
def Parts.unpacked : Parts → UnpackedFloat
  | nan => .notANumber
  | infinite negative => .infinity (signOf negative)
  | finite negative m e => if h : 0 < m then .finite (signOf negative) m e h else .zero (signOf negative)

theorem ofBitVec_eq_signOf (s : BitVec 1) : Sign.ofBitVec s = signOf (s.toNat == 1) := by
  rcases BitVec.eq_zero_or_eq_one s with rfl | rfl <;> rfl

/-- Taking the bits apart with natural numbers finds the parts that a comparison finds. -/
theorem unpack_eq (b : BitVec 64) : UnpackedFloat.unpack .binary64 b = (Parts.ofBits b.toNat).unpacked := by
  have hmantissa : (@UnpackedFloat.unpackMantissa .binary64 b).toNat = b.toNat % leadingBit := by
    simp [UnpackedFloat.unpackMantissa, leadingBit]
  have hexponent : (@UnpackedFloat.unpackExponent .binary64 b).toNat = b.toNat / leadingBit % 2048 := by
    simp [UnpackedFloat.unpackExponent, leadingBit, Nat.shiftRight_eq_div_pow]
  have hsign : (@UnpackedFloat.unpackSign .binary64 b).toNat = b.toNat / signBit % 2 := by
    simp [UnpackedFloat.unpackSign, signBit, Nat.shiftRight_eq_div_pow]
  have hbias : (Float.Model.Format.exponentBias .binary64 : Int) + (52 : Nat) = 1075 := rfl
  have hleading : (1#1 ++ @UnpackedFloat.unpackMantissa .binary64 b).toNat = leadingBit + b.toNat % leadingBit := by
    rw [BitVec.toNat_append, ← Nat.shiftLeft_add_eq_or_of_lt (BitVec.isLt _), hmantissa]
    rfl
  have hzero : @UnpackedFloat.unpackMantissa .binary64 b = 0#52 ↔ b.toNat % leadingBit = 0 := by
    rw [← hmantissa]
    exact BitVec.toNat_inj.symm
  unfold UnpackedFloat.unpack Parts.ofBits
  dsimp only
  rw [ofBitVec_eq_signOf, hsign]
  simp only [hmantissa, hexponent, hleading, hbias, hzero]
  by_cases hlast : b.toNat / leadingBit % 2048 = 2047
  · have hones : @UnpackedFloat.unpackExponent .binary64 b = -1#11 := BitVec.eq_of_toNat_eq (hexponent.trans hlast)
    rw [if_pos hones, if_pos hlast]
    split <;> rfl
  · have hones : @UnpackedFloat.unpackExponent .binary64 b ≠ -1#11 := fun h => hlast (hexponent.symm.trans (congrArg _ h))
    rw [if_neg hones, if_neg hlast]
    by_cases hfirst : b.toNat / leadingBit % 2048 = 0
    · have hzeros : @UnpackedFloat.unpackExponent .binary64 b = 0#11 := BitVec.eq_of_toNat_eq (hexponent.trans hfirst)
      rw [if_pos hzeros, if_pos hfirst, hfirst, Parts.unpacked]
      by_cases hm : b.toNat % leadingBit = 0
      · rw [dif_pos hm, dif_neg (by omega)]
      · rw [dif_neg hm, dif_pos (by omega)]
        rfl
    · have hzeros : @UnpackedFloat.unpackExponent .binary64 b ≠ 0#11 := fun h =>
        hfirst (hexponent.symm.trans (congrArg _ h))
      rw [if_neg hzeros, if_neg hfirst, Parts.unpacked, dif_pos (Nat.add_pos_left (by decide) _)]

/-- The parts without the sign of a zero. -/
def Parts.plain : Parts → Parts
  | finite _ 0 _ => finite false 0 0
  | p => p

theorem compare_signOf {a b : Bool} : compare (signOf a) (signOf b) = .eq ↔ a = b := by
  cases a <;> cases b <;> simp [signOf, compare]

theorem beq_unpacked {p q : Parts} : p.unpacked.beq q.unpacked = true ↔ p ≠ .nan ∧ p.plain = q.plain := by
  rw [UnpackedFloat.beq, beq_iff_eq]
  cases p with
  | nan => simp [Parts.unpacked, UnpackedFloat.compare]
  | infinite a =>
    cases q with
    | nan => simp [Parts.unpacked, UnpackedFloat.compare, Parts.plain]
    | infinite b => simp [Parts.unpacked, UnpackedFloat.compare, Parts.plain, compare_signOf]
    | finite b n f => cases n <;> cases a <;> simp [Parts.unpacked, UnpackedFloat.compare, Parts.plain, signOf]
  | finite a m e =>
    cases q with
    | nan => cases m <;> simp [Parts.unpacked, UnpackedFloat.compare, Parts.plain]
    | infinite b => cases m <;> cases b <;> simp [Parts.unpacked, UnpackedFloat.compare, Parts.plain, signOf]
    | finite b n f =>
      cases m <;> cases n <;> cases a <;> cases b <;>
        simp [Parts.unpacked, UnpackedFloat.compare, Parts.plain, signOf, and_comm]

/-- Equal numbers are numbers, and have the same parts but for the sign of zero. -/
theorem beq_iff {x y : Float} : (x == y) = true ↔ parts x ≠ .nan ∧ (parts x).plain = (parts y).plain := by
  show x.toModel.unpack.beq y.toModel.unpack = true ↔ _
  rw [Float.Model.unpack, Float.Model.unpack, unpack_eq, unpack_eq]
  exact beq_unpacked

/-! ### The laws of equality -/

variable {x y z : Float}

theorem plain_eq_nan {p : Parts} : p.plain = .nan ↔ p = .nan := by
  unfold Parts.plain
  split <;> simp

theorem beq_self (x : Float) : (x == x) = true ↔ isNaN x = false := by
  rw [beq_iff, isNaN]
  simp

theorem beq_symm (h : (x == y) = true) : (y == x) = true := by
  obtain ⟨hx, hparts⟩ := beq_iff.mp h
  exact beq_iff.mpr ⟨fun hy => hx (plain_eq_nan.mp (hparts.trans (plain_eq_nan.mpr hy))), hparts.symm⟩

theorem beq_trans (hxy : (x == y) = true) (hyz : (y == z) = true) : (x == z) = true := by
  obtain ⟨hx, hparts⟩ := beq_iff.mp hxy
  obtain ⟨-, hparts'⟩ := beq_iff.mp hyz
  exact beq_iff.mpr ⟨hx, hparts.trans hparts'⟩

theorem plain_eq_iff {p q : Parts} : p.plain = q.plain ↔
    p = q ∨ (∃ negative e, p = .finite negative 0 e) ∧ ∃ negative e, q = .finite negative 0 e := by
  constructor
  · intro h
    unfold Parts.plain at h
    split at h <;> split at h
    · exact .inr ⟨⟨_, _, rfl⟩, ⟨_, _, rfl⟩⟩
    · subst h
      exact .inr ⟨⟨_, _, rfl⟩, ⟨_, _, rfl⟩⟩
    · subst h
      exact .inr ⟨⟨_, _, rfl⟩, ⟨_, _, rfl⟩⟩
    · exact .inl h
  · rintro (rfl | ⟨⟨_, _, rfl⟩, ⟨_, _, rfl⟩⟩)
    · rfl
    · rfl

theorem text_of_zero {negative : Bool} {e : Int} (h : parts x = .finite negative 0 e) : text x = "0" := by
  have hinteger : integer? x = some 0 := by
    rw [integer?, h]
    simp [integerOf?]
  rw [text, hinteger]
  rfl

theorem text_congr (h : (x == y) = true) : text x = text y := by
  rcases plain_eq_iff.mp (beq_iff.mp h).2 with hparts | ⟨⟨_, _, hx⟩, ⟨_, _, hy⟩⟩
  · unfold text integer? plainText
    rw [hparts]
  · rw [text_of_zero hx, text_of_zero hy]

end TemplatedSql.Number
