import Mathlib
import TemplatedSql.Number.Decimal

/-! # Numbers without a sign

What is read from digits has no sign: the sign bit of a product, a quotient or a rounded number comes from the sign
bits of its operands, and there the digits put none. -/

namespace TemplatedSql.Number

open Float.Model (UnpackedFloat Format)
open Float.Model.UnpackedFloat (Sign)

/-- The sign bit is not set. -/
def Unsigned (x : Float) : Prop :=
  x.toBits.toNat < signBit

theorem Unsigned.parts {x : Float} (h : Unsigned x) {negative : Bool} {m : Nat} {e : Int}
    (hparts : parts x = .finite negative m e) : negative = false := by
  unfold Number.parts Parts.ofBits at hparts
  rw [Nat.div_eq_of_lt h] at hparts
  dsimp only at hparts
  split at hparts
  · split at hparts <;> cases hparts
  · split at hparts <;> cases hparts <;> rfl

/-! ### Unpacked numbers -/

/-- A number that is not negative, as far as it has a sign. -/
def Positive : UnpackedFloat → Prop
  | .infinity sign | .zero sign | .finite sign .. => sign = .positive
  | .notANumber => True

theorem positive_roundWithAccuracy {f : Format} (m : Nat) (e : Int) (accuracy : UnpackedFloat.Accuracy) :
    Positive (UnpackedFloat.roundWithAccuracy f .positive m e accuracy) := by
  unfold UnpackedFloat.roundWithAccuracy
  dsimp only
  split <;> rfl

theorem Positive.mul {f : Format} {x y : UnpackedFloat} (hx : Positive x) (hy : Positive y) :
    Positive (UnpackedFloat.mul f x y) := by
  cases x <;> cases y <;> cases hx <;> cases hy <;>
    first | exact positive_roundWithAccuracy _ _ _ | exact trivial | rfl

theorem Positive.div {f : Format} {x y : UnpackedFloat} (hx : Positive x) (hy : Positive y) :
    Positive (UnpackedFloat.div f x y) := by
  cases x <;> cases y <;> cases hx <;> cases hy <;>
    first | exact positive_roundWithAccuracy _ _ _ | exact trivial | rfl

theorem positive_ofNat {f : Format} (n : Nat) : Positive (UnpackedFloat.ofNat f n) := by
  have hn : compare (n : Int) 0 ≠ .lt := by
    rw [ne_eq, Int.compare_eq_lt]
    omega
  unfold UnpackedFloat.ofNat UnpackedFloat.ofInt UnpackedFloat.normalize
  split
  · contradiction
  · rfl
  · exact positive_roundWithAccuracy _ _ _

theorem positive_ofScientific {f : Format} (m : Nat) (e : Int) : Positive (UnpackedFloat.ofScientific f m e) := by
  unfold UnpackedFloat.ofScientific
  split
  · rfl
  · split
    · rfl
    · split
      · rfl
      · split
        · exact Positive.mul rfl rfl
        · exact Positive.div rfl rfl

/-! ### Packed numbers -/

theorem packComponents_lt (e : BitVec 11) (m : BitVec 52) :
    (UnpackedFloat.packComponents .binary64 .positive e m).toNat < signBit := by
  have he := e.isLt
  have hm := m.isLt
  have hvalue : (UnpackedFloat.packComponents .binary64 .positive e m).toNat = e.toNat * 2 ^ 52 + m.toNat := by
    unfold UnpackedFloat.packComponents Sign.toBitVec
    rw [BitVec.toNat_append, ← Nat.shiftLeft_add_eq_or_of_lt hm, Nat.shiftLeft_eq, BitVec.toNat_append]
    simp
  rw [hvalue, signBit]
  omega

theorem unsigned_pack {x : UnpackedFloat} (h : Positive x) : Unsigned (.ofModel (.pack x)) := by
  change (UnpackedFloat.pack .binary64 x).toNat < signBit
  cases x with
  | notANumber => exact packComponents_lt _ _
  | infinity sign | zero sign =>
    cases h
    exact packComponents_lt _ _
  | finite sign m e hm =>
    cases h
    unfold UnpackedFloat.pack
    dsimp only
    split
    · exact packComponents_lt _ _
    · split <;> exact packComponents_lt _ _

theorem positive_unpack {b : BitVec 64} (h : b.toNat < signBit) : Positive (UnpackedFloat.unpack .binary64 b) := by
  have hsign : @UnpackedFloat.unpackSign .binary64 b = 0#1 := by
    apply BitVec.eq_of_toNat_eq
    have hshift : b.toNat >>> 63 = 0 := by
      rw [Nat.shiftRight_eq_div_pow]
      exact Nat.div_eq_of_lt h
    simp [UnpackedFloat.unpackSign, hshift]
  unfold UnpackedFloat.unpack
  dsimp only
  rw [hsign]
  split
  · split
    · rfl
    · trivial
  · split
    · split <;> rfl
    · rfl

theorem unsigned_ofBits {b : UInt64} (h : b.toNat < signBit) : Unsigned (.ofBits b) :=
  unsigned_pack (positive_unpack h)

/-! ### Numbers that are read -/

theorem unsigned_powerOfTen : ∀ x ∈ Float.exactlyRepresentablePowersOfTen, Unsigned x := by
  intro x hx
  obtain ⟨b, rfl, hb⟩ : ∃ b, .ofBits b = x ∧ b.toNat < signBit := by
    simp only [Float.exactlyRepresentablePowersOfTen, List.mem_toArray, List.mem_cons, List.not_mem_nil, or_false] at hx
    rcases hx with h | h | h | h | h | h | h | h | h | h | h | h | h | h | h | h | h | h | h | h | h | h | h <;>
      exact ⟨_, h.symm, by decide⟩
  exact unsigned_ofBits hb

theorem unsigned_ofScientific (m : Nat) (negative : Bool) (e : Nat) : Unsigned (.ofScientific m negative e) := by
  have hdigits : Unsigned m.toUInt64.toFloat := unsigned_pack (positive_ofNat _)
  unfold Float.ofScientific
  split
  · have hsize : e < Float.exactlyRepresentablePowersOfTen.size := by
      simp [Float.exactlyRepresentablePowersOfTen]
      omega
    have hpower := unsigned_powerOfTen _ (Array.getElem_mem hsize)
    dsimp only
    split
    · exact unsigned_pack (.div (positive_unpack hdigits) (positive_unpack hpower))
    · exact unsigned_pack (.mul (positive_unpack hdigits) (positive_unpack hpower))
  · exact unsigned_pack (positive_ofScientific _ _)

theorem unsigned_toFloat (d : Decimal) : Unsigned d.toFloat := by
  unfold Decimal.toFloat
  split
  · exact unsigned_ofScientific _ _ _
  · dsimp only
    split
    · exact unsigned_ofBits (by decide)
    · split
      · exact unsigned_ofScientific _ _ _
      · exact unsigned_ofScientific _ _ _

theorem unsigned_readUnsigned {cs : List Char} {n : Float} (h : readUnsigned cs = some n) : Unsigned n := by
  unfold readUnsigned at h
  dsimp only at h
  split at h
  · cases h
    exact unsigned_ofBits (by decide)
  · split at h
    · cases h
      exact unsigned_ofBits (by decide)
    · obtain ⟨d, -, rfl⟩ := Option.map_eq_some_iff.mp h
      exact unsigned_toFloat d

/-- A text that starts with a digit spells a number without a sign. -/
theorem unsigned_of_ofString? {c : Char} {cs : List Char} {n : Float} (hc : c.isDigit = true)
    (h : ofString? (.ofList (c :: cs)) = some n) : Unsigned n := by
  rw [ofString?, String.toList_ofList] at h
  unfold read at h
  split at h
  · rename_i heq
    cases heq
    cases hc
  · exact unsigned_readUnsigned h
  · exact unsigned_readUnsigned h

end TemplatedSql.Number
