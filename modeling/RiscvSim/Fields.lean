import Mathlib.Tactic

/-!
Fields of a word, cut out by two shifts. A word split into a part above, a field and a part
below is put together again from the three.
-/
namespace RiscvSim.Fields

variable {w : Nat}

/-- The field of `n` bits from bit `b` on. -/
def field (a : BitVec w) (b n : Nat) : BitVec w := (a <<< (w - b - n)) >>> (w - n)

variable {b n : Nat}

theorem field_toNat (a : BitVec w) (inside : b + n ≤ w) : (field a b n).toNat = a.toNat / 2^b % 2^n := by
  obtain ⟨r,rfl⟩ := Nat.exists_eq_add_of_le inside
  rw [field,show b + n + r - b - n = r by omega,show b + n + r - n = b + r by omega,
    BitVec.toNat_ushiftRight,BitVec.toNat_shiftLeft,
    Nat.shiftLeft_eq,Nat.shiftRight_eq_div_pow,Nat.pow_add 2 (b+n) r,Nat.pow_add 2 b r,Nat.mul_mod_mul_right,
    Nat.mul_div_mul_right _ _ (Nat.two_pow_pos r),Nat.pow_add,Nat.mod_mul_right_div_self]
theorem field_lt (a : BitVec w) (inside : b + n ≤ w) : (field a b n).toNat < 2^n := by
  rw [field_toNat a inside]
  exact Nat.mod_lt _ (Nat.two_pow_pos n)

theorem getLsbD_field (a : BitVec w) (inside : b + n ≤ w) (i : Nat) :
    (field a b n).getLsbD i = (decide (i < n) && a.getLsbD (b + i)) := by
  rw [field,BitVec.getLsbD_ushiftRight,BitVec.getLsbD_shiftLeft]
  by_cases low : i < n
  · simp [show w - n + i < w by omega,show ¬ w - n + i < w - b - n by omega,
      show w - n + i - (w - b - n) = b + i by omega,low]
  · simp [show ¬ w - n + i < w by omega,low]

theorem join (a : BitVec w) (inside : b + n ≤ w) :
    (a >>> (b + n)) <<< (n + b) ||| field a b n <<< b ||| field a 0 b = a := by
  apply BitVec.eq_of_getLsbD_eq
  intro i small
  rw [BitVec.getLsbD_or,BitVec.getLsbD_or,BitVec.getLsbD_shiftLeft,BitVec.getLsbD_shiftLeft,BitVec.getLsbD_ushiftRight,
    getLsbD_field a inside,getLsbD_field a (by omega)]
  -- which of the three fields has the bit
  by_cases below : i < b
  · simp [small,below,show i < n + b by omega]
  · by_cases within : i < n + b
    · simp [small,below,within,show i - b < n by omega,show b + (i - b) = i by omega]
    · simp [small,below,within,show ¬ i - b < n by omega,show b + n + (i - (n + b)) = i by omega]

/-- What is above a bit is known from a field there and what is above the field. -/
theorem above_iff (a a' : BitVec w) (inside : b + n ≤ w) :
    field a b n = field a' b n ∧ a >>> (b + n) = a' >>> (b + n) ↔ a >>> b = a' >>> b := by
  simp only [← BitVec.toNat_inj,field_toNat _ inside,BitVec.toNat_ushiftRight,Nat.shiftRight_eq_div_pow,Nat.pow_add,
    ← Nat.div_div_eq_div_mul]
  constructor
  · rintro ⟨low,high⟩
    rw [← Nat.div_add_mod (a.toNat/2^b) (2^n),low,high,Nat.div_add_mod]
  · intro same
    rw [same]
    exact ⟨rfl,rfl⟩

theorem setWidth_above (a : BitVec w) {k t : Nat} (wide : w ≤ t + k) : ((a >>> k).setWidth t).setWidth w = a >>> k := by
  apply BitVec.eq_of_toNat_eq
  have bound : (a >>> k).toNat < 2^t := by
    rw [BitVec.toNat_ushiftRight,Nat.shiftRight_eq_div_pow]
    refine Nat.div_lt_of_lt_mul (a.isLt.trans_le ?_)
    rw [← Nat.pow_add]
    exact Nat.pow_le_pow_right (by decide) (by omega)
  rw [BitVec.toNat_setWidth,BitVec.toNat_setWidth,Nat.mod_eq_of_lt bound,Nat.mod_eq_of_lt (a >>> k).isLt]

end RiscvSim.Fields
