import RiscvSim.Division

/-!
The halves of a product. The three handlers for the upper half shift the product of 64
bits by 32, so what they write is the upper half of the lower one; the condition under
which this is the upper half of the whole product is one on its digits of 32 bits.
-/
namespace RiscvSim
open Rv64

theorem writes_returns_iff {value : Operands → U64} {x : Operands} {v : U64} :
    Returns (writes fun _ => value) x v ↔ v = value x := by
  constructor
  · intro returns
    exact (congrArg (fun e => e.m.value) (Except.ok.inj (returns 0 ⟨0,.zero,[],false⟩))).symm
  · rintro rfl i e
    rfl

/-- The upper half of the product and the one above its lowest 32 bits are the same number. -/
def MiddleIsUpper (product : Int) : Prop :=
  (BitVec.ofInt 128 product).extractLsb' 96 32 = 0 ∧
    (BitVec.ofInt 128 product).extractLsb' 64 32 = (BitVec.ofInt 128 product).extractLsb' 32 32

theorem halves_shifted_iff {product : Int} {low : U64} (lower : low = BitVec.ofInt 64 product) :
    Halves product (low >>> 32) low ↔ MiddleIsUpper product := by
  have whole : product % 2^128 = ((BitVec.ofInt 128 product).toNat : Int) := by
    rw [BitVec.toNat_ofInt,Int.toNat_of_nonneg (Int.emod_nonneg _ (by decide))]
    rfl
  have half : (low.toNat : Int) = product % 2^64 := by
    rw [lower,BitVec.toNat_ofInt,Int.toNat_of_nonneg (Int.emod_nonneg _ (by decide))]
    rfl
  have bound := (BitVec.ofInt 128 product).isLt
  rw [Halves,MiddleIsUpper,whole,← BitVec.toNat_inj,← BitVec.toNat_inj]
  simp only [BitVec.extractLsb'_toNat,BitVec.toNat_ushiftRight,Nat.shiftRight_eq_div_pow]
  generalize (BitVec.ofInt 128 product).toNat = digits at *
  have kept : low.toNat = digits % 2^64 := by omega
  have small : 2^64 * (low.toNat / 2^32) + low.toNat < 2^128 := by omega
  have top : digits / 2^96 < 2^32 := Nat.div_lt_of_lt_mul bound
  rw [Int.emod_eq_of_lt (by positivity) (by exact_mod_cast small),kept,Nat.mod_eq_of_lt top]
  show _ ↔ _ = 0 ∧ _
  norm_cast
  constructor <;> omega

section
variable (a b : U64)

theorem mul_returns_iff {l : U64} : Returns riscv_mul ⟨a,b⟩ l ↔ l = a * b := writes_returns_iff

/-- The lower half does not depend on the signs. -/
theorem product_pair_iff {h : Handler} {product : Int}
    (same : h = writes fun _ x => product_high x.rs1_value x.rs2_value) (lower : a * b = BitVec.ofInt 64 product) :
    (∃ l u, Returns riscv_mul ⟨a,b⟩ l ∧ Returns h ⟨a,b⟩ u ∧ Halves product u l) ↔ MiddleIsUpper product := by
  subst same
  simp only [mul_returns_iff,writes_returns_iff,exists_eq_left,exists_and_left]
  exact halves_shifted_iff lower

theorem ofInt_toNat (v : U64) : BitVec.ofInt 64 v.toNat = v := by
  rw [BitVec.ofInt_natCast,BitVec.ofNat_toNat,BitVec.setWidth_eq]

end

/-- The upper half is right exactly if the product, in digits of 32 bits, has a zero in the
    highest place and the same digit in the two middle ones. -/
theorem product_halves_iff (a b : U64) :
    ((∃ l h, Returns riscv_mul ⟨a,b⟩ l ∧ Returns riscv_mulh ⟨a,b⟩ h ∧ Halves (a.toInt * b.toInt) h l) ↔
      MiddleIsUpper (a.toInt * b.toInt)) ∧
    ((∃ l h, Returns riscv_mul ⟨a,b⟩ l ∧ Returns riscv_mulhsu ⟨a,b⟩ h ∧ Halves (a.toInt * b.toNat) h l) ↔
      MiddleIsUpper (a.toInt * b.toNat)) ∧
    ((∃ l h, Returns riscv_mul ⟨a,b⟩ l ∧ Returns riscv_mulhu ⟨a,b⟩ h ∧ Halves (a.toNat * b.toNat) h l) ↔
      MiddleIsUpper (a.toNat * b.toNat)) := by
  refine ⟨product_pair_iff a b rfl ?_,product_pair_iff a b rfl ?_,product_pair_iff a b rfl ?_⟩
  · rw [BitVec.ofInt_mul,BitVec.ofInt_toInt,BitVec.ofInt_toInt]
  · rw [BitVec.ofInt_mul,BitVec.ofInt_toInt,ofInt_toNat]
  · rw [BitVec.ofInt_mul,ofInt_toNat,ofInt_toNat]

/-- 2^32 by 2^32 is 2^64, and both halves are written as zero. -/
theorem upper_half_lost :
    Returns riscv_mul ⟨0x100000000,0x100000000⟩ 0 ∧ Returns riscv_mulhu ⟨0x100000000,0x100000000⟩ 0 ∧
    Returns riscv_mulh ⟨0x100000000,0x100000000⟩ 0 ∧ Returns riscv_mulhsu ⟨0x100000000,0x100000000⟩ 0 ∧
    ¬ Halves ((0x100000000 : U64).toNat * (0x100000000 : U64).toNat) 0 0 :=
  ⟨fun _ _ => rfl,fun _ _ => rfl,fun _ _ => rfl,fun _ _ => rfl,by decide⟩

end RiscvSim
