import RiscvSim.Decoding
import RiscvSim.Traps

/-!
Quotients and remainders. A refused division writes all ones as both, which is the
remainder only of all ones; the divisions of words are refused by a test of the whole
registers, and the unsigned ones are not extended with their sign.
-/
namespace RiscvSim
open Rv64 Words

/-- Whatever the destination and the M register, the handler writes the value. -/
def Returns (h : Handler) (x : Operands) (value : U64) : Prop :=
  ∀ i e, h i x e = .ok { e with m := prepare_register_write i.rd value e.m }

theorem divides_returns_iff {test traps : Operands → Bool} {value : Operands → U64} {x : Operands} {v : U64} :
    Returns (divides test traps value) x v ↔
      (test x = true → traps x = false) ∧ v = if test x then value x else -1 := by
  constructor
  · intro returns
    have done := returns 0 ⟨0,.zero,[],false⟩
    rw [divides_eq] at done
    split at done
    · cases done
    · rename_i defined
      refine ⟨fun tested => Bool.eq_false_iff.mpr fun trapped => defined ⟨tested,trapped⟩,?_⟩
      exact (congrArg (fun e => e.m.value) (Except.ok.inj done)).symm
  · rintro ⟨defined,rfl⟩ i e
    rw [divides_eq,if_neg]
    rintro ⟨tested,trapped⟩
    rw [defined tested] at trapped
    cases trapped

/-- The two handlers of a pair make the same test; its results are those of the division, or all ones. -/
theorem pair_iff {α : Type} {test traps : Operands → Bool} {quotient remainder : Operands → U64} {x : Operands}
    (widen : α → U64) (ones : α) (only : ∀ v, widen v = -1 ↔ v = ones) (P : α → α → Prop) :
    (∃ q r, Returns (divides test traps quotient) x (widen q) ∧ Returns (divides test traps remainder) x (widen r) ∧
      P q r) ↔
        if test x then traps x = false ∧ ∃ q r, widen q = quotient x ∧ widen r = remainder x ∧ P q r
          else P ones ones := by
  simp only [divides_returns_iff]
  cases tested : test x with
  | false => simp only [Bool.false_eq_true,false_implies,true_and,if_false,only,exists_and_left,exists_eq_left]
  | true =>
    simp only [if_true,true_implies]
    constructor
    · rintro ⟨q,r,⟨defined,quotient⟩,⟨_,remainder⟩,holds⟩
      exact ⟨defined,q,r,quotient,remainder,holds⟩
    · rintro ⟨defined,q,r,quotient,remainder,holds⟩
      exact ⟨q,r,⟨defined,quotient⟩,⟨defined,remainder⟩,holds⟩

section
variable (a b : U64)

theorem divides_signed_iff : divides_signed ⟨a,b⟩ = true ↔ b ≠ 0 ∧ ¬ (b = -1 ∧ a = BitVec.intMin 64) := by
  simp only [divides_signed,Bool.not_eq_true',Bool.or_eq_false_iff,Bool.and_eq_false_iff,beq_eq_false_iff_ne]
  tauto
theorem traps_signed32_iff : traps_signed32 ⟨a,b⟩ = false ↔
    (b.setWidth 32 : U32) ≠ 0 ∧ ¬ ((b.setWidth 32 : U32) = -1 ∧ (a.setWidth 32 : U32) = BitVec.intMin 32) := by
  simp only [traps_signed32,Bool.or_eq_false_iff,Bool.and_eq_false_iff,beq_eq_false_iff_ne,low32_eq]
  tauto
theorem traps_unsigned32_iff : traps_unsigned32 ⟨a,b⟩ = false ↔ (b.setWidth 32 : U32) ≠ 0 := by
  simp only [traps_unsigned32,beq_eq_false_iff_ne,low32_eq]
theorem divides_unsigned_iff : divides_unsigned ⟨a,b⟩ = true ↔ b ≠ 0 := by
  simp [divides_unsigned]

/-- All ones as quotient and remainder of a division by zero. -/
theorem signed_ones_iff {w : Nat} (positive : 0 < w) (c : BitVec w) : SignedDivision c 0 (-1) (-1) ↔ c = -1 := by
  constructor
  · intro division
    exact (division.zero rfl).2.symm
  · rintro rfl
    refine ⟨by simp,fun nonzero => absurd rfl nonzero,fun nonzero => absurd rfl nonzero,?_,?_⟩
    · exact fun _ => ⟨BitVec.neg_one_eq_allOnes,rfl⟩
    · intro _ zero
      have bit := congrArg (fun v : BitVec w => v.getLsbD 0) zero
      simp [positive] at bit
theorem unsigned_ones_iff {w : Nat} (c : BitVec w) : UnsignedDivision c 0 (-1) (-1) ↔ c = -1 := by
  constructor
  · intro division
    exact (division.zero rfl).2.symm
  · rintro rfl
    exact ⟨by simp,fun nonzero => absurd rfl nonzero,fun _ => ⟨BitVec.neg_one_eq_allOnes,rfl⟩⟩

/-! ### 64 bits -/

theorem div_rem_iff :
    (∃ q r, Returns riscv_div ⟨a,b⟩ q ∧ Returns riscv_rem ⟨a,b⟩ r ∧ SignedDivision a b q r) ↔
      b ≠ 0 ∧ ¬ (b = -1 ∧ a = BitVec.intMin 64) ∨ b = 0 ∧ a = -1 := by
  refine (pair_iff id (-1) (fun _ => .rfl) (SignedDivision a b)).trans ?_
  by_cases made : b ≠ 0 ∧ ¬ (b = -1 ∧ a = BitVec.intMin 64)
  · have fits : a ≠ BitVec.intMin 64 ∨ b ≠ -1 := by tauto
    rw [if_pos ((divides_signed_iff a b).mpr made)]
    exact iff_of_true ⟨rfl,_,_,rfl,rfl,.of_sdiv made.1 fits⟩ (.inl made)
  · rw [if_neg (fun tested => made ((divides_signed_iff a b).mp tested))]
    by_cases zero : b = 0
    · subst zero
      rw [signed_ones_iff (by decide)]
      tauto
    · -- the refused overflow has the least number as its quotient
      have extreme : b = -1 ∧ a = BitVec.intMin 64 := by tauto
      refine iff_of_false (fun division => ?_) (by tauto)
      exact absurd (division.overflow extreme.2 extreme.1).1 (by decide)

theorem divu_remu_iff :
    (∃ q r, Returns riscv_divu ⟨a,b⟩ q ∧ Returns riscv_remu ⟨a,b⟩ r ∧ UnsignedDivision a b q r) ↔ b ≠ 0 ∨ a = -1 := by
  refine (pair_iff id (-1) (fun _ => .rfl) (UnsignedDivision a b)).trans ?_
  by_cases zero : b = 0
  · subst zero
    rw [if_neg (fun tested => (divides_unsigned_iff a 0).mp tested rfl),unsigned_ones_iff]
    tauto
  · rw [if_pos ((divides_unsigned_iff a b).mpr zero)]
    exact iff_of_true ⟨rfl,_,_,rfl,rfl,.of_udiv zero⟩ (.inl zero)

/-! ### Words -/

theorem sext_ones_iff (v : U32) : sext v = -1 ↔ v = -1 := by
  constructor
  · intro ones
    have low := congrArg (fun u : U64 => u.setWidth 32) ones
    simp only [sext] at low
    rw [setWidth_signExtend v (by decide) (by decide),BitVec.setWidth_eq] at low
    exact low
  · rintro rfl
    rfl

theorem divw_remw_iff :
    (∃ q r : U32, Returns riscv_divw ⟨a,b⟩ (sext q) ∧ Returns riscv_remw ⟨a,b⟩ (sext r) ∧
      SignedDivision (a.setWidth 32) (b.setWidth 32) q r) ↔
    ((b.setWidth 32 : U32) ≠ 0 ∧ ¬ ((b.setWidth 32 : U32) = -1 ∧ (a.setWidth 32 : U32) = BitVec.intMin 32) ∧
      ¬ (b = -1 ∧ a = BitVec.intMin 64)) ∨ b = 0 ∧ (a.setWidth 32 : U32) = -1 := by
  refine (pair_iff sext (-1) sext_ones_iff (SignedDivision (a.setWidth 32 : U32) (b.setWidth 32))).trans ?_
  by_cases made : b ≠ 0 ∧ ¬ (b = -1 ∧ a = BitVec.intMin 64)
  · rw [if_pos ((divides_signed_iff a b).mpr made),traps_signed32_iff]
    by_cases fits : (b.setWidth 32 : U32) ≠ 0 ∧ ¬ ((b.setWidth 32 : U32) = -1 ∧ (a.setWidth 32 : U32) =
      BitVec.intMin 32)
    · have other : (a.setWidth 32 : U32) ≠ BitVec.intMin 32 ∨ (b.setWidth 32 : U32) ≠ -1 := by tauto
      refine iff_of_true ⟨fits,_,_,?_,?_,.of_sdiv fits.1 other⟩ (.inl ⟨fits.1,fits.2,made.2⟩)
      · rw [low32_eq,low32_eq]
        rfl
      · rw [low32_eq,low32_eq]
        rfl
    · exact iff_of_false (fun trapped => fits trapped.1) (by tauto)
  · rw [if_neg (fun tested => made ((divides_signed_iff a b).mp tested))]
    by_cases zero : b = 0
    · subst zero
      refine (signed_ones_iff (by decide) (a.setWidth 32 : U32)).trans ?_
      simp
    · -- the refused overflow of 64 bits is a division of 0 by -1
      have extreme : b = -1 ∧ a = BitVec.intMin 64 := by tauto
      refine iff_of_false (fun division => ?_) (by tauto)
      obtain ⟨rfl,rfl⟩ := extreme
      exact absurd (division.small (by decide)) (by decide)

theorem msb_word (v : U32) : v.msb = true ↔ 2147483648 ≤ v.toNat := by
  rw [BitVec.msb_eq_decide]
  simp

/-- Only a division by 1 has a quotient with bit 31 set. -/
theorem msb_udiv_iff {u v : U32} (nonzero : v ≠ 0) : (u / v).msb = true ↔ v = 1 ∧ u.msb = true := by
  have positive : 0 < v.toNat := Nat.pos_of_ne_zero fun zero => nonzero (BitVec.eq_of_toNat_eq (by simpa using zero))
  have bound := u.isLt
  rw [msb_word,msb_word,BitVec.toNat_udiv,← BitVec.toNat_inj]
  show _ ↔ v.toNat = 1 ∧ _
  by_cases one : v.toNat = 1
  · simp [one]
  · have half : u.toNat / v.toNat ≤ u.toNat / 2 := Nat.div_le_div_left (by omega) (by decide)
    refine iff_of_false ?_ (fun both => one both.1)
    omega

/-- A remainder with bit 31 set is a dividend below its divisor. -/
theorem msb_umod_iff {u v : U32} (nonzero : v ≠ 0) : (u % v).msb = true ↔ u.msb = true ∧ u < v := by
  have positive : 0 < v.toNat := Nat.pos_of_ne_zero fun zero => nonzero (BitVec.eq_of_toNat_eq (by simpa using zero))
  have bound := u.isLt
  rw [msb_word,msb_word,BitVec.toNat_umod,BitVec.lt_def]
  by_cases below : u.toNat < v.toNat
  · simp [Nat.mod_eq_of_lt below,below]
  · have less := Nat.mod_lt u.toNat positive
    have rest : u.toNat % v.toNat ≤ u.toNat - v.toNat := by
      rw [Nat.mod_eq_sub_mod (by omega)]
      exact Nat.mod_le _ _
    refine iff_of_false ?_ (fun both => below both.2)
    omega

theorem divuw_remuw_iff :
    (∃ q r : U32, Returns riscv_divuw ⟨a,b⟩ (sext q) ∧ Returns riscv_remuw ⟨a,b⟩ (sext r) ∧
      UnsignedDivision (a.setWidth 32) (b.setWidth 32) q r) ↔
    ((b.setWidth 32 : U32) ≠ 0 ∧ ¬ ((b.setWidth 32 : U32) = 1 ∧ (a.setWidth 32 : U32).msb = true) ∧
      ¬ ((a.setWidth 32 : U32).msb = true ∧ (a.setWidth 32 : U32) < b.setWidth 32)) ∨ b = 0 ∧
      (a.setWidth 32 : U32) = -1 := by
  refine (pair_iff sext (-1) sext_ones_iff (UnsignedDivision (a.setWidth 32 : U32) (b.setWidth 32))).trans ?_
  by_cases zero : b = 0
  · subst zero
    rw [if_neg (fun tested => (divides_unsigned_iff a 0).mp tested rfl)]
    refine (unsigned_ones_iff (a.setWidth 32 : U32)).trans ?_
    simp
  · rw [if_pos ((divides_unsigned_iff a b).mpr zero),traps_unsigned32_iff]
    simp only [low32_eq,zero,false_and,or_false]
    refine and_congr_right fun nonzero => ?_
    rw [← msb_udiv_iff nonzero,← msb_umod_iff nonzero,Bool.not_eq_true,Bool.not_eq_true]
    constructor
    · rintro ⟨q,r,quotient,remainder,_⟩
      exact ⟨(exists_signExtend_iff _ (by decide)).mp ⟨q,quotient.symm⟩,(exists_signExtend_iff _ (by decide)).mp
        ⟨r,remainder.symm⟩⟩
    · rintro ⟨quotient,remainder⟩
      exact ⟨_,_,BitVec.signExtend_eq_setWidth_of_msb_false quotient,
        BitVec.signExtend_eq_setWidth_of_msb_false remainder,.of_udiv nonzero⟩

end

/-- Where the quotient and the remainder that each pair of handlers writes fit together. -/
theorem quotient_remainder_iff (a b : U64) :
    ((∃ q r, Returns riscv_div ⟨a,b⟩ q ∧ Returns riscv_rem ⟨a,b⟩ r ∧ SignedDivision a b q r) ↔
      b ≠ 0 ∧ ¬ (b = -1 ∧ a = BitVec.intMin 64) ∨ b = 0 ∧ a = -1) ∧
    ((∃ q r, Returns riscv_divu ⟨a,b⟩ q ∧ Returns riscv_remu ⟨a,b⟩ r ∧ UnsignedDivision a b q r) ↔ b ≠ 0 ∨ a = -1) ∧
    ((∃ q r : U32, Returns riscv_divw ⟨a,b⟩ (sext q) ∧ Returns riscv_remw ⟨a,b⟩ (sext r) ∧
        SignedDivision (a.setWidth 32) (b.setWidth 32) q r) ↔
      ((b.setWidth 32 : U32) ≠ 0 ∧ ¬ ((b.setWidth 32 : U32) = -1 ∧ (a.setWidth 32 : U32) = BitVec.intMin 32) ∧
        ¬ (b = -1 ∧ a = BitVec.intMin 64)) ∨ b = 0 ∧ (a.setWidth 32 : U32) = -1) ∧
    ((∃ q r : U32, Returns riscv_divuw ⟨a,b⟩ (sext q) ∧ Returns riscv_remuw ⟨a,b⟩ (sext r) ∧
        UnsignedDivision (a.setWidth 32) (b.setWidth 32) q r) ↔
      ((b.setWidth 32 : U32) ≠ 0 ∧ ¬ ((b.setWidth 32 : U32) = 1 ∧ (a.setWidth 32 : U32).msb = true) ∧
        ¬ ((a.setWidth 32 : U32).msb = true ∧ (a.setWidth 32 : U32) < b.setWidth 32)) ∨ b = 0 ∧
        (a.setWidth 32 : U32) = -1) :=
  ⟨div_rem_iff a b,divu_remu_iff a b,divw_remw_iff a b,divuw_remuw_iff a b⟩

/-- `remu` of 5 by 0 gives all ones, and no remainder is right but 5. -/
theorem remu_by_zero : Returns riscv_remu ⟨5,0⟩ (-1) ∧ ∀ q r : U64, UnsignedDivision 5 0 q r → r = 5 :=
  ⟨fun _ _ => rfl,fun _ _ division => (division.zero rfl).2⟩

end RiscvSim
