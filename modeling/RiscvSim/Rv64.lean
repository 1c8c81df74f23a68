import Mathlib.Tactic

/-!
The user-level instruction set RV64IM: the fields and immediates of an instruction word,
the words that encode an offset, the integer operations at both widths with their
encodings, the conditions of branches, and what a quotient and a remainder are.
-/
namespace RiscvSim.Rv64

/-! ### Fields and immediates -/

abbrev Word := BitVec 32

section
variable (i : Word)

def opcode : BitVec 7 := i.extractLsb' 0 7
def rd : BitVec 5 := i.extractLsb' 7 5
def funct3 : BitVec 3 := i.extractLsb' 12 3
def funct7 : BitVec 7 := i.extractLsb' 25 7

def immI : BitVec 12 := i.extractLsb' 20 12
def immS : BitVec 12 := i.extractLsb' 25 7 ++ i.extractLsb' 7 5
def immB : BitVec 13 := i.extractLsb' 31 1 ++ i.extractLsb' 7 1 ++ i.extractLsb' 25 6 ++ i.extractLsb' 8 4 ++ 0#1
def immU : BitVec 32 := i.extractLsb' 12 20 ++ 0#12
def immJ : BitVec 21 := i.extractLsb' 31 1 ++ i.extractLsb' 12 8 ++ i.extractLsb' 20 1 ++ i.extractLsb' 21 10 ++ 0#1

end

theorem funct3_cases (f : BitVec 3) :
    f = 0b000 ∨ f = 0b001 ∨ f = 0b010 ∨ f = 0b011 ∨ f = 0b100 ∨ f = 0b101 ∨ f = 0b110 ∨ f = 0b111 := by
  revert f
  decide

/-- The offset extended to a register. -/
def sext {n : Nat} (imm : BitVec n) : BitVec 64 := imm.signExtend 64

/-! ### Encodings of offsets -/

def encodeI (op : BitVec 7) (f3 : BitVec 3) (rd rs1 : BitVec 5) (offset : Int) : Word :=
  BitVec.ofInt 12 offset ++ rs1 ++ f3 ++ rd ++ op
def encodeS (op : BitVec 7) (f3 : BitVec 3) (rs1 rs2 : BitVec 5) (offset : Int) : Word :=
  (BitVec.ofInt 12 offset).extractLsb' 5 7 ++ rs2 ++ rs1 ++ f3 ++ (BitVec.ofInt 12 offset).extractLsb' 0 5 ++ op
def encodeJ (op : BitVec 7) (rd : BitVec 5) (offset : Int) : Word :=
  (BitVec.ofInt 21 offset).extractLsb' 20 1 ++ (BitVec.ofInt 21 offset).extractLsb' 1 10 ++
    (BitVec.ofInt 21 offset).extractLsb' 11 1 ++ (BitVec.ofInt 21 offset).extractLsb' 12 8 ++ rd ++ op

theorem sext_ofInt {n : Nat} {offset : Int} (low : -2^n ≤ offset) (high : offset < 2^n) :
    sext (BitVec.ofInt (n+1) offset) = BitVec.ofInt 64 offset := by
  have half : ((2^(n+1) : Nat) : Int) = 2*2^n := by
    rw [pow_succ']
    push_cast
    rfl
  have kept : (BitVec.ofInt (n+1) offset).toInt = offset := by
    rw [BitVec.toInt_ofInt]
    apply Int.bmod_eq_of_le <;> omega
  rw [sext,BitVec.signExtend,kept]

section
variable (op : BitVec 7) (f3 : BitVec 3) (r s : BitVec 5) (offset : Int)

theorem opcode_encodeI : opcode (encodeI op f3 r s offset) = op := BitVec.extractLsb'_append_eq_right
theorem funct3_encodeI : funct3 (encodeI op f3 r s offset) = f3 := by
  rw [funct3,encodeI,BitVec.extractLsb'_append_eq_of_le (by decide),BitVec.extractLsb'_append_eq_of_le (by decide)]
  exact BitVec.extractLsb'_append_eq_right
theorem immI_encodeI : immI (encodeI op f3 r s offset) = BitVec.ofInt 12 offset := by
  rw [immI,encodeI]
  simp (disch := decide) only [BitVec.extractLsb'_append_eq_of_le,Nat.reduceSub]
  exact BitVec.extractLsb'_eq_self

theorem opcode_encodeS : opcode (encodeS op f3 r s offset) = op := BitVec.extractLsb'_append_eq_right
theorem funct3_encodeS : funct3 (encodeS op f3 r s offset) = f3 := by
  rw [funct3,encodeS,BitVec.extractLsb'_append_eq_of_le (by decide),BitVec.extractLsb'_append_eq_of_le (by decide)]
  exact BitVec.extractLsb'_append_eq_right
theorem immS_encodeS : immS (encodeS op f3 r s offset) = BitVec.ofInt 12 offset := by
  rw [immS,encodeS]
  simp (disch := decide) only [BitVec.extractLsb'_append_eq_of_le,BitVec.extractLsb'_append_eq_of_add_le,Nat.reduceSub,
    BitVec.extractLsb'_eq_self]
  exact (BitVec.extractLsb'_append_extractLsb'_eq_extractLsb' rfl).trans BitVec.extractLsb'_eq_self

theorem opcode_encodeJ : opcode (encodeJ op r offset) = op := BitVec.extractLsb'_append_eq_right
theorem rd_encodeJ : rd (encodeJ op r offset) = r := by
  rw [rd,encodeJ,BitVec.extractLsb'_append_eq_of_le (by decide)]
  exact BitVec.extractLsb'_append_eq_right
theorem extractLsb'_even {offset : Int} (even : offset % 2 = 0) : (BitVec.ofInt 21 offset).extractLsb' 0 1 = 0#1 := by
  apply BitVec.eq_of_toNat_eq
  rw [BitVec.extractLsb'_toNat,BitVec.toNat_ofInt,Nat.shiftRight_zero]
  show (offset % 2097152).toNat % 2 = 0
  omega
/-- The last bit of an even offset is not encoded. -/
theorem immJ_encodeJ (even : offset % 2 = 0) : immJ (encodeJ op r offset) = BitVec.ofInt 21 offset := by
  rw [immJ,encodeJ]
  simp (disch := decide) only [BitVec.extractLsb'_append_eq_of_le,BitVec.extractLsb'_append_eq_of_add_le,Nat.reduceSub,
    BitVec.extractLsb'_eq_self]
  rw [← extractLsb'_even even]
  simp (disch := rfl) only [BitVec.extractLsb'_append_extractLsb'_eq_extractLsb']
  exact BitVec.extractLsb'_eq_self

end

/-! ### Integer operations -/

/-- The operations that an arithmetic instruction chooses from. -/
inductive Alu where
  | add | sub | mul | sll | slt | sltu | xor | srl | sra | or | and
  deriving DecidableEq, Repr

/-- The result at a width; a shift takes its amount modulo the width. -/
def Alu.result {w : Nat} (a b : BitVec w) : Alu → BitVec w
  | .add => a + b
  | .sub => a - b
  | .mul => a * b
  | .sll => a <<< (b.toNat % w)
  | .slt => if a.slt b then 1 else 0
  | .sltu => if a.ult b then 1 else 0
  | .xor => a ^^^ b
  | .srl => a >>> (b.toNat % w)
  | .sra => a.sshiftRight (b.toNat % w)
  | .or => a ||| b
  | .and => a &&& b

def Alu.funct3 : Alu → BitVec 3
  | .add | .sub | .mul => 0b000
  | .sll => 0b001
  | .slt => 0b010
  | .sltu => 0b011
  | .xor => 0b100
  | .srl | .sra => 0b101
  | .or => 0b110
  | .and => 0b111
def Alu.funct7 : Alu → BitVec 7
  | .sub | .sra => 0b0100000
  | .mul => 0b0000001
  | _ => 0b0000000
def Alu.IsShift (op : Alu) : Prop := op = .sll ∨ op = .srl ∨ op = .sra
instance (op : Alu) : Decidable op.IsShift := inferInstanceAs (Decidable (_ ∨ _))

/-- The RV64I instructions with the opcodes OP-IMM, OP, AUIPC and JALR. -/
inductive Integer where
  | imm (op : Alu) | reg (op : Alu) | auipc | jalr
  deriving DecidableEq, Repr

/-- The word is a legal encoding. The amount of an immediate shift has six bits, and the six above choose the shift. -/
def Integer.Encodes (i : Word) : Integer → Prop
  | .imm op => opcode i = 0b0010011 ∧ Rv64.funct3 i = op.funct3 ∧ op ≠ .sub ∧ op ≠ .mul ∧
    (op.IsShift → i.extractLsb' 26 6 = op.funct7.extractLsb' 1 6)
  | .reg op => opcode i = 0b0110011 ∧ Rv64.funct3 i = op.funct3 ∧ Rv64.funct7 i = op.funct7 ∧ op ≠ .mul
  | .auipc => opcode i = 0b0010111
  | .jalr => opcode i = 0b1100111 ∧ Rv64.funct3 i = 0

instance (i : Word) : (op : Integer) → Decidable (op.Encodes i)
  | .imm _ => inferInstanceAs (Decidable (_ ∧ _ ∧ _ ∧ _ ∧ (_ → _)))
  | .reg _ => inferInstanceAs (Decidable (_ ∧ _ ∧ _ ∧ _))
  | .auipc => inferInstanceAs (Decidable (_ = _))
  | .jalr => inferInstanceAs (Decidable (_ ∧ _))

/-- What is written to rd. -/
def Integer.result (i : Word) (pc rs1 rs2 : BitVec 64) : Integer → BitVec 64
  | .imm op => op.result rs1 (sext (immI i))
  | .reg op => op.result rs1 rs2
  | .auipc => pc + sext (immU i)
  | .jalr => pc + 4
/-- The next instruction. -/
def Integer.next (i : Word) (pc rs1 : BitVec 64) : Integer → BitVec 64
  | .jalr => (rs1 + sext (immI i)) &&& ~~~1
  | _ => pc + 4

/-- The operations on words, but for division. -/
inductive WordOp where
  | imm (op : Alu) | reg (op : Alu)
  deriving DecidableEq, Repr

def WordOp.Encodes (i : Word) : WordOp → Prop
  | .imm op => opcode i = 0b0011011 ∧ Rv64.funct3 i = op.funct3 ∧ (op = .add ∨ op.IsShift ∧ Rv64.funct7 i = op.funct7)
  | .reg op => opcode i = 0b0111011 ∧ Rv64.funct3 i = op.funct3 ∧ Rv64.funct7 i = op.funct7 ∧
    (op = .add ∨ op = .sub ∨ op = .mul ∨ op.IsShift)

instance (i : Word) : (op : WordOp) → Decidable (op.Encodes i)
  | .imm _ => inferInstanceAs (Decidable (_ ∧ _ ∧ (_ ∨ _ ∧ _)))
  | .reg _ => inferInstanceAs (Decidable (_ ∧ _ ∧ _ ∧ (_ ∨ _ ∨ _ ∨ _)))

/-- The operation on the low halves, extended. -/
def WordOp.result (i : Word) (rs1 rs2 : BitVec 64) : WordOp → BitVec 64
  | .imm op => sext (op.result (rs1.setWidth 32) ((sext (immI i)).setWidth 32))
  | .reg op => sext (op.result (rs1.setWidth 32) (rs2.setWidth 32 : BitVec 32))

/-! ### Encodings -/

/-- What chooses an instruction beside the opcode and funct3: nothing, the six upper bits or all of funct7. -/
inductive Upper where
  | any
  | six (bits : BitVec 6)
  | seven (bits : BitVec 7)
  deriving DecidableEq, Repr

/-- A row of the listing of the instruction set. -/
structure Row where
  opcode : BitVec 7
  funct3 : Option (BitVec 3)
  upper : Upper
  deriving DecidableEq, Repr

/-- The row has these fields. -/
def Row.takes (row : Row) (op : BitVec 7) (f3 : BitVec 3) (f7 : BitVec 7) : Bool :=
  op == row.opcode && row.funct3.all (f3 == ·) &&
    match row.upper with
    | .any => true
    | .six bits => f7.extractLsb' 1 6 == bits
    | .seven bits => f7 == bits

/-- The instructions of RV64IM, but for FENCE, ECALL and EBREAK. -/
def listing : List Row :=
  -- LUI, AUIPC, JAL and JALR
  [⟨0b0110111,none,.any⟩,⟨0b0010111,none,.any⟩,⟨0b1101111,none,.any⟩,⟨0b1100111,some 0b000,.any⟩,
    -- BEQ, BNE, BLT, BGE, BLTU and BGEU
    ⟨0b1100011,some 0b000,.any⟩,⟨0b1100011,some 0b001,.any⟩,⟨0b1100011,some 0b100,.any⟩,⟨0b1100011,some 0b101,.any⟩,
    ⟨0b1100011,some 0b110,.any⟩,⟨0b1100011,some 0b111,.any⟩,
    -- LB, LH, LW, LD, LBU, LHU and LWU
    ⟨0b0000011,some 0b000,.any⟩,⟨0b0000011,some 0b001,.any⟩,⟨0b0000011,some 0b010,.any⟩,⟨0b0000011,some 0b011,.any⟩,
    ⟨0b0000011,some 0b100,.any⟩,⟨0b0000011,some 0b101,.any⟩,⟨0b0000011,some 0b110,.any⟩,
    -- SB, SH, SW and SD
    ⟨0b0100011,some 0b000,.any⟩,⟨0b0100011,some 0b001,.any⟩,⟨0b0100011,some 0b010,.any⟩,⟨0b0100011,some 0b011,.any⟩,
    -- ADDI, SLTI, SLTIU, XORI, ORI, ANDI, SLLI, SRLI and SRAI
    ⟨0b0010011,some 0b000,.any⟩,⟨0b0010011,some 0b010,.any⟩,⟨0b0010011,some 0b011,.any⟩,⟨0b0010011,some 0b100,.any⟩,
    ⟨0b0010011,some 0b110,.any⟩,⟨0b0010011,some 0b111,.any⟩,⟨0b0010011,some 0b001,.six 0b000000⟩,
    ⟨0b0010011,some 0b101,.six 0b000000⟩,⟨0b0010011,some 0b101,.six 0b010000⟩,
    -- ADD, SUB, SLL, SLT, SLTU, XOR, SRL, SRA, OR and AND
    ⟨0b0110011,some 0b000,.seven 0b0000000⟩,⟨0b0110011,some 0b000,.seven 0b0100000⟩,
    ⟨0b0110011,some 0b001,.seven 0b0000000⟩,⟨0b0110011,some 0b010,.seven 0b0000000⟩,
    ⟨0b0110011,some 0b011,.seven 0b0000000⟩,⟨0b0110011,some 0b100,.seven 0b0000000⟩,
    ⟨0b0110011,some 0b101,.seven 0b0000000⟩,⟨0b0110011,some 0b101,.seven 0b0100000⟩,
    ⟨0b0110011,some 0b110,.seven 0b0000000⟩,⟨0b0110011,some 0b111,.seven 0b0000000⟩,
    -- ADDIW, SLLIW, SRLIW and SRAIW
    ⟨0b0011011,some 0b000,.any⟩,⟨0b0011011,some 0b001,.seven 0b0000000⟩,⟨0b0011011,some 0b101,.seven 0b0000000⟩,
    ⟨0b0011011,some 0b101,.seven 0b0100000⟩,
    -- ADDW, SUBW, SLLW, SRLW and SRAW
    ⟨0b0111011,some 0b000,.seven 0b0000000⟩,⟨0b0111011,some 0b000,.seven 0b0100000⟩,
    ⟨0b0111011,some 0b001,.seven 0b0000000⟩,⟨0b0111011,some 0b101,.seven 0b0000000⟩,
    ⟨0b0111011,some 0b101,.seven 0b0100000⟩,
    -- MUL, MULH, MULHSU, MULHU, DIV, DIVU, REM and REMU
    ⟨0b0110011,some 0b000,.seven 0b0000001⟩,⟨0b0110011,some 0b001,.seven 0b0000001⟩,
    ⟨0b0110011,some 0b010,.seven 0b0000001⟩,⟨0b0110011,some 0b011,.seven 0b0000001⟩,
    ⟨0b0110011,some 0b100,.seven 0b0000001⟩,⟨0b0110011,some 0b101,.seven 0b0000001⟩,
    ⟨0b0110011,some 0b110,.seven 0b0000001⟩,⟨0b0110011,some 0b111,.seven 0b0000001⟩,
    -- MULW, DIVW, DIVUW, REMW and REMUW
    ⟨0b0111011,some 0b000,.seven 0b0000001⟩,⟨0b0111011,some 0b100,.seven 0b0000001⟩,
    ⟨0b0111011,some 0b101,.seven 0b0000001⟩,⟨0b0111011,some 0b110,.seven 0b0000001⟩,
    ⟨0b0111011,some 0b111,.seven 0b0000001⟩]

/-- A row of the listing has these fields. -/
def listed (op : BitVec 7) (f3 : BitVec 3) (f7 : BitVec 7) : Bool := listing.any (·.takes op f3 f7)

/-! ### Branches -/

/-- The comparison that funct3 selects; there is none for 010 and 011. -/
def condition (f3 : BitVec 3) : Option (BitVec 64 → BitVec 64 → Bool) :=
  match f3 with
  | 0b000 => some fun a b => a == b
  | 0b001 => some fun a b => a != b
  | 0b100 => some fun a b => a.slt b
  | 0b101 => some fun a b => b.sle a
  | 0b110 => some fun a b => a.ult b
  | 0b111 => some fun a b => b.ule a
  | _ => none

/-! ### Multiplication -/

/-- The upper and the lower half of a product of 128 bits. -/
def Halves (product : Int) (upper lower : BitVec 64) : Prop :=
  (2^64 * upper.toNat + lower.toNat : Int) % 2^128 = product % 2^128
instance (product : Int) (upper lower : BitVec 64) : Decidable (Halves product upper lower) :=
  inferInstanceAs (Decidable (_ = _))

/-! ### Division -/

section
variable {w : Nat}

/-- The quotient and remainder of a signed division. -/
structure SignedDivision (a b q r : BitVec w) : Prop where
  sum : q * b + r = a
  small : b ≠ 0 → |r.toInt| < |b.toInt|
  sign : b ≠ 0 → r.toInt = 0 ∨ (r.toInt < 0 ↔ a.toInt < 0)
  zero : b = 0 → q = BitVec.allOnes w ∧ r = a
  overflow : a = BitVec.intMin w → b = BitVec.allOnes w → q = BitVec.intMin w ∧ r = 0

/-- The quotient and remainder of an unsigned division. -/
structure UnsignedDivision (a b q r : BitVec w) : Prop where
  sum : q * b + r = a
  small : b ≠ 0 → r.toNat < b.toNat
  zero : b = 0 → q = BitVec.allOnes w ∧ r = a

/-- The truncated division. -/
theorem SignedDivision.of_sdiv {a b : BitVec w} (nonzero : b ≠ 0) (fits : a ≠ BitVec.intMin w ∨ b ≠ -1#w) :
    SignedDivision a b (a.sdiv b) (a.srem b) where
  sum := by
    have quotient : a.sdiv b = BitVec.ofInt w (a.toInt.tdiv b.toInt) := by
      rw [← BitVec.toInt_sdiv_of_ne_or_ne a b fits,BitVec.ofInt_toInt]
    have remainder : a.srem b = BitVec.ofInt w (a.toInt.tmod b.toInt) := by
      rw [← BitVec.toInt_srem,BitVec.ofInt_toInt]
    calc a.sdiv b * b + a.srem b
        = BitVec.ofInt w (a.toInt.tdiv b.toInt * b.toInt + a.toInt.tmod b.toInt) := by
          rw [quotient,remainder,BitVec.ofInt_add,BitVec.ofInt_mul,BitVec.ofInt_toInt]
      _ = a := by rw [Int.tdiv_mul_add_tmod,BitVec.ofInt_toInt]
  small _ := by
    have divisor : b.toInt ≠ 0 := fun zero => nonzero (BitVec.eq_of_toInt_eq (by rw [zero]; simp))
    rw [BitVec.toInt_srem,Int.abs_eq_natAbs,Int.abs_eq_natAbs,Int.natAbs_tmod]
    exact_mod_cast Nat.mod_lt _ (Int.natAbs_pos.mpr divisor)
  sign _ := by
    rw [BitVec.toInt_srem]
    rcases lt_or_ge a.toInt 0 with negative | positive
    · have other := Int.tmod_nonneg b.toInt (show 0 ≤ -a.toInt by omega)
      rw [Int.neg_tmod] at other
      omega
    · have same := Int.tmod_nonneg b.toInt positive
      omega
  zero zero := absurd zero nonzero
  overflow least minus := by
    rw [← BitVec.neg_one_eq_allOnes] at minus
    rcases fits with other | other
    · exact absurd least other
    · exact absurd minus other

theorem UnsignedDivision.of_udiv {a b : BitVec w} (nonzero : b ≠ 0) : UnsignedDivision a b (a / b) (a % b) where
  sum := by
    apply BitVec.eq_of_toNat_eq
    rw [BitVec.toNat_add,BitVec.toNat_mul,BitVec.toNat_udiv,BitVec.toNat_umod,Nat.mod_add_mod,Nat.div_add_mod',
      Nat.mod_eq_of_lt a.isLt]
  small _ := by
    have divisor : b.toNat ≠ 0 := fun zero => nonzero (BitVec.eq_of_toNat_eq (by simpa using zero))
    rw [BitVec.toNat_umod]
    exact Nat.mod_lt _ (Nat.pos_of_ne_zero divisor)
  zero zero := absurd zero nonzero

end

end RiscvSim.Rv64
