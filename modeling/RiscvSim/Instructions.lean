import RiscvSim.Memory

/-!
The instruction handlers (`riscv_virtualizer.c`). A handler reads the operands of the X
register and changes `*pc`, which holds the address of the next instruction, and the M
register. Shifts whose amount is not below the width are undefined in C; they are computed
here as the machine instruction does, with the amount masked, and recorded. Divisions that
C leaves undefined trap.
-/
namespace RiscvSim

/-- The values of `readWrite`. -/
inductive ReadWrite where
  | nop | memory_write | memory_read | register_write
  deriving DecidableEq, Repr

/-- `struct stage_reg_m`. -/
structure StageRegM where
  address : U64
  size : U8
  readWrite : ReadWrite
  signExtend : Bool
  reg : U64
  value : U64
  tainted_executions : U8
  wasStalled : U8
  stallStatus : U8
  pc : U64
  deriving DecidableEq, Repr

def StageRegM.zero : StageRegM := ⟨0,0,.nop,false,0,0,0,0,0,0⟩

/-- The fields of `struct riscv_instruction`, by format. -/
abbrev Instruction := U32

namespace Instruction

def opcode (i : Instruction) : BitVec 7 := i.extractLsb' 0 7
def rd (i : Instruction) : BitVec 5 := i.extractLsb' 7 5
def funct3 (i : Instruction) : BitVec 3 := i.extractLsb' 12 3
def rs1 (i : Instruction) : BitVec 5 := i.extractLsb' 15 5
def rs2 (i : Instruction) : BitVec 5 := i.extractLsb' 20 5
def funct7 (i : Instruction) : BitVec 7 := i.extractLsb' 25 7
def i_imm (i : Instruction) : BitVec 12 := i.extractLsb' 20 12
def s_imm2 (i : Instruction) : BitVec 5 := i.extractLsb' 7 5
def s_imm (i : Instruction) : BitVec 7 := i.extractLsb' 25 7
def u_imm (i : Instruction) : BitVec 20 := i.extractLsb' 12 20

end Instruction

/-- What a handler changes: `*pc`, the M register, what was printed as illegal (address
    and word) and whether a shift was undefined. -/
structure Execution where
  pc : U64
  m : StageRegM
  illegal : List (U64 × U32)
  undefined_shift : Bool
  deriving DecidableEq, Repr

/-- The operands in the X register. -/
structure Operands where
  rs1_value : U64
  rs2_value : U64

/-- `void (*) (uint64_t* pc, struct riscv_instruction instruction, struct stage_reg_m* new_m_reg)`. -/
abbrev Handler := Instruction → Operands → Execution → Except Abort Execution

def riscv_illegal_instruction : Handler := fun instruction _ e =>
  .ok { e with illegal := e.illegal ++ [(e.pc - 4,instruction)] }

def riscv_nop : Handler := fun _ _ e => .ok e

def prepare_register_write (reg : BitVec 5) (value : U64) (m : StageRegM) : StageRegM :=
  { m with readWrite := .register_write, reg := reg.setWidth 64, value := value }

/-- A handler that only prepares a register write of a value of the operands. -/
def writes (value : Instruction → Operands → U64) : Handler := fun instruction x e =>
  .ok { e with m := prepare_register_write instruction.rd (value instruction x) e.m }

/-! ### Upper immediates and jumps -/

def riscv_auipc : Handler := fun instruction _ e =>
  let temp := e.pc + (((instruction.u_imm.setWidth 32 : U32) <<< 12).signExtend 64)
  .ok { e with m := prepare_register_write instruction.rd temp e.m }

def riscv_lui : Handler := writes fun instruction _ => ((instruction.u_imm.setWidth 32 : U32) <<< 12).signExtend 64

/-- The immediate in the order of the offset, without its last bit. -/
def jump_bits (immediate : U64) : U64 :=
  let mask : U64 := 0xFFFFF
  ((immediate >>> 19) &&& 1) <<< 19 ||| (mask &&& (immediate <<< 12)) >>> 1 |||
    ((immediate >>> 8) &&& 1) <<< 10 ||| (mask &&& (immediate <<< 1)) >>> 10

def riscv_jal : Handler := fun instruction _ e =>
  let m := prepare_register_write instruction.rd e.pc e.m
  let immediate := jump_bits (instruction.u_imm.setWidth 64)
  let immediate := if immediate &&& (1 <<< 19) ≠ 0 then immediate ||| (0b1111 <<< 20) |||
    0xFFFFFFFFFF000000 else immediate
  .ok { e with m := m, pc := e.pc - 4 + immediate <<< 1 }

/-- The 12-bit immediate extended by hand, as loads, stores and `riscv_jalr` do it. -/
def extended12 (imm : BitVec 12) : U64 :=
  let immediate : U64 := imm.setWidth 64
  if immediate &&& (1 <<< 11) ≠ 0 then immediate ||| (0b1111 <<< 12) ||| 0xFFFFFFFFFFFF0000 else immediate

/-- An illegal `funct3` is reported, and the jump made all the same. -/
def riscv_jalr : Handler := fun instruction x e => do
  let e ← if instruction.funct3 ≠ 0 then riscv_illegal_instruction instruction x e else .ok e
  return { e with
    m := prepare_register_write instruction.rd e.pc e.m
    pc := extended12 instruction.i_imm + x.rs1_value }

/-! ### Loads and stores -/

/-- A load handler of the given size and extension. -/
def load (size : U8) (signExtend : Bool) : Handler := fun instruction x e =>
  .ok { e with m := { e.m with
    readWrite := .memory_read
    address := x.rs1_value + extended12 instruction.i_imm
    size := size
    reg := instruction.rd.setWidth 64
    signExtend := signExtend } }

def riscv_lb : Handler := load 1 true
def riscv_lh : Handler := load 2 true
def riscv_lw : Handler := load 4 true
def riscv_ld : Handler := load 8 false
def riscv_lbu : Handler := load 1 false
def riscv_lhu : Handler := load 2 false
def riscv_lwu : Handler := load 4 false

def riscv_load_dispatch : Handler := fun instruction =>
  match instruction.funct3 with
  | 0b000 => riscv_lb instruction
  | 0b001 => riscv_lh instruction
  | 0b010 => riscv_lw instruction
  | 0b011 => riscv_ld instruction
  | 0b100 => riscv_lbu instruction
  | 0b101 => riscv_lhu instruction
  | 0b110 => riscv_lwu instruction
  | _ => riscv_illegal_instruction instruction

/-- A store handler of the given size, with the value truncated to it. -/
def store (size : U8) (truncate : U64 → U64) : Handler := fun instruction x e =>
  let immediate : BitVec 12 := instruction.s_imm2.setWidth 12 ||| (instruction.s_imm.setWidth 12 <<< 5)
  .ok { e with m := { e.m with
    address := x.rs1_value + extended12 immediate
    signExtend := false
    value := truncate x.rs2_value
    size := size
    readWrite := .memory_write } }

def riscv_sb : Handler := store 1 fun v => (v.setWidth 8).setWidth 64
def riscv_sh : Handler := store 2 fun v => (v.setWidth 16).setWidth 64
def riscv_sw : Handler := store 4 fun v => (v.setWidth 32).setWidth 64
def riscv_sd : Handler := store 8 fun v => v

def riscv_store_dispatch : Handler := fun instruction =>
  match instruction.funct3 with
  | 0b000 => riscv_sb instruction
  | 0b001 => riscv_sh instruction
  | 0b010 => riscv_sw instruction
  | 0b011 => riscv_sd instruction
  | _ => riscv_illegal_instruction instruction

/-! ### Branches -/

/-- The offset that a branch handler computes, before its extension. -/
def sized_range (instruction : Instruction) : U16 :=
  let imm : U32 := instruction.s_imm.setWidth 32
  let imm2 : U32 := instruction.s_imm2.setWidth 32
  let raw_range : U32 := imm >>> 6 <<< 11 ||| (imm2 &&& 0x01) ||| (imm &&& 0b0111111) <<< 5 ||| imm2 >>> 1 <<< 1
  (raw_range &&& 0b111111111110).setWidth 16
/-- It is extended by hand. The sign test has the mask `11 << 1`. -/
def extended_range (instruction : Instruction) : U16 :=
  sized_range instruction ||| (if sized_range instruction &&& (11 <<< 1) ≠ 0 then 0b1111 <<< 12 else 0)

/-- A branch handler with the given comparison. -/
def branch (taken : U64 → U64 → Bool) : Handler := fun instruction x e =>
  if taken x.rs1_value x.rs2_value then
    .ok { e with pc := e.pc - 4 + (extended_range instruction).signExtend 64 }
  else .ok e

def riscv_beq : Handler := branch fun a b => a == b
def riscv_bne : Handler := branch fun a b => a != b
def riscv_blt : Handler := branch fun a b => a.slt b
def riscv_bge : Handler := branch fun a b => b.sle a
def riscv_bltu : Handler := branch fun a b => a.ult b
def riscv_bgeu : Handler := branch fun a b => b.ule a

def riscv_branch_dispatch : Handler := fun instruction =>
  match instruction.funct3 with
  | 0b000 => riscv_beq instruction
  | 0b001 => riscv_bne instruction
  | 0b100 => riscv_blt instruction
  | 0b101 => riscv_bge instruction
  | 0b110 => riscv_bltu instruction
  | 0b111 => riscv_bgeu instruction
  | _ => riscv_illegal_instruction instruction

/-! ### Shifts -/

/-- A handler that writes a shifted value; the amount is undefined from `width` on. -/
def shifts (width : Nat) (amount : Instruction → Operands → U64) (value : Instruction → Operands → U64) : Handler :=
  fun instruction x e =>
    .ok { e with
      m := prepare_register_write instruction.rd (value instruction x) e.m
      undefined_shift := e.undefined_shift || decide (width ≤ (amount instruction x).toNat) }

/-- `(uint32_t) a << b`, the amount masked to five bits. -/
def shl32 (a b : U64) : U64 := ((a.setWidth 32 : U32) <<< (b.setWidth 5 : BitVec 5)).setWidth 64
/-- `a << b`, the amount masked to six bits. -/
def shl64 (a b : U64) : U64 := a <<< (b.setWidth 6 : BitVec 6)
def shr32 (a b : U64) : U64 := ((a.setWidth 32 : U32) >>> (b.setWidth 5 : BitVec 5)).setWidth 64
def shr64 (a b : U64) : U64 := a >>> (b.setWidth 6 : BitVec 6)
/-- `(uint32_t) ((int32_t) a >> b)`. -/
def sar32 (a b : U64) : U64 := ((a.setWidth 32 : U32).sshiftRight (b.setWidth 5 : BitVec 5).toNat).setWidth 64
def sar64 (a b : U64) : U64 := a.sshiftRight (b.setWidth 6 : BitVec 6).toNat

/-- The immediate as the shift handlers use it, all twelve bits of it. -/
def shamt (instruction : Instruction) (_ : Operands) : U64 := instruction.i_imm.setWidth 64
def rs2_amount (_ : Instruction) (x : Operands) : U64 := x.rs2_value
/-- The amount as `(uint32_t)` or `(int32_t)` leaves it; a negative one is undefined too. -/
def rs2_amount32 (_ : Instruction) (x : Operands) : U64 := (x.rs2_value.setWidth 32).setWidth 64

/-! ### Register-immediate operations -/

/-- The 12-bit immediate extended through a cast to `int16_t`. -/
def cast12 (imm : BitVec 12) : U64 :=
  let temp : U64 := imm.setWidth 64
  if temp &&& (1 <<< 11) ≠ 0 then ((temp ||| (0b1111 <<< 12)).setWidth 16 : U16).signExtend 64 else temp

/-- The sum of the low halves, extended. -/
def sum32 (a b : U64) : U64 := ((a.setWidth 32 : U32) + b.setWidth 32).signExtend 64

def riscv_addiw : Handler := writes fun i x => sum32 x.rs1_value (cast12 i.i_imm)
def riscv_addi : Handler := writes fun i x => x.rs1_value + cast12 i.i_imm
def riscv_slliw : Handler := shifts 32 shamt fun i x => shl32 x.rs1_value (shamt i x)
def riscv_slli : Handler := shifts 64 shamt fun i x => shl64 x.rs1_value (shamt i x)
def riscv_slti : Handler := writes fun i x => if x.rs1_value.slt (cast12 i.i_imm) then 1 else 0
/-- The immediate is not extended. -/
def riscv_sltiu : Handler := writes fun i x => if x.rs1_value.ult (i.i_imm.setWidth 64) then 1 else 0
def riscv_xori : Handler := writes fun i x => x.rs1_value ^^^ cast12 i.i_imm
def riscv_srliw : Handler := shifts 32 shamt fun i x => shr32 x.rs1_value (shamt i x)
def riscv_srli : Handler := shifts 64 shamt fun i x => shr64 x.rs1_value (shamt i x)
def riscv_sraiw : Handler := shifts 32 shamt fun i x => sar32 x.rs1_value (shamt i x)
def riscv_srai : Handler := shifts 64 shamt fun i x => sar64 x.rs1_value (shamt i x)
def riscv_ori : Handler := writes fun i x => x.rs1_value ||| cast12 i.i_imm
def riscv_andi : Handler := writes fun i x => x.rs1_value &&& cast12 i.i_imm

def riscv_arithmetic1_64_dispatch : Handler := fun instruction =>
  match instruction.funct3 with
  | 0b000 => riscv_addiw instruction
  | 0b001 => if instruction.funct7 ≠ 0 then riscv_illegal_instruction instruction else riscv_slliw instruction
  | 0b101 =>
    match instruction.funct7 with
    | 0b0000000 => riscv_srliw instruction
    | 0b0100000 => riscv_sraiw instruction
    | _ => riscv_illegal_instruction instruction
  | _ => riscv_illegal_instruction instruction

def riscv_arithmetic1_dispatch : Handler := fun instruction =>
  match instruction.funct3 with
  | 0b000 => riscv_addi instruction
  | 0b001 => if instruction.funct7 ≠ 0 then riscv_illegal_instruction instruction else riscv_slli instruction
  | 0b010 => riscv_slti instruction
  | 0b011 => riscv_sltiu instruction
  | 0b100 => riscv_xori instruction
  | 0b101 =>
    match instruction.funct7 with
    | 0b0000000 => riscv_srli instruction
    | 0b0100000 => riscv_srai instruction
    | _ => riscv_illegal_instruction instruction
  | 0b110 => riscv_ori instruction
  | 0b111 => riscv_andi instruction

/-! ### Register-register operations -/

def riscv_addw : Handler := writes fun _ x => sum32 x.rs1_value x.rs2_value
/-- The body is that of `riscv_addw`. -/
def riscv_add : Handler := writes fun _ x => sum32 x.rs1_value x.rs2_value
def riscv_subw : Handler := writes fun _ x => ((x.rs1_value.setWidth 32 : U32) - x.rs2_value.setWidth 32).signExtend 64
def riscv_sub : Handler := writes fun _ x => x.rs1_value - x.rs2_value
def riscv_mulw : Handler := writes fun _ x =>
  let reg1 := x.rs1_value &&& 0xFFFFFFFF
  let reg2 := x.rs2_value &&& 0xFFFFFFFF
  (((reg1 * reg2) &&& 0xFFFFFFFF).setWidth 32 : U32).signExtend 64
def riscv_mul : Handler := writes fun _ x => x.rs1_value * x.rs2_value
def riscv_sllw : Handler := shifts 32 rs2_amount32 fun _ x => shl32 x.rs1_value x.rs2_value
def riscv_sll : Handler := shifts 64 rs2_amount fun _ x => shl64 x.rs1_value x.rs2_value
/-- The product of 64 bits, shifted right by 32: the three handlers differ in casts only. -/
def product_high (a b : U64) : U64 := (a * b) >>> 32
def riscv_mulh : Handler := writes fun _ x => product_high x.rs1_value x.rs2_value
def riscv_slt : Handler := writes fun _ x => if x.rs1_value.slt x.rs2_value then 1 else 0
def riscv_mulhsu : Handler := writes fun _ x => product_high x.rs1_value x.rs2_value
def riscv_sltu : Handler := writes fun _ x => if x.rs1_value.ult x.rs2_value then 1 else 0
def riscv_mulhu : Handler := writes fun _ x => product_high x.rs1_value x.rs2_value
/-- Only the low halves are combined. -/
def riscv_xor : Handler := writes fun _ x => ((x.rs1_value.setWidth 32 : U32) ^^^ x.rs2_value.setWidth 32).setWidth 64
/-- The shift is of all 64 bits, and that of `riscv_srl` of the low half. -/
def riscv_srlw : Handler := shifts 64 rs2_amount fun _ x => shr64 x.rs1_value x.rs2_value
def riscv_srl : Handler := shifts 32 rs2_amount32 fun _ x => shr32 x.rs1_value x.rs2_value
def riscv_sraw : Handler := shifts 32 rs2_amount32 fun _ x => sar32 x.rs1_value x.rs2_value
def riscv_sra : Handler := shifts 64 rs2_amount fun _ x => sar64 x.rs1_value x.rs2_value
def riscv_or : Handler := writes fun _ x => x.rs1_value ||| x.rs2_value
def riscv_and : Handler := writes fun _ x => x.rs1_value &&& x.rs2_value

/-! ### Division -/

/-- The test that the signed handlers make before they divide, on all 64 bits: zero, or
    the minimum by -1. -/
def divides_signed (x : Operands) : Bool :=
  !(x.rs2_value == 0 || (x.rs2_value == (-1 : U64) && x.rs1_value == BitVec.intMin 64))
def divides_unsigned (x : Operands) : Bool := !(x.rs2_value == 0)

/-- The low half of an operand. -/
def low32 (v : U64) : U32 := (v &&& 0xFFFFFFFF).setWidth 32

/-- A division handler: -1 where the test refuses the operands, else the quotient or
    remainder, or the trap of the division that is made. -/
def divides (test traps : Operands → Bool) (value : Operands → U64) : Handler := fun instruction x e =>
  if test x then
    if traps x then .error .division_trap
    else .ok { e with m := prepare_register_write instruction.rd (value x) e.m }
  else .ok { e with m := prepare_register_write instruction.rd (-1) e.m }

/-- The 32-bit division is made on the low halves, which the test does not look at. -/
def traps_signed32 (x : Operands) : Bool :=
  low32 x.rs2_value == 0 || (low32 x.rs2_value == (-1 : U32) && low32 x.rs1_value == BitVec.intMin 32)
def traps_unsigned32 (x : Operands) : Bool := low32 x.rs2_value == 0
def traps_never (_ : Operands) : Bool := false

def riscv_divw : Handler :=
  divides divides_signed traps_signed32 fun x => ((low32 x.rs1_value).sdiv (low32 x.rs2_value)).signExtend 64
def riscv_div : Handler := divides divides_signed traps_never fun x => x.rs1_value.sdiv x.rs2_value
def riscv_divuw : Handler :=
  divides divides_unsigned traps_unsigned32 fun x => (low32 x.rs1_value / low32 x.rs2_value).setWidth 64
def riscv_divu : Handler := divides divides_unsigned traps_never fun x => x.rs1_value / x.rs2_value
def riscv_remw : Handler :=
  divides divides_signed traps_signed32 fun x => ((low32 x.rs1_value).srem (low32 x.rs2_value)).signExtend 64
def riscv_rem : Handler := divides divides_signed traps_never fun x => x.rs1_value.srem x.rs2_value
def riscv_remuw : Handler :=
  divides divides_unsigned traps_unsigned32 fun x => (low32 x.rs1_value % low32 x.rs2_value).setWidth 64
def riscv_remu : Handler := divides divides_unsigned traps_never fun x => x.rs1_value % x.rs2_value

/-! ### Dispatch -/

def riscv_arithmetic2_dispatch : Handler := fun instruction =>
  match instruction.funct3 with
  | 0b000 =>
    match instruction.funct7 with
    | 0b0000000 => riscv_add instruction
    | 0b0100000 => riscv_sub instruction
    | 0b0000001 => riscv_mul instruction
    | _ => riscv_illegal_instruction instruction
  | 0b001 =>
    match instruction.funct7 with
    | 0b0000000 => riscv_sll instruction
    | 0b0000001 => riscv_mulh instruction
    | _ => riscv_illegal_instruction instruction
  | 0b010 =>
    match instruction.funct7 with
    | 0b0000000 => riscv_slt instruction
    | 0b0000001 => riscv_mulhsu instruction
    | _ => riscv_illegal_instruction instruction
  | 0b011 =>
    match instruction.funct7 with
    | 0b0000000 => riscv_sltu instruction
    | 0b0000001 => riscv_mulhu instruction
    | _ => riscv_illegal_instruction instruction
  | 0b100 =>
    match instruction.funct7 with
    | 0b0000000 => riscv_xor instruction
    | 0b0000001 => riscv_div instruction
    | _ => riscv_illegal_instruction instruction
  | 0b101 =>
    match instruction.funct7 with
    | 0b0000000 => riscv_srl instruction
    | 0b0100000 => riscv_sra instruction
    | 0b0000001 => riscv_divu instruction
    | _ => riscv_illegal_instruction instruction
  | 0b110 =>
    match instruction.funct7 with
    | 0b0000000 => riscv_or instruction
    | 0b0000001 => riscv_rem instruction
    | _ => riscv_illegal_instruction instruction
  | 0b111 =>
    match instruction.funct7 with
    | 0b0000000 => riscv_and instruction
    | 0b0000001 => riscv_remu instruction
    | _ => riscv_illegal_instruction instruction

def riscv_arithmetic2_64_dispatch : Handler := fun instruction =>
  match instruction.funct3 with
  | 0b000 =>
    match instruction.funct7 with
    | 0b0000000 => riscv_addw instruction
    | 0b0100000 => riscv_subw instruction
    | 0b0000001 => riscv_mulw instruction
    | _ => riscv_illegal_instruction instruction
  | 0b001 =>
    match instruction.funct7 with
    | 0b0000000 => riscv_sllw instruction
    | _ => riscv_illegal_instruction instruction
  | 0b100 =>
    match instruction.funct7 with
    | 0b0000001 => riscv_divw instruction
    | _ => riscv_illegal_instruction instruction
  | 0b101 =>
    match instruction.funct7 with
    | 0b0000000 => riscv_srlw instruction
    | 0b0100000 => riscv_sraw instruction
    | 0b0000001 => riscv_divuw instruction
    | _ => riscv_illegal_instruction instruction
  | 0b110 =>
    match instruction.funct7 with
    | 0b0000001 => riscv_remw instruction
    | _ => riscv_illegal_instruction instruction
  | 0b111 =>
    match instruction.funct7 with
    | 0b0000001 => riscv_remuw instruction
    | _ => riscv_illegal_instruction instruction
  | _ => riscv_illegal_instruction instruction

/-- The table that `initialise` fills. -/
def major_dispatch_table (opcode : BitVec 7) : Handler :=
  match opcode with
  | 0b0010111 => riscv_auipc
  | 0b0110111 => riscv_lui
  | 0b1101111 => riscv_jal
  | 0b1100111 => riscv_jalr
  | 0b0000011 => riscv_load_dispatch
  | 0b1100011 => riscv_branch_dispatch
  | 0b0100011 => riscv_store_dispatch
  | 0b0010011 => riscv_arithmetic1_dispatch
  | 0b0011011 => riscv_arithmetic1_64_dispatch
  | 0b0110011 => riscv_arithmetic2_dispatch
  | 0b0111011 => riscv_arithmetic2_64_dispatch
  | 0b0001111 => riscv_nop
  | 0b1110011 => riscv_nop
  | _ => riscv_illegal_instruction

/-- The word dispatched on its opcode, with `*pc` the next address. -/
def dispatch (instruction : Instruction) (x : Operands) (pc : U64) (m : StageRegM) : Except Abort Execution :=
  major_dispatch_table instruction.opcode instruction x ⟨pc,m,[],false⟩

end RiscvSim
