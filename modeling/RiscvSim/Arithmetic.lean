import RiscvSim.Decoding
import RiscvSim.Traps

/-!
What the arithmetic handlers write, against the operations of the instruction set. Most
are right. Some work at the wrong width or extend the result the wrong way, and for each
of them there is the condition on the operands under which this does not show.
-/
namespace RiscvSim
open Words Rv64

/-! ### Shifts -/

theorem shl64_eq (a b : U64) : shl64 a b = a <<< (b.toNat % 64) := by
  rw [shl64,BitVec.shiftLeft_eq',BitVec.toNat_setWidth]
theorem shr64_eq (a b : U64) : shr64 a b = a >>> (b.toNat % 64) := by
  rw [shr64,BitVec.ushiftRight_eq',BitVec.toNat_setWidth]
theorem sar64_eq (a b : U64) : sar64 a b = a.sshiftRight (b.toNat % 64) := by
  rw [sar64,BitVec.toNat_setWidth]
theorem shl32_eq (a b : U64) : shl32 a b = ((a.setWidth 32 : U32) <<< (b.toNat % 32)).setWidth 64 := by
  rw [shl32,BitVec.shiftLeft_eq',BitVec.toNat_setWidth]
theorem shr32_eq (a b : U64) : shr32 a b = ((a.setWidth 32 : U32) >>> (b.toNat % 32)).setWidth 64 := by
  rw [shr32,BitVec.ushiftRight_eq',BitVec.toNat_setWidth]
theorem sar32_eq (a b : U64) : sar32 a b = ((a.setWidth 32 : U32).sshiftRight (b.toNat % 32)).setWidth 64 := by
  rw [sar32,BitVec.toNat_setWidth]

/-- The low bits of the immediate are the amount, extended or not. -/
theorem shamt_mod (i : Instruction) (x : Operands) : (shamt i x).toNat % 64 = (sext (immI i)).toNat % 64 := by
  have low := congrArg BitVec.toNat (setWidth_signExtend (w := 64) (k := 6) (immI i) (by decide) (by decide))
  rw [BitVec.toNat_setWidth,BitVec.toNat_setWidth] at low
  rw [shamt,BitVec.toNat_setWidth_of_le (by decide)]
  exact low.symm

/-! ### The values written -/

section
variable {i : Instruction} (x : Operands) (pc : U64) (m : StageRegM)

/-- With an immediate the results are right, but for `riscv_sltiu`, which does not extend it. -/
def immediateValue (i : Instruction) (x : Operands) : Alu → U64
  | .sltu => if x.rs1_value.ult ((immI i).setWidth 64) then 1 else 0
  | op => op.result x.rs1_value (sext (immI i))

/-- `riscv_add`, `riscv_xor` and `riscv_srl` look at the low halves only. -/
def registerValue (x : Operands) : Alu → U64
  | .add => ((x.rs1_value + x.rs2_value).setWidth 32).signExtend 64
  | .xor => ((x.rs1_value ^^^ x.rs2_value).setWidth 32).setWidth 64
  | .srl => ((x.rs1_value.setWidth 32 : U32) >>> (x.rs2_value.toNat % 32)).setWidth 64
  | op => op.result x.rs1_value x.rs2_value

/-- The handler writes the value, and goes on. -/
def Gives (h : Handler) (i : Instruction) (x : Operands) (pc : U64) (m : StageRegM) (value : U64) : Prop :=
  ∃ undefined, h i x ⟨pc,m,[],false⟩ = .ok ⟨pc,prepare_register_write (Rv64.rd i) value m,[],undefined⟩

theorem writes_gives {value : Instruction → Operands → U64} {v : U64} (same : value i x = v) :
    Gives (writes value) i x pc m v :=
  ⟨false,by rw [← same]; rfl⟩
theorem shifts_gives {width : Nat} {amount value : Instruction → Operands → U64} {v : U64} (same : value i x = v) :
    Gives (shifts width amount value) i x pc m v :=
  ⟨_,by rw [← same]; rfl⟩

/-- The bit between funct6 and the amount. -/
theorem funct7_of_six {f : BitVec 7} (six : i.extractLsb' 26 6 = f.extractLsb' 1 6)
    (five : i.getLsbD 25 = f.getLsbD 0) :
    i.funct7 = f := by
  apply BitVec.eq_of_getLsbD_eq
  intro k inside
  rw [Instruction.funct7,BitVec.getLsbD_extractLsb']
  rcases k with _ | k
  · simpa using five
  · have bit := congrArg (fun v : BitVec 6 => v.getLsbD k) six
    have small : k < 6 := by omega
    simp only [BitVec.getLsbD_extractLsb',small,decide_true,Bool.true_and] at bit
    rw [show 25 + (k+1) = 26 + k by omega,bit,Nat.add_comm 1 k]
    simp [inside]

theorem immediate_gives {op : Alu} (encoded : (Integer.imm op).Encodes i) (five : op.IsShift → i.getLsbD 25 = false) :
    Gives (major_dispatch_table i.opcode) i x pc m (immediateValue i x op) := by
  obtain ⟨code,three,_,_,six⟩ := encoded
  have seven (shift : op.IsShift) (clear : op.funct7.getLsbD 0 = false) : i.funct7 = op.funct7 :=
    funct7_of_six (six shift) ((five shift).trans clear.symm)
  rw [show i.opcode = _ from code]
  show Gives riscv_arithmetic1_dispatch i x pc m _
  unfold Gives
  rw [riscv_arithmetic1_dispatch,show i.funct3 = _ from three]
  cases op
  case add => exact writes_gives x pc m (congrArg (x.rs1_value + ·) (cast12_eq _))
  case slt => exact writes_gives x pc m (by rw [cast12_eq]; rfl)
  case sltu => exact writes_gives x pc m rfl
  case xor => exact writes_gives x pc m (by rw [cast12_eq]; rfl)
  case or => exact writes_gives x pc m (by rw [cast12_eq]; rfl)
  case and => exact writes_gives x pc m (by rw [cast12_eq]; rfl)
  case sll =>
    have zero : ¬ i.funct7 ≠ 0 := fun set => set (seven (.inl rfl) rfl)
    show ∃ undefined, (if i.funct7 ≠ 0 then riscv_illegal_instruction i else riscv_slli i) x ⟨pc,m,[],false⟩ = _
    rw [if_neg zero]
    exact shifts_gives x pc m (by rw [shl64_eq,shamt_mod]; rfl)
  case srl =>
    rw [seven (.inr (.inl rfl)) rfl]
    exact shifts_gives x pc m (by rw [shr64_eq,shamt_mod]; rfl)
  case sra =>
    rw [seven (.inr (.inr rfl)) rfl]
    exact shifts_gives x pc m (by rw [sar64_eq,shamt_mod]; rfl)
  all_goals contradiction

/-- A shift by 32 or more is taken for an illegal instruction. -/
theorem immediate_refused {op : Alu} (encoded : (Integer.imm op).Encodes i) (shift : op.IsShift)
    (five : i.getLsbD 25 = true) :
    dispatch i x pc m = .ok ⟨pc,m,[(pc-4,i)],false⟩ := by
  obtain ⟨code,three,_,_,_⟩ := encoded
  have odd (f : BitVec 7) (even : f.getLsbD 0 = false) : i.funct7 ≠ f := by
    rintro rfl
    rw [Instruction.funct7,BitVec.getLsbD_extractLsb',five] at even
    cases even
  have refused : riscv_arithmetic1_dispatch i = riscv_illegal_instruction i := by
    rw [riscv_arithmetic1_dispatch,show i.funct3 = _ from three]
    rcases shift with rfl | rfl | rfl
    · exact if_pos (odd 0 rfl)
    all_goals
      split
      case h_6 =>
        split
        · exact absurd ‹_› (odd _ rfl)
        · exact absurd ‹_› (odd _ rfl)
        · rfl
      all_goals contradiction
  rw [dispatch,show i.opcode = _ from code]
  show riscv_arithmetic1_dispatch i x _ = _
  rw [refused]
  rfl

theorem register_gives {op : Alu} (encoded : (Integer.reg op).Encodes i) :
    Gives (major_dispatch_table i.opcode) i x pc m (registerValue x op) := by
  obtain ⟨code,three,seven,_⟩ := encoded
  rw [show i.opcode = _ from code]
  show Gives riscv_arithmetic2_dispatch i x pc m _
  unfold Gives
  rw [riscv_arithmetic2_dispatch,show i.funct3 = _ from three,show i.funct7 = _ from seven]
  cases op
  case add => exact writes_gives x pc m (by rw [sum32,← BitVec.setWidth_add _ _ (by decide)]; rfl)
  case sub => exact writes_gives x pc m rfl
  case slt => exact writes_gives x pc m rfl
  case sltu => exact writes_gives x pc m rfl
  case xor => exact writes_gives x pc m (by rw [← BitVec.setWidth_xor]; rfl)
  case or => exact writes_gives x pc m rfl
  case and => exact writes_gives x pc m rfl
  case sll => exact shifts_gives x pc m (shl64_eq _ _)
  case srl => exact shifts_gives x pc m (shr32_eq _ _)
  case sra => exact shifts_gives x pc m (sar64_eq _ _)
  case mul => contradiction

theorem prepared_iff {r : BitVec 5} {u v : U64} :
    prepare_register_write r u m = prepare_register_write r v m ↔ u = v := by
  constructor
  · intro same
    exact congrArg StageRegM.value same
  · rintro rfl
    rfl

end

/-! ### Operations of 64 bits -/

/-- The instruction set's result in rd, its next pc, and no report of an illegal instruction. -/
def Executed (op : Integer) (i : Instruction) (x : Operands) (pc : U64) (m : StageRegM) (e : Execution) : Prop :=
  e.m = prepare_register_write (Rv64.rd i) (op.result i pc x.rs1_value x.rs2_value) m ∧
  e.pc = op.next i pc x.rs1_value ∧ e.illegal = []

/-- The operands on which a handler does not show its error. -/
def Faithful (i : Instruction) (x : Operands) : Integer → Prop
  | .imm .sltu => (immI i).msb = false ∨ x.rs1_value.toNat < (immI i).toNat ∨ (sext (immI i)).toNat ≤ x.rs1_value.toNat
  | .imm .sll | .imm .srl | .imm .sra => i.getLsbD 25 = false
  | .reg .add => -2^31 ≤ (x.rs1_value + x.rs2_value).toInt ∧ (x.rs1_value + x.rs2_value).toInt < 2^31
  | .reg .xor => upper (n := 32) x.rs1_value = upper (n := 32) x.rs2_value
  | .reg .srl =>
    if x.rs2_value.toNat % 64 < 32 then upper (n := 32) x.rs1_value = 0
    else upper (n := 32) x.rs1_value >>> (x.rs2_value.toNat % 32) = (x.rs1_value.setWidth 32 : U32) >>>
      (x.rs2_value.toNat % 32)
  | .auipc => False
  | .jalr => (x.rs1_value + sext (immI i)).getLsbD 0 = false
  | _ => True

instance (i : Instruction) (x : Operands) (op : Integer) : Decidable (Faithful i x op) := by
  rcases op with op | op | _ | _
  any_goals cases op
  all_goals
    dsimp only [Faithful]
    infer_instance

section
variable {i : Instruction} {x : Operands} {pc : U64} {m : StageRegM}

theorem gives_executed_iff {op : Integer} {value : U64}
    (gives : Gives (major_dispatch_table i.opcode) i x (pc+4) m value) (next : op.next i pc x.rs1_value = pc+4) :
    (∃ e, dispatch i x (pc+4) m = .ok e ∧ Executed op i x pc m e) ↔ value = op.result i pc x.rs1_value x.rs2_value := by
  obtain ⟨undefined,done⟩ := gives
  rw [show dispatch i x (pc+4) m = _ from done]
  simp [Executed,next,prepared_iff]

theorem ult_one_iff {a b c : U64} :
    ((if a.ult b then 1 else 0 : U64) = if a.ult c then 1 else 0) ↔ (a.toNat < b.toNat ↔ a.toNat < c.toNat) := by
  simp only [BitVec.ult,decide_eq_true_eq]
  by_cases below : a.toNat < b.toNat <;> by_cases under : a.toNat < c.toNat <;> simp [below,under]

theorem sltiu_iff (imm : BitVec 12) (a : U64) :
    ((if a.ult (imm.setWidth 64) then 1 else 0 : U64) = if a.ult (sext imm) then 1 else 0) ↔
      imm.msb = false ∨ a.toNat < imm.toNat ∨ (sext imm).toNat ≤ a.toNat := by
  rw [ult_one_iff,BitVec.toNat_setWidth_of_le (by decide)]
  by_cases negative : imm.msb = true
  · have order : imm.toNat ≤ (sext imm).toNat := by
      rw [sext,BitVec.toNat_signExtend,BitVec.toNat_setWidth_of_le (by decide)]
      exact Nat.le_add_right _ _
    rw [negative]
    simp only [Bool.true_eq_false,false_or]
    omega
  · have plain : sext imm = imm.setWidth 64 := BitVec.signExtend_eq_setWidth_of_msb_false (by simpa using negative)
    rw [plain,BitVec.toNat_setWidth_of_le (by decide)]
    simp [negative]

theorem xor_low_iff (a b : U64) : ((a ^^^ b).setWidth 32 : U32).setWidth 64 = a ^^^ b ↔ upper (n := 32) a = upper
    (n := 32) b := by
  have low := ushiftRight_low_iff (n := 32) (a ^^^ b) (show 0 < 32 by decide)
  have parts : upper (n := 32) (a ^^^ b) = upper (n := 32) a ^^^ upper (n := 32) b := BitVec.extractLsb'_xor
  rw [BitVec.ushiftRight_zero,BitVec.ushiftRight_zero,eq_comm,parts] at low
  exact low.trans BitVec.xor_eq_zero_iff

theorem srl_low_iff (a b : U64) : ((a.setWidth 32 : U32) >>> (b.toNat % 32)).setWidth 64 = a >>> (b.toNat % 64) ↔
    if b.toNat % 64 < 32 then upper (n := 32) a = 0
    else upper (n := 32) a >>> (b.toNat % 32) = (a.setWidth 32 : U32) >>> (b.toNat % 32) := by
  rw [eq_comm]
  by_cases short : b.toNat % 64 < 32
  · have same : b.toNat % 32 = b.toNat % 64 := by omega
    rw [if_pos short,same]
    exact ushiftRight_low_iff (n := 32) a short
  · have place : b.toNat % 64 = 32 + b.toNat % 32 := by omega
    rw [if_neg short,place]
    exact ushiftRight_high_iff (n := 32) a _

theorem immediate_executed_iff {op : Alu} (encoded : (Integer.imm op).Encodes i) :
    (∃ e, dispatch i x (pc+4) m = .ok e ∧ Executed (.imm op) i x pc m e) ↔ Faithful i x (.imm op) := by
  by_cases wide : op.IsShift ∧ i.getLsbD 25 = true
  · rw [immediate_refused x (pc+4) m encoded wide.1 wide.2]
    have refused : ¬ Faithful i x (.imm op) := by
      rcases wide with ⟨rfl | rfl | rfl,five⟩ <;> simp [Faithful,five]
    simp [Executed,refused]
  · have five (shift : op.IsShift) : i.getLsbD 25 = false := by
      rw [← Bool.not_eq_true]
      exact fun set => wide ⟨shift,set⟩
    rw [gives_executed_iff (immediate_gives x (pc+4) m encoded five) rfl]
    cases op
    case sltu => exact sltiu_iff (immI i) x.rs1_value
    case sll => exact iff_of_true rfl (five (.inl rfl))
    case srl => exact iff_of_true rfl (five (.inr (.inl rfl)))
    case sra => exact iff_of_true rfl (five (.inr (.inr rfl)))
    all_goals exact iff_of_true rfl trivial

theorem register_executed_iff {op : Alu} (encoded : (Integer.reg op).Encodes i) :
    (∃ e, dispatch i x (pc+4) m = .ok e ∧ Executed (.reg op) i x pc m e) ↔ Faithful i x (.reg op) := by
  rw [gives_executed_iff (register_gives x (pc+4) m encoded) rfl]
  cases op
  case add => exact signExtend_setWidth_eq_iff (x.rs1_value + x.rs2_value) (by decide) (by decide)
  case xor => exact xor_low_iff x.rs1_value x.rs2_value
  case srl => exact srl_low_iff x.rs1_value x.rs2_value
  all_goals exact iff_of_true rfl trivial

/-- The handler adds the address of the next instruction. -/
theorem auipc_executed_iff (encoded : Integer.auipc.Encodes i) :
    (∃ e, dispatch i x (pc+4) m = .ok e ∧ Executed .auipc i x pc m e) ↔ Faithful i x .auipc := by
  have gives : Gives (major_dispatch_table i.opcode) i x (pc+4) m (pc + 4 + sext (immU i)) := by
    rw [show i.opcode = _ from encoded]
    exact ⟨false,by rw [← upper_immediate]; rfl⟩
  rw [gives_executed_iff gives rfl]
  simp [Integer.result,Faithful]

theorem even_iff (v : U64) : v = v &&& ~~~1 ↔ v.getLsbD 0 = false := by
  constructor
  · intro same
    rw [same]
    simp
  · intro even
    apply BitVec.eq_of_getLsbD_eq
    intro k inside
    rcases k with _ | k
    · rw [even,BitVec.getLsbD_and,even]
      rfl
    · have one : (1 : U64).getLsbD (k+1) = false := by simp
      rw [BitVec.getLsbD_and,BitVec.getLsbD_not,one]
      simp [inside]

/-- The handler leaves the last bit of the target. -/
theorem jalr_executed_iff (encoded : Integer.jalr.Encodes i) :
    (∃ e, dispatch i x (pc+4) m = .ok e ∧ Executed .jalr i x pc m e) ↔ Faithful i x .jalr := by
  have legal : ¬ i.funct3 ≠ 0 := fun other => other encoded.2
  have done : dispatch i x (pc+4) m =
      .ok ⟨x.rs1_value + sext (immI i),prepare_register_write (Rv64.rd i) (pc+4) m,[],false⟩ := by
    rw [dispatch,show i.opcode = _ from encoded.1]
    show riscv_jalr i x _ = _
    rw [riscv_jalr,if_neg legal,extended12_eq,BitVec.add_comm x.rs1_value]
    rfl
  rw [done]
  simp only [Executed,Except.ok.injEq,exists_eq_left',Integer.result,Integer.next,true_and,and_true]
  exact even_iff _

/-- What holds after the word holds without undefined shifts exactly if these are in range. -/
theorem defined_iff {P : Execution → Prop} {right : Prop} (value : (∃ e, dispatch i x pc m = .ok e ∧ P e) ↔ right) :
    (∃ e, dispatch i x pc m = .ok e ∧ P e ∧ e.undefined_shift = false) ↔ right ∧ ShiftsInRange i x := by
  rw [← value]
  constructor
  · rintro ⟨e,done,holds,clear⟩
    exact ⟨⟨e,done,holds⟩,(dispatch_undefined done).mp clear⟩
  · rintro ⟨⟨e,done,holds⟩,shifts⟩
    exact ⟨e,done,holds,(dispatch_undefined done).mpr shifts⟩

/-- A legal word is executed as the instruction set says exactly if its operands are among those
    on which the handler is faithful; without undefined shifts exactly if these are in range, too. -/
theorem integer_operations_iff {i : Instruction} {op : Integer} (legal : op.Encodes i) (x : Operands) (pc : U64)
    (m : StageRegM) :
    ((∃ e, dispatch i x (pc+4) m = .ok e ∧ Executed op i x pc m e) ↔ Faithful i x op) ∧
    ((∃ e, dispatch i x (pc+4) m = .ok e ∧ Executed op i x pc m e ∧ e.undefined_shift = false) ↔
      Faithful i x op ∧ ShiftsInRange i x) := by
  have value : (∃ e, dispatch i x (pc+4) m = .ok e ∧ Executed op i x pc m e) ↔ Faithful i x op := by
    cases op with
    | imm => exact immediate_executed_iff legal
    | reg => exact register_executed_iff legal
    | auipc => exact auipc_executed_iff legal
    | jalr => exact jalr_executed_iff legal
  exact ⟨value,defined_iff value⟩

/-- `add x5,x6,x7` of 1 and 2. -/
theorem integer_operations_iff_sum : ∃ e, dispatch 0x007302B3 ⟨1,2⟩ (0+4) .zero = .ok e ∧ e.m.value = 3 ∧
    e.undefined_shift = false := by
  obtain ⟨e,done,⟨write,_,_⟩,clear⟩ :=
    (integer_operations_iff (show (Integer.reg .add).Encodes 0x007302B3 by decide) ⟨1,2⟩ 0 .zero).2.mpr
    ⟨by decide,by decide⟩
  exact ⟨e,done,by rw [write]; rfl,clear⟩

/-- `add x5,x6,x7` of 2^31 and 2^31 gives 0. -/
theorem add_loses_upper_half : (Integer.reg .add).Encodes 0x007302B3 ∧
    ∃ e, dispatch 0x007302B3 ⟨0x80000000,0x80000000⟩ 4 .zero = .ok e ∧ e.m.value = 0 ∧
      (Integer.reg .add).result 0x007302B3 0 0x80000000 0x80000000 = 0x100000000 :=
  ⟨by decide,_,rfl,by decide,by decide⟩

end

/-! ### Operations on words -/

/-- With an immediate only the sum is extended with its sign. -/
def wordImmediateValue (i : Instruction) (x : Operands) : Alu → U64
  | .add => sext ((x.rs1_value.setWidth 32 : U32) + (sext (immI i)).setWidth 32)
  | op => (op.result (x.rs1_value.setWidth 32 : U32) ((sext (immI i)).setWidth 32)).setWidth 64

/-- Shifts are not extended, and `riscv_srlw` shifts all 64 bits. -/
def wordRegisterValue (x : Operands) : Alu → U64
  | .sll => ((x.rs1_value.setWidth 32 : U32) <<< (x.rs2_value.toNat % 32)).setWidth 64
  | .srl => x.rs1_value >>> (x.rs2_value.toNat % 64)
  | .sra => ((x.rs1_value.setWidth 32 : U32).sshiftRight (x.rs2_value.toNat % 32)).setWidth 64
  | op => sext (op.result (x.rs1_value.setWidth 32 : U32) (x.rs2_value.setWidth 32))

section
variable {i : Instruction} {x : Operands} {pc : U64} {m : StageRegM}

theorem shamt_mod32 : (shamt i x).toNat % 32 = ((sext (immI i)).setWidth 32 : U32).toNat % 32 := by
  have wide := shamt_mod i x
  rw [BitVec.toNat_setWidth]
  omega

theorem mulw_eq (a b : U64) :
    ((((a &&& 0xFFFFFFFF) * (b &&& 0xFFFFFFFF)) &&& 0xFFFFFFFF).setWidth 32 : U32) = a.setWidth 32 * b.setWidth 32 := by
  show low32 _ = _
  rw [low32_eq,BitVec.setWidth_mul _ _ (by decide)]
  exact congrArg₂ (· * ·) (low32_eq a) (low32_eq b)

theorem word_immediate_gives {op : Alu} (encoded : (WordOp.imm op).Encodes i) :
    Gives (major_dispatch_table i.opcode) i x pc m (wordImmediateValue i x op) := by
  obtain ⟨code,three,rest⟩ := encoded
  rw [show i.opcode = _ from code]
  show Gives riscv_arithmetic1_64_dispatch i x pc m _
  unfold Gives
  rw [riscv_arithmetic1_64_dispatch,show i.funct3 = _ from three]
  rcases rest with rfl | ⟨rfl | rfl | rfl,seven⟩
  · exact writes_gives x pc m (by rw [cast12_eq]; rfl)
  · have zero : ¬ i.funct7 ≠ 0 := fun set => set seven
    show ∃ undefined, (if i.funct7 ≠ 0 then riscv_illegal_instruction i else riscv_slliw i) x ⟨pc,m,[],false⟩ = _
    rw [if_neg zero]
    exact shifts_gives x pc m (by rw [shl32_eq,shamt_mod32]; rfl)
  · rw [show i.funct7 = _ from seven]
    exact shifts_gives x pc m (by rw [shr32_eq,shamt_mod32]; rfl)
  · rw [show i.funct7 = _ from seven]
    exact shifts_gives x pc m (by rw [sar32_eq,shamt_mod32]; rfl)

theorem word_register_gives {op : Alu} (encoded : (WordOp.reg op).Encodes i) :
    Gives (major_dispatch_table i.opcode) i x pc m (wordRegisterValue x op) := by
  obtain ⟨code,three,seven,rest⟩ := encoded
  rw [show i.opcode = _ from code]
  show Gives riscv_arithmetic2_64_dispatch i x pc m _
  unfold Gives
  rw [riscv_arithmetic2_64_dispatch,show i.funct3 = _ from three,show i.funct7 = _ from seven]
  rcases rest with rfl | rfl | rfl | rfl | rfl | rfl
  · exact writes_gives x pc m rfl
  · exact writes_gives x pc m rfl
  · exact writes_gives x pc m (congrArg sext (mulw_eq _ _))
  · exact shifts_gives x pc m (shl32_eq _ _)
  · exact shifts_gives x pc m (shr64_eq _ _)
  · exact shifts_gives x pc m (sar32_eq _ _)

end

/-- The operands on which a handler of words does not show its error. -/
def WordFaithful (i : Instruction) (x : Operands) : WordOp → Prop
  | .imm .sll => x.rs1_value.getLsbD (31 - (immI i).toNat % 32) = false
  | .imm .srl => (immI i).toNat % 32 ≠ 0 ∨ x.rs1_value.getLsbD 31 = false
  | .imm .sra | .reg .sra => x.rs1_value.getLsbD 31 = false
  | .reg .sll => x.rs1_value.getLsbD (31 - x.rs2_value.toNat % 32) = false
  | .reg .srl =>
    if x.rs2_value.toNat % 64 = 0 then x.rs1_value = sext (x.rs1_value.setWidth 32 : U32)
    else if x.rs2_value.toNat % 64 < 32 then upper (n := 32) x.rs1_value = 0
    else upper (n := 32) x.rs1_value >>> (x.rs2_value.toNat % 32) = (x.rs1_value.setWidth 32 : U32) >>>
      (x.rs2_value.toNat % 32) ∧ (x.rs2_value.toNat % 32 = 0 → x.rs1_value.getLsbD 31 = false)
  | _ => True

instance (i : Instruction) (x : Operands) (op : WordOp) : Decidable (WordFaithful i x op) := by
  rcases op with op | op
  all_goals cases op
  all_goals
    dsimp only [WordFaithful]
    infer_instance

theorem msb_low (a : U64) : (a.setWidth 32 : U32).msb = a.getLsbD 31 := by
  rw [BitVec.msb_eq_getLsbD_last,BitVec.getLsbD_setWidth]
  rfl
theorem msb_shiftLeft_low (a : U64) {s : Nat} (short : s < 32) :
    ((a.setWidth 32 : U32) <<< s).msb = a.getLsbD (31-s) := by
  have inside : 31-s < 32 ∧ ¬ 31 < s := by omega
  rw [BitVec.msb_eq_getLsbD_last,BitVec.getLsbD_shiftLeft,BitVec.getLsbD_setWidth]
  simp [inside]
theorem msb_ushiftRight_low (a : U64) (s : Nat) :
    ((a.setWidth 32 : U32) >>> s).msb = (decide (s = 0) && a.getLsbD 31) := by
  rw [BitVec.msb_eq_getLsbD_last,BitVec.getLsbD_ushiftRight,BitVec.getLsbD_setWidth]
  by_cases zero : s = 0
  · simp [zero]
  · have past : ¬ s + 31 < 32 := by omega
    simp [zero,past]

theorem upper_extended_iff (a : U64) : a >>> 32 = sext (a.setWidth 32 : U32) ↔
    upper (n := 32) a = a.setWidth 32 ∧ a.getLsbD 31 = false := by
  have shifted := ushiftRight_high_iff (n := 32) a 0
  rw [BitVec.ushiftRight_zero,BitVec.ushiftRight_zero] at shifted
  have plain (clear : a.getLsbD 31 = false) : sext (a.setWidth 32 : U32) = (a.setWidth 32 : U32).setWidth 64 :=
    BitVec.signExtend_eq_setWidth_of_msb_false ((msb_low a).trans clear)
  constructor
  · intro same
    have top := congrArg (fun v : U64 => v.getLsbD 63) same
    have clear : a.getLsbD 31 = false := by
      rw [← msb_low]
      simpa [sext,BitVec.getLsbD_signExtend,-BitVec.getLsbD_eq_getElem] using top.symm
    exact ⟨shifted.mp (same.trans (plain clear)),clear⟩
  · rintro ⟨halves,clear⟩
    exact (shifted.mpr halves).trans (plain clear).symm

theorem srlw_iff (a b : U64) : a >>> (b.toNat % 64) = sext ((a.setWidth 32 : U32) >>> (b.toNat % 32)) ↔
    if b.toNat % 64 = 0 then a = sext (a.setWidth 32 : U32)
    else if b.toNat % 64 < 32 then upper (n := 32) a = 0
    else upper (n := 32) a >>> (b.toNat % 32) = (a.setWidth 32 : U32) >>> (b.toNat % 32) ∧
      (b.toNat % 32 = 0 → a.getLsbD 31 = false) := by
  by_cases whole : b.toNat % 32 = 0
  · rw [whole,BitVec.ushiftRight_zero,BitVec.ushiftRight_zero]
    by_cases zero : b.toNat % 64 = 0
    · rw [zero,if_pos rfl,BitVec.ushiftRight_zero]
    · have half : b.toNat % 64 = 32 := by omega
      rw [half,if_neg (by decide),if_neg (by decide),upper_extended_iff]
      simp
  · -- a shifted half is not negative, and both extensions are the same
    have clear : ((a.setWidth 32 : U32) >>> (b.toNat % 32)).msb = false := by
      rw [msb_ushiftRight_low]
      simp [whole]
    have nonzero : b.toNat % 64 ≠ 0 := by omega
    rw [sext,BitVec.signExtend_eq_setWidth_of_msb_false clear,eq_comm,srl_low_iff,if_neg nonzero]
    simp [whole]

section
variable {i : Instruction} {x : Operands} {pc : U64} {m : StageRegM}

theorem word_gives_iff {op : WordOp} {value : U64} (gives : Gives (major_dispatch_table i.opcode) i x pc m value) :
    (∃ e, dispatch i x pc m = .ok e ∧
      e.m = prepare_register_write (Rv64.rd i) (op.result i x.rs1_value x.rs2_value) m) ↔
    value = op.result i x.rs1_value x.rs2_value := by
  obtain ⟨undefined,done⟩ := gives
  rw [show dispatch i x pc m = _ from done]
  simp [prepared_iff]

theorem word_immediate_iff {op : Alu} (encoded : (WordOp.imm op).Encodes i) :
    wordImmediateValue i x op = (WordOp.imm op).result i x.rs1_value x.rs2_value ↔ WordFaithful i x (.imm op) := by
  have amount : ((sext (immI i)).setWidth 32 : U32).toNat % 32 = (immI i).toNat % 32 := by
    rw [← shamt_mod32 (x := x),shamt,BitVec.toNat_setWidth_of_le (by decide)]
    rfl
  have small : (immI i).toNat % 32 < 32 := Nat.mod_lt _ (by decide)
  obtain ⟨_,_,rest⟩ := encoded
  rcases rest with rfl | ⟨rfl | rfl | rfl,_⟩
  · exact iff_of_true rfl trivial
  · refine (setWidth_eq_signExtend_iff _ (by decide)).trans ?_
    rw [Alu.result,amount,msb_shiftLeft_low _ small]
    rfl
  · refine (setWidth_eq_signExtend_iff _ (by decide)).trans ?_
    rw [Alu.result,amount,msb_ushiftRight_low]
    show _ ↔ _ ∨ _
    by_cases zero : (immI i).toNat % 32 = 0 <;> simp [zero]
  · refine (setWidth_eq_signExtend_iff _ (by decide)).trans ?_
    rw [Alu.result,BitVec.msb_sshiftRight,msb_low]
    rfl

theorem word_register_iff {op : Alu} (encoded : (WordOp.reg op).Encodes i) :
    wordRegisterValue x op = (WordOp.reg op).result i x.rs1_value x.rs2_value ↔ WordFaithful i x (.reg op) := by
  have amount : (x.rs2_value.setWidth 32 : U32).toNat % 32 = x.rs2_value.toNat % 32 := by
    rw [BitVec.toNat_setWidth]
    omega
  have small : x.rs2_value.toNat % 32 < 32 := Nat.mod_lt _ (by decide)
  obtain ⟨_,_,_,rest⟩ := encoded
  rcases rest with rfl | rfl | rfl | rfl | rfl | rfl
  · exact iff_of_true rfl trivial
  · exact iff_of_true rfl trivial
  · exact iff_of_true rfl trivial
  · rw [WordOp.result,Alu.result,amount]
    refine (setWidth_eq_signExtend_iff _ (by decide)).trans ?_
    rw [msb_shiftLeft_low _ small]
    rfl
  · rw [WordOp.result,Alu.result,amount]
    exact srlw_iff x.rs1_value x.rs2_value
  · rw [WordOp.result,Alu.result,amount]
    refine (setWidth_eq_signExtend_iff _ (by decide)).trans ?_
    rw [BitVec.msb_sshiftRight,msb_low]
    rfl

end

/-- A legal operation on words writes the extended result of the low halves exactly if its operands
    are among those on which the handler is faithful; without undefined shifts exactly if these are
    in range, too. -/
theorem word_operations_iff {i : Instruction} {op : WordOp} (legal : op.Encodes i) (x : Operands) (pc : U64)
    (m : StageRegM) :
    ((∃ e, dispatch i x pc m = .ok e ∧ e.m = prepare_register_write (Rv64.rd i)
      (op.result i x.rs1_value x.rs2_value) m) ↔
      WordFaithful i x op) ∧
    ((∃ e, dispatch i x pc m = .ok e ∧ e.m = prepare_register_write (Rv64.rd i)
      (op.result i x.rs1_value x.rs2_value) m ∧
      e.undefined_shift = false) ↔ WordFaithful i x op ∧ ShiftsInRange i x) := by
  have value : (∃ e, dispatch i x pc m = .ok e ∧
      e.m = prepare_register_write (Rv64.rd i) (op.result i x.rs1_value x.rs2_value) m) ↔ WordFaithful i x op := by
    cases op with
    | imm => rw [word_gives_iff (word_immediate_gives legal),word_immediate_iff legal]
    | reg => rw [word_gives_iff (word_register_gives legal),word_register_iff legal]
  exact ⟨value,defined_iff value⟩

/-- `addw x5,x6,x7` of 2^31 and 2^31 - 1. -/
theorem word_operations_iff_sum :
    ∃ e, dispatch 0x007302BB ⟨0x80000000,0x7FFFFFFF⟩ 4 .zero = .ok e ∧ e.m.value = -1 ∧ e.undefined_shift = false := by
  obtain ⟨e,done,write,clear⟩ := (word_operations_iff (show (WordOp.reg .add).Encodes 0x007302BB by decide)
    ⟨0x80000000,0x7FFFFFFF⟩ 4 .zero).2.mpr ⟨by decide,by decide⟩
  exact ⟨e,done,by rw [write]; rfl,clear⟩

/-- `sraw x5,x6,x7` of -2^31 by 0 gives 2^31. -/
theorem sraw_loses_sign : (WordOp.reg .sra).Encodes 0x407352BB ∧
    ∃ e, dispatch 0x407352BB ⟨0x80000000,0⟩ 4 .zero = .ok e ∧ e.m.value = 0x80000000 ∧
      (WordOp.reg .sra).result 0x407352BB 0x80000000 0 = 0xFFFFFFFF80000000 :=
  ⟨by decide,_,rfl,by decide,by decide⟩

end RiscvSim
