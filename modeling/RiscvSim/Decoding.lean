import RiscvSim.Handlers
import RiscvSim.SignExtension
import RiscvSim.Rv64

/-!
The immediates that the handlers put together, against those of the instruction formats.
Loads, stores, `jal` and `lui` follow theirs. The branch handlers lose bit 11 of the offset and
take its sign from three other bits.
-/
namespace RiscvSim
open Words Rv64

/-! ### Twelve bits -/

theorem setWidth_above {n w : Nat} (v : BitVec n) (i : Nat) (past : n ≤ i) : (v.setWidth w).getLsbD i = false := by
  rw [BitVec.getLsbD_setWidth,BitVec.getLsbD_of_ge v i past]
  simp

theorem extended12_eq (imm : BitVec 12) : extended12 imm = sext imm := by
  have ones : ((0b1111 <<< 12 : U64) ||| (0xFFFFFFFFFFFF0000 : U64)) = BitVec.allOnes 64 <<< 12 := by decide
  have narrow : ((imm.setWidth 64 : U64).setWidth 12) = imm := by
    rw [BitVec.setWidth_setWidth_of_le imm (by decide),BitVec.setWidth_eq]
  unfold extended12
  simp only [BitVec.or_assoc,ones]
  rw [or_high_eq_signExtend (by decide) (setWidth_above imm) (by decide) (by decide),narrow]
  rfl

theorem cast12_eq (imm : BitVec 12) : cast12 imm = sext imm := by
  have test : (imm.setWidth 64 : U64) &&& (1 <<< 11) ≠ 0 ↔ imm.msb = true := by
    rw [and_ne_zero_iff (n := 11) (fun i more => setWidth_above imm i (by omega)) (by decide) (by decide),
      BitVec.msb_eq_getLsbD_last,BitVec.getLsbD_setWidth]
    simp
  unfold cast12 sext
  by_cases negative : imm.msb = true
  · have ones : ∀ i < 16, (0b1111 <<< 12 : U64).getLsbD i = decide (12 ≤ i) := by decide
    have narrow : (((imm.setWidth 64 : U64) ||| (0b1111 <<< 12)).setWidth 16 : U16) = imm.signExtend 16 := by
      apply BitVec.eq_of_getLsbD_eq
      intro i inside
      have wide : i < 64 := by omega
      rw [BitVec.getLsbD_signExtend,negative,BitVec.getLsbD_setWidth,BitVec.getLsbD_or,
        BitVec.getLsbD_setWidth,ones i inside]
      by_cases low : i < 12
      · simp [inside,low,wide]
      · have top : 12 ≤ i := by omega
        simp [inside,low,top]
    simp only [if_pos (test.mpr negative),narrow]
    exact signExtend_signExtend imm (by decide)
  · simp only [if_neg (fun masked => negative (test.mp masked))]
    exact (BitVec.signExtend_eq_setWidth_of_msb_false (by simpa using negative)).symm

/-! ### The other immediates -/

theorem store_immediate (i : Instruction) :
    (i.s_imm2.setWidth 12 ||| (i.s_imm.setWidth 12 <<< 5) : BitVec 12) = immS i := by
  apply BitVec.eq_of_getLsbD_eq
  intro k inside
  simp only [Instruction.s_imm,Instruction.s_imm2,immS,BitVec.getLsbD_or,BitVec.getLsbD_shiftLeft,
    BitVec.getLsbD_setWidth,BitVec.getLsbD_append,BitVec.getLsbD_extractLsb']
  interval_cases k <;> simp

theorem upper_immediate (i : Instruction) : (i.u_imm.setWidth 32 : U32) <<< 12 = immU i := by
  apply BitVec.eq_of_getLsbD_eq
  intro k inside
  simp only [Instruction.u_imm,immU,BitVec.getLsbD_shiftLeft,BitVec.getLsbD_setWidth,BitVec.getLsbD_append,
    BitVec.getLsbD_extractLsb']
  by_cases low : k < 12
  · simp [low]
  · have part : k - 12 < 20 := by omega
    simp [low,part,inside]
    omega

theorem jump_bits_eq (i : Instruction) : jump_bits (i.u_imm.setWidth 64) = ((immJ i).extractLsb' 1 20).setWidth 64 := by
  have mask (k : Nat) : (0xFFFFF : U64).getLsbD k = (decide (k < 64) && decide (k < 20)) := getLsbD_ones (n := 20) k
  have one (k : Nat) : (1 : U64).getLsbD k = (decide (k < 64) && decide (k < 1)) := getLsbD_ones (n := 1) k
  apply BitVec.eq_of_getLsbD_eq
  intro k inside
  simp only [jump_bits,immJ,Instruction.u_imm,BitVec.getLsbD_or,BitVec.getLsbD_and,BitVec.getLsbD_shiftLeft,
    BitVec.getLsbD_ushiftRight,BitVec.getLsbD_setWidth,BitVec.getLsbD_append,BitVec.getLsbD_extractLsb',mask,one,
    inside,decide_true,Bool.true_and]
  by_cases high : 20 ≤ k
  · have above : ¬ k-19 < 1 ∧ ¬ 1+k < 20 ∧ ¬ k-10 < 1 ∧ ¬ 10+k < 20 ∧ ¬ k < 20 := by omega
    simp [above]
  · interval_cases k <;> simp

theorem jump_offset (i : Instruction) : (sext ((immJ i).extractLsb' 1 20)) <<< 1 = sext (immJ i) := by
  have last : (immJ i).getLsbD 0 = false := by
    rw [immJ,BitVec.getLsbD_append]
    rfl
  apply BitVec.eq_of_getLsbD_eq
  intro k inside
  rw [sext,sext,BitVec.getLsbD_shiftLeft,BitVec.getLsbD_signExtend,BitVec.getLsbD_signExtend,BitVec.msb_eq_getLsbD_last,
    BitVec.msb_eq_getLsbD_last,BitVec.getLsbD_extractLsb',BitVec.getLsbD_extractLsb']
  rcases k with _ | k
  · rw [if_pos (by decide),last]
    simp
  · have below : k < 64 := by omega
    by_cases low : k < 20
    · simp [inside,below,low,Nat.add_comm 1 k]
    · have past : ¬ k + 1 < 21 := by omega
      simp [inside,below,low,past]

theorem riscv_jal_eq (i : Instruction) (x : Operands) (e : Execution) :
    riscv_jal i x e = .ok { e with m := prepare_register_write i.rd e.pc e.m, pc := e.pc - 4 + sext (immJ i) } := by
  have ones : ((0b1111 <<< 20 : U64) ||| (0xFFFFFFFFFF000000 : U64)) = BitVec.allOnes 64 <<< 20 := by decide
  have narrow : (((immJ i).extractLsb' 1 20).setWidth 64 : U64).setWidth 20 = (immJ i).extractLsb' 1 20 := by
    rw [BitVec.setWidth_setWidth_of_le _ (by decide),BitVec.setWidth_eq]
  have top : ∀ k, 20 ≤ k → (jump_bits (i.u_imm.setWidth 64)).getLsbD k = false := by
    rw [jump_bits_eq]
    exact setWidth_above _
  have extended : (if jump_bits (i.u_imm.setWidth 64) &&& (1 <<< 19) ≠ 0 then _ else _) = _ :=
    or_high_eq_signExtend (by decide) top (by decide) (by decide)
  rw [jump_bits_eq,narrow,← ones,← BitVec.or_assoc,← jump_bits_eq] at extended
  rw [← jump_offset,sext,← extended]
  rfl

/-! ### Loads, stores, `jal` and `lui` -/

section
variable (i : Instruction) (x : Operands) (pc : U64) (m : StageRegM)

theorem load_decodes (op : opcode i = 0b0000011) (legal : Rv64.funct3 i ≠ 0b111) :
    dispatch i x pc m = .ok ⟨pc,{ m with
      readWrite := .memory_read
      address := x.rs1_value + sext (immI i)
      size := BitVec.ofNat 8 (2^((Rv64.funct3 i).toNat % 4))
      reg := (Rv64.rd i).setWidth 64
      signExtend := decide ((Rv64.funct3 i).toNat < 3) },[],false⟩ := by
  have table : dispatch i x pc m = riscv_load_dispatch i x ⟨pc,m,[],false⟩ := by
    rw [dispatch,show i.opcode = _ from op]
    rfl
  have handler (size : U8) (signExtend : Bool) : load size signExtend i x ⟨pc,m,[],false⟩ = .ok ⟨pc,{ m with
      readWrite := .memory_read
      address := x.rs1_value + sext (immI i)
      size := size
      reg := (Rv64.rd i).setWidth 64
      signExtend := signExtend },[],false⟩ := by
    rw [load,extended12_eq]
    rfl
  rw [table,riscv_load_dispatch]
  rcases funct3_cases (Rv64.funct3 i) with f3 | f3 | f3 | f3 | f3 | f3 | f3 | f3
  case inr.inr.inr.inr.inr.inr.inr => exact absurd f3 legal
  all_goals
    rw [show i.funct3 = _ from f3,f3]
    exact handler _ _

theorem store_decodes (op : opcode i = 0b0100011) (legal : Rv64.funct3 i < 0b100) :
    dispatch i x pc m = .ok ⟨pc,{ m with
      readWrite := .memory_write
      address := x.rs1_value + sext (immS i)
      size := BitVec.ofNat 8 (2^((Rv64.funct3 i).toNat % 4))
      signExtend := false
      value := (x.rs2_value.setWidth (8 * 2^((Rv64.funct3 i).toNat % 4))).setWidth 64 },[],false⟩ := by
  have table : dispatch i x pc m = riscv_store_dispatch i x ⟨pc,m,[],false⟩ := by
    rw [dispatch,show i.opcode = _ from op]
    rfl
  have handler (size : U8) (truncate : U64 → U64) : store size truncate i x ⟨pc,m,[],false⟩ = .ok ⟨pc,{ m with
      readWrite := .memory_write
      address := x.rs1_value + sext (immS i)
      size := size
      signExtend := false
      value := truncate x.rs2_value },[],false⟩ := by
    rw [store,store_immediate,extended12_eq]
  rw [table,riscv_store_dispatch]
  rcases funct3_cases (Rv64.funct3 i) with f3 | f3 | f3 | f3 | f3 | f3 | f3 | f3
  all_goals rw [show i.funct3 = _ from f3,f3]
  · exact handler _ _
  · exact handler _ _
  · exact handler _ _
  · refine (handler _ _).trans ?_
    simp
  all_goals exact absurd legal (by rw [f3]; decide)

theorem jal_decodes (op : opcode i = 0b1101111) :
    dispatch i x (pc+4) m = .ok ⟨pc + sext (immJ i),prepare_register_write (Rv64.rd i) (pc+4) m,[],false⟩ := by
  have table : dispatch i x (pc+4) m = riscv_jal i x ⟨pc+4,m,[],false⟩ := by
    rw [dispatch,show i.opcode = _ from op]
    rfl
  rw [table,riscv_jal_eq,BitVec.add_sub_cancel]
  rfl

theorem lui_decodes (op : opcode i = 0b0110111) :
    dispatch i x pc m = .ok ⟨pc,prepare_register_write (Rv64.rd i) (sext (immU i)) m,[],false⟩ := by
  have table : dispatch i x pc m = riscv_lui i x ⟨pc,m,[],false⟩ := by
    rw [dispatch,show i.opcode = _ from op]
    rfl
  rw [table,riscv_lui,writes,upper_immediate]
  rfl

end

/-- Every field of the request or the write, and the pc, are those of the instruction set; a word that
    encodes an offset moves by just this offset. -/
theorem loads_stores_jal_lui_decode (x : Operands) (pc : U64) (m : StageRegM) :
    (∀ i, opcode i = 0b0000011 → Rv64.funct3 i ≠ 0b111 → dispatch i x (pc+4) m = .ok ⟨pc+4,{ m with
      readWrite := .memory_read
      address := x.rs1_value + sext (immI i)
      size := BitVec.ofNat 8 (2^((Rv64.funct3 i).toNat % 4))
      reg := (Rv64.rd i).setWidth 64
      signExtend := decide ((Rv64.funct3 i).toNat < 3) },[],false⟩) ∧
    (∀ i, opcode i = 0b0100011 → Rv64.funct3 i < 0b100 → dispatch i x (pc+4) m = .ok ⟨pc+4,{ m with
      readWrite := .memory_write
      address := x.rs1_value + sext (immS i)
      size := BitVec.ofNat 8 (2^((Rv64.funct3 i).toNat % 4))
      signExtend := false
      value := (x.rs2_value.setWidth (8 * 2^((Rv64.funct3 i).toNat % 4))).setWidth 64 },[],false⟩) ∧
    (∀ i, opcode i = 0b1101111 →
      dispatch i x (pc+4) m = .ok ⟨pc + sext (immJ i),prepare_register_write (Rv64.rd i) (pc+4) m,[],false⟩) ∧
    (∀ i, opcode i = 0b0110111 →
      dispatch i x (pc+4) m = .ok ⟨pc+4,prepare_register_write (Rv64.rd i) (sext (immU i)) m,[],false⟩) ∧
    (∀ rd (offset : Int), -2^20 ≤ offset → offset < 2^20 → offset % 2 = 0 →
      dispatch (encodeJ 0b1101111 rd offset) x (pc+4) m =
        .ok ⟨pc + BitVec.ofInt 64 offset,prepare_register_write rd (pc+4) m,[],false⟩) ∧
    (∀ f3 rd rs1 (offset : Int), f3 ≠ 0b111 → -2^11 ≤ offset → offset < 2^11 → ∃ e,
      dispatch (encodeI 0b0000011 f3 rd rs1 offset) x (pc+4) m = .ok e ∧
        e.m.readWrite = .memory_read ∧ e.m.address = x.rs1_value + BitVec.ofInt 64 offset) ∧
    (∀ f3 rs1 rs2 (offset : Int), f3 < 0b100 → -2^11 ≤ offset → offset < 2^11 → ∃ e,
      dispatch (encodeS 0b0100011 f3 rs1 rs2 offset) x (pc+4) m = .ok e ∧
        e.m.readWrite = .memory_write ∧ e.m.address = x.rs1_value + BitVec.ofInt 64 offset) := by
  refine ⟨fun i => load_decodes i x _ m,fun i => store_decodes i x _ m,fun i => jal_decodes i x pc m,
    fun i => lui_decodes i x _ m,?_,?_,?_⟩
  · intro rd offset low high even
    rw [jal_decodes _ x pc m (opcode_encodeJ _ rd offset),immJ_encodeJ _ rd offset even,sext_ofInt low high,
      rd_encodeJ]
  · intro f3 rd rs1 offset legal low high
    refine ⟨_,load_decodes _ x _ m (opcode_encodeI _ f3 rd rs1 offset) ?_,rfl,?_⟩
    · rwa [funct3_encodeI]
    · rw [immI_encodeI,sext_ofInt low high]
  · intro f3 rs1 rs2 offset legal low high
    refine ⟨_,store_decodes _ x _ m (opcode_encodeS _ f3 rs1 rs2 offset) ?_,rfl,?_⟩
    · rwa [funct3_encodeS]
    · rw [immS_encodeS,sext_ofInt low high]

/-- `lw x5,-4(x6)`, `sd x7,8(x6)`, `lui x5,0x80000` and jumps and accesses backwards. -/
theorem loads_stores_jal_lui_decode_words :
    (∃ e, dispatch 0xFFC32283 ⟨8,0⟩ 4 .zero = .ok e ∧ e.m.address = 4) ∧
    (∃ e, dispatch 0x00733423 ⟨8,7⟩ 4 .zero = .ok e ∧ e.m.value = 7) ∧
    (∃ e, dispatch 0x800002B7 ⟨0,0⟩ 4 .zero = .ok e ∧ e.m.value = 0xFFFFFFFF80000000) ∧
    (∃ e, dispatch (encodeJ 0b1101111 1 (-4)) ⟨0,0⟩ 12 .zero = .ok e ∧ e.pc = 4) ∧
    (∃ e, dispatch (encodeI 0b0000011 0b010 5 6 (-4)) ⟨8,0⟩ 4 .zero = .ok e ∧ e.m.address = 4) ∧
    (∃ e, dispatch (encodeS 0b0100011 0b011 6 7 (-8)) ⟨8,7⟩ 4 .zero = .ok e ∧ e.m.address = 0) := by
  obtain ⟨loads,_⟩ := loads_stores_jal_lui_decode ⟨8,0⟩ 0 .zero
  obtain ⟨_,stores,_⟩ := loads_stores_jal_lui_decode ⟨8,7⟩ 0 .zero
  obtain ⟨_,_,_,luis,_⟩ := loads_stores_jal_lui_decode ⟨0,0⟩ 0 .zero
  obtain ⟨_,_,_,_,jumps,_⟩ := loads_stores_jal_lui_decode ⟨0,0⟩ 8 .zero
  obtain ⟨_,_,_,_,_,reads,_⟩ := loads_stores_jal_lui_decode ⟨8,0⟩ 0 .zero
  obtain ⟨_,_,_,_,_,_,stored⟩ := loads_stores_jal_lui_decode ⟨8,7⟩ 0 .zero
  refine ⟨⟨_,loads 0xFFC32283 (by decide) (by decide),by decide⟩,
    ⟨_,stores 0x00733423 (by decide) (by decide),by decide⟩,
    ⟨_,luis 0x800002B7 (by decide),by decide⟩,⟨_,jumps 1 (-4) (by decide) (by decide) (by decide),by decide⟩,?_,?_⟩
  · obtain ⟨e,done,_,address⟩ := reads 0b010 5 6 (-4) (by decide) (by decide) (by decide)
    exact ⟨e,done,address⟩
  · obtain ⟨e,done,_,address⟩ := stored 0b011 6 7 (-8) (by decide) (by decide) (by decide)
    exact ⟨e,done,address⟩

/-! ### Branches -/

theorem sized_range_bits (i : Instruction) (k : Nat) (inside : k < 16) : (sized_range i).getLsbD k =
    if k = 0 then false else if k < 5 then i.getLsbD (7+k) else if k < 11 then i.getLsbD (20+k)
      else if k = 11 then i.getLsbD 31
    else false := by
  simp only [sized_range,Instruction.s_imm,Instruction.s_imm2,BitVec.getLsbD_or,BitVec.getLsbD_and,
    BitVec.getLsbD_shiftLeft,BitVec.getLsbD_ushiftRight,BitVec.getLsbD_setWidth,BitVec.getLsbD_extractLsb']
  interval_cases k <;> simp

/-- The mask looks at bits 1, 2 and 4 of the offset. -/
theorem sized_range_test (i : Instruction) :
    sized_range i &&& (11 <<< 1) ≠ 0 ↔ (i.getLsbD 8 || i.getLsbD 9 || i.getLsbD 11) = true := by
  have mask : ∀ k < 16, (11 <<< 1 : U16).getLsbD k = decide (k = 1 ∨ k = 2 ∨ k = 4) := by decide
  rw [and_ne_zero]
  constructor
  · rintro ⟨k,inside,set,masked⟩
    rw [mask k inside,decide_eq_true_eq] at masked
    rw [sized_range_bits i k inside] at set
    rcases masked with rfl | rfl | rfl
    all_goals simp_all
  · intro set
    rw [Bool.or_eq_true,Bool.or_eq_true] at set
    rcases set with (set | set) | set
    · exact ⟨1,by decide,(sized_range_bits i 1 (by decide)).trans set,by decide⟩
    · exact ⟨2,by decide,(sized_range_bits i 2 (by decide)).trans set,by decide⟩
    · exact ⟨4,by decide,(sized_range_bits i 4 (by decide)).trans set,by decide⟩

theorem extended_range_bits (i : Instruction) (k : Nat) (inside : k < 16) : (extended_range i).getLsbD k =
    if k < 12 then (sized_range i).getLsbD k else i.getLsbD 8 || i.getLsbD 9 || i.getLsbD 11 := by
  have ones : ∀ k < 16, (0b1111 <<< 12 : U16).getLsbD k = decide (12 ≤ k) := by decide
  rw [extended_range,BitVec.getLsbD_or]
  by_cases set : (i.getLsbD 8 || i.getLsbD 9 || i.getLsbD 11) = true
  · rw [if_pos ((sized_range_test i).mpr set),ones k inside,set]
    by_cases low : k < 12
    · simp [low]
    · simp [low,Nat.le_of_not_lt low]
  · rw [if_neg (fun masked => set ((sized_range_test i).mp masked)),Bool.eq_false_iff.mpr set]
    by_cases low : k < 12
    · simp [low]
    · have zero : k ≠ 0 ∧ ¬ k < 5 ∧ ¬ k < 11 ∧ k ≠ 11 := by omega
      rw [sized_range_bits i k inside]
      simp [low,zero]

theorem immB_bits (i : Instruction) (k : Nat) (inside : k < 13) : (immB i).getLsbD k =
    if k = 0 then false else if k < 5 then i.getLsbD (7+k) else if k < 11 then i.getLsbD (20+k)
      else if k = 11 then i.getLsbD 7
    else i.getLsbD 31 := by
  simp only [immB,BitVec.getLsbD_append,BitVec.getLsbD_extractLsb']
  interval_cases k <;> simp

/-- The sign and bit 11 of the offset are those of the format. -/
def OffsetKept (i : Instruction) : Prop :=
  i.getLsbD 31 = i.getLsbD 7 ∧ i.getLsbD 31 = (i.getLsbD 8 || i.getLsbD 9 || i.getLsbD 11)

instance (i : Instruction) : Decidable (OffsetKept i) := inferInstanceAs (Decidable (_ ∧ _))

theorem extended_range_iff (i : Instruction) : (extended_range i).signExtend 64 = sext (immB i) ↔ OffsetKept i := by
  constructor
  · intro same
    have bit (k : Nat) := congrArg (fun v : U64 => v.getLsbD k) same
    simp only [sext,BitVec.getLsbD_signExtend] at bit
    have eleven := bit 11
    have sign := bit 12
    rw [if_pos (by decide),if_pos (by decide),immB_bits i _ (by decide),
      extended_range_bits i _ (by decide)] at eleven sign
    rw [if_pos (by decide),sized_range_bits i _ (by decide)] at eleven
    exact ⟨eleven,sign.symm⟩
  · rintro ⟨eleven,sign⟩
    have narrow : extended_range i = (immB i).signExtend 16 := by
      apply BitVec.eq_of_getLsbD_eq
      intro k inside
      rw [extended_range_bits i k inside,BitVec.getLsbD_signExtend,BitVec.msb_eq_getLsbD_last,
        immB_bits i (13-1) (by decide),sized_range_bits i k inside]
      by_cases low : k < 13
      · rw [immB_bits i k low]
        grind
      · have past : ¬ k < 12 := by omega
        rw [← sign]
        simp [inside,low,past]
    rw [narrow]
    exact signExtend_signExtend _ (by decide)

theorem branch_dispatch_eq {i : Instruction} {taken : U64 → U64 → Bool} (legal : condition (Rv64.funct3 i) = some taken)
    (x : Operands) (e : Execution) : riscv_branch_dispatch i x e = branch taken i x e := by
  rw [riscv_branch_dispatch,show i.funct3 = Rv64.funct3 i from rfl]
  rcases funct3_cases (Rv64.funct3 i) with f3 | f3 | f3 | f3 | f3 | f3 | f3 | f3
  all_goals
    rw [f3] at legal ⊢
    cases legal
    try rfl

/-- A branch leaves the pc of the format exactly if it is not taken, or the sign and bit 11 of the
    offset happen to be those that the handlers put there. -/
theorem branch_target_iff {i : Instruction} {taken : U64 → U64 → Bool} (legal : condition (Rv64.funct3 i) = some taken)
    (x : Operands) (pc : U64) (m : StageRegM) :
    (∃ e, riscv_branch_dispatch i x ⟨pc+4,m,[],false⟩ = .ok e ∧
      e.pc = if taken x.rs1_value x.rs2_value then pc + sext (immB i) else pc + 4) ↔
    taken x.rs1_value x.rs2_value = false ∨ OffsetKept i := by
  rw [branch_dispatch_eq legal,branch_eq,← extended_range_iff]
  simp only [Except.ok.injEq,exists_eq_left',BitVec.add_sub_cancel]
  by_cases holds : taken x.rs1_value x.rs2_value = true
  · simp [holds]
  · simp [holds]

/-- `beq x0,x0,8` at 256. -/
theorem branch_target_iff_eight : ∃ e, riscv_branch_dispatch 0x00000463 ⟨0,0⟩ ⟨256+4,.zero,[],false⟩ =
    .ok e ∧ e.pc = 264 :=
  (branch_target_iff (show condition (Rv64.funct3 0x00000463) = some (fun a b => a == b) from rfl) ⟨0,0⟩ 256 .zero).mpr
    (.inr (by decide))

/-- `beq x0,x0,4` at 256 goes to 256 - 4092: bit 2 of the offset is taken for its sign. -/
theorem branch_forward_goes_back : opcode 0x00000263 = 0b1100011 ∧ sext (immB 0x00000263) = 4 ∧
    riscv_branch_dispatch 0x00000263 ⟨0,0⟩ ⟨256+4,.zero,[],false⟩ = .ok ⟨256 - 4092,.zero,[],false⟩ := by
  refine ⟨by decide,by decide,by decide⟩

end RiscvSim
