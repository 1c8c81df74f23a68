import RiscvSim.Handlers
import RiscvSim.SignExtension

/-!
Where a handler leaves C: a shift by at least the width of what is shifted, and a division
that the machine traps. The tests of the handlers look at the registers, the divisions of
words at their low halves.
-/
namespace RiscvSim
open Words

/-! ### Conditions on the word and the operands -/

/-- Immediate shifts: the amount of an arithmetic shift right has bit 10 of the immediate set. -/
def ImmediateInRange (i : Instruction) : Prop := ¬ (i.funct3 = 0b101 ∧ i.funct7 = 0b0100000)

/-- Shifts by a register: the amount is below the given bound for sll, srl and sra. -/
def AmountInRange (i : Instruction) (sll srl sra : Prop) : Prop :=
  (i.funct3 = 0b001 ∧ i.funct7 = 0b0000000 → sll) ∧ (i.funct3 = 0b101 ∧ i.funct7 = 0b0000000 → srl) ∧
    (i.funct3 = 0b101 ∧ i.funct7 = 0b0100000 → sra)

/-- Every shift that the word makes is defined in C. -/
def ShiftsInRange (i : Instruction) (x : Operands) : Prop :=
  (i.opcode = 0b0010011 ∨ i.opcode = 0b0011011 → ImmediateInRange i) ∧
  (i.opcode = 0b0110011 →
    AmountInRange i (x.rs2_value.toNat < 64) ((low32 x.rs2_value).toNat < 32) (x.rs2_value.toNat < 64)) ∧
  (i.opcode = 0b0111011 →
    AmountInRange i ((low32 x.rs2_value).toNat < 32) (x.rs2_value.toNat < 64) ((low32 x.rs2_value).toNat < 32))

/-- The signed division of the low halves is not made, or defined. -/
def SignedInRange (x : Operands) : Prop :=
  x.rs2_value = 0 ∨ (x.rs2_value = -1 ∧ x.rs1_value = BitVec.intMin 64) ∨
    (low32 x.rs2_value ≠ 0 ∧ ¬ (low32 x.rs2_value = -1 ∧ low32 x.rs1_value = BitVec.intMin 32))
def UnsignedInRange (x : Operands) : Prop := x.rs2_value = 0 ∨ low32 x.rs2_value ≠ 0

/-- Every division that the word makes is defined in C. -/
def DivisionsInRange (i : Instruction) (x : Operands) : Prop :=
  i.opcode = 0b0111011 ∧ i.funct7 = 0b0000001 →
    (i.funct3 = 0b100 ∨ i.funct3 = 0b110 → SignedInRange x) ∧ (i.funct3 = 0b101 ∨ i.funct3 = 0b111 → UnsignedInRange x)

instance (i : Instruction) : Decidable (ImmediateInRange i) := inferInstanceAs (Decidable (¬ _))
instance (i : Instruction) (sll srl sra : Prop) [Decidable sll] [Decidable srl] [Decidable sra] :
    Decidable (AmountInRange i sll srl sra) := inferInstanceAs (Decidable ((_ → _) ∧ (_ → _) ∧ (_ → _)))
instance (i : Instruction) (x : Operands) : Decidable (ShiftsInRange i x) :=
  inferInstanceAs (Decidable ((_ → _) ∧ (_ → _) ∧ (_ → _)))
instance (x : Operands) : Decidable (SignedInRange x) := inferInstanceAs (Decidable (_ ∨ _ ∨ _))
instance (x : Operands) : Decidable (UnsignedInRange x) := inferInstanceAs (Decidable (_ ∨ _))
instance (i : Instruction) (x : Operands) : Decidable (DivisionsInRange i x) :=
  inferInstanceAs (Decidable (_ → (_ → _) ∧ (_ → _)))

/-! ### Handlers -/

/-- The handler returns exactly if the division is in range, and then has made an undefined
    shift exactly if the shift is not. -/
structure Ranged (h : Handler) (i : Instruction) (x : Operands) (shift division : Prop) : Prop where
  returns : ∀ e, (∃ r, h i x e = .ok r) ↔ division
  defined : ∀ e r, h i x e = .ok r → (r.undefined_shift = false ↔ e.undefined_shift = false ∧ shift)

theorem Ranged.congr {h : Handler} {i : Instruction} {x : Operands} {shift shift' division division' : Prop}
    (ranged : Ranged h i x shift division) (shifts : shift ↔ shift') (divisions : division ↔ division') :
    Ranged h i x shift' division' where
  returns e := (ranged.returns e).trans divisions
  defined e r done := (ranged.defined e r done).trans (and_congr_right fun _ => shifts)

section
variable {i : Instruction} {x : Operands}

/-- A handler that returns with the flag as it was. -/
theorem ranged_plain {h : Handler} (keeps : ∀ e, ∃ r, h i x e = .ok r ∧ r.undefined_shift = e.undefined_shift) :
    Ranged h i x True True where
  returns e := by
    obtain ⟨r,done,_⟩ := keeps e
    exact ⟨fun _ => trivial,fun _ => ⟨r,done⟩⟩
  defined e r done := by
    obtain ⟨r',done',flag⟩ := keeps e
    cases done'.symm.trans done
    rw [flag,and_true]

theorem ranged_illegal : Ranged riscv_illegal_instruction i x True True := ranged_plain fun _ => ⟨_,rfl,rfl⟩
theorem ranged_writes (value : Instruction → Operands → U64) : Ranged (writes value) i x True True :=
  ranged_plain fun _ => ⟨_,rfl,rfl⟩

theorem ranged_shifts (width : Nat) (amount value : Instruction → Operands → U64) :
    Ranged (shifts width amount value) i x ((amount i x).toNat < width) True where
  returns e := ⟨fun _ => trivial,fun _ => ⟨_,rfl⟩⟩
  defined e r done := by
    cases done
    simp

theorem ranged_divides (test traps : Operands → Bool) (value : Operands → U64) :
    Ranged (divides test traps value) i x True (test x = true → traps x = false) := by
  constructor
  · intro e
    rw [divides_eq]
    by_cases trapped : test x = true ∧ traps x = true
    · simp [trapped]
    · rw [if_neg trapped]
      refine ⟨fun _ tested => ?_,fun _ => ⟨_,rfl⟩⟩
      exact Bool.eq_false_iff.mpr fun traps => trapped ⟨tested,traps⟩
  · intro e r done
    rw [divides_eq] at done
    split at done
    · cases done
    · cases done
      simp

/-! ### Dispatch -/

theorem ranged_dispatch {d : Handler} {shift division : Prop}
    (chosen : ∃ h : Handler, d i = h i ∧ Ranged h i x shift division) :
    Ranged d i x shift division := by
  obtain ⟨h,same,ranged⟩ := chosen
  constructor
  · rw [same]
    exact ranged.returns
  · rw [same]
    exact ranged.defined

theorem shamt_toNat : (shamt i x).toNat = i.funct7.toNat * 32 + i.rs2.toNat := by
  have parts : i.i_imm = i.funct7 ++ i.rs2 := by
    rw [Instruction.funct7,Instruction.rs2,BitVec.extractLsb'_append_extractLsb'_eq_extractLsb' (by decide)]
    rfl
  rw [shamt,parts,BitVec.toNat_setWidth,BitVec.toNat_append,← Nat.shiftLeft_add_eq_or_of_lt i.rs2.isLt,Nat.shiftLeft_eq]
  omega

theorem shamt_logical {width : Nat} (wide : 32 ≤ width) (seven : i.funct7 = 0b0000000) : (shamt i x).toNat < width := by
  have zero : i.funct7.toNat = 0 := congrArg BitVec.toNat seven
  have small := i.rs2.isLt
  rw [shamt_toNat]
  omega
theorem shamt_arithmetic {width : Nat} (wide : width ≤ 64) (seven : i.funct7 = 0b0100000) :
    ¬ (shamt i x).toNat < width := by
  have bit : i.funct7.toNat = 32 := congrArg BitVec.toNat seven
  rw [shamt_toNat]
  omega

theorem ranged_arithmetic1 : Ranged riscv_arithmetic1_dispatch i x (ImmediateInRange i) True := by
  refine ranged_dispatch ?_
  unfold riscv_arithmetic1_dispatch
  split <;> try split
  all_goals first
    | exact ⟨_,rfl,(ranged_writes _).congr (by simp_all [ImmediateInRange]) .rfl⟩
    | exact ⟨_,rfl,ranged_illegal.congr (by simp_all [ImmediateInRange]) .rfl⟩
    | exact ⟨_,rfl,(ranged_shifts _ _ _).congr (by simp_all [ImmediateInRange,shamt_logical,shamt_arithmetic]) .rfl⟩
theorem ranged_arithmetic1_64 : Ranged riscv_arithmetic1_64_dispatch i x (ImmediateInRange i) True := by
  refine ranged_dispatch ?_
  unfold riscv_arithmetic1_64_dispatch
  split <;> try split
  all_goals first
    | exact ⟨_,rfl,(ranged_writes _).congr (by simp_all [ImmediateInRange]) .rfl⟩
    | exact ⟨_,rfl,ranged_illegal.congr (by simp_all [ImmediateInRange]) .rfl⟩
    | exact ⟨_,rfl,(ranged_shifts _ _ _).congr (by simp_all [ImmediateInRange,shamt_logical,shamt_arithmetic]) .rfl⟩

theorem low32_eq (v : U64) : low32 v = v.setWidth 32 := by
  have mask (k : Nat) : (0xFFFFFFFF : U64).getLsbD k = (decide (k < 64) && decide (k < 32)) := getLsbD_ones (n := 32) k
  apply BitVec.eq_of_getLsbD_eq
  intro k inside
  have wide : k < 64 := by omega
  rw [low32,BitVec.getLsbD_setWidth,BitVec.getLsbD_and,mask,BitVec.getLsbD_setWidth]
  simp [inside,wide]

/-- The amount that is cast to 32 bits. -/
theorem rs2_amount32_toNat : (rs2_amount32 i x).toNat = (low32 x.rs2_value).toNat := by
  rw [rs2_amount32,low32_eq,BitVec.toNat_setWidth_of_le (by decide)]

theorem ranged_arithmetic2 : Ranged riscv_arithmetic2_dispatch i x
    (AmountInRange i (x.rs2_value.toNat < 64) ((low32 x.rs2_value).toNat < 32) (x.rs2_value.toNat < 64)) True := by
  refine ranged_dispatch ?_
  unfold riscv_arithmetic2_dispatch
  split <;> split
  all_goals first
    | exact ⟨_,rfl,(ranged_writes _).congr (by simp_all [AmountInRange]) .rfl⟩
    | exact ⟨_,rfl,ranged_illegal.congr (by simp_all [AmountInRange]) .rfl⟩
    | exact ⟨_,rfl,(ranged_shifts _ _ _).congr (by simp_all [AmountInRange,rs2_amount,rs2_amount32_toNat]) .rfl⟩
    | exact ⟨_,rfl,(ranged_divides _ _ _).congr (by simp_all [AmountInRange]) (by simp [traps_never])⟩

/-- The signed test and trap of the low halves. -/
theorem signed_in_range_iff : (divides_signed x = true → traps_signed32 x = false) ↔ SignedInRange x := by
  simp only [divides_signed,traps_signed32,SignedInRange,Bool.not_eq_true',Bool.or_eq_false_iff,Bool.and_eq_false_iff,
    beq_eq_false_iff_ne]
  tauto
theorem unsigned_in_range_iff : (divides_unsigned x = true → traps_unsigned32 x = false) ↔ UnsignedInRange x := by
  simp only [divides_unsigned,traps_unsigned32,UnsignedInRange,Bool.not_eq_true',beq_eq_false_iff_ne]
  tauto

theorem ranged_arithmetic2_64 : Ranged riscv_arithmetic2_64_dispatch i x
    (AmountInRange i ((low32 x.rs2_value).toNat < 32) (x.rs2_value.toNat < 64) ((low32 x.rs2_value).toNat < 32))
    (i.funct7 = 0b0000001 →
      (i.funct3 = 0b100 ∨ i.funct3 = 0b110 → SignedInRange x) ∧
      (i.funct3 = 0b101 ∨ i.funct3 = 0b111 → UnsignedInRange x)) := by
  refine ranged_dispatch ?_
  unfold riscv_arithmetic2_64_dispatch
  split <;> try split
  all_goals first
    | exact ⟨_,rfl,(ranged_writes _).congr (by simp_all [AmountInRange]) (by simp_all)⟩
    | exact ⟨_,rfl,ranged_illegal.congr (by simp_all [AmountInRange]) (by simp_all)⟩
    | exact ⟨_,rfl,(ranged_shifts _ _ _).congr (by simp_all [AmountInRange,rs2_amount,rs2_amount32_toNat])
      (by simp_all)⟩
    | exact ⟨_,rfl,(ranged_divides _ _ _).congr (by simp_all [AmountInRange]) (signed_in_range_iff.trans (by simp_all))⟩
    | exact ⟨_,rfl,(ranged_divides _ _ _).congr (by simp_all [AmountInRange])
      (unsigned_in_range_iff.trans (by simp_all))⟩

theorem ranged_auipc : Ranged riscv_auipc i x True True := ranged_plain fun _ => ⟨_,rfl,rfl⟩
theorem ranged_jal : Ranged riscv_jal i x True True := ranged_plain fun _ => ⟨_,rfl,rfl⟩
theorem ranged_nop : Ranged riscv_nop i x True True := ranged_plain fun _ => ⟨_,rfl,rfl⟩
theorem ranged_jalr : Ranged riscv_jalr i x True True := by
  refine ranged_plain fun e => ?_
  unfold riscv_jalr
  by_cases illegal : i.funct3 ≠ 0
  · rw [if_pos illegal]
    exact ⟨_,rfl,rfl⟩
  · rw [if_neg illegal]
    exact ⟨_,rfl,rfl⟩
theorem ranged_load_dispatch : Ranged riscv_load_dispatch i x True True := by
  refine ranged_dispatch ?_
  unfold riscv_load_dispatch
  split
  all_goals exact ⟨_,rfl,ranged_plain fun _ => ⟨_,rfl,rfl⟩⟩
theorem ranged_store_dispatch : Ranged riscv_store_dispatch i x True True := by
  refine ranged_dispatch ?_
  unfold riscv_store_dispatch
  split
  all_goals exact ⟨_,rfl,ranged_plain fun _ => ⟨_,rfl,rfl⟩⟩
theorem ranged_branch_dispatch : Ranged riscv_branch_dispatch i x True True := by
  refine ranged_dispatch ?_
  unfold riscv_branch_dispatch
  split
  all_goals first
    | exact ⟨_,rfl,ranged_plain fun e => ⟨_,branch_eq _ i x e,rfl⟩⟩
    | exact ⟨_,rfl,ranged_illegal⟩

theorem ranged_major : Ranged (major_dispatch_table i.opcode) i x (ShiftsInRange i x) (DivisionsInRange i x) := by
  unfold major_dispatch_table
  split
  · exact ranged_auipc.congr (by simp_all [ShiftsInRange]) (by simp_all [DivisionsInRange])
  · exact (ranged_writes _).congr (by simp_all [ShiftsInRange]) (by simp_all [DivisionsInRange])
  · exact ranged_jal.congr (by simp_all [ShiftsInRange]) (by simp_all [DivisionsInRange])
  · exact ranged_jalr.congr (by simp_all [ShiftsInRange]) (by simp_all [DivisionsInRange])
  · exact ranged_load_dispatch.congr (by simp_all [ShiftsInRange]) (by simp_all [DivisionsInRange])
  · exact ranged_branch_dispatch.congr (by simp_all [ShiftsInRange]) (by simp_all [DivisionsInRange])
  · exact ranged_store_dispatch.congr (by simp_all [ShiftsInRange]) (by simp_all [DivisionsInRange])
  · exact ranged_arithmetic1.congr (by simp_all [ShiftsInRange]) (by simp_all [DivisionsInRange])
  · exact ranged_arithmetic1_64.congr (by simp_all [ShiftsInRange]) (by simp_all [DivisionsInRange])
  · exact ranged_arithmetic2.congr (by simp_all [ShiftsInRange]) (by simp_all [DivisionsInRange])
  · exact ranged_arithmetic2_64.congr (by simp_all [ShiftsInRange]) (by simp_all [DivisionsInRange])
  · exact ranged_nop.congr (by simp_all [ShiftsInRange]) (by simp_all [DivisionsInRange])
  · exact ranged_nop.congr (by simp_all [ShiftsInRange]) (by simp_all [DivisionsInRange])
  · exact ranged_illegal.congr (by simp_all [ShiftsInRange]) (by simp_all [DivisionsInRange])

/-- Executed with the flag clear, the word leaves it clear exactly if its shifts are in range. -/
theorem dispatch_undefined {pc : U64} {m : StageRegM} {e : Execution} (done : dispatch i x pc m = .ok e) :
    e.undefined_shift = false ↔ ShiftsInRange i x := by
  rw [ranged_major.defined _ e done]
  simp

end

/-- No division traps and no shift is out of range exactly if the word makes none on
    operands of these kinds. -/
theorem execution_defined_iff (i : Instruction) (x : Operands) (pc : U64) (m : StageRegM) :
    (∃ e, dispatch i x pc m = .ok e ∧ e.undefined_shift = false) ↔ ShiftsInRange i x ∧ DivisionsInRange i x := by
  constructor
  · rintro ⟨e,done,clear⟩
    exact ⟨(dispatch_undefined done).mp clear,(ranged_major.returns _).mp ⟨e,done⟩⟩
  · rintro ⟨shifts,divisions⟩
    obtain ⟨e,done⟩ := (ranged_major.returns ⟨pc,m,[],false⟩).mpr divisions
    exact ⟨e,done,(dispatch_undefined done).mpr shifts⟩

/-- `divw x5,x6,x7` with x7 = 2^32 passes the test and divides by zero; `srai x5,x6,1` shifts by 1025. -/
theorem divw_traps_srai_overshifts : dispatch 0x027342BB ⟨1,0x100000000⟩ 4 .zero = .error .division_trap ∧
    ∃ e, dispatch 0x40135293 ⟨8,0⟩ 4 .zero = .ok e ∧ e.undefined_shift = true :=
  ⟨by decide,_,rfl,by decide⟩

end RiscvSim
