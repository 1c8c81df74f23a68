import RiscvSim.Refinement

/-!
Decode and execute classify a word by tables of their own. They agree on its registers: what is
written is the register that decode records, and an operand it does not record is not looked
at. A word that execute reports as illegal has no effect, but for one handler, which reports
it and goes on.
-/
namespace RiscvSim

/-! ### Registers -/

theorem rs1_recorded (i : Instruction) : (register_numbers i).rs1 = -1 ↔ decoding_type i.opcode = .U := by
  unfold register_numbers
  cases decoding_type i.opcode with
  | U => exact ⟨fun _ => rfl,fun _ => rfl⟩
  | _ => exact ⟨fun none => absurd none (setWidth_ne _),nofun⟩
theorem rs2_recorded (i : Instruction) : (register_numbers i).rs2 = -1 ↔ decoding_type i.opcode = .U ∨
    decoding_type i.opcode = .I := by
  unfold register_numbers
  cases decoding_type i.opcode with
  | U => exact ⟨fun _ => .inl rfl,fun _ => rfl⟩
  | I => exact ⟨fun _ => .inr rfl,fun _ => rfl⟩
  | _ => exact ⟨fun none => absurd none (setWidth_ne _),nofun⟩

/-- An instruction without sources, and one without a second source. -/
theorem agree_upper (x y : Operands) : Agree .U x y := ⟨fun other => absurd rfl other,nofun⟩
theorem agree_first {type : DecodingType} (kind : type = .U ∨ type = .I) (a b b' : U64) : Agree type ⟨a,b⟩ ⟨a,b'⟩ := by
  rcases kind with rfl | rfl
  · exact agree_upper _ _
  · exact ⟨fun _ => rfl,nofun⟩

/-- A register number is the same register as 64 bits wide. -/
theorem number_extended (r : BitVec 5) : (r.setWidth 16 : U16).signExtend 64 = r.setWidth 64 := by
  revert r
  decide

theorem effect_target {m : StageRegM} (writes : m.readWrite = .memory_read ∨ m.readWrite = .register_write) :
    m.effect.target = some m.reg := by
  rcases writes with load | register
  · rw [StageRegM.effect,load]
    rfl
  · rw [StageRegM.effect,register]
    rfl

theorem destination_recorded {i : Instruction} {x : Operands} {pc : U64} {m : StageRegM} {e : Execution}
    (nop : m.readWrite = .nop) (handled : dispatch i x pc m = .ok e)
    (writes : e.m.readWrite = .memory_read ∨ e.m.readWrite = .register_write) :
    (register_numbers i).rd ≠ -1 ∧ e.m.reg = (register_numbers i).rd.signExtend 64 := by
  obtain ⟨reg,rd⟩ := (dispatch_fits nop handled).target (effect_target writes)
  rw [rd,number_extended]
  exact ⟨setWidth_ne _,reg⟩

theorem decode_records {d : StageRegD} {x : StageRegX} {m : StageRegM} {w : StageRegW} {new_x_reg : StageRegX}
    {file : RegisterFile} {pc : U64} {r : StageRegX × U64} (decoded : Decodes d x m w new_x_reg file pc r)
    (issued : r.1.not_stalled = true) :
    r.1.instruction = d.instruction ∧ ⟨r.1.rs1,r.1.rs2,r.1.rd⟩ = register_numbers d.instruction := by
  cases decoded with
  | bubble => cases issued
  | waits => cases issued
  | issues => exact ⟨rfl,rfl⟩

/-- Decode and execute agree on the registers of every word. -/
theorem decode_execute_agree (i : Instruction) (pc : U64) (m : StageRegM) :
    (∀ x e, dispatch i x pc { m with readWrite := .nop } = .ok e → e.m.readWrite = .memory_read ∨ e.m.readWrite =
      .register_write → (register_numbers i).rd ≠ -1 ∧ e.m.reg = (register_numbers i).rd.signExtend 64) ∧
    ((register_numbers i).rs1 = -1 → ∀ a a' b, dispatch i ⟨a,b⟩ pc m = dispatch i ⟨a',b⟩ pc m) ∧
    ((register_numbers i).rs2 = -1 → ∀ a b b', dispatch i ⟨a,b⟩ pc m = dispatch i ⟨a,b'⟩ pc m) ∧
    ∀ (d : StageRegD) (x : StageRegX) (cur_m_reg : StageRegM) (w : StageRegW) (new_x_reg : StageRegX)
    (file : RegisterFile) (pc : U64),
      d.instruction = i → (stage_decode d x cur_m_reg w new_x_reg file pc).1.not_stalled = true →
      (stage_decode d x cur_m_reg w new_x_reg file pc).1.instruction = i ∧
        ⟨(stage_decode d x cur_m_reg w new_x_reg file pc).1.rs1,(stage_decode d x cur_m_reg w new_x_reg file pc).1.rs2,
          (stage_decode d x cur_m_reg w new_x_reg file pc).1.rd⟩ = register_numbers i := by
  refine ⟨fun x e handled => destination_recorded rfl handled,fun none a a' b => ?_,fun none a b b' => ?_,?_⟩
  · refine dispatch_agree ?_
    rw [(rs1_recorded i).mp none]
    exact agree_upper _ _
  · exact dispatch_agree (agree_first ((rs2_recorded i).mp none) a b b')
  · rintro d x cur_m_reg w new_x_reg file pc rfl issued
    exact decode_records (stage_decode_decodes _ _ _ _ _ _ _) issued

/-- `lw x5,0(x6)` and `lui x5,1`. -/
theorem decode_execute_agree_words :
    (∃ e, dispatch 0x00032283 ⟨8,0⟩ 4 .zero = .ok e ∧ e.m.readWrite = .memory_read ∧
      (register_numbers 0x00032283).rd ≠ -1 ∧ e.m.reg = (register_numbers 0x00032283).rd.signExtend 64) ∧
    (register_numbers 0x000012B7).rs1 = -1 ∧ dispatch 0x000012B7 ⟨1,0⟩ 4 .zero = dispatch 0x000012B7 ⟨2,0⟩ 4 .zero := by
  refine ⟨⟨_,rfl,rfl,?_⟩,by decide,?_⟩
  · exact (decode_execute_agree 0x00032283 4 .zero).1 ⟨8,0⟩ _ rfl (.inl rfl)
  · exact (decode_execute_agree 0x000012B7 4 .zero).2.1 (by decide) 1 2 0

/-! ### Illegal words -/

/-- A handler that does nothing to an instruction it reports. -/
def Refuses (h : Handler) : Prop := ∀ i x e r, h i x e = .ok r → r.illegal ≠ e.illegal → r.m = e.m ∧ r.pc = e.pc

theorem refuses_illegal : Refuses riscv_illegal_instruction := by
  intro i x e r handled _
  cases handled
  exact ⟨rfl,rfl⟩

/-- A handler that reports nothing. -/
theorem refuses_silent {h : Handler} (silent : ∀ i x e r, h i x e = .ok r → r.illegal = e.illegal) : Refuses h :=
  fun i x e r handled reported => absurd (silent i x e r handled) reported

theorem refuses_nop : Refuses riscv_nop := refuses_silent fun _ _ _ _ handled => by cases handled; rfl
theorem refuses_writes (value : Instruction → Operands → U64) : Refuses (writes value) :=
  refuses_silent fun _ _ _ _ handled => by cases handled; rfl
theorem refuses_shifts (width : Nat) (amount value : Instruction → Operands → U64) :
    Refuses (shifts width amount value) :=
  refuses_silent fun _ _ _ _ handled => by cases handled; rfl
theorem refuses_load (size : U8) (signExtend : Bool) : Refuses (load size signExtend) :=
  refuses_silent fun _ _ _ _ handled => by cases handled; rfl
theorem refuses_store (size : U8) (truncate : U64 → U64) : Refuses (store size truncate) :=
  refuses_silent fun _ _ _ _ handled => by cases handled; rfl
theorem refuses_auipc : Refuses riscv_auipc := refuses_silent fun _ _ _ _ handled => by cases handled; rfl
theorem refuses_jal : Refuses riscv_jal := refuses_silent fun _ _ _ _ handled => by cases handled; rfl
theorem refuses_branch (taken : U64 → U64 → Bool) : Refuses (branch taken) := by
  refine refuses_silent fun i x e r handled => ?_
  rw [branch_eq] at handled
  cases handled
  rfl
theorem refuses_divides (test traps : Operands → Bool) (value : Operands → U64) :
    Refuses (divides test traps value) := by
  refine refuses_silent fun i x e r handled => ?_
  rw [divides_eq] at handled
  split at handled
  · cases handled
  · cases handled
    rfl

theorem Handles.refuses {opcode : BitVec 7} {h : Handler} (handles : Handles opcode h) (other : opcode ≠ 0b1100111) :
    Refuses h := by
  cases handles with
  | auipc => exact refuses_auipc
  | lui => exact refuses_writes _
  | jal => exact refuses_jal
  | jalr => exact absurd rfl other
  | load => exact refuses_load _ _
  | branch => exact refuses_branch _
  | store => exact refuses_store _ _
  | immediate => exact refuses_writes _
  | immediate_shift => exact refuses_shifts _ _ _
  | register => exact refuses_writes _
  | register_shift => exact refuses_shifts _ _ _
  | division => exact refuses_divides _ _ _
  | nop => exact refuses_nop
  | illegal => exact refuses_illegal

theorem jalr_register_write {i : Instruction} {x : Operands} {e r : Execution} (handled : riscv_jalr i x e = .ok r) :
    r.m.readWrite = .register_write := by
  unfold riscv_jalr at handled
  by_cases illegal : i.funct3 ≠ 0
  · rw [if_pos illegal] at handled
    cases handled
    rfl
  · rw [if_neg illegal] at handled
    cases handled
    rfl

/-- A word that is reported as illegal has no effect exactly if it is not a `jalr`. -/
theorem illegal_no_effect_iff (i : Instruction) (x : Operands) (pc : U64) (m : StageRegM) (e : Execution)
    (handled : dispatch i x (pc + 4) { m with readWrite := .nop } = .ok e) (reported : e.illegal ≠ []) :
    e.m.readWrite = .nop ∧ e.pc = pc + 4 ↔ i.opcode ≠ 0b1100111 := by
  constructor
  · rintro ⟨idle,-⟩ jump
    rw [dispatch,jump] at handled
    cases (jalr_register_write handled).symm.trans idle
  · intro other
    obtain ⟨h,chosen,handles⟩ := major_chooses i.opcode i
    rw [dispatch,chosen] at handled
    obtain ⟨same,next⟩ := handles.refuses other i x _ e handled reported
    exact ⟨congrArg (·.readWrite) same,next⟩

theorem illegal_no_effect_iff_load : ∃ e, dispatch 0x00007003 ⟨0,0⟩ (8 + 4) .zero = .ok e ∧ e.illegal =
    [(8,0x00007003)] ∧ e.m.readWrite = .nop ∧ e.pc = 8 + 4 := by
  refine ⟨_,rfl,by decide,?_⟩
  exact (illegal_no_effect_iff 0x00007003 ⟨0,0⟩ 8 .zero _ rfl (by decide)).mpr (by decide)

/-- `jalr x5,0(x6)` with funct3 001 is reported, and x5 written and the jump made all the same. -/
theorem illegal_jalr_jumps : ∃ e, dispatch 0x000312E7 ⟨0x100,0⟩ (8 + 4) .zero = .ok e ∧ e.illegal = [(8,0x000312E7)] ∧
    e.m.readWrite = .register_write ∧ e.m.reg = 5 ∧ e.m.value = 12 ∧ e.pc = 0x100 :=
  ⟨_,rfl,by decide,rfl,by decide,by decide,by decide⟩

end RiscvSim
