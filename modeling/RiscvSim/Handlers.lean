import RiscvSim.Sequential
import RiscvSim.Runs

/-!
What all handlers have in common: they look only at the operands that decode reads for
their opcode, they write no register but the one decode takes for the destination, and
what the M register held before does not matter.
-/
namespace RiscvSim
open Runs

/-- The pc that a handler leaves, and its effect. -/
def Execution.view (e : Execution) : U64 × Effect := (e.pc,e.m.effect)

/-- An effect on no other register than `rd`, and only if the instruction has one; a load
    that extends is of less than eight bytes. -/
def Effect.Fits (instruction : Instruction) (writes_rd : Bool) : Effect → Prop
  | .register reg _ => reg = instruction.rd.setWidth 64 ∧ writes_rd = true
  | .load reg _ size signExtend => (reg = instruction.rd.setWidth 64 ∧ writes_rd = true) ∧
    (signExtend = true → size = 1 ∨ size = 2 ∨ size = 4)
  | _ => True

/-! ### The handler of a word -/

/-- The handlers that words of an opcode are executed by. -/
inductive Handles : BitVec 7 → Handler → Prop
  | auipc : Handles 0b0010111 riscv_auipc
  | lui : Handles 0b0110111 riscv_lui
  | jal : Handles 0b1101111 riscv_jal
  | jalr : Handles 0b1100111 riscv_jalr
  | load {size : U8} {signExtend : Bool} (small : signExtend = true → size = 1 ∨ size = 2 ∨ size = 4) :
    Handles 0b0000011 (load size signExtend)
  | branch (taken : U64 → U64 → Bool) : Handles 0b1100011 (branch taken)
  | store (size : U8) (truncate : U64 → U64) : Handles 0b0100011 (store size truncate)
  -- with an immediate, the second operand is not looked at
  | immediate {opcode : BitVec 7} {value : Instruction → Operands → U64} (type : decoding_type opcode = .I)
    (one : ∀ i a b c, value i ⟨a,b⟩ = value i ⟨a,c⟩) : Handles opcode (writes value)
  | immediate_shift {opcode : BitVec 7} {width : Nat} {amount value : Instruction → Operands → U64}
    (type : decoding_type opcode = .I)
    (fixed : ∀ i a b c, amount i ⟨a,b⟩ = amount i ⟨a,c⟩) (one : ∀ i a b c, value i ⟨a,b⟩ = value i ⟨a,c⟩) :
    Handles opcode (shifts width amount value)
  | register {opcode : BitVec 7} (type : decoding_type opcode = .R) (value : Instruction → Operands → U64) :
    Handles opcode (writes value)
  | register_shift {opcode : BitVec 7} (type : decoding_type opcode = .R) (width : Nat) (amount value : Instruction →
    Operands → U64) :
    Handles opcode (shifts width amount value)
  | division {opcode : BitVec 7} (type : decoding_type opcode = .R) (test traps : Operands → Bool)
    (value : Operands → U64) :
    Handles opcode (divides test traps value)
  | nop {opcode : BitVec 7} (type : decoding_type opcode = .I) : Handles opcode riscv_nop
  | illegal (opcode : BitVec 7) : Handles opcode riscv_illegal_instruction

/-- A dispatch takes each word to one of the handlers of its opcode. -/
def Chooses (d : Handler) (opcode : BitVec 7) : Prop := ∀ i, ∃ h : Handler, d i = h i ∧ Handles opcode h

theorem load_dispatch_chooses : Chooses riscv_load_dispatch 0b0000011 := by
  intro i
  unfold riscv_load_dispatch
  split
  all_goals first
    | exact ⟨_,rfl,.load (by decide)⟩
    | exact ⟨_,rfl,.illegal _⟩
theorem store_dispatch_chooses : Chooses riscv_store_dispatch 0b0100011 := by
  intro i
  unfold riscv_store_dispatch
  split
  all_goals first
    | exact ⟨_,rfl,.store _ _⟩
    | exact ⟨_,rfl,.illegal _⟩
theorem branch_dispatch_chooses : Chooses riscv_branch_dispatch 0b1100011 := by
  intro i
  unfold riscv_branch_dispatch
  split
  all_goals first
    | exact ⟨_,rfl,.branch _⟩
    | exact ⟨_,rfl,.illegal _⟩
theorem arithmetic1_dispatch_chooses : Chooses riscv_arithmetic1_dispatch 0b0010011 := by
  intro i
  unfold riscv_arithmetic1_dispatch
  split <;> try split
  all_goals first
    | exact ⟨_,rfl,.immediate rfl fun _ _ _ _ => rfl⟩
    | exact ⟨_,rfl,.immediate_shift rfl (fun _ _ _ _ => rfl) fun _ _ _ _ => rfl⟩
    | exact ⟨_,rfl,.illegal _⟩
theorem arithmetic1_64_dispatch_chooses : Chooses riscv_arithmetic1_64_dispatch 0b0011011 := by
  intro i
  unfold riscv_arithmetic1_64_dispatch
  split <;> try split
  all_goals first
    | exact ⟨_,rfl,.immediate rfl fun _ _ _ _ => rfl⟩
    | exact ⟨_,rfl,.immediate_shift rfl (fun _ _ _ _ => rfl) fun _ _ _ _ => rfl⟩
    | exact ⟨_,rfl,.illegal _⟩
theorem arithmetic2_dispatch_chooses : Chooses riscv_arithmetic2_dispatch 0b0110011 := by
  intro i
  unfold riscv_arithmetic2_dispatch
  split <;> split
  all_goals first
    | exact ⟨_,rfl,.register rfl _⟩
    | exact ⟨_,rfl,.register_shift rfl _ _ _⟩
    | exact ⟨_,rfl,.division rfl _ _ _⟩
    | exact ⟨_,rfl,.illegal _⟩
theorem arithmetic2_64_dispatch_chooses : Chooses riscv_arithmetic2_64_dispatch 0b0111011 := by
  intro i
  unfold riscv_arithmetic2_64_dispatch
  split <;> try split
  all_goals first
    | exact ⟨_,rfl,.register rfl _⟩
    | exact ⟨_,rfl,.register_shift rfl _ _ _⟩
    | exact ⟨_,rfl,.division rfl _ _ _⟩
    | exact ⟨_,rfl,.illegal _⟩

theorem major_chooses (opcode : BitVec 7) : Chooses (major_dispatch_table opcode) opcode := by
  unfold major_dispatch_table
  split
  · exact fun _ => ⟨_,rfl,.auipc⟩
  · exact fun _ => ⟨_,rfl,.lui⟩
  · exact fun _ => ⟨_,rfl,.jal⟩
  · exact fun _ => ⟨_,rfl,.jalr⟩
  · exact load_dispatch_chooses
  · exact branch_dispatch_chooses
  · exact store_dispatch_chooses
  · exact arithmetic1_dispatch_chooses
  · exact arithmetic1_64_dispatch_chooses
  · exact arithmetic2_dispatch_chooses
  · exact arithmetic2_64_dispatch_chooses
  · exact fun _ => ⟨_,rfl,.nop rfl⟩
  · exact fun _ => ⟨_,rfl,.nop rfl⟩
  · exact fun _ => ⟨_,rfl,.illegal _⟩

/-! ### What handlers have in common -/

/-- A handler that behaves alike whatever is left in an idle M register, and has an
    effect that fits the instruction. -/
structure Regular (h : Handler) (writes_rd : Bool) : Prop where
  view : ∀ instruction x e, e.m.readWrite = .nop →
    (h instruction x e).map Execution.view = (h instruction x ⟨e.pc,.zero,[],false⟩).map Execution.view
  keeps : ∀ instruction x e r, h instruction x e = .ok r →
    r.m.tainted_executions = e.m.tainted_executions ∧ r.m.wasStalled = e.m.wasStalled ∧ r.m.pc = e.m.pc
  fits : ∀ instruction x e r, e.m.readWrite = .nop → h instruction x e = .ok r → r.m.effect.Fits instruction writes_rd

theorem effect_nop {m : StageRegM} (nop : m.readWrite = .nop) : m.effect = .nothing := by
  rw [StageRegM.effect,nop]

theorem regular_illegal (writes_rd : Bool) : Regular riscv_illegal_instruction writes_rd where
  view instruction x e nop := by
    simp [riscv_illegal_instruction,Except.map,Execution.view,effect_nop nop,effect_nop (m := .zero) rfl]
  keeps instruction x e r handled := by cases handled; exact ⟨rfl,rfl,rfl⟩
  fits instruction x e r nop handled := by
    cases handled
    rw [show ({ e with illegal := e.illegal ++ [(e.pc - 4,instruction)] } : Execution).m.effect = .nothing from
      effect_nop nop]
    trivial

theorem regular_nop (writes_rd : Bool) : Regular riscv_nop writes_rd where
  view instruction x e nop := by
    simp [riscv_nop,Except.map,Execution.view,effect_nop nop,effect_nop (m := .zero) rfl]
  keeps instruction x e r handled := by cases handled; exact ⟨rfl,rfl,rfl⟩
  fits instruction x e r nop handled := by
    cases handled
    rw [effect_nop nop]
    trivial

/-- A handler that prepares a register write. -/
theorem regular_prepares {h : Handler} (value pc : Instruction → Operands → U64 → U64)
    (prepares : ∀ instruction x e, ∃ illegal undefined_shift, h instruction x e =
      .ok ⟨pc instruction x e.pc,prepare_register_write instruction.rd (value instruction x e.pc) e.m,illegal,
        undefined_shift⟩) :
    Regular h true where
  view instruction x e nop := by
    obtain ⟨_,_,left⟩ := prepares instruction x e
    obtain ⟨_,_,right⟩ := prepares instruction x ⟨e.pc,.zero,[],false⟩
    rw [left,right]
    rfl
  keeps instruction x e r handled := by
    obtain ⟨_,_,left⟩ := prepares instruction x e
    cases left.symm.trans handled
    exact ⟨rfl,rfl,rfl⟩
  fits instruction x e r nop handled := by
    obtain ⟨_,_,left⟩ := prepares instruction x e
    cases left.symm.trans handled
    exact ⟨rfl,rfl⟩

theorem regular_writes (value : Instruction → Operands → U64) : Regular (writes value) true :=
  regular_prepares (fun i x _ => value i x) (fun _ _ pc => pc) fun _ _ _ => ⟨_,_,rfl⟩
theorem regular_shifts (width : Nat) (amount value : Instruction → Operands → U64) :
    Regular (shifts width amount value) true :=
  regular_prepares (fun i x _ => value i x) (fun _ _ pc => pc) fun _ _ _ => ⟨_,_,rfl⟩

theorem regular_auipc : Regular riscv_auipc true :=
  regular_prepares (fun i _ pc => pc + (((i.u_imm.setWidth 32 : U32) <<< 12).signExtend 64)) (fun _ _ pc => pc)
    fun _ _ _ => ⟨_,_,rfl⟩
theorem regular_jal : Regular riscv_jal true where
  view instruction x e nop := rfl
  keeps instruction x e r handled := by cases handled; exact ⟨rfl,rfl,rfl⟩
  fits instruction x e r nop handled := by cases handled; exact ⟨rfl,rfl⟩
theorem regular_jalr : Regular riscv_jalr true := by
  refine regular_prepares (fun _ _ pc => pc) (fun i x _ => extended12 i.i_imm + x.rs1_value) fun i x e => ?_
  unfold riscv_jalr
  by_cases illegal : i.funct3 ≠ 0
  · rw [if_pos illegal]
    exact ⟨_,_,rfl⟩
  · rw [if_neg illegal]
    exact ⟨_,_,rfl⟩

theorem divides_eq (test traps : Operands → Bool) (value : Operands → U64) (i : Instruction) (x : Operands)
    (e : Execution) :
    divides test traps value i x e =
      if test x = true ∧ traps x = true then .error .division_trap
      else .ok { e with m := prepare_register_write i.rd (if test x then value x else -1) e.m } := by
  unfold divides
  cases test x <;> cases traps x <;> rfl

theorem regular_divides (test traps : Operands → Bool) (value : Operands → U64) :
    Regular (divides test traps value) true := by
  constructor
  · intro i x e nop
    rw [divides_eq,divides_eq]
    split <;> rfl
  · intro i x e r handled
    rw [divides_eq] at handled
    split at handled
    · cases handled
    · cases handled; exact ⟨rfl,rfl,rfl⟩
  · intro i x e r nop handled
    rw [divides_eq] at handled
    split at handled
    · cases handled
    · cases handled; exact ⟨rfl,rfl⟩

theorem regular_load {size : U8} {signExtend : Bool} (small : signExtend = true → size = 1 ∨ size = 2 ∨ size = 4) :
    Regular (load size signExtend) true where
  view instruction x e nop := rfl
  keeps instruction x e r handled := by cases handled; exact ⟨rfl,rfl,rfl⟩
  fits instruction x e r nop handled := by cases handled; exact ⟨⟨rfl,rfl⟩,small⟩

theorem regular_store (size : U8) (truncate : U64 → U64) (writes_rd : Bool) :
    Regular (store size truncate) writes_rd where
  view instruction x e nop := rfl
  keeps instruction x e r handled := by cases handled; exact ⟨rfl,rfl,rfl⟩
  fits instruction x e r nop handled := by cases handled; trivial

/-- A branch handler goes to its target or on to the next instruction. -/
theorem branch_eq (taken : U64 → U64 → Bool) (i : Instruction) (x : Operands) (e : Execution) : branch taken i x e =
    .ok { e with pc := if taken x.rs1_value x.rs2_value then e.pc - 4 + (extended_range i).signExtend 64
      else e.pc } := by
  unfold branch
  split <;> rfl

theorem regular_branch (taken : U64 → U64 → Bool) (writes_rd : Bool) : Regular (branch taken) writes_rd := by
  constructor
  · intro i x e nop
    rw [branch_eq,branch_eq]
    simp [Except.map,Execution.view,effect_nop nop,effect_nop (m := .zero) rfl]
  · intro i x e r handled
    rw [branch_eq] at handled
    cases handled; exact ⟨rfl,rfl,rfl⟩
  · intro i x e r nop handled
    rw [branch_eq] at handled
    cases handled
    rw [effect_nop nop]
    trivial

/-- Decode takes no destination for stores and branches only. -/
theorem Handles.regular {opcode : BitVec 7} {h : Handler} (handles : Handles opcode h) :
    Regular h (decide (decoding_type opcode ≠ .S)) := by
  cases handles with
  | auipc => exact regular_auipc
  | lui => exact regular_writes _
  | jal => exact regular_jal
  | jalr => exact regular_jalr
  | load small => exact regular_load small
  | branch taken => exact regular_branch _ _
  | store size truncate => exact regular_store _ _ _
  | immediate type => rw [type]; exact regular_writes _
  | immediate_shift type => rw [type]; exact regular_shifts _ _ _
  | register type => rw [type]; exact regular_writes _
  | register_shift type => rw [type]; exact regular_shifts _ _ _
  | division type => rw [type]; exact regular_divides _ _ _
  | nop => exact regular_nop _
  | illegal => exact regular_illegal _

theorem regular_major (opcode : BitVec 7) :
    Regular (major_dispatch_table opcode) (decide (decoding_type opcode ≠ .S)) where
  view i := by
    obtain ⟨h,same,handles⟩ := major_chooses opcode i
    rw [same]
    exact handles.regular.view i
  keeps i := by
    obtain ⟨h,same,handles⟩ := major_chooses opcode i
    rw [same]
    exact handles.regular.keeps i
  fits i := by
    obtain ⟨h,same,handles⟩ := major_chooses opcode i
    rw [same]
    exact handles.regular.fits i

/-- A handler that prepares no load. -/
def Loadless (h : Handler) : Prop := ∀ i x e r, e.m.readWrite = .nop → h i x e = .ok r → r.m.readWrite ≠ .memory_read

theorem loadless_illegal : Loadless riscv_illegal_instruction := by
  intro i x e r nop handled
  cases handled
  rw [nop]
  exact nofun
theorem loadless_writes (value : Instruction → Operands → U64) : Loadless (writes value) := by
  intro i x e r _ handled
  cases handled
  exact nofun
theorem loadless_shifts (width : Nat) (amount value : Instruction → Operands → U64) :
    Loadless (shifts width amount value) := by
  intro i x e r _ handled
  cases handled
  exact nofun
theorem loadless_divides (test traps : Operands → Bool) (value : Operands → U64) :
    Loadless (divides test traps value) := by
  intro i x e r _ handled
  unfold divides at handled
  split at handled
  · split at handled
    · cases handled
    · cases handled; exact nofun
  · cases handled; exact nofun

/-- No instruction with two source registers is a load. -/
theorem loadless_major {opcode : BitVec 7} (type : decoding_type opcode = .R) :
    Loadless (major_dispatch_table opcode) := by
  intro i x e r nop handled
  obtain ⟨h,same,handles⟩ := major_chooses opcode i
  rw [same] at handled
  have loadless : Loadless h := by
    cases handles with
    | register => exact loadless_writes _
    | register_shift => exact loadless_shifts _ _ _
    | division => exact loadless_divides _ _ _
    | illegal => exact loadless_illegal
    | immediate other => cases other.symm.trans type
    | immediate_shift other => cases other.symm.trans type
    | nop other => cases other.symm.trans type
    | _ => cases type
  exact loadless i x e r nop handled

/-! ### The dispatched instruction -/

section
variable {instruction : Instruction} {x y : Operands} {pc : U64} {m : StageRegM} {e : Execution}

/-- What is left in the M register does not matter. -/
theorem dispatch_view (nop : m.readWrite = .nop) :
    (dispatch instruction x pc m).map Execution.view = (dispatch instruction x pc .zero).map Execution.view :=
  (regular_major instruction.opcode).view instruction x ⟨pc,m,[],false⟩ nop

theorem dispatch_taint (handled : dispatch instruction x pc m = .ok e) :
    e.m.tainted_executions = m.tainted_executions :=
  ((regular_major instruction.opcode).keeps instruction x _ e handled).1
theorem dispatch_wasStalled (handled : dispatch instruction x pc m = .ok e) : e.m.wasStalled = m.wasStalled :=
  ((regular_major instruction.opcode).keeps instruction x _ e handled).2.1
theorem dispatch_pc (handled : dispatch instruction x pc m = .ok e) : e.m.pc = m.pc :=
  ((regular_major instruction.opcode).keeps instruction x _ e handled).2.2

theorem dispatch_fits (nop : m.readWrite = .nop) (handled : dispatch instruction x pc m = .ok e) :
    e.m.effect.Fits instruction (decide (decoding_type instruction.opcode ≠ .S)) :=
  (regular_major instruction.opcode).fits instruction x _ e nop handled

/-- A load reads one register. -/
theorem dispatch_load_type (nop : m.readWrite = .nop) (handled : dispatch instruction x pc m = .ok e)
    {reg address : U64} {size : U8} {signExtend : Bool} (load : e.m.effect = .load reg address size signExtend) :
    decoding_type instruction.opcode ≠ .S ∧ decoding_type instruction.opcode ≠ .R := by
  have fits := dispatch_fits nop handled
  rw [load] at fits
  refine ⟨of_decide_eq_true fits.1.2,fun type => ?_⟩
  refine loadless_major type instruction x _ e nop handled ?_
  unfold StageRegM.effect at load
  split at load
  all_goals first
    | assumption
    | cases load

/-- The register written is the one that decode takes for the destination. -/
theorem Effect.Fits.target {effect : Effect} {reg : U64}
    (fits : effect.Fits instruction (decide (decoding_type instruction.opcode ≠ .S)))
    (found : effect.target = some reg) :
    reg = instruction.rd.setWidth 64 ∧ (register_numbers instruction).rd = instruction.rd.setWidth 16 := by
  have same : reg = instruction.rd.setWidth 64 ∧ decoding_type instruction.opcode ≠ .S := by
    cases effect with
    | register => cases found; exact ⟨fits.1,of_decide_eq_true fits.2⟩
    | load => cases found; exact ⟨fits.1.1,of_decide_eq_true fits.1.2⟩
    | _ => cases found
  refine ⟨same.1,?_⟩
  unfold register_numbers
  cases decoded : decoding_type instruction.opcode with
  | S => exact absurd decoded same.2
  | _ => rfl

/-- The operands that decode reads for an instruction of the type are the same. -/
def Agree (type : DecodingType) (x y : Operands) : Prop :=
  (type ≠ .U → x.rs1_value = y.rs1_value) ∧ (type = .S ∨ type = .R → x.rs2_value = y.rs2_value)

theorem Agree.both {type : DecodingType} (kind : type = .S ∨ type = .R) (agree : Agree type x y) : x = y := by
  have first := agree.1 (by rcases kind with rfl | rfl <;> decide)
  have second := agree.2 kind
  cases x; cases y
  simp_all

/-- A handler that looks at no other operand than decode reads for the type. -/
def Reads (h : Handler) (type : DecodingType) : Prop := ∀ i x y e, Agree type x y → h i x e = h i y e

theorem reads_both {h : Handler} {type : DecodingType} (kind : type = .S ∨ type = .R) : Reads h type := by
  intro i x y e agree
  rw [agree.both kind]

theorem reads_first {h : Handler} {type : DecodingType} (kind : type ≠ .U)
    (ignores : ∀ i e a b c, h i ⟨a,b⟩ e = h i ⟨a,c⟩ e) : Reads h type := by
  rintro i ⟨a,b⟩ ⟨a',c⟩ e ⟨first,-⟩
  cases first kind
  exact ignores i e a b c

theorem reads_none {h : Handler} {type : DecodingType} (ignores : ∀ i e x y, h i x e = h i y e) : Reads h type :=
  fun i x y e _ => ignores i e x y

theorem Handles.reads {opcode : BitVec 7} {h : Handler} (handles : Handles opcode h) :
    Reads h (decoding_type opcode) := by
  cases handles with
  | auipc => exact reads_none fun _ _ _ _ => rfl
  | lui => exact reads_none fun _ _ _ _ => rfl
  | jal => exact reads_none fun _ _ _ _ => rfl
  | jalr => exact reads_first (by decide) fun _ _ _ _ _ => rfl
  | load => exact reads_first (by decide) fun _ _ _ _ _ => rfl
  | branch => exact reads_both (.inl rfl)
  | store => exact reads_both (.inl rfl)
  | immediate type one =>
    refine reads_first (by rw [type]; decide) fun i e a b c => ?_
    rw [writes,one i a b c]
    rfl
  | immediate_shift type fixed one =>
    refine reads_first (by rw [type]; decide) fun i e a b c => ?_
    rw [shifts,fixed i a b c,one i a b c]
    rfl
  | register type => exact reads_both (.inr type)
  | register_shift type => exact reads_both (.inr type)
  | division type => exact reads_both (.inr type)
  | nop => exact reads_none fun _ _ _ _ => rfl
  | illegal => exact reads_none fun _ _ _ _ => rfl

/-- No handler looks at an operand that decode does not read for it. -/
theorem dispatch_agree (agree : Agree (decoding_type instruction.opcode) x y) :
    dispatch instruction x pc m = dispatch instruction y pc m := by
  obtain ⟨h,same,handles⟩ := major_chooses instruction.opcode instruction
  rw [dispatch,dispatch,same]
  exact handles.reads instruction x y _ agree

end
end RiscvSim
