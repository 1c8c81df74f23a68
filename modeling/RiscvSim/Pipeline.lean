import RiscvSim.Instructions
import RiscvSim.BranchPredictor

/-!
The five stages (`riscv_virtualizer.c`) and the main loop of the framework. The stages
reach translation, caches and memory through an interface (`MemorySystem`); the buffers
`new_*_reg`, which the loop reuses from cycle to cycle, are part of the state, since a
stage does not always assign every field.
-/
namespace RiscvSim
open Bytes

/-- What the stages call of the TLBs, the caches and memory. `ι` is what a cycle finds in
    the uninitialised locals of the callees. -/
structure MemorySystem (σ ι : Type) where
  /-- `get_address (&itlb, ..)`: the status and the physical address. -/
  itlb_address : σ → ι → U32 → U8 → Except Abort (U8 × U32 × σ)
  /-- `read_access (&instruction_cache, ..)` of four bytes into the word given. -/
  instruction_read : σ → U32 → U32 → Bool → Bool → Except Abort (U8 × U32 × σ)
  dtlb_address : σ → ι → U32 → U8 → Except Abort (U8 × U32 × σ)
  /-- `read_access (&data_cache, ..)`: address, size, object behind `value`. -/
  data_read : σ → U32 → U8 → U64 → Bool → Bool → Except Abort (U8 × U64 × σ)
  /-- `write_access (&data_cache, ..)`: address, data, size. -/
  data_write : σ → U32 → U64 → U8 → Bool → Bool → Except Abort (U8 × σ)
  /-- `memory_dump (&inst, pc, 4)` of the main loop, which may leave `inst` as it is. -/
  inst_at : σ → U64 → U32 → U32
  /-- The assignment to `current_stage`. -/
  enter : σ → Stage → σ
  /-- The end of a cycle. -/
  end_cycle : σ → σ

/-! ### Pipeline registers -/

structure StageRegD where
  pc : U64
  new_pc : U64
  instruction : U32
  not_stalled : Bool
  will_be_stalled : U8
  tlb_stall_status : U8
  deriving DecidableEq, Repr

/-- The register numbers are 16-bit integers, -1 where there is none. -/
structure StageRegX where
  pc : U64
  new_pc : U64
  instruction : Instruction
  not_stalled : Bool
  rs1_value : U64
  rs2_value : U64
  rs1 : U16
  rs2 : U16
  rd : U16
  deriving DecidableEq, Repr

structure StageRegW where
  reg : U64
  value : U64
  op : Bool
  global_memory_stall : U8
  tlb_stall_status : U8
  tainted_executions : U8
  memory_register : StageRegM
  deriving DecidableEq, Repr

def StageRegD.zero : StageRegD := ⟨0,0,0,false,0,0⟩
def StageRegX.zero : StageRegX := ⟨0,0,0,false,0,0,0,0,0⟩
def StageRegW.zero : StageRegW := ⟨0,0,false,0,0,0,.zero⟩

/-- The array `register_file`. -/
abbrev RegisterFile := BitVec 5 → U64

namespace RegisterFile

def register_read_one (file : RegisterFile) (reg : U64) : U64 :=
  if (reg.setWidth 5 : BitVec 5) > 0 then file (reg.setWidth 5) else 0
def register_write (file : RegisterFile) (register_d value_d : U64) : RegisterFile :=
  fun i => if i = register_d.setWidth 5 then value_d else file i

end RegisterFile

/-! ### Fetch -/

section
variable {σ ι : Type} (ms : MemorySystem σ ι)

/-- The D register, the pc, the word delivered with its address, if there was one, and memory. -/
def stage_fetch (mem : σ) (locals : ι) (d : StageRegD) (new_d_reg : StageRegD) (pc : U64) (table : BranchTable) :
    Except Abort (StageRegD × U64 × Option (U64 × U32) × σ) := do
  let (status,physical_pc,mem) ← ms.itlb_address mem locals (pc.setWidth 32)
    (if d.will_be_stalled = 2 then d.tlb_stall_status else 0xFF)
  if status ≠ 0xFE ∧ status ≠ 0xFF then
    -- the other fields keep what the buffer held
    return ({ new_d_reg with will_be_stalled := 2, tlb_stall_status := status },pc,none,mem)
  else
    let (read_status,instruction,mem) ← ms.instruction_read mem physical_pc new_d_reg.instruction
      (d.will_be_stalled == 1) (status == 0xFE)
    if read_status ≠ 0 then
      return (⟨0,0,0,false,if read_status = 2 then 3 else 1,0xFF⟩,pc,none,mem)
    else
      let new_pc := table.predict_address pc
      return ({ new_d_reg with
        pc := pc, new_pc := new_pc, instruction := instruction, not_stalled := true, will_be_stalled := 0 },
        new_pc,some (pc,instruction),mem)

end

/-! ### Decode -/

/-- `decoding_type`: which register fields an instruction has. -/
inductive DecodingType where
  | I | U | S | R
  deriving DecidableEq, Repr

def decoding_type (opcode : BitVec 7) : DecodingType :=
  match opcode with
  | 0b0010111 => .U
  | 0b0110111 => .U
  | 0b1101111 => .U
  | 0b0100011 => .S
  | 0b1100011 => .S
  | 0b0110011 => .R
  | 0b0111011 => .R
  | _ => .I

/-- The numbers `rs1`, `rs2` and `rd`. -/
structure RegisterNumbers where
  rs1 : U16
  rs2 : U16
  rd : U16
  deriving DecidableEq, Repr

def register_numbers (instruction : Instruction) : RegisterNumbers :=
  match decoding_type instruction.opcode with
  | .I => ⟨instruction.rs1.setWidth 16,-1,instruction.rd.setWidth 16⟩
  | .U => ⟨-1,-1,instruction.rd.setWidth 16⟩
  | .S => ⟨instruction.rs1.setWidth 16,instruction.rs2.setWidth 16,-1⟩
  | .R => ⟨instruction.rs1.setWidth 16,instruction.rs2.setWidth 16,instruction.rd.setWidth 16⟩

/-- The comparison of a register of 64 bits with a register number. -/
def isRegister (reg : U64) (number : U16) : Bool := reg == number.signExtend 64

/-- The values of `forwarded_register_read_single`. -/
inductive Forwarded where
  | none | value (v : U64) | stall
  deriving DecidableEq, Repr

/-- The current X, M and W registers are looked at in this order. -/
def forwarded_register_read_single (x : StageRegX) (m : StageRegM) (w : StageRegW) (reg : U64) : Forwarded :=
  if isRegister reg x.rd then .stall
  else if m.readWrite = .register_write ∧ m.reg = reg then .value m.value
  else if w.reg = reg then .value w.value
  else .none

/-- The values of both registers, or `none` to stall. -/
def forwarded_register_read (x : StageRegX) (m : StageRegM) (w : StageRegW) (file : RegisterFile) (a b : U64) :
    Option (U64 × U64) :=
  match forwarded_register_read_single x m w a,forwarded_register_read_single x m w b with
  | .stall,_ => none
  | _,.stall => none
  | .value va,.value vb => some (va,vb)
  | .value va,.none => some (va,file.register_read_one b)
  | .none,.value vb => some (file.register_read_one a,vb)
  | .none,.none => some (file.register_read_one a,file.register_read_one b)

/-- The operands that an instruction is issued with, or `none` if it has to wait: for a
    load in M, or for the instruction in X. -/
def operands (instruction : Instruction) (x : StageRegX) (m : StageRegM) (w : StageRegW) (file : RegisterFile) :
    Option (U64 × U64) :=
  let r := register_numbers instruction
  if m.readWrite = .memory_read ∧ (isRegister m.reg r.rs1 ∨ isRegister m.reg r.rs2 ∨ isRegister m.reg r.rd) then none
  else if r.rs1 = -1 ∧ r.rs2 = -1 then some (-1,-1)
  else if r.rs1 ≠ -1 ∧ r.rs2 = -1 then
    -- the second read is of x0, and its value dropped
    (forwarded_register_read x m w file (instruction.rs1.setWidth 64) 0).map fun v => (v.1,-1)
  else forwarded_register_read x m w file (instruction.rs1.setWidth 64) (instruction.rs2.setWidth 64)

/-- The X register and the pc. A stall fetches the instruction again. -/
def stage_decode (d : StageRegD) (x : StageRegX) (m : StageRegM) (w : StageRegW) (new_x_reg : StageRegX)
    (file : RegisterFile) (pc : U64) : StageRegX × U64 :=
  if d.not_stalled = false ∨ w.global_memory_stall ≠ 0 then ({ new_x_reg with not_stalled := false },pc)
  else
    let r := register_numbers d.instruction
    match operands d.instruction x m w file with
    | none => (⟨d.pc,d.new_pc,d.instruction,false,-1,-1,-1,-1,-1⟩,d.pc)
    | some (rs1_value,rs2_value) =>
      (⟨d.pc,d.new_pc,d.instruction,true,rs1_value,rs2_value,r.rs1,r.rs2,r.rd⟩,pc)

/-! ### Execute -/

/-- The M register, the pc, the branch table and the instruction dispatched, if one was. -/
def stage_execute (x : StageRegX) (m : StageRegM) (w : StageRegW) (new_m_reg : StageRegM) (pc : U64)
    (table : BranchTable) :
    Except Abort (StageRegM × U64 × BranchTable × Option (U64 × U32)) := do
  if w.global_memory_stall ≠ 0 then
    -- replay of the saved register, with decode flushed
    return ({ w.memory_register with tainted_executions := 1 },w.memory_register.pc,table,none)
  else
    let new_m_reg := { new_m_reg with wasStalled := 0, tainted_executions := 0, readWrite := .nop, pc := x.pc }
    if x.not_stalled = false then return (new_m_reg,pc,table,none)
    else if m.tainted_executions > 0 then
      return ({ new_m_reg with tainted_executions := m.tainted_executions - 1 },pc,table,none)
    else if x.instruction = 0 then return (new_m_reg,pc,table,none)
    else
      let e ← dispatch x.instruction ⟨x.rs1_value,x.rs2_value⟩ (x.pc + 4) new_m_reg
      let mispredict := e.pc ≠ x.new_pc
      return (if mispredict then { e.m with tainted_executions := 1 } else e.m,
        if mispredict then e.pc else pc,
        if e.pc ≠ x.pc + 4 then table.update_entry x.pc e.pc (e.pc == x.pc + 4) else table,
        some (x.pc,x.instruction))

/-! ### Memory -/

/-- The extension of a loaded value: the sign is tested with `0b1 << (size * 8 - 1)`, an `int`. -/
def extend_sign (size : U8) (value : U64) : U64 :=
  if value &&& ((1 : U32) <<< (size.toNat * 8 - 1)).signExtend 64 ≠ 0 then
    (List.range' size.toNat (8 - size.toNat)).foldl (fun v i => v ||| ((0xFF : U64) <<< (8 * i))) value
  else value

/-- The W register of a bubble. -/
def StageRegW.bubble (w : StageRegW) : StageRegW :=
  { w with value := 0, reg := 0, op := false, global_memory_stall := 0 }

/-- The W register of a stall, with the M register saved. -/
def StageRegW.stall (w : StageRegW) (global_memory_stall tainted_executions : U8) (memory_register : StageRegM) :
    StageRegW :=
  { w with
    value := 0, reg := 0, op := false
    global_memory_stall := global_memory_stall
    tainted_executions := tainted_executions
    memory_register := memory_register }

section
variable {σ ι : Type} (ms : MemorySystem σ ι)

/-- The translation of the address in M, or the W register of a stall on the TLB. -/
def translate (mem : σ) (locals : ι) (m : StageRegM) (new_w_reg : StageRegW) (global_memory_stall : U8) :
    Except Abort ((StageRegW ⊕ (U32 × Bool)) × σ) := do
  let (status,physical_address,mem) ← ms.dtlb_address mem locals (m.address.setWidth 32)
    (if m.wasStalled ≠ 0 then m.stallStatus else 0xFF)
  if status ≠ 0xFE ∧ status ≠ 0xFF then
    return (.inl ({ new_w_reg with tlb_stall_status := status }.stall global_memory_stall 1
      { m with stallStatus := status, wasStalled := 1 }),mem)
  else return (.inr (physical_address,status == 0xFE),mem)

/-- The memory read of a load. -/
def memory_load_stage (mem : σ) (locals : ι) (m : StageRegM) (new_w_reg : StageRegW) : Except Abort (StageRegW × σ) :=
  do
  let (translated,mem) ← translate ms mem locals m new_w_reg 2
  match translated with
  | .inl stalled => return (stalled,mem)
  | .inr (physical_address,memory_read_available) =>
    let (missed,value,mem) ← ms.data_read mem physical_address m.size new_w_reg.value (m.wasStalled == 1)
      memory_read_available
    if missed ≠ 0 then
      return (new_w_reg.stall (if missed = 2 then 4 else 1) 1
        { m with wasStalled := if missed = 2 then 2 else 1, stallStatus := 0xFF },mem)
    else
      return ({ new_w_reg with
        value := if m.signExtend then extend_sign m.size value else value
        reg := m.reg, op := true, global_memory_stall := 0 },mem)

/-- The memory write of a store, and whether it was made. A miss leaves the next
    instruction untainted. -/
def memory_store_stage (mem : σ) (locals : ι) (m : StageRegM) (new_w_reg : StageRegW) :
    Except Abort (StageRegW × Bool × σ) := do
  let (translated,mem) ← translate ms mem locals m new_w_reg 3
  match translated with
  | .inl stalled => return (stalled,false,mem)
  | .inr (physical_address,memory_read_available) =>
    let (missed,mem) ← ms.data_write mem physical_address m.value m.size (m.wasStalled == 1) memory_read_available
    if missed ≠ 0 then
      return (new_w_reg.stall (if missed = 2 then 5 else 1) 0
        { m with wasStalled := if missed = 2 then 2 else 1, stallStatus := 0xFF },false,mem)
    else return (new_w_reg.bubble,true,mem)

/-- The W register, the store made (address, size, value), if one was, and memory. -/
def stage_memory (mem : σ) (locals : ι) (m : StageRegM) (w : StageRegW) (new_w_reg : StageRegW) :
    Except Abort (StageRegW × Option (U64 × U8 × U64) × σ) := do
  if w.tainted_executions > 0 then
    return ({ new_w_reg.bubble with tainted_executions := w.tainted_executions - 1 },none,mem)
  else
    let new_w_reg := { new_w_reg with tainted_executions := 0 }
    match m.readWrite with
    | .register_write =>
      return ({ new_w_reg with reg := m.reg, value := m.value, op := true, global_memory_stall := 0 },none,mem)
    | .memory_read =>
      let (new_w_reg,mem) ← memory_load_stage ms mem locals m new_w_reg
      return (new_w_reg,none,mem)
    | .memory_write =>
      let (new_w_reg,made,mem) ← memory_store_stage ms mem locals m new_w_reg
      return (new_w_reg,if made then some (m.address,m.size,m.value) else none,mem)
    | .nop => return (new_w_reg.bubble,none,mem)

/-! ### The main loop -/

def stage_writeback (w : StageRegW) (file : RegisterFile) : RegisterFile :=
  if w.op then file.register_write w.reg w.value else file

/-- The state of the simulator between two cycles. -/
structure Pipeline (σ : Type) where
  cur_d_reg : StageRegD
  cur_x_reg : StageRegX
  cur_m_reg : StageRegM
  cur_w_reg : StageRegW
  new_d_reg : StageRegD
  new_x_reg : StageRegX
  new_m_reg : StageRegM
  new_w_reg : StageRegW
  inst : U32
  program_counter : U64
  register_file : RegisterFile
  branch_table : BranchTable
  mem : σ

/-- What a cycle did: the register written back, the store made, the word delivered by
    fetch, the one presented to decode and the one dispatched by execute, each with its address. -/
structure Events where
  written : Option (U64 × U64)
  stored : Option (U64 × U8 × U64)
  delivered : Option (U64 × U32)
  presented : Option (U64 × U32)
  dispatched : Option (U64 × U32)
  deriving DecidableEq, Repr

def RISCV_INSTR_EBREAK : U32 := 0x00100073

/-- The stages of a cycle, in the order of the loop. -/
def stages (s : Pipeline σ) (locals : ι) : Except Abort (Pipeline σ × Events) := do
  let file := stage_writeback s.cur_w_reg s.register_file
  let (w,stored,mem) ← stage_memory ms (ms.enter s.mem .M) locals s.cur_m_reg s.cur_w_reg s.new_w_reg
  let (m,pc,table,dispatched) ←
    stage_execute s.cur_x_reg s.cur_m_reg s.cur_w_reg s.new_m_reg s.program_counter s.branch_table
  let (x,pc) := stage_decode s.cur_d_reg s.cur_x_reg s.cur_m_reg s.cur_w_reg s.new_x_reg file pc
  let (d,pc,delivered,mem) ← stage_fetch ms (ms.enter mem .F) locals s.cur_d_reg s.new_d_reg pc table
  return (⟨d,x,m,w,d,x,m,w,s.inst,pc,file,table,ms.end_cycle mem⟩,{
    written := if s.cur_w_reg.op then some (s.cur_w_reg.reg,s.cur_w_reg.value) else none
    stored := stored
    delivered := delivered
    presented := if s.cur_d_reg.not_stalled then some (s.cur_d_reg.pc,s.cur_d_reg.instruction) else none
    dispatched := dispatched })

/-- One turn of the loop of `simulator_execute_instructions`, with what it did added to
    the log. At an EBREAK the loop ends, and any further turn would find it again. -/
def cycle (s : Pipeline σ × List Events) (locals : ι) : Except Abort (Pipeline σ × List Events) := do
  let inst := ms.inst_at s.1.mem s.1.program_counter s.1.inst
  if inst = RISCV_INSTR_EBREAK then return ({ s.1 with inst := inst },s.2)
  else
    let (p,events) ← stages ms { s.1 with inst := inst } locals
    return (p,s.2 ++ [events])

/-- The locals of `simulator_execute_instructions`, which nothing initialises. -/
structure LoopLocals where
  new_d_reg : StageRegD
  new_x_reg : StageRegX
  new_m_reg : StageRegM
  new_w_reg : StageRegW
  inst : U32

def zeroBuffers : LoopLocals := ⟨.zero,.zero,.zero,.zero,0⟩

/-- The zeroed registers and branch table of static storage, and nothing done. -/
def Pipeline.initial (mem : σ) (pc : U64) (file : RegisterFile) (buffers : LoopLocals) : Pipeline σ × List Events :=
  (⟨.zero,.zero,.zero,.zero,buffers.new_d_reg,buffers.new_x_reg,buffers.new_m_reg,buffers.new_w_reg,
    buffers.inst,pc,file,.zero,mem⟩,[])

end
end RiscvSim
