import RiscvSim.Pipeline
import RiscvSim.Runs

/-!
What each stage can do, as one inductive predicate for a stage: a constructor for every
way out of the C function, with what must hold to take it.
-/
namespace RiscvSim
open Bytes Runs

/-- The M register of an execute stage that dispatched nothing. -/
def StageRegM.idle (new_m_reg : StageRegM) (pc : U64) (tainted_executions : U8) : StageRegM :=
  { new_m_reg with wasStalled := 0, tainted_executions := tainted_executions, readWrite := .nop, pc := pc }

/-- The ways out of `stage_execute`. -/
inductive Executes (x : StageRegX) (m : StageRegM) (w : StageRegW) (new_m_reg : StageRegM) (pc : U64)
    (table : BranchTable) :
    StageRegM × U64 × BranchTable × Option (U64 × U32) → Prop
  | replays (stall : w.global_memory_stall ≠ 0) :
    Executes x m w new_m_reg pc table
      ({ w.memory_register with tainted_executions := 1 },w.memory_register.pc,table,none)
  | bubble (flows : w.global_memory_stall = 0) (empty : x.not_stalled = false) :
    Executes x m w new_m_reg pc table (new_m_reg.idle x.pc 0,pc,table,none)
  | squashes (flows : w.global_memory_stall = 0) (holds : x.not_stalled = true) (tainted : m.tainted_executions > 0) :
    Executes x m w new_m_reg pc table (new_m_reg.idle x.pc (m.tainted_executions - 1),pc,table,none)
  | skips (flows : w.global_memory_stall = 0) (holds : x.not_stalled = true) (clean : ¬ m.tainted_executions > 0)
    (zero : x.instruction = 0) :
    Executes x m w new_m_reg pc table (new_m_reg.idle x.pc 0,pc,table,none)
  | dispatches (flows : w.global_memory_stall = 0) (holds : x.not_stalled = true) (clean : ¬ m.tainted_executions > 0)
    (word : x.instruction ≠ 0) (e : Execution)
    (handled : dispatch x.instruction ⟨x.rs1_value,x.rs2_value⟩ (x.pc + 4) (new_m_reg.idle x.pc 0) = .ok e) :
    Executes x m w new_m_reg pc table
      (if e.pc ≠ x.new_pc then { e.m with tainted_executions := 1 } else e.m,
        if e.pc ≠ x.new_pc then e.pc else pc,
        if e.pc ≠ x.pc + 4 then table.update_entry x.pc e.pc (e.pc == x.pc + 4) else table,
        some (x.pc,x.instruction))

theorem stage_execute_executes {x : StageRegX} {m : StageRegM} {w : StageRegW} {new_m_reg : StageRegM} {pc : U64}
    {table : BranchTable} {r : StageRegM × U64 × BranchTable × Option (U64 × U32)}
    (executed : stage_execute x m w new_m_reg pc table = .ok r) : Executes x m w new_m_reg pc table r := by
  unfold stage_execute at executed
  by_cases stall : w.global_memory_stall ≠ 0
  · rw [if_pos stall] at executed
    cases executed
    exact .replays stall
  have flows : w.global_memory_stall = 0 := not_not.mp stall
  rw [if_neg stall] at executed
  by_cases empty : x.not_stalled = false
  · rw [if_pos empty] at executed
    cases executed
    exact .bubble flows empty
  have holds : x.not_stalled = true := by simpa using empty
  rw [if_neg empty] at executed
  by_cases tainted : m.tainted_executions > 0
  · rw [if_pos tainted] at executed
    cases executed
    exact .squashes flows holds tainted
  rw [if_neg tainted] at executed
  by_cases zero : x.instruction = 0
  · rw [if_pos zero] at executed
    cases executed
    exact .skips flows holds tainted zero
  rw [if_neg zero] at executed
  obtain ⟨e,handled,rest⟩ := bind_ok.mp executed
  cases rest
  exact .dispatches flows holds tainted zero e handled

theorem executes_replays {x : StageRegX} {m : StageRegM} {w : StageRegW} {new_m_reg : StageRegM} {pc : U64}
    {table : BranchTable} {r : StageRegM × U64 × BranchTable × Option (U64 × U32)}
    (executed : Executes x m w new_m_reg pc table r) (stall : w.global_memory_stall ≠ 0) :
    r = ({ w.memory_register with tainted_executions := 1 },w.memory_register.pc,table,none) := by
  cases executed with
  | replays => rfl
  | bubble flows => exact absurd flows stall
  | squashes flows => exact absurd flows stall
  | skips flows => exact absurd flows stall
  | dispatches flows => exact absurd flows stall

/-- The ways out of `stage_decode`. -/
inductive Decodes (d : StageRegD) (x : StageRegX) (m : StageRegM) (w : StageRegW) (new_x_reg : StageRegX)
    (file : RegisterFile) (pc : U64) : StageRegX × U64 → Prop
  | bubble (empty : d.not_stalled = false ∨ w.global_memory_stall ≠ 0) :
    Decodes d x m w new_x_reg file pc ({ new_x_reg with not_stalled := false },pc)
  | waits (holds : d.not_stalled = true) (flows : w.global_memory_stall = 0)
    (busy : operands d.instruction x m w file = none) :
    Decodes d x m w new_x_reg file pc (⟨d.pc,d.new_pc,d.instruction,false,-1,-1,-1,-1,-1⟩,d.pc)
  | issues (holds : d.not_stalled = true) (flows : w.global_memory_stall = 0) (rs1_value rs2_value : U64)
    (ready : operands d.instruction x m w file = some (rs1_value,rs2_value)) :
    Decodes d x m w new_x_reg file pc
      (⟨d.pc,d.new_pc,d.instruction,true,rs1_value,rs2_value,(register_numbers d.instruction).rs1,
        (register_numbers d.instruction).rs2,(register_numbers d.instruction).rd⟩,pc)

theorem stage_decode_decodes (d : StageRegD) (x : StageRegX) (m : StageRegM) (w : StageRegW) (new_x_reg : StageRegX)
    (file : RegisterFile) (pc : U64) : Decodes d x m w new_x_reg file pc (stage_decode d x m w new_x_reg file pc) := by
  unfold stage_decode
  by_cases empty : d.not_stalled = false ∨ w.global_memory_stall ≠ 0
  · rw [if_pos empty]
    exact .bubble empty
  rw [if_neg empty]
  have holds : d.not_stalled = true := by
    cases held : d.not_stalled with
    | false => exact absurd (.inl held) empty
    | true => rfl
  have flows : w.global_memory_stall = 0 := by
    by_contra stall
    exact empty (.inr stall)
  cases found : operands d.instruction x m w file with
  | none => exact .waits holds flows found
  | some v => exact .issues holds flows v.1 v.2 found

theorem decodes_stalled {d : StageRegD} {x : StageRegX} {m : StageRegM} {w : StageRegW} {new_x_reg : StageRegX}
    {file : RegisterFile} {pc : U64} {r : StageRegX × U64} (decoded : Decodes d x m w new_x_reg file pc r)
    (stall : w.global_memory_stall ≠ 0) :
    r = ({ new_x_reg with not_stalled := false },pc) := by
  cases decoded with
  | bubble => rfl
  | waits holds flows => exact absurd flows stall
  | issues holds flows => exact absurd flows stall

section
variable {σ ι : Type} {ms : MemorySystem σ ι}

/-- The status that fetch hands to the walk. -/
def StageRegD.walk_status (d : StageRegD) : U8 := if d.will_be_stalled = 2 then d.tlb_stall_status else 0xFF

/-- The ways out of `stage_fetch`. -/
inductive Fetches (ms : MemorySystem σ ι) (mem : σ) (locals : ι) (d new_d_reg : StageRegD) (pc : U64)
    (table : BranchTable) :
    StageRegD × U64 × Option (U64 × U32) × σ → Prop
  | walks (status : U8) (physical_pc : U32) (mem' : σ)
    (translated : ms.itlb_address mem locals (pc.setWidth 32) d.walk_status = .ok (status,physical_pc,mem'))
    (unfinished : status ≠ 0xFE ∧ status ≠ 0xFF) :
    Fetches ms mem locals d new_d_reg pc table
      ({ new_d_reg with will_be_stalled := 2, tlb_stall_status := status },pc,none,mem')
  | misses (status : U8) (physical_pc : U32) (mem' : σ) (read_status : U8) (instruction : U32) (mem'' : σ)
    (translated : ms.itlb_address mem locals (pc.setWidth 32) d.walk_status = .ok (status,physical_pc,mem'))
    (finished : status = 0xFE ∨ status = 0xFF)
    (accessed : ms.instruction_read mem' physical_pc new_d_reg.instruction (d.will_be_stalled == 1) (status == 0xFE) =
      .ok (read_status,instruction,mem''))
    (missed : read_status ≠ 0) :
    Fetches ms mem locals d new_d_reg pc table
      (⟨0,0,0,false,if read_status = 2 then 3 else 1,0xFF⟩,pc,none,mem'')
  | delivers (status : U8) (physical_pc : U32) (mem' : σ) (instruction : U32) (mem'' : σ)
    (translated : ms.itlb_address mem locals (pc.setWidth 32) d.walk_status = .ok (status,physical_pc,mem'))
    (finished : status = 0xFE ∨ status = 0xFF)
    (accessed : ms.instruction_read mem' physical_pc new_d_reg.instruction (d.will_be_stalled == 1) (status == 0xFE) =
      .ok (0,instruction,mem'')) :
    Fetches ms mem locals d new_d_reg pc table
      ({ new_d_reg with
        pc := pc, new_pc := table.predict_address pc, instruction := instruction, not_stalled :=
        true, will_be_stalled := 0 },table.predict_address pc,some (pc,instruction),mem'')

theorem stage_fetch_fetches {mem : σ} {locals : ι} {d new_d_reg : StageRegD} {pc : U64} {table : BranchTable}
    {r : StageRegD × U64 × Option (U64 × U32) × σ}
    (fetched : stage_fetch ms mem locals d new_d_reg pc table = .ok r) :
    Fetches ms mem locals d new_d_reg pc table r := by
  unfold stage_fetch at fetched
  obtain ⟨⟨status,physical_pc,mem'⟩,translated,fetched⟩ := bind_ok.mp fetched
  by_cases unfinished : status ≠ 0xFE ∧ status ≠ 0xFF
  · simp only [if_pos unfinished] at fetched
    cases fetched
    exact .walks status physical_pc mem' translated unfinished
  have finished : status = 0xFE ∨ status = 0xFF := by
    by_contra neither
    exact unfinished (not_or.mp neither)
  simp only [if_neg unfinished] at fetched
  obtain ⟨⟨read_status,instruction,mem''⟩,accessed,fetched⟩ := bind_ok.mp fetched
  by_cases missed : read_status ≠ 0
  · simp only [if_pos missed] at fetched
    cases fetched
    exact .misses status physical_pc mem' read_status instruction mem'' translated finished accessed missed
  · simp only [if_neg missed] at fetched
    cases fetched
    rw [not_not.mp missed] at accessed
    exact .delivers status physical_pc mem' instruction mem'' translated finished accessed

/-- The status that memory hands to the walk. -/
def StageRegM.walk_status (m : StageRegM) : U8 := if m.wasStalled ≠ 0 then m.stallStatus else 0xFF

/-- The M register saved by a stall on the TLB, and on the cache with the code given. -/
def StageRegM.walking (m : StageRegM) (status : U8) : StageRegM := { m with stallStatus := status, wasStalled := 1 }
def StageRegM.missing (m : StageRegM) (missed : U8) : StageRegM :=
  { m with wasStalled := if missed = 2 then 2 else 1, stallStatus := 0xFF }

/-- A load or a store. -/
def StageRegM.Accesses (m : StageRegM) : Prop := m.readWrite = .memory_read ∨ m.readWrite = .memory_write
instance (m : StageRegM) : Decidable m.Accesses := instDecidableOr
/-- An access that reads the block it misses: all but stores of a whole block. -/
def StageRegM.Fills (m : StageRegM) : Prop := m.readWrite = .memory_read ∨ m.size ≠ 8
instance (m : StageRegM) : Decidable m.Fills := instDecidableOr

/-- The translation that a load or store asks for. -/
def Translates (ms : MemorySystem σ ι) (mem : σ) (locals : ι) (m : StageRegM) (status : U8) (physical_address : U32)
    (mem' : σ) : Prop :=
  ms.dtlb_address mem locals (m.address.setWidth 32) m.walk_status = .ok (status,physical_address,mem')

/-- The ways out of `stage_memory`. -/
inductive Accesses (ms : MemorySystem σ ι) (mem : σ) (locals : ι) (m : StageRegM) (w new_w_reg : StageRegW) :
    StageRegW × Option (U64 × U8 × U64) × σ → Prop
  | squashes (tainted : w.tainted_executions > 0) :
    Accesses ms mem locals m w new_w_reg
      ({ new_w_reg.bubble with tainted_executions := w.tainted_executions - 1 },none,mem)
  | forwards (clean : ¬ w.tainted_executions > 0) (op : m.readWrite = .register_write) :
    Accesses ms mem locals m w new_w_reg
      ({ new_w_reg with tainted_executions := 0, reg := m.reg, value := m.value, op := true, global_memory_stall := 0 },
        none,mem)
  | idle (clean : ¬ w.tainted_executions > 0) (op : m.readWrite = .nop) :
    Accesses ms mem locals m w new_w_reg ({ new_w_reg with tainted_executions := 0 }.bubble,none,mem)
  | walks (clean : ¬ w.tainted_executions > 0) (code : U8)
    (op : m.readWrite = .memory_read ∧ code = 2 ∨ m.readWrite = .memory_write ∧ code = 3) (status : U8)
    (physical_address : U32) (mem' : σ) (translated : Translates ms mem locals m status physical_address mem')
    (unfinished : status ≠ 0xFE ∧ status ≠ 0xFF) :
    Accesses ms mem locals m w new_w_reg
      ({ new_w_reg with tlb_stall_status := status }.stall code 1 (m.walking status),none,mem')
  | load_misses (clean : ¬ w.tainted_executions > 0) (op : m.readWrite = .memory_read)
    (status : U8) (physical_address : U32) (mem' : σ)
    (translated : Translates ms mem locals m status physical_address mem') (finished : status = 0xFE ∨ status = 0xFF)
    (missed : U8) (value : U64) (mem'' : σ)
    (accessed : ms.data_read mem' physical_address m.size new_w_reg.value (m.wasStalled == 1) (status == 0xFE) =
      .ok (missed,value,mem'')) (stall : missed ≠ 0) :
    Accesses ms mem locals m w new_w_reg (new_w_reg.stall (if missed = 2 then 4 else 1) 1 (m.missing missed),none,mem'')
  | loads (clean : ¬ w.tainted_executions > 0) (op : m.readWrite = .memory_read)
    (status : U8) (physical_address : U32) (mem' : σ)
    (translated : Translates ms mem locals m status physical_address mem') (finished : status = 0xFE ∨ status = 0xFF)
    (value : U64) (mem'' : σ)
    (accessed : ms.data_read mem' physical_address m.size new_w_reg.value (m.wasStalled == 1) (status == 0xFE) =
      .ok (0,value,mem'')) :
    Accesses ms mem locals m w new_w_reg
      ({ new_w_reg with
        tainted_executions := 0
        value := if m.signExtend then extend_sign m.size value else value
        reg := m.reg, op := true, global_memory_stall := 0 },none,mem'')
  | store_misses (clean : ¬ w.tainted_executions > 0) (op : m.readWrite = .memory_write)
    (status : U8) (physical_address : U32) (mem' : σ)
    (translated : Translates ms mem locals m status physical_address mem') (finished : status = 0xFE ∨ status = 0xFF)
    (missed : U8) (mem'' : σ)
    (accessed : ms.data_write mem' physical_address m.value m.size (m.wasStalled == 1) (status == 0xFE) =
      .ok (missed,mem'')) (stall : missed ≠ 0) :
    Accesses ms mem locals m w new_w_reg (new_w_reg.stall (if missed = 2 then 5 else 1) 0 (m.missing missed),none,mem'')
  | stores (clean : ¬ w.tainted_executions > 0) (op : m.readWrite = .memory_write)
    (status : U8) (physical_address : U32) (mem' : σ)
    (translated : Translates ms mem locals m status physical_address mem') (finished : status = 0xFE ∨ status = 0xFF)
    (mem'' : σ)
    (accessed : ms.data_write mem' physical_address m.value m.size (m.wasStalled == 1) (status == 0xFE) =
      .ok (0,mem'')) :
    Accesses ms mem locals m w new_w_reg
      ({ new_w_reg with tainted_executions := 0 }.bubble,some (m.address,m.size,m.value),mem'')

theorem translate_cases {mem : σ} {locals : ι} {m : StageRegM} {new_w_reg : StageRegW} {code : U8}
    {r : (StageRegW ⊕ (U32 × Bool)) × σ} (translated : translate ms mem locals m new_w_reg code = .ok r) :
    ∃ status physical_address, Translates ms mem locals m status physical_address r.2 ∧
      ((status ≠ 0xFE ∧ status ≠ 0xFF) ∧
          r.1 = .inl ({ new_w_reg with tlb_stall_status := status }.stall code 1 (m.walking status)) ∨
        (status = 0xFE ∨ status = 0xFF) ∧ r.1 = .inr (physical_address,status == 0xFE)) := by
  unfold translate at translated
  obtain ⟨⟨status,physical_address,mem'⟩,asked,translated⟩ := bind_ok.mp translated
  by_cases unfinished : status ≠ 0xFE ∧ status ≠ 0xFF
  · simp only [if_pos unfinished] at translated
    cases translated
    exact ⟨status,physical_address,asked,.inl ⟨unfinished,rfl⟩⟩
  · simp only [if_neg unfinished] at translated
    cases translated
    refine ⟨status,physical_address,asked,.inr ⟨?_,rfl⟩⟩
    by_contra neither
    exact unfinished (not_or.mp neither)

theorem stage_memory_accesses {mem : σ} {locals : ι} {m : StageRegM} {w new_w_reg : StageRegW}
    {r : StageRegW × Option (U64 × U8 × U64) × σ} (accessed : stage_memory ms mem locals m w new_w_reg = .ok r) :
    Accesses ms mem locals m w new_w_reg r := by
  unfold stage_memory at accessed
  by_cases tainted : w.tainted_executions > 0
  · rw [if_pos tainted] at accessed
    cases accessed
    exact .squashes tainted
  rw [if_neg tainted] at accessed
  cases op : m.readWrite with
  | nop =>
    simp only [op] at accessed
    cases accessed
    exact .idle tainted op
  | register_write =>
    simp only [op] at accessed
    cases accessed
    exact .forwards tainted op
  | memory_read =>
    simp only [op] at accessed
    obtain ⟨⟨w',mem''⟩,loaded,accessed⟩ := bind_ok.mp accessed
    cases accessed
    obtain ⟨⟨outcome,mem'⟩,translated,loaded⟩ := bind_ok.mp loaded
    obtain ⟨status,physical_address,asked,(⟨unfinished,same⟩ | ⟨finished,same⟩)⟩ := translate_cases translated
    · cases same
      cases loaded
      exact .walks tainted 2 (.inl ⟨op,rfl⟩) status physical_address mem'' asked unfinished
    · cases same
      obtain ⟨⟨missed,value,mem3⟩,read,loaded⟩ := bind_ok.mp loaded
      by_cases stall : missed ≠ 0
      · simp only [if_pos stall] at loaded
        cases loaded
        exact .load_misses tainted op status physical_address mem' asked finished missed value mem'' read stall
      · simp only [if_neg stall] at loaded
        cases loaded
        rw [not_not.mp stall] at read
        exact .loads tainted op status physical_address mem' asked finished value mem'' read
  | memory_write =>
    simp only [op] at accessed
    obtain ⟨⟨w',made,mem''⟩,stored,accessed⟩ := bind_ok.mp accessed
    cases accessed
    obtain ⟨⟨outcome,mem'⟩,translated,stored⟩ := bind_ok.mp stored
    obtain ⟨status,physical_address,asked,(⟨unfinished,same⟩ | ⟨finished,same⟩)⟩ := translate_cases translated
    · cases same
      cases stored
      exact .walks tainted 3 (.inr ⟨op,rfl⟩) status physical_address mem'' asked unfinished
    · cases same
      obtain ⟨⟨missed,mem3⟩,write,stored⟩ := bind_ok.mp stored
      by_cases stall : missed ≠ 0
      · simp only [if_pos stall] at stored
        cases stored
        exact .store_misses tainted op status physical_address mem' asked finished missed mem'' write stall
      · simp only [if_neg stall] at stored
        cases stored
        rw [not_not.mp stall] at write
        exact .stores tainted op status physical_address mem' asked finished mem'' write

/-- The pc that the fetch stage of the cycle finds. -/
def Pipeline.fetch_pc (p : Pipeline σ) : Except Abort U64 := do
  let (_,pc,_,_) ← stage_execute p.cur_x_reg p.cur_m_reg p.cur_w_reg p.new_m_reg p.program_counter p.branch_table
  return (stage_decode p.cur_d_reg p.cur_x_reg p.cur_m_reg p.cur_w_reg p.new_x_reg
    (stage_writeback p.cur_w_reg p.register_file) pc).2

/-- A cycle from `p` to `p'`: memory after the M stage, the pc after X and after D, and
    memory after F are between the stages. -/
structure Staged (ms : MemorySystem σ ι) (p : Pipeline σ) (locals : ι) (memory_mem : σ) (execute_pc decode_pc : U64)
    (fetch_mem : σ) (p' : Pipeline σ) (events : Events) : Prop where
  memory : Accesses ms (ms.enter p.mem .M) locals p.cur_m_reg p.cur_w_reg p.new_w_reg
    (p'.cur_w_reg,events.stored,memory_mem)
  execute : Executes p.cur_x_reg p.cur_m_reg p.cur_w_reg p.new_m_reg p.program_counter p.branch_table
    (p'.cur_m_reg,execute_pc,p'.branch_table,events.dispatched)
  decode : Decodes p.cur_d_reg p.cur_x_reg p.cur_m_reg p.cur_w_reg p.new_x_reg
    (stage_writeback p.cur_w_reg p.register_file)
    execute_pc (p'.cur_x_reg,decode_pc)
  fetch : Fetches ms (ms.enter memory_mem .F) locals p.cur_d_reg p.new_d_reg decode_pc p'.branch_table
    (p'.cur_d_reg,p'.program_counter,events.delivered,fetch_mem)
  fetch_pc : p.fetch_pc = .ok decode_pc
  new_d_reg : p'.new_d_reg = p'.cur_d_reg
  new_x_reg : p'.new_x_reg = p'.cur_x_reg
  new_m_reg : p'.new_m_reg = p'.cur_m_reg
  new_w_reg : p'.new_w_reg = p'.cur_w_reg
  register_file : p'.register_file = stage_writeback p.cur_w_reg p.register_file
  mem : p'.mem = ms.end_cycle fetch_mem
  written : events.written = if p.cur_w_reg.op then some (p.cur_w_reg.reg,p.cur_w_reg.value) else none
  presented : events.presented = if p.cur_d_reg.not_stalled then some (p.cur_d_reg.pc,p.cur_d_reg.instruction) else none

section
variable {p p' : Pipeline σ} {locals : ι} {events : Events}

theorem staged_of {w : StageRegW} {stored : Option (U64 × U8 × U64)} {mem mem' : σ} {m : StageRegM} {pc pc' : U64}
    {table : BranchTable} {dispatched delivered : Option (U64 × U32)} {d : StageRegD}
    (memory : stage_memory ms (ms.enter p.mem .M) locals p.cur_m_reg p.cur_w_reg p.new_w_reg = .ok (w,stored,mem))
    (execute : stage_execute p.cur_x_reg p.cur_m_reg p.cur_w_reg p.new_m_reg p.program_counter p.branch_table =
      .ok (m,pc,table,dispatched))
    (fetch : stage_fetch ms (ms.enter mem .F) locals p.cur_d_reg p.new_d_reg
      (stage_decode p.cur_d_reg p.cur_x_reg p.cur_m_reg
      p.cur_w_reg p.new_x_reg (stage_writeback p.cur_w_reg p.register_file) pc).2 table = .ok (d,pc',delivered,mem'))
    (ran : stages ms p locals = .ok (p',events)) :
    Staged ms p locals mem pc (stage_decode p.cur_d_reg p.cur_x_reg p.cur_m_reg p.cur_w_reg p.new_x_reg
      (stage_writeback p.cur_w_reg p.register_file) pc).2 mem' p' events := by
  unfold stages at ran
  simp only [memory,execute,fetch,ok_bind] at ran
  cases ran
  exact {
    memory := stage_memory_accesses memory
    execute := stage_execute_executes execute
    decode := stage_decode_decodes _ _ _ _ _ _ _
    fetch := stage_fetch_fetches fetch
    fetch_pc := by rw [Pipeline.fetch_pc,execute]; rfl
    new_d_reg := rfl, new_x_reg := rfl, new_m_reg := rfl, new_w_reg := rfl
    register_file := rfl, mem := rfl, written := rfl, presented := rfl }

theorem stages_staged (ran : stages ms p locals = .ok (p',events)) :
    ∃ memory_mem execute_pc decode_pc fetch_mem,
      Staged ms p locals memory_mem execute_pc decode_pc fetch_mem p' events := by
  obtain ⟨⟨w,stored,mem⟩,memory,rest⟩ := bind_ok.mp ran
  obtain ⟨⟨m,pc,table,dispatched⟩,execute,rest⟩ := bind_ok.mp rest
  obtain ⟨⟨d,pc',delivered,mem'⟩,fetch,-⟩ := bind_ok.mp rest
  exact ⟨mem,pc,_,mem',staged_of memory execute fetch ran⟩

end

/-- What a log shows, one cycle later. -/
theorem filterMap_append_single {α β : Type} (f : α → Option β) (l : List α) (a : α) :
    (l ++ [a]).filterMap f = l.filterMap f ++ (f a).toList := by
  rw [List.filterMap_append]
  cases found : f a <;> simp [List.filterMap,found]

/-- A turn of the loop finds the EBREAK, or runs the stages. -/
theorem cycle_cases {s s' : Pipeline σ × List Events} {locals : ι} (stepped : cycle ms s locals = .ok s') :
    (∃ inst, s' = ({ s.1 with inst := inst },s.2)) ∨
      ∃ inst p events, stages ms { s.1 with inst := inst } locals = .ok (p,events) ∧ s' = (p,s.2 ++ [events]) := by
  unfold cycle at stepped
  by_cases stop : ms.inst_at s.1.mem s.1.program_counter s.1.inst = RISCV_INSTR_EBREAK
  · simp only [if_pos stop] at stepped
    cases stepped
    exact .inl ⟨_,rfl⟩
  · simp only [if_neg stop] at stepped
    obtain ⟨⟨p,events⟩,ran,stepped⟩ := bind_ok.mp stepped
    cases stepped
    exact .inr ⟨_,p,events,ran,rfl⟩

/-! ### The end of the loop -/

/-- The next turn of the loop finds the EBREAK. -/
def Pipeline.Stopped (ms : MemorySystem σ ι) (p : Pipeline σ) : Prop :=
  ms.inst_at p.mem p.program_counter p.inst = RISCV_INSTR_EBREAK
instance (p : Pipeline σ) : Decidable (p.Stopped ms) := instDecidableEqBitVec _ _

/-- The word at the pc, read once more over itself, is the same. -/
def MemorySystem.Rereads (ms : MemorySystem σ ι) : Prop :=
  ∀ mem pc inst, ms.inst_at mem pc (ms.inst_at mem pc inst) = ms.inst_at mem pc inst

section
variable {c c' : Pipeline σ × List Events}

theorem stopped_cycle (stopped : c.1.Stopped ms) (locals : ι) :
    cycle ms c locals = .ok ({ c.1 with inst := RISCV_INSTR_EBREAK },c.2) := by
  unfold cycle
  rw [show ms.inst_at c.1.mem c.1.program_counter c.1.inst = RISCV_INSTR_EBREAK from stopped]
  exact if_pos rfl

/-- Every later turn finds it again, so that the loop may as well end. -/
theorem stopped_run (rereads : ms.Rereads) (stopped : c.1.Stopped ms) (inputs : List ι) :
    ∃ inst, run (cycle ms) c inputs = .ok ({ c.1 with inst := inst },c.2) ∧
    ({ c.1 with inst := inst } : Pipeline σ).Stopped ms := by
  induction inputs generalizing c with
  | nil => exact ⟨c.1.inst,rfl,stopped⟩
  | cons locals inputs ih =>
    have again : ({ c.1 with inst := RISCV_INSTR_EBREAK } : Pipeline σ).Stopped ms := by
      have same := rereads c.1.mem c.1.program_counter c.1.inst
      rw [show ms.inst_at c.1.mem c.1.program_counter c.1.inst = RISCV_INSTR_EBREAK from stopped] at same
      exact same
    obtain ⟨inst,ran,still⟩ := ih (c := ({ c.1 with inst := RISCV_INSTR_EBREAK },c.2)) again
    refine ⟨inst,?_,still⟩
    rw [run,stopped_cycle stopped]
    exact ran

/-- A turn that is not stopped adds to the log, and has not read the EBREAK. -/
theorem cycle_goes (goes : ¬ c.1.Stopped ms) {locals : ι} (stepped : cycle ms c locals = .ok c') :
    (∃ events, c'.2 = c.2 ++ [events]) ∧ c'.1.inst ≠ RISCV_INSTR_EBREAK := by
  unfold cycle at stepped
  simp only [if_neg (show ¬ ms.inst_at c.1.mem c.1.program_counter c.1.inst = RISCV_INSTR_EBREAK from goes)] at stepped
  obtain ⟨⟨p,events⟩,ran,stepped⟩ := bind_ok.mp stepped
  cases stepped
  refine ⟨⟨events,rfl⟩,?_⟩
  unfold stages at ran
  obtain ⟨_,-,ran⟩ := bind_ok.mp ran
  obtain ⟨_,-,ran⟩ := bind_ok.mp ran
  obtain ⟨_,-,ran⟩ := bind_ok.mp ran
  cases ran
  exact goes

/-- A run makes all of its cycles, or it makes some of them, the last of which has not read the EBREAK, and stops. -/
theorem run_stops (rereads : ms.Rereads) {inputs : List ι} (ran : run (cycle ms) c inputs = .ok c') :
    ∃ before after p cycles, inputs = before ++ after ∧ run (cycle ms) c before = .ok (p,c'.2) ∧
      c'.2 = c.2 ++ cycles ∧ cycles.length = before.length ∧ (∃ inst, c'.1 = { p with inst := inst }) ∧
      (after = [] ∨ c'.1.Stopped ms ∧ p.Stopped ms ∧ (before = [] ∨ p.inst ≠ RISCV_INSTR_EBREAK)) := by
  induction inputs generalizing c with
  | nil =>
    cases ran
    exact ⟨[],[],c'.1,[],rfl,rfl,(List.append_nil _).symm,rfl,⟨c'.1.inst,rfl⟩,.inl rfl⟩
  | cons locals inputs ih =>
    by_cases stopped : c.1.Stopped ms
    · obtain ⟨inst,all,still⟩ := stopped_run rereads stopped (locals :: inputs)
      cases all.symm.trans ran
      exact ⟨[],locals :: inputs,c.1,[],rfl,rfl,(List.append_nil _).symm,rfl,⟨inst,rfl⟩,.inr ⟨still,stopped,.inl rfl⟩⟩
    · obtain ⟨d,stepped,later⟩ := bind_ok.mp ran
      obtain ⟨⟨events,longer⟩,other⟩ := cycle_goes stopped stepped
      obtain ⟨before,after,p,cycles,rfl,first,log,count,rest,last⟩ := ih later
      refine ⟨locals :: before,after,p,events :: cycles,rfl,bind_ok.mpr ⟨d,stepped,first⟩,?_,by simp [count],rest,
        last.imp_right fun ⟨still,stopped',before'⟩ => ⟨still,stopped',.inr ?_⟩⟩
      · rw [log,longer,List.append_assoc]
        rfl
      · rcases before' with rfl | other'
        · cases first
          exact other
        · exact other'

end

end
end RiscvSim
