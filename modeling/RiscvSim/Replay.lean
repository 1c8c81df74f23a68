import RiscvSim.Delivery

/-!
A load that stalls is executed twice. The stall saves the M register, from where it is replayed,
and sets the pc back to the load, so that the load is fetched again behind its own replay. The way
of both through the pipeline is a machine of five phases (`Load.Phase`). The second execution reads
the base register after the first has written the destination, so the two must be different.
-/
namespace RiscvSim
open Bytes Runs

/-! ### The load and its refetch -/

/-- The size and the extension of a load. -/
def loadOf (instruction : Instruction) : Option (U8 × Bool) :=
  if instruction.opcode = 0b0000011 then
    match instruction.funct3 with
    | 0b000 => some (1,true)
    | 0b001 => some (2,true)
    | 0b010 => some (4,true)
    | 0b011 => some (8,false)
    | 0b100 => some (1,false)
    | 0b101 => some (2,false)
    | 0b110 => some (4,false)
    | _ => none
  else none

/-- A load instruction and where it is. -/
structure Load where
  instruction : Instruction
  pc : U64
  size : U8
  signExtend : Bool
  kind : loadOf instruction = some (size,signExtend)

theorem loadOf_opcode {i : Instruction} {kind : U8 × Bool} (is_load : loadOf i = some kind) : i.opcode = 0b0000011 := by
  unfold loadOf at is_load
  split at is_load
  · assumption
  · cases is_load

/-- The handler of a load is that of its size and extension. -/
theorem loadOf_dispatch {i : Instruction} {size : U8} {signExtend : Bool} (is_load : loadOf i = some (size,signExtend))
    (x : Operands) (pc : U64) (m : StageRegM) : dispatch i x pc m = load size signExtend i x ⟨pc,m,[],false⟩ := by
  have opcode := loadOf_opcode is_load
  rw [dispatch,opcode]
  show riscv_load_dispatch i x ⟨pc,m,[],false⟩ = _
  unfold riscv_load_dispatch
  rw [loadOf,if_pos opcode] at is_load
  split at is_load
  all_goals first
    | (cases is_load; rename_i funct3; simp only [funct3]; rfl)
    | cases is_load

theorem loadOf_sizes {i : Instruction} {size : U8} {signExtend : Bool} (is_load : loadOf i = some (size,signExtend)) :
    (size.toNat ≤ 4 ∨ size = 8) ∧ (signExtend = true → size = 1 ∨ size = 2 ∨ size = 4) := by
  rw [loadOf,if_pos (loadOf_opcode is_load)] at is_load
  split at is_load
  all_goals first
    | (cases is_load; decide)
    | cases is_load

/-- A bubble in W. -/
structure StageRegW.Empty (w : StageRegW) : Prop where
  reg : w.reg = 0
  value : w.value = 0
  op : w.op = false
  flows : w.global_memory_stall = 0
  clean : w.tainted_executions = 0

namespace Load
variable {φ : Type} (l : Load)

/-- The destination and the base register. -/
def rd : U64 := l.instruction.rd.setWidth 64
def rs1 : U64 := l.instruction.rs1.setWidth 64
/-- The address, from the value of the base register. -/
def address (rs1_old : U64) : U64 := rs1_old + extended12 l.instruction.i_imm

/-- The M register is that of the load, or of a replay of it. -/
def InMemory (m : StageRegM) : Prop := m.readWrite = .memory_read ∧ m.reg = l.rd ∧ m.pc = l.pc
instance (m : StageRegM) : Decidable (l.InMemory m) := instDecidableAnd
/-- The M register is what the handler prepares for the operand. -/
structure Prepared (rs1_old : U64) (m : StageRegM) : Prop where
  held : l.InMemory m
  address : m.address = l.address rs1_old
  size : m.size = l.size
  signExtend : m.signExtend = l.signExtend

/-- The load is to be fetched again, or is in the D register. -/
def Pending (p : Pipeline (MemoryState φ)) : Prop :=
  p.cur_d_reg.not_stalled = false ∧ p.program_counter = l.pc ∨
    p.cur_d_reg.not_stalled = true ∧ p.cur_d_reg.pc = l.pc ∧ p.cur_d_reg.instruction = l.instruction

/-- The load has been issued with the operand. -/
structure Issued (rs1_old : U64) (x : StageRegX) : Prop where
  holds : x.not_stalled = true
  pc : x.pc = l.pc
  instruction : x.instruction = l.instruction
  rs1_value : x.rs1_value = rs1_old

/-- Where the load and its refetch are: saved in W; replayed in M, with the refetch behind it;
    returned, with the refetch not issued; issued again; and in M again. -/
inductive Phase (rs1_old : U64) (p : Pipeline (MemoryState φ)) : Prop where
  | saved (stall : p.cur_w_reg.global_memory_stall ≠ 0) (flush : p.cur_w_reg.tainted_executions = 1)
    (op : p.cur_w_reg.op = false) (held : l.InMemory p.cur_w_reg.memory_register)
  | replayed (w : p.cur_w_reg.Empty) (held : l.InMemory p.cur_m_reg) (x : p.cur_x_reg.not_stalled = false)
    (refetch : l.Pending p)
  | returned (flows : p.cur_w_reg.global_memory_stall = 0) (clean : p.cur_w_reg.tainted_executions = 0)
    (forwards : p.cur_w_reg.reg = l.rs1 → p.cur_w_reg.value = rs1_old)
    (m : p.cur_m_reg.readWrite = .nop ∧ p.cur_m_reg.tainted_executions = 0) (x : p.cur_x_reg.not_stalled = false)
    (refetch : l.Pending p)
  | issued (w : p.cur_w_reg.Empty) (m : p.cur_m_reg.readWrite = .nop ∧ p.cur_m_reg.tainted_executions = 0)
    (x : l.Issued rs1_old p.cur_x_reg)
  | executed (w : p.cur_w_reg.Empty) (m : l.Prepared rs1_old p.cur_m_reg)

/-- The load has not drained. The base register keeps its value meanwhile. -/
structure Draining (rs1_old : U64) (p : Pipeline (MemoryState φ)) : Prop where
  phase : l.Phase rs1_old p
  base : (stage_writeback p.cur_w_reg p.register_file).register_read_one l.rs1 = rs1_old
  buffer : p.new_w_reg = p.cur_w_reg

end Load

/-! ### One cycle -/

theorem register_write_other {file : RegisterFile} {r q : BitVec 5} (other : q ≠ r) (value : U64) :
    (file.register_write (q.setWidth 64) value).register_read_one (r.setWidth 64) = file.register_read_one
    (r.setWidth 64) := by
  rw [RegisterFile.register_read_one,RegisterFile.register_read_one,RegisterFile.register_write,
    setWidth_five,setWidth_five,if_neg other.symm]

/-- A word is delivered under the address that fetch asks for. -/
theorem fetches_at {σ ι : Type} {ms : MemorySystem σ ι} {mem mem' : σ} {locals : ι} {d new_d_reg d' : StageRegD}
    {pc pc' at' : U64} {table : BranchTable} {word : U32}
    (fetched : Fetches ms mem locals d new_d_reg pc table (d',pc',some (at',word),mem')) :
    at' = pc := by
  cases fetched
  rfl

/-- Without a delivery the pc stays. -/
theorem fetches_stays {σ ι : Type} {ms : MemorySystem σ ι} {mem mem' : σ} {locals : ι}
    {d new_d_reg d' : StageRegD} {pc pc' : U64} {table : BranchTable}
    (fetched : Fetches ms mem locals d new_d_reg pc table (d',pc',none,mem')) : pc' = pc := by
  cases fetched with
  | walks => rfl
  | misses => rfl

/-- A stage that is flushed, or has nothing to do, leaves a bubble. -/
theorem accesses_empty {σ ι : Type} {ms : MemorySystem σ ι} {mem : σ} {locals : ι} {m : StageRegM}
    {w new_w_reg : StageRegW} {r : StageRegW × Option (U64 × U8 × U64) × σ}
    (rests : w.tainted_executions = 1 ∨ w.tainted_executions = 0 ∧ m.readWrite = .nop)
    (accessed : Accesses ms mem locals m w new_w_reg r) : r.1.Empty ∧ r.2.1 = none := by
  have busy (unsquashed : ¬ w.tainted_executions > 0) {op : ReadWrite} (does : m.readWrite = op) (other : op ≠ .nop)
      {P : Prop} : P := by
    rcases rests with flush | ⟨-,nop⟩
    · rw [flush] at unsquashed
      exact absurd (by decide) unsquashed
    · exact absurd (does.symm.trans nop) other
  cases accessed with
  | squashes tainted =>
    have left : w.tainted_executions - 1 = 0 := by
      rcases rests with flush | ⟨clean,-⟩
      · rw [flush]
        rfl
      · rw [clean] at tainted
        exact absurd tainted (by decide)
    exact ⟨⟨rfl,rfl,rfl,rfl,left⟩,rfl⟩
  | idle => exact ⟨⟨rfl,rfl,rfl,rfl,rfl⟩,rfl⟩
  | walks unsquashed code op =>
    exact op.elim (fun op => busy unsquashed op.1 nofun) (fun op => busy unsquashed op.1 nofun)
  | forwards unsquashed op => exact busy unsquashed op nofun
  | load_misses unsquashed op => exact busy unsquashed op nofun
  | loads unsquashed op => exact busy unsquashed op nofun
  | store_misses unsquashed op => exact busy unsquashed op nofun
  | stores unsquashed op => exact busy unsquashed op nofun

/-- A bubble in X leaves M idle. -/
theorem executes_empty {x : StageRegX} {m : StageRegM} {w : StageRegW} {new_m_reg : StageRegM} {pc : U64}
    {table : BranchTable} {r : StageRegM × U64 × BranchTable × Option (U64 × U32)} (flows : w.global_memory_stall = 0)
    (empty : x.not_stalled = false) (executed : Executes x m w new_m_reg pc table r) :
    (r.1.readWrite = .nop ∧ r.1.tainted_executions = 0) ∧ r.2.1 = pc := by
  cases executed with
  | replays stall => exact absurd flows stall
  | bubble => exact ⟨⟨rfl,rfl⟩,rfl⟩
  | squashes _ holds => cases empty.symm.trans holds
  | skips _ holds => cases empty.symm.trans holds
  | dispatches _ holds => cases empty.symm.trans holds

/-- Behind a stall, or with an empty D register, decode leaves a bubble. -/
theorem decodes_empty {d : StageRegD} {x : StageRegX} {m : StageRegM} {w : StageRegW} {new_x_reg : StageRegX}
    {file : RegisterFile} {pc : U64} {r : StageRegX × U64} (empty : d.not_stalled = false ∨ w.global_memory_stall ≠ 0)
    (decoded : Decodes d x m w new_x_reg file pc r) :
    r.1.not_stalled = false ∧ r.2 = pc := by
  have busy (holds : d.not_stalled = true) (flows : w.global_memory_stall = 0) {P : Prop} : P :=
    empty.elim (fun empty => nomatch empty.symm.trans holds) (fun stall => absurd flows stall)
  cases decoded with
  | bubble => exact ⟨rfl,rfl⟩
  | waits holds flows => exact busy holds flows
  | issues holds flows => exact busy holds flows

/-- A load stalls and is saved, or is done. -/
inductive LoadAccesses {σ ι : Type} (ms : MemorySystem σ ι) (mem : σ) (locals : ι) (m : StageRegM)
    (new_w_reg w' : StageRegW) (mem'' : σ) : Prop where
  | stalls (stall : w'.global_memory_stall ≠ 0) (flush : w'.tainted_executions = 1) (op : w'.op = false)
    (saved : ∃ wasStalled stallStatus, w'.memory_register =
      { m with wasStalled := wasStalled, stallStatus := stallStatus })
  | done (status : U8) (physical_address : U32) (mem' : σ)
    (translated : Translates ms mem locals m status physical_address mem')
    (finished : status = 0xFE ∨ status = 0xFF) (value : U64)
    (read : ms.data_read mem' physical_address m.size new_w_reg.value (m.wasStalled == 1) (status == 0xFE) =
      .ok (0,value,mem''))
    (result : w' = { new_w_reg with
      tainted_executions := 0
      value := if m.signExtend then extend_sign m.size value else value
      reg := m.reg, op := true, global_memory_stall := 0 })

theorem accesses_load {σ ι : Type} {ms : MemorySystem σ ι} {mem : σ} {locals : ι} {m : StageRegM}
    {w new_w_reg : StageRegW} {r : StageRegW × Option (U64 × U8 × U64) × σ} (load : m.readWrite = .memory_read)
    (clean : w.tainted_executions = 0) (accessed : Accesses ms mem locals m w new_w_reg r) :
    LoadAccesses ms mem locals m new_w_reg r.1 r.2.2 ∧ r.2.1 = none := by
  cases accessed with
  | squashes tainted => rw [clean] at tainted; exact absurd tainted (by decide)
  | walks unsquashed code op status physical_address mem' =>
    have set : code ≠ 0 := by rcases op with ⟨-,rfl⟩ | ⟨-,rfl⟩ <;> decide
    exact ⟨.stalls set rfl rfl ⟨_,_,rfl⟩,rfl⟩
  | load_misses unsquashed op status physical_address mem' translated finished missed value mem'' =>
    have set : (if missed = 2 then 4 else 1 : U8) ≠ 0 := by split <;> decide
    exact ⟨.stalls set rfl rfl ⟨_,_,rfl⟩,rfl⟩
  | loads unsquashed op status physical_address mem' translated finished value mem'' read =>
    exact ⟨.done status physical_address mem' translated finished value read rfl,rfl⟩
  | forwards unsquashed op => cases load.symm.trans op
  | idle unsquashed op => cases load.symm.trans op
  | store_misses unsquashed op => cases load.symm.trans op
  | stores unsquashed op => cases load.symm.trans op

namespace Load
variable {φ : Type} {b : Backing φ} {l : Load} {rs1_old : U64} {p p' : Pipeline (MemoryState φ)} {locals : CalleeLocals}
  {memory_mem fetch_mem : MemoryState φ} {execute_pc decode_pc : U64} {events : Events}

/-- A fetch at the address of the load delivers the load, or is made again. -/
theorem refetches (fresh : FetchesFresh p) (word : ∀ word, events.delivered = some (l.pc,word) → word = l.instruction)
    (here : decode_pc = l.pc)
    (staged : Staged (simulatorOver b) p locals memory_mem execute_pc decode_pc fetch_mem p' events) :
    l.Pending p' := by
  have held := staged_held fresh staged
  have fetch := staged.fetch
  rw [StageRegD.held] at held
  cases delivered : events.delivered with
  | none =>
    rw [delivered] at held fetch
    left
    constructor
    · cases holds : p'.cur_d_reg.not_stalled with
      | false => rfl
      | true => simp [holds] at held
    · rw [fetches_stays fetch,here]
  | some at_word =>
    rw [delivered] at held fetch
    right
    cases holds : p'.cur_d_reg.not_stalled with
    | false => simp [holds] at held
    | true =>
      simp only [holds,if_true,Option.toList_some,List.cons.injEq,and_true] at held
      subst held
      have pc : p'.cur_d_reg.pc = l.pc := (fetches_at fetch).trans here
      exact ⟨rfl,pc,word _ (by rw [delivered,pc])⟩

/-- The base register keeps its value if W holds a bubble or writes the destination. -/
theorem base_kept (apart : l.instruction.rd ≠ l.instruction.rs1) (draining : l.Draining rs1_old p)
    (staged : Staged (simulatorOver b) p locals memory_mem execute_pc decode_pc fetch_mem p' events)
    (writes : p'.cur_w_reg.op = false ∨ p'.cur_w_reg.reg = l.rd) :
    (stage_writeback p'.cur_w_reg p'.register_file).register_read_one l.rs1 = rs1_old := by
  rw [staged.register_file,← draining.base]
  rcases writes with bubble | reg
  · rw [stage_writeback,bubble]
    rfl
  · generalize stage_writeback p.cur_w_reg p.register_file = file
    unfold stage_writeback
    split
    · rw [reg,rd,rs1,register_write_other apart]
    · rfl

/-- x0 is zero, so a bubble forwards the right value for it. -/
theorem bubble_forwards {w : StageRegW} (bubble : w.Empty) {file : RegisterFile}
    (base : file.register_read_one l.rs1 = rs1_old) (reg : w.reg = l.rs1) : w.value = rs1_old := by
  rw [← base,← reg,bubble.reg,bubble.value]
  rfl

/-- The saved load is replayed, and fetched again. -/
theorem saved_step (apart : l.instruction.rd ≠ l.instruction.rs1)
    (refetched : decode_pc = l.pc → l.Pending p') (draining : l.Draining rs1_old p)
    (stall : p.cur_w_reg.global_memory_stall ≠ 0) (flush : p.cur_w_reg.tainted_executions = 1)
    (held : l.InMemory p.cur_w_reg.memory_register)
    (staged : Staged (simulatorOver b) p locals memory_mem execute_pc decode_pc fetch_mem p' events) :
    l.Draining rs1_old p' ∧ events.stored = none := by
  obtain ⟨empty,none⟩ := accesses_empty (.inl flush) staged.memory
  have replays := executes_replays staged.execute stall
  obtain ⟨bubble,kept⟩ := decodes_empty (.inr stall) staged.decode
  have moved : execute_pc = p.cur_w_reg.memory_register.pc := congrArg (·.2.1) replays
  have here : decode_pc = l.pc := kept.trans (moved.trans held.2.2)
  have again : l.InMemory p'.cur_m_reg := by
    rw [show p'.cur_m_reg = _ from congrArg (·.1) replays]
    exact held
  exact ⟨⟨.replayed empty again bubble (refetched here),base_kept apart draining staged (.inl empty.op),
    staged.new_w_reg⟩,none⟩

/-- What a stall saves is still the load. -/
theorem InMemory.saved {m m' : StageRegM} (held : l.InMemory m)
    (saved : ∃ wasStalled stallStatus, m' = { m with wasStalled := wasStalled, stallStatus := stallStatus }) :
    l.InMemory m' := by
  obtain ⟨wasStalled,stallStatus,rfl⟩ := saved
  exact held

/-- The handler prepares the load of the operand. -/
theorem executes_prepared {x : StageRegX} {m : StageRegM} {w : StageRegW} {new_m_reg : StageRegM} {pc : U64}
    {table : BranchTable} {r : StageRegM × U64 × BranchTable × Option (U64 × U32)} (flows : w.global_memory_stall = 0)
    (clean : m.tainted_executions = 0) (issued : l.Issued rs1_old x) (executed : Executes x m w new_m_reg pc table r) :
    l.Prepared rs1_old r.1 := by
  cases executed with
  | replays stall => exact absurd flows stall
  | bubble _ empty => cases empty.symm.trans issued.holds
  | squashes _ _ tainted => rw [clean] at tainted; exact absurd tainted (by decide)
  | skips _ _ _ zero =>
    have opcode := loadOf_opcode l.kind
    rw [← issued.instruction,zero] at opcode
    exact absurd opcode (by decide)
  | dispatches _ _ _ word e handled =>
    rw [issued.instruction,loadOf_dispatch l.kind] at handled
    cases handled
    have prepared : l.Prepared rs1_old { new_m_reg.idle x.pc 0 with
        readWrite := .memory_read, address := x.rs1_value + extended12 l.instruction.i_imm, size := l.size
        reg := l.instruction.rd.setWidth 64, signExtend := l.signExtend } :=
      ⟨⟨rfl,rfl,issued.pc⟩,by rw [issued.rs1_value]; rfl,rfl,rfl⟩
    simp only
    split
    · exact { prepared with }
    · exact prepared

/-- Decode has the load wait behind its replay. -/
theorem waits_behind_replay {x : StageRegX} {m : StageRegM} {w : StageRegW} {file : RegisterFile}
    (held : l.InMemory m) :
    operands l.instruction x m w file = none := by
  have type : decoding_type l.instruction.opcode = .I := by rw [loadOf_opcode l.kind]; rfl
  have numbers : (register_numbers l.instruction).rd = l.instruction.rd.setWidth 16 := by rw [register_numbers,type]
  have same : isRegister m.reg (register_numbers l.instruction).rd = true := by
    rw [held.2.1,numbers,rd,isRegister_five]
    simp
  exact if_pos ⟨held.1,.inr (.inr same)⟩

/-- While the replay is in M the refetch does not get past decode. -/
theorem decodes_replayed (refetch : l.Pending p) (flows : p.cur_w_reg.global_memory_stall = 0)
    (held : l.InMemory p.cur_m_reg) {x : StageRegX} {file : RegisterFile}
    (decoded : Decodes p.cur_d_reg p.cur_x_reg p.cur_m_reg p.cur_w_reg p.new_x_reg file p.program_counter
      (x,decode_pc)) :
    x.not_stalled = false ∧ decode_pc = l.pc := by
  rcases refetch with ⟨empty,pc⟩ | ⟨holds,pc,word⟩
  · obtain ⟨bubble,kept⟩ := decodes_empty (.inl empty) decoded
    exact ⟨bubble,kept.trans pc⟩
  · cases decoded with
    | bubble empty => exact absurd flows (empty.resolve_left (by simp [holds]))
    | waits => exact ⟨rfl,pc⟩
    | issues _ _ _ _ ready =>
      rw [word,waits_behind_replay held] at ready
      cases ready

/-- The replay stalls again, or returns. -/
theorem replayed_step (apart : l.instruction.rd ≠ l.instruction.rs1) (refetched : decode_pc = l.pc → l.Pending p')
    (draining : l.Draining rs1_old p) (w : p.cur_w_reg.Empty) (held : l.InMemory p.cur_m_reg)
    (x : p.cur_x_reg.not_stalled = false) (refetch : l.Pending p)
    (staged : Staged (simulatorOver b) p locals memory_mem execute_pc decode_pc fetch_mem p' events) :
    l.Draining rs1_old p' ∧ events.stored = none := by
  obtain ⟨accesses,none⟩ := accesses_load held.1 w.clean staged.memory
  obtain ⟨idle,same⟩ := executes_empty w.flows x staged.execute
  obtain ⟨bubble,here⟩ := decodes_replayed refetch w.flows held ((show execute_pc = _ from same) ▸ staged.decode)
  have pending := refetched here
  cases accesses with
  | stalls stall flush op saved =>
    exact ⟨⟨.saved stall flush op (held.saved saved),base_kept apart draining staged (.inl op),staged.new_w_reg⟩,none⟩
  | done status physical_address mem' translated finished value read result =>
    have reg : p'.cur_w_reg.reg = l.rd := by
      rw [show p'.cur_w_reg = _ from result]
      exact held.2.1
    have forwards : p'.cur_w_reg.reg = l.rs1 → p'.cur_w_reg.value = rs1_old := fun base =>
      absurd (setWidth_five_inj.mp (reg.symm.trans base)) apart
    refine ⟨⟨.returned ?_ ?_ forwards idle bubble pending,base_kept apart draining staged (.inr reg),staged.new_w_reg⟩,
      none⟩
    · rw [show p'.cur_w_reg = _ from result]
    · rw [show p'.cur_w_reg = _ from result]

/-- The refetched load is issued with the value of the base register. -/
theorem issues_base {x : StageRegX} {m : StageRegM} {w : StageRegW} {file : RegisterFile} {v1 v2 : U64}
    (nop : m.readWrite = .nop) (forwards : w.reg = l.rs1 → w.value = rs1_old)
    (base : file.register_read_one l.rs1 = rs1_old) (ready : operands l.instruction x m w file = some (v1,v2)) :
    v1 = rs1_old := by
  have type : decoding_type l.instruction.opcode ≠ .U := by rw [loadOf_opcode l.kind]; decide
  obtain ⟨found,-⟩ := (operands_readable ready).1 type
  unfold readable forwarded_register_read_single at found
  split at found
  · cases found
  · rename_i forwarded
    split at forwarded
    · cases forwarded
    · rw [if_neg (by simp [nop])] at forwarded
      split at forwarded
      · rename_i here
        cases forwarded
        cases found
        exact forwards here
      · cases forwarded
  · cases found
    exact base

/-- The refetched load is issued, or fetched once more. -/
theorem returned_step (apart : l.instruction.rd ≠ l.instruction.rs1) (refetched : decode_pc = l.pc → l.Pending p')
    (draining : l.Draining rs1_old p) (flows : p.cur_w_reg.global_memory_stall = 0)
    (clean : p.cur_w_reg.tainted_executions = 0) (forwards : p.cur_w_reg.reg = l.rs1 → p.cur_w_reg.value = rs1_old)
    (m : p.cur_m_reg.readWrite = .nop ∧ p.cur_m_reg.tainted_executions = 0) (x : p.cur_x_reg.not_stalled = false)
    (refetch : l.Pending p)
    (staged : Staged (simulatorOver b) p locals memory_mem execute_pc decode_pc fetch_mem p' events) :
    l.Draining rs1_old p' ∧ events.stored = none := by
  obtain ⟨empty,none⟩ := accesses_empty (.inr ⟨clean,m.1⟩) staged.memory
  obtain ⟨idle,same⟩ := executes_empty flows x staged.execute
  have base := base_kept apart draining staged (.inl empty.op)
  have again (bubble : p'.cur_x_reg.not_stalled = false) (here : decode_pc = l.pc) : l.Phase rs1_old p' :=
    .returned empty.flows empty.clean (bubble_forwards empty base) idle bubble (refetched here)
  refine ⟨⟨?_,base,staged.new_w_reg⟩,none⟩
  rcases refetch with ⟨free,pc⟩ | ⟨holds,pc,word⟩
  · obtain ⟨bubble,kept⟩ := decodes_empty (.inl free) staged.decode
    exact again bubble (kept.trans (same.trans pc))
  · generalize decoded : p'.cur_x_reg = x' at again
    have decode := decoded ▸ staged.decode
    cases decode with
    | bubble free => exact absurd flows (free.resolve_left (by simp [holds]))
    | waits => exact again rfl pc
    | issues _ _ v1 v2 ready =>
      rw [word] at ready
      have value := issues_base m.1 forwards draining.base ready
      refine .issued empty idle ?_
      rw [decoded]
      exact ⟨rfl,pc,word,value⟩

/-- The refetched load is executed. -/
theorem issued_step (apart : l.instruction.rd ≠ l.instruction.rs1) (draining : l.Draining rs1_old p)
    (w : p.cur_w_reg.Empty) (m : p.cur_m_reg.readWrite = .nop ∧ p.cur_m_reg.tainted_executions = 0)
    (x : l.Issued rs1_old p.cur_x_reg)
    (staged : Staged (simulatorOver b) p locals memory_mem execute_pc decode_pc fetch_mem p' events) :
    l.Draining rs1_old p' ∧ events.stored = none := by
  obtain ⟨empty,none⟩ := accesses_empty (.inr ⟨w.clean,m.1⟩) staged.memory
  have prepared := executes_prepared w.flows m.2 x staged.execute
  exact ⟨⟨.executed empty prepared,base_kept apart draining staged (.inl empty.op),staged.new_w_reg⟩,none⟩

end Load

end RiscvSim
