import RiscvSim.Stages
import RiscvSim.TlbWalk
import RiscvSim.InstructionCache

/-!
The simulator as it is linked: the stages over the two TLBs, the two caches and the
framework's memory. The main result here is about the D register: what execute dispatches
was delivered by fetch, each instruction by a call of its own.
-/
namespace RiscvSim
open Bytes Runs

/-- The static variables behind `stage_fetch` and `stage_memory`, over some memory `φ`. -/
structure MemoryState (φ : Type) where
  itlb : Tlb
  dtlb : Tlb
  instruction_cache : CacheTable
  data_cache : CacheTable
  framework : φ

/-- The TLBs of static storage, and the caches that `initialise` constructs. -/
def MemoryState.initial {φ : Type} (framework : φ) : MemoryState φ :=
  ⟨.zero,.zero,construct_cache 512 .INSTRUCTION,construct_cache 2048 .DATA,framework⟩

/-- What the two calls of `get_address` in a cycle find in their locals. -/
structure CalleeLocals where
  itlb : TlbLocals
  dtlb : TlbLocals

/-- Memory as the TLBs, the caches and the main loop reach it. -/
structure Backing (φ : Type) where
  tlb_port : MemoryPort φ
  cache_port : MemoryPort φ
  ptbr : φ → U64
  memory_dump : φ → Buffer → U64 → U64 → Bool × Buffer
  enter : φ → Stage → φ
  end_cycle : φ → φ

/-- The framework's own routines. -/
def Framework.backing : Backing Framework where
  tlb_port := port
  cache_port := port
  ptbr := ptbr
  memory_dump := memory_dump
  enter := enter
  end_cycle := end_cycle

def simulatorOver {φ : Type} (b : Backing φ) : MemorySystem (MemoryState φ) CalleeLocals where
  itlb_address s locals virtual_address status := do
    let (code,output,tlb,framework) ←
      s.itlb.get_address b.tlb_port (b.ptbr s.framework) s.framework virtual_address 0 status locals.itlb
    return (code,output,{ s with itlb := tlb, framework := framework })
  instruction_read s address word is_followup memory_read_available := do
    let (code,value,cache,framework) ← s.instruction_cache.read_access b.cache_port s.framework (address.setWidth 64) 4
      (word.setWidth 64) is_followup memory_read_available
    return (code,value.setWidth 32,{ s with instruction_cache := cache, framework := framework })
  dtlb_address s locals virtual_address status := do
    let (code,output,tlb,framework) ←
      s.dtlb.get_address b.tlb_port (b.ptbr s.framework) s.framework virtual_address 0 status locals.dtlb
    return (code,output,{ s with dtlb := tlb, framework := framework })
  data_read s address size value is_followup memory_read_available := do
    let (code,value,cache,framework) ← s.data_cache.read_access b.cache_port s.framework (address.setWidth 64)
      (size.setWidth 64) value is_followup memory_read_available
    return (code,value,{ s with data_cache := cache, framework := framework })
  data_write s address data size is_followup memory_read_available := do
    let (code,cache,framework) ← s.data_cache.write_access b.cache_port s.framework (address.setWidth 64) data size
      is_followup memory_read_available
    return (code,{ s with data_cache := cache, framework := framework })
  inst_at s pc inst := value 32 (b.memory_dump s.framework (byteAt inst) pc 4).2 4
  enter s stage := { s with framework := b.enter s.framework stage }
  end_cycle s := { s with framework := b.end_cycle s.framework }

/-- The simulator over the framework. -/
def simulator : MemorySystem (MemoryState Framework) CalleeLocals := simulatorOver Framework.backing

/-! ### From fetch to execute -/

/-- The instruction in the D register, if it holds one. -/
def StageRegD.held (d : StageRegD) : List (U64 × U32) := if d.not_stalled then [(d.pc,d.instruction)] else []
def StageRegX.held (x : StageRegX) : List (U64 × U32) := if x.not_stalled then [(x.pc,x.instruction)] else []

open List in
theorem decodes_held {d : StageRegD} {x : StageRegX} {m : StageRegM} {w : StageRegW} {new_x_reg : StageRegX}
    {file : RegisterFile} {pc : U64} {r : StageRegX × U64} (decoded : Decodes d x m w new_x_reg file pc r) :
    r.1.held <+ d.held := by
  cases decoded with
  | bubble empty => simp [StageRegX.held]
  | waits holds flows busy => simp [StageRegX.held]
  | issues holds flows rs1_value rs2_value ready => simp [StageRegX.held,StageRegD.held,holds]

open List in
theorem executes_held {x : StageRegX} {m : StageRegM} {w : StageRegW} {new_m_reg : StageRegM} {pc : U64}
    {table : BranchTable} {r : StageRegM × U64 × BranchTable × Option (U64 × U32)}
    (executed : Executes x m w new_m_reg pc table r) : r.2.2.2.toList <+ x.held := by
  cases executed with
  | dispatches flows holds clean word e handled => simp [StageRegX.held,holds]
  | _ => simp

/-- Unless the walk is left in the middle with an instruction in the buffer, the new D
    register holds what fetch delivered. -/
theorem fetches_held {σ ι : Type} {ms : MemorySystem σ ι} {mem : σ} {locals : ι} {d new_d_reg : StageRegD} {pc : U64}
    {table : BranchTable} {r : StageRegD × U64 × Option (U64 × U32) × σ}
    (fetched : Fetches ms mem locals d new_d_reg pc table r)
    (fresh : new_d_reg.not_stalled = false ∨ ∀ status physical_pc mem',
      ms.itlb_address mem locals (pc.setWidth 32) d.walk_status = .ok (status,physical_pc,mem') → status = 0xFE) :
    r.1.held = r.2.2.1.toList := by
  cases fetched with
  | walks status physical_pc mem' translated unfinished =>
    rcases fresh with empty | hit
    · simp [StageRegD.held,empty]
    · exact absurd (hit _ _ _ translated) unfinished.1
  | misses => simp [StageRegD.held]
  | delivers => simp [StageRegD.held]

section
variable {φ : Type} {b : Backing φ}

theorem itlb_address_moved {mem mem' : MemoryState φ} {locals : CalleeLocals} {virtual_address output : U32}
    {status code : U8}
    (translated : (simulatorOver b).itlb_address mem locals virtual_address status = .ok (code,output,mem')) :
    ∃ tlb framework,
      mem.itlb.get_address b.tlb_port (b.ptbr mem.framework) mem.framework virtual_address 0 status locals.itlb =
        .ok (code,output,tlb,framework) ∧ mem' = { mem with itlb := tlb, framework := framework } := by
  obtain ⟨r,answered,same⟩ := bind_ok.mp translated
  cases same
  exact ⟨_,_,answered,rfl⟩
theorem dtlb_address_moved {mem mem' : MemoryState φ} {locals : CalleeLocals} {virtual_address output : U32}
    {status code : U8}
    (translated : (simulatorOver b).dtlb_address mem locals virtual_address status = .ok (code,output,mem')) :
    ∃ tlb framework,
      mem.dtlb.get_address b.tlb_port (b.ptbr mem.framework) mem.framework virtual_address 0 status locals.dtlb =
        .ok (code,output,tlb,framework) ∧ mem' = { mem with dtlb := tlb, framework := framework } := by
  obtain ⟨r,answered,same⟩ := bind_ok.mp translated
  cases same
  exact ⟨_,_,answered,rfl⟩
theorem instruction_read_moved {mem mem' : MemoryState φ} {address word word' : U32} {code : U8}
    {is_followup available : Bool}
    (read : (simulatorOver b).instruction_read mem address word is_followup available = .ok (code,word',mem')) :
    ∃ value cache framework, mem.instruction_cache.read_access b.cache_port mem.framework (address.setWidth 64) 4
        (word.setWidth 64) is_followup available = .ok (code,value,cache,framework) ∧ word' = value.setWidth 32 ∧
      mem' = { mem with instruction_cache := cache, framework := framework } := by
  obtain ⟨r,answered,same⟩ := bind_ok.mp read
  cases same
  exact ⟨_,_,_,answered,rfl,rfl⟩
theorem data_read_moved {mem mem' : MemoryState φ} {address : U32} {size code : U8} {value value' : U64}
    {is_followup available : Bool}
    (read : (simulatorOver b).data_read mem address size value is_followup available = .ok (code,value',mem')) :
    ∃ cache framework, mem.data_cache.read_access b.cache_port mem.framework (address.setWidth 64)
    (size.setWidth 64) value
      is_followup available = .ok (code,value',cache,framework) ∧
      mem' = { mem with data_cache := cache, framework := framework } := by
  obtain ⟨r,answered,same⟩ := bind_ok.mp read
  cases same
  exact ⟨_,_,answered,rfl⟩
theorem data_write_moved {mem mem' : MemoryState φ} {address : U32} {size code : U8} {data : U64}
    {is_followup available : Bool}
    (write : (simulatorOver b).data_write mem address data size is_followup available = .ok (code,mem')) :
    ∃ cache framework, mem.data_cache.write_access b.cache_port mem.framework (address.setWidth 64) data size
    is_followup available =
      .ok (code,cache,framework) ∧ mem' = { mem with data_cache := cache, framework := framework } := by
  obtain ⟨r,answered,same⟩ := bind_ok.mp write
  cases same
  exact ⟨_,_,answered,rfl⟩

/-- What the memory stage leaves alone. -/
structure MemoryState.DataMoved (mem mem' : MemoryState φ) : Prop where
  itlb : mem'.itlb = mem.itlb
  instruction_cache : mem'.instruction_cache = mem.instruction_cache
  params : IsDataCache mem.data_cache → IsDataCache mem'.data_cache

theorem MemoryState.DataMoved.trans {mem mem' mem'' : MemoryState φ} (first : mem.DataMoved mem')
    (second : mem'.DataMoved mem'') :
    mem.DataMoved mem'' where
  itlb := second.itlb.trans first.itlb
  instruction_cache := second.instruction_cache.trans first.instruction_cache
  params is_data := second.params (first.params is_data)

theorem accesses_moved {mem : MemoryState φ} {locals : CalleeLocals} {m : StageRegM} {w new_w_reg : StageRegW}
    {r : StageRegW × Option (U64 × U8 × U64) × MemoryState φ}
    (accessed : Accesses (simulatorOver b) mem locals m w new_w_reg r) :
    mem.DataMoved r.2.2 := by
  have translates {status : U8} {physical_address : U32} {mem' : MemoryState φ}
      (translated : Translates (simulatorOver b) mem locals m status physical_address mem') : mem.DataMoved mem' := by
    obtain ⟨tlb,framework,-,rfl⟩ := dtlb_address_moved translated
    exact ⟨rfl,rfl,id⟩
  have reads {mem' mem'' : MemoryState φ} {address : U32} {code : U8} {value : U64} {available : Bool}
      (read : (simulatorOver b).data_read mem' address m.size new_w_reg.value (m.wasStalled == 1) available =
        .ok (code,value,mem'')) :
      mem'.DataMoved mem'' := by
    obtain ⟨cache,framework,ran,rfl⟩ := data_read_moved read
    exact ⟨rfl,rfl,fun is_data => CacheTable.effect_params is_data (CacheTable.read_access_effect _ is_data ran)⟩
  have writes {mem' mem'' : MemoryState φ} {address : U32} {code : U8} {available : Bool}
      (write : (simulatorOver b).data_write mem' address m.value m.size (m.wasStalled == 1) available =
        .ok (code,mem'')) :
      mem'.DataMoved mem'' := by
    obtain ⟨cache,framework,ran,rfl⟩ := data_write_moved write
    exact ⟨rfl,rfl,fun is_data => CacheTable.effect_params is_data (CacheTable.write_access_effect _ is_data ran)⟩
  cases accessed with
  | walks clean code op status physical_address mem' translated => exact translates translated
  | load_misses clean op status physical_address mem' translated finished missed value mem'' read =>
    exact (translates translated).trans (reads read)
  | loads clean op status physical_address mem' translated finished value mem'' read =>
    exact (translates translated).trans (reads read)
  | store_misses clean op status physical_address mem' translated finished missed mem'' write =>
    exact (translates translated).trans (writes write)
  | stores clean op status physical_address mem' translated finished mem'' write =>
    exact (translates translated).trans (writes write)
  | _ => exact ⟨rfl,rfl,id⟩

/-- What the fetch stage leaves alone. -/
structure MemoryState.InstructionMoved (mem mem' : MemoryState φ) : Prop where
  dtlb : mem'.dtlb = mem.dtlb
  data_cache : mem'.data_cache = mem.data_cache
  params : IsInstructionCache mem.instruction_cache → IsInstructionCache mem'.instruction_cache

theorem MemoryState.InstructionMoved.trans {mem mem' mem'' : MemoryState φ} (first : mem.InstructionMoved mem')
    (second : mem'.InstructionMoved mem'') : mem.InstructionMoved mem'' where
  dtlb := second.dtlb.trans first.dtlb
  data_cache := second.data_cache.trans first.data_cache
  params is_instruction := second.params (first.params is_instruction)

theorem fetches_moved {mem : MemoryState φ} {locals : CalleeLocals} {d new_d_reg : StageRegD} {pc : U64}
    {table : BranchTable} {r : StageRegD × U64 × Option (U64 × U32) × MemoryState φ}
    (fetched : Fetches (simulatorOver b) mem locals d new_d_reg pc table r) : mem.InstructionMoved r.2.2.2 := by
  have translates {status : U8} {physical_pc : U32} {mem' : MemoryState φ}
      (translated : (simulatorOver b).itlb_address mem locals (pc.setWidth 32) d.walk_status =
        .ok (status,physical_pc,mem')) :
      mem.InstructionMoved mem' := by
    obtain ⟨tlb,framework,-,rfl⟩ := itlb_address_moved translated
    exact ⟨rfl,rfl,id⟩
  have reads {mem' mem'' : MemoryState φ} {physical_pc word : U32} {code : U8} {available : Bool}
      (read : (simulatorOver b).instruction_read mem' physical_pc new_d_reg.instruction
        (d.will_be_stalled == 1) available =
        .ok (code,word,mem'')) : mem'.InstructionMoved mem'' := by
    obtain ⟨value,cache,framework,ran,-,rfl⟩ := instruction_read_moved read
    exact ⟨rfl,rfl,fun is_instruction => CacheTable.read_access_params is_instruction ran⟩
  cases fetched with
  | walks status physical_pc mem' translated => exact translates translated
  | misses status physical_pc mem' read_status instruction mem'' translated finished read =>
    exact (translates translated).trans (reads read)
  | delivers status physical_pc mem' instruction mem'' translated finished read =>
    exact (translates translated).trans (reads read)

/-- The buffer of the D register is empty, or the next fetch needs no walk. -/
def FetchesFresh (p : Pipeline (MemoryState φ)) : Prop :=
  p.new_d_reg.not_stalled = false ∨
    p.cur_d_reg.will_be_stalled ≠ 2 ∧ okAnd p.fetch_pc (fun pc => decide (p.mem.itlb.Hit (pc.setWidth 32))) = true
instance (p : Pipeline (MemoryState φ)) : Decidable (FetchesFresh p) := instDecidableOr

/-- Then the new D register holds what fetch delivered. -/
theorem staged_held {p p' : Pipeline (MemoryState φ)} {locals : CalleeLocals} {memory_mem fetch_mem : MemoryState φ}
    {execute_pc decode_pc : U64} {events : Events} (fresh : FetchesFresh p)
    (staged : Staged (simulatorOver b) p locals memory_mem execute_pc decode_pc fetch_mem p' events) :
    p'.cur_d_reg.held = events.delivered.toList := by
  refine fetches_held staged.fetch (fresh.imp_right ?_)
  rintro ⟨resumed,hit⟩ status physical_pc mem' translated
  obtain ⟨pc,found,hit⟩ := okAnd_iff.mp hit
  cases found.symm.trans staged.fetch_pc
  have walk : p.cur_d_reg.walk_status = 0xFF := if_neg resumed
  have same : ((simulatorOver b).enter memory_mem .F).itlb = p.mem.itlb := (accesses_moved staged.memory).itlb
  obtain ⟨_,answered,outcome⟩ := bind_ok.mp translated
  rw [walk,same,PageTables.get_address_hit _ _ _ _ _ (of_decide_eq_true hit)] at answered
  cases answered
  cases outcome
  rfl

open List in
/-- What has been dispatched, with the instructions on their way in X and D, was
    presented and delivered in this order. -/
structure InOrder (s : Pipeline (MemoryState φ) × List Events) : Prop where
  dispatched : s.2.filterMap (·.dispatched) ++ s.1.cur_x_reg.held <+ s.2.filterMap (·.presented)
  presented : s.2.filterMap (·.presented) ++ s.1.cur_d_reg.held <+ s.2.filterMap (·.delivered)

theorem cycle_inOrder {s s' : Pipeline (MemoryState φ) × List Events} {locals : CalleeLocals} (ordered : InOrder s)
    (fresh : FetchesFresh s.1) (stepped : cycle (simulatorOver b) s locals = .ok s') : InOrder s' := by
  rcases cycle_cases stepped with ⟨inst,rfl⟩ | ⟨inst,p,events,ran,rfl⟩
  · exact ⟨ordered.dispatched,ordered.presented⟩
  obtain ⟨memory_mem,execute_pc,decode_pc,fetch_mem,staged⟩ := stages_staged ran
  have shown : events.presented.toList = s.1.cur_d_reg.held := by
    rw [staged.presented,StageRegD.held]
    split <;> rfl
  have delivered : p.cur_d_reg.held = events.delivered.toList :=
    staged_held (p := { s.1 with inst := inst }) fresh staged
  constructor
  · rw [filterMap_append_single,filterMap_append_single,shown]
    exact (((executes_held staged.execute).append_left _).trans ordered.dispatched).append (decodes_held staged.decode)
  · rw [filterMap_append_single,filterMap_append_single,shown,delivered]
    exact ordered.presented.append (.refl _)

end

open List in
/-- Every execution has its own fetch: in a run in which fetch starts no walk with an
    instruction in the buffer of the D register, the instructions dispatched are, in order, among
    those presented to decode, and these among the deliveries of fetch. -/
theorem executions_fetched (mem : MemoryState Framework) (pc : U64) (file : RegisterFile) (buffers : LoopLocals)
    (inputs : List CalleeLocals) (p : Pipeline (MemoryState Framework)) (log : List Events)
    (fresh : Guarded (cycle simulator) (fun s _ => FetchesFresh s.1) (Pipeline.initial mem pc file buffers) inputs)
    (ran : run (cycle simulator) (Pipeline.initial mem pc file buffers) inputs = .ok (p,log)) :
    log.filterMap (·.dispatched) <+ log.filterMap (·.presented) ∧
      log.filterMap (·.presented) <+ log.filterMap (·.delivered) := by
  have start : InOrder (Pipeline.initial mem pc file buffers) := ⟨.refl _,.refl _⟩
  have ordered := guarded_invariant InOrder (fun _ _ _ => cycle_inOrder) start fresh ran
  exact ⟨(List.sublist_append_left _ _).trans ordered.dispatched,(List.sublist_append_left _ _).trans ordered.presented⟩

/-- Memory with a program and, at 4 MB, page tables that map the first 4 MB to themselves. -/
def identityMapped (program : Nat → U32) (i : Nat) : U32 :=
  if i = 0x100000 then 0x80000401
  else if 0x100400 ≤ i ∧ i < 0x100800 then 0x80000000 ||| BitVec.ofNat 32 (i - 0x100400)
  else program i
/-- The simulator at the first instruction of a program, all storage zero. -/
def started (program : Nat → U32) (read_latency write_latency : U64) : Pipeline (MemoryState Framework) × List Events :=
  Pipeline.initial (.initial (.initial (memOfWords (identityMapped program)) 0x400000 read_latency write_latency)) 0
    (fun _ => 0) zeroBuffers
/-- Cycles whose callees find zeros. -/
def zeroLocals (n : Nat) : List CalleeLocals := List.replicate n ⟨⟨0,0,0⟩,⟨0,0,0⟩⟩

/-- `addi x5,x6,1` and `addi x7,x5,1`. -/
def twoSums (i : Nat) : U32 := if i = 0 then 0x00130293 else if i = 1 then 0x00128393 else 0

open List in
theorem executions_fetched_two_sums : ∃ p log, run (cycle simulator) (started twoSums 1 1)
    (zeroLocals 12) = .ok (p,log) ∧ log.filterMap (·.dispatched) = [(0,0x00130293),(4,0x00128393)] ∧
    log.filterMap (·.dispatched) <+ log.filterMap (·.presented) ∧
    log.filterMap (·.presented) <+ log.filterMap (·.delivered) := by
  have fresh : Guarded (cycle simulator) (fun s _ => FetchesFresh s.1) (started twoSums 1 1) (zeroLocals 12) := by
    decide +kernel
  have result : okAnd (run (cycle simulator) (started twoSums 1 1) (zeroLocals 12))
      (fun s => s.2.filterMap (·.dispatched) == [(0,0x00130293),(4,0x00128393)]) = true := by decide +kernel
  obtain ⟨⟨p,log⟩,ran,dispatched⟩ := okAnd_iff.mp result
  exact ⟨p,log,ran,by simpa using dispatched,executions_fetched _ 0 _ _ _ p log fresh ran⟩

/-- `jal x1,0x24000` and `addi x5,x6,1`. -/
def farJump (i : Nat) : U32 := if i = 0 then 0x000240EF else if i = 1 then 0x00130293 else 0

open List in
/-- The jump starts a walk while the buffer still holds the instruction after it, which is
    delivered once and dispatched three times. -/
theorem delivered_once_dispatched_thrice : ∃ p log,
    run (cycle simulator) (started farJump 1 1) (zeroLocals 13) = .ok (p,log) ∧
    (log.filterMap (·.delivered)).count (4,0x00130293) = 1 ∧ (log.filterMap (·.dispatched)).count (4,0x00130293) = 3 ∧
    ¬ log.filterMap (·.dispatched) <+ log.filterMap (·.delivered) ∧
    ¬ log.filterMap (·.presented) <+ log.filterMap (·.delivered) := by
  have result : okAnd (run (cycle simulator) (started farJump 1 1) (zeroLocals 13)) (fun s =>
      decide ((s.2.filterMap (·.delivered)).count (4,0x00130293) = 1 ∧
        (s.2.filterMap (·.dispatched)).count (4,0x00130293) = 3 ∧
        ¬ s.2.filterMap (·.dispatched) <+ s.2.filterMap (·.delivered) ∧
        ¬ s.2.filterMap (·.presented) <+ s.2.filterMap (·.delivered))) = true := by decide +kernel
  obtain ⟨⟨p,log⟩,ran,fails⟩ := okAnd_iff.mp result
  exact ⟨p,log,ran,of_decide_eq_true fails⟩

end RiscvSim
