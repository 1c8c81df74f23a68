import RiscvSim.CodeRows
import RiscvSim.MemoryStage
import RiscvSim.Watching

/-!
Runs that meet none of the defects of the TLBs, the caches and the requests. The condition (`Tidy`) is on
what a cycle is about to do; what the TLBs, the caches and memory then hold is derived from it: the page
table and the program are where they were, the data cache over memory stands for the bytes that the stores
have left, and the word of every fetch is that of the program (`Truthful`).
-/
namespace RiscvSim
open Bytes Runs

/-- A diligent cycle in which a redirect keeps the walk of fetch, the word that is fetched stays fixed, a block that
    fetch asks for is an aligned one inside memory, and the access in M is served. -/
structure Tidy (f : PageMap) (fixed : U64 → Bool) (p : Pipeline (MemoryState Framework)) : Prop extends Diligent p where
  steers : ∀ pc, p.fetch_pc = .ok pc → p.cur_d_reg.will_be_stalled = 2 →
    PageTables.SameWalk p.cur_d_reg.tlb_stall_status (p.program_counter.setWidth 32) (pc.setWidth 32)
  code : ∀ pc, p.fetch_pc = .ok pc → ∀ i < 4, fixed (f.place (pc.setWidth 32) + BitVec.ofNat 64 i) = true
  blocks : ∀ pc, p.fetch_pc = .ok pc → ∀ b ∈ p.mem.fetch_ask p.cur_d_reg pc, b.1.n_bytes = 16 →
    b.1.address.toNat % 16 = 0 ∧ ¬ b.1.address + 16 > p.mem.framework.riscv_mem_size
  serves : p.cur_w_reg.global_memory_stall = 0 → p.cur_m_reg.Accesses → Serves f fixed p.mem p.cur_m_reg

instance (f : PageMap) (fixed : U64 → Bool) (p : Pipeline (MemoryState Framework)) : Decidable (Tidy f fixed p) :=
  decidable_of_iff (Diligent p ∧
    (∀ pc, p.fetch_pc = .ok pc → p.cur_d_reg.will_be_stalled = 2 →
      PageTables.SameWalk p.cur_d_reg.tlb_stall_status (p.program_counter.setWidth 32) (pc.setWidth 32)) ∧
    (∀ pc, p.fetch_pc = .ok pc → ∀ i < 4, fixed (f.place (pc.setWidth 32) + BitVec.ofNat 64 i) = true) ∧
    (∀ pc, p.fetch_pc = .ok pc → ∀ b ∈ p.mem.fetch_ask p.cur_d_reg pc, b.1.n_bytes = 16 →
      b.1.address.toNat % 16 = 0 ∧ ¬ b.1.address + 16 > p.mem.framework.riscv_mem_size) ∧
    (p.cur_w_reg.global_memory_stall = 0 → p.cur_m_reg.Accesses → Serves f fixed p.mem p.cur_m_reg))
    ⟨fun ⟨diligent,steers,code,blocks,serves⟩ => ⟨diligent,steers,code,blocks,serves⟩,
      fun tidy => ⟨tidy.toDiligent,tidy.steers,tidy.code,tidy.blocks,tidy.serves⟩⟩

/-- Between two cycles: memory has the fixed bytes, and the data cache over it stands for `L`; both TLBs are sound,
    and the instruction cache shows the program. -/
structure Truthful (f : PageMap) (pt : PageTables) (fixed : U64 → Bool) (L : U64 → Byte)
    (p : Pipeline (MemoryState Framework)) : Prop where
  size : p.mem.framework.riscv_mem_size = pt.size
  ptbr : p.mem.framework.ptbr = pt.ptbr
  issued : p.mem.framework.memory_accesses_issued = []
  memory : ∀ o, fixed o = true → p.mem.framework.riscv_mem o = pt.mem o
  data : DataKept f pt fixed L p.mem p.request
  sound : pt.Sound p.mem.itlb
  known : pt.Known p.mem.itlb (p.program_counter.setWidth 32) p.cur_d_reg.walk_status
  rows : p.mem.instruction_cache.Shows pt.mem fixed (p.mem.awaited_row (p.asks .F))
  twin : ∃ t, p.Twin t

/-- What a cycle shows: memory and fetch find what their stages need, and a word that is delivered is the program's. -/
structure Shown (f : PageMap) (pt : PageTables) (fixed : U64 → Bool) (L : U64 → Byte)
    (p : Pipeline (MemoryState Framework)) (events : Events) : Prop where
  clean : p.cur_w_reg.global_memory_stall = 0 → p.cur_w_reg.tainted_executions = 0
  finds : p.cur_w_reg.global_memory_stall = 0 → MemoryFinds f pt fixed (simulator.enter p.mem .M) p.cur_m_reg
  kept : p.cur_w_reg.global_memory_stall = 0 → DataKept f pt fixed L (simulator.enter p.mem .M) p.cur_m_reg
  word : ∀ pc word, events.delivered = some (pc,word) →
    word = wordAt pt.mem (f.place (pc.setWidth 32)) ∧ (f.place (pc.setWidth 32)).toNat % 4 = 0

section
variable {f : PageMap} {pt : PageTables} {fixed : U64 → Bool} {L : U64 → Byte} {mem mem' : MemoryState Framework}
  {m : StageRegM}

/-- What fetch leaves of the data side. -/
theorem DataKept.passed (kept : DataKept f pt fixed L mem m) (dtlb : mem'.dtlb = mem.dtlb)
    (cache : mem'.data_cache = mem.data_cache) (same : mem'.framework.riscv_mem = mem.framework.riscv_mem)
    (ptbr : mem'.framework.ptbr = mem.framework.ptbr) :
    DataKept f pt fixed L mem' m := by
  have asks : mem'.memory_ask m = mem.memory_ask m := by
    unfold MemoryState.memory_ask MemoryState.data_ask MemoryState.given_up MemoryState.data_address
    rw [dtlb,cache,show Rooted.ptbr mem'.framework = Rooted.ptbr mem.framework from ptbr]
  refine ⟨kept.logical,dtlb ▸ kept.sound,cache ▸ kept.housed,?_,dtlb ▸ kept.known,fun ask waits op => ?_⟩
  · unfold Backs
    rw [cache,same]
    exact kept.backs
  · rw [cache,same]
    exact kept.written ask (asks ▸ waits) op

section
variable {p p' : Pipeline (MemoryState Framework)} {locals : CalleeLocals} {events : Events}
  {memory_mem fetch_mem : MemoryState Framework} {execute_pc decode_pc : U64}
  (tables : ∀ o, pt.Bytes o → fixed o = true) (reads : f.Reads pt) (truthful : Truthful f pt fixed L p)
  (tidy : Tidy f fixed p) (staged : Staged simulator p locals memory_mem execute_pc decode_pc fetch_mem p' events)
include truthful tidy

theorem Truthful.memory_finds (pends : ∀ ask, p.asks .M = some ask → p.mem.framework.Pends ask)
    (flows : p.cur_w_reg.global_memory_stall = 0) : MemoryFinds f pt fixed (simulator.enter p.mem .M) p.cur_m_reg where
  stage := rfl
  free := by
    show Stage.M ∉ p.mem.framework.memory_accesses_issued
    rw [truthful.issued]
    exact List.not_mem_nil
  size := truthful.size
  ptbr := truthful.ptbr
  memory := truthful.memory
  pends ask waits := by
    refine pends ask ?_
    show waiting (p.mem.memory_ask p.request) = some ask
    rw [Pipeline.request,if_pos flows]
    exact waits
  clean := tidy.clean flows
  serves access := { tidy.serves flows access with }

omit tidy in
theorem Truthful.memory_kept (flows : p.cur_w_reg.global_memory_stall = 0) :
    DataKept f pt fixed L (simulator.enter p.mem .M) p.cur_m_reg := by
  have kept := truthful.data
  rw [Pipeline.request,if_pos flows] at kept
  exact kept.passed rfl rfl rfl rfl

include staged tables reads

/-- The M stage, and the access that is under way after it. -/
theorem memory_truthful (pends : ∀ ask, p.asks .M = some ask → p.mem.framework.Pends ask)
    (clean : p.cur_w_reg.global_memory_stall = 0 → p.cur_w_reg.tainted_executions = 0) :
    CacheTable.Moves L (simulator.enter p.mem .M).framework memory_mem.framework ∧
      DataKept f pt fixed (f.after L events.stored) memory_mem p'.request := by
  by_cases flows : p.cur_w_reg.global_memory_stall = 0
  · obtain ⟨moves,outcome⟩ := accesses_kept tables reads (truthful.memory_finds tidy pends flows)
      (truthful.memory_kept flows) (clean flows) staged.memory
    refine ⟨moves,?_⟩
    rcases outcome with ⟨stalls,kept⟩ | ⟨settled,rests⟩
    · rw [stalls.made,Pipeline.request,if_neg stalls.stall]
      exact kept
    · rw [Pipeline.request,if_pos settled]
      exact rests.kept (executes_fresh staged.execute flows)
  · obtain ⟨same,settled,silent⟩ := memory_quiet (tidy.replay flows) staged.memory
    replace same : memory_mem = simulator.enter p.mem .M := same
    replace settled : p'.cur_w_reg.global_memory_stall = 0 := settled
    replace silent : events.stored = none := silent
    have replayed := congrArg Prod.fst (executes_replays staged.execute flows)
    have kept := truthful.data
    rw [Pipeline.request,if_neg flows] at kept
    subst same
    have kept : DataKept f pt fixed L (simulator.enter p.mem .M) p.cur_w_reg.memory_register :=
      kept.passed rfl rfl rfl rfl
    rw [silent,Pipeline.request,if_pos settled,show p'.cur_m_reg = _ from replayed]
    exact ⟨CacheTable.moves_same (Framework.sameMemory_refl _),
      kept.logical,kept.sound,kept.housed,kept.backs,kept.known,kept.written⟩

omit tables reads in
/-- What fetch finds after the M stage. -/
theorem Truthful.fetch_finds (pends : ∀ ask, p.asks .F = some ask → memory_mem.framework.Pends ask)
    (moves : CacheTable.Moves L (simulator.enter p.mem .M).framework memory_mem.framework) :
    FetchFinds pt fixed (simulator.enter memory_mem .F) p.cur_d_reg decode_pc := by
  have moved := accesses_moved staged.memory
  have asks : (simulator.enter memory_mem .F).fetch_ask p.cur_d_reg decode_pc =
      p.mem.fetch_ask p.cur_d_reg decode_pc := by
    unfold MemoryState.fetch_ask
    rw [show (simulator.enter memory_mem .F).itlb = p.mem.itlb from moved.itlb,
      show (simulator.enter memory_mem .F).instruction_cache = p.mem.instruction_cache from moved.instruction_cache,
      show Rooted.ptbr (simulator.enter memory_mem .F).framework = Rooted.ptbr p.mem.framework from moves.ptbr]
  have waits : waiting ((simulator.enter memory_mem .F).fetch_ask p.cur_d_reg decode_pc) = p.asks .F :=
    (congrArg waiting asks).trans (tidy.fetch decode_pc staged.fetch_pc)
  refine ⟨rfl,fun issued => ?_,moves.size.trans truthful.size,moves.ptbr.trans truthful.ptbr,fun o text =>
    ?_,?_,?_,?_,?_,?_⟩
  · rcases moves.issued .F issued with before | itself
    · rw [show (simulator.enter p.mem .M).framework.memory_accesses_issued = [] from truthful.issued] at before
      exact List.not_mem_nil before
    · exact absurd itself (show Stage.F ≠ Stage.M by decide)
  · rcases moves.bytes o with same | there
    · exact same.trans (truthful.memory o text)
    · exact there.trans (truthful.data.logical o text)
  · exact moved.itlb ▸ truthful.sound
  · rw [show (simulator.enter memory_mem .F).itlb = p.mem.itlb from moved.itlb]
    by_cases walks : p.cur_d_reg.will_be_stalled = 2
    · have known := truthful.known
      rw [StageRegD.walk_status,if_pos walks] at known ⊢
      exact known.redirect (tidy.steers decode_pc staged.fetch_pc walks)
    · rw [StageRegD.walk_status,if_neg walks]
      exact PageTables.known_start pt _ _
  · rw [waits]
    unfold MemoryState.awaited_row
    rw [show (simulator.enter memory_mem .F).instruction_cache = p.mem.instruction_cache from moved.instruction_cache]
    exact truthful.rows
  · intro ask awaited
    exact pends ask (waits ▸ awaited)
  · intro ask poll asked block
    obtain ⟨aligned,inside⟩ := tidy.blocks decode_pc staged.fetch_pc (ask,poll) (asks ▸ asked) block
    exact ⟨aligned,moves.size ▸ inside⟩

/-- The stages of a cycle keep the truthful states. -/
theorem staged_truthful {t : MemoryState Watched} (twin : p'.Twin t)
    (pendsM : ∀ ask, p.asks .M = some ask → p.mem.framework.Pends ask)
    (pendsF : ∀ ask, p.asks .F = some ask → memory_mem.framework.Pends ask) 
    (clean : p.cur_w_reg.global_memory_stall = 0 → p.cur_w_reg.tainted_executions = 0) :
    Truthful f pt fixed (f.after L events.stored) p' ∧ Shown f pt fixed L p events := by
  obtain ⟨moves,kept⟩ := memory_truthful tables reads truthful tidy staged pendsM clean
  have finds := truthful.fetch_finds tidy staged pendsF moves
  have leaves := fetches_kept tables finds reads staged.fetch
  have moved := fetches_moved staged.fetch
  constructor
  · have mem := staged.mem
    refine ⟨?_,?_,?_,fun o text => ?_,?_,?_,?_,?_,t,twin⟩
    · rw [mem]
      exact leaves.same.size.trans finds.size
    · rw [mem]
      exact leaves.same.ptbr.trans finds.ptbr
    · rw [mem]
      rfl
    · rw [mem]
      exact (congrFun leaves.same.mem o).trans (finds.memory o text)
    · refine kept.passed ?_ ?_ ?_ ?_
      · rw [mem]
        exact moved.dtlb
      · rw [mem]
        exact moved.data_cache
      · rw [mem]
        exact leaves.same.mem
      · rw [mem]
        exact leaves.same.ptbr
    · rw [mem]
      exact leaves.sound
    · rw [mem]
      exact leaves.known
    · rw [Pipeline.asks,mem]
      exact leaves.rows
  · refine ⟨clean,truthful.memory_finds tidy pendsM,truthful.memory_kept,fun pc word delivered => ?_⟩
    obtain rfl : pc = decode_pc := fetches_at (delivered ▸ staged.fetch)
    exact leaves.word word delivered (tidy.code pc staged.fetch_pc)

omit staged in
/-- A cycle keeps the truthful states. -/
theorem stages_truthful (ran : stages simulator p locals = .ok (p',events)) :
    ∃ memory_mem execute_pc decode_pc fetch_mem, Staged simulator p locals memory_mem execute_pc decode_pc
    fetch_mem p' events ∧ Truthful f pt fixed (f.after L events.stored) p' ∧ Shown f pt fixed L p events := by
  obtain ⟨t,twin⟩ := truthful.twin
  obtain ⟨memory_mem,execute_pc,decode_pc,fetch_mem,t',staged,twin',pendsM,pendsF⟩ :=
    staged_twin twin tidy.toDiligent ran
  exact ⟨memory_mem,execute_pc,decode_pc,fetch_mem,staged,
    staged_truthful tables reads truthful tidy staged twin' pendsM pendsF twin.balanced.retiring.flows⟩

end

/-- The word that the loop looks at is not the pipeline's. -/
theorem Truthful.withInst {p : Pipeline (MemoryState Framework)} (truthful : Truthful f pt fixed L p) (inst : U32) :
    Truthful f pt fixed L { p with inst := inst } := by
  obtain ⟨t,twin⟩ := truthful.twin
  exact { truthful with twin := ⟨t,twin.side,{ twin.balanced with },twin.prompt⟩ }

/-- The loop keeps them. -/
theorem cycle_truthful (tables : ∀ o, pt.Bytes o → fixed o = true) (reads : f.Reads pt) {locals : CalleeLocals}
    {c c' : Pipeline (MemoryState Framework) × List Events} (truthful : ∃ L, Truthful f pt fixed L c.1)
    (tidy : Tidy f fixed c.1) (stepped : cycle simulator c locals = .ok c') : ∃ L, Truthful f pt fixed L c'.1 := by
  obtain ⟨L,truthful⟩ := truthful
  rcases cycle_cases stepped with ⟨inst,rfl⟩ | ⟨inst,p',events,ran,rfl⟩
  · exact ⟨L,truthful.withInst inst⟩
  · have tidy : Tidy f fixed { c.1 with inst := inst } := { tidy with }
    obtain ⟨_,_,_,_,-,truthful',-⟩ := stages_truthful tables reads (truthful.withInst inst) tidy ran
    exact ⟨_,truthful'⟩

/-- The simulator before its first cycle, over a memory with the latencies given. -/
def launched (mem : U64 → Byte) (ptbr read_latency write_latency pc : U64) (file : RegisterFile)
    (buffers : LoopLocals) :
    Pipeline (MemoryState Framework) × List Events :=
  Pipeline.initial (.initial (.initial mem ptbr read_latency write_latency)) pc file buffers

theorem truthful_launched (size : pt.size = 8 * 1024 * 1024) (read_latency write_latency pc : U64) (file : RegisterFile)
    (buffers : LoopLocals) :
    Truthful f pt fixed pt.mem (launched pt.mem pt.ptbr read_latency write_latency pc file buffers).1 where
  size := size.symm
  ptbr := rfl
  issued := rfl
  memory _ _ := rfl
  data := DataRests.kept ⟨fun _ _ => rfl,nofun,CacheTable.housed_construct _,CacheTable.stands_construct _⟩ rfl
  sound := nofun
  known := PageTables.known_start pt _ _
  rows := by
    show (construct_cache 512 .INSTRUCTION).Shows pt.mem fixed
      (MemoryState.awaited_row _ (waiting (MemoryState.fetch_ask _ _ _)))
    rw [fetch_ask_idle rfl (show (0 : U8) ≠ 1 by decide)]
    exact CacheTable.shows_construct _ _
  twin := ⟨_,twin_initial rfl pc file buffers⟩

end
end RiscvSim
