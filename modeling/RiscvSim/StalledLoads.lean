import RiscvSim.Tidy

/-!
A load that stalls takes effect once. Its way through the pipeline, behind its own replay, is that of the five phases of
`Load.Phase`; in a tidy run the word that is fetched again is the load, no store is made meanwhile, and the value that
comes to the destination is the one that the data cache and memory had for its address when it first stalled.
-/
namespace RiscvSim
open Bytes Runs

/-- What is dispatched is the instruction in X. -/
theorem executes_dispatched {x : StageRegX} {m : StageRegM} {w : StageRegW} {new_m_reg : StageRegM} {pc : U64}
    {table : BranchTable} {r : StageRegM × U64 × BranchTable × Option (U64 × U32)}
    (executed : Executes x m w new_m_reg pc table r) {d : U64 × U32} (dispatched : r.2.2.2 = some d) :
    w.global_memory_stall = 0 ∧ x.not_stalled = true ∧ d.1 = x.pc := by
  cases executed with
  | dispatches flows holds => cases dispatched; exact ⟨flows,holds,rfl⟩
  | _ => cases dispatched

/-- A stage that is flushed does not stall. -/
theorem accesses_unflushed {σ ι : Type} {ms : MemorySystem σ ι} {mem : σ} {locals : ι} {m : StageRegM}
    {w new_w_reg : StageRegW} {r : StageRegW × Option (U64 × U8 × U64) × σ}
    (accessed : Accesses ms mem locals m w new_w_reg r) (stalled : r.1.global_memory_stall ≠ 0) :
    w.tainted_executions = 0 := by
  have zero (unsquashed : ¬ w.tainted_executions > 0) : w.tainted_executions = 0 := by bv_omega
  cases accessed with
  | squashes => exact absurd rfl stalled
  | forwards unsquashed => exact zero unsquashed
  | idle unsquashed => exact zero unsquashed
  | walks unsquashed => exact zero unsquashed
  | load_misses unsquashed => exact zero unsquashed
  | loads unsquashed => exact zero unsquashed
  | store_misses unsquashed => exact zero unsquashed
  | stores unsquashed => exact zero unsquashed

namespace Load
variable {l : Load} {rs1_old : U64}

/-! ### Where the load is -/

/-- The load is on its way: saved in W, in M, in X, in D or at the pc. -/
def InFlight (l : Load) (p : Pipeline (MemoryState Framework)) : Prop :=
  p.cur_w_reg.global_memory_stall ≠ 0 ∧ l.InMemory p.cur_w_reg.memory_register ∨ l.InMemory p.cur_m_reg ∨
    p.cur_x_reg.not_stalled = true ∧ p.cur_x_reg.pc = l.pc ∨ p.cur_d_reg.not_stalled = true ∧ p.cur_d_reg.pc = l.pc ∨
    p.program_counter = l.pc
instance (l : Load) (p : Pipeline (MemoryState Framework)) : Decidable (l.InFlight p) := instDecidableOr

theorem Draining.inFlight {p : Pipeline (MemoryState Framework)} (draining : l.Draining rs1_old p) : l.InFlight p := by
  have refetched (refetch : l.Pending p) : l.InFlight p := by
    rcases refetch with ⟨-,pc⟩ | ⟨holds,pc,-⟩
    · exact .inr (.inr (.inr (.inr pc)))
    · exact .inr (.inr (.inr (.inl ⟨holds,pc⟩)))
  cases draining.phase with
  | saved stall flush op held => exact .inl ⟨stall,held⟩
  | replayed w held => exact .inr (.inl held)
  | returned flows clean forwards m x refetch => exact refetched refetch
  | issued w m x => exact .inr (.inr (.inl ⟨x.holds,x.pc⟩))
  | executed w m => exact .inr (.inl m.held)

/-- A cycle takes an instruction from elsewhere past X: it is dispatched, and M does not stall. -/
def Overtaken (l : Load) (c c' : Pipeline (MemoryState Framework) × List Events) : Prop :=
  ∃ events, c'.2 = c.2 ++ [events] ∧ (∃ d, events.dispatched = some d ∧ d.1 ≠ l.pc) ∧
    c'.1.cur_w_reg.global_memory_stall = 0

/-- The load has drained: it is nowhere, or a cycle has taken another instruction past X. -/
def Drained (l : Load) (s : Pipeline (MemoryState Framework) × List Events) (inputs : List CalleeLocals)
    (t : Pipeline (MemoryState Framework) × List Events) : Prop :=
  ¬ l.InFlight t.1 ∨ ∃ before locals after q r, inputs = before ++ locals :: after ∧
    run (cycle simulator) s before = .ok q ∧ cycle simulator q locals = .ok r ∧ l.Overtaken q r

/-- The value that a memory has for the load. -/
def result (l : Load) (V : FlatMemory) (rs1_old : U64) : U64 :=
  let value := V.read ((l.address rs1_old).setWidth 32) l.size
  if l.signExtend then (value.setWidth (8 * l.size.toNat)).signExtend 64 else value

/-- W carries the value to the destination. -/
structure Completed (l : Load) (value : U64) (p : Pipeline (MemoryState Framework)) : Prop where
  op : p.cur_w_reg.op = true
  reg : p.cur_w_reg.reg = l.rd
  value : p.cur_w_reg.value = value

/-- The destination holds the value once it is written back. -/
theorem Completed.written {value : U64} {p : Pipeline (MemoryState Framework)} (completed : l.Completed value p) :
    stage_writeback p.cur_w_reg p.register_file l.instruction.rd = value := by
  rw [stage_writeback,if_pos completed.op,← completed.value,completed.reg,rd,RegisterFile.register_write,
    setWidth_five,if_pos rfl]

/-! ### One cycle -/

section
variable {f : PageMap} {pt : PageTables} {fixed : U64 → Bool} {L : U64 → Byte} {p p' : Pipeline (MemoryState Framework)}
  {locals : CalleeLocals} {memory_mem fetch_mem : MemoryState Framework} {execute_pc decode_pc : U64} {events : Events}
  (tables : ∀ o, pt.Bytes o → fixed o = true) (reads : f.Reads pt) (apart : l.instruction.rd ≠ l.instruction.rs1)
include tables reads apart

/-- The load stalls again, or completes. -/
theorem executed_step (shown : Shown f pt fixed L p events) (draining : l.Draining rs1_old p) (w : p.cur_w_reg.Empty)
    (m : l.Prepared rs1_old p.cur_m_reg)
    (staged : Staged simulator p locals memory_mem execute_pc decode_pc fetch_mem p' events) :
    (l.Draining rs1_old p' ∧ p'.cur_w_reg.global_memory_stall ≠ 0 ∨ l.Completed (l.result (f.view L) rs1_old) p') ∧
      events.stored = none := by
  obtain ⟨accesses,none⟩ := accesses_load m.held.1 w.clean staged.memory
  refine ⟨?_,none⟩
  cases accesses with
  | stalls stall flush op saved =>
    exact .inl ⟨⟨.saved stall flush op (m.held.saved saved),base_kept apart draining staged (.inl op),staged.new_w_reg⟩,
      stall⟩
  | done status physical_address mem' translated finished value read result =>
    right
    obtain ⟨-,small⟩ := loadOf_sizes l.kind
    have zero : p.new_w_reg.value = 0 := by rw [draining.buffer,w.value]
    have clear : p.new_w_reg.value.toNat < 2^(8 * p.cur_m_reg.size.toNat) := by
      rw [zero]
      exact Nat.two_pow_pos _
    have loaded := loads_value tables reads (shown.finds w.flows) (shown.kept w.flows) m.held.1 translated finished read
      (f.reflects_view L) (by rw [m.signExtend,m.size]; exact small) clear
      (Machine.start 0 p.register_file (f.view L)) rfl
    rw [m.address,m.size,m.signExtend] at loaded
    constructor
    · rw [show p'.cur_w_reg = _ from result]
    · rw [show p'.cur_w_reg = _ from result]
      exact m.held.2.1
    · rw [show p'.cur_w_reg = _ from result,m.size,m.signExtend]
      exact loaded.symm

/-- A cycle takes the load to its next phase or completes it, and makes no store. If it takes another instruction
    past X it completes the load. -/
theorem draining_step (coded : (f.view pt.mem).word (l.pc.setWidth 32) = l.instruction) (fresh : FetchesFresh p)
    (shown : Shown f pt fixed L p events) (draining : l.Draining rs1_old p)
    (staged : Staged simulator p locals memory_mem execute_pc decode_pc fetch_mem p' events) :
    (l.Draining rs1_old p' ∧ ((∃ d, events.dispatched = some d ∧ d.1 ≠ l.pc) → p'.cur_w_reg.global_memory_stall ≠ 0) ∨
      l.Completed (l.result (f.view L) rs1_old) p') ∧ events.stored = none := by
  have refetched (here : decode_pc = l.pc) : l.Pending p' := by
    refine refetches fresh (fun word delivered => ?_) here staged
    obtain ⟨same,aligned⟩ := shown.word _ _ delivered
    rw [← coded,f.view_word _ aligned]
    exact same
  have empty (x : p.cur_x_reg.not_stalled = false) (other : ∃ d, events.dispatched = some d ∧ d.1 ≠ l.pc) :
      p'.cur_w_reg.global_memory_stall ≠ 0 := by
    obtain ⟨d,made,-⟩ := other
    exact absurd (x.symm.trans (executes_dispatched staged.execute made).2.1) Bool.false_ne_true
  cases draining.phase with
  | saved stall flush op held =>
    obtain ⟨next,none⟩ := saved_step apart refetched draining stall flush held staged
    exact ⟨.inl ⟨next,fun ⟨d,made,_⟩ => absurd (executes_dispatched staged.execute made).1 stall⟩,none⟩
  | replayed w held x refetch =>
    obtain ⟨next,none⟩ := replayed_step apart refetched draining w held x refetch staged
    exact ⟨.inl ⟨next,empty x⟩,none⟩
  | returned flows clean forwards m x refetch =>
    obtain ⟨next,none⟩ := returned_step apart refetched draining flows clean forwards m x refetch staged
    exact ⟨.inl ⟨next,empty x⟩,none⟩
  | issued w m x =>
    obtain ⟨next,none⟩ := issued_step apart draining w m x staged
    exact ⟨.inl ⟨next,fun ⟨d,made,other⟩ => absurd ((executes_dispatched staged.execute made).2.2.trans x.pc) other⟩,
      none⟩
  | executed w m =>
    obtain ⟨next,none⟩ := executed_step tables reads apart shown draining w m staged
    exact ⟨next.imp_left fun ⟨next,stall⟩ => ⟨next,fun _ => stall⟩,none⟩

end

/-- The word that the loop looks at does not matter. -/
theorem Draining.with_inst {p : Pipeline (MemoryState Framework)} (draining : l.Draining rs1_old p) (inst : U32) :
    l.Draining rs1_old { p with inst := inst } where
  phase := by
    cases draining.phase with
    | saved stall flush op held => exact .saved stall flush op held
    | replayed w held x refetch => exact .replayed w held x refetch
    | returned flows clean forwards m x refetch => exact .returned flows clean forwards m x refetch
    | issued w m x => exact .issued w m x
    | executed w m => exact .executed w m
  base := draining.base
  buffer := draining.buffer

/-- A stall saves the load. -/
theorem stalls_draining {φ : Type} {b : Backing φ} {p s : Pipeline (MemoryState φ)} {locals : CalleeLocals}
    {events : Events} (held : l.InMemory p.cur_m_reg) (ran : stages (simulatorOver b) p locals = .ok (s,events))
    (stalled : s.cur_w_reg.global_memory_stall ≠ 0) :
    l.Draining ((stage_writeback p.cur_w_reg p.register_file).register_read_one l.rs1) s := by
  obtain ⟨memory_mem,execute_pc,decode_pc,fetch_mem,staged⟩ := stages_staged ran
  have clean : p.cur_w_reg.tainted_executions = 0 := accesses_unflushed staged.memory stalled
  obtain ⟨accesses,-⟩ := accesses_load held.1 clean staged.memory
  cases accesses with
  | stalls stall flush op saved =>
    refine ⟨.saved stall flush op (held.saved saved),?_,staged.new_w_reg⟩
    have bubble : s.cur_w_reg.op = false := op
    rw [staged.register_file,stage_writeback,bubble]
    rfl
  | done status physical_address mem' translated finished value read result =>
    rw [show s.cur_w_reg = _ from result] at stalled
    exact absurd rfl stalled

/-! ### Runs -/

/-- Kept until the load completes. -/
structure Kept (l : Load) (rs1_old : U64) (f : PageMap) (pt : PageTables) (fixed : U64 → Bool) (L : U64 → Byte)
    (stores : List (U64 × U8 × U64)) (c : Pipeline (MemoryState Framework) × List Events) : Prop where
  truthful : Truthful f pt fixed L c.1
  draining : l.Draining rs1_old c.1
  quiet : storesOf c.2 = stores

theorem storesOf_quiet {log : List Events} {events : Events} (none : events.stored = .none) :
    storesOf (log ++ [events]) = storesOf log := by
  rw [storesOf,filterMap_append_single,none,Option.toList_none,List.append_nil]
  rfl

section
variable {f : PageMap} {pt : PageTables} {fixed : U64 → Bool} {L : U64 → Byte} {stores : List (U64 × U8 × U64)}
  (tables : ∀ o, pt.Bytes o → fixed o = true) (reads : f.Reads pt) (apart : l.instruction.rd ≠ l.instruction.rs1)
  (coded : (f.view pt.mem).word (l.pc.setWidth 32) = l.instruction)
include tables reads apart coded

/-- A turn of the loop. -/
theorem cycle_drains {c c' : Pipeline (MemoryState Framework) × List Events} {locals : CalleeLocals}
    (kept : l.Kept rs1_old f pt fixed L stores c) (safe : Tidy f fixed c.1 ∧ FetchesFresh c.1)
    (stepped : cycle simulator c locals = .ok c') :
    l.Kept rs1_old f pt fixed L stores c' ∧ ¬ l.Overtaken c c' ∨
      l.Completed (l.result (f.view L) rs1_old) c'.1 ∧ storesOf c'.2 = stores := by
  rcases cycle_cases stepped with ⟨inst,rfl⟩ | ⟨inst,p,events,ran,rfl⟩
  · refine .inl ⟨⟨kept.truthful.withInst inst,kept.draining.with_inst inst,kept.quiet⟩,fun ⟨events,longer,_⟩ => ?_⟩
    exact absurd (congrArg List.length longer) (by simp)
  have tidy : Tidy f fixed { c.1 with inst := inst } := { safe.1 with }
  obtain ⟨_,_,_,_,staged,truthful,shown⟩ := stages_truthful tables reads (kept.truthful.withInst inst) tidy ran
  obtain ⟨next,none⟩ := draining_step (p := { c.1 with inst := inst }) tables reads apart coded safe.2 shown
    (kept.draining.with_inst inst) staged
  have quiet : storesOf (c.2 ++ [events]) = stores := (storesOf_quiet none).trans kept.quiet
  rcases next with ⟨draining,stalls⟩ | completed
  · rw [none] at truthful
    refine .inl ⟨⟨truthful,draining,quiet⟩,fun ⟨events',longer,other,flows⟩ => stalls ?_ flows⟩
    rw [(List.append_cancel_left longer : [events] = [events']) |> List.singleton_inj.mp]
    exact other
  · exact .inr ⟨completed,quiet⟩

/-- A run in which the load drains completes it. -/
theorem run_drains {s t : Pipeline (MemoryState Framework) × List Events} {inputs : List CalleeLocals}
    (kept : l.Kept rs1_old f pt fixed L stores s)
    (safe : Guarded (cycle simulator) (fun c _ => Tidy f fixed c.1 ∧ FetchesFresh c.1) s inputs)
    (ran : run (cycle simulator) s inputs = .ok t) (drained : l.Drained s inputs t) :
    ∃ before locals after q r, inputs = before ++ locals :: after ∧ run (cycle simulator) s before = .ok q ∧
      cycle simulator q locals = .ok r ∧ l.Completed (l.result (f.view L) rs1_old) r.1 ∧ storesOf r.2 = stores := by
  have ends {t : Pipeline (MemoryState Framework) × List Events} {inputs : List CalleeLocals}
      (safe : Guarded (cycle simulator) (fun c _ => Tidy f fixed c.1 ∧ FetchesFresh c.1) s inputs)
      (ran : run (cycle simulator) s inputs = .ok t) :=
    guarded_until (l.Kept rs1_old f pt fixed L stores)
      (fun c => l.Completed (l.result (f.view L) rs1_old) c.1 ∧ storesOf c.2 = stores)
      (fun _ _ _ kept safe stepped => (cycle_drains tables reads apart coded kept safe stepped).imp_left And.left)
      kept safe ran
  rcases drained with gone | ⟨before,locals,after,q,r,rfl,reached,stepped,overtaken⟩
  · exact (ends safe ran).resolve_left fun kept => gone kept.draining.inFlight
  · obtain ⟨early,later⟩ := guarded_append safe
    rcases ends early reached with kept | ⟨before',a,after',q',r',rfl,reached',stepped',completed⟩
    · have completed := (cycle_drains tables reads apart coded kept (later q reached).1 stepped).resolve_left
        fun kept => kept.2 overtaken
      exact ⟨before,locals,after,q,r,rfl,reached,stepped,completed⟩
    · exact ⟨before',a,after' ++ locals :: after,q',r',by simp,reached',stepped',completed⟩

end

end Load

/-- `lw x5,256(x6)` at address 0, and the word at 256. -/
def loadBesideBase (i : Nat) : U32 := if i = 0 then 0x10032283 else if i = 64 then 4 else 0
def loadBesideBase.load : Load := ⟨0x10032283,0,4,true,rfl⟩

theorem loadBesideBase_low (i : Nat) (high : 0x100000 ≤ i) : loadBesideBase i = 0 := by
  unfold loadBesideBase
  repeat rw [if_neg (by omega)]

/-- `lw x5,256(x5)` at address 0, and the words at 256 and 260. -/
def loadOverBase (i : Nat) : U32 := if i = 0 then 0x1002A283 else if i = 64 then 4 else if i = 65 then 7 else 0
def loadOverBase.load : Load := ⟨0x1002A283,0,4,true,rfl⟩

end RiscvSim
