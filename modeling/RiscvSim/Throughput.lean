import RiscvSim.FlatPipeline

/-!
How far the pipeline comes. Over flat memory execute is without an instruction for at most two cycles in a row,
and three at the start: the word behind a redirect is squashed, and decode waits for a result at most
twice. So in a smooth run the pipeline executes an instruction at least every third cycle, and what it has written
back and stored is, to the last, what the sequential machine has after as many instructions. It stops
with an error only where the machine does.
-/
namespace RiscvSim
open Bytes Runs

section
variable {σ ι : Type}

/-! ### What execute and decode do without a live instruction -/

/-- An instruction waits for nothing once X holds no destination and M no load. -/
theorem operands_free {x : StageRegX} {m : StageRegM} (i : Instruction) (w : StageRegW) (file : RegisterFile)
    (load : m.readWrite ≠ .memory_read) (free : ∀ r : BitVec 5, isRegister (r.setWidth 64) x.rd = false) :
    operands i x m w file ≠ none := by
  have found (r : BitVec 5) : ∃ v, readable x m w file (r.setWidth 64) = some v := by
    unfold readable forwarded_register_read_single
    rw [free r]
    simp only [Bool.false_eq_true,if_false]
    split <;> rename_i outcome
    · split at outcome
      · cases outcome
      · split at outcome <;> cases outcome
    · exact ⟨_,rfl⟩
    · exact ⟨_,rfl⟩
  obtain ⟨zero,zeroed⟩ := found 0
  obtain ⟨v1,first⟩ := found i.rs1
  obtain ⟨v2,second⟩ := found i.rs2
  unfold operands
  simp only
  split
  · rename_i busy
    exact absurd busy.1 load
  split
  · simp
  split
  · rw [forwarded_register_read_eq,first,show (0 : U64) = (0 : BitVec 5).setWidth 64 from rfl,zeroed]
    simp
  · rw [forwarded_register_read_eq,first,second]
    simp

theorem isRegister_none (r : BitVec 5) : isRegister (r.setWidth 64) (-1) = false := by
  revert r
  decide

theorem executes_dead {x : StageRegX} {m : StageRegM} {w : StageRegW} {new_m_reg : StageRegM} {pc : U64}
    {table : BranchTable} {r : StageRegM × U64 × BranchTable × Option (U64 × U32)}
    (executed : Executes x m w new_m_reg pc table r) (flows : w.global_memory_stall = 0)
    (taint : m.tainted_executions = 0 ∨ m.tainted_executions = 1) (dead : ¬ Live x m) :
    r.1.readWrite = .nop ∧ r.1.tainted_executions = 0 := by
  cases executed with
  | replays stall => exact absurd flows stall
  | bubble => exact ⟨rfl,rfl⟩
  | squashes _ _ tainted =>
    have one : m.tainted_executions = 1 := taint.resolve_left fun zero => by
      rw [zero] at tainted
      exact absurd tainted (by decide)
    refine ⟨rfl,?_⟩
    rw [one]
    rfl
  | skips => exact ⟨rfl,rfl⟩
  | dispatches _ holds clean => exact absurd ⟨holds,by bv_omega⟩ dead

/-! ### The cycles until execute has an instruction -/

/-- The cycles until X holds an instruction that is executed, given that fetch delivers. -/
def Pipeline.lag (p : Pipeline σ) : Nat :=
  if Live p.cur_x_reg p.cur_m_reg then 0
  else if p.cur_d_reg.not_stalled = false then 3
  else if Waits p then 2
  else 1

theorem lag_held {p : Pipeline σ} (holds : p.cur_d_reg.not_stalled = true) : p.lag ≤ 2 := by
  unfold Pipeline.lag
  rw [holds]
  split
  · omega
  · simp only [Bool.true_eq_false,if_false]
    split <;> omega

theorem lag_ready {p : Pipeline σ} (holds : p.cur_d_reg.not_stalled = true) (ready : ¬ Waits p) : p.lag ≤ 1 := by
  unfold Pipeline.lag
  rw [holds,if_neg ready]
  split
  · omega
  · simp

/-- A cycle without a live instruction brings the next one nearer. -/
theorem lag_dead {ms : MemorySystem σ ι} {p p' : Pipeline σ} {locals : ι} {memory_mem fetch_mem : σ}
    {execute_pc decode_pc : U64} {events : Events}
    (staged : Staged ms p locals memory_mem execute_pc decode_pc fetch_mem p' events)
    (flows : p.cur_w_reg.global_memory_stall = 0)
    (taint : p.cur_m_reg.tainted_executions = 0 ∨ p.cur_m_reg.tainted_executions = 1)
    (dead : ¬ Live p.cur_x_reg p.cur_m_reg) (delivers : p'.cur_d_reg.not_stalled = true) : p'.lag + 1 ≤ p.lag := by
  obtain ⟨nop,clean⟩ := executes_dead staged.execute flows taint dead
  have decoded := staged.decode
  have few := lag_held delivers
  generalize next : (p'.cur_x_reg,decode_pc) = r at decoded
  cases decoded with
  | bubble empty =>
    have free : p.cur_d_reg.not_stalled = false := empty.resolve_right fun stall => stall flows
    have lag : p.lag = 3 := by rw [Pipeline.lag,if_neg dead,if_pos free]
    omega
  | waits holds _ busy =>
    have lag : p.lag = 2 := by
      rw [Pipeline.lag,if_neg dead,if_neg (by rw [holds]; decide),if_pos ⟨holds,busy⟩]
    -- what waits now is decoded again next to a bubble in X, and M is empty
    have ready : ¬ Waits p' := by
      rintro ⟨-,busy'⟩
      refine operands_free _ _ _ (by rw [nop]; decide) (fun r => ?_) busy'
      rw [(Prod.mk.inj next).1]
      exact isRegister_none r
    have lag' := lag_ready delivers ready
    omega
  | issues holds _ rs1_value rs2_value ready =>
    have live : Live p'.cur_x_reg p'.cur_m_reg := ⟨by rw [(Prod.mk.inj next).1],clean⟩
    have lag' : p'.lag = 0 := if_pos live
    have lag : 1 ≤ p.lag := by
      unfold Pipeline.lag
      rw [if_neg dead]
      split
      · omega
      · split <;> omega
    omega

/-! ### Which step of the machine a cycle is -/

section
variable {s t t' t'' : Machine} {R R' R'' : Machine → Prop} {p : Pipeline σ} {mem : FlatMemory} {log : List Events}
  {m : StageRegM} {pc : U64} {table : BranchTable}

/-- The registers that execute leaves fix the state of the machine. -/
theorem stepped_unique (first : Stepped s R' t p m pc table t') (second : Stepped s R'' t p m pc table t'') :
    t' = t'' := by
  have same : t'.pc = t''.pc := by
    rcases first.goes with ⟨⟨clean,-⟩,-,next⟩ | ⟨tainted,here,-⟩
    · rcases second.goes with ⟨-,-,next'⟩ | ⟨tainted,-⟩
      · exact next.symm.trans next'
      · exact absurd (clean.symm.trans tainted) (by decide)
    · rcases second.goes with ⟨⟨clean,-⟩,-⟩ | ⟨-,here',-⟩
      · exact absurd (clean.symm.trans tainted) (by decide)
      · exact here.symm.trans here'
  rw [← first.performed,← second.performed,same]

/-- X executes what the machine executes next, or both stop. -/
theorem live_dispatch (reference : Reference s R R') (tracks : Tracks s R p mem log t)
    (live : Live p.cur_x_reg p.cur_m_reg) (new_m_reg : StageRegM) :
    t.fetched = p.cur_x_reg.instruction ∧
      (dispatch p.cur_x_reg.instruction ⟨p.cur_x_reg.rs1_value,p.cur_x_reg.rs2_value⟩ (p.cur_x_reg.pc + 4)
        (new_m_reg.idle p.cur_x_reg.pc 0)).map Execution.view =
        (dispatch t.fetched t.operands (t.pc + 4) .zero).map Execution.view := by
  have issued := tracks.issued live
  have fetched : t.fetched = p.cur_x_reg.instruction := by
    rw [reference.fetched t tracks.reached,← issued.pc,← issued.word]
  refine ⟨fetched,(dispatch_view rfl).trans (congrArg _ ?_)⟩
  rw [← issued.pc,fetched]
  refine dispatch_agree ?_
  rw [Machine.operands,fetched]
  exact issued.operands

/-- A live instruction is a step of the machine. -/
theorem live_stepped (reference : Reference s R R') (tracks : Tracks s R p mem log t)
    (live : Live p.cur_x_reg p.cur_m_reg) {dispatched : Option (U64 × U32)}
    (executed : Executes p.cur_x_reg p.cur_m_reg p.cur_w_reg p.new_m_reg p.program_counter
      p.branch_table (m,pc,table,dispatched)) : ∃ t', Stepped s R' t p m pc table t' ∧ t.step = .ok t' := by
  cases executed with
  | replays stall => exact absurd tracks.settled.flows stall
  | bubble _ empty => exact absurd (empty.symm.trans live.1) Bool.false_ne_true
  | squashes _ _ tainted =>
    rw [live.2] at tainted
    exact absurd tainted (by decide)
  | skips _ _ _ zero =>
    have fetched := (live_dispatch reference tracks live p.new_m_reg).1
    exact ⟨_,skip_stepped reference tracks live zero _ _,by rw [Machine.step,if_pos (fetched.trans zero)]⟩
  | dispatches _ _ _ word e handled =>
    obtain ⟨fetched,same⟩ := live_dispatch reference tracks live p.new_m_reg
    rw [handled] at same
    refine ⟨_,dispatch_stepped reference tracks live word handled,?_⟩
    cases outcome : dispatch t.fetched t.operands (t.pc + 4) .zero with
    | error abort => rw [outcome] at same; cases same
    | ok e' =>
      rw [outcome] at same
      have view : e.view = e'.view := Except.ok.inj same
      have same_pc : e.pc = e'.pc := congrArg Prod.fst view
      have same_effect : e.m.effect = e'.m.effect := congrArg Prod.snd view
      exact Machine.step_word (by rw [fetched]; exact word) outcome (by rw [same_pc,same_effect])

/-- Without one the machine stays where it is. -/
theorem dead_stepped (reference : Reference s R R') (tracks : Tracks s R p mem log t)
    (dead : ¬ Live p.cur_x_reg p.cur_m_reg) {dispatched : Option (U64 × U32)}
    (executed : Executes p.cur_x_reg p.cur_m_reg p.cur_w_reg p.new_m_reg p.program_counter
      p.branch_table (m,pc,table,dispatched)) : Stepped s R' t p m pc table t := by
  cases executed with
  | replays stall => exact absurd tracks.settled.flows stall
  | bubble => exact idle_stepped reference tracks dead _ _
  | squashes _ _ tainted =>
    have one : p.cur_m_reg.tainted_executions = 1 := tracks.taint.resolve_left fun zero => by
      rw [zero] at tainted
      exact absurd tainted (by decide)
    rw [one]
    exact idle_stepped reference tracks dead _ _
  | skips _ holds clean => exact absurd ⟨holds,by bv_omega⟩ dead
  | dispatches _ holds clean => exact absurd ⟨holds,by bv_omega⟩ dead

end
end

/-! ### A run over flat memory -/

section
variable {size : U64} {s : Machine}

/-- The states that the machine comes to with a number of instructions, or one more. -/
theorem reference_count (undisturbed : s.Undisturbed) (k : Nat) :
    Reference s (fun t => s.after k = .ok t) (fun t => s.after k = .ok t ∨ s.after (k+1) = .ok t) where
  fetched _ reached := Machine.code_kept undisturbed (Machine.visits_after reached) reached
  keeps _ reached := .inl reached
  steps _ _ reached stepped := .inr (Machine.after_step reached stepped)
  visits _ reached := reached.elim Machine.visits_after Machine.visits_after

/-- After `k` instructions executed, `k₁` of them are past M and `k₂` written back, no more than the
    cycles done and not far less than a third of them. -/
structure Paced (s : Machine) (c : Pipeline FlatMemory × List Events) (k k₁ k₂ : Nat) (t t₁ t₂ : Machine) : Prop where
  tracks : Tracks s (fun u => s.after k = .ok u) c.1 c.1.mem c.2 t
  passed : s.after k₁ = .ok t₁
  written : s.after k₂ = .ok t₂
  retiring : ((architectural t₁.pc c.1.register_file c.1.mem c.2).perform c.1.cur_w_reg.effect).writes = t₁.writes
  stores : t₁.stores = storesOf c.2
  writes : t₂.writes = writesOf c.2
  most : k ≤ c.2.length
  executes : c.2.length + c.1.lag ≤ 3 * k + 3
  passes : c.2.length ≤ 3 * k₁ + 4
  retires : c.2.length ≤ 3 * k₂ + 5

theorem perform_writeback_stores (a : Machine) (w : StageRegW) : (a.perform w.effect).stores = a.stores := by
  unfold StageRegW.effect
  split <;> rfl

theorem flat_delivers {mem : FlatMemory} {locals : Unit} {d new_d_reg : StageRegD} {pc : U64} {table : BranchTable}
    {r : StageRegD × U64 × Option (U64 × U32) × FlatMemory}
    (fetched : Fetches (flat size) mem locals d new_d_reg pc table r) :
    r.1.not_stalled = true := by
  cases fetched with
  | walks status physical_pc mem' translated unfinished =>
    cases translated
    exact absurd rfl unfinished.1
  | misses status physical_pc mem' read_status instruction mem'' translated finished read missed =>
    cases read
    exact absurd rfl missed
  | delivers => rfl

/-- The memory and fetch stages never fail. -/
theorem flat_memory_total (size : U64) (mem : FlatMemory) (m : StageRegM) (w new_w_reg : StageRegW) :
    ∃ r, stage_memory (flat size) mem () m w new_w_reg = .ok r := by
  unfold stage_memory
  split
  · exact ⟨_,rfl⟩
  cases m.readWrite with
  | nop => exact ⟨_,rfl⟩
  | register_write => exact ⟨_,rfl⟩
  | memory_read => exact ⟨_,rfl⟩
  | memory_write => exact ⟨_,rfl⟩

theorem flat_fetch_total (size : U64) (mem : FlatMemory) (d new_d_reg : StageRegD) (pc : U64) (table : BranchTable) :
    ∃ r, stage_fetch (flat size) mem () d new_d_reg pc table = .ok r := ⟨_,rfl⟩

theorem flat_stages_total (size : U64) {p : Pipeline FlatMemory}
    (executes : ∃ r, stage_execute p.cur_x_reg p.cur_m_reg p.cur_w_reg p.new_m_reg
    p.program_counter p.branch_table = .ok r) : ∃ r, stages (flat size) p () = .ok r := by
  obtain ⟨⟨m,pc,table,dispatched⟩,execute⟩ := executes
  obtain ⟨⟨w,stored,mem⟩,memory⟩ := flat_memory_total size p.mem p.cur_m_reg p.cur_w_reg p.new_w_reg
  obtain ⟨r,fetch⟩ := flat_fetch_total size mem p.cur_d_reg p.new_d_reg
    (stage_decode p.cur_d_reg p.cur_x_reg p.cur_m_reg p.cur_w_reg p.new_x_reg
      (stage_writeback p.cur_w_reg p.register_file) pc).2 table
  exact ⟨_,bind_ok.mpr ⟨_,memory,bind_ok.mpr ⟨_,execute,bind_ok.mpr ⟨r,fetch,rfl⟩⟩⟩⟩

variable {c : Pipeline FlatMemory × List Events} {k k₁ k₂ : Nat} {t t₁ t₂ : Machine}

/-- A cycle passes every count on to the next, and executes an instruction unless none is live. -/
theorem paced_step (undisturbed : s.Undisturbed) (paced : Paced s c k k₁ k₂ t t₁ t₂) (smooth : Smooth c.1) {inst : U32}
    {p : Pipeline FlatMemory} {events : Events}
    (ran : stages (flat size) { c.1 with inst := inst } () = .ok (p,events)) :
    ∃ k' t', Paced s (p,c.2 ++ [events]) k' k k₁ t' t t₁ := by
  obtain ⟨memory_mem,execute_pc,decode_pc,fetch_mem,staged⟩ := stages_staged ran
  have tracks : Tracks s (fun u => s.after k = .ok u) { c.1 with inst := inst } c.1.mem c.2 t := { paced.tracks with }
  have reference := reference_count undisturbed k
  obtain ⟨_,_,fits⟩ := tracks.fits
  have retires := flat_retires tracks.settled fits staged.memory
  have memory : t.memory = memory_mem := retired_memory tracks retires
  have code {pc : U64} (visited : s.Visits pc) : memory_mem.word (pc.setWidth 32) = s.code pc := by
    rw [← memory]
    exact Machine.code_kept undisturbed visited tracks.reached
  obtain ⟨supplied,kept⟩ := flat_supplied code staged.fetch
  have same : p.mem = memory_mem := staged.mem.trans kept
  obtain ⟨t',stepped,tracks'⟩ := tracks_step reference tracks smooth staged retires supplied
  have delivers : p.cur_d_reg.not_stalled = true := flat_delivers staged.fetch
  have after := retired_cycle tracks staged retires t.pc
  have length : (c.2 ++ [events]).length = c.2.length + 1 := by rw [List.length_append]; rfl
  have executes := paced.executes
  have most := paced.most
  have passes := paced.passes
  have common (k' : Nat) (reached : s.after k' = .ok t') (more : k' ≤ c.2.length + 1) (less : c.2.length + 1 +
    p.lag ≤ 3 * k' + 3) :
      Paced s (p,c.2 ++ [events]) k' k k₁ t' t t₁ := {
    tracks := same ▸ { tracks' with reached := reached }
    passed := tracks.reached
    written := paced.passed
    retiring := by
      have writes := congrArg Machine.writes after
      rw [same]
      exact writes
    stores := by
      have stores := congrArg Machine.stores after
      rw [perform_writeback_stores] at stores
      exact stores.symm
    writes := by
      have writes := congrArg Machine.writes (architectural_cycle staged t₁.pc c.1.mem memory_mem c.2)
      exact (writes.trans paced.retiring).symm
    most := by rw [length]; exact more
    executes := by rw [length]; exact less
    passes := by rw [length]; omega
    retires := by rw [length]; omega }
  by_cases live : Live c.1.cur_x_reg c.1.cur_m_reg
  · obtain ⟨t'',stepped',step⟩ := live_stepped reference tracks live staged.execute
    cases stepped_unique stepped stepped'
    have few := lag_held delivers
    exact ⟨k+1,t',common (k+1) (Machine.after_step tracks.reached step) (by omega) (by omega)⟩
  · cases stepped_unique stepped (dead_stepped reference tracks live staged.execute)
    have less := lag_dead staged tracks.settled.flows tracks.taint live delivers
    have same_lag : Pipeline.lag { c.1 with inst := inst } = c.1.lag := rfl
    exact ⟨k,t,common k tracks.reached (by omega) (by omega)⟩

/-- Execute fails only if the machine does. -/
theorem execute_total (undisturbed : s.Undisturbed) {p : Pipeline FlatMemory} {mem : FlatMemory} {log : List Events}
    (tracks : Tracks s (fun u => s.after k = .ok u) p mem log t) (next : ∃ u, s.after (k+1) = .ok u) :
    ∃ r, stage_execute p.cur_x_reg p.cur_m_reg p.cur_w_reg p.new_m_reg p.program_counter p.branch_table = .ok r := by
  unfold stage_execute
  rw [if_neg (not_not.mpr tracks.settled.flows)]
  split
  · exact ⟨_,rfl⟩
  rename_i full
  split
  · exact ⟨_,rfl⟩
  rename_i clean
  split
  · exact ⟨_,rfl⟩
  rename_i word
  have live : Live p.cur_x_reg p.cur_m_reg := ⟨by simpa using full,by bv_omega⟩
  obtain ⟨fetched,same⟩ := live_dispatch (reference_count undisturbed k) tracks live p.new_m_reg
  obtain ⟨u,reached⟩ := next
  obtain ⟨t₀,before,stepped⟩ := bind_ok.mp reached
  cases before.symm.trans tracks.reached
  rw [Machine.step,if_neg (by rw [fetched]; exact word)] at stepped
  obtain ⟨e,handled,-⟩ := bind_ok.mp stepped
  rw [handled] at same
  cases outcome : dispatch p.cur_x_reg.instruction ⟨p.cur_x_reg.rs1_value,p.cur_x_reg.rs2_value⟩ (p.cur_x_reg.pc + 4)
      (p.new_m_reg.idle p.cur_x_reg.pc 0) with
  | error abort => rw [outcome] at same; cases same
  | ok e' => exact ⟨_,bind_ok.mpr ⟨e',outcome,rfl⟩⟩

theorem flat_rereads : (flat size).Rereads := by
  intro mem pc inst
  unfold flat
  simp only
  split <;> rfl

/-- A run goes on as long as the machine does, or stops at an EBREAK. -/
theorem paced_run (undisturbed : s.Undisturbed) (n : Nat) (paced : Paced s c k k₁ k₂ t t₁ t₂)
    (smooth : Guarded (cycle (flat size)) (fun c _ => Smooth c.1) c (List.replicate n ()))
    (proceeds : ∀ j ≤ c.2.length + n, ∃ u, s.after j = .ok u) :
    ∃ c' k k₁ k₂ t t₁ t₂, run (cycle (flat size)) c (List.replicate n ()) = .ok c' ∧ Paced s c' k k₁ k₂ t t₁ t₂ ∧
      (c'.2.length = c.2.length + n ∨ c'.1.Stopped (flat size)) := by
  induction n generalizing c k k₁ k₂ t t₁ t₂ with
  | zero => exact ⟨c,k,k₁,k₂,t,t₁,t₂,rfl,paced,.inl rfl⟩
  | succ n ih =>
    by_cases stopped : c.1.Stopped (flat size)
    · obtain ⟨inst,ran,still⟩ := stopped_run flat_rereads stopped (List.replicate (n+1) ())
      exact ⟨_,k,k₁,k₂,t,t₁,t₂,ran,{ paced with tracks := { paced.tracks with } },.inr still⟩
    obtain ⟨here,later⟩ := smooth
    have most := paced.most
    have tracks : Tracks s (fun u => s.after k = .ok u)
        { c.1 with inst := (flat size).inst_at c.1.mem c.1.program_counter c.1.inst } c.1.mem c.2 t :=
        { paced.tracks with }
    obtain ⟨⟨p,events⟩,ran⟩ := flat_stages_total size (execute_total undisturbed tracks (proceeds (k+1) (by omega)))
    have turn : cycle (flat size) c () = .ok (p,c.2 ++ [events]) := by
      unfold cycle
      exact (if_neg stopped).trans (bind_ok.mpr ⟨_,ran,rfl⟩)
    obtain ⟨k',t',paced'⟩ := paced_step undisturbed paced here ran
    have length : (c.2 ++ [events]).length = c.2.length + 1 := by rw [List.length_append]; rfl
    obtain ⟨c',_,_,_,_,_,_,ran',paced'',last⟩ := ih paced' (later _ turn) (by
      intro j less
      exact proceeds j (by rw [length] at less; omega))
    refine ⟨c',_,_,_,_,_,_,?_,paced'',?_⟩
    · rw [List.replicate_succ,run,turn]
      exact ran'
    · rw [length] at last
      exact last.imp_left fun same => by omega

theorem paced_initial (mem : FlatMemory) (pc : U64) (file : RegisterFile) (buffers : LoopLocals) :
    Paced (Machine.start pc file mem) (Pipeline.initial mem pc file buffers) 0 0 0 (Machine.start pc file mem)
      (Machine.start pc file mem) (Machine.start pc file mem) where
  tracks := tracks_initial mem mem pc file buffers rfl
  passed := rfl
  written := rfl
  retiring := rfl
  stores := rfl
  writes := rfl
  most := le_rfl
  executes := by
    rw [Pipeline.lag,if_neg (fun live => Bool.false_ne_true live.1)]
    exact le_rfl
  passes := Nat.zero_le _
  retires := Nat.zero_le _

end

/-- The pipeline keeps up with the sequential machine: in a run over flat memory whose cycles are all smooth, it
    never stops with an error while the machine does not, and what it has written back and stored is all of what the
    machine has after a number of instructions that is at least about a third of the cycles. -/
theorem pipeline_keeps_up (size : U64) (mem : FlatMemory) (pc : U64) (file : RegisterFile)
    (buffers : LoopLocals) (n : Nat) (undisturbed : (Machine.start pc file mem).Undisturbed)
    (smooth : Guarded (cycle (flat size)) (fun c _ => Smooth c.1) (Pipeline.initial mem pc file buffers)
      (List.replicate n ()))
    (proceeds : ∀ j ≤ n, ∃ u, (Machine.start pc file mem).after j = .ok u) :
    ∃ p log, run (cycle (flat size)) (Pipeline.initial mem pc file buffers) (List.replicate n ()) = .ok (p,log) ∧
      (log.length = n ∨ p.Stopped (flat size)) ∧
      (∃ k t, (Machine.start pc file mem).after k = .ok t ∧ log.length ≤ 3 * k + 5 ∧ writesOf log = t.writes) ∧
      ∃ k t, (Machine.start pc file mem).after k = .ok t ∧ log.length ≤ 3 * k + 4 ∧ storesOf log = t.stores := by
  have none : (Pipeline.initial mem pc file buffers).2.length + n = n := Nat.zero_add n
  obtain ⟨⟨p,log⟩,k,k₁,k₂,t,t₁,t₂,ran,paced,last⟩ := paced_run undisturbed n (paced_initial mem pc file buffers) smooth
    (by rw [none]; exact proceeds)
  rw [none] at last
  exact ⟨p,log,ran,last,⟨k₂,t₂,paced.written,paced.retires,paced.writes.symm⟩,k₁,t₁,paced.passed,paced.passes,
    paced.stores.symm⟩

/-- Twelve cycles of the loop have written back what at least three instructions write. -/
theorem pipeline_keeps_up_counting : ∃ p log k t,
    run (cycle (flat 0x800000)) (Pipeline.initial (flatOfWords counting) 0 (fun _ => 0) zeroBuffers)
    (List.replicate 12 ()) = .ok (p,log) ∧
    (Machine.start 0 (fun _ => 0) (flatOfWords counting)).after k = .ok t ∧ 12 ≤ 3 * k + 5 ∧
    writesOf log = t.writes := by
  have smooth : Guarded (cycle (flat 0x800000)) (fun c _ => Smooth c.1)
      (Pipeline.initial (flatOfWords counting) 0 (fun _ => 0) zeroBuffers) (List.replicate 12 ()) := by decide +kernel
  have result : okAnd (run (cycle (flat 0x800000)) (Pipeline.initial (flatOfWords counting) 0 (fun _ => 0) zeroBuffers)
      (List.replicate 12 ())) (fun c => decide (c.2.length = 12)) = true := by decide +kernel
  have steps : (List.range 13).all (fun j => okAnd ((Machine.start 0 (fun _ => 0) (flatOfWords counting)).after j)
      fun _ => true) = true := by
    decide +kernel
  have proceeds (j : Nat) (less : j ≤ 12) : ∃ u, (Machine.start 0 (fun _ => 0) (flatOfWords counting)).after j =
      .ok u := by
    obtain ⟨u,reached,-⟩ := okAnd_iff.mp (List.all_eq_true.mp steps j (List.mem_range.mpr (by omega)))
    exact ⟨u,reached⟩
  obtain ⟨c,ran',full⟩ := okAnd_iff.mp result
  obtain ⟨p,log,ran,-,⟨k,t,reached,less,writes⟩,-⟩ := pipeline_keeps_up 0x800000 _ 0 _ _ 12 counting_undisturbed
    smooth proceeds
  cases ran.symm.trans ran'
  exact ⟨p,log,k,t,ran,reached,of_decide_eq_true full ▸ less,writes⟩

end RiscvSim
