import RiscvSim.Tidy

/-!
The results of a program and the latency of memory. A cycle of the pipeline either retires what is in M or
saves it, to be executed again (`accesses_outcome`); so it keeps to the states of the sequential machine,
whatever the latencies, in runs that meet none of the defects of the caches, the TLBs and the replay
(`Calm`). Two such runs of one program that come to its end agree on the registers and on memory.
-/
namespace RiscvSim
open Bytes Runs

/-! ### The memory stage -/

section
variable {f : PageMap} {pt : PageTables} {fixed : U64 → Bool} {V : FlatMemory} {L m₀ : U64 → Byte}
  {mem mem' : MemoryState Framework} {locals : CalleeLocals} {m : StageRegM} {w new_w_reg w' : StageRegW}
  {stored : Option (U64 × U8 × U64)}

/-- The M stage saves the access, or retires what is in M. -/
theorem accesses_outcome (tables : ∀ o, pt.Bytes o → fixed o = true) (reads : f.Reads pt)
    (finds : MemoryFinds f pt fixed mem m) (kept : DataKept f pt fixed L mem m) (reflects : f.Reflects m₀ V L)
    (clean : w.tainted_executions = 0)
    (loads : m.readWrite = .memory_read → new_w_reg.value.toNat < 2^(8 * m.size.toNat)) {instruction : Instruction}
    {writes_rd : Bool} (fits : m.effect.Fits instruction writes_rd)
    (accessed : Accesses simulator mem locals m w new_w_reg (w',stored,mem')) :
    Stalls m w' stored ∨ ∃ V', Retires V m w' stored V' ∧ f.Reflects m₀ V' (f.after L stored) := by
  have outcome := (accesses_kept tables reads finds kept clean accessed).2.imp_left And.left
  cases accessed with
  | squashes tainted =>
    rw [clean] at tainted
    exact absurd tainted (by decide)
  | forwards _ op => exact .inr ⟨V,retires_register _ op fits,reflects⟩
  | idle _ op => exact .inr ⟨V,retires_nop _ op,reflects⟩
  | walks _ code op =>
    refine outcome.imp_right fun ended => ?_
    rcases op with ⟨-,rfl⟩ | ⟨-,rfl⟩
    · exact absurd ended.1 (show (2 : U8) ≠ 0 by decide)
    · exact absurd ended.1 (show (3 : U8) ≠ 0 by decide)
  | load_misses _ op status physical_address mem₁ translated finished missed value mem₂ read stall =>
    refine outcome.imp_right fun ended => ?_
    have code : (if missed = 2 then 4 else 1 : U8) = 0 := ended.1
    split at code <;> exact absurd code (by decide)
  | loads _ op status physical_address mem₁ translated finished value mem₂ read =>
    have small : m.signExtend = true → m.size = 1 ∨ m.size = 2 ∨ m.size = 4 := by
      rw [show m.effect = .load m.reg m.address m.size m.signExtend by rw [StageRegM.effect,op]] at fits
      exact fits.2
    exact .inr ⟨V,retires_load _ op fits (loads_value tables reads finds kept op translated finished read reflects
      small (loads op)),reflects⟩
  | store_misses _ op status physical_address mem₁ translated finished missed mem₂ write stall =>
    refine outcome.imp_right fun ended => ?_
    have code : (if missed = 2 then 5 else 1 : U8) = 0 := ended.1
    split at code <;> exact absurd code (by decide)
  | stores _ op status physical_address mem₁ translated finished mem₂ write =>
    have fits : (m.address.setWidth 32 : U32).toNat % 8 + m.size.toNat ≤ 8 := by
      rw [← f.place_mod]
      exact (finds.serves (.inr op)).aligned.fits
    exact .inr ⟨_,retires_store _ op,reflects.store fits⟩

end

/-! ### Fetch -/

/-- Fetch supplies the word at the pc, if what D then holds is what fetch delivered, and is that word. -/
theorem fetches_supplied {σ ι : Type} {ms : MemorySystem σ ι} {mem : σ} {locals : ι} {d new_d_reg : StageRegD}
    {pc : U64} {table : BranchTable} {r : StageRegD × U64 × Option (U64 × U32) × σ} {s : Machine}
    (fetched : Fetches ms mem locals d new_d_reg pc table r) (held : r.1.held = r.2.2.1.toList)
    (word : r.1.not_stalled = true → r.1.instruction = s.code r.1.pc) :
    Supplied s pc table r.1 r.2.1 := by
  cases fetched with
  | walks =>
    refine .inl ⟨?_,rfl⟩
    by_contra holds
    rw [StageRegD.held,if_pos (Bool.eq_true_of_not_eq_false holds)] at held
    cases held
  | misses => exact .inl ⟨rfl,rfl⟩
  | delivers => exact .inr ⟨rfl,rfl,rfl,rfl,fun _ => word rfl⟩

/-! ### Runs -/

/-- A state that meets none of the defects. It is tidy, and fetch leaves no old instruction in D. With no stall the
    cycle is smooth, and a load finds an object no larger than itself. Behind a stall M is flushed or idle, and what
    is saved can be executed twice. -/
structure Calm (f : PageMap) (fixed : U64 → Bool) (s : Machine) (p : Pipeline (MemoryState Framework)) :
    Prop extends Tidy f fixed p where
  fresh : FetchesFresh p
  smooth : p.cur_w_reg.global_memory_stall = 0 → Smooth p
  loads : p.cur_w_reg.global_memory_stall = 0 → p.cur_m_reg.readWrite = .memory_read →
    p.new_w_reg.value.toNat < 2^(8 * p.cur_m_reg.size.toNat)
  behind : p.cur_w_reg.global_memory_stall ≠ 0 →
    p.cur_w_reg.tainted_executions = 1 ∨ p.cur_w_reg.tainted_executions = 0 ∧ p.cur_m_reg.readWrite = .nop
  repeats : p.cur_w_reg.global_memory_stall ≠ 0 →
    Machine.Repeats (s.code p.cur_w_reg.memory_register.pc) p.cur_w_reg.memory_register.effect

instance (f : PageMap) (fixed : U64 → Bool) (s : Machine) (p : Pipeline (MemoryState Framework)) :
    Decidable (Calm f fixed s p) :=
  decidable_of_iff (Tidy f fixed p ∧ FetchesFresh p ∧ (p.cur_w_reg.global_memory_stall = 0 → Smooth p) ∧
    (p.cur_w_reg.global_memory_stall = 0 → p.cur_m_reg.readWrite = .memory_read →
      p.new_w_reg.value.toNat < 2^(8 * p.cur_m_reg.size.toNat)) ∧
    (p.cur_w_reg.global_memory_stall ≠ 0 →
      p.cur_w_reg.tainted_executions = 1 ∨ p.cur_w_reg.tainted_executions = 0 ∧ p.cur_m_reg.readWrite = .nop) ∧
    (p.cur_w_reg.global_memory_stall ≠ 0 →
      Machine.Repeats (s.code p.cur_w_reg.memory_register.pc) p.cur_w_reg.memory_register.effect))
    ⟨fun ⟨tidy,fresh,smooth,loads,behind,repeats⟩ => ⟨tidy,fresh,smooth,loads,behind,repeats⟩,
      fun calm => ⟨calm.toTidy,calm.fresh,calm.smooth,calm.loads,calm.behind,calm.repeats⟩⟩

/-- After `n` cycles the caches and the TLBs are truthful to bytes that are those of the machine's memory, and the
    pipeline is at a state of the machine, or an access is saved. -/
def Follows (f : PageMap) (pt : PageTables) (fixed : U64 → Bool) (s : Machine) (n : Nat)
    (p : Pipeline (MemoryState Framework)) (log : List Events) : Prop :=
  ∃ V L, f.Reflects pt.mem V L ∧ Truthful f pt fixed L p ∧
    ((∃ t, Tracks s (s.Near n) p V log t ∧ Origin (s.Near n) p V log) ∨ Suspended s (s.Near n) p V log)

section
variable {f : PageMap} {pt : PageTables} {fixed : U64 → Bool} {s : Machine} {n : Nat}
  {p p' : Pipeline (MemoryState Framework)} {log : List Events} {locals : CalleeLocals}

section
variable {memory_mem fetch_mem : MemoryState Framework} {execute_pc decode_pc : U64} {events : Events} {V : FlatMemory}
  {L : U64 → Byte} (tables : ∀ o, pt.Bytes o → fixed o = true) (reads : f.Reads pt)
  (staged : Staged simulator p locals memory_mem execute_pc decode_pc fetch_mem p' events) (calm : Calm f fixed s p)
  (shown : Shown f pt fixed L p events)
include staged calm shown

theorem calm_supplied (code : s.memory = f.view pt.mem) :
    Supplied s decode_pc p'.branch_table p'.cur_d_reg p'.program_counter := by
  have held := staged_held calm.fresh staged
  refine fetches_supplied staged.fetch held fun holds => ?_
  rw [StageRegD.held,if_pos holds] at held
  have delivered : events.delivered = some (p'.cur_d_reg.pc,p'.cur_d_reg.instruction) := by
    cases found : events.delivered with
    | none => rw [found] at held; cases held
    | some d => rw [found] at held; cases held; rfl
  obtain ⟨word,aligned⟩ := shown.word _ _ delivered
  rw [Machine.code,code,f.view_word _ aligned]
  exact word

include tables reads in
theorem follows_tracked {t : Machine} (code : s.memory = f.view pt.mem) (undisturbed : s.UndisturbedFor n)
    (reflects : f.Reflects pt.mem V L) (truthful : Truthful f pt fixed (f.after L events.stored) p')
    (tracks : Tracks s (s.Near n) p V log t) (origin : Origin (s.Near n) p V log) :
    Follows f pt fixed s (n+1) p' (log ++ [events]) := by
  obtain ⟨_,_,fits⟩ := tracks.fits
  have flows := tracks.settled.flows
  have reference := Machine.reference_near undisturbed
  rcases accesses_outcome tables reads (shown.finds flows) (shown.kept flows) reflects tracks.settled.clean
    (calm.loads flows) fits staged.memory with stalls | ⟨V',retires,reflects'⟩
  · rw [stalls.made] at truthful
    exact ⟨V,L,reflects,truthful,.inr (tracks_suspended reference tracks origin staged stalls)⟩
  · obtain ⟨t',stepped,tracks'⟩ := tracks_step reference tracks (calm.smooth flows) staged retires
      (calm_supplied staged calm shown code)
    exact ⟨V',_,reflects',truthful,.inl ⟨t',tracks',stepped_origin reference tracks staged retires stepped⟩⟩

theorem follows_suspended (code : s.memory = f.view pt.mem) (undisturbed : s.UndisturbedFor n)
    (reflects : f.Reflects pt.mem V L) (truthful : Truthful f pt fixed (f.after L events.stored) p')
    (suspended : Suspended s (s.Near n) p V log) :
    Follows f pt fixed s (n+1) p' (log ++ [events]) := by
  have behind := calm.behind suspended.stall
  obtain ⟨silent,-⟩ := suspended_bubble behind staged.memory
  obtain ⟨-,t,tracks,origin⟩ := suspended_tracks undisturbed suspended behind (calm.repeats suspended.stall) staged
    (calm_supplied staged calm shown code)
  rw [silent] at truthful
  exact ⟨V,L,reflects,truthful,.inl ⟨t,tracks,origin⟩⟩

end

section
variable (tables : ∀ o, pt.Bytes o → fixed o = true) (reads : f.Reads pt) (code : s.memory = f.view pt.mem)
include tables reads code

/-- A turn of the loop. -/
theorem cycle_follows {c c' : Pipeline (MemoryState Framework) × List Events} (undisturbed : s.UndisturbedFor n)
    (follows : Follows f pt fixed s n c.1 c.2) (calm : Calm f fixed s c.1)
    (stepped : cycle simulator c locals = .ok c') :
    Follows f pt fixed s (n+1) c'.1 c'.2 := by
  obtain ⟨V,L,reflects,truthful,at_state⟩ := follows
  rcases cycle_cases stepped with ⟨inst,rfl⟩ | ⟨inst,p',events,ran,rfl⟩
  · refine ⟨V,L,reflects,truthful.withInst inst,at_state.imp ?_ fun suspended => ?_⟩
    · rintro ⟨t,tracks,origin⟩
      exact ⟨t,{ tracks with reached := tracks.reached.mono (by omega) },
        origin.imp_right (.imp_left (·.mono (by omega)))⟩
    · exact { suspended with reached := suspended.reached.mono (by omega) }
  have calm : Calm f fixed s { c.1 with inst := inst } := { calm with }
  obtain ⟨memory_mem,execute_pc,decode_pc,fetch_mem,staged,truthful',shown⟩ :=
    stages_truthful tables reads (truthful.withInst inst) calm.toTidy ran
  rcases at_state with ⟨t,tracks,origin⟩ | suspended
  · have tracks : Tracks s (s.Near n) { c.1 with inst := inst } V c.2 t := { tracks with }
    exact follows_tracked tables reads staged calm shown code undisturbed reflects truthful' tracks origin
  · have suspended : Suspended s (s.Near n) { c.1 with inst := inst } V c.2 := { suspended with }
    exact follows_suspended staged calm shown code undisturbed reflects truthful' suspended

/-- A run of `n` cycles. -/
theorem run_follows {c c' : Pipeline (MemoryState Framework) × List Events} {inputs : List CalleeLocals}
    (undisturbed : s.UndisturbedFor inputs.length) (start : Follows f pt fixed s 0 c.1 c.2)
    (calm : Guarded (cycle simulator) (fun c _ => Calm f fixed s c.1) c inputs)
    (ran : run (cycle simulator) c inputs = .ok c') :
    Follows f pt fixed s inputs.length c'.1 c'.2 := by
  have follows := guarded_counted (fun n c => n ≤ inputs.length → Follows f pt fixed s n c.1 c.2) ?_
    (fun _ => start) calm ran
  · rw [Nat.zero_add] at follows
    exact follows (Nat.le_refl _)
  · intro n c locals c' follows calm stepped more
    exact cycle_follows tables reads code (undisturbed.mono (by omega)) (follows (by omega)) calm stepped

end

/-! ### The end of the program -/

/-- There are `n` zero words from the address on. -/
def Machine.PastEnd (s : Machine) (n : Nat) (pc : U64) : Prop := ∀ j < n, s.code (pc + 4 * BitVec.ofNat 64 j) = 0

/-- Every pipeline register holds a bubble or a zero word past the end of the program. -/
structure Drained (s : Machine) (n : Nat) (p : Pipeline (MemoryState Framework)) : Prop where
  writeback : p.cur_w_reg.op = false ∧ p.cur_w_reg.global_memory_stall = 0
  memory : p.cur_m_reg.readWrite = .nop
  execute : p.cur_x_reg.not_stalled = true → s.PastEnd n p.cur_x_reg.pc
  decode : p.cur_d_reg.not_stalled = true → s.PastEnd n p.cur_d_reg.pc
  fetch : s.PastEnd n p.program_counter

instance (s : Machine) (n : Nat) (pc : U64) : Decidable (s.PastEnd n pc) := Nat.decidableBallLT _ _
instance (s : Machine) (n : Nat) (p : Pipeline (MemoryState Framework)) : Decidable (Drained s n p) :=
  decidable_of_iff ((p.cur_w_reg.op = false ∧ p.cur_w_reg.global_memory_stall = 0) ∧ p.cur_m_reg.readWrite = .nop ∧
    (p.cur_x_reg.not_stalled = true → s.PastEnd n p.cur_x_reg.pc) ∧
    (p.cur_d_reg.not_stalled = true → s.PastEnd n p.cur_d_reg.pc) ∧ s.PastEnd n p.program_counter)
    ⟨fun ⟨writeback,memory,execute,decode,fetch⟩ => ⟨writeback,memory,execute,decode,fetch⟩,
      fun drained => ⟨drained.writeback,drained.memory,drained.execute,drained.decode,drained.fetch⟩⟩

/-- A machine past the end of its program only moves its pc. -/
theorem after_end {k j : Nat} {u v : Machine} (undisturbed : s.UndisturbedFor n) (reached : s.after k = .ok u)
    (past : s.PastEnd n u.pc) (later : s.after (k+j) = .ok v) (small : k + j ≤ n) :
    v = { u with pc := u.pc + 4 * BitVec.ofNat 64 j } := by
  induction j generalizing v with
  | zero =>
    cases reached.symm.trans later
    simp
  | succ j ih =>
    obtain ⟨w,reached' : s.after (k+j) = .ok w,stepped⟩ := bind_ok.mp later
    obtain rfl := ih reached' (by omega)
    have skips := (Machine.after_fetched undisturbed (by omega) reached').trans (past j (by omega))
    rw [Machine.step,if_pos skips] at stepped
    cases stepped
    have moved : u.pc + 4 * BitVec.ofNat 64 j + 4 = u.pc + 4 * BitVec.ofNat 64 (j+1) := by
      rw [BitVec.add_assoc,BitVec.ofNat_add,BitVec.mul_add]
      rfl
    rw [← moved]

/-- A drained pipeline shows the registers and the memory of a state of the machine past the end. -/
theorem drained_state {N : Nat} (undisturbed : s.UndisturbedFor n) (more : N ≤ n)
    (follows : Follows f pt fixed s N p log) (drained : Drained s n p) :
    ∃ k u, k ≤ n ∧ s.after k = .ok u ∧ s.PastEnd n u.pc ∧ u.registers = .ofFile p.register_file ∧
      f.Reflects pt.mem u.memory (p.mem.data_cache.logical p.mem.framework) := by
  obtain ⟨V,L,reflects,truthful,at_state⟩ := follows
  obtain ⟨t,tracks,-⟩ := at_state.resolve_right fun suspended => suspended.stall drained.writeback.2
  have past : s.PastEnd n t.pc := by
    by_cases live : Live p.cur_x_reg p.cur_m_reg
    · exact (tracks.issued live).pc ▸ drained.execute live.1
    · have next : nextPc p.cur_x_reg p.cur_m_reg t.pc = t.pc := nextPc_dead live _
      cases holds : p.cur_d_reg.not_stalled with
      | true => exact (tracks.held holds).1.trans next ▸ drained.decode holds
      | false => exact (tracks.empty holds).trans next ▸ drained.fetch
  have whole : architectural t.pc p.register_file V log = t := by
    have retired := tracks.retired
    rw [show p.cur_w_reg.effect = .nothing by simp [StageRegW.effect,drained.writeback.1],
      show p.cur_m_reg.effect = .nothing by rw [StageRegM.effect,drained.memory]] at retired
    exact retired
  have idle : ¬ p.request.Accesses := by
    rw [Pipeline.request,if_pos tracks.settled.flows]
    simp [StageRegM.Accesses,drained.memory]
  rw [(truthful.data.rests idle).stands.logical_eq]
  obtain ⟨k,u,reached,⟨small,same⟩ | ⟨small,again⟩⟩ := tracks.reached
  · refine ⟨k,u,by omega,reached,same.pc ▸ past,?_,?_⟩
    · rw [← same.registers,← whole]
      rfl
    · rw [← same.memory,← whole]
      exact reflects
  · obtain ⟨_,⟨nonzero,-⟩,-,same⟩ := again
    refine absurd ?_ nonzero
    have here : t.pc = u.pc := same.pc
    have word := past 0 (by omega)
    rw [Machine.after_fetched undisturbed (by omega) reached,← here]
    simpa using word

/-- The machine does not change past the end. -/
theorem ended_eq {j k : Nat} {u v : Machine} (undisturbed : s.UndisturbedFor n) (small : j ≤ n ∧ k ≤ n)
    (first : s.after j = .ok u) (second : s.after k = .ok v) (past : s.PastEnd n u.pc ∧ s.PastEnd n v.pc) :
    u.registers = v.registers ∧ u.memory = v.memory := by
  rcases Nat.le_total j k with less | more
  · obtain ⟨d,rfl⟩ := Nat.exists_eq_add_of_le less
    rw [after_end undisturbed first past.1 second small.2]
    exact ⟨rfl,rfl⟩
  · obtain ⟨d,rfl⟩ := Nat.exists_eq_add_of_le more
    rw [after_end undisturbed second past.2 first small.1]
    exact ⟨rfl,rfl⟩

end

theorem follows_launched (f : PageMap) (pt : PageTables) (fixed : U64 → Bool) (size : pt.size = 8 * 1024 * 1024)
    (read_latency write_latency pc : U64) (file : RegisterFile) (buffers : LoopLocals) :
    Follows f pt fixed (Machine.start pc file (f.view pt.mem)) 0 (launched pt.mem pt.ptbr read_latency write_latency pc
      file buffers).1 [] :=
  ⟨f.view pt.mem,pt.mem,f.reflects_view pt.mem,truthful_launched size read_latency write_latency pc file buffers,
    .inl ⟨_,tracks_initial _ _ pc file buffers ⟨0,_,rfl,.inl ⟨Nat.le_refl _,Machine.same_refl _⟩⟩,.inl rfl⟩⟩

/-- The results of a program do not depend on the latency of memory, in runs that meet none of the defects: if no
    store hits an instruction, two runs that come to the end of the program leave the same registers and the same
    memory. -/
theorem latency_independent (f : PageMap) (pt : PageTables) (fixed : U64 → Bool) (size : pt.size = 8 * 1024 * 1024)
    (tables : ∀ o, pt.Bytes o → fixed o = true) (reads : f.Reads pt) (pc : U64) (file : RegisterFile) (n : Nat)
    (read_latency write_latency read_latency' write_latency' : U64) (buffers buffers' : LoopLocals)
    (inputs inputs' : List CalleeLocals) (p p' : Pipeline (MemoryState Framework)) (log log' : List Events)
    (small : inputs.length ≤ n ∧ inputs'.length ≤ n)
    (undisturbed : (Machine.start pc file (f.view pt.mem)).UndisturbedFor n)
    (calm : Guarded (cycle simulator) (fun c _ => Calm f fixed (Machine.start pc file (f.view pt.mem)) c.1)
      (launched pt.mem pt.ptbr read_latency write_latency pc file buffers) inputs)
    (calm' : Guarded (cycle simulator) (fun c _ => Calm f fixed (Machine.start pc file (f.view pt.mem)) c.1)
      (launched pt.mem pt.ptbr read_latency' write_latency' pc file buffers') inputs')
    (ran : run (cycle simulator) (launched pt.mem pt.ptbr read_latency write_latency pc file buffers) inputs =
      .ok (p,log))
    (ran' : run (cycle simulator) (launched pt.mem pt.ptbr read_latency' write_latency' pc file buffers') inputs' =
      .ok (p',log'))
    (drained : Drained (Machine.start pc file (f.view pt.mem)) n p)
    (drained' : Drained (Machine.start pc file (f.view pt.mem)) n p') :
    (∀ r : BitVec 5, r ≠ 0 → p.register_file r = p'.register_file r) ∧
      ∀ o, p.mem.data_cache.logical p.mem.framework o = p'.mem.data_cache.logical p'.mem.framework o := by
  have follows := run_follows tables reads rfl (undisturbed.mono small.1)
    (follows_launched f pt fixed size read_latency write_latency pc file buffers) calm ran
  have follows' := run_follows tables reads rfl (undisturbed.mono small.2)
    (follows_launched f pt fixed size read_latency' write_latency' pc file buffers') calm' ran'
  obtain ⟨k,u,less,reached,past,registers,memory⟩ := drained_state undisturbed small.1 follows drained
  obtain ⟨k',u',less',reached',past',registers',memory'⟩ := drained_state undisturbed small.2 follows' drained'
  obtain ⟨same,same'⟩ := ended_eq undisturbed ⟨less,less'⟩ reached reached' ⟨past,past'⟩
  constructor
  · intro r nonzero
    have agree := congrArg (·.value r) (registers.symm.trans (same.trans registers'))
    simpa [show r ≠ 0#5 from nonzero] using agree
  · rw [same'] at memory
    exact congrFun (memory.eq memory')

/-! ### Two programs -/

/-- The machine at the first instruction of a program, all storage zero. -/
def machineOf (program : Nat → U32) : Machine :=
  Machine.start 0 (fun _ => 0) (PageMap.identity.view (memOfWords (identityMapped program)))

theorem after_run (s : Machine) (k : Nat) : s.after k = run (fun t (_ : Unit) => t.step) s (List.replicate k ()) := by
  induction k with
  | zero => rfl
  | succ k ih =>
    rw [List.replicate_succ',run_append,← ih,Machine.after]
    cases s.after k with
    | error e => rfl
    | ok t =>
      show t.step = t.step >>= .ok
      cases t.step <;> rfl

/-- None of the stores hits the word at the address. -/
def Machine.Misses (stores : List (U64 × U8 × U64)) (pc : U64) : Prop := ∀ store ∈ stores, ¬ Machine.Hits store pc
instance (store : U64 × U8 × U64) (pc : U64) : Decidable (Machine.Hits store pc) := Nat.decidableExistsLT 4
instance (stores : List (U64 × U8 × U64)) (pc : U64) : Decidable (Machine.Misses stores pc) := List.decidableBAll _ _

/-- The stores that the last state has made are all of them. -/
theorem undisturbedFor_of {s t : Machine} {n : Nat} (last : s.after n = .ok t)
    (misses : Guarded (fun u (_ : Unit) => u.step) (fun u _ => Machine.Misses t.stores u.pc) s
      (List.replicate (n+1) ())) :
    s.UndisturbedFor n := by
  intro k small v reached store made j small' u visited
  obtain ⟨d,rfl⟩ := Nat.exists_eq_add_of_le small
  have made' : store ∈ t.stores := (after_extends reached last).2.subset made
  obtain ⟨e,split⟩ := Nat.exists_eq_add_of_le small'
  rw [split,Nat.add_assoc,List.replicate_add] at misses
  rw [after_run] at visited
  exact ((guarded_append misses).2 u visited).1 store made'

/-- `lui x5,36`, `lui x6,72` and `addi x7,x0,7`, and from the next block on `sd x7,512(x0)`, `ld x8,768(x5)` and `sd
    x7,512(x5)`, `ld x8,768(x6)` and `sd x7,512(x6)`, and `ld x8,768(x0)` and `addi x9,x8,1`; there is a 41 at 768.
    The three stores are to one set of the cache, which is to give up the row of the first for that of the third. -/
def threeStores (i : Nat) : U32 :=
  if i = 0 then 0x000242B7 else if i = 1 then 0x00048337 else if i = 2 then 0x00700393 else if i = 4 then 0x20703023
  else if i = 8 then 0x3002B403 else if i = 9 then 0x2072B023 else if i = 12 then 0x30033403
  else if i = 13 then 0x20733023 else if i = 16 then 0x30003403 else if i = 17 then 0x00140493
  else if i = 0xC0 then 41 else 0

theorem threeStores_low (i : Nat) (high : 0x100000 ≤ i) : threeStores i = 0 := by
  unfold threeStores
  repeat rw [if_neg (by omega)]

/-- The program and, above it, the page tables. -/
def belowStores (a : U64) : Bool := decide (a < 0x200) || decide (0x400000 ≤ a)

theorem threeStores_undisturbed : (machineOf threeStores).UndisturbedFor 84 := by
  have result : okAnd ((machineOf threeStores).after 84)
      (fun t => t.stores == [(0x200,8,7),(0x24200,8,7),(0x48200,8,7)]) = true := by decide +kernel
  obtain ⟨t,last,stored⟩ := okAnd_iff.mp result
  have stored : t.stores = [(0x200,8,7),(0x24200,8,7),(0x48200,8,7)] := by simpa using stored
  refine undisturbedFor_of last ?_
  rw [stored]
  decide +kernel

/-- A dirty row is written back in both runs. -/
theorem latency_independent_three_stores : ∃ p log p' log',
    run (cycle simulator) (started threeStores 0 0) (zeroLocals 52) = .ok (p,log) ∧
    run (cycle simulator) (started threeStores 1 1) (zeroLocals 84) = .ok (p',log') ∧
    (p.mem.framework.write_counter = 1 ∧ p.mem.framework.riscv_mem 0x200 = 7 ∧ p.register_file 9 = 42) ∧
    (∀ r : BitVec 5, r ≠ 0 → p.register_file r = p'.register_file r) ∧
    ∀ o, p.mem.data_cache.logical p.mem.framework o = p'.mem.data_cache.logical p'.mem.framework o := by
  have calm : Guarded (cycle simulator) (fun c _ => Calm .identity belowStores (machineOf threeStores) c.1)
      (started threeStores 0 0) (zeroLocals 52) := by
    decide +kernel
  have calm' : Guarded (cycle simulator) (fun c _ => Calm .identity belowStores (machineOf threeStores) c.1)
      (started threeStores 1 1) (zeroLocals 84) := by
    decide +kernel
  have result : okAnd (run (cycle simulator) (started threeStores 0 0) (zeroLocals 52)) (fun c => decide
      (Drained (machineOf threeStores) 84 c.1 ∧ c.1.mem.framework.write_counter = 1 ∧
        c.1.mem.framework.riscv_mem 0x200 = 7 ∧ c.1.register_file 9 = 42)) = true := by
    decide +kernel
  have result' : okAnd (run (cycle simulator) (started threeStores 1 1) (zeroLocals 84)) (fun c => decide
      (Drained (machineOf threeStores) 84 c.1)) = true := by
    decide +kernel
  obtain ⟨⟨p,log⟩,ran,shown⟩ := okAnd_iff.mp result
  obtain ⟨⟨p',log'⟩,ran',shown'⟩ := okAnd_iff.mp result'
  obtain ⟨drained,values⟩ := of_decide_eq_true shown
  refine ⟨p,log,p',log',ran,ran',values,?_⟩
  refine latency_independent .identity (identityTables threeStores_low) belowStores rfl (fun o inside => ?_)
    (identity_reads _) 0 _ 84 0 0 1 1 zeroBuffers zeroBuffers (zeroLocals 52) (zeroLocals 84) p p' log log'
    (by decide) threeStores_undisturbed calm calm' ran ran' drained (of_decide_eq_true shown')
  rw [belowStores,decide_eq_true (identity_bytes threeStores_low inside),Bool.or_true]

/-- `sw x0,512(x0)` and, behind four zero words, `sw x0,768(x0)` and `addi x1,x1,1`. -/
def storeAndAdd (i : Nat) : U32 :=
  if i = 0 then 0x20002023 else if i = 5 then 0x30002023 else if i = 6 then 0x00108093 else 0

theorem storeAndAdd_undisturbed : (machineOf storeAndAdd).UndisturbedFor 45 := by
  have result : okAnd ((machineOf storeAndAdd).after 45) (fun t => t.stores == [(0x200,4,0),(0x300,4,0)]) = true := by
    decide +kernel
  obtain ⟨t,last,stored⟩ := okAnd_iff.mp result
  have stored : t.stores = [(0x200,4,0),(0x300,4,0)] := by simpa using stored
  refine undisturbedFor_of last ?_
  rw [stored]
  decide +kernel

/-- A store that waits for memory does not flush what is behind it: the addition is committed, the pc goes back to
    the store, and the addition is committed once more. With no latency it is committed once. -/
theorem committed_twice_behind_store : (machineOf storeAndAdd).UndisturbedFor 45 ∧ ∃ p log p' log',
    run (cycle simulator) (started storeAndAdd 0 0) (zeroLocals 30) = .ok (p,log) ∧
    run (cycle simulator) (started storeAndAdd 1 1) (zeroLocals 45) = .ok (p',log') ∧
    Drained (machineOf storeAndAdd) 45 p ∧ Drained (machineOf storeAndAdd) 45 p' ∧ p.register_file 1 = 1 ∧
    p'.register_file 1 = 2 := by
  have result : okAnd (run (cycle simulator) (started storeAndAdd 0 0) (zeroLocals 30)) (fun c => decide
      (Drained (machineOf storeAndAdd) 45 c.1 ∧ c.1.register_file 1 = 1)) = true := by
    decide +kernel
  have result' : okAnd (run (cycle simulator) (started storeAndAdd 1 1) (zeroLocals 45)) (fun c => decide
      (Drained (machineOf storeAndAdd) 45 c.1 ∧ c.1.register_file 1 = 2)) = true := by
    decide +kernel
  obtain ⟨⟨p,log⟩,ran,shown⟩ := okAnd_iff.mp result
  obtain ⟨⟨p',log'⟩,ran',shown'⟩ := okAnd_iff.mp result'
  obtain ⟨drained,once⟩ := of_decide_eq_true shown
  obtain ⟨drained',twice⟩ := of_decide_eq_true shown'
  exact ⟨storeAndAdd_undisturbed,p,log,p',log',ran,ran',drained,drained',once,twice⟩

end RiscvSim
