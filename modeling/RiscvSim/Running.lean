import RiscvSim.Commands
import RiscvSim.Dispatch
import RiscvSim.Rv64

/-!
What the `run` command does: how far it goes, and what it says. The loop ends at an EBREAK, which it looks
for at the untranslated pc. Words that are not in the listing of the instruction set are reported,
each time one is dispatched; so are shifts by more than 31, which are in it.
-/
namespace RiscvSim
open Bytes Runs CText Scripts Rv64

/-! ### Reports -/

/-- An immediate shift of 64 bits by 32 or more; the lowest bit of funct7 is the highest of the amount. -/
def longShift (op : BitVec 7) (f3 : BitVec 3) (f7 : BitVec 7) : Bool :=
  op == 0b0010011 && (f3 == 0b001 || f3 == 0b101) && f7.getLsbD 0

/-- The words that are executed without a report: those of the listing but the long shifts, and all with the opcodes
    of FENCE, ECALL and EBREAK. -/
def accepts (op : BitVec 7) (f3 : BitVec 3) (f7 : BitVec 7) : Bool :=
  listed op f3 f7 && !longShift op f3 f7 || op == 0b0001111 || op == 0b1110011
def accepted (i : Instruction) : Bool := accepts (opcode i) (Rv64.funct3 i) (Rv64.funct7 i)

/-- What is done to a word reports it once, or not at all; and what fails does not report. -/
structure Reports (act : Operands → Execution → Except Abort Execution) (i : Instruction) (bad : Bool) : Prop where
  ok : ∀ x e r, act x e = .ok r → r.illegal = e.illegal ++ if bad then [(e.pc - 4,i)] else []
  error : ∀ x e cause, act x e = .error cause → bad = false

/-- A handler that reports nothing. -/
def Silent (h : Handler) : Prop := ∀ i x e r, h i x e = .ok r → r.illegal = e.illegal

theorem silent_nop : Silent riscv_nop := fun _ _ _ _ handled => by cases handled; rfl
theorem silent_writes (value : Instruction → Operands → U64) :
    Silent (writes value) := fun _ _ _ _ handled => by cases handled; rfl
theorem silent_shifts (width : Nat) (amount value : Instruction → Operands → U64) :
    Silent (shifts width amount value) :=
  fun _ _ _ _ handled => by cases handled; rfl
theorem silent_load (size : U8) (signExtend : Bool) : Silent (load size signExtend) :=
  fun _ _ _ _ handled => by cases handled; rfl
theorem silent_store (size : U8) (truncate : U64 → U64) : Silent (store size truncate) :=
  fun _ _ _ _ handled => by cases handled; rfl
theorem silent_auipc : Silent riscv_auipc := fun _ _ _ _ handled => by cases handled; rfl
theorem silent_jal : Silent riscv_jal := fun _ _ _ _ handled => by cases handled; rfl
theorem silent_branch (taken : U64 → U64 → Bool) : Silent (branch taken) := by
  intro i x e r handled
  rw [branch_eq] at handled
  cases handled
  rfl
theorem silent_divides (test traps : Operands → Bool) (value : Operands → U64) : Silent (divides test traps value) := by
  intro i x e r handled
  rw [divides_eq] at handled
  split at handled
  · cases handled
  · cases handled
    rfl

section
variable {h : Handler} {i : Instruction} {bad : Bool}

theorem Silent.reports (silent : Silent h) (good : bad = false) : Reports (h i) i bad where
  ok x e r handled := by
    rw [silent i x e r handled,good]
    exact (List.append_nil _).symm
  error _ _ _ _ := good

theorem illegal_reports (refused : bad = true) : Reports (riscv_illegal_instruction i) i bad where
  ok x e r handled := by
    cases handled
    rw [refused]
    rfl
  error _ _ _ handled := by cases handled

end

theorem refused {op : BitVec 7} {f3 : BitVec 3} {f7 : BitVec 7} (unlisted : listed op f3 f7 = false)
    (other : (op == 0b0001111 || op == 0b1110011) = false) : (!accepts op f3 f7) = true := by
  rw [accepts,unlisted,Bool.false_and,Bool.false_or,other]
  rfl

theorem load_dispatch_reports (i : Instruction) :
    Reports (riscv_load_dispatch i) i (!accepts 0b0000011 i.funct3 i.funct7) := by
  unfold riscv_load_dispatch
  split
  all_goals first
    | exact (silent_load _ _).reports (by simp only [*]; rfl)
    | exact illegal_reports (refused (by simp [listed,listing,Row.takes]; tauto) rfl)
theorem store_dispatch_reports (i : Instruction) :
    Reports (riscv_store_dispatch i) i (!accepts 0b0100011 i.funct3 i.funct7) := by
  unfold riscv_store_dispatch
  split
  all_goals first
    | exact (silent_store _ _).reports (by simp only [*]; rfl)
    | exact illegal_reports (refused (by simp [listed,listing,Row.takes]; tauto) rfl)
theorem branch_dispatch_reports (i : Instruction) :
    Reports (riscv_branch_dispatch i) i (!accepts 0b1100011 i.funct3 i.funct7) := by
  unfold riscv_branch_dispatch
  split
  all_goals first
    | exact (silent_branch _).reports (by simp only [*]; rfl)
    | exact illegal_reports (refused (by simp [listed,listing,Row.takes]; tauto) rfl)
/-- Six bits and a zero below them are seven. -/
theorem accepts_slli (f7 : BitVec 7) : accepts 0b0010011 0b001#3 f7 = decide (f7 = 0) := by
  revert f7
  decide
theorem accepts_srli (f7 : BitVec 7) : accepts 0b0010011 0b101#3 f7 = decide (f7 = 0 ∨ f7 = 0b0100000) := by
  revert f7
  decide

theorem arithmetic1_dispatch_reports (i : Instruction) :
    Reports (riscv_arithmetic1_dispatch i) i (!accepts 0b0010011 i.funct3 i.funct7) := by
  unfold riscv_arithmetic1_dispatch
  split
  case h_2 three =>
    rw [three,accepts_slli]
    split
    · exact illegal_reports (by simpa)
    · exact (silent_shifts _ _ _).reports (by simpa using ‹¬ _ ≠ _›)
  case h_6 three =>
    rw [three,accepts_srli]
    split
    · exact (silent_shifts _ _ _).reports (by simp [*])
    · exact (silent_shifts _ _ _).reports (by simp [*])
    · exact illegal_reports (by simp; tauto)
  all_goals exact (silent_writes _).reports (by simp only [*]; rfl)
theorem arithmetic1_64_dispatch_reports (i : Instruction) :
    Reports (riscv_arithmetic1_64_dispatch i) i (!accepts 0b0011011 i.funct3 i.funct7) := by
  unfold riscv_arithmetic1_64_dispatch
  split <;> try split
  all_goals first
    | exact (silent_writes _).reports (by simp only [*]; rfl)
    | exact (silent_shifts _ _ _).reports (by simp_all only [ne_eq,not_not]; rfl)
    | exact illegal_reports (refused (by simp [*,listed,listing,Row.takes]; tauto) rfl)
theorem arithmetic2_dispatch_reports (i : Instruction) :
    Reports (riscv_arithmetic2_dispatch i) i (!accepts 0b0110011 i.funct3 i.funct7) := by
  unfold riscv_arithmetic2_dispatch
  split <;> split
  all_goals first
    | exact (silent_writes _).reports (by simp only [*]; rfl)
    | exact (silent_shifts _ _ _).reports (by simp only [*]; rfl)
    | exact (silent_divides _ _ _).reports (by simp only [*]; rfl)
    | exact illegal_reports (refused (by simp [*,listed,listing,Row.takes]; tauto) rfl)
theorem arithmetic2_64_dispatch_reports (i : Instruction) :
    Reports (riscv_arithmetic2_64_dispatch i) i (!accepts 0b0111011 i.funct3 i.funct7) := by
  unfold riscv_arithmetic2_64_dispatch
  split <;> try split
  all_goals first
    | exact (silent_writes _).reports (by simp only [*]; rfl)
    | exact (silent_shifts _ _ _).reports (by simp only [*]; rfl)
    | exact (silent_divides _ _ _).reports (by simp only [*]; rfl)
    | exact illegal_reports (refused (by simp [*,listed,listing,Row.takes]; tauto) rfl)

theorem accepts_jalr (f3 : BitVec 3) (f7 : BitVec 7) : (!accepts 0b1100111 f3 f7) = decide (f3 ≠ 0) := by
  by_cases zero : f3 = 0
  · rw [zero]
    rfl
  · rw [refused (by simpa [listed,listing,Row.takes] using zero) rfl,decide_eq_true zero]

/-- The jump is made in any case. -/
theorem jalr_reports (i : Instruction) : Reports (riscv_jalr i) i (!accepts 0b1100111 i.funct3 i.funct7) := by
  have jumps (x : Operands) (e : Execution) : ∃ m pc undefined,
      riscv_jalr i x e = .ok ⟨pc,m,e.illegal ++ (if decide (i.funct3 ≠ 0) then [(e.pc - 4,i)] else []),undefined⟩ := by
    unfold riscv_jalr
    by_cases bad : i.funct3 ≠ 0
    · rw [if_pos bad,if_pos (decide_eq_true bad)]
      exact ⟨_,_,_,rfl⟩
    · rw [if_neg bad,if_neg (by simpa using bad),List.append_nil]
      exact ⟨_,_,_,rfl⟩
  rw [accepts_jalr]
  refine ⟨fun x e r handled => ?_,fun x e cause handled => ?_⟩
  all_goals
    obtain ⟨m,pc,undefined,jumped⟩ := jumps x e
    cases jumped.symm.trans handled
  rfl

theorem major_reports (op : BitVec 7) (i : Instruction) :
    Reports (major_dispatch_table op i) i (!accepts op i.funct3 i.funct7) := by
  unfold major_dispatch_table
  split
  · exact silent_auipc.reports rfl
  · exact (silent_writes _).reports rfl
  · exact silent_jal.reports rfl
  · exact jalr_reports i
  · exact load_dispatch_reports i
  · exact branch_dispatch_reports i
  · exact store_dispatch_reports i
  · exact arithmetic1_dispatch_reports i
  · exact arithmetic1_64_dispatch_reports i
  · exact arithmetic2_dispatch_reports i
  · exact arithmetic2_64_dispatch_reports i
  · exact silent_nop.reports rfl
  · exact silent_nop.reports rfl
  · exact illegal_reports (refused (by simp [listed,listing,Row.takes]; tauto) (by simp; tauto))

/-- What is reported does not depend on the operands. -/
theorem dispatch_reports {i : Instruction} {x : Operands} {pc : U64} {m : StageRegM} {e : Execution}
    (handled : dispatch i x (pc + 4) m = .ok e) :
    e.illegal = if accepted i then [] else [(pc,i)] := by
  rw [(major_reports i.opcode i).ok x _ e handled]
  show (if (!accepted i) = true then [(pc + 4 - 4,i)] else _) = _
  rw [BitVec.add_sub_cancel]
  cases accepted i <;> rfl

theorem reported_eq (pc : U64) (i : Instruction) : reported (pc,i) = if accepted i then [] else [(pc,i)] := by
  unfold reported
  cases handled : dispatch i ⟨0,0⟩ (pc + 4) .zero with
  | ok e => exact dispatch_reports handled
  | error cause =>
    have good : (!accepted i) = false := (major_reports i.opcode i).error _ _ cause handled
    rw [if_pos (by simpa using good)]

/-- What cycles print, of the words that they dispatched. -/
theorem printedBy_eq (log : List Events) : printedBy log =
    ((log.filterMap Events.dispatched).filter fun d => !accepted d.2).map fun d => (.stdout,illegalText d) := by
  unfold printedBy
  congr 1
  induction log.filterMap Events.dispatched with
  | nil => rfl
  | cons d rest ih =>
    rw [List.flatMap_cons,ih,List.filter_cons,reported_eq]
    cases accepted d.2 <;> rfl

/-! ### The end of the loop -/

/-- The word at a place in memory. -/
def Framework.wordAt (fw : Framework) (o : U64) : U32 := value 32 (fun i => fw.riscv_mem (o + BitVec.ofNat 64 i)) 4

/-- The word at the untranslated pc is not in memory. -/
def Pipeline.Outside (p : Pipeline (MemoryState Framework)) : Prop :=
  ¬ p.program_counter + 4 ≤ p.mem.framework.riscv_mem_size
/-- It is an EBREAK. -/
def Pipeline.AtBreak (p : Pipeline (MemoryState Framework)) : Prop :=
  ¬ p.Outside ∧ p.mem.framework.wordAt p.program_counter = RISCV_INSTR_EBREAK

instance (p : Pipeline (MemoryState Framework)) : Decidable p.Outside := instDecidableNot
instance (p : Pipeline (MemoryState Framework)) : Decidable p.AtBreak := instDecidableAnd

theorem simulator_inst_at (mem : MemoryState Framework) (pc : U64) (inst : U32) : simulator.inst_at mem pc inst =
    if pc + 4 ≤ mem.framework.riscv_mem_size then mem.framework.wordAt pc else inst := by
  show value 32 (mem.framework.memory_dump (byteAt inst) pc 4).2 4 = _
  split
  · rename_i passes
    rw [Framework.memory_dump_passed passes]
    refine value_congr fun i small => ?_
    dsimp only
    rw [copy_inside (Nat.zero_le i) (by rw [Nat.zero_add]; exact small)]
    rfl
  · rename_i refused
    rw [Framework.memory_dump_refused refused]
    exact value_byteAt (n := 4) inst

theorem simulator_rereads : simulator.Rereads := by
  intro mem pc inst
  simp only [simulator_inst_at]
  split <;> rfl

/-- What stops the loop. -/
theorem stopped_iff (p : Pipeline (MemoryState Framework)) :
    p.Stopped simulator ↔ p.AtBreak ∨ p.Outside ∧ p.inst = RISCV_INSTR_EBREAK := by
  unfold Pipeline.Stopped Pipeline.AtBreak Pipeline.Outside
  rw [simulator_inst_at]
  by_cases inside : p.program_counter + 4 ≤ p.mem.framework.riscv_mem_size
  · rw [if_pos inside]
    tauto
  · rw [if_neg inside]
    tauto

/-! ### The command -/

section
variable {u : Unknowns} {l N : List Char} {rest : List (List Char)} {n : Nat} {s s' : Session}

theorem run_spelled (spells : Spells N n) (few : 1 ≤ n ∧ n ≤ 100000000) : execute_run u (N :: rest) s =
    ((run (cycle simulator) (s.pipeline.entered u.buffers,s.log) ((List.range n).map u.locals)).mapError .abort).map
      fun c => { s with pipeline := c.1, log := c.2, output := s.output ++ printedBy (c.2.drop s.log.length) } := by
  have count : (BitVec.ofNat 64 n).toNat = n := by
    rw [BitVec.toNat_ofNat]
    omega
  have allowed : ¬ (BitVec.ofNat 64 n < 1 ∨ BitVec.ofNat 64 n > 100000000) := by
    rintro (less | more)
    · have less : (BitVec.ofNat 64 n).toNat < 1 := less
      omega
    · have more : 100000000 < (BitVec.ofNat 64 n).toNat := more
      omega
  simp only [execute_run,strtol₀_value spells (show n < 2^63 by omega),if_neg allowed,
    simulator_execute_instructions,count]
  cases run (cycle simulator) (s.pipeline.entered u.buffers,s.log) ((List.range n).map u.locals) <;> rfl

theorem run_obeyed (orders : Orders l .run (N :: rest)) (spells : Spells N n) (few : 1 ≤ n ∧ n ≤ 100000000)
    (done : execute_line u l s = .ok (true,s')) :
    ∃ p log, run (cycle simulator) (s.pipeline.entered u.buffers,s.log) ((List.range n).map u.locals) = .ok (p,log) ∧
      s' = { s with pipeline := p, log := log, output := s.output ++ printedBy (log.drop s.log.length) } := by
  rw [orders_executes orders,Command.execute,run_spelled spells few] at done
  cases ran : run (cycle simulator) (s.pipeline.entered u.buffers,s.log) ((List.range n).map u.locals) with
  | error cause =>
    rw [ran] at done
    cases done
  | ok c =>
    rw [ran] at done
    cases done
    exact ⟨_,_,rfl,rfl⟩

/-- At an EBREAK nothing is done. -/
theorem broken_stays (broken : s.pipeline.AtBreak) (orders : Orders l .run (N :: rest)) (spells : Spells N n)
    (few : 1 ≤ n ∧ n ≤ 100000000) :
    ∃ locals, execute_line u l s = .ok (true,{ s with pipeline := s.pipeline.entered locals }) := by
  have stopped : (s.pipeline.entered u.buffers).Stopped simulator := (stopped_iff _).mpr (.inl broken)
  obtain ⟨inst,ran,-⟩ := stopped_run (c := (s.pipeline.entered u.buffers,s.log)) simulator_rereads stopped
    ((List.range n).map u.locals)
  refine ⟨{ u.buffers with inst := inst },?_⟩
  rw [orders_executes orders,Command.execute,run_spelled spells few,ran]
  dsimp only [Except.mapError,Except.map]
  rw [List.drop_length]
  show Except.ok (true,({ s with output := s.output ++ [], pipeline := _ } : Session)) = _
  rw [List.append_nil]
  rfl

end

/-- A run reports what is not in the instruction set. What `run` prints is a line for each word that it dispatched
    and that is not accepted, in their order, with its address; and whatever the operands, the handlers report those
    words and no others. -/
theorem run_reports (u : Unknowns) (l N : List Char) (rest : List (List Char)) (n : Nat) (s s' : Session)
    (orders : Orders l .run (N :: rest)) (spells : Spells N n) (few : 1 ≤ n ∧ n ≤ 100000000)
    (done : execute_line u l s = .ok (true,s')) :
    (∃ cycles, s'.log = s.log ++ cycles ∧ s'.output = s.output ++
      ((cycles.filterMap Events.dispatched).filter fun d => !accepted d.2).map fun d => (.stdout,illegalText d)) ∧
    ∀ (i : Instruction) (x : Operands) (pc : U64) (m : StageRegM) (e : Execution), dispatch i x (pc + 4) m = .ok e →
      e.illegal = if accepted i then [] else [(pc,i)] := by
  refine ⟨?_,fun i x pc m e => dispatch_reports⟩
  obtain ⟨p,log,ran,rfl⟩ := run_obeyed orders spells few done
  obtain ⟨-,-,-,cycles,-,-,grows,-⟩ := run_stops simulator_rereads ran
  have grows : log = s.log ++ cycles := grows
  refine ⟨cycles,grows,?_⟩
  rw [← printedBy_eq,grows]
  show s.output ++ printedBy ((s.log ++ cycles).drop s.log.length) = _
  rw [List.drop_left]

/-- The shell with a program in memory, all other storage zero and no latency. -/
def programSession (program : Nat → U32) : Session := { sumsSession with pipeline := (started program 0 0).1 }

/-- `slli x5,x5,32`. -/
def shiftProgram (i : Nat) : U32 := if i = 0 then 0x02029293 else 0

/-- A shift by 32 is in the listing, and is reported. -/
theorem run_reports_shift : ∃ s', execute_line noUnknowns "run 12\n".toList (programSession shiftProgram) =
    .ok (true,s') ∧ s'.output = [(.stdout,"Illegal instruction @ 0x0000000000000000: 0x02029293\n".toList)] ∧
    ∃ cycles, s'.log = [] ++ cycles ∧ s'.output = [] ++
      ((cycles.filterMap Events.dispatched).filter fun d => !accepted d.2).map fun d => (.stdout,illegalText d) := by
  have result : okAnd (execute_line noUnknowns "run 12\n".toList (programSession shiftProgram)) (fun r => r.1 && decide
      (r.2.output = [(.stdout,"Illegal instruction @ 0x0000000000000000: 0x02029293\n".toList)])) =
        true := by decide +kernel
  obtain ⟨⟨more,s'⟩,done,shown⟩ := okAnd_iff.mp result
  obtain ⟨rfl,shown⟩ := (Bool.and_eq_true _ _).mp shown
  exact ⟨s',done,of_decide_eq_true shown,
    (run_reports noUnknowns "run 12\n".toList ['1','2'] [] 12 (programSession shiftProgram) s'
    ⟨"run".toList,by decide,by decide⟩ (.decimal '1' ['2'] (by decide) (all_digits (by decide))) (by decide) done).1⟩

/-- A run halts at an EBREAK. It makes all of its cycles, or it stops behind some of them because the word at the
    pc, which is not translated, is EBREAK; with the pc outside memory it is what the local `inst` held. What is in
    the pipeline stays there; at an EBREAK in memory no later `run` changes anything but the locals. -/
theorem run_halts (u : Unknowns) (l N : List Char) (rest : List (List Char)) (n : Nat) (s s' : Session)
    (orders : Orders l .run (N :: rest)) (spells : Spells N n) (few : 1 ≤ n ∧ n ≤ 100000000)
    (done : execute_line u l s = .ok (true,s')) :
    ∃ k p, k ≤ n ∧ run (cycle simulator) (s.pipeline.entered u.buffers,s.log) ((List.range k).map u.locals) =
      .ok (p,s'.log) ∧ s'.log.length = s.log.length + k ∧ (∃ inst, s'.pipeline = { p with inst := inst }) ∧
      (k < n → s'.pipeline.AtBreak ∨ k = 0 ∧ s'.pipeline.Outside ∧ u.buffers.inst = RISCV_INSTR_EBREAK) ∧
      (s'.pipeline.AtBreak → ∀ u' l' N' rest' n', Orders l' .run (N' :: rest') → Spells N' n' → 1 ≤ n' ∧
        n' ≤ 100000000 →
        ∃ locals, execute_line u' l' s' = .ok (true,{ s' with pipeline := s'.pipeline.entered locals })) := by
  obtain ⟨p',log,ran,rfl⟩ := run_obeyed orders spells few done
  obtain ⟨before,after,p,cycles,split,first,grows,count,⟨inst,same⟩,last⟩ := run_stops simulator_rereads ran
  have same : p' = { p with inst := inst } := same
  have grows : log = s.log ++ cycles := grows
  have total : n = before.length + after.length := by
    have lengths := congrArg List.length split
    rwa [List.length_map,List.length_range,List.length_append] at lengths
  have taken : before = (List.range before.length).map u.locals := by
    have heads := congrArg (List.take before.length) split
    rw [List.take_left,← List.map_take,List.take_range,min_eq_left (by omega)] at heads
    exact heads.symm
  rw [taken] at first
  refine ⟨before.length,p,by omega,first,?_,⟨inst,same⟩,fun less => ?_,
    fun broken u' l' N' rest' n' orders' spells' few' => ?_⟩
  · show log.length = _
    rw [grows,List.length_append,count]
  · obtain ⟨still,stopped,start⟩ := last.resolve_left fun none => by rw [none,List.length_nil] at total; omega
    refine ((stopped_iff p').mp still).imp_right fun ⟨outside,_⟩ => ?_
    -- an EBREAK that is in no memory was in the local before the first cycle
    have held : p.inst = RISCV_INSTR_EBREAK := by
      rcases (stopped_iff p).mp stopped with ⟨inside,-⟩ | ⟨-,held⟩
      · have outside : p.Outside := by
          rw [same] at outside
          exact outside
        exact absurd outside inside
      · exact held
    obtain rfl := start.resolve_right (not_not_intro held)
    cases first
    exact ⟨rfl,outside,held⟩
  · exact broken_stays broken orders' spells' few'

/-- `addi x5,x0,1` and EBREAK. -/
def breakProgram (i : Nat) : U32 := if i = 0 then 0x00100293 else if i = 1 then RISCV_INSTR_EBREAK else 0

/-- The EBREAK is found when the addition has been fetched: it is in the pipeline, and stays there. -/
theorem run_halts_break : ∃ s' locals, execute_line noUnknowns "run 12\n".toList (programSession breakProgram) =
    .ok (true,s') ∧ s'.log.length = 3 ∧ s'.pipeline.register_file 5 = 0 ∧
    execute_line noUnknowns "run 100\n".toList s' = .ok (true,{ s' with pipeline := s'.pipeline.entered locals }) := by
  have result : okAnd (execute_line noUnknowns "run 12\n".toList (programSession breakProgram)) (fun r => r.1 && decide
      (r.2.log.length = 3 ∧ r.2.pipeline.register_file 5 = 0 ∧ r.2.pipeline.AtBreak)) = true := by decide +kernel
  obtain ⟨⟨more,s'⟩,done,shown⟩ := okAnd_iff.mp result
  obtain ⟨rfl,shown⟩ := (Bool.and_eq_true _ _).mp shown
  obtain ⟨cycles,zero,broken⟩ := of_decide_eq_true shown
  obtain ⟨k,p,-,-,-,-,-,stays⟩ := run_halts noUnknowns "run 12\n".toList ['1','2'] [] 12
    (programSession breakProgram) s'
    ⟨"run".toList,by decide,by decide⟩ (.decimal '1' ['2'] (by decide) (all_digits (by decide))) (by decide) done
  obtain ⟨locals,again⟩ := stays broken noUnknowns "run 100\n".toList "100".toList [] 100
    ⟨"run".toList,by decide,by decide⟩
    (.decimal '1' ['0','0'] (by decide) (all_digits (by decide))) (by decide)
  exact ⟨s',locals,done,cycles,zero,again⟩

end RiscvSim
