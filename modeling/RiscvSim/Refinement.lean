import RiscvSim.Handlers
import RiscvSim.Stages

/-!
The pipeline refines the sequential machine. The instructions in W and M are those the
sequential machine has executed and the register file has not seen: once they are retired,
the two agree, and the instruction in X is the next one. The cycle keeps this (`tracks_step`)
as long as memory answers, under a condition on what forwarding and decode meet. Which states
of the machine count is a parameter (`Reference`): here those that it comes to.
-/
namespace RiscvSim
open Bytes Runs

/-! ### The sequential machine -/

namespace Machine

theorem after_step {s t u : Machine} {k : Nat} (reached : s.after k = .ok t) (stepped : t.step = .ok u) :
    s.after (k+1) = .ok u := by
  rw [after,reached]
  exact stepped

theorem visits_after {s t : Machine} {k : Nat} (reached : s.after k = .ok t) : s.Visits t.pc := ⟨k,t,reached,rfl⟩

/-- The word at an address when the program starts. -/
def code (s : Machine) (pc : U64) : Instruction := s.memory.word (pc.setWidth 32)

theorem step_word {s t : Machine} {e : Execution} (word : s.fetched ≠ 0)
    (handled : dispatch s.fetched s.operands (s.pc + 4) .zero = .ok e)
    (same : t = { s.perform e.m.effect with pc := e.pc }) :
    s.step = .ok t := by
  rw [step,if_neg word,handled,same]
  rfl

/-- A step keeps memory, or makes a store that it records. -/
theorem step_memory {s t : Machine} (stepped : s.step = .ok t) :
    t.memory = s.memory ∧ t.stores = s.stores ∨ ∃ address size value, t.stores = s.stores ++ [(address,size,value)] ∧
      t.memory = s.memory.write (address.setWidth 32) size value := by
  rw [step] at stepped
  split at stepped
  · cases stepped
    exact .inl ⟨rfl,rfl⟩
  · obtain ⟨e,-,same⟩ := bind_ok.mp stepped
    cases same
    cases e.m.effect with
    | store address size value => exact .inr ⟨address,size,value,rfl,rfl⟩
    | _ => exact .inl ⟨rfl,rfl⟩

theorem word_write {mem : FlatMemory} {address value pc : U64} {size : U8} (misses : ¬ Hits (address,size,value) pc) :
    (mem.write (address.setWidth 32) size value).word (pc.setWidth 32) = mem.word (pc.setWidth 32) := by
  refine value_congr fun i small => ?_
  rw [FlatMemory.write,if_neg]
  intro hit
  exact misses ⟨i,small,hit⟩

/-- A word that no store hits stays as it is. -/
theorem word_kept {s : Machine} {pc : U64} {k : Nat} {t : Machine}
    (misses : ∀ j ≤ k, ∀ u, s.after j = .ok u → ∀ store ∈ u.stores, ¬ Hits store pc)
    (reached : s.after k = .ok t) : t.memory.word (pc.setWidth 32) = s.code pc := by
  induction k generalizing t with
  | zero => cases reached; rfl
  | succ k ih =>
    obtain ⟨before,reached',stepped⟩ := bind_ok.mp reached
    have earlier := ih (fun j less => misses j (by omega)) reached'
    rcases step_memory stepped with ⟨same,-⟩ | ⟨address,size,value,recorded,stored⟩
    · rw [same]
      exact earlier
    · have away : ¬ Hits (address,size,value) pc := misses (k+1) (Nat.le_refl _) t reached _ (by simp [recorded])
      rw [stored,word_write away]
      exact earlier

/-- The words that are fetched stay as they are. -/
theorem code_kept {s : Machine} (undisturbed : s.Undisturbed) {pc : U64} (visited : s.Visits pc) {k : Nat} {t : Machine}
    (reached : s.after k = .ok t) : t.memory.word (pc.setWidth 32) = s.code pc :=
  word_kept (fun j _ u reached store made => undisturbed j u reached store made pc visited) reached

end Machine

/-! ### Registers -/

@[simp] theorem Registers.write_value (r : Registers) (reg value : U64) (i : BitVec 5) :
    (r.write reg value).value i = if i ≠ 0 ∧ i = reg.setWidth 5 then value else r.value i := rfl
@[simp] theorem Registers.ofFile_value (file : RegisterFile) (i : BitVec 5) :
    (Registers.ofFile file).value i = if i = 0 then 0 else file i := rfl

theorem ofFile_register_write (file : RegisterFile) (reg value : U64) :
    Registers.ofFile (file.register_write reg value) = (Registers.ofFile file).write reg value := by
  ext1 i
  by_cases zero : i = 0#5
  · simp [zero]
  · simp [zero,RegisterFile.register_write]

/-- A number of five bits is itself again in 64. -/
theorem setWidth_five (r : BitVec 5) : (r.setWidth 64 : U64).setWidth 5 = r := by
  simp

theorem register_read_one_five (file : RegisterFile) (r : BitVec 5) :
    file.register_read_one (r.setWidth 64) = (Registers.ofFile file).value r := by
  rw [RegisterFile.register_read_one,setWidth_five,Registers.ofFile_value]
  by_cases zero : r = 0#5
  · simp [zero]
  · have positive : 0#5 < r := by bv_omega
    simp [zero,positive]

/-- The number of an instruction's register, compared. -/
theorem isRegister_five (r q : BitVec 5) : isRegister (r.setWidth 64) (q.setWidth 16) = decide (r = q) := by
  revert r q
  decide
theorem setWidth_ne (r : BitVec 5) : (r.setWidth 16 : U16) ≠ -1 := by
  revert r
  decide

theorem setWidth_five_inj {r q : BitVec 5} : (r.setWidth 64 : U64) = q.setWidth 64 ↔ r = q := by
  constructor
  · intro same
    rw [← setWidth_five r,same,setWidth_five]
  · rintro rfl
    rfl

/-! ### Forwarding -/

/-- What the W register still has to write. -/
def StageRegW.effect (w : StageRegW) : Effect := if w.op then .register w.reg w.value else .nothing

/-- No stall, and a bubble writes zero to x0. -/
structure StageRegW.Settled (w : StageRegW) : Prop where
  flows : w.global_memory_stall = 0
  clean : w.tainted_executions = 0
  bubble : w.op = false → w.reg = 0 ∧ w.value = 0
  small : w.op = true → ∃ r : BitVec 5, w.reg = r.setWidth 64

/-- What is forwarded for x0 is zero. -/
def ZeroForwarded (m : StageRegM) (w : StageRegW) : Prop :=
  (m.readWrite = .register_write ∧ m.reg = 0 → m.value = 0) ∧
    (¬ (m.readWrite = .register_write ∧ m.reg = 0) → w.reg = 0 → w.value = 0)
instance (m : StageRegM) (w : StageRegW) : Decidable (ZeroForwarded m w) := instDecidableAnd

/-- Decode reads x0 for the instruction. -/
def ReadsZero (instruction : Instruction) : Prop :=
  decoding_type instruction.opcode ≠ .U ∧ instruction.rs1 = 0 ∨
    (decoding_type instruction.opcode = .S ∨ decoding_type instruction.opcode = .R) ∧ instruction.rs2 = 0
instance (instruction : Instruction) : Decidable (ReadsZero instruction) := instDecidableOr

/-- The value that decode gets for a register, unless it has to wait. -/
def readable (x : StageRegX) (m : StageRegM) (w : StageRegW) (file : RegisterFile) (reg : U64) : Option U64 :=
  match forwarded_register_read_single x m w reg with
  | .stall => none
  | .value v => some v
  | .none => some (file.register_read_one reg)

theorem forwarded_register_read_eq (x : StageRegX) (m : StageRegM) (w : StageRegW) (file : RegisterFile) (a b : U64) :
    forwarded_register_read x m w file a b =
      (readable x m w file a).bind fun va => (readable x m w file b).map fun vb => (va,vb) := by
  unfold forwarded_register_read readable
  cases forwarded_register_read_single x m w a <;> cases forwarded_register_read_single x m w b <;> rfl

theorem perform_writeback {a : Machine} {w : StageRegW} {file : RegisterFile} (same : a.registers = .ofFile file) :
    (a.perform w.effect).registers = .ofFile (stage_writeback w file) := by
  unfold StageRegW.effect stage_writeback
  split
  · rw [ofFile_register_write,← same]
    rfl
  · exact same

/-- An effect leaves the registers alone that it does not target. -/
theorem perform_other {a : Machine} {effect : Effect} {r : BitVec 5} {instruction : Instruction} {writes_rd : Bool}
    (fits : effect.Fits instruction writes_rd) (other : effect.target ≠ some (r.setWidth 64)) :
    (a.perform effect).registers.value r = a.registers.value r := by
  have away {reg value : U64} (rd : reg = instruction.rd.setWidth 64) (differs : some reg ≠ some (r.setWidth 64)) :
      (a.write reg value).registers.value r = a.registers.value r := by
    subst rd
    refine if_neg fun written => differs ?_
    rw [written.2,setWidth_five]
  cases effect with
  | nothing => rfl
  | register reg value => exact away fits.1 other
  | load reg address size signExtend => exact away fits.1.1 other
  | store address size value => rfl

theorem write_value_same {a : Machine} {r : BitVec 5} {v : U64} (nonzero : r ≠ 0) :
    (a.write (r.setWidth 64) v).registers.value r = v :=
  if_pos ⟨nonzero,(setWidth_five r).symm⟩

/-- What decode gets for a register is its value once W and M are retired. -/
theorem readable_value {x : StageRegX} {m : StageRegM} {w : StageRegW} {file : RegisterFile} {r : BitVec 5} {v : U64}
    {a : Machine} (same : a.registers = .ofFile file) (settled : w.Settled) {instruction : Instruction}
    {writes_rd : Bool} (fits : m.effect.Fits instruction writes_rd)
    (no_load : m.readWrite = .memory_read → m.reg ≠ r.setWidth 64) (zero : r = 0 → ZeroForwarded m w)
    (found : readable x m w (stage_writeback w file) (r.setWidth 64) = some v) :
    v = ((a.perform w.effect).perform m.effect).registers.value r ∧ isRegister (r.setWidth 64) x.rd = false := by
  unfold readable forwarded_register_read_single at found
  by_cases stall : isRegister (r.setWidth 64) x.rd = true
  · simp [stall] at found
  rw [if_neg stall] at found
  refine ⟨?_,by simpa using stall⟩
  by_cases forward : m.readWrite = .register_write ∧ m.reg = r.setWidth 64
  · rw [if_pos forward] at found
    cases found
    have effect : m.effect = .register (r.setWidth 64) m.value := by rw [StageRegM.effect,forward.1,forward.2]
    by_cases nonzero : r = 0
    · subst nonzero
      rw [Registers.zero_eq]
      exact (zero rfl).1 forward
    · rw [effect]
      exact (write_value_same nonzero).symm
  rw [if_neg forward] at found
  have other : m.effect.target ≠ some (r.setWidth 64) := by
    unfold StageRegM.effect
    cases op : m.readWrite with
    | register_write => exact fun target => forward ⟨op,Option.some.inj target⟩
    | memory_read => exact fun target => no_load op (Option.some.inj target)
    | _ => rintro ⟨⟩
  rw [perform_other fits other]
  by_cases retiring : w.reg = r.setWidth 64
  · rw [if_pos retiring] at found
    cases found
    by_cases nonzero : r = 0
    · subst nonzero
      rw [Registers.zero_eq]
      exact (zero rfl).2 forward retiring
    · have op : w.op = true := by
        cases op : w.op with
        | true => rfl
        | false =>
          refine absurd ?_ nonzero
          rw [← setWidth_five_inj,← retiring,(settled.bubble op).1]
          rfl
      rw [StageRegW.effect,if_pos op,retiring]
      exact (write_value_same nonzero).symm
  · rw [if_neg retiring] at found
    cases found
    rw [register_read_one_five,perform_writeback same]

/-- An instruction is issued with the registers readable that its type has, and no load of
    one of them in M. -/
theorem operands_readable {i : Instruction} {x : StageRegX} {m : StageRegM} {w : StageRegW}
    {file : RegisterFile} {v1 v2 : U64} (ready : operands i x m w file = some (v1,v2)) :
    (decoding_type i.opcode ≠ .U → readable x m w file (i.rs1.setWidth 64) = some v1 ∧
      (m.readWrite = .memory_read → m.reg ≠ i.rs1.setWidth 64)) ∧
    (decoding_type i.opcode = .S ∨ decoding_type i.opcode = .R → readable x m w file (i.rs2.setWidth 64) = some v2 ∧
      (m.readWrite = .memory_read → m.reg ≠ i.rs2.setWidth 64)) := by
  unfold operands at ready
  by_cases hazard : m.readWrite = .memory_read ∧ (isRegister m.reg (register_numbers i).rs1 ∨
      isRegister m.reg (register_numbers i).rs2 ∨ isRegister m.reg (register_numbers i).rd)
  · simp only [if_pos hazard] at ready
    cases ready
  simp only [if_neg hazard] at ready
  have no_load {r : BitVec 5} (number : (register_numbers i).rs1 = r.setWidth 16 ∨
    (register_numbers i).rs2 = r.setWidth 16)
      (load : m.readWrite = .memory_read) : m.reg ≠ r.setWidth 64 := by
    intro reg
    have compared : isRegister m.reg (r.setWidth 16) = true := by rw [reg,isRegister_five]; simp
    rcases number with first | second
    · exact hazard ⟨load,.inl (first ▸ compared)⟩
    · exact hazard ⟨load,.inr (.inl (second ▸ compared))⟩
  have both (found : forwarded_register_read x m w file (i.rs1.setWidth 64) (i.rs2.setWidth 64) = some (v1,v2)) :
      readable x m w file (i.rs1.setWidth 64) = some v1 ∧ readable x m w file (i.rs2.setWidth 64) = some v2 := by
    rw [forwarded_register_read_eq] at found
    obtain ⟨va,first,rest⟩ := Option.bind_eq_some_iff.mp found
    obtain ⟨vb,second,pair⟩ := Option.map_eq_some_iff.mp rest
    cases pair
    exact ⟨first,second⟩
  unfold register_numbers at ready no_load
  cases type : decoding_type i.opcode with
  | U => exact ⟨fun other => absurd rfl other,by rintro (h | h) <;> cases h⟩
  | I =>
    simp only [type] at ready no_load
    simp only [setWidth_ne,false_and,if_false,ne_eq,not_false_eq_true,true_and,if_true,
      forwarded_register_read_eq] at ready
    obtain ⟨v,found,pair⟩ := Option.map_eq_some_iff.mp ready
    obtain ⟨va,first,rest⟩ := Option.bind_eq_some_iff.mp found
    obtain ⟨vb,-,inner⟩ := Option.map_eq_some_iff.mp rest
    cases inner
    cases pair
    exact ⟨fun _ => ⟨first,no_load (.inl rfl)⟩,by rintro (h | h) <;> cases h⟩
  | S =>
    simp only [type] at ready no_load
    simp only [setWidth_ne,and_false,if_false] at ready
    obtain ⟨first,second⟩ := both ready
    exact ⟨fun _ => ⟨first,no_load (.inl rfl)⟩,fun _ => ⟨second,no_load (.inr rfl)⟩⟩
  | R =>
    simp only [type] at ready no_load
    simp only [setWidth_ne,and_false,if_false] at ready
    obtain ⟨first,second⟩ := both ready
    exact ⟨fun _ => ⟨first,no_load (.inl rfl)⟩,fun _ => ⟨second,no_load (.inr rfl)⟩⟩

/-- The operands that an instruction is issued with are the contents of its registers after
    W and M, and after X if this leaves alone what is not waited for. -/
theorem operands_agree {i : Instruction} {x : StageRegX} {m : StageRegM} {w : StageRegW}
    {file : RegisterFile} {v1 v2 : U64} {a : Machine} (same : a.registers = .ofFile file) (settled : w.Settled)
    {instruction : Instruction} {writes_rd : Bool} (fits : m.effect.Fits instruction writes_rd)
    (zero : ReadsZero i → ZeroForwarded m w) (ready : operands i x m w (stage_writeback w file) = some (v1,v2))
    {registers : Registers}
    (unchanged : ∀ r, isRegister (r.setWidth 64) x.rd = false →
      registers.value r = ((a.perform w.effect).perform m.effect).registers.value r) :
    Agree (decoding_type i.opcode) ⟨v1,v2⟩ ⟨registers.value i.rs1,registers.value i.rs2⟩ := by
  obtain ⟨first,second⟩ := operands_readable ready
  constructor
  · intro kind
    obtain ⟨found,no_load⟩ := first kind
    obtain ⟨value,free⟩ := readable_value same settled fits no_load (fun is_zero => zero (.inl ⟨kind,is_zero⟩)) found
    exact value.trans (unchanged _ free).symm
  · intro kind
    obtain ⟨found,no_load⟩ := second kind
    obtain ⟨value,free⟩ := readable_value same settled fits no_load (fun is_zero => zero (.inr ⟨kind,is_zero⟩)) found
    exact value.trans (unchanged _ free).symm

/-! ### Prediction -/

namespace Machine

/-- An instruction that the machine comes to and does not skip. -/
def Executes (s : Machine) (pc : U64) : Prop := s.Visits pc ∧ s.code pc ≠ 0

/-- A next address that needs no correction unless the instruction is executed. -/
def Predicted (s : Machine) (pc new_pc : U64) : Prop := new_pc = pc + 4 ∨ s.Executes pc

/-- Only instructions that were executed are predicted to jump. -/
def Trained (s : Machine) (table : BranchTable) : Prop := ∀ i, (table i).bht > 1 → s.Executes (table i).branch_address

theorem trained_zero (s : Machine) : s.Trained .zero := by
  intro i taken
  exact absurd taken (show ¬ (0 : U8) > 1 by decide)

theorem Trained.predicted {s : Machine} {table : BranchTable} (trained : s.Trained table) (pc : U64) :
    s.Predicted pc (table.predict_address pc) := by
  unfold BranchTable.predict_address
  split
  · rename_i found
    exact .inr (found.1 ▸ trained _ found.2)
  · exact .inl rfl

theorem Trained.update {s : Machine} {table : BranchTable} (trained : s.Trained table) {pc : U64}
    (executes : s.Executes pc) (target : U64) : s.Trained (table.update_entry pc target false) := by
  refine BranchTable.update_entry_all (P := fun entry => entry.bht > 1 → s.Executes entry.branch_address) trained ?_
    (fun _ => executes)
  intro entry kept taken
  exact kept (BranchTable.gt_of_counted_false taken)

end Machine

/-! ### The cycle -/

/-- What the log shows of the registers and of memory, without W and M. -/
def architectural (pc : U64) (file : RegisterFile) (mem : FlatMemory) (log : List Events) : Machine :=
  ⟨pc,.ofFile file,mem,log.filterMap fun e => e.written.filter (·.1 ≠ 0),log.filterMap (·.stored)⟩

/-- X holds an instruction that is not to be squashed. -/
def Live (x : StageRegX) (m : StageRegM) : Prop := x.not_stalled = true ∧ m.tainted_executions = 0
instance (x : StageRegX) (m : StageRegM) : Decidable (Live x m) := instDecidableAnd

/-- The address of the instruction that decode has to see next. -/
def nextPc (x : StageRegX) (m : StageRegM) (pc : U64) : U64 := if Live x m then x.new_pc else pc

/-- X holds the instruction that the machine executes next. -/
structure Issued (s : Machine) (x : StageRegX) (t : Machine) : Prop where
  pc : x.pc = t.pc
  word : x.instruction = s.code x.pc
  operands : Agree (decoding_type x.instruction.opcode) ⟨x.rs1_value,x.rs2_value⟩
    ⟨t.registers.value x.instruction.rs1,t.registers.value x.instruction.rs2⟩
  rd : x.rd = (register_numbers x.instruction).rd
  predicted : s.Predicted x.pc x.new_pc

/-- D holds what is at the address, and the pc is where it was predicted to go. -/
structure Fetched (s : Machine) (d : StageRegD) (pc : U64) : Prop where
  new_pc : d.new_pc = pc
  word : s.Visits d.pc → d.instruction = s.code d.pc
  predicted : s.Predicted d.pc d.new_pc

section
variable {σ ι : Type}

/-- The states `R` of a machine started in `s` that count before a cycle, and those `R'` that
    count after it: the pipeline may stay where it is, or take a step. -/
structure Reference (s : Machine) (R R' : Machine → Prop) : Prop where
  fetched : ∀ t, R t → t.fetched = s.code t.pc
  keeps : ∀ t, R t → R' t
  steps : ∀ t t', R t → t.step = .ok t' → R' t'
  visits : ∀ t, R' t → s.Visits t.pc

/-- The pipeline, with the memory `mem` behind it, is at the state `t` of the machine
    started in `s` once W and M are retired. -/
structure Tracks (s : Machine) (R : Machine → Prop) (p : Pipeline σ) (mem : FlatMemory) (log : List Events)
    (t : Machine) :
    Prop where
  reached : R t
  retired : ((architectural t.pc p.register_file mem log).perform p.cur_w_reg.effect).perform p.cur_m_reg.effect = t
  trained : s.Trained p.branch_table
  settled : p.cur_w_reg.Settled
  fits : ∃ instruction writes_rd, p.cur_m_reg.effect.Fits instruction writes_rd
  taint : p.cur_m_reg.tainted_executions = 0 ∨ p.cur_m_reg.tainted_executions = 1
  issued : Live p.cur_x_reg p.cur_m_reg → Issued s p.cur_x_reg t
  held : p.cur_d_reg.not_stalled = true →
    p.cur_d_reg.pc = nextPc p.cur_x_reg p.cur_m_reg t.pc ∧ Fetched s p.cur_d_reg p.program_counter
  empty : p.cur_d_reg.not_stalled = false → p.program_counter = nextPc p.cur_x_reg p.cur_m_reg t.pc

/-- The instruction in X goes elsewhere than predicted. -/
def Redirects (x : StageRegX) (m : StageRegM) : Prop :=
  Live x m ∧ x.instruction ≠ 0 ∧
    okAnd (dispatch x.instruction ⟨x.rs1_value,x.rs2_value⟩ (x.pc + 4) .zero) (fun e => e.pc != x.new_pc) = true
instance (x : StageRegX) (m : StageRegM) : Decidable (Redirects x m) := instDecidableAnd

/-- The instruction in D has to wait for one before it. -/
def Waits (p : Pipeline σ) : Prop :=
  p.cur_d_reg.not_stalled = true ∧ operands p.cur_d_reg.instruction p.cur_x_reg p.cur_m_reg p.cur_w_reg
    (stage_writeback p.cur_w_reg p.register_file) = none
instance (p : Pipeline σ) : Decidable (Waits p) := instDecidableAnd

/-- The instruction in D is issued, and is not squashed. -/
def Issues (p : Pipeline σ) : Prop :=
  p.cur_d_reg.not_stalled = true ∧ ¬ Waits p ∧ ¬ Redirects p.cur_x_reg p.cur_m_reg
instance (p : Pipeline σ) : Decidable (Issues p) := instDecidableAnd

/-- X does not redirect the pc while D waits, and if D issues an instruction that reads x0, what is forwarded is
    zero. -/
def Smooth (p : Pipeline σ) : Prop :=
  ¬ (Redirects p.cur_x_reg p.cur_m_reg ∧ Waits p) ∧
    (Issues p → ReadsZero p.cur_d_reg.instruction → ZeroForwarded p.cur_m_reg p.cur_w_reg)
instance (p : Pipeline σ) : Decidable (Smooth p) := instDecidableAnd

/-- The outcome of an execute stage: the machine is at `t'`, and either goes on as
    predicted, or the pc is set and the next instruction squashed. -/
structure Stepped (s : Machine) (R' : Machine → Prop) (t : Machine) (p : Pipeline σ) (m : StageRegM) (pc : U64)
    (table : BranchTable) (t' : Machine) : Prop where
  reached : R' t'
  origin : m.readWrite = .nop ∨ m.pc = t.pc ∧ t.fetched ≠ 0 ∧ ∃ e, dispatch t.fetched t.operands (t.pc + 4) .zero =
    .ok e ∧ e.m.effect = m.effect ∧ t' = { t.perform m.effect with pc := e.pc }
  performed : { t with pc := t'.pc }.perform m.effect = t'
  trained : s.Trained table
  fits : ∃ instruction writes_rd, m.effect.Fits instruction writes_rd
  unchanged : ∀ r : BitVec 5, isRegister (r.setWidth 64) p.cur_x_reg.rd = false → t'.registers.value r =
    t.registers.value r
  goes : (m.tainted_executions = 0 ∧ ¬ Redirects p.cur_x_reg p.cur_m_reg) ∧ pc = p.program_counter ∧
      nextPc p.cur_x_reg p.cur_m_reg t.pc = t'.pc ∨
    m.tainted_executions = 1 ∧ pc = t'.pc ∧ Redirects p.cur_x_reg p.cur_m_reg

theorem perform_pc (a : Machine) (pc : U64) (effect : Effect) :
    { a with pc := pc }.perform effect = { a.perform effect with pc := pc } := by
  cases effect <;> rfl

theorem nextPc_live {x : StageRegX} {m : StageRegM} (live : Live x m) (pc : U64) :
    nextPc x m pc = x.new_pc := if_pos live
theorem nextPc_dead {x : StageRegX} {m : StageRegM} (dead : ¬ Live x m) (pc : U64) : nextPc x m pc = pc := if_neg dead

section
variable {s t t' : Machine} {R R' : Machine → Prop} {p : Pipeline σ} {mem : FlatMemory} {log : List Events}

theorem idle_stepped (reference : Reference s R R') (tracks : Tracks s R p mem log t)
    (dead : ¬ Live p.cur_x_reg p.cur_m_reg) (new_m_reg : StageRegM) (pc : U64) :
    Stepped s R' t p (new_m_reg.idle pc 0) p.program_counter p.branch_table t where
  reached := reference.keeps t tracks.reached
  origin := .inl rfl
  performed := by rw [effect_nop rfl]; rfl
  trained := tracks.trained
  fits := ⟨0,false,by rw [effect_nop rfl]; trivial⟩
  unchanged _ _ := rfl
  goes := .inl ⟨⟨rfl,fun redirects => dead redirects.1⟩,rfl,nextPc_dead dead _⟩

/-- A word of zero is a step of the machine to the next address. -/
theorem skip_stepped (reference : Reference s R R') (tracks : Tracks s R p mem log t)
    (live : Live p.cur_x_reg p.cur_m_reg) (zero : p.cur_x_reg.instruction = 0) (new_m_reg : StageRegM) (pc : U64) :
    Stepped s R' t p (new_m_reg.idle pc 0) p.program_counter p.branch_table { t with pc := t.pc + 4 } where
  reached := by
    have issued := tracks.issued live
    have skipped : t.fetched = 0 := by rw [reference.fetched t tracks.reached,← issued.pc,← issued.word,zero]
    exact reference.steps t _ tracks.reached (by rw [Machine.step,if_pos skipped])
  origin := .inl rfl
  performed := by rw [effect_nop rfl]; rfl
  trained := tracks.trained
  fits := ⟨0,false,by rw [effect_nop rfl]; trivial⟩
  unchanged _ _ := rfl
  goes := by
    have issued := tracks.issued live
    refine .inl ⟨⟨rfl,fun redirects => redirects.2.1 zero⟩,rfl,?_⟩
    rw [nextPc_live live]
    rcases issued.predicted with straight | executes
    · rw [straight,issued.pc]
    · exact absurd (issued.word.symm.trans zero) executes.2

/-- A dispatched instruction is a step of the machine, predicted or not. -/
theorem dispatch_stepped (reference : Reference s R R') (tracks : Tracks s R p mem log t)
    (live : Live p.cur_x_reg p.cur_m_reg) (word : p.cur_x_reg.instruction ≠ 0) {e : Execution} {new_m_reg : StageRegM}
    (handled : dispatch p.cur_x_reg.instruction ⟨p.cur_x_reg.rs1_value,p.cur_x_reg.rs2_value⟩ (p.cur_x_reg.pc + 4)
      (new_m_reg.idle p.cur_x_reg.pc 0) = .ok e) :
    Stepped s R' t p (if e.pc ≠ p.cur_x_reg.new_pc then { e.m with tainted_executions := 1 } else e.m)
      (if e.pc ≠ p.cur_x_reg.new_pc then e.pc else p.program_counter)
      (if e.pc ≠ p.cur_x_reg.pc + 4 then p.branch_table.update_entry p.cur_x_reg.pc e.pc (e.pc == p.cur_x_reg.pc + 4)
        else p.branch_table)
      { t.perform e.m.effect with pc := e.pc } := by
  have issued := tracks.issued live
  have fetched : t.fetched = p.cur_x_reg.instruction := by
    rw [reference.fetched t tracks.reached,← issued.pc,← issued.word]
  have fits := dispatch_fits rfl handled
  -- the handler leaves the same whatever the buffer held
  obtain ⟨e',handled',view⟩ : ∃ e', dispatch p.cur_x_reg.instruction ⟨p.cur_x_reg.rs1_value,p.cur_x_reg.rs2_value⟩
      (p.cur_x_reg.pc + 4) .zero = .ok e' ∧ e'.view = e.view := by
    have same : Except.map Execution.view (.ok e) = (dispatch p.cur_x_reg.instruction
        ⟨p.cur_x_reg.rs1_value,p.cur_x_reg.rs2_value⟩ (p.cur_x_reg.pc + 4) .zero).map Execution.view := by
      rw [← handled]
      exact dispatch_view rfl
    cases outcome : dispatch p.cur_x_reg.instruction ⟨p.cur_x_reg.rs1_value,p.cur_x_reg.rs2_value⟩
      (p.cur_x_reg.pc + 4) .zero with
    | error abort => rw [outcome] at same; cases same
    | ok e' => rw [outcome] at same; exact ⟨e',rfl,(Except.ok.inj same).symm⟩
  have same_pc : e'.pc = e.pc := congrArg Prod.fst view
  have same_effect : e'.m.effect = e.m.effect := congrArg Prod.snd view
  have handled_machine : dispatch t.fetched t.operands (t.pc + 4) .zero = .ok e' := by
    rw [← handled',← issued.pc,fetched]
    refine (dispatch_agree ?_).symm
    rw [Machine.operands,fetched]
    exact issued.operands
  have stepped : t.step = .ok { t.perform e.m.effect with pc := e.pc } :=
    Machine.step_word (by rw [fetched]; exact word) handled_machine (by rw [same_pc,same_effect])
  have effect : (if e.pc ≠ p.cur_x_reg.new_pc then { e.m with tainted_executions := 1 } else e.m).effect =
      e.m.effect := by
    split <;> rfl
  constructor
  · exact reference.steps t _ tracks.reached stepped
  · have here : e.m.pc = t.pc := (dispatch_pc handled).trans issued.pc
    refine .inr ⟨?_,by rw [fetched]; exact word,e',handled_machine,by rw [effect,same_effect],by rw [effect,same_pc]⟩
    split
    · exact here
    · exact here
  · rw [effect,perform_pc]
  · split
    · rename_i jumps
      rw [beq_eq_false_iff_ne.mpr jumps]
      have executes : s.Executes p.cur_x_reg.pc := by
        refine ⟨issued.pc ▸ reference.visits t (reference.keeps t tracks.reached),?_⟩
        rw [← issued.word]
        exact word
      exact tracks.trained.update executes _
    · exact tracks.trained
  · exact ⟨_,_,effect ▸ fits⟩
  · intro r free
    refine perform_other fits fun target => ?_
    obtain ⟨same,number⟩ := fits.target target
    rw [issued.rd,number,isRegister_five] at free
    exact of_decide_eq_false free (setWidth_five_inj.mp same)
  · by_cases mispredicted : e.pc ≠ p.cur_x_reg.new_pc
    · rw [if_pos mispredicted,if_pos mispredicted]
      refine .inr ⟨rfl,rfl,live,word,okAnd_iff.mpr ⟨e',handled',?_⟩⟩
      rw [same_pc]
      exact bne_iff_ne.mpr mispredicted
    · rw [if_neg mispredicted,if_neg mispredicted]
      refine .inl ⟨⟨dispatch_taint handled,fun redirects => ?_⟩,rfl,(nextPc_live live _).trans
        (not_not.mp mispredicted).symm⟩
      obtain ⟨e'',again,other⟩ := okAnd_iff.mp redirects.2.2
      cases handled'.symm.trans again
      rw [same_pc] at other
      exact mispredicted (bne_iff_ne.mp other)

theorem execute_stepped (reference : Reference s R R') (tracks : Tracks s R p mem log t) {m : StageRegM} {pc : U64}
    {table : BranchTable} {dispatched : Option (U64 × U32)}
    (executed : Executes p.cur_x_reg p.cur_m_reg p.cur_w_reg p.new_m_reg p.program_counter p.branch_table
      (m,pc,table,dispatched)) : ∃ t', Stepped s R' t p m pc table t' := by
  cases executed with
  | replays stall => exact absurd tracks.settled.flows stall
  | bubble flows empty =>
    have dead : ¬ Live p.cur_x_reg p.cur_m_reg := fun live => Bool.false_ne_true (empty.symm.trans live.1)
    exact ⟨t,idle_stepped reference tracks dead _ _⟩
  | squashes flows holds tainted =>
    have one : p.cur_m_reg.tainted_executions = 1 := by
      rcases tracks.taint with zero | one
      · rw [zero] at tainted
        exact absurd tainted (by decide)
      · exact one
    have dead : ¬ Live p.cur_x_reg p.cur_m_reg := fun live => absurd (live.2.symm.trans one) (by decide)
    rw [one]
    exact ⟨t,idle_stepped reference tracks dead _ _⟩
  | skips flows holds clean zero =>
    exact ⟨_,skip_stepped reference tracks ⟨holds,by bv_omega⟩ zero _ _⟩
  | dispatches flows holds clean word e handled =>
    exact ⟨_,dispatch_stepped reference tracks ⟨holds,by bv_omega⟩ word handled⟩

end

/-- Memory answered in the M stage: W holds what is left to do of the instruction in M. -/
structure Retires (mem : FlatMemory) (m : StageRegM) (w : StageRegW) (stored : Option (U64 × U8 × U64))
    (mem' : FlatMemory) : Prop where
  settled : w.Settled
  performs : ∀ a : Machine, a.memory = mem →
    a.perform m.effect = { a with memory := mem', stores := a.stores ++ stored.toList }.perform w.effect

section
variable {mem : FlatMemory} {m : StageRegM} {instruction : Instruction} {writes_rd : Bool} (new_w_reg : StageRegW)

theorem retires_register (op : m.readWrite = .register_write) (fits : m.effect.Fits instruction writes_rd) :
    Retires mem m { new_w_reg with
        tainted_executions := 0, reg := m.reg, value := m.value, op := true, global_memory_stall := 0 } none mem := by
  have effect : m.effect = .register m.reg m.value := by rw [StageRegM.effect,op]
  rw [effect] at fits
  refine ⟨⟨rfl,rfl,by rintro ⟨⟩,fun _ => ⟨_,fits.1⟩⟩,?_⟩
  rintro a rfl
  rw [effect]
  simp [StageRegW.effect]

theorem retires_nop (op : m.readWrite = .nop) :
    Retires mem m { new_w_reg with tainted_executions := 0 }.bubble none mem := by
  refine ⟨⟨rfl,rfl,fun _ => ⟨rfl,rfl⟩,nofun⟩,?_⟩
  rintro a rfl
  rw [effect_nop op]
  simp [StageRegW.effect,StageRegW.bubble]

theorem retires_load (op : m.readWrite = .memory_read) (fits : m.effect.Fits instruction writes_rd) {value : U64}
    (loaded : ∀ a : Machine, a.memory = mem → a.loaded m.address m.size m.signExtend = value) :
    Retires mem m { new_w_reg with
        tainted_executions := 0, value := value, reg := m.reg, op := true, global_memory_stall := 0 } none mem := by
  have effect : m.effect = .load m.reg m.address m.size m.signExtend := by rw [StageRegM.effect,op]
  rw [effect] at fits
  refine ⟨⟨rfl,rfl,by rintro ⟨⟩,fun _ => ⟨_,fits.1.1⟩⟩,?_⟩
  rintro a rfl
  rw [effect]
  simp [StageRegW.effect,Machine.perform,loaded a rfl]

theorem retires_store (op : m.readWrite = .memory_write) :
    Retires mem m { new_w_reg with tainted_executions := 0 }.bubble (some (m.address,m.size,m.value))
      (mem.write (m.address.setWidth 32) m.size m.value) := by
  refine ⟨⟨rfl,rfl,fun _ => ⟨rfl,rfl⟩,nofun⟩,?_⟩
  rintro a rfl
  have effect : m.effect = .store m.address m.size m.value := by rw [StageRegM.effect,op]
  rw [effect]
  simp [StageRegW.effect,StageRegW.bubble,Machine.perform]

end

/-- The fetch stage stalled with an empty D register, or delivered what is at the pc. -/
def Supplied (s : Machine) (pc : U64) (table : BranchTable) (d : StageRegD) (pc' : U64) : Prop :=
  d.not_stalled = false ∧ pc' = pc ∨
    d.not_stalled = true ∧ d.pc = pc ∧ d.new_pc = table.predict_address pc ∧ pc' = d.new_pc ∧
      (s.Visits pc → d.instruction = s.code pc)

theorem architectural_cycle {p p' : Pipeline σ} {ms : MemorySystem σ ι} {locals : ι} {memory_mem fetch_mem : σ}
    {execute_pc decode_pc : U64} {events : Events}
    (staged : Staged ms p locals memory_mem execute_pc decode_pc fetch_mem p' events) (pc : U64) (mem mem' : FlatMemory)
    (log : List Events) :
    architectural pc p'.register_file mem' (log ++ [events]) =
      let a := (architectural pc p.register_file mem log).perform p.cur_w_reg.effect
      { a with memory := mem', stores := a.stores ++ events.stored.toList } := by
  unfold architectural
  rw [filterMap_append_single,filterMap_append_single,staged.register_file,staged.written]
  cases op : p.cur_w_reg.op with
  | false => simp [StageRegW.effect,stage_writeback,op,Machine.perform]
  | true =>
    by_cases zero : p.cur_w_reg.reg = 0#64
    · simp [StageRegW.effect,stage_writeback,op,Machine.perform,Machine.write,ofFile_register_write,zero]
    · simp [StageRegW.effect,stage_writeback,op,Machine.perform,Machine.write,ofFile_register_write,zero]

theorem perform_writeback_memory (a : Machine) (w : StageRegW) : (a.perform w.effect).memory = a.memory := by
  unfold StageRegW.effect
  split <;> rfl

section
variable {s t t' : Machine} {R R' : Machine → Prop} {p : Pipeline σ} {mem : FlatMemory} {log : List Events}

/-- Decode hands on the next instruction, and leaves the pc at the one after it. -/
theorem decode_issued (reference : Reference s R R') (tracks : Tracks s R p mem log t)
    (smooth : Smooth p) {m : StageRegM} {execute_pc : U64} {table : BranchTable}
    (stepped : Stepped s R' t p m execute_pc table t') {x : StageRegX} {decode_pc : U64}
    (decoded : Decodes p.cur_d_reg p.cur_x_reg p.cur_m_reg p.cur_w_reg p.new_x_reg
      (stage_writeback p.cur_w_reg p.register_file) execute_pc (x,decode_pc)) :
    (Live x m → Issued s x t') ∧ decode_pc = nextPc x m t'.pc := by
  cases decoded with
  | bubble empty =>
    have dead : ¬ Live { p.new_x_reg with not_stalled := false } m := fun live => Bool.false_ne_true live.1
    have free : p.cur_d_reg.not_stalled = false := empty.resolve_right fun stall => stall tracks.settled.flows
    refine ⟨fun live => absurd live dead,?_⟩
    rw [nextPc_dead dead]
    rcases stepped.goes with ⟨-,same,next⟩ | ⟨-,same,-⟩
    · rw [same,tracks.empty free,next]
    · exact same
  | waits holds flows busy =>
    have dead : ¬ Live ⟨p.cur_d_reg.pc,p.cur_d_reg.new_pc,p.cur_d_reg.instruction,false,-1,-1,-1,-1,-1⟩ m :=
      fun live => Bool.false_ne_true live.1
    refine ⟨fun live => absurd live dead,?_⟩
    rw [nextPc_dead dead]
    rcases stepped.goes with ⟨-,-,next⟩ | ⟨-,-,redirects⟩
    · rw [(tracks.held holds).1,next]
    · exact absurd ⟨redirects,holds,busy⟩ smooth.1
  | issues holds flows rs1_value rs2_value ready =>
    obtain ⟨here,fetched⟩ := tracks.held holds
    rcases stepped.goes with ⟨⟨clean,straight⟩,same,next⟩ | ⟨tainted,same,-⟩
    · have pc : p.cur_d_reg.pc = t'.pc := here.trans next
      refine ⟨fun live => ?_,?_⟩
      · obtain ⟨_,_,fits⟩ := tracks.fits
        have visited : s.Visits p.cur_d_reg.pc := pc ▸ reference.visits t' stepped.reached
        refine ⟨pc,fetched.word visited,?_,rfl,fetched.predicted⟩
        refine operands_agree (a := architectural t.pc p.register_file mem log) rfl tracks.settled fits
          (smooth.2 ⟨holds,fun waits => ?_,straight⟩) ready fun r free => ?_
        · rw [waits.2] at ready
          cases ready
        rw [tracks.retired]
        exact stepped.unchanged r free
      · rw [nextPc_live ⟨rfl,clean⟩,same]
        exact fetched.new_pc.symm
    · have dead (x : StageRegX) : ¬ Live x m := fun live => absurd (live.2.symm.trans tainted) (by decide)
      exact ⟨fun live => absurd live (dead _),by rw [nextPc_dead (dead _)]; exact same⟩

/-- After the cycle, and before the new M register, the machine is where it was before it. -/
theorem retired_cycle {ms : MemorySystem σ ι} {p' : Pipeline σ} {mem' : FlatMemory} {locals : ι}
    {memory_mem fetch_mem : σ} {execute_pc decode_pc : U64} {events : Events} (tracks : Tracks s R p mem log t)
    (staged : Staged ms p locals memory_mem execute_pc decode_pc fetch_mem p' events)
    (retires : Retires mem p.cur_m_reg p'.cur_w_reg events.stored mem') (pc : U64) :
    (architectural pc p'.register_file mem' (log ++ [events])).perform p'.cur_w_reg.effect = { t with pc := pc } := by
  rw [architectural_cycle staged pc mem mem' log]
  have retired := congrArg (fun a : Machine => { a with pc := pc }) tracks.retired
  rw [← perform_pc,← perform_pc] at retired
  rw [← retires.performs _ (perform_writeback_memory _ _)]
  exact retired

/-- The machine's memory is the one that the M stage leaves. -/
theorem retired_memory (tracks : Tracks s R p mem log t) {w : StageRegW} {stored : Option (U64 × U8 × U64)}
    {mem' : FlatMemory} (retires : Retires mem p.cur_m_reg w stored mem') : t.memory = mem' := by
  rw [← tracks.retired,retires.performs _ (perform_writeback_memory _ _),perform_writeback_memory]

/-- D holds what is next, or the pc is there. -/
theorem supplied_held {table : BranchTable} {d : StageRegD} {pc pc' a : U64} (trained : s.Trained table)
    (supplied : Supplied s pc table d pc') (next : pc = a) : (d.not_stalled = true → d.pc = a ∧ Fetched s d pc') ∧
    (d.not_stalled = false → pc' = a) := by
  rcases supplied with ⟨empty,moved⟩ | ⟨holds,here,new_pc,moved,word⟩
  · exact ⟨fun holds => absurd (empty.symm.trans holds) Bool.false_ne_true,fun _ => moved.trans next⟩
  · refine ⟨fun _ => ⟨here.trans next,moved.symm,fun visited => ?_,?_⟩,fun empty => absurd (empty.symm.trans holds)
      Bool.false_ne_true⟩
    · rw [here]
      exact word (here ▸ visited)
    · rw [here,new_pc]
      exact trained.predicted _

/-- One cycle takes the pipeline from one state of the machine to the next, or leaves it where it is. -/
theorem tracks_step {ms : MemorySystem σ ι} {p' : Pipeline σ} {mem' : FlatMemory} {locals : ι}
    {memory_mem fetch_mem : σ} {execute_pc decode_pc : U64} {events : Events} (reference : Reference s R R')
    (tracks : Tracks s R p mem log t) (smooth : Smooth p)
    (staged : Staged ms p locals memory_mem execute_pc decode_pc fetch_mem p' events)
    (retires : Retires mem p.cur_m_reg p'.cur_w_reg events.stored mem')
    (supplied : Supplied s decode_pc p'.branch_table p'.cur_d_reg p'.program_counter) :
    ∃ t', Stepped s R' t p p'.cur_m_reg execute_pc p'.branch_table t' ∧ Tracks s R' p' mem' (log ++ [events]) t' := by
  obtain ⟨t',stepped⟩ := execute_stepped reference tracks staged.execute
  obtain ⟨issued,next⟩ := decode_issued reference tracks smooth stepped staged.decode
  refine ⟨t',stepped,?_⟩
  constructor
  · exact stepped.reached
  · rw [retired_cycle tracks staged retires]
    exact stepped.performed
  · exact stepped.trained
  · exact retires.settled
  · exact stepped.fits
  · exact stepped.goes.imp (·.1.1) (·.1)
  · exact issued
  · exact (supplied_held stepped.trained supplied next).1
  · exact (supplied_held stepped.trained supplied next).2

end

theorem tracks_initial {R : Machine → Prop} (mem : FlatMemory) (state : σ) (pc : U64) (file : RegisterFile)
    (buffers : LoopLocals) (reached : R (Machine.start pc file mem)) :
    Tracks (Machine.start pc file mem) R (Pipeline.initial state pc file buffers).1 mem []
    (Machine.start pc file mem) where
  reached := reached
  retired := rfl
  trained := Machine.trained_zero _
  settled := ⟨rfl,rfl,fun _ => ⟨rfl,rfl⟩,nofun⟩
  fits := ⟨0,false,trivial⟩
  taint := .inl rfl
  issued live := absurd live.1 Bool.false_ne_true
  held holds := absurd holds Bool.false_ne_true
  empty _ := rfl

theorem perform_extends (a : Machine) (effect : Effect) :
    a.writes <+: (a.perform effect).writes ∧ a.stores <+: (a.perform effect).stores := by
  have write (reg value : U64) : a.writes <+: (a.write reg value).writes := by
    unfold Machine.write
    split
    · exact List.prefix_refl _
    · exact List.prefix_append _ _
  cases effect with
  | nothing => exact ⟨List.prefix_refl _,List.prefix_refl _⟩
  | register reg value => exact ⟨write _ _,List.prefix_refl _⟩
  | load reg address size signExtend => exact ⟨write _ _,List.prefix_refl _⟩
  | store address size value => exact ⟨List.prefix_refl _,List.prefix_append _ _⟩

/-- The registers written back, x0 apart, and the stores made. -/
def writesOf (log : List Events) : List (U64 × U64) := log.filterMap fun e => e.written.filter (·.1 ≠ 0)
def storesOf (log : List Events) : List (U64 × U8 × U64) := log.filterMap (·.stored)

theorem Tracks.prefixes {s t : Machine} {R : Machine → Prop} {p : Pipeline σ} {mem : FlatMemory} {log : List Events}
    (tracks : Tracks s R p mem log t) :
    writesOf log <+: t.writes ∧ storesOf log <+: t.stores := by
  obtain ⟨writes,stores⟩ := perform_extends (architectural t.pc p.register_file mem log) p.cur_w_reg.effect
  obtain ⟨writes',stores'⟩ := perform_extends
    ((architectural t.pc p.register_file mem log).perform p.cur_w_reg.effect) p.cur_m_reg.effect
  rw [tracks.retired] at writes' stores'
  exact ⟨writes.trans writes',stores.trans stores'⟩

end
end RiscvSim
