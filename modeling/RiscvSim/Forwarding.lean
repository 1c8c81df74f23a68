import RiscvSim.Refinement
import RiscvSim.Simulator

/-!
What decode hands to execute. Over any memory system, and so for any program, page table and
latencies: the instructions in X, M and W write no register but the one decode took for the
destination, and a bubble in W writes nothing. A register other than x0 is therefore read with
the value that the instructions ahead leave in it. The comparison of register numbers makes no
exception of x0, so a value computed for x0 is forwarded too.
-/
namespace RiscvSim
open Bytes Runs

/-- A register that the effect writes has a number of five bits. -/
def StageRegM.Small (m : StageRegM) : Prop := ∀ reg, m.effect.target = some reg → ∃ r : BitVec 5, reg = r.setWidth 64

/-- What the W register holds: a bubble writes nothing, and only a stall flushes. -/
structure StageRegW.Fitted (w : StageRegW) : Prop where
  saved : w.global_memory_stall ≠ 0 → w.memory_register.Small
  bubble : w.op = false → w.reg = 0 ∧ w.value = 0
  written : w.op = true → ∃ r : BitVec 5, w.reg = r.setWidth 64
  flushed : w.tainted_executions ≤ 1
  flows : w.global_memory_stall = 0 → w.tainted_executions = 0

/-- What the pipeline registers hold between two cycles. -/
structure Pipeline.Fitted {σ : Type} (p : Pipeline σ) : Prop where
  destination : p.cur_x_reg.not_stalled = true → p.cur_x_reg.rd = (register_numbers p.cur_x_reg.instruction).rd
  prepared : p.cur_m_reg.Small
  retiring : p.cur_w_reg.Fitted

/-! ### What a cycle keeps -/

theorem small_nop {m : StageRegM} (nop : m.readWrite = .nop) : m.Small := by
  intro reg target
  rw [effect_nop nop] at target
  cases target

theorem executes_small {x : StageRegX} {m : StageRegM} {w : StageRegW} {new_m_reg : StageRegM} {pc : U64}
    {table : BranchTable} {r : StageRegM × U64 × BranchTable × Option (U64 × U32)}
    (executed : Executes x m w new_m_reg pc table r) (saved : w.global_memory_stall ≠ 0 → w.memory_register.Small) :
    r.1.Small := by
  cases executed with
  | replays stall => exact saved stall
  | bubble => exact small_nop rfl
  | squashes => exact small_nop rfl
  | skips => exact small_nop rfl
  | dispatches flows holds clean word e handled =>
    have small : e.m.Small := fun reg target => ⟨_,((dispatch_fits rfl handled).target target).1⟩
    simp only
    split
    · exact small
    · exact small

theorem decodes_destination {d : StageRegD} {x : StageRegX} {m : StageRegM} {w : StageRegW} {new_x_reg : StageRegX}
    {file : RegisterFile} {pc : U64} {r : StageRegX × U64} (decoded : Decodes d x m w new_x_reg file pc r)
    (issued : r.1.not_stalled = true) : r.1.rd = (register_numbers r.1.instruction).rd := by
  cases decoded with
  | bubble => cases issued
  | waits => cases issued
  | issues => rfl

section
variable {σ ι : Type} {ms : MemorySystem σ ι}

theorem fitted_bubble {w : StageRegW} (clean : w.tainted_executions = 0) : w.bubble.Fitted where
  saved set := absurd rfl set
  bubble _ := ⟨rfl,rfl⟩
  written := nofun
  flushed := by rw [show w.bubble.tainted_executions = 0 from clean]; decide
  flows _ := clean

theorem fitted_stall (w : StageRegW) {code tainted : U8} {m : StageRegM} (small : m.Small) (set : code ≠ 0)
    (few : tainted ≤ 1) :
    (w.stall code tainted m).Fitted where
  saved _ := small
  bubble _ := ⟨rfl,rfl⟩
  written := nofun
  flushed := few
  flows zero := absurd zero set

/-- The W register of an instruction that writes. -/
theorem fitted_write {w : StageRegW} (op : w.op = true) (flows : w.global_memory_stall = 0)
    (clean : w.tainted_executions = 0) (small : ∃ r : BitVec 5, w.reg = r.setWidth 64) : w.Fitted where
  saved set := absurd flows set
  bubble empty := Bool.noConfusion (op.symm.trans empty)
  written _ := small
  flushed := by rw [clean]; decide
  flows _ := clean

/-- The W register that the memory stage leaves. -/
theorem accesses_fitted {mem : σ} {locals : ι} {m : StageRegM} {w new_w_reg : StageRegW}
    {r : StageRegW × Option (U64 × U8 × U64) × σ} (accessed : Accesses ms mem locals m w new_w_reg r)
    (prepared : m.Small) (flushed : w.tainted_executions ≤ 1) : r.1.Fitted := by
  cases accessed with
  | squashes tainted =>
    have one : w.tainted_executions = 1 := by
      have positive : 0 < w.tainted_executions := tainted
      bv_omega
    refine fitted_bubble (w := { new_w_reg with tainted_executions := w.tainted_executions - 1 }) ?_
    simp only [one]
    decide
  | forwards clean op => exact fitted_write rfl rfl rfl (prepared m.reg (by rw [StageRegM.effect,op]; rfl))
  | idle => exact fitted_bubble rfl
  | walks clean code op => exact fitted_stall _ prepared (by rcases op with ⟨-,rfl⟩ | ⟨-,rfl⟩ <;> decide) (by decide)
  | load_misses => exact fitted_stall _ prepared (by split <;> decide) (by decide)
  | loads clean op => exact fitted_write rfl rfl rfl (prepared m.reg (by rw [StageRegM.effect,op]; rfl))
  | store_misses => exact fitted_stall _ prepared (by split <;> decide) (by decide)
  | stores => exact fitted_bubble rfl

theorem stages_fitted {p p' : Pipeline σ} {locals : ι} {events : Events} (fitted : p.Fitted)
    (ran : stages ms p locals = .ok (p',events)) : p'.Fitted := by
  obtain ⟨memory_mem,execute_pc,decode_pc,fetch_mem,staged⟩ := stages_staged ran
  exact {
    destination := decodes_destination staged.decode
    prepared := executes_small staged.execute fitted.retiring.saved
    retiring := accesses_fitted staged.memory fitted.prepared fitted.retiring.flushed }

theorem fitted_initial (mem : σ) (pc : U64) (file : RegisterFile) (buffers : LoopLocals) :
    (Pipeline.initial mem pc file buffers).1.Fitted where
  destination := nofun
  prepared := small_nop rfl
  retiring := fitted_bubble (w := .zero) rfl

theorem run_fitted {mem : σ} {pc : U64} {file : RegisterFile} {buffers : LoopLocals} {inputs : List ι}
    {s : Pipeline σ × List Events} (ran : run (cycle ms) (Pipeline.initial mem pc file buffers) inputs = .ok s) :
    s.1.Fitted := by
  refine run_invariant (fun s : Pipeline σ × List Events => s.1.Fitted) ?_ (fitted_initial mem pc file buffers) ran
  intro s locals s' fitted stepped
  rcases cycle_cases stepped with ⟨inst,rfl⟩ | ⟨inst,p,events,staged,rfl⟩
  · exact { fitted with }
  · exact stages_fitted (p := { s.1 with inst := inst }) { fitted with } staged

/-! ### What decode reads -/

/-- The X register has been issued with this value for the register. -/
def StageRegX.Reads (x : StageRegX) (r : BitVec 5) (v : U64) : Prop :=
  x.rs1 = r.setWidth 16 ∧ x.rs1_value = v ∨ x.rs2 = r.setWidth 16 ∧ x.rs2_value = v
instance (x : StageRegX) (r : BitVec 5) (v : U64) : Decidable (x.Reads r v) := instDecidableOr

/-- The instruction in X, if it is executed next, writes the register. -/
def Pipeline.WritesNext (p : Pipeline σ) (r : BitVec 5) : Prop :=
  p.cur_x_reg.not_stalled = true ∧ ∃ e, dispatch p.cur_x_reg.instruction ⟨p.cur_x_reg.rs1_value,p.cur_x_reg.rs2_value⟩
    (p.cur_x_reg.pc + 4) (p.new_m_reg.idle p.cur_x_reg.pc 0) = .ok e ∧ e.m.effect.target = some (r.setWidth 64)

/-- The registers once the instructions in W and in M have written theirs. -/
def newest (file : RegisterFile) (w : StageRegW) (m : StageRegM) : RegisterFile :=
  let file := if w.op then file.register_write w.reg w.value else file
  if m.readWrite = .register_write then file.register_write m.reg m.value else file

theorem register_numbers_reads {i : Instruction} {r : BitVec 5} :
    ((register_numbers i).rs1 = r.setWidth 16 → decoding_type i.opcode ≠ .U ∧ i.rs1 = r) ∧
      ((register_numbers i).rs2 = r.setWidth 16 → (decoding_type i.opcode = .S ∨ decoding_type i.opcode = .R) ∧
        i.rs2 = r) := by
  have five {q : BitVec 5} (same : (q.setWidth 16 : U16) = r.setWidth 16) : q = r := by
    have numbers := congrArg (BitVec.setWidth 5) same
    simpa using numbers
  have none (same : (-1 : U16) = r.setWidth 16) : False := setWidth_ne r same.symm
  unfold register_numbers
  cases decoding_type i.opcode with
  | I => exact ⟨fun same => ⟨nofun,five same⟩,fun same => (none same).elim⟩
  | U => exact ⟨fun same => (none same).elim,fun same => (none same).elim⟩
  | S => exact ⟨fun same => ⟨nofun,five same⟩,fun same => ⟨.inl rfl,five same⟩⟩
  | R => exact ⟨fun same => ⟨nofun,five same⟩,fun same => ⟨.inr rfl,five same⟩⟩

/-- A register that an instruction is issued with was readable. -/
theorem decodes_readable {d : StageRegD} {x : StageRegX} {m : StageRegM} {w : StageRegW} {new_x_reg : StageRegX}
    {file : RegisterFile} {pc : U64} {out : StageRegX × U64} (decoded : Decodes d x m w new_x_reg file pc out)
    (issued : out.1.not_stalled = true) {r : BitVec 5} {v : U64} (reads : out.1.Reads r v) :
    w.global_memory_stall = 0 ∧ readable x m w file (r.setWidth 64) = some v ∧
      (m.readWrite = .memory_read → m.reg ≠ r.setWidth 64) := by
  cases decoded with
  | bubble => cases issued
  | waits => cases issued
  | issues holds flows v1 v2 ready =>
    obtain ⟨first,second⟩ := operands_readable ready
    refine ⟨flows,?_⟩
    rcases reads with ⟨number,rfl⟩ | ⟨number,rfl⟩
    · obtain ⟨kind,rfl⟩ := register_numbers_reads.1 number
      exact first kind
    · obtain ⟨kind,rfl⟩ := register_numbers_reads.2 number
      exact second kind

/-- A number of five bits picks its own entry. -/
theorem register_write_five {file : RegisterFile} {reg value : U64} (small : ∃ q : BitVec 5, reg = q.setWidth 64)
    (r : BitVec 5) :
    file.register_write reg value r = if reg = r.setWidth 64 then value else file r := by
  obtain ⟨q,rfl⟩ := small
  rw [RegisterFile.register_write,setWidth_five]
  by_cases same : q = r
  · rw [if_pos same.symm,if_pos (setWidth_five_inj.mpr same)]
  · rw [if_neg (Ne.symm same),if_neg (fun equal => same (setWidth_five_inj.mp equal))]

/-- What decode gets for a register other than x0 is the newest value. -/
theorem readable_newest {p : Pipeline σ} (fitted : p.Fitted) {x : StageRegX} {file : RegisterFile} {r : BitVec 5}
    (nonzero : r ≠ 0) {v : U64} (found : readable x p.cur_m_reg p.cur_w_reg file (r.setWidth 64) = some v) :
    v = newest file p.cur_w_reg p.cur_m_reg r ∧ isRegister (r.setWidth 64) x.rd = false := by
  unfold readable forwarded_register_read_single at found
  by_cases stall : isRegister (r.setWidth 64) x.rd = true
  · rw [if_pos stall] at found
    cases found
  rw [if_neg stall] at found
  refine ⟨?_,by simpa using stall⟩
  by_cases forward : p.cur_m_reg.readWrite = .register_write ∧ p.cur_m_reg.reg = r.setWidth 64
  · rw [if_pos forward] at found
    cases found
    simp only [newest,if_pos forward.1,register_write_five ⟨r,forward.2⟩,if_pos forward.2]
  rw [if_neg forward] at found
  -- M leaves the register alone, so the value is that of W or of the file
  have passed : newest file p.cur_w_reg p.cur_m_reg r =
      (if p.cur_w_reg.op then file.register_write p.cur_w_reg.reg p.cur_w_reg.value else file) r := by
    by_cases writes : p.cur_m_reg.readWrite = .register_write
    · have small : ∃ q : BitVec 5, p.cur_m_reg.reg = q.setWidth 64 :=
        fitted.prepared _ (by rw [StageRegM.effect,writes]; rfl)
      simp only [newest,if_pos writes,register_write_five small,if_neg (fun same => forward ⟨writes,same⟩)]
    · simp only [newest,if_neg writes]
  rw [passed]
  cases op : p.cur_w_reg.op with
  | true =>
    rw [if_pos rfl,register_write_five (fitted.retiring.written op)]
    by_cases retiring : p.cur_w_reg.reg = r.setWidth 64
    · rw [if_pos retiring] at found ⊢
      exact (Option.some.inj found).symm
    · rw [if_neg retiring] at found ⊢
      cases found
      rw [register_read_one_five,Registers.ofFile_value,if_neg nonzero]
  | false =>
    have other : p.cur_w_reg.reg ≠ r.setWidth 64 := by
      intro same
      rw [(fitted.retiring.bubble op).1] at same
      exact nonzero (setWidth_five_inj.mp (show (0 : BitVec 5).setWidth 64 = r.setWidth 64 from same)).symm
    rw [if_neg other] at found
    cases found
    rw [register_read_one_five,Registers.ofFile_value,if_neg nonzero]
    rfl

/-- Forwarding delivers the newest older value. In every state that the pipeline comes to, for
    a register other than x0 that an instruction is issued with: the instruction in X does not write
    it, no load in M does, the instruction in M is not squashed, and the operand is the value of the
    register once W and M have written theirs. -/
theorem forwards_newest (mem : σ) (pc : U64) (file : RegisterFile) (buffers : LoopLocals) (inputs : List ι)
    (s : Pipeline σ × List Events) (ran : run (cycle ms) (Pipeline.initial mem pc file buffers) inputs = .ok s)
    (inst : U32) (locals : ι) (p' : Pipeline σ) (events : Events)
    (next : stages ms { s.1 with inst := inst } locals = .ok (p',events)) (issued : p'.cur_x_reg.not_stalled = true)
    (r : BitVec 5) (nonzero : r ≠ 0) (v : U64) (reads : p'.cur_x_reg.Reads r v) :
    ¬ s.1.WritesNext r ∧ ¬ (s.1.cur_m_reg.readWrite = .memory_read ∧ s.1.cur_m_reg.reg = r.setWidth 64) ∧
      s.1.cur_w_reg.tainted_executions = 0 ∧ v = newest p'.register_file s.1.cur_w_reg s.1.cur_m_reg r := by
  have fitted := run_fitted ran
  obtain ⟨memory_mem,execute_pc,decode_pc,fetch_mem,staged⟩ := stages_staged next
  obtain ⟨flows,found,no_load⟩ := decodes_readable staged.decode issued reads
  obtain ⟨value,free⟩ := readable_newest fitted nonzero found
  refine ⟨?_,fun load => no_load load.1 load.2,fitted.retiring.flows flows,?_⟩
  · rintro ⟨holds,e,handled,target⟩
    obtain ⟨same,number⟩ := (dispatch_fits rfl handled).target target
    have taken : isRegister (r.setWidth 64) s.1.cur_x_reg.rd = true := by
      rw [fitted.destination holds,number,isRegister_five,setWidth_five_inj.mp same]
      simp
    exact Bool.false_ne_true (free.symm.trans taken)
  · rw [staged.register_file]
    exact value

/-- `addi x7,x5,1` right behind `addi x5,x6,1`, which is in M. -/
theorem forwards_newest_two_sums : ∃ s p' events, run (cycle simulator) (started twoSums 0 0) (zeroLocals 6) = .ok s ∧
    stages simulator { s.1 with inst := 0 } ⟨⟨0,0,0⟩,⟨0,0,0⟩⟩ = .ok (p',events) ∧ p'.cur_x_reg.not_stalled = true ∧
    p'.cur_x_reg.Reads 5 1 ∧ ¬ s.1.WritesNext 5 ∧ 1 = newest p'.register_file s.1.cur_w_reg s.1.cur_m_reg 5 := by
  have result : okAnd (run (cycle simulator) (started twoSums 0 0) (zeroLocals 6)) (fun s =>
      okAnd (stages simulator { s.1 with inst := 0 } ⟨⟨0,0,0⟩,⟨0,0,0⟩⟩) (fun r =>
        decide (r.1.cur_x_reg.not_stalled = true ∧ r.1.cur_x_reg.Reads 5 1))) = true := by decide +kernel
  obtain ⟨s,ran,result⟩ := okAnd_iff.mp result
  obtain ⟨⟨p',events⟩,next,result⟩ := okAnd_iff.mp result
  obtain ⟨issued,reads⟩ := of_decide_eq_true result
  obtain ⟨untouched,-,-,value⟩ := forwards_newest _ 0 _ _ _ s ran 0 _ p' events next issued 5 (by decide) 1 reads
  exact ⟨s,p',events,ran,next,issued,reads,untouched,value⟩

/-! ### x0 -/

/-- No value but zero is on its way to x0, in M or else in W. -/
def ZeroPending (m : StageRegM) (w : StageRegW) : Prop :=
  if m.readWrite = .register_write ∧ m.reg = 0 then m.value = 0 else w.op = true ∧ w.reg = 0 → w.value = 0
instance (m : StageRegM) (w : StageRegW) : Decidable (ZeroPending m w) := by unfold ZeroPending; infer_instance

theorem readable_zero_iff {p : Pipeline σ} (fitted : p.Fitted) {x : StageRegX} {file : RegisterFile} {v : U64}
    (found : readable x p.cur_m_reg p.cur_w_reg file 0 = some v) : v = 0 ↔ ZeroPending p.cur_m_reg p.cur_w_reg := by
  unfold readable forwarded_register_read_single at found
  by_cases stall : isRegister 0 x.rd = true
  · rw [if_pos stall] at found
    cases found
  rw [if_neg stall] at found
  unfold ZeroPending
  by_cases forward : p.cur_m_reg.readWrite = .register_write ∧ p.cur_m_reg.reg = 0
  · rw [if_pos forward] at found ⊢
    cases found
    rfl
  rw [if_neg forward] at found ⊢
  by_cases retiring : p.cur_w_reg.reg = 0
  · rw [if_pos retiring] at found
    cases found
    constructor
    · exact fun zero _ => zero
    · intro pending
      cases op : p.cur_w_reg.op with
      | true => exact pending ⟨op,retiring⟩
      | false => exact (fitted.retiring.bubble op).2
  · rw [if_neg retiring] at found
    cases found
    exact ⟨fun _ both => absurd both.2 retiring,fun _ => rfl⟩

/-- x0 is read as zero exactly if no other value is on its way to it: in every state that the
    pipeline comes to, for an instruction that is issued with x0 as an operand. -/
theorem zero_operand_iff (mem : σ) (pc : U64) (file : RegisterFile) (buffers : LoopLocals) (inputs : List ι)
    (s : Pipeline σ × List Events) (ran : run (cycle ms) (Pipeline.initial mem pc file buffers) inputs = .ok s)
    (inst : U32) (locals : ι) (p' : Pipeline σ) (events : Events)
    (next : stages ms { s.1 with inst := inst } locals = .ok (p',events)) (issued : p'.cur_x_reg.not_stalled = true)
    (v : U64) (reads : p'.cur_x_reg.Reads 0 v) : v = 0 ↔ ZeroPending s.1.cur_m_reg s.1.cur_w_reg := by
  obtain ⟨memory_mem,execute_pc,decode_pc,fetch_mem,staged⟩ := stages_staged next
  obtain ⟨-,found,-⟩ := decodes_readable staged.decode issued reads
  exact readable_zero_iff (run_fitted ran) found

/-- The zero word behind the two sums is issued with x0. -/
theorem zero_operand_iff_two_sums : ∃ s p' events, run (cycle simulator) (started twoSums 0 0) (zeroLocals 7) = .ok s ∧
    stages simulator { s.1 with inst := 0 } ⟨⟨0,0,0⟩,⟨0,0,0⟩⟩ = .ok (p',events) ∧ p'.cur_x_reg.not_stalled = true ∧
    p'.cur_x_reg.Reads 0 0 ∧ ZeroPending s.1.cur_m_reg s.1.cur_w_reg := by
  have result : okAnd (run (cycle simulator) (started twoSums 0 0) (zeroLocals 7)) (fun s =>
      okAnd (stages simulator { s.1 with inst := 0 } ⟨⟨0,0,0⟩,⟨0,0,0⟩⟩) (fun r =>
        decide (r.1.cur_x_reg.not_stalled = true ∧ r.1.cur_x_reg.Reads 0 0))) = true := by decide +kernel
  obtain ⟨s,ran,result⟩ := okAnd_iff.mp result
  obtain ⟨⟨p',events⟩,next,result⟩ := okAnd_iff.mp result
  obtain ⟨issued,reads⟩ := of_decide_eq_true result
  exact ⟨s,p',events,ran,next,issued,reads,(zero_operand_iff _ 0 _ _ _ s ran 0 _ p' events next issued 0 reads).mp rfl⟩

/-- `addi x0,x0,5` and `addi x1,x0,0`. -/
def zeroTarget (i : Nat) : U32 := if i = 0 then 0x00500013 else if i = 1 then 0x00000093 else 0

/-- The second instruction is issued with 5 for x0, while the first is in M. -/
theorem zero_read_as_five : ∃ s p' events, run (cycle simulator) (started zeroTarget 0 0) (zeroLocals 6) = .ok s ∧
    stages simulator { s.1 with inst := 0x00000093 } ⟨⟨0,0,0⟩,⟨0,0,0⟩⟩ = .ok (p',events) ∧
    p'.cur_x_reg.not_stalled = true ∧
    p'.cur_x_reg.instruction.rs1 = 0 ∧ p'.cur_x_reg.rs1 = 0 ∧ p'.cur_x_reg.rs1_value = 5 := by
  have result : okAnd (run (cycle simulator) (started zeroTarget 0 0) (zeroLocals 6)) (fun s =>
      okAnd (stages simulator { s.1 with inst := 0x00000093 } ⟨⟨0,0,0⟩,⟨0,0,0⟩⟩) (fun r =>
        decide (r.1.cur_x_reg.not_stalled = true ∧ r.1.cur_x_reg.instruction.rs1 = 0 ∧ r.1.cur_x_reg.rs1 = 0 ∧
          r.1.cur_x_reg.rs1_value = 5))) = true := by decide +kernel
  obtain ⟨s,ran,result⟩ := okAnd_iff.mp result
  obtain ⟨⟨p',events⟩,next,result⟩ := okAnd_iff.mp result
  exact ⟨s,p',events,ran,next,of_decide_eq_true result⟩

end
end RiscvSim
