import RiscvSim.FlatPipeline
import RiscvSim.Simulator

/-!
A jump that was predicted wrongly. Execute sets the pc to the address it found and taints the
instruction behind it; decode comes after execute in the same cycle and, if its instruction
has to wait, sets the pc to that instruction instead. So the redirect reaches fetch exactly if
decode does not wait. The tainted instruction is never dispatched.
-/
namespace RiscvSim
open Runs

section
variable {σ ι : Type} {ms : MemorySystem σ ι}

/-- Execute finds that the instruction in X is followed by the one at `target`, not by the one predicted. -/
structure Pipeline.Mispredicts (p : Pipeline σ) (target : U64) : Prop where
  flows : p.cur_w_reg.global_memory_stall = 0
  holds : p.cur_x_reg.not_stalled = true
  clean : ¬ p.cur_m_reg.tainted_executions > 0
  word : p.cur_x_reg.instruction ≠ 0
  handled : ∃ e, dispatch p.cur_x_reg.instruction ⟨p.cur_x_reg.rs1_value,p.cur_x_reg.rs2_value⟩ (p.cur_x_reg.pc + 4)
    (p.new_m_reg.idle p.cur_x_reg.pc 0) = .ok e ∧ e.pc = target
  other : target ≠ p.cur_x_reg.new_pc

variable {p p' : Pipeline σ} {target : U64}

/-- Execute hands on the target, and taints. -/
theorem executes_mispredicted {execute_pc : U64} {table : BranchTable} {dispatched : Option (U64 × U32)} {m : StageRegM}
    (mispredicts : p.Mispredicts target)
    (executed : Executes p.cur_x_reg p.cur_m_reg p.cur_w_reg p.new_m_reg p.program_counter p.branch_table
      (m,execute_pc,table,dispatched)) : execute_pc = target ∧ m.tainted_executions = 1 := by
  obtain ⟨e,handled,rfl⟩ := mispredicts.handled
  cases executed with
  | replays stall => exact absurd mispredicts.flows stall
  | bubble flows empty => cases mispredicts.holds.symm.trans empty
  | squashes flows holds tainted => exact absurd tainted mispredicts.clean
  | skips flows holds clean zero => exact absurd zero mispredicts.word
  | dispatches flows holds clean word e' handled' =>
    cases handled.symm.trans handled'
    rw [if_pos mispredicts.other,if_pos mispredicts.other]
    exact ⟨rfl,rfl⟩

/-- Decode passes the pc on, unless its instruction waits. -/
theorem decodes_pc {execute_pc decode_pc : U64} {x : StageRegX} (flows : p.cur_w_reg.global_memory_stall = 0)
    (decoded : Decodes p.cur_d_reg p.cur_x_reg p.cur_m_reg p.cur_w_reg p.new_x_reg
      (stage_writeback p.cur_w_reg p.register_file)
      execute_pc (x,decode_pc)) : decode_pc = if Waits p then p.cur_d_reg.pc else execute_pc := by
  cases decoded with
  | bubble empty =>
    refine (if_neg ?_).symm
    rintro ⟨holds,-⟩
    rcases empty with empty | stall
    · cases holds.symm.trans empty
    · exact stall flows
  | waits holds _ busy => exact (if_pos ⟨holds,busy⟩).symm
  | issues holds _ v1 v2 ready =>
    refine (if_neg ?_).symm
    rintro ⟨-,busy⟩
    cases ready.symm.trans busy

/-- Nothing is dispatched behind a taint. -/
theorem executes_tainted {x : StageRegX} {m : StageRegM} {w : StageRegW} {new_m_reg : StageRegM} {pc : U64}
    {table : BranchTable} {r : StageRegM × U64 × BranchTable × Option (U64 × U32)}
    (executed : Executes x m w new_m_reg pc table r) (tainted : m.tainted_executions = 1) : r.2.2.2 = none := by
  cases executed with
  | dispatches _ _ clean => exact absurd (show m.tainted_executions > 0 by rw [tainted]; decide) clean
  | _ => rfl

/-- What fetch delivers comes from the pc that it finds. -/
theorem fetches_pc {mem : σ} {locals : ι} {d new_d_reg : StageRegD} {pc : U64} {table : BranchTable}
    {r : StageRegD × U64 × Option (U64 × U32) × σ} (fetched : Fetches ms mem locals d new_d_reg pc table r)
    (held : r.1.held = r.2.2.1.toList) (holds : r.1.not_stalled = true) : r.1.pc = pc := by
  cases fetched with
  | walks =>
    rw [StageRegD.held,if_pos holds] at held
    cases held
  | misses => cases holds
  | delivers => rfl

instance (p : Pipeline σ) (target : U64) : Decidable (p.Mispredicts target) :=
  decidable_of_iff ((p.cur_w_reg.global_memory_stall = 0 ∧ p.cur_x_reg.not_stalled = true ∧
      ¬ p.cur_m_reg.tainted_executions > 0 ∧ p.cur_x_reg.instruction ≠ 0 ∧ target ≠ p.cur_x_reg.new_pc) ∧
      okAnd (dispatch p.cur_x_reg.instruction ⟨p.cur_x_reg.rs1_value,p.cur_x_reg.rs2_value⟩ (p.cur_x_reg.pc + 4)
        (p.new_m_reg.idle p.cur_x_reg.pc 0)) (fun e => decide (e.pc = target)) = true)
    ⟨fun ⟨⟨flows,holds,clean,word,other⟩,found⟩ =>
        have ⟨e,handled,same⟩ := okAnd_iff.mp found
        ⟨flows,holds,clean,word,⟨e,handled,of_decide_eq_true same⟩,other⟩,
      fun ⟨flows,holds,clean,word,⟨e,handled,same⟩,other⟩ =>
        ⟨⟨flows,holds,clean,word,other⟩,okAnd_iff.mpr ⟨e,handled,decide_eq_true same⟩⟩⟩

end

section
variable {p p' : Pipeline (MemoryState Framework)} {target : U64} {locals : CalleeLocals} {events : Events}

/-- A redirect wins exactly if decode does not wait at another address: fetch finds the target,
    and nothing is dispatched in the next cycle. If moreover fetch starts no walk with an instruction
    in the buffer, what is behind the tainted instruction is the one at the target. -/
theorem redirect_wins_iff (mispredicts : p.Mispredicts target) (next : stages simulator p locals = .ok (p',events)) :
    ((p.fetch_pc = .ok target ∧ ∀ inst locals' p'' events',
        stages simulator { p' with inst := inst } locals' = .ok (p'',events') → events'.dispatched = none) ↔
      (Waits p → p.cur_d_reg.pc = target)) ∧
    ((Waits p → p.cur_d_reg.pc = target) → FetchesFresh p → p'.cur_d_reg.not_stalled = true →
      p'.cur_d_reg.pc = target) := by
  obtain ⟨memory_mem,execute_pc,decode_pc,fetch_mem,staged⟩ := stages_staged next
  obtain ⟨rfl,tainted⟩ := executes_mispredicted mispredicts staged.execute
  have after := decodes_pc mispredicts.flows staged.decode
  have found : decode_pc = execute_pc ↔ (Waits p → p.cur_d_reg.pc = execute_pc) := by
    rw [after]
    split
    · rename_i waits
      exact ⟨fun same _ => same,fun same => same waits⟩
    · rename_i passes
      exact ⟨fun _ waits => absurd waits passes,fun _ => rfl⟩
  refine ⟨⟨fun wins => found.mp ?_,fun condition => ⟨?_,?_⟩⟩,fun condition fresh holds => ?_⟩
  · exact Except.ok.inj (staged.fetch_pc.symm.trans wins.1)
  · rw [staged.fetch_pc,found.mpr condition]
  · intro inst locals' p'' events' later
    obtain ⟨_,_,_,_,behind⟩ := stages_staged later
    exact executes_tainted behind.execute tainted
  · cases found.mpr condition
    exact fetches_pc staged.fetch (staged_held fresh staged) holds

/-- `jal x5,8` and `addi x6,x7,1`. -/
def nearJump (i : Nat) : U32 := if i = 0 then 0x008002EF else if i = 1 then 0x00138313 else 0

/-- The instruction behind the jump does not wait, and the one at 8 is fetched. -/
theorem redirect_wins_near_jump : ∃ s p' events, run (cycle simulator) (started nearJump 0 0) (zeroLocals 4) = .ok s ∧
    s.1.Mispredicts 8 ∧ stages simulator s.1 ⟨⟨0,0,0⟩,⟨0,0,0⟩⟩ = .ok (p',events) ∧ ¬ Waits s.1 ∧
    s.1.fetch_pc = .ok 8 := by
  have result : okAnd (run (cycle simulator) (started nearJump 0 0) (zeroLocals 4)) (fun s =>
      okAnd (stages simulator s.1 ⟨⟨0,0,0⟩,⟨0,0,0⟩⟩) (fun _ => decide (s.1.Mispredicts 8 ∧ ¬ Waits s.1))) =
        true := by decide +kernel
  obtain ⟨s,ran,result⟩ := okAnd_iff.mp result
  obtain ⟨⟨p',events⟩,next,result⟩ := okAnd_iff.mp result
  obtain ⟨mispredicts,flows⟩ := of_decide_eq_true result
  have wins := (redirect_wins_iff mispredicts next).1.mpr (fun waits => absurd waits flows)
  exact ⟨s,p',events,ran,mispredicts,next,flows,wins.1⟩

/-- The instruction behind the jump waits for x1, and is fetched again in place of the one at 8. -/
theorem redirect_lost : ∃ s p' events, run (cycle simulator) (started jumping 0 0) (zeroLocals 4) = .ok s ∧
    s.1.Mispredicts 8 ∧ stages simulator s.1 ⟨⟨0,0,0⟩,⟨0,0,0⟩⟩ = .ok (p',events) ∧ s.1.fetch_pc = .ok 4 := by
  have result : okAnd (run (cycle simulator) (started jumping 0 0) (zeroLocals 4)) (fun s =>
      okAnd (stages simulator s.1 ⟨⟨0,0,0⟩,⟨0,0,0⟩⟩) (fun _ =>
        decide (s.1.Mispredicts 8) && okAnd s.1.fetch_pc (fun pc => decide (pc = 4)))) = true := by decide +kernel
  obtain ⟨s,ran,result⟩ := okAnd_iff.mp result
  obtain ⟨⟨p',events⟩,next,result⟩ := okAnd_iff.mp result
  obtain ⟨mispredicts,found⟩ := Bool.and_eq_true_iff.mp result
  obtain ⟨pc,found,same⟩ := okAnd_iff.mp found
  refine ⟨s,p',events,ran,of_decide_eq_true mispredicts,next,?_⟩
  rw [found,of_decide_eq_true same]

end
end RiscvSim
