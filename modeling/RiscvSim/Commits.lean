import RiscvSim.Forwarding
import RiscvSim.Ownership

/-!
Where the effects of a run come from. Over any memory system: each register write-back and each
store that a run makes belongs to a dispatch of an instruction by execute, and no dispatch has two.
A memory stall saves the instruction in M and replays it, flushes what is behind it and lets
the instruction behind a store miss pass, so this rests on what is in flight: the instruction in M,
the one saved in W, and the one that W retires. Write-backs keep the order of the dispatches; a
store may be overtaken by the one behind it.
-/
namespace RiscvSim
open Bytes Runs Ownership

/-! ### What is in flight -/

/-- The instruction, executed with some operands, prepares the effect. -/
def Prepared (effect : Effect) (instruction : U64 × U32) : Prop :=
  ∃ x m e, m.readWrite = .nop ∧ dispatch instruction.2 x (instruction.1 + 4) m = .ok e ∧ e.m.effect = effect

/-- The write-back is one of the instruction: of its result, or of what it loads. -/
def WritesBack (write : U64 × U64) (instruction : U64 × U32) : Prop :=
  Prepared (.register write.1 write.2) instruction ∨
    ∃ address size signExtend, Prepared (.load write.1 address size signExtend) instruction

/-- The instruction, executed with some operands, prepares the store. -/
def Stores (store : U64 × U8 × U64) (instruction : U64 × U32) : Prop :=
  Prepared (.store store.1 store.2.1 store.2.2) instruction

def Effect.stores : Effect → Bool
  | .store _ _ _ => true
  | _ => false

/-- What the instruction in M owes, if its effect is of the kind. -/
def StageRegM.owes (m : StageRegM) (kind : Effect → Bool) : List (U64 × U32 → Prop) :=
  if kind m.effect then [Prepared m.effect] else []

/-- What the instruction saved by a stall owes. -/
def StageRegW.holds (w : StageRegW) (kind : Effect → Bool) : List (U64 × U32 → Prop) :=
  if w.global_memory_stall ≠ 0 then w.memory_register.owes kind else []

/-- What W is about to write back. -/
def StageRegW.retires (w : StageRegW) : List (U64 × U32 → Prop) := if w.op then [WritesBack (w.reg,w.value)] else []

/-- The kind of effect that writes a register. -/
def Effect.targets (effect : Effect) : Bool := effect.target.isSome

theorem holds_stall (w : StageRegW) (code tainted : U8) (m : StageRegM) (kind : Effect → Bool) (set : code ≠ 0) :
    (w.stall code tainted m).holds kind = m.owes kind := if_pos set

theorem holds_flows {w : StageRegW} {kind : Effect → Bool} (flows : w.global_memory_stall = 0) : w.holds kind = [] :=
  if_neg (not_not.mpr flows)

theorem owes_effect {m n : StageRegM} {kind : Effect → Bool} (same : m.effect = n.effect) :
    m.owes kind = n.owes kind := by
  rw [StageRegM.owes,StageRegM.owes,same]

/-! ### What a stage hands on -/

/-- Execute owes what the instruction that it dispatched does. -/
theorem executes_owned {x : StageRegX} {m : StageRegM} {w : StageRegW} {new_m_reg : StageRegM} {pc : U64}
    {table : BranchTable} {r : StageRegM × U64 × BranchTable × Option (U64 × U32)}
    (executed : Executes x m w new_m_reg pc table r) (flows : w.global_memory_stall = 0) {kind : Effect → Bool}
    (idle : kind .nothing = false) :
    Owned (r.1.owes kind) r.2.2.2.toList := by
  have nothing {m : StageRegM} {causes : List (U64 × U32)} (nop : m.readWrite = .nop) : Owned (m.owes kind) causes := by
    rw [StageRegM.owes,effect_nop nop,if_neg (by simp [idle])]
    exact .nil
  cases executed with
  | replays stall => exact absurd flows stall
  | bubble => exact nothing rfl
  | squashes => exact nothing rfl
  | skips => exact nothing rfl
  | dispatches flows holds clean word e handled =>
    have prepared : Owned (e.m.owes kind) [(x.pc,x.instruction)] := by
      unfold StageRegM.owes
      split
      · exact .cons ⟨_,_,e,rfl,handled,rfl⟩ .nil
      · exact .nil
    simp only
    split
    · exact prepared
    · exact prepared

section
variable {σ ι : Type} {ms : MemorySystem σ ι} {mem : σ} {locals : ι} {m : StageRegM} {w new_w_reg : StageRegW}
  {r : StageRegW × Option (U64 × U8 × U64) × σ}

/-- The memory stage writes back or saves the instruction in M, or drops it. -/
theorem accesses_retires (accessed : Accesses ms mem locals m w new_w_reg r) :
    Covered (r.1.retires ++ r.1.holds Effect.targets) (m.owes Effect.targets) := by
  have written {n : StageRegM} {value : U64} (own : ∀ d, Prepared n.effect d → WritesBack (n.reg,value) d)
      (targets : n.effect.targets = true) : Covered [WritesBack (n.reg,value)] (n.owes Effect.targets) := by
    rw [StageRegM.owes,if_pos targets]
    exact .cons own .nil
  cases accessed with
  | squashes => exact .nil
  | forwards _ op =>
    have effect : m.effect = .register m.reg m.value := by rw [StageRegM.effect,op]
    exact written (fun d own => .inl (effect ▸ own)) (by rw [effect]; rfl)
  | idle => exact .nil
  | walks _ code op =>
    have set : code ≠ 0 := by rcases op with ⟨-,rfl⟩ | ⟨-,rfl⟩ <;> decide
    rw [holds_stall _ _ _ _ _ set]
    exact covered_refl _
  | load_misses =>
    rw [holds_stall _ _ _ _ _ (by split <;> decide)]
    exact covered_refl _
  | loads _ op =>
    have effect : m.effect = .load m.reg m.address m.size m.signExtend := by rw [StageRegM.effect,op]
    exact written (fun d own => .inr ⟨_,_,_,effect ▸ own⟩) (by rw [effect]; rfl)
  | store_misses =>
    rw [holds_stall _ _ _ _ _ (by split <;> decide)]
    exact covered_refl _
  | stores => exact .nil

/-- The memory stage makes or saves the store in M, or drops it. -/
theorem accesses_stores (accessed : Accesses ms mem locals m w new_w_reg r) :
    List.Sublist (r.2.1.toList.map Stores ++ r.1.holds Effect.stores) (m.owes Effect.stores) := by
  have saved (w : StageRegW) {n : StageRegM} {code tainted : U8} (same : n.effect = m.effect) (set : code ≠ 0) :
      List.Sublist ((w.stall code tainted n).holds Effect.stores) (m.owes Effect.stores) := by
    rw [holds_stall _ _ _ _ _ set,owes_effect same]
  cases accessed with
  | squashes => exact List.nil_sublist _
  | forwards => exact List.nil_sublist _
  | idle => exact List.nil_sublist _
  | walks _ code op => exact saved _ (n := m.walking _) rfl (by rcases op with ⟨-,rfl⟩ | ⟨-,rfl⟩ <;> decide)
  | load_misses => exact saved _ (n := m.missing _) rfl (by split <;> decide)
  | loads => exact List.nil_sublist _
  | store_misses => exact saved _ (n := m.missing _) rfl (by split <;> decide)
  | stores _ op =>
    have effect : m.effect = .store m.address m.size m.value := by rw [StageRegM.effect,op]
    rw [StageRegM.owes,effect]
    exact List.Sublist.refl _

/-- A stall flushes the instruction behind it, or has saved a store. -/
theorem accesses_passed (accessed : Accesses ms mem locals m w new_w_reg r) (stall : r.1.global_memory_stall ≠ 0)
    (passes : ¬ r.1.tainted_executions > 0) : r.1.holds Effect.targets = [] := by
  cases accessed with
  | squashes => exact absurd rfl stall
  | forwards => exact absurd rfl stall
  | idle => exact absurd rfl stall
  | walks => exact absurd (by decide : (1 : U8) > 0) passes
  | load_misses => exact absurd (by decide : (1 : U8) > 0) passes
  | loads => exact absurd rfl stall
  | store_misses _ op _ _ _ _ _ missed =>
    have effect : (m.missing missed).effect = .store m.address m.size m.value := by
      simp only [StageRegM.effect,StageRegM.missing,op]
    rw [holds_stall _ _ _ _ _ (by split <;> decide),StageRegM.owes,effect]
    rfl
  | stores => exact absurd rfl stall

/-- A flushed instruction is neither written back nor saved. -/
theorem accesses_flushed (accessed : Accesses ms mem locals m w new_w_reg r) (tainted : w.tainted_executions > 0) :
    r.1.retires ++ r.1.holds Effect.targets = [] := by
  cases accessed with
  | squashes => rfl
  | forwards clean => exact absurd tainted clean
  | idle clean => exact absurd tainted clean
  | walks clean => exact absurd tainted clean
  | load_misses clean => exact absurd tainted clean
  | loads clean => exact absurd tainted clean
  | store_misses clean => exact absurd tainted clean
  | stores clean => exact absurd tainted clean

/-! ### A run -/

/-- The write-backs made, and behind them what is in flight, have instructions of their own; so
    have the stores made and in flight. -/
structure Commits (s : Pipeline σ × List Events) : Prop where
  passed : s.1.cur_w_reg.global_memory_stall ≠ 0 → ¬ s.1.cur_w_reg.tainted_executions > 0 →
    s.1.cur_w_reg.holds Effect.targets = []
  written : Owned ((s.2.filterMap Events.written).map WritesBack ++ s.1.cur_w_reg.retires ++
    (s.1.cur_w_reg.holds Effect.targets ++ s.1.cur_m_reg.owes Effect.targets)) (s.2.filterMap Events.dispatched)
  stored : OwnedAny ((s.2.filterMap Events.stored).map Stores ++ (s.1.cur_w_reg.holds Effect.stores ++
    s.1.cur_m_reg.owes Effect.stores)) (s.2.filterMap Events.dispatched)

variable {p p' : Pipeline σ} {memory_mem fetch_mem : σ} {execute_pc decode_pc : U64} {events : Events}
  {log : List Events}

/-- During a stall M gets what was saved, and nothing is dispatched. -/
theorem staged_replays (staged : Staged ms p locals memory_mem execute_pc decode_pc fetch_mem p' events)
    (stall : p.cur_w_reg.global_memory_stall ≠ 0) (kind : Effect → Bool) :
    p'.cur_m_reg.owes kind = p.cur_w_reg.holds kind ∧ events.dispatched = none := by
  have same := executes_replays staged.execute stall
  injection same with register same
  injection same with _ same
  injection same with _ dispatched
  refine ⟨?_,dispatched⟩
  rw [register,StageRegW.holds,if_pos stall]
  rfl

theorem stages_written (staged : Staged ms p locals memory_mem execute_pc decode_pc fetch_mem p' events)
    (commits : Commits (p,log)) :
    Owned (((log ++ [events]).filterMap Events.written).map WritesBack ++ p'.cur_w_reg.retires ++
      (p'.cur_w_reg.holds Effect.targets ++ p'.cur_m_reg.owes Effect.targets))
      ((log ++ [events]).filterMap Events.dispatched) := by
  have done : events.written.toList.map WritesBack = p.cur_w_reg.retires := by
    rw [staged.written,StageRegW.retires]
    split <;> rfl
  have passes := accesses_retires staged.memory
  rw [filterMap_append_single,filterMap_append_single,List.map_append,done,List.append_assoc,
    ← List.append_assoc p'.cur_w_reg.retires]
  by_cases stall : p.cur_w_reg.global_memory_stall ≠ 0
  · obtain ⟨replayed,none⟩ := staged_replays staged stall Effect.targets
    rw [replayed,none,Option.toList_none,List.append_nil]
    refine owned_covered (covered_append (covered_refl _) ?_) commits.written
    -- the instruction behind the saved one is flushed, or the saved one writes nothing back
    by_cases tainted : p.cur_w_reg.tainted_executions > 0
    · rw [accesses_flushed staged.memory tainted]
      exact covered_sublist (List.sublist_append_left _ _)
    · rw [commits.passed stall tainted,List.append_nil]
      exact passes
  · rw [← List.append_assoc]
    refine owned_append (owned_covered (covered_append (covered_refl _) ?_) commits.written)
      (executes_owned staged.execute (not_not.mp stall) rfl)
    rw [holds_flows (not_not.mp stall)]
    exact passes

theorem stages_stored (staged : Staged ms p locals memory_mem execute_pc decode_pc fetch_mem p' events)
    (commits : Commits (p,log)) :
    OwnedAny (((log ++ [events]).filterMap Events.stored).map Stores ++
      (p'.cur_w_reg.holds Effect.stores ++ p'.cur_m_reg.owes Effect.stores))
      ((log ++ [events]).filterMap Events.dispatched) := by
  have passes := accesses_stores staged.memory
  rw [filterMap_append_single,filterMap_append_single,List.map_append,List.append_assoc,
    ← List.append_assoc (events.stored.toList.map _)]
  by_cases stall : p.cur_w_reg.global_memory_stall ≠ 0
  · obtain ⟨replayed,none⟩ := staged_replays staged stall Effect.stores
    rw [replayed,none,Option.toList_none,List.append_nil]
    refine ownedAny_subperm ?_ commits.stored
    -- the store in M goes ahead of the saved one
    refine List.Subperm.append (List.Subperm.refl _) ?_
    exact (passes.append (List.Sublist.refl _)).subperm.trans List.perm_append_comm.subperm
  · rw [← List.append_assoc]
    refine ownedAny_append (ownedAny_subperm ?_ commits.stored) ⟨_,.refl _,executes_owned staged.execute
      (not_not.mp stall) rfl⟩
    rw [holds_flows (not_not.mp stall)]
    exact ((List.Sublist.refl _).append passes).subperm

theorem commits_initial (mem : σ) (pc : U64) (file : RegisterFile) (buffers : LoopLocals) :
    Commits (Pipeline.initial mem pc file buffers) where
  passed stall := absurd rfl stall
  written := List.SublistForall₂.nil
  stored := ⟨[],List.Perm.refl [],List.SublistForall₂.nil⟩

theorem run_commits {pc : U64} {file : RegisterFile} {buffers : LoopLocals} {inputs : List ι}
    {s : Pipeline σ × List Events} (ran : run (cycle ms) (Pipeline.initial mem pc file buffers) inputs = .ok s) :
    Commits s := by
  refine run_invariant Commits ?_ (commits_initial mem pc file buffers) ran
  intro s locals s' commits stepped
  rcases cycle_cases stepped with ⟨inst,rfl⟩ | ⟨inst,p,events,ran,rfl⟩
  · exact { commits with }
  · obtain ⟨memory_mem,execute_pc,decode_pc,fetch_mem,staged⟩ := stages_staged ran
    have before : Commits ({ s.1 with inst := inst },s.2) := { commits with }
    exact {
      passed := accesses_passed staged.memory
      written := stages_written staged before
      stored := stages_stored staged before }

/-- No register is written back twice for one dispatch, or for none: in every run the write-backs,
    in their order, are those of instructions that execute dispatched, in the order of the dispatches
    and each for one of its own. -/
theorem written_back_once (mem : σ) (pc : U64) (file : RegisterFile) (buffers : LoopLocals) (inputs : List ι)
    (s : Pipeline σ × List Events) (ran : run (cycle ms) (Pipeline.initial mem pc file buffers) inputs = .ok s) :
    ∃ own, List.Sublist own (s.2.filterMap Events.dispatched) ∧
    List.Forall₂ WritesBack (s.2.filterMap Events.written) own := by
  have owned : Owned ((s.2.filterMap Events.written).map WritesBack) (s.2.filterMap Events.dispatched) := by
    refine owned_covered (covered_sublist ?_) (run_commits ran).written
    exact (List.sublist_append_left _ _).trans (List.sublist_append_left _ _)
  obtain ⟨own,met,inside⟩ := List.sublistForall₂_iff.mp owned
  exact ⟨own,inside,(List.forall₂_map_left_iff (R := fun (P : U64 × U32 → Prop) a => P a)).mp met⟩

/-- `addi x5,x6,1` and `sw x5,512(x0)`. -/
def sumAndStore (i : Nat) : U32 := if i = 0 then 0x00130293 else if i = 1 then 0x20502023 else 0

/-- The sum is written back once, for the first of two dispatches. -/
theorem written_back_once_sum : ∃ s own, run (cycle simulator) (started sumAndStore 1 1) (zeroLocals 24) = .ok s ∧
    s.2.filterMap Events.written = [(5,1)] ∧ List.Sublist own (s.2.filterMap Events.dispatched) ∧
    List.Forall₂ WritesBack [(5,1)] own := by
  have result : okAnd (run (cycle simulator) (started sumAndStore 1 1) (zeroLocals 24)) (fun s => decide
      (s.2.filterMap Events.written = [(5,1)])) = true := by decide +kernel
  obtain ⟨s,ran,shown⟩ := okAnd_iff.mp result
  have written := of_decide_eq_true shown
  obtain ⟨own,inside,met⟩ := written_back_once _ 0 _ _ _ s ran
  exact ⟨s,own,ran,written,inside,written ▸ met⟩

/-- No store is made twice for one dispatch, or for none: the stores of every run are those of
    instructions that execute dispatched, each for a dispatch of its own, in whatever order. -/
theorem stored_once (mem : σ) (pc : U64) (file : RegisterFile) (buffers : LoopLocals) (inputs : List ι)
    (s : Pipeline σ × List Events) (ran : run (cycle ms) (Pipeline.initial mem pc file buffers) inputs = .ok s) :
    ∃ own, List.Subperm own (s.2.filterMap Events.dispatched) ∧
    List.Forall₂ Stores (s.2.filterMap Events.stored) own := by
  have owned : OwnedAny ((s.2.filterMap Events.stored).map Stores) (s.2.filterMap Events.dispatched) :=
    ownedAny_subperm (List.sublist_append_left _ _).subperm (run_commits ran).stored
  obtain ⟨own,inside,met⟩ := owned.own
  exact ⟨own,inside,(List.forall₂_map_left_iff (R := fun (P : U64 × U32 → Prop) a => P a)).mp met⟩

/-- Behind the walk the store is fetched and dispatched again, and so made again. -/
theorem stored_once_sum : ∃ s own, run (cycle simulator) (started sumAndStore 1 1) (zeroLocals 24) = .ok s ∧
    s.2.filterMap Events.stored = [(0x200,4,1),(0x200,4,1)] ∧ List.Subperm own (s.2.filterMap Events.dispatched) ∧
    List.Forall₂ Stores [(0x200,4,1),(0x200,4,1)] own := by
  have result : okAnd (run (cycle simulator) (started sumAndStore 1 1) (zeroLocals 24)) (fun s => decide
      (s.2.filterMap Events.stored = [(0x200,4,1),(0x200,4,1)])) = true := by decide +kernel
  obtain ⟨s,ran,shown⟩ := okAnd_iff.mp result
  have stored := of_decide_eq_true shown
  obtain ⟨own,inside,met⟩ := stored_once _ 0 _ _ _ s ran
  exact ⟨s,own,ran,stored,inside,stored ▸ met⟩

end
end RiscvSim
