import RiscvSim.Refinement

/-!
A load or a store that stalls is executed twice. What M holds is saved in W and replayed, and the pc
goes back to the instruction, which comes to M once more behind its own replay. So the pipeline comes
to states of the machine in which the effect of the next instruction is already performed (`Again`):
a store, and a load that leaves its base register alone, lead from there where they lead without it.
-/
namespace RiscvSim
open Bytes Runs

/-! ### Effects that are repeated -/

namespace Machine

/-- The same machine, apart from the record of what it did. -/
structure Same (t u : Machine) : Prop where
  pc : t.pc = u.pc
  registers : t.registers = u.registers
  memory : t.memory = u.memory

theorem same_refl (t : Machine) : Same t t := ⟨rfl,rfl,rfl⟩
theorem Same.trans {t u v : Machine} (first : Same t u) (second : Same u v) : Same t v :=
  ⟨first.pc.trans second.pc,first.registers.trans second.registers,first.memory.trans second.memory⟩
theorem Same.withPc {t u : Machine} (same : Same t u) (pc : U64) : Same { t with pc := pc } { u with pc := pc } :=
  ⟨rfl,same.registers,same.memory⟩

theorem Same.fetched {t u : Machine} (same : Same t u) : t.fetched = u.fetched := by
  rw [Machine.fetched,Machine.fetched,same.memory,same.pc]
theorem Same.operands {t u : Machine} (same : Same t u) : t.operands = u.operands := by
  rw [Machine.operands,Machine.operands,same.fetched,same.registers]

theorem Same.perform {t u : Machine} (same : Same t u) (effect : Effect) :
    Same (t.perform effect) (u.perform effect) := by
  cases effect with
  | nothing => exact same
  | register reg value => exact ⟨same.pc,congrArg (·.write reg value) same.registers,same.memory⟩
  | load reg address size signExtend =>
    refine ⟨same.pc,?_,same.memory⟩
    show t.registers.write reg (t.loaded address size signExtend) = u.registers.write reg
      (u.loaded address size signExtend)
    rw [same.registers,loaded,loaded,same.memory]
  | store address size value =>
    exact ⟨same.pc,same.registers,congrArg (·.write (address.setWidth 32) size value) same.memory⟩

theorem Same.step {t t' u : Machine} (same : Same t u) (stepped : t.step = .ok t') :
    ∃ u', u.step = .ok u' ∧ Same t' u' := by
  by_cases skips : t.fetched = 0
  · rw [Machine.step,if_pos skips] at stepped
    cases stepped
    refine ⟨{ u with pc := u.pc + 4 },by rw [Machine.step,if_pos (same.fetched ▸ skips)],?_⟩
    rw [same.pc]
    exact same.withPc _
  · rw [Machine.step,if_neg skips] at stepped
    obtain ⟨e,handled,stepped⟩ := bind_ok.mp stepped
    cases stepped
    rw [same.fetched,same.operands,same.pc] at handled
    exact ⟨_,step_word (same.fetched ▸ skips) handled rfl,(same.perform e.m.effect).withPc e.pc⟩

/-- An effect that can be repeated: a store, or a load that leaves its base register alone. -/
def Repeats (i : Instruction) : Effect → Prop
  | .load reg _ _ _ => reg ≠ i.rs1.setWidth 64
  | .store _ _ _ => True
  | _ => False

instance (i : Instruction) : (effect : Effect) → Decidable (Repeats i effect)
  | .load reg _ _ _ => inferInstanceAs (Decidable (reg ≠ i.rs1.setWidth 64))
  | .store _ _ _ => isTrue trivial
  | .nothing => isFalse id
  | .register _ _ => isFalse id

theorem write_twice (r : Registers) (reg value : U64) : (r.write reg value).write reg value = r.write reg value := by
  ext1 i
  rw [Registers.write_value,Registers.write_value]
  split <;> rfl

theorem perform_twice {i : Instruction} {effect : Effect} (repeats : Repeats i effect) (u : Machine) :
    Same ((u.perform effect).perform effect) (u.perform effect) := by
  cases effect with
  | load reg address size signExtend => exact ⟨rfl,write_twice _ _ _,rfl⟩
  | store address size value =>
    refine ⟨rfl,rfl,funext fun a => ?_⟩
    show (if _ then _ else if _ then _ else _) = if _ then _ else _
    split <;> rfl
  | _ => exact repeats.elim

theorem Same.repeated {t u : Machine} {i : Instruction} {effect : Effect}
    (same : Same t { u.perform effect with pc := u.pc }) (repeats : Repeats i effect) (pc : U64) :
    Same { t.perform effect with pc := pc } { u.perform effect with pc := pc } := by
  have twice := (same.perform effect).withPc pc
  rw [perform_pc (u.perform effect)] at twice
  exact twice.trans ((perform_twice repeats u).withPc pc)

/-- The instruction that the machine comes to next has the effect. -/
def Prepares (u : Machine) (effect : Effect) : Prop :=
  u.fetched ≠ 0 ∧ ∃ e, dispatch u.fetched u.operands (u.pc + 4) .zero = .ok e ∧ e.m.effect = effect

theorem Same.prepares {t u : Machine} (same : Same t u) {effect : Effect} : t.Prepares effect ↔ u.Prepares effect := by
  rw [Prepares,Prepares,same.fetched,same.operands,same.pc]

theorem Prepares.step {u : Machine} {effect : Effect} (prepares : u.Prepares effect) :
    ∃ pc, u.step = .ok { u.perform effect with pc := pc } := by
  obtain ⟨word,e,handled,rfl⟩ := prepares
  exact ⟨e.pc,step_word word handled rfl⟩

/-- The machine `u`, with the effect of its next instruction performed. -/
def Again (t u : Machine) : Prop :=
  ∃ effect, u.Prepares effect ∧ Repeats u.fetched effect ∧ Same t { u.perform effect with pc := u.pc }

/-- A repeated instruction finds the operands it found. -/
theorem again_handled {t u : Machine} {e : Execution} (handled : dispatch u.fetched u.operands (u.pc + 4) .zero = .ok e)
    (repeats : Repeats u.fetched e.m.effect) (same : Same t { u.perform e.m.effect with pc := u.pc })
    (word : t.fetched = u.fetched) :
    dispatch t.fetched t.operands (t.pc + 4) .zero = .ok e := by
  rw [word,show t.pc = u.pc from same.pc,← handled]
  refine dispatch_agree ?_
  have fits := dispatch_fits rfl handled
  rw [operands,operands,word,same.registers]
  show Agree _ ⟨(u.perform e.m.effect).registers.value _,(u.perform e.m.effect).registers.value _⟩ _
  cases effect : e.m.effect with
  | load reg address size signExtend =>
    rw [effect] at repeats fits
    obtain ⟨not_store,not_two⟩ := dispatch_load_type rfl handled effect
    refine ⟨fun _ => perform_other fits fun target => repeats (Option.some.inj target),fun two => ?_⟩
    exact (two.elim not_store not_two).elim
  | store address size value => exact ⟨fun _ => rfl,fun _ => rfl⟩
  | _ =>
    rw [effect] at repeats
    exact repeats.elim

theorem again_prepares {t u : Machine} {effect : Effect} (again : Again t u) (word : t.fetched = u.fetched)
    (prepares : t.Prepares effect) :
    u.Prepares effect ∧ Repeats u.fetched effect ∧ Same t { u.perform effect with pc := u.pc } := by
  obtain ⟨effect',⟨nonzero,e,handled,rfl⟩,repeats,same⟩ := again
  obtain ⟨-,e',handled',rfl⟩ := prepares
  cases (again_handled handled repeats same word).symm.trans handled'
  exact ⟨⟨nonzero,_,handled,rfl⟩,repeats,same⟩

/-! ### The states that count -/

/-- In the first `n` instructions no store hits a word that is fetched in them. -/
def UndisturbedFor (s : Machine) (n : Nat) : Prop :=
  ∀ k ≤ n, ∀ t, s.after k = .ok t → ∀ store ∈ t.stores, ∀ j ≤ n, ∀ u, s.after j = .ok u → ¬ Hits store u.pc

theorem UndisturbedFor.mono {s : Machine} {n m : Nat} (less : n ≤ m) (undisturbed : s.UndisturbedFor m) :
    s.UndisturbedFor n :=
  fun k small t reached store made j small' u visited =>
    undisturbed k (by omega) t reached store made j (by omega) u visited

/-- A state that the machine comes to in `n` instructions, or such a state with the effect of the next one performed. -/
def Near (s : Machine) (n : Nat) (t : Machine) : Prop :=
  ∃ k u, s.after k = .ok u ∧ (k ≤ n ∧ Same t u ∨ k < n ∧ Again t u)

theorem Near.mono {s t : Machine} {n m : Nat} (more : n ≤ m) (near : Near s n t) : Near s m t := by
  obtain ⟨k,u,reached,⟨small,same⟩ | ⟨small,again⟩⟩ := near
  · exact ⟨k,u,reached,.inl ⟨by omega,same⟩⟩
  · exact ⟨k,u,reached,.inr ⟨by omega,again⟩⟩

section
variable {s : Machine} {n : Nat} (undisturbed : s.UndisturbedFor n)
include undisturbed

theorem after_fetched {k : Nat} {u : Machine} (small : k ≤ n) (reached : s.after k = .ok u) : u.fetched = s.code u.pc :=
  word_kept (fun j less t before store made => undisturbed j (by omega) t before store made k small u reached) reached

/-- What the next instruction stores does not hit the instruction itself. -/
theorem again_fetched {k : Nat} {t u : Machine} (small : k < n) (reached : s.after k = .ok u) (again : Again t u) :
    t.fetched = s.code u.pc := by
  obtain ⟨effect,prepares,-,same⟩ := again
  obtain ⟨pc,stepped⟩ := prepares.step
  have later : ({ u.perform effect with pc := pc } : Machine).memory.word (u.pc.setWidth 32) = s.code u.pc := word_kept
    (fun j less t before store made => undisturbed j (by omega) t before store made k (by omega) u reached)
    (after_step reached stepped)
  rw [fetched,same.pc,same.memory]
  exact later

theorem near_fetched {t : Machine} (near : Near s n t) : t.fetched = s.code t.pc := by
  obtain ⟨k,u,reached,⟨small,same⟩ | ⟨small,again⟩⟩ := near
  · rw [same.fetched,same.pc]
    exact after_fetched undisturbed small reached
  · rw [again_fetched undisturbed small reached again]
    obtain ⟨_,-,-,same⟩ := again
    rw [same.pc]

theorem near_step {t t' : Machine} (near : Near s n t) (stepped : t.step = .ok t') : Near s (n+1) t' := by
  obtain ⟨k,u,reached,⟨small,same⟩ | ⟨small,again⟩⟩ := near
  · obtain ⟨u',stepped',same'⟩ := same.step stepped
    exact ⟨k+1,u',after_step reached stepped',.inl ⟨by omega,same'⟩⟩
  · have word : t.fetched = u.fetched := by
      rw [again_fetched undisturbed small reached again,after_fetched undisturbed (by omega) reached]
    obtain ⟨effect,⟨nonzero,e,handled,rfl⟩,repeats,same⟩ := again
    have taken := step_word (word ▸ nonzero) (again_handled handled repeats same word) rfl
    cases stepped.symm.trans taken
    refine ⟨k+1,_,after_step reached (step_word nonzero handled rfl),.inl ⟨by omega,?_⟩⟩
    exact same.repeated repeats e.pc

/-- Executed a first time, the instruction leads to a state that counts with the pc still at it. -/
theorem near_again {u : Machine} {effect : Effect} (near : Near s n u) (prepares : u.Prepares effect)
    (repeats : Repeats u.fetched effect) :
    Near s (n+1) { u.perform effect with pc := u.pc } := by
  obtain ⟨k,v,reached,⟨small,same⟩ | ⟨small,again⟩⟩ := near
  · refine ⟨k,v,reached,.inr ⟨by omega,effect,same.prepares.mp prepares,same.fetched ▸ repeats,?_⟩⟩
    rw [same.pc]
    exact (same.perform effect).withPc v.pc
  · have word : u.fetched = v.fetched := by
      rw [again_fetched undisturbed small reached again,after_fetched undisturbed (by omega) reached]
    obtain ⟨prepares',repeats',same⟩ := again_prepares again word prepares
    refine ⟨k,v,reached,.inr ⟨by omega,effect,prepares',repeats',?_⟩⟩
    rw [show u.pc = v.pc from same.pc]
    exact same.repeated repeats' v.pc

theorem reference_near : Reference s (Near s n) (Near s (n+1)) where
  fetched _ near := near_fetched undisturbed near
  keeps _ near := near.mono (by omega)
  steps _ _ near stepped := near_step undisturbed near stepped
  visits := by
    rintro t ⟨k,u,reached,⟨-,same⟩ | ⟨-,_,-,-,same⟩⟩
    · exact same.pc ▸ visits_after reached
    · have here : t.pc = u.pc := same.pc
      exact here ▸ visits_after reached

end
end Machine

/-! ### The pipeline -/

section
variable {σ ι : Type}

/-- A load or a store of the machine `u`, once W is retired, is in M, or nothing that could stall. -/
def Origin (R : Machine → Prop) (p : Pipeline σ) (mem : FlatMemory) (log : List Events) : Prop :=
  p.cur_m_reg.readWrite = .nop ∨
    let u := (architectural p.cur_m_reg.pc p.register_file mem log).perform p.cur_w_reg.effect
    R u ∧ u.Prepares p.cur_m_reg.effect

/-- W saves the load or store of M, which does nothing in this cycle. -/
structure Stalls (m : StageRegM) (w : StageRegW) (stored : Option (U64 × U8 × U64)) : Prop where
  stall : w.global_memory_stall ≠ 0
  op : w.op = false
  taint : w.tainted_executions = 0 ∨ w.tainted_executions = 1
  access : m.readWrite = .memory_read ∨ m.readWrite = .memory_write
  effect : w.memory_register.effect = m.effect
  pc : w.memory_register.pc = m.pc
  made : stored = none

/-- W holds a load or a store that is to be replayed; the machine is at the state before it. -/
structure Suspended (s : Machine) (R : Machine → Prop) (p : Pipeline σ) (mem : FlatMemory) (log : List Events) :
    Prop where
  stall : p.cur_w_reg.global_memory_stall ≠ 0
  op : p.cur_w_reg.op = false
  taint : p.cur_w_reg.tainted_executions = 0 ∨ p.cur_w_reg.tainted_executions = 1
  fits : ∃ instruction writes_rd, p.cur_w_reg.memory_register.effect.Fits instruction writes_rd
  trained : s.Trained p.branch_table
  reached : R (architectural p.cur_w_reg.memory_register.pc p.register_file mem log)
  prepares : (architectural p.cur_w_reg.memory_register.pc p.register_file mem log).Prepares
    p.cur_w_reg.memory_register.effect

section
variable {s t : Machine} {R R' : Machine → Prop} {n : Nat} {p p' : Pipeline σ} {mem : FlatMemory} {log : List Events}
  {ms : MemorySystem σ ι} {locals : ι} {memory_mem fetch_mem : σ} {execute_pc decode_pc : U64} {events : Events}

/-- The instruction that execute leaves in M is the one of the state tracked. -/
theorem stepped_origin {t' : Machine} {mem' : FlatMemory} (reference : Reference s R R')
    (tracks : Tracks s R p mem log t) (staged : Staged ms p locals memory_mem execute_pc decode_pc fetch_mem p' events)
    (retires : Retires mem p.cur_m_reg p'.cur_w_reg events.stored mem')
    (stepped : Stepped s R' t p p'.cur_m_reg execute_pc p'.branch_table t') : Origin R' p' mem' (log ++ [events]) := by
  refine stepped.origin.imp_right ?_
  rintro ⟨pc,word,e,handled,effect,-⟩
  rw [retired_cycle tracks staged retires,pc]
  exact ⟨reference.keeps t tracks.reached,word,e,handled,effect⟩

/-- A cycle without a store retires W, and that is all. -/
theorem architectural_kept (staged : Staged ms p locals memory_mem execute_pc decode_pc fetch_mem p' events)
    (made : events.stored = none) (pc : U64) (mem : FlatMemory) (log : List Events) :
    architectural pc p'.register_file mem (log ++ [events]) = (architectural pc p.register_file mem log).perform
    p.cur_w_reg.effect := by
  rw [architectural_cycle staged pc mem mem log,made]
  have memory : ((architectural pc p.register_file mem log).perform p.cur_w_reg.effect).memory = mem :=
    perform_writeback_memory _ _
  generalize (architectural pc p.register_file mem log).perform p.cur_w_reg.effect = a at memory
  subst memory
  simp

/-- A stall takes the machine back to the state before the instruction in M. -/
theorem tracks_suspended (reference : Reference s R R') (tracks : Tracks s R p mem log t) (origin : Origin R p mem log)
    (staged : Staged ms p locals memory_mem execute_pc decode_pc fetch_mem p' events)
    (stalls : Stalls p.cur_m_reg p'.cur_w_reg events.stored) : Suspended s R' p' mem (log ++ [events]) := by
  obtain ⟨t',stepped⟩ := execute_stepped reference tracks staged.execute
  have busy : p.cur_m_reg.readWrite ≠ .nop := by
    intro nop
    rcases stalls.access with load | store
    · cases load.symm.trans nop
    · cases store.symm.trans nop
  obtain ⟨reached,prepares⟩ := origin.resolve_left busy
  have before : architectural p'.cur_w_reg.memory_register.pc p'.register_file mem (log ++ [events]) =
      (architectural p.cur_m_reg.pc p.register_file mem log).perform p.cur_w_reg.effect := by
    rw [stalls.pc,architectural_kept staged stalls.made]
  obtain ⟨instruction,writes_rd,fits⟩ := tracks.fits
  exact {
    stall := stalls.stall
    op := stalls.op
    taint := stalls.taint
    fits := ⟨instruction,writes_rd,stalls.effect ▸ fits⟩
    trained := stepped.trained
    reached := before ▸ reference.keeps _ reached
    prepares := by
      rw [before,stalls.effect]
      exact prepares }

/-- The cycle after a stall drops what execute left in M behind it. -/
theorem suspended_bubble {before after : σ} {m : StageRegM} {w new_w_reg w' : StageRegW}
    {stored : Option (U64 × U8 × U64)}
    (behind : w.tainted_executions = 1 ∨ w.tainted_executions = 0 ∧ m.readWrite = .nop)
    (accessed : Accesses ms before locals m w new_w_reg (w',stored,after)) :
    stored = none ∧ w'.op = false ∧ w'.Settled ∧ after = before := by
  have idle (clean : ¬ w.tainted_executions > 0) : m.readWrite = .nop := by
    rcases behind with one | ⟨-,nop⟩
    · rw [one] at clean
      exact absurd (by decide) clean
    · exact nop
  cases accessed with
  | squashes tainted =>
    have one : w.tainted_executions = 1 := by
      rcases behind with one | ⟨zero,-⟩
      · exact one
      · rw [zero] at tainted
        exact absurd tainted (by decide)
    exact ⟨rfl,rfl,⟨rfl,by rw [one]; rfl,fun _ => ⟨rfl,rfl⟩,nofun⟩,rfl⟩
  | idle clean op => exact ⟨rfl,rfl,⟨rfl,rfl,fun _ => ⟨rfl,rfl⟩,nofun⟩,rfl⟩
  | forwards clean op => cases (idle clean).symm.trans op
  | walks clean code op =>
    rcases op with ⟨load,-⟩ | ⟨store,-⟩
    · cases (idle clean).symm.trans load
    · cases (idle clean).symm.trans store
  | load_misses clean op => cases (idle clean).symm.trans op
  | loads clean op => cases (idle clean).symm.trans op
  | store_misses clean op => cases (idle clean).symm.trans op
  | stores clean op => cases (idle clean).symm.trans op

/-- The replay: the effect is in M once more, and the pc at the instruction. -/
theorem suspended_tracks (undisturbed : s.UndisturbedFor n) (suspended : Suspended s (s.Near n) p mem log)
    (behind : p.cur_w_reg.tainted_executions = 1 ∨ p.cur_w_reg.tainted_executions = 0 ∧ p.cur_m_reg.readWrite = .nop)
    (repeats : Machine.Repeats (s.code p.cur_w_reg.memory_register.pc) p.cur_w_reg.memory_register.effect)
    (staged : Staged ms p locals memory_mem execute_pc decode_pc fetch_mem p' events)
    (supplied : Supplied s decode_pc p'.branch_table p'.cur_d_reg p'.program_counter) :
    events.stored = none ∧ ∃ t, Tracks s (s.Near (n+1)) p' mem (log ++ [events]) t ∧
    Origin (s.Near (n+1)) p' mem (log ++ [events]) := by
  obtain ⟨made,bubble,settled,-⟩ := suspended_bubble behind staged.memory
  obtain ⟨m,rfl,table,-⟩ : p'.cur_m_reg = { p.cur_w_reg.memory_register with tainted_executions := 1 } ∧
      execute_pc = p.cur_w_reg.memory_register.pc ∧ p'.branch_table = p.branch_table ∧ events.dispatched = none := by
    simpa using executes_replays staged.execute suspended.stall
  obtain ⟨x,rfl⟩ : p'.cur_x_reg = { p.new_x_reg with not_stalled := false } ∧ decode_pc =
      p.cur_w_reg.memory_register.pc := by
    simpa using decodes_stalled staged.decode suspended.stall
  have dead : ¬ Live p'.cur_x_reg p'.cur_m_reg := by
    rw [x]
    exact fun live => Bool.false_ne_true live.1
  have effect : p'.cur_m_reg.effect = p.cur_w_reg.memory_register.effect := by rw [m]; rfl
  have nothing : p.cur_w_reg.effect = .nothing ∧ p'.cur_w_reg.effect = .nothing := by
    simp [StageRegW.effect,suspended.op,bubble]
  have kept : architectural p.cur_w_reg.memory_register.pc p'.register_file mem (log ++ [events]) =
      architectural p.cur_w_reg.memory_register.pc p.register_file mem log := by
    rw [architectural_kept staged made,nothing.1]
    rfl
  have trained : s.Trained p'.branch_table := table ▸ suspended.trained
  have held := supplied_held trained supplied (nextPc_dead dead p.cur_w_reg.memory_register.pc).symm
  have word := Machine.near_fetched undisturbed suspended.reached
  refine ⟨made,_,⟨Machine.near_again undisturbed suspended.reached suspended.prepares (word ▸ repeats),?_,trained,
    settled,?_,?_,?_,held.1,held.2⟩,.inr ?_⟩
  · rw [show ({ (architectural p.cur_w_reg.memory_register.pc p.register_file mem log).perform
      p.cur_w_reg.memory_register.effect with
        pc := (architectural p.cur_w_reg.memory_register.pc p.register_file mem log).pc } : Machine).pc =
          p.cur_w_reg.memory_register.pc from rfl,kept,nothing.2,effect,← perform_pc]
    rfl
  · obtain ⟨instruction,writes_rd,fits⟩ := suspended.fits
    exact ⟨instruction,writes_rd,effect ▸ fits⟩
  · rw [m]
    exact .inr rfl
  · exact fun live => absurd live dead
  · rw [show p'.cur_m_reg.pc = p.cur_w_reg.memory_register.pc by rw [m],kept,nothing.2,effect]
    exact ⟨suspended.reached.mono (by omega),suspended.prepares⟩

end
end
end RiscvSim
