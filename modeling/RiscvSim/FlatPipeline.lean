import RiscvSim.Refinement
import RiscvSim.SignExtension

/-!
The pipeline over a flat memory that always answers, with translation the identity. It
writes and stores what the sequential machine does, in the same order, as long as no cycle
meets one of two hazards: a redirect of the pc while decode waits, and a value forwarded for x0.
-/
namespace RiscvSim
open Bytes Runs Words

/-- Translation is the identity, and every access is answered at once with the whole value. -/
def flat (riscv_mem_size : U64) : MemorySystem FlatMemory Unit where
  itlb_address mem _ virtual_address _ := .ok (0xFE,virtual_address,mem)
  instruction_read mem address _ _ _ := .ok (0,mem.word address,mem)
  dtlb_address mem _ virtual_address _ := .ok (0xFE,virtual_address,mem)
  data_read mem address size _ _ _ := .ok (0,mem.read address size,mem)
  data_write mem address data size _ _ := .ok (0,mem.write address size data)
  inst_at mem pc inst := if pc + 4 > riscv_mem_size then inst else mem.word (pc.setWidth 32)
  enter mem _ := mem
  end_cycle mem := mem

/-! ### Loads -/

theorem fill_eq (v : U64) {size : U8} (small : size = 1 ∨ size = 2 ∨ size = 4) :
    (List.range' size.toNat (8 - size.toNat)).foldl (fun v i => v ||| ((0xFF : U64) <<< (8 * i))) v =
      v ||| (BitVec.allOnes 64 <<< (8 * size.toNat)) := by
  rcases small with rfl | rfl | rfl
  all_goals
    simp only [show (1 : U8).toNat = 1 from rfl,show (2 : U8).toNat = 2 from rfl,show (4 : U8).toNat = 4 from rfl,
      List.range',Nat.reduceSub,List.foldl_cons,List.foldl_nil,BitVec.or_assoc]
    rfl

/-- A value read is zero above its bytes. -/
theorem read_top (mem : FlatMemory) (a : U32) (size : U8) {i : Nat} (past : 8 * size.toNat ≤ i) :
    (mem.read a size).getLsbD i = false := by
  rw [FlatMemory.read,getLsbD_value]
  simp [Nat.not_lt.mpr past]

/-- The extension is that of the sign bit exactly if it is set or the value is zero above its bytes. -/
theorem extend_sign_eq_iff (v : U64) {size : U8} (small : size = 1 ∨ size = 2 ∨ size = 4) :
    extend_sign size v = (v.setWidth (8 * size.toNat)).signExtend 64 ↔
      v.getLsbD (8 * size.toNat - 1) = true ∨ ∀ i, 8 * size.toNat ≤ i → v.getLsbD i = false := by
  unfold extend_sign
  rw [fill_eq v small]
  rcases small with rfl | rfl | rfl
  all_goals exact or_high_eq_signExtend_iff (by decide) (by decide) (by decide)

theorem extend_sign_read (mem : FlatMemory) (a : U32) {size : U8} (small : size = 1 ∨ size = 2 ∨ size = 4) :
    extend_sign size (mem.read a size) = ((mem.read a size).setWidth (8 * size.toNat)).signExtend 64 :=
  (extend_sign_eq_iff _ small).mpr (.inr fun _ past => read_top mem a size past)

/-! ### Refinement -/

section
variable {size : U64}

/-- Flat memory answers the M stage, and W is left with the write of a register or nothing. -/
theorem flat_retires {mem : FlatMemory} {m : StageRegM} {w new_w_reg : StageRegW} {locals : Unit}
    {r : StageRegW × Option (U64 × U8 × U64) × FlatMemory} (settled : w.Settled) {instruction : Instruction}
    {writes_rd : Bool} (fits : m.effect.Fits instruction writes_rd)
    (accessed : Accesses (flat size) mem locals m w new_w_reg r) :
    Retires mem m r.1 r.2.1 r.2.2 := by
  cases accessed with
  | squashes tainted =>
    rw [settled.clean] at tainted
    exact absurd tainted (by decide)
  | forwards clean op => exact retires_register _ op fits
  | idle clean op => exact retires_nop _ op
  | walks clean code op status physical_address mem' translated unfinished =>
    cases translated
    exact absurd rfl unfinished.1
  | load_misses clean op status physical_address mem' translated finished missed value mem'' read stall =>
    cases read
    exact absurd rfl stall
  | loads clean op status physical_address mem' translated finished value mem'' read =>
    cases translated
    cases read
    refine retires_load _ op fits ?_
    rintro a rfl
    have effect : m.effect = .load m.reg m.address m.size m.signExtend := by rw [StageRegM.effect,op]
    rw [effect] at fits
    unfold Machine.loaded
    split
    · rename_i signed
      exact (extend_sign_read _ _ (fits.2 signed)).symm
    · rfl
  | store_misses clean op status physical_address mem' translated finished missed mem'' write stall =>
    cases write
    exact absurd rfl stall
  | stores clean op status physical_address mem' translated finished mem'' write =>
    cases translated
    cases write
    exact retires_store _ op

theorem flat_supplied {s : Machine} {mem : FlatMemory} {locals : Unit} {d new_d_reg : StageRegD} {pc : U64}
    {table : BranchTable} {r : StageRegD × U64 × Option (U64 × U32) × FlatMemory}
    (code : s.Visits pc → mem.word (pc.setWidth 32) = s.code pc)
    (fetched : Fetches (flat size) mem locals d new_d_reg pc table r) :
    Supplied s pc table r.1 r.2.1 ∧ r.2.2.2 = mem := by
  cases fetched with
  | walks status physical_pc mem' translated unfinished =>
    cases translated
    exact absurd rfl unfinished.1
  | misses status physical_pc mem' read_status instruction mem'' translated finished read missed =>
    cases read
    exact absurd rfl missed
  | delivers status physical_pc mem' instruction mem'' translated finished read =>
    cases translated
    cases read
    exact ⟨.inr ⟨rfl,rfl,rfl,rfl,code⟩,rfl⟩

/-- The states that the machine comes to. -/
theorem reference_after {s : Machine} (undisturbed : s.Undisturbed) :
    Reference s (fun t => ∃ k, s.after k = .ok t) (fun t => ∃ k, s.after k = .ok t) where
  fetched := by
    rintro t ⟨k,reached⟩
    exact Machine.code_kept undisturbed (Machine.visits_after reached) reached
  keeps _ reached := reached
  steps := by
    rintro t t' ⟨k,reached⟩ stepped
    exact ⟨k+1,Machine.after_step reached stepped⟩
  visits := by
    rintro t ⟨k,reached⟩
    exact Machine.visits_after reached

theorem flat_tracks {s : Machine} (undisturbed : s.Undisturbed) {c c' : Pipeline FlatMemory × List Events}
    {locals : Unit} (tracks : ∃ t, Tracks s (fun t => ∃ k, s.after k = .ok t) c.1 c.1.mem c.2 t) (smooth : Smooth c.1)
    (stepped : cycle (flat size) c locals = .ok c') :
    ∃ t, Tracks s (fun t => ∃ k, s.after k = .ok t) c'.1 c'.1.mem c'.2 t := by
  obtain ⟨t,tracks⟩ := tracks
  rcases cycle_cases stepped with ⟨inst,rfl⟩ | ⟨inst,p,events,ran,rfl⟩
  · exact ⟨t,{ tracks with }⟩
  obtain ⟨memory_mem,execute_pc,decode_pc,fetch_mem,staged⟩ := stages_staged ran
  have tracks : Tracks s (fun t => ∃ k, s.after k = .ok t) { c.1 with inst := inst } c.1.mem c.2 t := { tracks with }
  obtain ⟨_,_,fits⟩ := tracks.fits
  have retires := flat_retires tracks.settled fits staged.memory
  have memory : t.memory = memory_mem := retired_memory tracks retires
  have code {pc : U64} (visited : s.Visits pc) : memory_mem.word (pc.setWidth 32) = s.code pc := by
    obtain ⟨k,reached⟩ := tracks.reached
    rw [← memory]
    exact Machine.code_kept undisturbed visited reached
  obtain ⟨supplied,kept⟩ := flat_supplied code staged.fetch
  obtain ⟨t',-,tracks'⟩ := tracks_step (reference_after undisturbed) tracks smooth staged retires supplied
  have same : p.mem = memory_mem := staged.mem.trans kept
  exact ⟨t',same ▸ tracks'⟩

end

/-- The pipeline refines the sequential machine: in a run whose cycles are all smooth, the
    registers written back and the stores made are the first ones of the machine's. -/
theorem pipeline_refines (size : U64) (mem : FlatMemory) (pc : U64) (file : RegisterFile)
    (buffers : LoopLocals) (n : Nat) (p : Pipeline FlatMemory) (log : List Events)
    (undisturbed : (Machine.start pc file mem).Undisturbed)
    (smooth : Guarded (cycle (flat size)) (fun c _ => Smooth c.1) (Pipeline.initial mem pc file buffers)
      (List.replicate n ()))
    (ran : run (cycle (flat size)) (Pipeline.initial mem pc file buffers) (List.replicate n ()) = .ok (p,log)) :
    ∃ k t, (Machine.start pc file mem).after k = .ok t ∧ writesOf log <+: t.writes ∧ storesOf log <+: t.stores := by
  obtain ⟨t,tracks⟩ := guarded_invariant
    (fun c => ∃ t, Tracks (Machine.start pc file mem) (fun t => ∃ k, (Machine.start pc file mem).after k = .ok t)
      c.1 c.1.mem c.2 t)
    (fun _ _ _ => flat_tracks undisturbed) ⟨_,tracks_initial mem mem pc file buffers ⟨0,rfl⟩⟩ smooth ran
  obtain ⟨k,reached⟩ := tracks.reached
  exact ⟨k,t,reached,tracks.prefixes⟩

/-- Flat memory given by its 32-bit words. -/
def flatOfWords (word : Nat → U32) : FlatMemory := fun a => byteAt (word (a.toNat / 4)) (a.toNat % 4)

/-- `addi x1,x1,1`, `sw x1,256(x0)` and `jal x5,-8`. -/
def counting (i : Nat) : U32 :=
  if i = 0 then 0x00108093 else if i = 1 then 0x10102023 else if i = 2 then 0xFF9FF2EF else 0

/-- The step of the machine at a word with a known effect. -/
theorem Machine.step_eq {t u : Machine} {word : Instruction} (pc : U64) (effect : Effect) (fetched : t.fetched = word)
    (nonzero : word ≠ 0)
    (handled : ∃ e, dispatch word t.operands (t.pc + 4) .zero = .ok e ∧ e.m.effect = effect ∧ e.pc = pc)
    (stepped : t.step = .ok u) : u = { t.perform effect with pc := pc } := by
  obtain ⟨e,handled,rfl,rfl⟩ := handled
  have expected := Machine.step_word (by rw [fetched]; exact nonzero) (by rw [fetched]; exact handled) rfl
  exact Except.ok.inj (stepped.symm.trans expected)

/-- What keeps the stores away from the instructions, in every state of the machine. -/
theorem undisturbed_of {s : Machine} (Inv : Machine → Prop) (start : Inv s)
    (step : ∀ t u, Inv t → t.step = .ok u → Inv u)
    (misses : ∀ t u, Inv t → Inv u → ∀ store ∈ t.stores, ¬ Machine.Hits store u.pc) : s.Undisturbed := by
  have always (k : Nat) : ∀ t, s.after k = .ok t → Inv t := by
    induction k with
    | zero => rintro t ⟨⟩; exact start
    | succ k ih =>
      intro t reached
      obtain ⟨before,reached,stepped⟩ := bind_ok.mp reached
      exact step before t (ih before reached) stepped
  rintro k t reached store made pc ⟨j,u,visited,rfl⟩
  exact misses t u (always k t reached) (always j u visited) store made

/-- What holds of the machine at every instruction of the loop. -/
structure Counting (t : Machine) : Prop where
  pc : t.pc = 0 ∨ t.pc = 4 ∨ t.pc = 8
  words : t.memory.word 0 = 0x00108093 ∧ t.memory.word 4 = 0x10102023 ∧ t.memory.word 8 = 0xFF9FF2EF
  stores : ∀ store ∈ t.stores, store.1 = 256 ∧ store.2.1 = 4

theorem misses_loop {store : U64 × U8 × U64} (place : store.1 = 256 ∧ store.2.1 = 4) {pc : U64}
    (loop : pc = 0 ∨ pc = 4 ∨ pc = 8) : ¬ Machine.Hits store pc := by
  rintro ⟨i,small,hit⟩
  rw [place.1,place.2] at hit
  rcases loop with rfl | rfl | rfl
  all_goals
    interval_cases i <;> exact absurd hit (by decide)

theorem counting_step {t u : Machine} (inv : Counting t) (stepped : t.step = .ok u) : Counting u := by
  obtain ⟨first,second,third⟩ := inv.words
  rcases inv.pc with here | here | here
  · have fetched : t.fetched = 0x00108093 := by rw [Machine.fetched,here]; exact first
    obtain rfl := Machine.step_eq 4 (.register 1 (t.operands.rs1_value + cast12 1)) fetched (by decide)
      ⟨_,by rw [here]; rfl,rfl,rfl⟩ stepped
    exact ⟨.inr (.inl rfl),inv.words,inv.stores⟩
  · have fetched : t.fetched = 0x10102023 := by rw [Machine.fetched,here]; exact second
    have base : t.operands = ⟨0,t.operands.rs2_value⟩ := by
      have zero : t.operands.rs1_value = 0 := by
        rw [Machine.operands,fetched]
        exact t.registers.zero_eq
      rw [← zero]
    obtain rfl := Machine.step_eq 8 (.store 256 4 ((t.operands.rs2_value.setWidth 32).setWidth 64)) fetched (by decide)
      ⟨_,by rw [here,base]; rfl,rfl,rfl⟩ stepped
    have kept (pc : U64) (loop : pc = 0 ∨ pc = 4 ∨ pc = 8) (value : U64) :
        (t.memory.write ((256 : U64).setWidth 32) 4 value).word (pc.setWidth 32) = t.memory.word (pc.setWidth 32) := by
      have misses : ¬ Machine.Hits (256,4,value) pc := misses_loop ⟨rfl,rfl⟩ loop
      exact Machine.word_write misses
    refine ⟨.inr (.inr rfl),⟨?_,?_,?_⟩,?_⟩
    · exact (kept 0 (.inl rfl) _).trans first
    · exact (kept 4 (.inr (.inl rfl)) _).trans second
    · exact (kept 8 (.inr (.inr rfl)) _).trans third
    · intro store made
      rcases List.mem_append.mp made with before | new
      · exact inv.stores store before
      · rw [List.mem_singleton.mp new]
        exact ⟨rfl,rfl⟩
  · have fetched : t.fetched = 0xFF9FF2EF := by rw [Machine.fetched,here]; exact third
    obtain rfl := Machine.step_eq 0 (.register 5 12) fetched (by decide)
      ⟨_,by rw [here]; rfl,rfl,rfl⟩ stepped
    exact ⟨.inl rfl,inv.words,inv.stores⟩

theorem counting_undisturbed : (Machine.start 0 (fun _ => 0) (flatOfWords counting)).Undisturbed :=
  undisturbed_of Counting ⟨.inl rfl,⟨by decide +kernel,by decide +kernel,by decide +kernel⟩,nofun⟩
  (fun _ _ => counting_step)
    fun t u inv inv' store made => misses_loop (inv.stores store made) inv'.pc

/-- The buffers of the loop, if the stack is zero. -/

theorem pipeline_refines_counting : ∃ p log k t,
    run (cycle (flat 0x800000)) (Pipeline.initial (flatOfWords counting) 0 (fun _ => 0) zeroBuffers)
    (List.replicate 12 ()) =
      .ok (p,log) ∧
    writesOf log = [(1,1),(5,12),(1,2)] ∧ storesOf log = [(256,4,1)] ∧
    (Machine.start 0 (fun _ => 0) (flatOfWords counting)).after k = .ok t ∧
    writesOf log <+: t.writes ∧ storesOf log <+: t.stores := by
  have smooth : Guarded (cycle (flat 0x800000)) (fun c _ => Smooth c.1)
      (Pipeline.initial (flatOfWords counting) 0 (fun _ => 0) zeroBuffers) (List.replicate 12 ()) := by decide +kernel
  have result : okAnd (run (cycle (flat 0x800000)) (Pipeline.initial (flatOfWords counting) 0 (fun _ => 0) zeroBuffers)
      (List.replicate 12 ())) (fun c => writesOf c.2 == [(1,1),(5,12),(1,2)] && storesOf c.2 == [(256,4,1)]) =
        true := by
    decide +kernel
  obtain ⟨⟨p,log⟩,ran,logged⟩ := okAnd_iff.mp result
  obtain ⟨k,t,reached,refined⟩ := pipeline_refines 0x800000 _ 0 _ _ 12 p log counting_undisturbed smooth ran
  simp only [Bool.and_eq_true,beq_iff_eq] at logged
  exact ⟨p,log,k,t,ran,logged.1,logged.2,reached,refined⟩

/-! ### A redirect lost -/

/-- `jal x1,8`, `addi x5,x1,7`, `addi x6,x0,1` and `jal x7,0`. -/
def jumping (i : Nat) : U32 :=
  if i = 0 then 0x008000EF else if i = 1 then 0x00708293 else if i = 2 then 0x00100313
    else if i = 3 then 0x000003EF else 0

/-- The jump passes over the second instruction, and the last one loops. -/
structure Jumping (t : Machine) : Prop where
  pc : t.pc = 0 ∨ t.pc = 8 ∨ t.pc = 12
  memory : t.memory = flatOfWords jumping
  stores : t.stores = []

theorem jumping_step {t u : Machine} (inv : Jumping t) (stepped : t.step = .ok u) : Jumping u := by
  have word (pc : U64) (here : t.pc = pc) : t.fetched = (flatOfWords jumping).word (pc.setWidth 32) := by
    rw [Machine.fetched,here,inv.memory]
  rcases inv.pc with here | here | here
  · have fetched : t.fetched = 0x008000EF := (word 0 here).trans (by decide +kernel)
    obtain rfl := Machine.step_eq 8 (.register 1 4) fetched (by decide) ⟨_,by rw [here]; rfl,rfl,rfl⟩ stepped
    exact ⟨.inr (.inl rfl),inv.memory,inv.stores⟩
  · have fetched : t.fetched = 0x00100313 := (word 8 here).trans (by decide +kernel)
    obtain rfl := Machine.step_eq 12 (.register 6 (t.operands.rs1_value + cast12 1)) fetched (by decide)
      ⟨_,by rw [here]; rfl,rfl,rfl⟩ stepped
    exact ⟨.inr (.inr rfl),inv.memory,inv.stores⟩
  · have fetched : t.fetched = 0x000003EF := (word 12 here).trans (by decide +kernel)
    obtain rfl := Machine.step_eq 12 (.register 7 16) fetched (by decide) ⟨_,by rw [here]; rfl,rfl,rfl⟩ stepped
    exact ⟨.inr (.inr rfl),inv.memory,inv.stores⟩

theorem jumping_undisturbed : (Machine.start 0 (fun _ => 0) (flatOfWords jumping)).Undisturbed :=
  undisturbed_of Jumping ⟨.inl rfl,rfl,rfl⟩ (fun _ _ => jumping_step)
    fun t u inv _ store made => absurd made (by rw [inv.stores]; exact List.not_mem_nil)

theorem step_extends {t u : Machine} (stepped : t.step = .ok u) : t.writes <+: u.writes ∧ t.stores <+: u.stores := by
  rw [Machine.step] at stepped
  split at stepped
  · cases stepped
    exact ⟨List.prefix_refl _,List.prefix_refl _⟩
  · obtain ⟨e,-,same⟩ := bind_ok.mp stepped
    cases same
    exact perform_extends t e.m.effect

theorem after_extends {s t u : Machine} {k j : Nat} (reached : s.after k = .ok t) (later : s.after (k+j) = .ok u) :
    t.writes <+: u.writes ∧ t.stores <+: u.stores := by
  induction j generalizing u with
  | zero =>
    cases reached.symm.trans later
    exact ⟨List.prefix_refl _,List.prefix_refl _⟩
  | succ j ih =>
    obtain ⟨before,reached',stepped⟩ := bind_ok.mp later
    obtain ⟨writes,stores⟩ := ih reached'
    exact ⟨writes.trans (step_extends stepped).1,stores.trans (step_extends stepped).2⟩

/-- Writes that part from the machine's at some instruction are at no instruction the first ones. -/
theorem not_prefix_of_parted {s t : Machine} {k : Nat} (reached : s.after k = .ok t) {writes : List (U64 × U64)}
    (parted : ¬ writes <+: t.writes ∧ ¬ t.writes <+: writes) {j : Nat} {u : Machine} (later : s.after j = .ok u) :
    ¬ writes <+: u.writes := by
  intro first
  rcases Nat.le_total k j with less | more
  · obtain ⟨d,rfl⟩ := Nat.exists_eq_add_of_le less
    rcases List.prefix_or_prefix_of_prefix first (after_extends reached later).1 with left | right
    · exact parted.1 left
    · exact parted.2 right
  · obtain ⟨d,rfl⟩ := Nat.exists_eq_add_of_le more
    exact parted.1 (first.trans (after_extends later reached).1)

/-- The instruction after the jump waits for x1 while the jump sets the pc, and its own
    address is the one that is fetched: it is executed, although the jump passes over it. -/
theorem jumped_over_executed : (Machine.start 0 (fun _ => 0) (flatOfWords jumping)).Undisturbed ∧ ∃ p log,
    run (cycle (flat 0x800000)) (Pipeline.initial (flatOfWords jumping) 0 (fun _ => 0) zeroBuffers)
    (List.replicate 7 ()) =
      .ok (p,log) ∧
    writesOf log = [(1,4),(5,11)] ∧
    ∀ k t, (Machine.start 0 (fun _ => 0) (flatOfWords jumping)).after k = .ok t → ¬ writesOf log <+: t.writes := by
  have result : okAnd (run (cycle (flat 0x800000)) (Pipeline.initial (flatOfWords jumping) 0 (fun _ => 0) zeroBuffers)
      (List.replicate 7 ())) (fun c => writesOf c.2 == [(1,4),(5,11)]) = true := by decide +kernel
  have second : okAnd ((Machine.start 0 (fun _ => 0) (flatOfWords jumping)).after 2)
      (fun t => t.writes == [(1,4),(6,1)]) = true := by decide +kernel
  obtain ⟨⟨p,log⟩,ran,logged⟩ := okAnd_iff.mp result
  obtain ⟨t,reached,written⟩ := okAnd_iff.mp second
  have logged : writesOf log = [(1,4),(5,11)] := by simpa using logged
  have written : t.writes = [(1,4),(6,1)] := by simpa using written
  refine ⟨jumping_undisturbed,p,log,ran,logged,fun k u later => ?_⟩
  refine not_prefix_of_parted reached ?_ later
  rw [logged,written]
  decide

end RiscvSim
