import RiscvSim.Simulator
import RiscvSim.Handlers

/-!
The buffers `new_*_reg` of the main loop, which nothing initialises. Two pipelines are alike if
they differ in fields only that no stage looks at: the instruction of a bubble, the operands of
an idle M register, what W has saved without a stall. Alike pipelines stay alike, so the buffers
of a call of `simulator_execute_instructions` do not matter unless its first cycle takes over a
field that is looked at later.
-/
namespace RiscvSim
open Bytes Runs

/-! ### Pipelines that no stage tells apart -/

/-- Both are empty, or both hold the same instruction. -/
def StageRegD.SameHeld (d e : StageRegD) : Prop :=
  d.not_stalled = e.not_stalled ∧ (d.not_stalled = true → d.pc = e.pc ∧ d.new_pc = e.new_pc ∧
    d.instruction = e.instruction)
instance (d e : StageRegD) : Decidable (d.SameHeld e) := instDecidableAnd

structure StageRegD.Alike (d e : StageRegD) : Prop where
  held : d.SameHeld e
  will_be_stalled : d.will_be_stalled = e.will_be_stalled
  status : d.walk_status = e.walk_status

/-- The same number, or neither that of a register. -/
def SameNumber (number number' : U16) : Prop := number = number' ∨ 32 ≤ number.toNat ∧ 32 ≤ number'.toNat
instance (number number' : U16) : Decidable (SameNumber number number') := instDecidableOr

/-- The destination counts for a bubble too. -/
structure StageRegX.Alike (x y : StageRegX) : Prop where
  not_stalled : x.not_stalled = y.not_stalled
  rd : SameNumber x.rd y.rd
  held : x.not_stalled = true → x = y

structure StageRegM.Alike (m n : StageRegM) : Prop where
  effect : m.effect = n.effect
  tainted : m.tainted_executions = n.tainted_executions
  stalled : m.wasStalled = n.wasStalled
  status : m.walk_status = n.walk_status
  pc : m.readWrite ≠ .nop → m.pc = n.pc

structure StageRegW.Alike (w v : StageRegW) : Prop where
  reg : w.reg = v.reg
  value : w.value = v.value
  op : w.op = v.op
  stall : w.global_memory_stall = v.global_memory_stall
  tainted : w.tainted_executions = v.tainted_executions
  saved : w.global_memory_stall ≠ 0 → w.memory_register.Alike v.memory_register ∧ w.memory_register.pc =
    v.memory_register.pc

structure Pipeline.Alike {σ : Type} (p q : Pipeline σ) : Prop where
  d : p.cur_d_reg.Alike q.cur_d_reg
  x : p.cur_x_reg.Alike q.cur_x_reg
  m : p.cur_m_reg.Alike q.cur_m_reg
  w : p.cur_w_reg.Alike q.cur_w_reg
  inst : p.inst = q.inst
  program_counter : p.program_counter = q.program_counter
  register_file : p.register_file = q.register_file
  branch_table : p.branch_table = q.branch_table
  mem : p.mem = q.mem

theorem StageRegM.Alike.refl (m : StageRegM) : m.Alike m := ⟨rfl,rfl,rfl,rfl,fun _ => rfl⟩
theorem StageRegW.Alike.refl (w : StageRegW) : w.Alike w := ⟨rfl,rfl,rfl,rfl,rfl,fun _ => ⟨.refl _,rfl⟩⟩

/-- The kind of access is part of the effect. -/
theorem effect_readWrite {m n : StageRegM} (same : m.effect = n.effect) : m.readWrite = n.readWrite := by
  unfold StageRegM.effect at same
  cases left : m.readWrite <;> cases right : n.readWrite <;> simp_all

/-! ### Memory -/

section
variable {σ ι : Type} {ms : MemorySystem σ ι}

/-- The bytes that a read of the size leaves of the object that it stores to. -/
def keptBytes (size : U8) (value : U64) : U64 := value >>> (8 * size.toNat)

/-- Reads of the data cache do not look at the object they store to, and overwrite as many of its bytes as they read. -/
structure MemorySystem.Stores (ms : MemorySystem σ ι) : Prop where
  data : ∀ mem address size value value' is_followup available, keptBytes size value = keptBytes size value' →
    Both (fun r r' => r.1 = r'.1 ∧ r.2.2 = r'.2.2 ∧ (r.1 = 0 → r.2.1 = r'.2.1))
      (ms.data_read mem address size value is_followup available)
      (ms.data_read mem address size value' is_followup available)
  instruction : ∀ mem address word word' is_followup available,
    Both (fun r r' => r.1 = r'.1 ∧ r.2.2 = r'.2.2 ∧ (r.1 = 0 → r.2.1 = r'.2.1))
      (ms.instruction_read mem address word is_followup available)
      (ms.instruction_read mem address word' is_followup available)

theorem stall_alike (w v : StageRegW) (code tainted : U8) {m n : StageRegM} (saved : m.Alike n) (pc : m.pc = n.pc) :
    (w.stall code tainted m).Alike (v.stall code tainted n) :=
  ⟨rfl,rfl,rfl,rfl,rfl,fun _ => ⟨saved,pc⟩⟩

theorem bubble_alike {w v : StageRegW} (tainted : w.tainted_executions = v.tainted_executions) :
    w.bubble.Alike v.bubble :=
  ⟨rfl,rfl,rfl,rfl,tainted,fun set => absurd rfl set⟩

theorem walking_alike {m n : StageRegM} (alike : m.Alike n) (status : U8) :
    (m.walking status).Alike (n.walking status) :=
  ⟨alike.effect,alike.tainted,rfl,rfl,alike.pc⟩

theorem missing_alike {m n : StageRegM} (alike : m.Alike n) (missed : U8) :
    (m.missing missed).Alike (n.missing missed) :=
  ⟨alike.effect,alike.tainted,rfl,rfl,alike.pc⟩

theorem translate_both {mem : σ} {locals : ι} {m n : StageRegM} (alike : m.Alike n) (address : m.address = n.address)
    (access : m.readWrite ≠ .nop) (w v : StageRegW) (code : U8) :
    Both (fun r r' => r.2 = r'.2 ∧ match r.1,r'.1 with
        | .inl w,.inl v => w.Alike v
        | .inr a,.inr b => a = b
        | _,_ => False)
      (translate ms mem locals m w code) (translate ms mem locals n v code) := by
  unfold translate
  have call : ms.dtlb_address mem locals (n.address.setWidth 32) (if n.wasStalled ≠ 0 then n.stallStatus else 0xFF) =
      ms.dtlb_address mem locals (m.address.setWidth 32) (if m.wasStalled ≠ 0 then m.stallStatus else 0xFF) := by
    rw [address]
    exact congrArg _ alike.status.symm
  rw [call]
  refine (both_same _).bind fun r r' _ same => ?_
  subst same
  simp only
  split
  · exact .ok ⟨rfl,stall_alike _ _ _ _ (walking_alike alike _) (alike.pc access)⟩
  · exact .ok ⟨rfl,rfl⟩

/-- After a translation both go on with the same address, or both have stalled. -/
theorem translated_both {β : Type} {R : β → β → Prop} {mem : σ} {locals : ι} {m n : StageRegM} (alike : m.Alike n)
    (address : m.address = n.address) (access : m.readWrite ≠ .nop) (w v : StageRegW) (code : U8)
    {f g : (StageRegW ⊕ U32 × Bool) × σ → Except Abort β}
    (stalled : ∀ w v mem, w.Alike v → Both R (f (.inl w,mem)) (g (.inl v,mem)))
    (translated : ∀ physical_address available mem,
      Both R (f (.inr (physical_address,available),mem)) (g (.inr (physical_address,available),mem))) :
    Both R (translate ms mem locals m w code >>= f) (translate ms mem locals n v code >>= g) := by
  refine (translate_both alike address access w v code).bind ?_
  rintro ⟨outcome,mem'⟩ ⟨outcome',mem''⟩ - ⟨same,related⟩
  cases same
  cases outcome with
  | inl w => cases outcome' with
    | inl v => exact stalled w v mem' related
    | inr => exact related.elim
  | inr physical => cases outcome' with
    | inl => exact related.elim
    | inr physical' =>
      cases (show physical = physical' from related)
      exact translated physical.1 physical.2 mem'

theorem load_alike {m n : StageRegM} (alike : m.Alike n) (op : m.readWrite = .memory_read) :
    m.reg = n.reg ∧ m.address = n.address ∧ m.size = n.size ∧ m.signExtend = n.signExtend := by
  have effect := alike.effect
  simpa only [StageRegM.effect,← effect_readWrite effect,op,Effect.load.injEq] using effect

theorem store_alike {m n : StageRegM} (alike : m.Alike n) (op : m.readWrite = .memory_write) :
    m.address = n.address ∧ m.size = n.size ∧ m.value = n.value := by
  have effect := alike.effect
  simpa only [StageRegM.effect,← effect_readWrite effect,op,Effect.store.injEq] using effect

theorem load_both (stores : ms.Stores) {mem : σ} {locals : ι} {m n : StageRegM} {w v : StageRegW} (alike : m.Alike n)
    (op : m.readWrite = .memory_read) (tainted : w.tainted_executions = v.tainted_executions)
    (full : keptBytes m.size w.value = keptBytes m.size v.value) :
    Both (fun r r' => r.1.Alike r'.1 ∧ r.2 = r'.2) (memory_load_stage ms mem locals m w)
    (memory_load_stage ms mem locals n v) := by
  obtain ⟨reg,address,size,extend⟩ := load_alike alike op
  have access : m.readWrite ≠ .nop := by rw [op]; decide
  refine translated_both alike address access w v 2 (fun _ _ _ stalled => .ok ⟨stalled,rfl⟩)
    fun physical_address available mem' => ?_
  simp only
  have call (value : U64) : ms.data_read mem' physical_address n.size value (n.wasStalled == 1) available =
      ms.data_read mem' physical_address m.size value (m.wasStalled == 1) available := by
    rw [size,alike.stalled]
  rw [call]
  refine (stores.data _ _ _ _ _ _ _ full).bind ?_
  rintro ⟨missed,value,mem1⟩ ⟨missed',value',mem2⟩ - ⟨code,same,value⟩
  cases code
  cases same
  simp only
  split
  · exact .ok ⟨stall_alike _ _ _ _ (missing_alike alike _) (alike.pc access),rfl⟩
  · rename_i done
    cases value (not_not.mp done)
    rw [size,extend]
    exact .ok ⟨⟨reg,rfl,rfl,rfl,tainted,fun set => absurd rfl set⟩,rfl⟩

theorem store_both {mem : σ} {locals : ι} {m n : StageRegM} {w v : StageRegW} (alike : m.Alike n)
    (op : m.readWrite = .memory_write) (tainted : w.tainted_executions = v.tainted_executions) :
    Both (fun r r' => r.1.Alike r'.1 ∧ r.2 = r'.2) (memory_store_stage ms mem locals m w)
    (memory_store_stage ms mem locals n v) := by
  obtain ⟨address,size,value⟩ := store_alike alike op
  have access : m.readWrite ≠ .nop := by rw [op]; decide
  refine translated_both alike address access w v 3 (fun _ _ _ stalled => .ok ⟨stalled,rfl⟩)
    fun physical_address available mem' => ?_
  simp only
  have call : ms.data_write mem' physical_address n.value n.size (n.wasStalled == 1) available =
      ms.data_write mem' physical_address m.value m.size (m.wasStalled == 1) available := by
    rw [value,size,alike.stalled]
  rw [call]
  refine (both_same _).bind fun r r' _ same => ?_
  subst same
  split
  · exact .ok ⟨stall_alike _ _ _ _ (missing_alike alike _) (alike.pc access),rfl⟩
  · exact .ok ⟨bubble_alike tainted,rfl⟩

/-- What the memory stage leaves in W and in memory, given that a short load does not take over
    bytes of the buffer that differ. -/
theorem memory_both (stores : ms.Stores) {mem : σ} {locals : ι} {m n : StageRegM} {w v new_w_reg new_w_reg' : StageRegW}
    (alike : m.Alike n) (tainted : w.tainted_executions = v.tainted_executions)
    (shielded : keptBytes m.size new_w_reg.value = keptBytes m.size new_w_reg'.value ∨ w.tainted_executions > 0 ∨
      m.readWrite ≠ .memory_read) :
    Both (fun r r' => r.1.Alike r'.1 ∧ r.2 = r'.2)
      (stage_memory ms mem locals m w new_w_reg) (stage_memory ms mem locals n v new_w_reg') := by
  unfold stage_memory
  rw [← tainted]
  split
  · refine .ok ⟨⟨rfl,rfl,rfl,rfl,?_,fun set => absurd rfl set⟩,rfl⟩
    simp only
  rename_i unsquashed
  have effect := alike.effect
  have kind := effect_readWrite effect
  cases op : m.readWrite with
  | nop =>
    rw [← kind,op]
    exact .ok ⟨bubble_alike rfl,rfl⟩
  | register_write =>
    simp only [StageRegM.effect,← kind,op,Effect.register.injEq] at effect
    rw [← kind,op]
    exact .ok ⟨⟨effect.1,effect.2,rfl,rfl,rfl,fun set => absurd rfl set⟩,rfl⟩
  | memory_read =>
    have full : keptBytes m.size new_w_reg.value = keptBytes m.size new_w_reg'.value := by
      rcases shielded with same | squashed | other
      · exact same
      · exact absurd squashed unsquashed
      · exact absurd op other
    rw [← kind,op]
    refine Both.bind (load_both stores alike op rfl full) ?_
    rintro ⟨w',mem'⟩ ⟨v',mem''⟩ - ⟨related,same⟩
    cases same
    exact .ok ⟨related,rfl⟩
  | memory_write =>
    obtain ⟨address,size,value⟩ := store_alike alike op
    rw [← kind,op]
    refine Both.bind (store_both alike op rfl) ?_
    rintro ⟨w',made,mem'⟩ ⟨v',made',mem''⟩ - ⟨related,same⟩
    cases same
    rw [address,size,value]
    exact .ok ⟨related,rfl⟩

/-! ### Execute -/

theorem idle_alike (m n : StageRegM) (pc pc' : U64) (tainted : U8) : (m.idle pc tainted).Alike (n.idle pc' tainted) :=
  ⟨rfl,rfl,rfl,rfl,fun busy => absurd rfl busy⟩

theorem dispatch_both (instruction : Instruction) (x : Operands) (pc next : U64) (m n : StageRegM) :
    Both (fun e e' => e.pc = e'.pc ∧ e.m.Alike e'.m)
      (dispatch instruction x next (m.idle pc 0)) (dispatch instruction x next (n.idle pc 0)) := by
  have view (m : StageRegM) : (dispatch instruction x next (m.idle pc 0)).map Execution.view =
      (dispatch instruction x next .zero).map Execution.view := dispatch_view rfl
  have same := (view m).trans (view n).symm
  cases left : dispatch instruction x next (m.idle pc 0) with
  | error e =>
    cases right : dispatch instruction x next (n.idle pc 0) with
    | error e' =>
      rw [left,right] at same
      cases same
      exact .error e
    | ok e' =>
      rw [left,right] at same
      cases same
  | ok e =>
    cases right : dispatch instruction x next (n.idle pc 0) with
    | error e' =>
      rw [left,right] at same
      cases same
    | ok e' =>
      rw [left,right] at same
      have view := Except.ok.inj same
      have fresh : e.m.wasStalled = 0 := dispatch_wasStalled left
      have fresh' : e'.m.wasStalled = 0 := dispatch_wasStalled right
      refine .ok ⟨congrArg Prod.fst view,congrArg Prod.snd view,?_,fresh.trans fresh'.symm,?_,?_⟩
      · exact (dispatch_taint left).trans (dispatch_taint right).symm
      · rw [StageRegM.walk_status,StageRegM.walk_status,fresh,fresh']
        rfl
      · exact fun _ => (dispatch_pc left).trans (dispatch_pc right).symm

theorem taint_alike {m n : StageRegM} (alike : m.Alike n) (tainted : U8) :
    StageRegM.Alike { m with tainted_executions := tainted } { n with tainted_executions := tainted } :=
  ⟨alike.effect,rfl,alike.stalled,alike.status,alike.pc⟩

/-- Nothing of the buffer of M is looked at. -/
theorem execute_both {x y : StageRegX} {m n : StageRegM} {w v : StageRegW} (held : x.Alike y) (alike : m.Alike n)
    (last : w.Alike v) (new_m_reg new_m_reg' : StageRegM) (pc : U64) (table : BranchTable) :
    Both (fun r r' => r.1.Alike r'.1 ∧ r.2 = r'.2)
      (stage_execute x m w new_m_reg pc table) (stage_execute y n v new_m_reg' pc table) := by
  unfold stage_execute
  rw [← last.stall,← held.not_stalled,← alike.tainted]
  split
  · rename_i stall
    obtain ⟨saved,pc⟩ := last.saved stall
    rw [pc]
    exact .ok ⟨taint_alike saved 1,rfl⟩
  split
  · exact .ok ⟨idle_alike _ _ _ _ _,rfl⟩
  rename_i full
  cases held.held (by simpa using full)
  split
  · exact .ok ⟨idle_alike _ _ _ _ _,rfl⟩
  split
  · exact .ok ⟨idle_alike _ _ _ _ _,rfl⟩
  refine (dispatch_both x.instruction ⟨x.rs1_value,x.rs2_value⟩ x.pc (x.pc + 4) new_m_reg new_m_reg').bind
    fun e e' _ related => ?_
  obtain ⟨target,alike⟩ := related
  rw [target]
  refine .ok ⟨?_,rfl⟩
  simp only
  split
  · exact taint_alike alike 1
  · exact alike

/-! ### Decode -/

theorem SameNumber.isRegister {number number' : U16} (same : SameNumber number number') {reg : U64}
    (small : reg.toNat < 32) :
    isRegister reg number = isRegister reg number' := by
  have other {number : U16} (large : 32 ≤ number.toNat) : RiscvSim.isRegister reg number = false := by
    refine beq_false_of_ne fun same => ?_
    have low : number = reg.setWidth 16 := by
      refine BitVec.eq_of_getLsbD_eq fun k inside => ?_
      rw [same,BitVec.getLsbD_setWidth,BitVec.getLsbD_signExtend]
      simp [inside,Nat.lt_trans inside (by decide : 16 < 64)]
    rw [low,BitVec.toNat_setWidth] at large
    omega
  rcases same with rfl | ⟨large,large'⟩
  · rfl
  · rw [other large,other large']

theorem forwarded_alike {x y : StageRegX} {m n : StageRegM} {w v : StageRegW} (rd : SameNumber x.rd y.rd)
    (alike : m.Alike n) (last : w.Alike v) (reg : BitVec 5) :
    forwarded_register_read_single x m w (reg.setWidth 64) = forwarded_register_read_single y n v
    (reg.setWidth 64) := by
  have effect := alike.effect
  have kind := effect_readWrite effect
  have small : (reg.setWidth 64 : U64).toNat < 32 := by
    rw [BitVec.toNat_setWidth]
    omega
  unfold forwarded_register_read_single
  rw [rd.isRegister small,last.reg,last.value,← kind]
  by_cases op : m.readWrite = .register_write
  · simp only [StageRegM.effect,← kind,op,Effect.register.injEq] at effect
    rw [effect.1,effect.2]
  · simp [op]

theorem operands_alike {x y : StageRegX} {m n : StageRegM} {w v : StageRegW} (rd : SameNumber x.rd y.rd)
    (alike : m.Alike n) (last : w.Alike v) (instruction : Instruction) (file : RegisterFile) :
    operands instruction x m w file = operands instruction y n v file := by
  have effect := alike.effect
  have kind := effect_readWrite effect
  unfold operands forwarded_register_read
  have zero : forwarded_register_read_single x m w 0 = forwarded_register_read_single y n v 0 :=
    forwarded_alike rd alike last 0
  simp only [forwarded_alike rd alike last,zero,← kind]
  by_cases op : m.readWrite = .memory_read
  · simp only [StageRegM.effect,← kind,op,Effect.load.injEq] at effect
    rw [effect.1]
  · simp [op]

/-- A bubble takes over the destination of the buffer. -/
theorem decode_alike {d e : StageRegD} {x y : StageRegX} {m n : StageRegM} {w v : StageRegW}
    {new_x_reg new_x_reg' : StageRegX} (fetched : d.Alike e) (rd : SameNumber x.rd y.rd) (alike : m.Alike n)
    (last : w.Alike v) (file : RegisterFile) (pc : U64)
    (shielded : SameNumber new_x_reg.rd new_x_reg'.rd ∨ d.not_stalled = true ∧ w.global_memory_stall = 0) :
    (stage_decode d x m w new_x_reg file pc).1.Alike (stage_decode e y n v new_x_reg' file pc).1 ∧
      (stage_decode d x m w new_x_reg file pc).2 = (stage_decode e y n v new_x_reg' file pc).2 := by
  unfold stage_decode
  rw [← fetched.held.1,← last.stall]
  by_cases empty : d.not_stalled = false ∨ w.global_memory_stall ≠ 0
  · rw [if_pos empty,if_pos empty]
    refine ⟨⟨rfl,?_,nofun⟩,rfl⟩
    rcases shielded with same | ⟨full,flows⟩
    · exact same
    · rcases empty with empty | stall
      · cases full.symm.trans empty
      · exact absurd flows stall
  · rw [if_neg empty,if_neg empty]
    have full : d.not_stalled = true := by
      cases held : d.not_stalled with
      | false => exact absurd (.inl held) empty
      | true => rfl
    obtain ⟨pc,new_pc,instruction⟩ := fetched.held.2 full
    rw [pc,new_pc,instruction,operands_alike rd alike last]
    cases operands e.instruction y n v file with
    | none => exact ⟨⟨rfl,.inl rfl,nofun⟩,rfl⟩
    | some values => exact ⟨⟨rfl,.inl rfl,fun _ => rfl⟩,rfl⟩

/-! ### Fetch -/

/-- A walk takes over the instruction of the buffer. -/
theorem fetch_both (stores : ms.Stores) {mem : σ} {locals : ι} {d e new_d_reg new_d_reg' : StageRegD} {pc : U64}
    (table : BranchTable) (alike : d.Alike e)
    (shielded : new_d_reg.SameHeld new_d_reg' ∨ ∀ status physical_pc mem',
      ms.itlb_address mem locals (pc.setWidth 32) d.walk_status = .ok (status,physical_pc,mem') → status = 0xFE) :
    Both (fun r r' => r.1.Alike r'.1 ∧ r.2 = r'.2)
      (stage_fetch ms mem locals d new_d_reg pc table) (stage_fetch ms mem locals e new_d_reg' pc table) := by
  unfold stage_fetch
  rw [← alike.will_be_stalled,show (if d.will_be_stalled = 2 then e.tlb_stall_status else 0xFF) = d.walk_status by
    rw [alike.will_be_stalled]; exact alike.status.symm]
  refine (both_same _).bind fun r r' translated same => ?_
  subst same
  obtain ⟨status,physical_pc,mem'⟩ := r
  simp only
  split
  · rename_i unfinished
    have held := shielded.resolve_right fun hit => unfinished.1 (hit _ _ _ translated)
    exact .ok ⟨⟨held,rfl,rfl⟩,rfl⟩
  · refine (stores.instruction _ _ _ _ _ _).bind fun r r' _ related => ?_
    obtain ⟨code,instruction,mem1⟩ := r
    obtain ⟨code',instruction',mem2⟩ := r'
    obtain ⟨same,rest,word⟩ := related
    cases same
    cases rest
    simp only
    split
    · exact .ok ⟨⟨⟨rfl,nofun⟩,rfl,rfl⟩,rfl⟩
    · rename_i done
      cases word (not_not.mp done)
      exact .ok ⟨⟨⟨rfl,fun _ => ⟨rfl,rfl,rfl⟩⟩,rfl,rfl⟩,rfl⟩

end

/-! ### The caches store to the object given -/

section
variable {σ : Type} {port : MemoryPort σ}

theorem read_row_code {cache cache' : CacheTable} {mem mem' : σ} {address index tag size : U64} {subindex : Nat}
    {followup available : Bool} {code : U8}
    (ran : cache.read_row port mem address index tag subindex size followup available = .ok (.inl code,cache',mem')) :
    code ≠ 0 := by
  obtain ⟨found,looked,ran⟩ := bind_ok.mp ran
  cases found with
  | some row => cases ran
  | none =>
    simp only at ran
    split at ran
    · cases ran
      decide
    · obtain ⟨⟨chosen,cache₁,mem₁⟩,evicted,ran⟩ := bind_ok.mp ran
      cases chosen with
      | none =>
        cases ran
        decide
      | some i =>
        obtain ⟨row,inside,ran⟩ := bind_ok.mp ran
        cases ran

/-- What a read stores depends on the object that it stores to in the upper bytes only, and nothing else does. -/
theorem read_access_both (cache : CacheTable) (mem : σ) (address size value value' : U64) (followup available : Bool) :
    Both (fun r r' => r.1 = r'.1 ∧ r.2.2 = r'.2.2 ∧
        (r.1 = 0 → ∃ word, r.2.1 = storeLow size.toNat value word ∧ r'.2.1 = storeLow size.toNat value' word))
      (cache.read_access port mem address size value followup available)
      (cache.read_access port mem address size value' followup available) := by
  unfold CacheTable.read_access
  split
  · exact .error _
  refine (both_same _).bind fun r r' ran same => ?_
  subst same
  obtain ⟨found,cache',mem'⟩ := r
  cases found with
  | inl code => exact .ok ⟨rfl,rfl,fun done => absurd done (read_row_code ran)⟩
  | inr row =>
    simp only
    split
    · exact .error _
    split
    · exact .ok ⟨rfl,rfl,fun _ => ⟨_,rfl,rfl⟩⟩
    · exact .error _

end

theorem storeLow_kept {size : U8} {old old' : U64} (same : keptBytes size old = keptBytes size old') (new : U64) :
    storeLow size.toNat old new = storeLow size.toNat old' new := by
  refine value_congr fun i inside => ?_
  split
  · rfl
  · rename_i past
    have byte (v : U64) : byteAt v i = byteAt (keptBytes size v) (i - size.toNat) := by
      refine BitVec.eq_of_getLsbD_eq fun k bit => ?_
      have place : 8 * size.toNat + (8 * (i - size.toNat) + k) = 8 * i + k := by omega
      simp only [byteAt,keptBytes,BitVec.getLsbD_extractLsb',BitVec.getLsbD_ushiftRight,place]
    rw [byte,byte,same]

theorem storeLow_word (old old' new : U64) : (storeLow 4 old new).setWidth 32 = (storeLow 4 old' new).setWidth 32 := by
  refine BitVec.eq_of_getLsbD_eq fun k inside => ?_
  have low : k/8 < 4 := by omega
  simp only [storeLow,BitVec.getLsbD_setWidth,getLsbD_value,if_pos low]

theorem simulatorOver_stores {φ : Type} (b : Backing φ) : (simulatorOver b).Stores where
  data mem address size value value' followup available full := by
    refine (read_access_both mem.data_cache mem.framework _ _ value value' followup available).bind
      fun r r' _ related => ?_
    obtain ⟨code,v,cache,framework⟩ := r
    obtain ⟨code',v',cache',framework'⟩ := r'
    obtain ⟨same,rest,stored⟩ := related
    cases same
    cases rest
    refine .ok ⟨rfl,rfl,fun done => ?_⟩
    obtain ⟨word,left,right⟩ := stored done
    simp only at left right
    rw [left,right]
    have width : (size.setWidth 64 : U64).toNat = size.toNat := BitVec.toNat_setWidth_of_le (by decide)
    rw [width]
    exact storeLow_kept full word
  instruction mem address word word' followup available := by
    refine (read_access_both mem.instruction_cache mem.framework _ 4 _ _ followup available).bind fun r r' _ related =>
      ?_
    obtain ⟨code,v,cache,framework⟩ := r
    obtain ⟨code',v',cache',framework'⟩ := r'
    obtain ⟨same,rest,stored⟩ := related
    cases same
    cases rest
    refine .ok ⟨rfl,rfl,fun done => ?_⟩
    obtain ⟨stored,left,right⟩ := stored done
    simp only at left right
    rw [left,right]
    exact storeLow_word _ _ _

/-! ### Cycles -/

section
variable {φ : Type} {b : Backing φ}

/-- The next cycle takes over no field of the buffers in which the two differ and that is looked at: fetch finds the
    translation in the TLB, decode has an instruction to issue, no load is in M, or the buffer agrees, in the number
    of a register and in the bytes that the load does not overwrite. -/
structure Shielded (p q : Pipeline (MemoryState φ)) : Prop where
  fetch : p.new_d_reg.SameHeld q.new_d_reg ∨
    p.cur_d_reg.will_be_stalled ≠ 2 ∧ okAnd p.fetch_pc (fun pc => decide (p.mem.itlb.Hit (pc.setWidth 32))) = true
  decode : SameNumber p.new_x_reg.rd q.new_x_reg.rd ∨ p.cur_d_reg.not_stalled = true ∧
    p.cur_w_reg.global_memory_stall = 0
  memory : keptBytes p.cur_m_reg.size p.new_w_reg.value = keptBytes p.cur_m_reg.size q.new_w_reg.value ∨
    p.cur_w_reg.tainted_executions > 0 ∨ p.cur_m_reg.readWrite ≠ .memory_read

instance (p q : Pipeline (MemoryState φ)) : Decidable (Shielded p q) :=
  decidable_of_iff (_ ∧ _ ∧ _) ⟨fun ⟨fetch,decode,memory⟩ => ⟨fetch,decode,memory⟩,fun s => ⟨s.fetch,s.decode,s.memory⟩⟩

/-- From the second cycle on the buffers are the registers. -/
theorem shielded_own {p q : Pipeline (MemoryState φ)} (alike : p.Alike q) (d : p.new_d_reg = p.cur_d_reg)
    (d' : q.new_d_reg = q.cur_d_reg) (x : p.new_x_reg = p.cur_x_reg) (x' : q.new_x_reg = q.cur_x_reg)
    (w : p.new_w_reg = p.cur_w_reg) (w' : q.new_w_reg = q.cur_w_reg) :
    Shielded p q where
  fetch := .inl (by rw [d,d']; exact alike.d.held)
  decode := .inl (by rw [x,x']; exact alike.x.rd)
  memory := .inl (by rw [w,w',alike.w.value])

theorem stages_both {p q : Pipeline (MemoryState φ)} {locals : CalleeLocals} (alike : p.Alike q)
    (shielded : Shielded p q) :
    Both (fun r r' => (r.1.Alike r'.1 ∧ Shielded r.1 r'.1) ∧ r.2 = r'.2)
      (stages (simulatorOver b) p locals) (stages (simulatorOver b) q locals) := by
  unfold stages
  have file : stage_writeback q.cur_w_reg q.register_file = stage_writeback p.cur_w_reg p.register_file := by
    rw [stage_writeback,stage_writeback,← alike.w.op,← alike.w.reg,← alike.w.value,alike.register_file]
  rw [file,← alike.mem,← alike.program_counter,← alike.branch_table,← alike.inst]
  refine (memory_both (simulatorOver_stores b) alike.m alike.w.tainted shielded.memory).bind
    fun r r' accessed related => ?_
  obtain ⟨w,stored,mem⟩ := r
  obtain ⟨w',stored',mem'⟩ := r'
  obtain ⟨last,same⟩ := related
  cases same
  refine (execute_both alike.x alike.m alike.w _ _ _ _).bind fun r r' executed related => ?_
  obtain ⟨m,pc,table,dispatched⟩ := r
  obtain ⟨m',pc',table',dispatched'⟩ := r'
  obtain ⟨next,same⟩ := related
  cases same
  obtain ⟨decoded,target⟩ := decode_alike alike.d alike.x.rd alike.m alike.w
    (stage_writeback p.cur_w_reg p.register_file) pc
    shielded.decode
  have fetch_pc : p.fetch_pc = .ok (stage_decode p.cur_d_reg p.cur_x_reg p.cur_m_reg p.cur_w_reg p.new_x_reg
      (stage_writeback p.cur_w_reg p.register_file) pc).2 := by
    rw [Pipeline.fetch_pc,executed]
    rfl
  simp only
  rw [← target]
  refine (fetch_both (simulatorOver_stores b) table alike.d (shielded.fetch.imp_right ?_)).bind fun r r' _ related => ?_
  · rintro ⟨start,hit⟩ status physical_pc mem₁ translated
    obtain ⟨found,same,hit⟩ := okAnd_iff.mp hit
    cases same.symm.trans fetch_pc
    have itlb : ((simulatorOver b).enter mem .F).itlb = p.mem.itlb :=
      (accesses_moved (stage_memory_accesses accessed)).itlb
    obtain ⟨_,answered,outcome⟩ := bind_ok.mp translated
    rw [show p.cur_d_reg.walk_status = 0xFF from if_neg start,itlb,PageTables.get_address_hit _ _ _ _ _
      (of_decide_eq_true hit)] at answered
    cases answered
    cases outcome
    rfl
  · obtain ⟨d,pc',delivered,mem₁⟩ := r
    obtain ⟨d',pc'',delivered',mem₂⟩ := r'
    obtain ⟨fetched,same⟩ := related
    cases same
    refine .ok ⟨⟨⟨fetched,decoded,next,last,rfl,rfl,rfl,rfl,rfl⟩,?_⟩,?_⟩
    · exact shielded_own ⟨fetched,decoded,next,last,rfl,rfl,rfl,rfl,rfl⟩ rfl rfl rfl rfl rfl rfl
    · have presented : (if p.cur_d_reg.not_stalled then some (p.cur_d_reg.pc,p.cur_d_reg.instruction) else none) =
          if q.cur_d_reg.not_stalled then some (q.cur_d_reg.pc,q.cur_d_reg.instruction) else none := by
        obtain ⟨empty,held⟩ := alike.d.held
        rw [← empty]
        split
        · rename_i full
          rw [(held full).1,(held full).2.2]
        · rfl
      simp only
      rw [presented,alike.w.op,alike.w.reg,alike.w.value]

theorem cycle_both (s t : Pipeline (MemoryState φ) × List Events) (locals : CalleeLocals)
    (related : (s.1.Alike t.1 ∧ Shielded s.1 t.1) ∧ s.2 = t.2) :
    Both (fun s t => (s.1.Alike t.1 ∧ Shielded s.1 t.1) ∧ s.2 = t.2) (cycle (simulatorOver b) s locals)
    (cycle (simulatorOver b) t locals) := by
  obtain ⟨⟨alike,shielded⟩,log⟩ := related
  unfold cycle
  rw [← alike.mem,← alike.program_counter,← alike.inst,← log]
  generalize (simulatorOver b).inst_at s.1.mem s.1.program_counter s.1.inst = inst
  have alike : Pipeline.Alike { s.1 with inst := inst } { t.1 with inst := inst } := { alike with inst := rfl }
  have shielded : Shielded { s.1 with inst := inst } { t.1 with inst := inst } := { shielded with }
  simp only
  split
  · exact .ok ⟨⟨alike,shielded⟩,rfl⟩
  · refine (stages_both alike shielded).bind fun r r' _ related => ?_
    obtain ⟨both,events⟩ := related
    exact .ok ⟨both,by rw [events]⟩

end

/-- A call of `simulator_execute_instructions` finds this in its buffers. -/
def Pipeline.buffered {σ : Type} (p : Pipeline σ) (locals : LoopLocals) : Pipeline σ :=
  { p with
    new_d_reg := locals.new_d_reg, new_x_reg := locals.new_x_reg
    new_m_reg := locals.new_m_reg, new_w_reg := locals.new_w_reg }

/-- The buffers have no part in what alike means. -/
theorem buffered_alike {σ : Type} (p : Pipeline σ) (left right : LoopLocals) :
    (p.buffered left).Alike (p.buffered right) where
  d := ⟨⟨rfl,fun _ => ⟨rfl,rfl,rfl⟩⟩,rfl,rfl⟩
  x := ⟨rfl,.inl rfl,fun _ => rfl⟩
  m := .refl _
  w := .refl _
  inst := rfl
  program_counter := rfl
  register_file := rfl
  branch_table := rfl
  mem := rfl

/-- The same register file, TLBs, caches, framework and pc. -/
structure SameResult (s t : Pipeline (MemoryState Framework) × List Events) : Prop where
  register_file : s.1.register_file = t.1.register_file
  mem : s.1.mem = t.1.mem
  program_counter : s.1.program_counter = t.1.program_counter

/-- Two runs from pipelines that differ in shielded buffers only. -/
theorem run_shielded {p q : Pipeline (MemoryState Framework)} (alike : p.Alike q) (shielded : Shielded p q)
    (log : List Events) (inputs : List CalleeLocals) : Both SameResult (run (cycle simulator) (p,log) inputs)
    (run (cycle simulator) (q,log) inputs) :=
  (run_both cycle_both (s := (p,log)) (t := (q,log)) ⟨⟨alike,shielded⟩,rfl⟩ inputs).mono fun _ _ related =>
    ⟨related.1.1.register_file,related.1.1.mem,related.1.1.program_counter⟩

/-- Leftovers do not matter if the first cycle is shielded from them: from any state two calls with
    different buffers end alike, after any number of cycles, and a run that is interrupted and
    taken up by another call ends as the run in one go. -/
theorem leftovers_forgotten (p : Pipeline (MemoryState Framework)) (log : List Events) (left right : LoopLocals)
    (shielded : Shielded (p.buffered left) (p.buffered right)) :
    (∀ inputs, Both SameResult (run (cycle simulator) (p.buffered left,log) inputs)
      (run (cycle simulator) (p.buffered right,log) inputs)) ∧
      ∀ before after s, run (cycle simulator) (p.buffered left,log) before = .ok s →
        ∀ locals, Shielded (s.1.buffered locals) s.1 →
          Both SameResult (run (cycle simulator) (s.1.buffered locals,s.2) after)
            (run (cycle simulator) (p.buffered left,log) (before ++ after)) := by
  constructor
  · intro inputs
    exact run_shielded (buffered_alike p left right) shielded log inputs
  · intro before after s ran locals shielded
    rw [run_append,ran,ok_bind]
    have own : s.1 = s.1.buffered ⟨s.1.new_d_reg,s.1.new_x_reg,s.1.new_m_reg,s.1.new_w_reg,s.1.inst⟩ := rfl
    exact run_shielded (own ▸ buffered_alike s.1 locals _) shielded s.2 after

/-- Buffers with a bit set everywhere. -/
def garbage : LoopLocals :=
  ⟨⟨-1,-1,-1,true,-1,-1⟩,⟨-1,-1,-1,true,-1,-1,-1,-1,-1⟩,⟨-1,-1,.memory_write,true,-1,-1,-1,-1,-1,-1⟩,
    ⟨-1,-1,true,-1,-1,-1,.zero⟩,0⟩

/-- With an instruction in D and its page in the TLB any leftovers will do. -/
theorem leftovers_forgotten_two_sums : ∃ s, run (cycle simulator) (started twoSums 1 1) (zeroLocals 7) = .ok s ∧
    Both SameResult (run (cycle simulator) (s.1.buffered zeroBuffers,s.2) (zeroLocals 9))
      (run (cycle simulator) (s.1.buffered garbage,s.2) (zeroLocals 9)) := by
  have result : okAnd (run (cycle simulator) (started twoSums 1 1) (zeroLocals 7))
      (fun s => decide (Shielded (s.1.buffered zeroBuffers) (s.1.buffered garbage))) = true := by decide +kernel
  obtain ⟨s,ran,shielded⟩ := okAnd_iff.mp result
  exact ⟨s,ran,(leftovers_forgotten s.1 s.2 zeroBuffers garbage (of_decide_eq_true shielded)).1 (zeroLocals 9)⟩

/-- Zeros, but `addi x5,x0,7` as an instruction in the buffer of D. -/
def leftover : LoopLocals := { zeroBuffers with new_d_reg := ⟨0,4,0x00700293,true,0,0⟩ }

/-- The first cycle of a run walks the page table and hands the instruction of the buffer to decode. -/
theorem leftover_executed : ∃ s t,
    run (cycle simulator) ((started (fun _ => 0) 1 1).1.buffered zeroBuffers,[]) (zeroLocals 7) = .ok s ∧
    run (cycle simulator) ((started (fun _ => 0) 1 1).1.buffered leftover,[]) (zeroLocals 7) = .ok t ∧
    s.1.register_file 5 = 0 ∧ t.1.register_file 5 = 7 := by
  have left : okAnd (run (cycle simulator) ((started (fun _ => 0) 1 1).1.buffered zeroBuffers,[]) (zeroLocals 7))
      (fun s => s.1.register_file 5 == 0) = true := by decide +kernel
  have right : okAnd (run (cycle simulator) ((started (fun _ => 0) 1 1).1.buffered leftover,[]) (zeroLocals 7))
      (fun t => t.1.register_file 5 == 7) = true := by decide +kernel
  obtain ⟨s,ran,zero⟩ := okAnd_iff.mp left
  obtain ⟨t,ran',seven⟩ := okAnd_iff.mp right
  exact ⟨s,t,ran,ran',by simpa using zero,by simpa using seven⟩

end RiscvSim
