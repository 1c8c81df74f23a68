import RiscvSim.Simulator

/-!
Two memories side by side. The stages know memory by the answers of `memory_read`, `memory_write`
and `memory_status` alone, so a relation that every pair of calls keeps, with equal answers, is
kept by the TLBs, the caches, the stages and whole runs. Compared with itself, a memory keeps what
its routines keep; compared with one that records what it is asked, it shows that recording
changes nothing. The relation may count the cycles, and it may rely on the addresses of all calls
being below 2^32: the stages cut their addresses to 32 bits, and the tag of a row is of such an address.
-/
namespace RiscvSim
open Bytes Runs

section
variable {σ τ ι : Type}

/-! ### Over a memory system -/

/-- The answers are the same, and the states after them related. -/
def Answers {α : Type} (Q : σ → τ → Prop) (r : α × σ) (r' : α × τ) : Prop := r.1 = r'.1 ∧ Q r.2 r'.2
def Answers₂ {α β : Type} (Q : σ → τ → Prop) (r : α × β × σ) (r' : α × β × τ) : Prop := r.1 = r'.1 ∧ Answers Q r.2 r'.2

/-- What the stages call keeps the relation between two memories, each cycle taking it one further. -/
structure MemorySystem.Alongside (Q : Nat → σ → τ → Prop) (ms : MemorySystem σ ι) (ms' : MemorySystem τ ι) : Prop where
  itlb_address {n s t} (related : Q n s t) (locals : ι) (address : U32) (status : U8) :
    Both (Answers₂ (Q n)) (ms.itlb_address s locals address status) (ms'.itlb_address t locals address status)
  instruction_read {n s t} (related : Q n s t) (address word : U32) (is_followup available : Bool) :
    Both (Answers₂ (Q n)) (ms.instruction_read s address word is_followup available)
      (ms'.instruction_read t address word is_followup available)
  dtlb_address {n s t} (related : Q n s t) (locals : ι) (address : U32) (status : U8) :
    Both (Answers₂ (Q n)) (ms.dtlb_address s locals address status) (ms'.dtlb_address t locals address status)
  data_read {n s t} (related : Q n s t) (address : U32) (size : U8) (value : U64) (is_followup available : Bool) :
    Both (Answers₂ (Q n)) (ms.data_read s address size value is_followup available)
      (ms'.data_read t address size value is_followup available)
  data_write {n s t} (related : Q n s t) (address : U32) (data : U64) (size : U8) (is_followup available : Bool) :
    Both (Answers (Q n)) (ms.data_write s address data size is_followup available)
      (ms'.data_write t address data size is_followup available)
  inst_at {n s t} (related : Q n s t) (pc : U64) (inst : U32) : ms.inst_at s pc inst = ms'.inst_at t pc inst
  enter {n s t} (related : Q n s t) (stage : Stage) : Q n (ms.enter s stage) (ms'.enter t stage)
  end_cycle {n s t} (related : Q n s t) : Q (n+1) (ms.end_cycle s) (ms'.end_cycle t)

variable {Q : Nat → σ → τ → Prop} {ms : MemorySystem σ ι} {ms' : MemorySystem τ ι} (alongside : ms.Alongside Q ms')
  {n : Nat} {s : σ} {t : τ} (related : Q n s t)
include alongside related

theorem translate_alongside (locals : ι) (m : StageRegM) (new_w_reg : StageRegW) (code : U8) :
    Both (Answers (Q n)) (translate ms s locals m new_w_reg code) (translate ms' t locals m new_w_reg code) := by
  refine (alongside.dtlb_address related _ _ _).bind ?_
  rintro ⟨status,physical_address,s⟩ ⟨_,_,t⟩ - ⟨rfl,rfl,related⟩
  simp only
  split
  · exact .ok ⟨rfl,related⟩
  · exact .ok ⟨rfl,related⟩

theorem load_alongside (locals : ι) (m : StageRegM) (new_w_reg : StageRegW) :
    Both (Answers (Q n)) (memory_load_stage ms s locals m new_w_reg) (memory_load_stage ms' t locals m new_w_reg) := by
  refine (translate_alongside alongside related locals m new_w_reg 2).bind ?_
  rintro ⟨translated,s⟩ ⟨_,t⟩ - ⟨rfl,related⟩
  cases translated with
  | inl stalled => exact .ok ⟨rfl,related⟩
  | inr physical =>
    refine (alongside.data_read related _ _ _ _ _).bind ?_
    rintro ⟨missed,value,s⟩ ⟨_,_,t⟩ - ⟨rfl,rfl,related⟩
    simp only
    split
    · exact .ok ⟨rfl,related⟩
    · exact .ok ⟨rfl,related⟩

theorem store_alongside (locals : ι) (m : StageRegM) (new_w_reg : StageRegW) :
    Both (Answers₂ (Q n)) (memory_store_stage ms s locals m new_w_reg)
    (memory_store_stage ms' t locals m new_w_reg) := by
  refine (translate_alongside alongside related locals m new_w_reg 3).bind ?_
  rintro ⟨translated,s⟩ ⟨_,t⟩ - ⟨rfl,related⟩
  cases translated with
  | inl stalled => exact .ok ⟨rfl,rfl,related⟩
  | inr physical =>
    refine (alongside.data_write related _ _ _ _ _).bind ?_
    rintro ⟨missed,s⟩ ⟨_,t⟩ - ⟨rfl,related⟩
    simp only
    split
    · exact .ok ⟨rfl,rfl,related⟩
    · exact .ok ⟨rfl,rfl,related⟩

theorem memory_alongside (locals : ι) (m : StageRegM) (w new_w_reg : StageRegW) :
    Both (Answers₂ (Q n)) (stage_memory ms s locals m w new_w_reg) (stage_memory ms' t locals m w new_w_reg) := by
  unfold stage_memory
  split
  · exact .ok ⟨rfl,rfl,related⟩
  cases m.readWrite with
  | nop => exact .ok ⟨rfl,rfl,related⟩
  | register_write => exact .ok ⟨rfl,rfl,related⟩
  | memory_read =>
    refine (load_alongside alongside related locals m _).bind ?_
    rintro ⟨w,s⟩ ⟨_,t⟩ - ⟨rfl,related⟩
    exact .ok ⟨rfl,rfl,related⟩
  | memory_write =>
    refine (store_alongside alongside related locals m _).bind ?_
    rintro ⟨w,made,s⟩ ⟨_,_,t⟩ - ⟨rfl,rfl,related⟩
    exact .ok ⟨rfl,rfl,related⟩

theorem fetch_alongside (locals : ι) (d new_d_reg : StageRegD) (pc : U64) (table : BranchTable) :
    Both (fun r r' => r.1 = r'.1 ∧ Answers₂ (Q n) r.2 r'.2) (stage_fetch ms s locals d new_d_reg pc table)
      (stage_fetch ms' t locals d new_d_reg pc table) := by
  refine (alongside.itlb_address related _ _ _).bind ?_
  rintro ⟨status,physical_pc,s⟩ ⟨_,_,t⟩ - ⟨rfl,rfl,related⟩
  simp only
  split
  · exact .ok ⟨rfl,rfl,rfl,related⟩
  refine (alongside.instruction_read related _ _ _ _).bind ?_
  rintro ⟨read_status,instruction,s⟩ ⟨_,_,t⟩ - ⟨rfl,rfl,related⟩
  simp only
  split
  · exact .ok ⟨rfl,rfl,rfl,related⟩
  · exact .ok ⟨rfl,rfl,rfl,related⟩

omit alongside related

/-- The pipelines differ in nothing but memory. -/
def Pipeline.over (p : Pipeline σ) (t : τ) : Pipeline τ :=
  ⟨p.cur_d_reg,p.cur_x_reg,p.cur_m_reg,p.cur_w_reg,p.new_d_reg,p.new_x_reg,p.new_m_reg,p.new_w_reg,p.inst,
    p.program_counter,p.register_file,p.branch_table,t⟩

/-- The same pipelines with the same log, over memories that are related after as many cycles. -/
def Side (Q : Nat → σ → τ → Prop) (c : Pipeline σ × List Events) (c' : Pipeline τ × List Events) : Prop :=
  ∃ t, c' = (c.1.over t,c.2) ∧ Q c.2.length c.1.mem t

include alongside

theorem stages_alongside {p : Pipeline σ} (related : Q n p.mem t) (locals : ι) :
    Both (fun r r' => ∃ t, r' = (r.1.over t,r.2) ∧ Q (n+1) r.1.mem t) (stages ms p locals)
    (stages ms' (p.over t) locals) := by
  refine (memory_alongside alongside (alongside.enter related .M) locals p.cur_m_reg p.cur_w_reg p.new_w_reg).bind ?_
  rintro ⟨w,stored,s⟩ ⟨_,_,t⟩ - ⟨rfl,rfl,related⟩
  refine (both_same _).bind ?_
  rintro ⟨m,pc,table,dispatched⟩ _ - rfl
  refine (fetch_alongside alongside (alongside.enter related .F) locals p.cur_d_reg p.new_d_reg _ table).bind ?_
  rintro ⟨d,pc,delivered,s⟩ ⟨_,_,_,t⟩ - ⟨rfl,rfl,rfl,related⟩
  exact .ok ⟨_,rfl,alongside.end_cycle related⟩

/-- The same, stage by stage: memory is related between the stages, too. -/
theorem staged_alongside {p p' : Pipeline σ} {events : Events} (related : Q n p.mem t) {locals : ι}
    (ran : stages ms p locals = .ok (p',events)) :
    ∃ memory_mem execute_pc decode_pc fetch_mem t₁ t₂ t',
      Staged ms p locals memory_mem execute_pc decode_pc fetch_mem p' events ∧
      Staged ms' (p.over t) locals t₁ execute_pc decode_pc t₂ (p'.over t') events ∧ Q n memory_mem t₁ ∧
      Q (n+1) p'.mem t' := by
  obtain ⟨⟨w,stored,mem⟩,memory,rest⟩ := bind_ok.mp ran
  obtain ⟨⟨m,pc,table,dispatched⟩,execute,rest⟩ := bind_ok.mp rest
  obtain ⟨⟨d,pc',delivered,mem'⟩,fetch,-⟩ := bind_ok.mp rest
  have both := memory_alongside alongside (alongside.enter related .M) locals p.cur_m_reg p.cur_w_reg p.new_w_reg
  rw [memory] at both
  obtain ⟨⟨_,_,t₁⟩,memory',rfl,rfl,related₁⟩ := both.ok_left
  have fetch : stage_fetch ms (ms.enter mem .F) locals p.cur_d_reg p.new_d_reg
    (stage_decode p.cur_d_reg p.cur_x_reg p.cur_m_reg
    p.cur_w_reg p.new_x_reg (stage_writeback p.cur_w_reg p.register_file) pc).2 table = .ok (d,pc',delivered,mem') :=
    fetch
  have both := fetch_alongside alongside (alongside.enter related₁ .F) locals p.cur_d_reg p.new_d_reg
    (stage_decode p.cur_d_reg
    p.cur_x_reg p.cur_m_reg p.cur_w_reg p.new_x_reg (stage_writeback p.cur_w_reg p.register_file) pc).2 table
  rw [show (w,stored,mem).2.2 = mem from rfl,fetch] at both
  obtain ⟨⟨_,_,_,t₂⟩,fetch',rfl,rfl,rfl,-⟩ := both.ok_left
  have both := stages_alongside alongside related locals
  rw [ran] at both
  obtain ⟨_,ran',t',rfl,related'⟩ := both.ok_left
  exact ⟨mem,pc,_,mem',t₁,t₂,t',staged_of memory execute fetch ran,staged_of memory' execute fetch' ran',
    related₁,related'⟩

theorem cycle_alongside {c : Pipeline σ × List Events} {c' : Pipeline τ × List Events}
    (side : Side Q c c') (locals : ι) :
    Both (Side Q) (cycle ms c locals) (cycle ms' c' locals) := by
  obtain ⟨t,rfl,related⟩ := side
  have word : ms'.inst_at t (c.1.over t).program_counter (c.1.over t).inst =
    ms.inst_at c.1.mem c.1.program_counter c.1.inst :=
    (alongside.inst_at related _ _).symm
  unfold cycle
  simp only
  rw [show (c.1.over t).mem = t from rfl,word]
  split
  · exact .ok ⟨t,rfl,related⟩
  · refine (stages_alongside alongside (p := { c.1 with inst := ms.inst_at c.1.mem c.1.program_counter c.1.inst })
      related locals).bind ?_
    rintro ⟨p,events⟩ _ - ⟨t,rfl,related⟩
    refine .ok ⟨t,rfl,?_⟩
    rw [List.length_append]
    exact related

/-- Both runs fail alike, or end in the same pipelines with the same log. -/
theorem run_alongside {c : Pipeline σ × List Events} {c' : Pipeline τ × List Events} (side : Side Q c c')
    (inputs : List ι) :
    Both (Side Q) (run (cycle ms) c inputs) (run (cycle ms') c' inputs) :=
  run_both (fun _ _ locals side => cycle_alongside alongside side locals) side inputs

end

/-! ### Over the TLBs and the caches -/

section
variable {σ τ : Type}

/-- The three routines keep the relation and answer alike, asked as the TLBs and the caches ask. -/
structure MemoryPort.Alongside (R : σ → τ → Prop) (port : MemoryPort σ) (port' : MemoryPort τ) : Prop where
  memory_read {s t} (related : R s t) {address : U64} (narrow : address.toNat < 2^32) (value : Buffer) {size : U64}
    (sizes : size = 4 ∨ size = 8 ∨ size = 16) :
    Answers₂ R (port.memory_read s address value size) (port'.memory_read t address value size)
  memory_write {s t} (related : R s t) {address : U64} (narrow : address.toNat < 2^32) (value : U64) :
    Answers R (port.memory_write s address value 8) (port'.memory_write t address value 8)
  memory_status {s t} (related : R s t) {address : U64} (narrow : address.toNat < 2^32) (value : Option Buffer) :
    Option.Rel (Answers₂ R) (port.memory_status s address value) (port'.memory_status t address value)
  status_bytes {s t} (related : R s t) (address : U64) : port.status_bytes s address = port'.status_bytes t address

theorem setWidth_narrow (address : U32) : (address.setWidth 64 : U64).toNat < 2^32 := by
  rw [BitVec.toNat_setWidth]
  omega

variable {R : σ → τ → Prop} {port : MemoryPort σ} {port' : MemoryPort τ} (alongside : port.Alongside R port')
  {s : σ} {t : τ} (related : R s t)
include alongside related

theorem read_word_alongside (address local_value : U32) (poll : Bool) :
    Both (Answers₂ R) (port.read_word s address local_value poll) (port'.read_word t address local_value poll) := by
  have narrow := setWidth_narrow address
  cases poll with
  | false =>
    obtain ⟨done,data,related⟩ := alongside.memory_read related narrow (byteAt local_value) (.inl rfl)
    refine .ok ⟨done,?_,related⟩
    rw [data]
  | true =>
    rw [MemoryPort.read_word,MemoryPort.read_word,alongside.status_bytes related]
    by_cases long : port'.status_bytes t (address.setWidth 64) > 4
    · rw [if_pos long,if_pos long]
      exact .error _
    rw [if_neg long,if_neg long]
    have answers := alongside.memory_status related narrow (some (byteAt local_value))
    generalize port.memory_status s (address.setWidth 64) (some (byteAt local_value)) = answer at answers ⊢
    generalize port'.memory_status t (address.setWidth 64) (some (byteAt local_value)) = answer' at answers ⊢
    cases answers with
    | none => exact .error _
    | some same =>
      obtain ⟨done,data,related⟩ := same
      refine .ok ⟨done,?_,related⟩
      rw [data]

namespace Tlb

theorem update_tlb_entry_alongside (ptbr : U64) (cache : Tlb) (tlb_index virtual_page : U32) (status : U8)
    (locals : TlbLocals) :
    Both (fun r r' => r.1 = r'.1 ∧ r.2.1 = r'.2.1 ∧ Answers R r.2.2 r'.2.2)
      (cache.update_tlb_entry port ptbr s tlb_index virtual_page status locals)
      (cache.update_tlb_entry port' ptbr t tlb_index virtual_page status locals) := by
  unfold update_tlb_entry
  simp only
  split
  · refine (read_word_alongside alongside related _ _ _).bind ?_
    rintro ⟨done,word,s⟩ ⟨_,_,t⟩ - ⟨rfl,rfl,related⟩
    simp only
    split
    · exact .ok ⟨rfl,rfl,rfl,related⟩
    · exact .ok ⟨rfl,rfl,rfl,related⟩
  split
  · exact .ok ⟨rfl,rfl,rfl,related⟩
  refine (read_word_alongside alongside related _ _ _).bind ?_
  rintro ⟨done,word,s⟩ ⟨_,_,t⟩ - ⟨rfl,rfl,related⟩
  simp only
  split
  · exact .ok ⟨rfl,rfl,rfl,related⟩
  split
  · exact .ok ⟨rfl,rfl,rfl,related⟩
  split
  · exact .error _
  · exact .ok ⟨rfl,rfl,rfl,related⟩

theorem get_address_alongside (ptbr : U64) (cache : Tlb) (virtual_address output : U32) (status : U8)
    (locals : TlbLocals) :
    Both (fun r r' => r.1 = r'.1 ∧ r.2.1 = r'.2.1 ∧ Answers R r.2.2 r'.2.2)
      (cache.get_address port ptbr s virtual_address output status locals)
      (cache.get_address port' ptbr t virtual_address output status locals) := by
  unfold get_address
  simp only
  split
  · exact .ok ⟨rfl,rfl,rfl,related⟩
  refine (update_tlb_entry_alongside alongside related ptbr cache _ _ status locals).bind ?_
  rintro ⟨code,page,cache,s⟩ ⟨_,_,_,t⟩ - ⟨rfl,rfl,rfl,related⟩
  simp only
  split
  · exact .ok ⟨rfl,rfl,rfl,related⟩
  · exact .ok ⟨rfl,rfl,rfl,related⟩

end Tlb

namespace CacheTable
omit alongside related

/-- The tags of a data cache are of addresses below 2^32. An instruction cache writes nothing back. -/
structure Narrow (kind : CacheType) (cache : CacheTable) : Prop where
  type : cache.cache_type = kind
  params : kind = .DATA → IsDataCache cache
  tags : kind = .DATA → ∀ i, (cache.rows i).tag.toNat < 2^18

variable {kind : CacheType} {cache : CacheTable}

theorem narrow_data : Narrow .DATA (construct_cache 2048 .DATA) :=
  ⟨rfl,fun _ => isDataCache_construct,fun _ _ => by simp [construct_cache,CacheRow.zero]⟩
theorem narrow_instruction : Narrow .INSTRUCTION (construct_cache 512 .INSTRUCTION) := ⟨rfl,nofun,nofun⟩

theorem Narrow.setRow (narrow : cache.Narrow kind) (i : U64) {r : CacheRow} (tag : kind = .DATA → r.tag.toNat < 2^18) :
    (cache.setRow i r).Narrow kind := by
  refine ⟨narrow.type,fun data => isDataCache_setRow (narrow.params data) i r,fun data j => ?_⟩
  by_cases same : j = i
  · rw [same,setRow_same]
    exact tag data
  · rw [setRow_other _ _ same]
    exact narrow.tags data j

theorem Narrow.oldAddress (narrow : cache.Narrow .DATA) {i : U64} (inside : i.toNat < cache.num_rows) :
    (cache.oldAddress i).toNat < 2^32 := by
  have params := narrow.params rfl
  have tag := narrow.tags rfl i
  have rows : cache.num_rows = 4096 := num_rows_data params
  rw [CacheTable.oldAddress,params.index,params.block,BitVec.toNat_or]
  refine Nat.or_lt_two_pow ?_ ?_
  · rw [CacheTable.fieldTag,params.type,BitVec.toNat_setWidth,BitVec.toNat_setWidth,BitVec.toNat_shiftLeft,
      Nat.shiftLeft_eq,CacheType.tag_bits]
    omega
  · rw [BitVec.toNat_shiftLeft,Nat.shiftLeft_eq]
    omega

/-- The same answer, rows and related memories. -/
def Paired {α : Type} (R : σ → τ → Prop) (kind : CacheType) (r : α × CacheTable × σ) (r' : α × CacheTable × τ) : Prop :=
  Answers₂ R r r' ∧ r.2.1.Narrow kind

include alongside related

theorem put_block_alongside (narrow : cache.Narrow .DATA) {index : U64} (inside : index.toNat < cache.num_rows)
    (row : CacheRow) (is_followup : Bool) :
    Both (Answers R) (cache.put_block port s index row is_followup)
    (cache.put_block port' t index row is_followup) := by
  have below := narrow.oldAddress inside
  cases is_followup with
  | false => exact .ok (alongside.memory_write related below _)
  | true =>
    unfold put_block
    have answers := alongside.memory_status related below none
    generalize port.memory_status s (cache.oldAddress index) none = answer at answers ⊢
    generalize port'.memory_status t (cache.oldAddress index) none = answer' at answers ⊢
    cases answers with
    | none => exact .error _
    | some same => exact .ok ⟨same.1,same.2.2⟩

theorem clean_row_alongside (narrow : cache.Narrow kind) (index : U64) (is_followup : Bool) :
    Both (Paired R kind) (cache.clean_row port s index is_followup) (cache.clean_row port' t index is_followup) := by
  unfold clean_row
  refine (both_same _).bind ?_
  rintro row _ found rfl
  obtain ⟨inside,rfl⟩ := row_ok.mp found
  split
  · rename_i dirty
    obtain rfl : kind = .DATA := narrow.type.symm.trans dirty.1
    unfold write_back
    rw [found]
    simp only [ok_bind]
    refine (put_block_alongside alongside related narrow inside _ _).bind ?_
    rintro ⟨done,s⟩ ⟨_,t⟩ - ⟨rfl,related⟩
    refine .ok ⟨⟨rfl,rfl,related⟩,?_⟩
    simp only
    split
    · exact narrow.setRow index fun data => narrow.tags data index
    · exact narrow
  · exact .ok ⟨⟨rfl,rfl,related⟩,narrow⟩

theorem get_block_alongside (cache : CacheTable) {address : U64} (below : address.toNat < 2^32) (row : CacheRow)
    (is_followup : Bool) :
    Both (Answers₂ R) (cache.get_block port s address row is_followup)
    (cache.get_block port' t address row is_followup) := by
  cases is_followup with
  | false =>
    refine .ok (alongside.memory_read related below _ ?_)
    cases cache.cache_type with
    | INSTRUCTION => exact .inr (.inr rfl)
    | DATA => exact .inr (.inl rfl)
  | true =>
    unfold get_block
    have answers := alongside.memory_status related below (some row.data)
    generalize port.memory_status s address (some row.data) = answer at answers ⊢
    generalize port'.memory_status t address (some row.data) = answer' at answers ⊢
    cases answers with
    | none => exact .error _
    | some same =>
      obtain ⟨done,data,related⟩ := same
      refine .ok ⟨done,?_,related⟩
      rw [data]

theorem fill_row_alongside (narrow : cache.Narrow kind) {address : U64} (below : address.toNat < 2^32) (index : U64)
    (is_followup : Bool) :
    Both (Paired R kind) (cache.fill_row port s address index is_followup)
    (cache.fill_row port' t address index is_followup) := by
  unfold fill_row
  refine (both_same _).bind ?_
  rintro row _ found rfl
  obtain ⟨inside,rfl⟩ := row_ok.mp found
  refine (get_block_alongside alongside related cache below _ _).bind ?_
  rintro ⟨done,data,s⟩ ⟨_,_,t⟩ - ⟨rfl,rfl,related⟩
  exact .ok ⟨⟨rfl,rfl,related⟩,narrow.setRow index fun data => narrow.tags data index⟩

omit alongside related in
theorem fieldTag_le (cache : CacheTable) (tag : U64) : (cache.fieldTag tag).toNat ≤ tag.toNat := by
  rw [fieldTag,BitVec.toNat_setWidth,BitVec.toNat_setWidth]
  exact (Nat.mod_le _ _).trans (Nat.mod_le _ _)

theorem evict_read_alongside (narrow : cache.Narrow kind) {address : U64} (below : address.toNat < 2^32)
    (index : U64) {tag : U64} (fits : kind = .DATA → tag.toNat < 2^18) (is_followup : Bool) :
    Both (Paired R kind) (cache.evict_read port s address index tag is_followup)
      (cache.evict_read port' t address index tag is_followup) := by
  unfold evict_read
  refine (both_same _).bind ?_
  rintro index _ - rfl
  refine (clean_row_alongside alongside related narrow index is_followup).bind ?_
  rintro ⟨written,cache,s⟩ ⟨_,_,t⟩ - ⟨⟨rfl,rfl,related⟩,narrow⟩
  simp only
  split
  · exact .ok ⟨⟨rfl,rfl,related⟩,narrow⟩
  refine (fill_row_alongside alongside related narrow below index is_followup).bind ?_
  rintro ⟨done,cache,s⟩ ⟨_,_,t⟩ - ⟨⟨rfl,rfl,related⟩,narrow⟩
  simp only
  split
  · exact .ok ⟨⟨rfl,rfl,related⟩,narrow⟩
  refine (both_same _).bind ?_
  rintro row _ - rfl
  exact .ok ⟨⟨rfl,rfl,related⟩,narrow.setRow index fun data => (fieldTag_le cache tag).trans_lt (fits data)⟩

omit alongside related in
theorem Narrow.tagOf (narrow : cache.Narrow kind) {address : U64} (below : address.toNat < 2^32) (data : kind = .DATA) :
    (cache.tagOf address).toNat < 2^18 := by
  rw [tagOf_toNat (narrow.params data)]
  omega

theorem read_access_alongside (narrow : cache.Narrow kind) {address : U64} (below : address.toNat < 2^32)
    (size value : U64) (is_followup available : Bool) :
    Both (fun r r' => r.1 = r'.1 ∧ Paired R kind r.2 r'.2)
      (cache.read_access port s address size value is_followup available)
      (cache.read_access port' t address size value is_followup available) := by
  unfold read_access
  split
  · exact .error _
  refine Both.bind (R := Paired R kind) ?_ ?_
  · unfold read_row
    refine (both_same _).bind ?_
    rintro found _ - rfl
    cases found with
    | some row => exact .ok ⟨⟨rfl,rfl,related⟩,narrow⟩
    | none =>
      simp only
      split
      · exact .ok ⟨⟨rfl,rfl,related⟩,narrow⟩
      refine (evict_read_alongside alongside related narrow below _ (narrow.tagOf below) is_followup).bind ?_
      rintro ⟨found,cache,s⟩ ⟨_,_,t⟩ - ⟨⟨rfl,rfl,related⟩,narrow⟩
      cases found with
      | none => exact .ok ⟨⟨rfl,rfl,related⟩,narrow⟩
      | some i =>
        refine (both_same _).bind ?_
        rintro row _ - rfl
        exact .ok ⟨⟨rfl,rfl,related⟩,narrow⟩
  · rintro ⟨found,cache,s⟩ ⟨_,_,t⟩ - ⟨⟨rfl,rfl,related⟩,narrow⟩
    cases found with
    | inl code => exact .ok ⟨rfl,⟨rfl,rfl,related⟩,narrow⟩
    | inr row =>
      simp only
      split
      · exact .error _
      split
      · exact .ok ⟨rfl,⟨rfl,rfl,related⟩,narrow⟩
      · exact .error _

theorem write_row_alongside (narrow : cache.Narrow kind) {address : U64} (below : address.toNat < 2^32)
    (index : U64) {tag : U64} (fits : kind = .DATA → tag.toNat < 2^18) (size : U8) (is_followup available : Bool) :
    Both (Paired R kind) (cache.write_row port s address index tag size is_followup available)
      (cache.write_row port' t address index tag size is_followup available) := by
  unfold write_row
  split
  · split
    · exact .ok ⟨⟨rfl,rfl,related⟩,narrow⟩
    refine (evict_read_alongside alongside related narrow below index fits is_followup).bind ?_
    rintro ⟨found,cache,s⟩ ⟨_,_,t⟩ - ⟨⟨rfl,rfl,related⟩,narrow⟩
    cases found with
    | none => exact .ok ⟨⟨rfl,rfl,related⟩,narrow⟩
    | some i => exact .ok ⟨⟨rfl,rfl,related⟩,narrow⟩
  · refine (both_same _).bind ?_
    rintro row _ - rfl
    split
    · exact .ok ⟨⟨rfl,rfl,related⟩,narrow⟩
    refine (clean_row_alongside alongside related narrow index is_followup).bind ?_
    rintro ⟨written,cache,s⟩ ⟨_,_,t⟩ - ⟨⟨rfl,rfl,related⟩,narrow⟩
    exact .ok ⟨⟨rfl,rfl,related⟩,narrow⟩

theorem write_access_alongside (narrow : cache.Narrow kind) {address : U64} (below : address.toNat < 2^32)
    (data : U64) (size : U8) (is_followup available : Bool) :
    Both (Paired R kind) (cache.write_access port s address data size is_followup available)
      (cache.write_access port' t address data size is_followup available) := by
  unfold write_access
  split
  · exact .ok ⟨⟨rfl,rfl,related⟩,narrow⟩
  refine (both_same _).bind ?_
  rintro first _ found rfl
  obtain ⟨-,rfl⟩ := row_ok.mp found
  have stored : Both (Paired R kind)
      (cache.store_hit s (cache.indexOf address) (cache.rows (cache.indexOf address))
        (cache.subindexOf address) data size)
      (cache.store_hit t (cache.indexOf address) (cache.rows (cache.indexOf address)) (cache.subindexOf address)
        data size) := by
    unfold store_hit
    split
    · exact .error _
    · exact .ok ⟨⟨rfl,rfl,related⟩,narrow.setRow _ fun data => narrow.tags data _⟩
  split
  · exact stored
  refine (both_same _).bind ?_
  rintro second _ - rfl
  split
  · exact stored
  unfold evict_write
  split
  · exact .ok ⟨⟨rfl,rfl,related⟩,narrow⟩
  refine (both_same _).bind ?_
  rintro index _ - rfl
  have fits := narrow.tagOf below
  refine (write_row_alongside alongside related narrow below index fits size is_followup available).bind ?_
  rintro ⟨found,cache',s⟩ ⟨_,_,t⟩ - ⟨⟨rfl,rfl,related⟩,narrow⟩
  cases found with
  | inl code => exact .ok ⟨⟨rfl,rfl,related⟩,narrow⟩
  | inr i =>
    refine (both_same _).bind ?_
    rintro row _ - rfl
    exact .ok ⟨⟨rfl,rfl,related⟩,narrow.setRow i fun data => (fieldTag_le cache' _).trans_lt (fits data)⟩

end CacheTable

end

/-! ### Over the simulator -/

section
variable {σ τ : Type}

/-- The routines behind two simulators keep the relation, each cycle taking it one further. -/
structure Backing.Alongside (R : Nat → σ → τ → Prop) (b : Backing σ) (b' : Backing τ) : Prop where
  tlb_port (n : Nat) : b.tlb_port.Alongside (R n) b'.tlb_port
  cache_port (n : Nat) : b.cache_port.Alongside (R n) b'.cache_port
  ptbr {n s t} (related : R n s t) : b.ptbr s = b'.ptbr t
  memory_dump {n s t} (related : R n s t) : b.memory_dump s = b'.memory_dump t
  enter {n s t} (related : R n s t) (stage : Stage) : R n (b.enter s stage) (b'.enter t stage)
  end_cycle {n s t} (related : R n s t) : R (n+1) (b.end_cycle s) (b'.end_cycle t)

/-- The same TLBs and caches over related memories. -/
structure MemoryState.Side (R : σ → τ → Prop) (mem : MemoryState σ) (mem' : MemoryState τ) : Prop where
  itlb : mem.itlb = mem'.itlb
  dtlb : mem.dtlb = mem'.dtlb
  instruction_cache : mem.instruction_cache = mem'.instruction_cache
  data_cache : mem.data_cache = mem'.data_cache
  instructions : mem.instruction_cache.Narrow .INSTRUCTION
  data : mem.data_cache.Narrow .DATA
  framework : R mem.framework mem'.framework

theorem simulatorOver_alongside {R : Nat → σ → τ → Prop} {b : Backing σ} {b' : Backing τ}
    (alongside : b.Alongside R b') :
    (simulatorOver b).Alongside (fun n => MemoryState.Side (R n)) (simulatorOver b') where
  itlb_address {n} s t side locals address status := by
    simp only [simulatorOver]
    rw [← side.itlb,← alongside.ptbr side.framework]
    refine (Tlb.get_address_alongside (alongside.tlb_port n) side.framework _ _ _ _ _ _).bind ?_
    rintro ⟨code,output,tlb,fw⟩ ⟨_,_,_,fw'⟩ - ⟨rfl,rfl,rfl,related⟩
    exact .ok ⟨rfl,rfl,{ side with itlb := rfl, framework := related }⟩
  instruction_read {n} s t side address word is_followup available := by
    simp only [simulatorOver]
    rw [← side.instruction_cache]
    refine (CacheTable.read_access_alongside (alongside.cache_port n) side.framework side.instructions
      (setWidth_narrow address)
      _ _ _ _).bind ?_
    rintro ⟨code,value,cache,fw⟩ ⟨_,_,_,fw'⟩ - ⟨rfl,⟨rfl,rfl,related⟩,narrow⟩
    exact .ok ⟨rfl,rfl,{ side with instruction_cache := rfl, instructions := narrow, framework := related }⟩
  dtlb_address {n} s t side locals address status := by
    simp only [simulatorOver]
    rw [← side.dtlb,← alongside.ptbr side.framework]
    refine (Tlb.get_address_alongside (alongside.tlb_port n) side.framework _ _ _ _ _ _).bind ?_
    rintro ⟨code,output,tlb,fw⟩ ⟨_,_,_,fw'⟩ - ⟨rfl,rfl,rfl,related⟩
    exact .ok ⟨rfl,rfl,{ side with dtlb := rfl, framework := related }⟩
  data_read {n} s t side address size value is_followup available := by
    simp only [simulatorOver]
    rw [← side.data_cache]
    refine (CacheTable.read_access_alongside (alongside.cache_port n) side.framework side.data (setWidth_narrow address)
      _ _ _ _).bind ?_
    rintro ⟨code,value,cache,fw⟩ ⟨_,_,_,fw'⟩ - ⟨rfl,⟨rfl,rfl,related⟩,narrow⟩
    exact .ok ⟨rfl,rfl,{ side with data_cache := rfl, data := narrow, framework := related }⟩
  data_write {n} s t side address data size is_followup available := by
    simp only [simulatorOver]
    rw [← side.data_cache]
    refine (CacheTable.write_access_alongside (alongside.cache_port n) side.framework side.data
      (setWidth_narrow address)
      _ _ _ _).bind ?_
    rintro ⟨code,cache,fw⟩ ⟨_,_,fw'⟩ - ⟨⟨rfl,rfl,related⟩,narrow⟩
    exact .ok ⟨rfl,{ side with data_cache := rfl, data := narrow, framework := related }⟩
  inst_at {n} s t side pc inst := by
    simp only [simulatorOver]
    rw [alongside.memory_dump side.framework]
  enter {n} s t side stage := { side with framework := alongside.enter side.framework stage }
  end_cycle {n} s t side := { side with framework := alongside.end_cycle side.framework }

theorem side_initial {R : Nat → σ → τ → Prop} {s : σ} {t : τ} (related : R 0 s t) (pc : U64) (file : RegisterFile)
    (buffers : LoopLocals) :
    Side (fun n => MemoryState.Side (R n)) (Pipeline.initial (.initial s) pc file buffers)
    (Pipeline.initial (.initial t) pc file buffers) :=
  ⟨.initial t,rfl,⟨rfl,rfl,rfl,rfl,CacheTable.narrow_instruction,CacheTable.narrow_data,related⟩⟩

/-! ### One memory -/

/-- The three routines keep a property of memory, asked as the TLBs and the caches ask. -/
structure MemoryPort.Keeps (Inv : σ → Prop) (port : MemoryPort σ) : Prop where
  memory_read {s} (kept : Inv s) {address : U64} (narrow : address.toNat < 2^32) (value : Buffer) {size : U64}
    (sizes : size = 4 ∨ size = 8 ∨ size = 16) : Inv (port.memory_read s address value size).2.2
  memory_write {s} (kept : Inv s) {address : U64} (narrow : address.toNat < 2^32) (value : U64) :
    Inv (port.memory_write s address value 8).2
  memory_status {s} (kept : Inv s) {address : U64} (narrow : address.toNat < 2^32) (value : Option Buffer)
    {r : Bool × Option Buffer × σ}
    (answered : port.memory_status s address value = some r) : Inv r.2.2

theorem MemoryPort.Keeps.alongside {Inv : σ → Prop} {port : MemoryPort σ} (keeps : port.Keeps Inv) :
    port.Alongside (fun s t => s = t ∧ Inv s) port where
  memory_read related address narrow value size sizes := by
    obtain ⟨rfl,kept⟩ := related
    exact ⟨rfl,rfl,rfl,keeps.memory_read kept narrow value sizes⟩
  memory_write related address narrow value := by
    obtain ⟨rfl,kept⟩ := related
    exact ⟨rfl,rfl,keeps.memory_write kept narrow value⟩
  memory_status {s t} related address narrow value := by
    obtain ⟨rfl,kept⟩ := related
    cases answered : port.memory_status s address value with
    | none => exact .none
    | some r => exact .some ⟨rfl,rfl,rfl,keeps.memory_status kept narrow value answered⟩
  status_bytes related address := by rw [related.1]

structure Backing.Keeps (Inv : Nat → σ → Prop) (b : Backing σ) : Prop where
  tlb_port (n : Nat) : b.tlb_port.Keeps (Inv n)
  cache_port (n : Nat) : b.cache_port.Keeps (Inv n)
  enter {n s} (kept : Inv n s) (stage : Stage) : Inv n (b.enter s stage)
  end_cycle {n s} (kept : Inv n s) : Inv (n+1) (b.end_cycle s)

theorem Backing.Keeps.alongside {Inv : Nat → σ → Prop} {b : Backing σ} (keeps : b.Keeps Inv) :
    b.Alongside (fun n s t => s = t ∧ Inv n s) b where
  tlb_port n := (keeps.tlb_port n).alongside
  cache_port n := (keeps.cache_port n).alongside
  ptbr related := by rw [related.1]
  memory_dump related := by rw [related.1]
  enter related stage := ⟨by rw [related.1],keeps.enter related.2 stage⟩
  end_cycle related := ⟨by rw [related.1],keeps.end_cycle related.2⟩

/-- The property holds of memory, and the tags are of addresses below 2^32. -/
structure MemoryState.Kept (Inv : σ → Prop) (mem : MemoryState σ) : Prop where
  instructions : mem.instruction_cache.Narrow .INSTRUCTION
  data : mem.data_cache.Narrow .DATA
  framework : Inv mem.framework

/-- What the routines of memory keep, whole runs keep. -/
theorem run_keeps {Inv : Nat → σ → Prop} {b : Backing σ} (keeps : b.Keeps Inv)
    {c c' : Pipeline (MemoryState σ) × List Events} {inputs : List CalleeLocals} (start : c.1.mem.Kept (Inv c.2.length))
    (ran : run (cycle (simulatorOver b)) c inputs = .ok c') :
    c'.1.mem.Kept (Inv c'.2.length) := by
  have side : Side (fun n => MemoryState.Side (fun s t => s = t ∧ Inv n s)) c c :=
    ⟨c.1.mem,rfl,⟨rfl,rfl,rfl,rfl,start.instructions,start.data,rfl,start.framework⟩⟩
  have both := run_alongside (simulatorOver_alongside keeps.alongside) side inputs
  rw [ran] at both
  cases both with
  | ok related =>
    obtain ⟨mem,-,related⟩ := related
    exact ⟨related.instructions,related.data,related.framework.2⟩

end
end RiscvSim
