import RiscvSim.Commands
import RiscvSim.Delivery
import RiscvSim.Dispatch
import RiscvSim.PageWalk
import RiscvSim.Traps

/-!
Who is to blame when the simulator aborts. The callees of a cycle give up for few reasons, and each of them
points to an instruction in the pipeline: a division in execute, an access in the memory stage, the address
to fetch. In every cycle, run and session an abort is one of these, and the caches' exit for a
size that they do not know is never taken.
-/
namespace RiscvSim
open Bytes Runs CText Scripts

/-! ### Callees -/

section
variable {σ : Type} {port : MemoryPort σ} (answering : port.Answering)
include answering

/-- A TLB gives up at the check at the end of a walk, and where a poll is answered with more than an entry. -/
theorem get_address_error {ptbr : U64} {t : Tlb} {mem : σ} {va out : U32} {status : U8} {locals : TlbLocals} {e : Abort}
    (failed : t.get_address port ptbr mem va out status locals = .error e) :
    e = .superpage_tlb_index_mismatch ∧ va >>> 12 >>> 2 >>> 3 ≠ Tlb.index va ∨ e = .local_overrun ∧
    (status = 0 ∨ status = 1) := by
  unfold Tlb.get_address at failed
  simp only at failed
  split at failed
  · cases failed
  rcases bind_error.mp failed with failed | ⟨_,-,failed⟩
  · cases Tlb.update_tlb_entry_fails failed with
    | first _ _ read =>
      obtain ⟨rfl,poll,-⟩ := read_word_error answering read
      exact .inr ⟨rfl,.inl (beq_iff_eq.mp poll)⟩
    | second _ _ _ read =>
      obtain ⟨rfl,poll,-⟩ := read_word_error answering read
      exact .inr ⟨rfl,.inr (beq_iff_eq.mp poll)⟩
    | mismatch _ _ _ _ _ _ group => exact .inl ⟨rfl,group⟩
  · split at failed <;> cases failed

namespace CacheTable

/-- What a poll of a write-back can come to: the address to be written has a read that is complete. -/
def Polled (cache : CacheTable) (is_followup : Bool) (e : Abort) : Prop :=
  e = .null_pointer ∧ is_followup = true ∧ cache.cache_type = .DATA ∧ ∃ i, (cache.rows i).dirty = true

omit answering in
theorem clean_row_polled {cache : CacheTable} {mem : σ} {i : U64} {followup : Bool} {e : Abort}
    (inside : i.toNat < cache.num_rows) (failed : cache.clean_row port mem i followup = .error e) :
    cache.Polled followup e := by
  have null := clean_row_error port inside failed
  rw [clean_row,row_inside inside,ok_bind] at failed
  split at failed
  · rename_i dirty
    rw [write_back,row_inside inside,ok_bind] at failed
    rcases bind_error.mp failed with failed | ⟨_,_,failed⟩
    · cases followup with
      | false => cases failed
      | true => exact ⟨null,rfl,dirty.1,i,dirty.2⟩
    · cases failed
  · cases failed

theorem fill_row_returns {cache : CacheTable} {mem : σ} {a i : U64} {followup : Bool}
    (inside : i.toNat < cache.num_rows) (e : Abort) :
    cache.fill_row port mem a i followup ≠ .error e := by
  intro failed
  rw [fill_row,row_inside inside,ok_bind] at failed
  rcases bind_error.mp failed with failed | ⟨_,_,failed⟩
  · cases followup with
    | false => cases failed
    | true =>
      rw [get_block] at failed
      split at failed
      · rename_i unanswered
        exact answering _ _ _ unanswered
      · cases failed
  · cases failed

theorem evict_read_polled {cache : CacheTable} {mem : σ} {a index i tag : U64} {followup : Bool} {e : Abort}
    (chosen : cache.victim index = .ok i) (inside : i.toNat < cache.num_rows)
    (failed : cache.evict_read port mem a index tag followup = .error e) : cache.Polled followup e := by
  rw [evict_read,chosen,ok_bind] at failed
  rcases bind_error.mp failed with failed | ⟨⟨written,cache₁,mem₁⟩,cleaned,failed⟩
  · exact clean_row_polled inside failed
  · obtain ⟨r₁,rfl,_⟩ := clean_row_effect port cleaned
    simp only at failed
    split at failed
    · cases failed
    · rcases bind_error.mp failed with failed | ⟨⟨done,cache₂,mem₂⟩,filled,failed⟩
      · exact absurd failed (fill_row_returns answering (by simpa using inside) e)
      · obtain ⟨r₂,rfl,_⟩ := fill_row_effect port filled
        simp only at failed
        split at failed
        · cases failed
        · rw [row_setRow (by simpa using inside)] at failed
          cases failed

/-- The size of an access that a cache knows. -/
def Sized (size : U64) : Prop := size = 1 ∨ size = 2 ∨ size = 4 ∨ size = 8

/-- What a read stops at: an address inside a word, a word past the row, a size that there is not, the poll of a
    write-back. -/
inductive ReadFails (cache : CacheTable) (a size : U64) (is_followup : Bool) : Abort → Prop
  | inside_word (off : cache.subindexOf a &&& 3 ≠ 0) : ReadFails cache a size is_followup .misaligned_cache_access
  | past_row (past : cache.cache_type.Overrun (4 * (cache.subindexOf a >>> 2).toNat) (CacheRow.hit_bytes size)) :
    ReadFails cache a size is_followup .data_subscript
  | unknown_size (unknown : ¬ Sized size) : ReadFails cache a size is_followup .illegal_cache_access_size
  | polls {e : Abort} (polled : cache.Polled is_followup e) : ReadFails cache a size is_followup e

/-- What a write stops at: the search for a third way, a byte past the row, the poll of a write-back. -/
inductive WriteFails (cache : CacheTable) (a : U64) (size : U8) (is_followup : Bool) : Abort → Prop
  | third_way : WriteFails cache a size is_followup .rows_subscript
  | past_row (past : cache.cache_type.Overrun (cache.subindexOf a).toNat size.toNat) :
    WriteFails cache a size is_followup .data_subscript
  | polls {e : Abort} (polled : cache.Polled is_followup e) : WriteFails cache a size is_followup e

omit answering in
theorem read_row_type {cache cache' : CacheTable} {mem mem' : σ} {a i index tag size : U64} {sub : Nat}
    {followup available : Bool} {found : U8 ⊕ CacheRow} (chosen : cache.victim index = .ok i)
    (read : cache.read_row port mem a index tag sub size followup available = .ok (found,cache',mem')) :
    cache'.cache_type = cache.cache_type := by
  obtain ⟨held,-,read⟩ := bind_ok.mp read
  cases held with
  | some row =>
    cases read
    rfl
  | none =>
    simp only at read
    split at read
    · cases read
      rfl
    obtain ⟨⟨victim,cache₁,mem₁⟩,evicted,read⟩ := bind_ok.mp read
    obtain ⟨r,rfl,⟨rfl,_⟩ | ⟨rfl,_,_⟩⟩ := evict_read_effect port chosen evicted
    · cases read
      rfl
    · obtain ⟨row,-,read⟩ := bind_ok.mp read
      cases read
      rfl

theorem read_access_error {cache : CacheTable} {mem : σ} {a i size value : U64} {followup available : Bool} {e : Abort}
    (looked : ∃ found, cache.lookup (cache.indexOf a) (cache.tagOf a) (cache.subindexOf a >>> 2).toNat size = .ok found)
    (chosen : cache.victim (cache.indexOf a) = .ok i) (inside : i.toNat < cache.num_rows)
    (failed : cache.read_access port mem a size value followup available = .error e) :
    cache.ReadFails a size followup e := by
  obtain ⟨found,looked⟩ := looked
  unfold read_access at failed
  split at failed
  · rename_i off
    cases failed
    exact .inside_word off
  rcases bind_error.mp failed with failed | ⟨⟨row,cache₁,mem₁⟩,read,failed⟩
  · rw [read_row,looked,ok_bind] at failed
    cases found with
    | some row => cases failed
    | none =>
      simp only at failed
      split at failed
      · cases failed
      rcases bind_error.mp failed with failed | ⟨⟨victim,cache₁,mem₁⟩,evicted,failed⟩
      · exact .polls (evict_read_polled answering chosen inside failed)
      · obtain ⟨r,rfl,⟨rfl,_⟩ | ⟨rfl,_,_⟩⟩ := evict_read_effect port chosen evicted
        · cases failed
        · simp only [row_setRow inside] at failed
          cases failed
  · have type := read_row_type chosen read
    simp only at failed
    split at failed
    · cases failed
    split at failed
    · rename_i past
      cases failed
      exact .past_row (type ▸ past)
    split at failed
    · cases failed
    · rename_i unknown
      cases failed
      exact .unknown_size unknown

theorem data_read_error {cache : CacheTable} (params : IsDataCache cache) {mem : σ} {a size value : U64}
    {followup available : Bool} {e : Abort}
    (failed : cache.read_access port mem a size value followup available = .error e) :
    cache.ReadFails a size followup e := by
  have bound := index_lt params a
  exact read_access_error answering ⟨_,lookup_data params _ _ _⟩ (victim_first params bound)
    (victimOf_inside params bound) failed

theorem data_write_error {cache : CacheTable} (params : IsDataCache cache) {mem : σ} {a data : U64} {size : U8}
    {followup available : Bool} {e : Abort}
    (failed : cache.write_access port mem a data size followup available = .error e) :
    cache.WriteFails a size followup e := by
  have bound := index_lt params a
  have inside := victimOf_inside params bound
  rw [write_access_data port params] at failed
  split at failed
  · unfold store_hit at failed
    split at failed
    · rename_i past
      cases failed
      exact .past_row past
    · cases failed
  rw [evict_write,if_neg (not_not_intro params.type),victim_first params bound,ok_bind] at failed
  rcases bind_error.mp failed with failed | ⟨⟨found,cache₁,mem₁⟩,placed,failed⟩
  · unfold write_row at failed
    split at failed
    · split at failed
      · cases failed
      rcases bind_error.mp failed with failed | ⟨⟨victim,cache₁,mem₁⟩,-,failed⟩
      · -- the rule is applied to its own choice
        have chosen := victim_victimOf params bound
        split at chosen
        · rw [evict_read,chosen] at failed
          cases failed
          exact .third_way
        · exact .polls (evict_read_polled answering chosen inside failed)
      · simp only at failed
        split at failed <;> cases failed
    · rw [row_inside inside,ok_bind] at failed
      split at failed
      · cases failed
      rcases bind_error.mp failed with failed | ⟨_,_,failed⟩
      · exact .polls (clean_row_polled inside failed)
      · cases failed
  · obtain ⟨r,rfl,⟨_,rfl,_⟩ | rfl⟩ := write_row_effect port (victim_again params bound) placed
    · cases failed
    · simp only [row_setRow inside] at failed
      cases failed

/-- Nothing is written back for a fetch. -/
theorem instruction_read_error {cache : CacheTable} (params : IsInstructionCache cache) {mem : σ} {a value : U64}
    {followup available : Bool} {e : Abort}
    (failed : cache.read_access port mem a 4 value followup available = .error e) :
    e = .misaligned_cache_access ∧ cache.subindexOf a &&& 3 ≠ 0 := by
  have below := index_below params.splits a
  have inside : (cache.indexOf a).toNat < cache.num_rows := by
    rw [num_rows,params.type]
    simpa using below
  have direct : cache.victim (cache.indexOf a) = .ok (cache.indexOf a) := by simp only [victim,params.type]; rfl
  have looked : ∃ found, cache.lookup (cache.indexOf a) (cache.tagOf a) (cache.subindexOf a >>> 2).toNat 4 =
      .ok found := by
    rw [lookup,row_inside inside,ok_bind]
    simp only [params.type]
    exact ⟨_,rfl⟩
  cases read_access_error answering looked direct inside failed with
  | inside_word off => exact ⟨rfl,off⟩
  | past_row past => exact absurd past (word_inside params a)
  | unknown_size unknown => exact absurd (.inr (.inr (.inl rfl))) unknown
  | polls polled => exact absurd (params.type.symm.trans polled.2.2.1) (by decide)

end CacheTable
end

/-! ### Stages -/

section
variable {σ ι : Type} {ms : MemorySystem σ ι}

theorem translate_error {mem : σ} {locals : ι} {m : StageRegM} {new_w_reg : StageRegW} {code : U8} {e : Abort}
    (failed : translate ms mem locals m new_w_reg code = .error e) :
    ms.dtlb_address mem locals (m.address.setWidth 32) m.walk_status = .error e := by
  unfold translate at failed
  rcases bind_error.mp failed with failed | ⟨_,-,failed⟩
  · exact failed
  · simp only at failed
    split at failed <;> cases failed

/-- The memory stage fails in the TLB, or in the cache behind a finished translation. -/
inductive AccessFails (ms : MemorySystem σ ι) (mem : σ) (locals : ι) (m : StageRegM) (e : Abort) : Prop
  | walk (op : m.Accesses) (failed : ms.dtlb_address mem locals (m.address.setWidth 32) m.walk_status = .error e)
  | load (op : m.readWrite = .memory_read) (status : U8) (physical_address : U32) (mem' : σ)
    (translated : Translates ms mem locals m status physical_address mem') (finished : status = 0xFE ∨ status = 0xFF)
    (value : U64)
    (failed : ms.data_read mem' physical_address m.size value (m.wasStalled == 1) (status == 0xFE) = .error e)
  | store (op : m.readWrite = .memory_write) (status : U8) (physical_address : U32) (mem' : σ)
    (translated : Translates ms mem locals m status physical_address mem') (finished : status = 0xFE ∨ status = 0xFF)
    (failed : ms.data_write mem' physical_address m.value m.size (m.wasStalled == 1) (status == 0xFE) = .error e)

theorem stage_memory_error {mem : σ} {locals : ι} {m : StageRegM} {w new_w_reg : StageRegW} {e : Abort}
    (failed : stage_memory ms mem locals m w new_w_reg = .error e) :
    ¬ w.tainted_executions > 0 ∧ AccessFails ms mem locals m e := by
  unfold stage_memory at failed
  split at failed
  · cases failed
  rename_i clean
  refine ⟨clean,?_⟩
  cases op : m.readWrite with
  | nop =>
    simp only [op] at failed
    cases failed
  | register_write =>
    simp only [op] at failed
    cases failed
  | memory_read =>
    simp only [op] at failed
    rcases bind_error.mp failed with failed | ⟨_,-,failed⟩
    · rcases bind_error.mp failed with failed | ⟨⟨outcome,mem'⟩,translated,failed⟩
      · exact .walk (.inl op) (translate_error failed)
      · obtain ⟨status,physical_address,asked,(⟨-,same⟩ | ⟨finished,same⟩)⟩ := translate_cases translated
        · cases same
          cases failed
        · cases same
          rcases bind_error.mp failed with failed | ⟨⟨missed,value,mem''⟩,-,failed⟩
          · exact .load op status physical_address mem' asked finished _ failed
          · simp only at failed
            split at failed <;> cases failed
    · cases failed
  | memory_write =>
    simp only [op] at failed
    rcases bind_error.mp failed with failed | ⟨_,-,failed⟩
    · rcases bind_error.mp failed with failed | ⟨⟨outcome,mem'⟩,translated,failed⟩
      · exact .walk (.inr op) (translate_error failed)
      · obtain ⟨status,physical_address,asked,(⟨-,same⟩ | ⟨finished,same⟩)⟩ := translate_cases translated
        · cases same
          cases failed
        · cases same
          rcases bind_error.mp failed with failed | ⟨⟨missed,mem''⟩,-,failed⟩
          · exact .store op status physical_address mem' asked finished failed
          · simp only at failed
            split at failed <;> cases failed
    · cases failed

theorem stage_fetch_error {mem : σ} {locals : ι} {d new_d_reg : StageRegD} {pc : U64} {table : BranchTable} {e : Abort}
    (failed : stage_fetch ms mem locals d new_d_reg pc table = .error e) :
    ms.itlb_address mem locals (pc.setWidth 32) d.walk_status = .error e ∨
      ∃ status physical_pc mem', ms.itlb_address mem locals (pc.setWidth 32) d.walk_status =
        .ok (status,physical_pc,mem') ∧ (status = 0xFE ∨ status = 0xFF) ∧
        ms.instruction_read mem' physical_pc new_d_reg.instruction (d.will_be_stalled == 1) (status == 0xFE) =
          .error e := by
  unfold stage_fetch at failed
  rcases bind_error.mp failed with failed | ⟨⟨status,physical_pc,mem'⟩,translated,failed⟩
  · exact .inl failed
  refine .inr ⟨status,physical_pc,mem',translated,?_⟩
  simp only at failed
  split at failed
  · cases failed
  rename_i finished
  rcases bind_error.mp failed with failed | ⟨_,-,failed⟩
  · exact ⟨by tauto,failed⟩
  · split at failed <;> cases failed

theorem stage_execute_error {x : StageRegX} {m : StageRegM} {w : StageRegW} {new_m_reg : StageRegM} {pc : U64}
    {table : BranchTable} {e : Abort} (failed : stage_execute x m w new_m_reg pc table = .error e) :
    (w.global_memory_stall = 0 ∧ x.not_stalled = true ∧ ¬ m.tainted_executions > 0) ∧
      dispatch x.instruction ⟨x.rs1_value,x.rs2_value⟩ (x.pc + 4) (new_m_reg.idle x.pc 0) = .error e := by
  unfold stage_execute at failed
  split at failed
  · cases failed
  rename_i flows
  simp only at failed
  split at failed
  · cases failed
  rename_i holds
  split at failed
  · cases failed
  rename_i clean
  split at failed
  · cases failed
  rcases bind_error.mp failed with failed | ⟨_,-,failed⟩
  · exact ⟨⟨not_not.mp flows,by simpa using holds,clean⟩,failed⟩
  · cases failed

end

/-! ### Instructions -/

theorem Handles.error {opcode : BitVec 7} {h : Handler} (handles : Handles opcode h) {i : Instruction} {x : Operands}
    {r : Execution} {e : Abort} (failed : h i x r = .error e) : e = .division_trap := by
  cases handles with
  | division type test traps value =>
    rw [divides_eq] at failed
    split at failed <;> cases failed
    rfl
  | branch taken =>
    rw [branch_eq] at failed
    cases failed
  | jalr =>
    obtain ⟨r',returned⟩ := (ranged_jalr.returns r).mpr trivial
    cases returned.symm.trans failed
  | _ => cases failed

/-- Only a division fails in execute, and one that is out of range. -/
theorem dispatch_error {i : Instruction} {x : Operands} {pc : U64} {m : StageRegM} {e : Abort}
    (failed : dispatch i x pc m = .error e) :
    e = .division_trap ∧ ¬ DivisionsInRange i x := by
  constructor
  · obtain ⟨h,same,handles⟩ := major_chooses i.opcode i
    rw [dispatch,same] at failed
    exact handles.error failed
  · intro ranged
    obtain ⟨r,returned⟩ := (ranged_major.returns ⟨pc,m,[],false⟩).mpr ranged
    cases returned.symm.trans failed

/-- A load of a size that a cache knows. -/
def StageRegM.Sized (m : StageRegM) : Prop := m.readWrite = .memory_read → m.size = 1 ∨ m.size = 2 ∨
    m.size = 4 ∨ m.size = 8

theorem Handles.loadless {opcode : BitVec 7} {h : Handler} (handles : Handles opcode h) (other : opcode ≠ 0b0000011) :
    Loadless h := by
  cases handles with
  | load => exact absurd rfl other
  | lui => exact loadless_writes _
  | immediate => exact loadless_writes _
  | register => exact loadless_writes _
  | immediate_shift => exact loadless_shifts _ _ _
  | register_shift => exact loadless_shifts _ _ _
  | division => exact loadless_divides _ _ _
  | illegal => exact loadless_illegal
  | jalr =>
    intro i x e r nop handled
    rw [jalr_register_write handled]
    exact nofun
  | branch taken =>
    intro i x e r nop handled
    rw [branch_eq] at handled
    cases handled
    exact fun load => nomatch nop.symm.trans load
  | nop =>
    intro i x e r nop handled
    cases handled
    exact fun load => nomatch nop.symm.trans load
  | _ =>
    intro i x e r nop handled
    cases handled
    exact nofun

theorem load_dispatch_sizes (i : Instruction) : riscv_load_dispatch i = riscv_illegal_instruction i ∨
    ∃ size signExtend, riscv_load_dispatch i = load size signExtend i ∧
    (size = 1 ∨ size = 2 ∨ size = 4 ∨ size = 8) := by
  unfold riscv_load_dispatch
  split
  all_goals first
    | exact .inr ⟨_,_,rfl,by decide⟩
    | exact .inl rfl

theorem dispatch_sized {i : Instruction} {x : Operands} {pc : U64} {m : StageRegM} {e : Execution}
    (nop : m.readWrite = .nop) (handled : dispatch i x pc m = .ok e) : e.m.Sized := by
  intro load
  by_cases opcode : i.opcode = 0b0000011
  · have handled : riscv_load_dispatch i x ⟨pc,m,[],false⟩ = .ok e := by rwa [dispatch,opcode] at handled
    rcases load_dispatch_sizes i with illegal | ⟨size,signExtend,same,sizes⟩
    · rw [illegal] at handled
      exact absurd load (loadless_illegal i x _ e nop handled)
    · rw [same] at handled
      cases handled
      exact sizes
  · obtain ⟨h,same,handles⟩ := major_chooses i.opcode i
    rw [dispatch,same] at handled
    exact absurd load (handles.loadless opcode i x _ e nop handled)

/-! ### Cycles -/

theorem executes_sized {x : StageRegX} {m : StageRegM} {w : StageRegW} {new_m_reg : StageRegM} {pc : U64}
    {table : BranchTable} {r : StageRegM × U64 × BranchTable × Option (U64 × U32)}
    (executed : Executes x m w new_m_reg pc table r) (saved : w.global_memory_stall ≠ 0 → w.memory_register.Sized) :
    r.1.Sized := by
  cases executed with
  | replays stall => exact saved stall
  | dispatches flows holds clean word e handled =>
    have sized := dispatch_sized rfl handled
    dsimp only
    split_ifs
    · exact sized
    · exact sized
  | _ => exact nofun

theorem accesses_sized {σ ι : Type} {ms : MemorySystem σ ι} {mem : σ} {locals : ι} {m : StageRegM}
    {w new_w_reg : StageRegW} {r : StageRegW × Option (U64 × U8 × U64) × σ}
    (accessed : Accesses ms mem locals m w new_w_reg r) (sized : m.Sized) :
    r.1.global_memory_stall ≠ 0 → r.1.memory_register.Sized := by
  cases accessed with
  | walks => exact fun _ => sized
  | load_misses => exact fun _ => sized
  | store_misses => exact fun _ => sized
  | _ => exact fun stall => absurd rfl stall

/-- The loads in the pipeline, the one that waits included, are of sizes that a cache knows. -/
structure Pipeline.Sized {σ : Type} (p : Pipeline σ) : Prop where
  m : p.cur_m_reg.Sized
  saved : p.cur_w_reg.global_memory_stall ≠ 0 → p.cur_w_reg.memory_register.Sized

theorem cycle_sized {σ ι : Type} {ms : MemorySystem σ ι} {c c' : Pipeline σ × List Events} {locals : ι}
    (sized : c.1.Sized) (stepped : cycle ms c locals = .ok c') : c'.1.Sized := by
  rcases cycle_cases stepped with ⟨inst,rfl⟩ | ⟨inst,p,events,ran,rfl⟩
  · exact ⟨sized.m,sized.saved⟩
  obtain ⟨memory_mem,execute_pc,decode_pc,fetch_mem,staged⟩ := stages_staged ran
  exact ⟨executes_sized staged.execute sized.saved,accesses_sized staged.memory sized.m⟩

/-- The slices of the address that a walk compares at its end differ. -/
def FarPage (va : U32) : Prop := va.toNat / 131072 ≠ va.toNat / 16384 % 8

/-- The instruction that an abort in the next cycle is due to: a division in execute that the test lets through; a
    load, or a fetch, inside a word; a store for which the data cache looks for a third way; an access that runs
    past its block; an access, or a fetch, in a group of pages that the TLB cannot enter, or that polls for an entry
    of the page table; and an access that polls a write-back. A size that is not known is never the reason. -/
def Pipeline.Blames (p : Pipeline (MemoryState Framework)) : Abort → Prop
  | .division_trap =>
    (p.cur_w_reg.global_memory_stall = 0 ∧ p.cur_x_reg.not_stalled = true ∧ ¬ p.cur_m_reg.tainted_executions > 0) ∧
      ¬ DivisionsInRange p.cur_x_reg.instruction ⟨p.cur_x_reg.rs1_value,p.cur_x_reg.rs2_value⟩
  | .misaligned_cache_access =>
      (p.cur_m_reg.readWrite = .memory_read ∧ ¬ p.cur_w_reg.tainted_executions > 0) ∧
      p.cur_m_reg.address.toNat % 4 ≠ 0 ∨ ∃ pc, p.fetch_pc = .ok pc ∧ pc.toNat % 4 ≠ 0
  | .rows_subscript => (p.cur_m_reg.readWrite = .memory_write ∧ ¬ p.cur_w_reg.tainted_executions > 0) ∧
      ∃ physical_address : U32, p.mem.data_cache.ThirdWay
        ⟨.write p.cur_m_reg.value,physical_address.setWidth 64,p.cur_m_reg.size,p.cur_m_reg.wasStalled == 1,true⟩
  | .data_subscript => (p.cur_m_reg.Accesses ∧ ¬ p.cur_w_reg.tainted_executions > 0) ∧
      8 < p.cur_m_reg.address.toNat % 8 + p.cur_m_reg.size.toNat
  | .local_overrun =>
      (p.cur_m_reg.Accesses ∧ ¬ p.cur_w_reg.tainted_executions > 0) ∧
      (p.cur_m_reg.walk_status = 0 ∨ p.cur_m_reg.walk_status = 1) ∨
        p.cur_d_reg.walk_status = 0 ∨ p.cur_d_reg.walk_status = 1
  | .superpage_tlb_index_mismatch =>
      (p.cur_m_reg.Accesses ∧ ¬ p.cur_w_reg.tainted_executions > 0) ∧ FarPage (p.cur_m_reg.address.setWidth 32) ∨
        ∃ pc, p.fetch_pc = .ok pc ∧ FarPage (pc.setWidth 32)
  | .null_pointer => (p.cur_m_reg.Accesses ∧ ¬ p.cur_w_reg.tainted_executions > 0) ∧ p.cur_m_reg.wasStalled = 1 ∧
      ∃ i, (p.mem.data_cache.rows i).dirty = true
  | .illegal_cache_access_size => False

/-- What either TLB gives up at. -/
theorem walk_error {t : Tlb} {ptbr : U64} {framework : Framework} {va out : U32} {status : U8}
    {locals : TlbLocals} {e : Abort}
    (failed : t.get_address Framework.port ptbr framework va out status locals = .error e) :
    e = .superpage_tlb_index_mismatch ∧ FarPage va ∨ e = .local_overrun ∧ (status = 0 ∨ status = 1) :=
  (get_address_error Framework.port_answering failed).imp
    (And.imp_right fun far same => far ((PageTables.slices_iff va).mpr same)) id

/-- A finished translation keeps the place in a block. -/
theorem translation_place (t : Tlb) (a : U64) :
    ((t.translation (a.setWidth 32)).setWidth 64 : U64).toNat % 8 = a.toNat % 8 := by
  have same := t.translation_mod (a.setWidth 32)
  simp only [BitVec.toNat_setWidth] at same ⊢
  omega
theorem translation_off {t : Tlb} {a : U64} (off : ((t.translation (a.setWidth 32)).setWidth 64 : U64).toNat % 4 ≠ 0) :
    a.toNat % 4 ≠ 0 := by
  have place := translation_place t a
  omega

/-- Words or bytes past a data row are those of an access that runs past its block. -/
theorem CacheTable.read_past {cache : CacheTable} (params : IsDataCache cache) {a : U64} {size : U8}
    (sizes : size = 1 ∨ size = 2 ∨ size = 4 ∨ size = 8)
    (past : cache.cache_type.Overrun (4 * (cache.subindexOf a >>> 2).toNat) (CacheRow.hit_bytes (size.setWidth 64))) :
    8 < a.toNat % 8 + size.toNat := by
  rw [CacheType.Overrun,params.type,subindexOf_word params] at past
  rcases sizes with rfl | rfl | rfl | rfl <;> simp [CacheType.row_bytes,CacheRow.hit_bytes] at past ⊢ <;> omega
theorem CacheTable.write_past {cache : CacheTable} (params : IsDataCache cache) {a : U64} {size : U8}
    (past : cache.cache_type.Overrun (cache.subindexOf a).toNat size.toNat) : 8 < a.toNat % 8 + size.toNat := by
  rwa [CacheType.Overrun,params.type,subindexOf_toNat params] at past

section
variable {p : Pipeline (MemoryState Framework)} {tlb : Tlb} {framework : Framework} {available : Bool} {e : Abort}
  (built : p.mem.Built) (clean : ¬ p.cur_w_reg.tainted_executions > 0)
include built clean

theorem load_blamed (sized : p.Sized) (op : p.cur_m_reg.readWrite = .memory_read) {value : U64}
    (failed : p.mem.data_cache.read_access Framework.port framework
      ((tlb.translation (p.cur_m_reg.address.setWidth 32)).setWidth 64) (p.cur_m_reg.size.setWidth 64) value
      (p.cur_m_reg.wasStalled == 1) available = .error e) :
    p.Blames e := by
  cases CacheTable.data_read_error Framework.port_answering built.data_cache failed with
  | inside_word off =>
    exact .inl ⟨⟨op,clean⟩,translation_off ((not_congr (CacheTable.subindexOf_words built.data_cache _)).mp off)⟩
  | past_row past =>
    refine ⟨⟨.inl op,clean⟩,?_⟩
    rw [← translation_place tlb]
    exact CacheTable.read_past built.data_cache (sized.m op) past
  | unknown_size unknown =>
    refine unknown ?_
    rcases sized.m op with size | size | size | size
    · rw [size]; exact .inl rfl
    · rw [size]; exact .inr (.inl rfl)
    · rw [size]; exact .inr (.inr (.inl rfl))
    · rw [size]; exact .inr (.inr (.inr rfl))
  | polls polled =>
    obtain ⟨rfl,waited,-,dirty⟩ := polled
    exact ⟨⟨.inl op,clean⟩,beq_iff_eq.mp waited,dirty⟩

theorem store_blamed (op : p.cur_m_reg.readWrite = .memory_write)
    (failed : p.mem.data_cache.write_access Framework.port framework
      ((tlb.translation (p.cur_m_reg.address.setWidth 32)).setWidth 64) p.cur_m_reg.value p.cur_m_reg.size
      (p.cur_m_reg.wasStalled == 1) available = .error e) :
    p.Blames e := by
  cases CacheTable.data_write_error Framework.port_answering built.data_cache failed with
  | third_way =>
    have third := (CacheTable.write_access_subscripts Framework.port built.data_cache
      (c := ⟨.write p.cur_m_reg.value,(tlb.translation (p.cur_m_reg.address.setWidth 32)).setWidth 64,
        p.cur_m_reg.size,p.cur_m_reg.wasStalled == 1,available⟩) rfl).mp failed
    obtain rfl : available = true := third.2.2.1
    exact ⟨⟨op,clean⟩,tlb.translation (p.cur_m_reg.address.setWidth 32),third⟩
  | past_row past =>
    refine ⟨⟨.inr op,clean⟩,?_⟩
    rw [← translation_place tlb]
    exact CacheTable.write_past built.data_cache past
  | polls polled =>
    obtain ⟨rfl,waited,-,dirty⟩ := polled
    exact ⟨⟨.inr op,clean⟩,beq_iff_eq.mp waited,dirty⟩

end

theorem memory_blamed {p : Pipeline (MemoryState Framework)} {locals : CalleeLocals} {e : Abort} (built : p.mem.Built)
    (sized : p.Sized)
    (failed : stage_memory simulator (simulator.enter p.mem .M) locals p.cur_m_reg p.cur_w_reg
      p.new_w_reg = .error e) : p.Blames e := by
  obtain ⟨clean,fails⟩ := stage_memory_error failed
  cases fails with
  | walk op failed =>
    rcases bind_error.mp failed with failed | ⟨_,-,failed⟩
    · rcases walk_error failed with ⟨rfl,far⟩ | ⟨rfl,polls⟩
      · exact .inl ⟨⟨op,clean⟩,far⟩
      · exact .inl ⟨⟨op,clean⟩,polls⟩
    · cases failed
  | load op status physical_address mem' translated finished value failed =>
    obtain ⟨tlb,framework,asked,rfl⟩ := dtlb_address_moved translated
    obtain ⟨-,rfl⟩ := Tlb.get_address_finished asked finished
    rcases bind_error.mp failed with failed | ⟨_,-,failed⟩
    · exact load_blamed built clean sized op failed
    · cases failed
  | store op status physical_address mem' translated finished failed =>
    obtain ⟨tlb,framework,asked,rfl⟩ := dtlb_address_moved translated
    obtain ⟨-,rfl⟩ := Tlb.get_address_finished asked finished
    rcases bind_error.mp failed with failed | ⟨_,-,failed⟩
    · exact store_blamed built clean op failed
    · cases failed

theorem fetch_blamed {p : Pipeline (MemoryState Framework)} {mem : MemoryState Framework} {locals : CalleeLocals}
    {pc : U64} {table : BranchTable} {e : Abort} (params : IsInstructionCache mem.instruction_cache)
    (here : p.fetch_pc = .ok pc)
    (failed : stage_fetch simulator (simulator.enter mem .F) locals p.cur_d_reg p.new_d_reg pc table = .error e) :
    p.Blames e := by
  rcases stage_fetch_error failed with failed | ⟨status,physical_pc,mem',translated,finished,failed⟩
  · rcases bind_error.mp failed with failed | ⟨_,-,failed⟩
    · rcases walk_error failed with ⟨rfl,far⟩ | ⟨rfl,polls⟩
      · exact .inr ⟨pc,here,far⟩
      · exact .inr polls
    · cases failed
  · obtain ⟨tlb,framework,asked,rfl⟩ := itlb_address_moved translated
    obtain ⟨-,rfl⟩ := Tlb.get_address_finished asked finished
    rcases bind_error.mp failed with failed | ⟨_,-,failed⟩
    · obtain ⟨rfl,off⟩ := CacheTable.instruction_read_error Framework.port_answering params failed
      exact .inr ⟨pc,here,translation_off ((not_congr (CacheTable.subindexOf_instruction_words params _)).mp off)⟩
    · cases failed

theorem stages_blamed {p : Pipeline (MemoryState Framework)} {locals : CalleeLocals} {e : Abort} (built : p.mem.Built)
    (sized : p.Sized) (failed : stages simulator p locals = .error e) : p.Blames e := by
  unfold stages at failed
  rcases bind_error.mp failed with failed | ⟨⟨w,stored,mem⟩,memory,failed⟩
  · exact memory_blamed built sized failed
  rcases bind_error.mp failed with failed | ⟨⟨m,pc,table,dispatched⟩,execute,failed⟩
  · obtain ⟨live,failed⟩ := stage_execute_error failed
    obtain ⟨rfl,out⟩ := dispatch_error failed
    exact ⟨live,out⟩
  rcases bind_error.mp failed with failed | ⟨_,-,failed⟩
  · have moved := accesses_moved (stage_memory_accesses memory)
    refine fetch_blamed (moved.instruction_cache ▸ built.instruction_cache) ?_ failed
    rw [Pipeline.fetch_pc,execute]
    rfl
  · cases failed

/-- An abort in a cycle is due to an instruction in the pipeline. -/
theorem cycle_blamed {c : Pipeline (MemoryState Framework) × List Events} {locals : CalleeLocals} {e : Abort}
    (built : c.1.mem.Built) (sized : c.1.Sized) (failed : cycle simulator c locals = .error e) : c.1.Blames e := by
  unfold cycle at failed
  simp only at failed
  split at failed
  · cases failed
  rcases bind_error.mp failed with failed | ⟨_,-,failed⟩
  · have blames := stages_blamed (p := { c.1 with inst := simulator.inst_at c.1.mem c.1.program_counter c.1.inst })
      built ⟨sized.m,sized.saved⟩ failed
    cases e <;> exact blames
  · cases failed

/-! ### Runs and sessions -/

/-- What an abort is found by: the caches are as constructed, and the loads in the pipeline of sizes that there are. -/
structure Pipeline.Ready (p : Pipeline (MemoryState Framework)) : Prop where
  built : p.mem.Built
  sized : p.Sized

theorem run_ready {c c' : Pipeline (MemoryState Framework) × List Events} {inputs : List CalleeLocals}
    (ready : c.1.Ready) (ran : run (cycle simulator) c inputs = .ok c') : c'.1.Ready :=
  run_invariant (fun c : Pipeline (MemoryState Framework) × List Events => c.1.Ready)
    (fun _ _ _ ready stepped => ⟨cycle_built ready.built stepped,cycle_sized ready.sized stepped⟩) ready ran

/-- A run aborts in a cycle with an instruction to blame. -/
theorem run_blamed {c : Pipeline (MemoryState Framework) × List Events} {inputs : List CalleeLocals} {e : Abort}
    (ready : c.1.Ready) (failed : run (cycle simulator) c inputs = .error e) :
    ∃ k c' locals, inputs[k]? = some locals ∧ run (cycle simulator) c (inputs.take k) = .ok c' ∧
      cycle simulator c' locals = .error e ∧ c'.1.Blames e := by
  obtain ⟨before,locals,after,c',rfl,ran,stopped⟩ := run_error failed
  have ready := run_ready ready ran
  refine ⟨before.length,c',locals,by simp,?_,stopped,cycle_blamed ready.built ready.sized stopped⟩
  rw [List.take_left]
  exact ran

theorem ready_moves {u : Unknowns} {c c' : Pipeline (MemoryState Framework) × List Events} (ready : c.1.Ready)
    (moves : Moves u c c') :
    c'.1.Ready := by
  obtain ⟨⟨instructions,data⟩,⟨m,saved⟩⟩ := ready
  cases moves with
  | restarts p log => exact ⟨⟨instructions,data⟩,⟨nofun,fun stall => absurd rfl stall⟩⟩
  | runs p log n_steps c _ _ ran =>
    have entered : (p.entered u.buffers).Ready := ⟨⟨instructions,data⟩,⟨m,saved⟩⟩
    exact run_ready (c := (p.entered u.buffers,log)) entered ran
  | _ => exact ⟨⟨instructions,data⟩,⟨m,saved⟩⟩

/-- Only a `run` aborts. -/
theorem execute_aborts {u : Unknowns} {words : List (List Char)} {s : Session} {command : Command} {e : Abort}
    (failed : command.execute u words s = .error (.abort e)) :
    ∃ n_steps, simulator_execute_instructions u n_steps s.pipeline s.log = .error e := by
  cases command with
  | run =>
    have failed : execute_run u words s = .error (.abort e) := failed
    unfold execute_run at failed
    split at failed
    · cases failed
    dsimp only at failed
    split_ifs at failed
    split at failed
    · rename_i cause stopped
      cases failed
      exact ⟨_,stopped⟩
    · cases failed
  | load =>
    have failed : execute_load u words s = .error (.abort e) := failed
    unfold execute_load at failed
    split at failed
    · cases failed
    · dsimp only at failed
      split_ifs at failed
      cases failed
  | dump =>
    have failed : execute_dump u words s = .error (.abort e) := failed
    unfold execute_dump at failed
    split at failed
    · dsimp only at failed
      split_ifs at failed
      split at failed
      · cases failed
      · split_ifs at failed
    · cases failed
  | readreg =>
    have failed : execute_readreg words s = .error (.abort e) := failed
    unfold execute_readreg at failed
    split at failed
    · cases failed
    · dsimp only at failed
      split_ifs at failed
  | _ => cases failed

theorem line_aborts {line : Line} {s : Session} {e : Abort} (failed : obey line s = .error (.abort e)) :
    ∃ n_steps, simulator_execute_instructions line.1 n_steps s.pipeline s.log = .error e := by
  unfold obey execute_line at failed
  split at failed
  · cases failed
  split at failed
  · cases failed
  rename_i words _ command _
  cases executed : command.execute line.1 _ s with
  | ok t =>
    rw [executed] at failed
    cases failed
  | error ending =>
    rw [executed] at failed
    cases failed
    exact execute_aborts executed

/-- The cycle in which a session aborts has an instruction to blame. The session is that of the lines before, and
    the run that aborts that of the line behind them, up to the cycle. -/
theorem session_aborts_blamed (outside : U64 → Byte) (read_latency write_latency : U64) (buffers : LoopLocals)
    (files : String → Option (List Char)) (writable : String → Bool) (stdin : List Char)
    (script : List Line) (e : Abort)
    (failed : session obey script (.initial outside read_latency write_latency buffers files writable stdin) =
      .error (.abort e)) :
    ∃ before line after s n_steps k c, script = before ++ line :: after ∧
      session obey before (.initial outside read_latency write_latency buffers files writable stdin) = .ok (true,s) ∧
      simulator_execute_instructions line.1 n_steps s.pipeline s.log = .error e ∧ k < n_steps.toNat ∧
      run (cycle simulator) (s.pipeline.entered line.1.buffers,s.log) ((List.range k).map line.1.locals) = .ok c ∧
      cycle simulator c (line.1.locals k) = .error e ∧ c.1.Blames e := by
  obtain ⟨before,line,after,s,rfl,ran,stopped⟩ := session_error failed
  have start : (Session.initial outside read_latency write_latency buffers files writable stdin).pipeline.Ready :=
    ⟨⟨isInstructionCache_construct,CacheTable.isDataCache_construct⟩,⟨nofun,fun stall => absurd rfl stall⟩⟩
  have ready : s.pipeline.Ready := session_invariant (fun s => s.pipeline.Ready) start
    (fun _ _ _ _ _ ready obeyed => ready_moves ready (line_moves obeyed)) ran
  obtain ⟨n_steps,aborts⟩ := line_aborts stopped
  have entered : (s.pipeline.entered line.1.buffers).Ready := ⟨ready.built,⟨ready.sized.m,ready.sized.saved⟩⟩
  obtain ⟨k,c,locals,here,ran',last,blames⟩ :=
    run_blamed (c := (s.pipeline.entered line.1.buffers,s.log)) entered aborts
  obtain ⟨few,rfl⟩ : k < n_steps.toNat ∧ line.1.locals k = locals := by
    rw [List.getElem?_map,Option.map_eq_some_iff] at here
    obtain ⟨i,inside,rfl⟩ := here
    obtain ⟨few,same⟩ := List.getElem?_eq_some_iff.mp inside
    rw [List.getElem_range] at same
    exact ⟨by simpa using few,by rw [same]⟩
  rw [← List.map_take,List.take_range,Nat.min_eq_left (Nat.le_of_lt few)] at ran'
  exact ⟨before,line,after,s,n_steps,k,c,rfl,ran,aborts,few,ran',last,blames⟩

/-- `lb t0,1(x0)` and page tables for the first page. -/
def byteSession : Session := .initial (fun _ => 0) 1 1 noUnknowns.buffers
  (fun _ => some "0 83 02 10 00\n10000 02 00 00 80\n20000 00 00 00 80\n".toList) (fun _ => true) []
def byteScript : List Line := ["load /x 0 image\n","setptbr 0x1000\n","run 16\n"].map fun l => (noUnknowns,l.toList)

/-- The load of a byte is to blame. -/
theorem session_aborts_blamed_byte : ∃ c : Pipeline (MemoryState Framework) × List Events,
    session obey byteScript byteSession = .error (.abort .misaligned_cache_access) ∧
    c.1.Blames .misaligned_cache_access := by
  have failed : session obey byteScript byteSession = .error (.abort .misaligned_cache_access) :=
    errorIs_iff.mp (by decide +kernel)
  obtain ⟨_,_,_,_,_,_,c,-,-,-,-,-,-,blames⟩ := session_aborts_blamed _ 1 1 _ _ _ _ byteScript _ failed
  exact ⟨c,failed,blames⟩

end RiscvSim
