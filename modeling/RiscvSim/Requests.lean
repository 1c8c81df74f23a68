import RiscvSim.TlbWalk
import RiscvSim.InstructionCache

/-!
What a call asks of memory. A request is answered at once or takes a slot; a step of a walk
reads one entry of the page table, and an access of the data cache that has no dirty row to
evict reads or writes one block. Which request comes next, and whether it is a poll of an
earlier one, can be told from the state before the call.
-/
namespace RiscvSim
open Bytes Runs

/-! ### Requests to the framework -/
namespace Framework

/-- What counts for the table is the same: memory, the counters and the accesses of the cycle
    may differ. -/
structure SameTable (fw fw' : Framework) : Prop where
  pending : fw'.memory_pending = fw.memory_pending
  stage : fw'.current_stage = fw.current_stage
  ptbr : fw'.ptbr = fw.ptbr
  size : fw'.riscv_mem_size = fw.riscv_mem_size
  cycle : fw'.cycle_counter = fw.cycle_counter
  read_latency : fw'.memory_read_latency = fw.memory_read_latency
  write_latency : fw'.memory_write_latency = fw.memory_write_latency

theorem sameTable_refl (fw : Framework) : SameTable fw fw := ⟨rfl,rfl,rfl,rfl,rfl,rfl,rfl⟩

/-- What comes before a request takes a slot: it is inside memory, and the first of its stage in the cycle. -/
structure Takes (fw fw' : Framework) (a n : U64) : Prop where
  same : SameTable fw fw'
  proper : ¬ a + n > fw.riscv_mem_size
  free : fw.current_stage ∉ fw.memory_accesses_issued
  issued : fw'.memory_accesses_issued = fw.current_stage :: fw.memory_accesses_issued

/-- A read is answered at once and leaves the table alone, or it asks for a slot. -/
theorem memory_read_cases (fw : Framework) (a : U64) (v : Buffer) (n : U64) :
    (∃ v' fw', fw.memory_read a v n = (true,v',fw') ∧ SameTable fw fw') ∨
      ∃ v' s, fw.memory_read a v n = (false,v',(s.memory_add_pending a n .READ).2) ∧ Takes fw s a n := by
  unfold memory_read
  split
  · exact .inl ⟨_,_,rfl,sameTable_refl fw⟩
  rename_i proper
  split
  · exact .inl ⟨_,_,rfl,sameTable_refl fw⟩
  rename_i turn
  simp only
  split
  · exact .inl ⟨_,_,rfl,⟨rfl,rfl,rfl,rfl,rfl,rfl,rfl⟩⟩
  · exact .inr ⟨_,_,rfl,⟨rfl,rfl,rfl,rfl,rfl,rfl,rfl⟩,fun past => proper (.inr (.inr (.inl past))),fun issued =>
      turn (.inr issued),rfl⟩

theorem memory_load_same (fw : Framework) (region : Buffer) (base size : U64) :
    SameTable fw (fw.memory_load region base size).2 := by
  unfold memory_load
  split <;> exact ⟨rfl,rfl,rfl,rfl,rfl,rfl,rfl⟩
theorem memory_load_issued (fw : Framework) (region : Buffer) (base size : U64) :
    (fw.memory_load region base size).2.memory_accesses_issued = fw.memory_accesses_issued := by
  unfold memory_load
  split <;> rfl

theorem memory_write_cases (fw : Framework) (a v n : U64) :
    (∃ fw', fw.memory_write a v n = (true,fw') ∧ SameTable fw fw') ∨
      ∃ s, fw.memory_write a v n = (false,(s.memory_add_pending a n .WRITE).2) ∧ Takes fw s a n := by
  unfold memory_write
  split
  · exact .inl ⟨_,rfl,sameTable_refl fw⟩
  rename_i proper
  split
  · exact .inl ⟨_,rfl,sameTable_refl fw⟩
  rename_i turn
  simp only
  have same := memory_load_same
    { fw with memory_accesses_issued := fw.current_stage :: fw.memory_accesses_issued } (byteAt v) a n
  have issued := memory_load_issued
    { fw with memory_accesses_issued := fw.current_stage :: fw.memory_accesses_issued } (byteAt v) a n
  split
  · exact .inl ⟨_,rfl,⟨same.pending,same.stage,same.ptbr,same.size,same.cycle,same.read_latency,same.write_latency⟩⟩
  · exact .inr ⟨_,rfl,⟨same.pending,same.stage,same.ptbr,same.size,same.cycle,same.read_latency,same.write_latency⟩,
      fun past => proper (.inr (.inr (.inl past))),fun issued => turn (.inr issued),issued⟩

end Framework

/-! ### The TLBs -/

/-- A request: the address, the size and the kind. -/
structure Ask where
  address : U64
  n_bytes : U64
  op : MemoryOp
  deriving DecidableEq

/-- What a call that polls next waits for. -/
def waiting : Option (Ask × Bool) → Option Ask
  | some (ask,true) => some ask
  | _ => none

/-- The entry that the next step of a walk reads, and whether it is a poll. -/
def Tlb.walk_ask (cache : Tlb) (ptbr : U64) (virtual_address : U32) (status : U8) : Option (Ask × Bool) :=
  if status = 0 ∨ status = 0xFF then
    some (⟨(first_level_index ptbr (virtual_address >>> 12)).setWidth 64,4,.READ⟩,status == 0)
  else if cache.cached_second_index >>> 31 ≠ 1 then none
  else some (⟨(second_level_index cache.cached_second_index (virtual_address >>> 12)).setWidth 64,4,.READ⟩,status == 1)

/-- Only the two statuses of a read under way poll. -/
theorem waiting_walk {cache : Tlb} {ptbr : U64} {virtual_address : U32} {status : U8} (first : status ≠ 0)
    (second : status ≠ 1) :
    waiting (cache.walk_ask ptbr virtual_address status) = none := by
  have none0 : (status == 0) = false := by simpa using first
  have none1 : (status == 1) = false := by simpa using second
  unfold Tlb.walk_ask
  rw [none0,none1]
  split
  · rfl
  split <;> rfl

section
variable {σ : Type} {port : MemoryPort σ}

/-- A step of a walk reads its entry, and goes on to poll for it unless it is answered. -/
inductive Walks (port : MemoryPort σ) (ptbr : U64) (cache : Tlb) (mem : σ) (virtual_address : U32) (status : U8) :
    U8 → Tlb → σ → Prop
  | ends (none : cache.walk_ask ptbr virtual_address status = none) :
    Walks port ptbr cache mem virtual_address status 0x80 cache mem
  | reads (a : U32) (poll : Bool) (asks : cache.walk_ask ptbr virtual_address status =
    some (⟨a.setWidth 64,4,.READ⟩,poll))
    (v word : U32) (mem' : σ) (read : port.read_word mem a v poll = .ok (true,word,mem'))
    (code : U8) (ended : code ≠ 0 ∧ code ≠ 1 ∧ code ≠ 0xFE) (cache' : Tlb) :
    Walks port ptbr cache mem virtual_address status code cache' mem'
  | waits (a : U32) (poll : Bool) (asks : cache.walk_ask ptbr virtual_address status =
    some (⟨a.setWidth 64,4,.READ⟩,poll))
    (v word : U32) (mem' : σ) (read : port.read_word mem a v poll = .ok (false,word,mem'))
    (code : U8) (going : code ≠ 0xFE ∧ code ≠ 0xFF)
    (again : cache.walk_ask ptbr virtual_address code = some (⟨a.setWidth 64,4,.READ⟩,true)) :
    Walks port ptbr cache mem virtual_address status code cache mem'

theorem update_tlb_entry_walks {cache : Tlb} {ptbr : U64} {mem : σ} {tlb_index virtual_address : U32} {status : U8}
    {locals : TlbLocals} {r : U8 × U32 × Tlb × σ}
    (ran : cache.update_tlb_entry port ptbr mem tlb_index (virtual_address >>> 12) status locals = .ok r) :
    Walks port ptbr cache mem virtual_address status r.1 r.2.2.1 r.2.2.2 := by
  have first (start : status = 0 ∨ status = 0xFF) : cache.walk_ask ptbr virtual_address status =
      some (⟨(Tlb.first_level_index ptbr (virtual_address >>> 12)).setWidth 64,4,.READ⟩,status == 0) := if_pos start
  have second (later : ¬ (status = 0 ∨ status = 0xFF)) (valid : cache.cached_second_index >>> 31 = 1) :
      cache.walk_ask ptbr virtual_address status = some
        (⟨(Tlb.second_level_index cache.cached_second_index (virtual_address >>> 12)).setWidth 64,4,.READ⟩,
          status == 1) := by
    rw [Tlb.walk_ask,if_neg later,if_neg (not_not_intro valid)]
  cases Tlb.update_tlb_entry_updates ran with
  | reads_first start word _ read => exact .reads _ _ (first start) _ _ _ read 2 (by decide) _
  | awaits_first start word _ read => exact .waits _ _ (first start) _ _ _ read 0 (by decide) (by simp [Tlb.walk_ask])
  | unmapped later invalid =>
    refine .ends ?_
    rw [Tlb.walk_ask,if_neg later,if_pos invalid]
  | awaits_second later valid word _ read =>
    refine .waits _ _ (second later valid) _ _ _ read 1 (by decide) ?_
    rw [Tlb.walk_ask,if_neg (by decide),if_neg (not_not_intro valid)]
    rfl
  | absent later valid word _ read => exact .reads _ _ (second later valid) _ _ _ read 0x80 (by decide) _
  | enters later valid word _ read => exact .reads _ _ (second later valid) _ _ _ read 0xFF (by decide) _

/-- A call hits and leaves all as it was, or is a step of a walk. -/
theorem get_address_walks {cache : Tlb} {ptbr : U64} {mem : σ} {virtual_address output : U32} {status : U8}
    {locals : TlbLocals} {r : U8 × U32 × Tlb × σ}
    (ran : cache.get_address port ptbr mem virtual_address output status locals = .ok r) :
    ((status = 0xFF ∧ cache.Hit virtual_address) ∧ r = (0xFE,cache.translation virtual_address,cache,mem)) ∨
      (¬ (status = 0xFF ∧ cache.Hit virtual_address) ∧
        Walks port ptbr cache mem virtual_address status r.1 r.2.2.1 r.2.2.2) := by
  unfold Tlb.get_address at ran
  simp only at ran
  split at ran
  · rename_i hit
    cases ran
    exact .inl ⟨hit,rfl⟩
  · rename_i missed
    obtain ⟨⟨code,ret,cache',mem'⟩,updated,ran⟩ := bind_ok.mp ran
    refine .inr ⟨missed,?_⟩
    have walks := update_tlb_entry_walks updated
    simp only at ran
    split at ran
    · cases ran
      exact walks
    · rename_i ended
      cases ran
      rw [not_not.mp ended] at walks
      exact walks

/-! ### The data cache -/
namespace CacheTable

/-- Neither way of the set holds the block of the address. -/
def Missing (cache : CacheTable) (a : U64) : Prop :=
  ¬ cache.Holds (cache.indexOf a) a ∧ ¬ cache.Holds (cache.indexOf a + cache.num_blocks) a
instance (cache : CacheTable) (a : U64) : Decidable (cache.Missing a) := instDecidableAnd

/-- The ways out of an access that reads the block it misses into a clean row: a hit leaves the rows `hit`, and the row
    that is read into is finished by `finish`. -/
inductive AsksBlock (port : MemoryPort σ) (cache : CacheTable) (mem : σ) (a : U64) (followup available : Bool)
    (hit : CacheTable) (finish : Buffer → CacheRow) : U8 → CacheTable → σ → Prop
  | hits (held : ¬ cache.Missing a) : AsksBlock port cache mem a followup available hit finish 0 hit mem
  | busy (taken : available = false) : AsksBlock port cache mem a followup available hit finish 2 cache mem
  | reads (missing : cache.Missing a) (free : available = true) (data : Buffer) (mem' : σ)
    (asked : cache.get_block port mem a (cache.rows (cache.givenUp a)) followup = .ok (true,data,mem')) :
    AsksBlock port cache mem a followup available hit finish 0 (cache.setRow (cache.givenUp a) (finish data)) mem'
  | waits (missing : cache.Missing a) (free : available = true) (data : Buffer) (mem' : σ)
    (asked : cache.get_block port mem a (cache.rows (cache.givenUp a)) followup = .ok (false,data,mem')) :
    AsksBlock port cache mem a followup available hit finish 1
      (cache.setRow (cache.givenUp a) { cache.rows (cache.givenUp a) with data := data }) mem'

/-- The ways out of an access that reads the block it misses. A dirty row is written back first: the access waits for
    that, and its own read is refused if it comes in the same cycle. -/
inductive AsksFill (port : MemoryPort σ) (cache : CacheTable) (mem : σ) (a : U64) (followup available : Bool) :
    U8 → CacheTable → σ → Prop
  | hits (held : ¬ cache.Missing a) (cache' : CacheTable) : AsksFill port cache mem a followup available 0 cache' mem
  | busy (taken : available = false) : AsksFill port cache mem a followup available 2 cache mem
  | reads (missing : cache.Missing a) (free : available = true) (clean : (cache.rows (cache.givenUp a)).dirty = false)
    (data : Buffer) (mem' : σ) (cache' : CacheTable)
    (asked : cache.get_block port mem a (cache.rows (cache.givenUp a)) followup = .ok (true,data,mem')) :
    AsksFill port cache mem a followup available 0 cache' mem'
  | waits (missing : cache.Missing a) (free : available = true) (clean : (cache.rows (cache.givenUp a)).dirty = false)
    (data : Buffer) (mem' : σ)
    (asked : cache.get_block port mem a (cache.rows (cache.givenUp a)) followup = .ok (false,data,mem')) :
    AsksFill port cache mem a followup available 1
      (cache.setRow (cache.givenUp a) { cache.rows (cache.givenUp a) with data := data }) mem'
  | keeps (missing : cache.Missing a) (free : available = true) (dirty : (cache.rows (cache.givenUp a)).dirty = true)
    (again : followup = true) (mem' : σ)
    (asked : cache.put_block port mem (cache.givenUp a) (cache.rows (cache.givenUp a)) followup = .ok (false,mem')) :
    AsksFill port cache mem a followup available 1 cache mem'
  | delays (missing : cache.Missing a) (free : available = true) (dirty : (cache.rows (cache.givenUp a)).dirty = true)
    (first : followup = false) (mem₁ : σ)
    (asked : cache.put_block port mem (cache.givenUp a) (cache.rows (cache.givenUp a)) followup = .ok (false,mem₁))
    (done : Bool) (data : Buffer) (mem' : σ)
    (read : cache.get_block port mem₁ a (cache.rows (cache.givenUp a)) followup = .ok (done,data,mem')) :
    AsksFill port cache mem a followup available 1
      (cache.setRow (cache.givenUp a) { cache.rows (cache.givenUp a) with data := data }) mem'
  | rereads (missing : cache.Missing a) (free : available = true) (dirty : (cache.rows (cache.givenUp a)).dirty = true)
    (mem₁ : σ)
    (asked : cache.put_block port mem (cache.givenUp a) (cache.rows (cache.givenUp a)) followup = .ok (true,mem₁))
    (data : Buffer) (mem' : σ) (cache' : CacheTable)
    (read : cache.get_block port mem₁ a (cache.rows (cache.givenUp a)) followup = .ok (true,data,mem')) :
    AsksFill port cache mem a followup available 0 cache' mem'
  | rewaits (missing : cache.Missing a) (free : available = true) (dirty : (cache.rows (cache.givenUp a)).dirty = true)
    (mem₁ : σ)
    (asked : cache.put_block port mem (cache.givenUp a) (cache.rows (cache.givenUp a)) followup = .ok (true,mem₁))
    (data : Buffer) (mem' : σ)
    (read : cache.get_block port mem₁ a (cache.rows (cache.givenUp a)) followup = .ok (false,data,mem')) :
    AsksFill port cache mem a followup available 1
      (cache.setRow (cache.givenUp a) { cache.rows (cache.givenUp a) with data := data, dirty := false }) mem'

/-- What is missing does not depend on the bytes of a row, nor on whether it is dirty. -/
theorem missing_filled {cache : CacheTable} {a : U64} (missing : cache.Missing a) (i : U64) (data : Buffer)
    (dirty : Bool) :
    (cache.setRow i { cache.rows i with data := data, dirty := dirty }).Missing a := by
  have same (j : U64) : (cache.setRow i { cache.rows i with data := data, dirty := dirty }).Holds j a ↔
      cache.Holds j a := by
    by_cases here : j = i
    · rw [here,Holds,setRow_same]
      rfl
    · rw [Holds,setRow_other _ _ here]
      rfl
  exact ⟨fun held => missing.1 ((same _).mp held),fun held => missing.2 ((same _).mp held)⟩

/-- Nor does the address that a row is written back to. -/
theorem oldAddress_filled (cache : CacheTable) (i : U64) (data : Buffer) (dirty : Bool) :
    (cache.setRow i { cache.rows i with data := data, dirty := dirty }).oldAddress i = cache.oldAddress i := by
  unfold oldAddress
  rw [setRow_same]
  rfl

/-- The row that a store leaves of one that holds the block. -/
def storedRow (cache : CacheTable) (a data : U64) (size : U8) (row : CacheRow) : CacheRow :=
  { row.store (cache.subindexOf a) data size with tag := cache.fieldTag (cache.tagOf a), valid := true, dirty := true }

/-- The ways out of a store of a whole block, which reads nothing: a dirty row that it takes is written back first. -/
inductive AsksClean (port : MemoryPort σ) (cache : CacheTable) (mem : σ) (a data : U64) (followup available : Bool) :
    U8 → CacheTable → σ → Prop
  | hits (held : ¬ cache.Missing a) : AsksClean port cache mem a data followup available 0
      (cache.setRow (cache.indexOf a) ((cache.rows (cache.indexOf a)).store (cache.subindexOf a) data 8)) mem
  | takes (missing : cache.Missing a) (clean : (cache.rows (cache.givenUp a)).dirty = false) :
    AsksClean port cache mem a data followup available 0
      (cache.setRow (cache.givenUp a) (cache.storedRow a data 8 (cache.rows (cache.givenUp a)))) mem
  | busy (taken : available = false) : AsksClean port cache mem a data followup available 2 cache mem
  | writes (missing : cache.Missing a) (free : available = true) (dirty : (cache.rows (cache.givenUp a)).dirty =
    true) (mem' : σ)
    (asked : cache.put_block port mem (cache.givenUp a) (cache.rows (cache.givenUp a)) followup = .ok (true,mem')) :
    AsksClean port cache mem a data followup available 0
      (cache.setRow (cache.givenUp a) (cache.storedRow a data 8 (cache.rows (cache.givenUp a)))) mem'
  | waits (missing : cache.Missing a) (free : available = true) (dirty : (cache.rows (cache.givenUp a)).dirty =
    true) (mem' : σ)
    (asked : cache.put_block port mem (cache.givenUp a) (cache.rows (cache.givenUp a)) followup = .ok (false,mem')) :
    AsksClean port cache mem a data followup available 1 cache mem'

section
variable {cache cache' : CacheTable} (params : IsDataCache cache) {mem mem' : σ} {a : U64}
  {followup available : Bool} {code : U8}
include params

/-- The rule gives up the same row when that row gets other bytes or is cleaned. -/
theorem givenUp_filled (data : Buffer) {dirty : Bool}
    (less : dirty = true → (cache.rows (cache.givenUp a)).dirty = true) :
    (cache.setRow (cache.givenUp a) { cache.rows (cache.givenUp a) with data := data, dirty := dirty }).givenUp a =
      cache.givenUp a := by
  have apart : cache.indexOf a + cache.num_blocks ≠ cache.indexOf a := by
    intro same
    have far := second_toNat params (index_lt params a)
    rw [same] at far
    omega
  have chosen : cache.givenUp a = cache.victimOf (cache.indexOf a) := rfl
  by_cases second : cache.prefersSecond (cache.indexOf a) = true
  · rw [victimOf,if_pos second] at chosen
    refine (if_pos ?_).trans chosen.symm
    rw [chosen] at less ⊢
    unfold prefersSecond at second ⊢
    rw [setRow_num_blocks,setRow_indexOf,setRow_same,setRow_other _ _ apart.symm]
    revert second less
    cases (cache.rows (cache.indexOf a + cache.num_blocks)).dirty <;> cases dirty <;> simp
    exact fun valid free => ⟨valid,.inl free⟩
  · rw [victimOf,if_neg second] at chosen
    refine (if_neg ?_).trans chosen.symm
    rw [chosen] at less ⊢
    unfold prefersSecond at second ⊢
    rw [setRow_num_blocks,setRow_indexOf,setRow_same,setRow_other _ _ apart]
    revert second less
    cases (cache.rows (cache.indexOf a)).dirty <;> cases dirty <;> simp
    exact fun both valid => (both valid).1

/-- A read hits and leaves the rows, or it misses and is what the eviction is. -/
theorem read_access_cases {size value value' : U64}
    (ran : cache.read_access port mem a size value followup available = .ok (code,value',cache',mem')) :
    ¬ cache.Missing a ∧ code = 0 ∧ cache' = cache ∧ mem' = mem ∨
      available = false ∧ code = 2 ∧ cache' = cache ∧ mem' = mem ∨
      cache.Missing a ∧ available = true ∧ ∃ found, (if found = none then code = 1 else code = 0) ∧
        cache.evict_read port mem a (cache.indexOf a) (cache.tagOf a) followup = .ok (found,cache',mem') := by
  unfold read_access at ran
  split at ran
  · cases ran
  obtain ⟨⟨found,cache₁,mem₁⟩,read,ran⟩ := bind_ok.mp ran
  rw [read_row,lookup_data params,ok_bind] at read
  have delivered {row : CacheRow} (here : found = .inr row) : code = 0 ∧ cache₁ = cache' ∧ mem₁ = mem' := by
    subst here
    simp only at ran
    split at ran
    · cases ran
    split at ran
    · cases ran
      exact ⟨rfl,rfl,rfl⟩
    · cases ran
  by_cases first : cache.Holds (cache.indexOf a) a
  · rw [if_pos first] at read
    cases read
    obtain ⟨rfl,rfl,rfl⟩ := delivered rfl
    exact .inl ⟨fun missing => missing.1 first,rfl,rfl,rfl⟩
  rw [if_neg first] at read
  by_cases second : cache.Holds (cache.indexOf a + cache.num_blocks) a
  · rw [if_pos second] at read
    cases read
    obtain ⟨rfl,rfl,rfl⟩ := delivered rfl
    exact .inl ⟨fun missing => missing.2 second,rfl,rfl,rfl⟩
  rw [if_neg second] at read
  cases available with
  | false =>
    cases read
    cases ran
    exact .inr (.inl ⟨rfl,rfl,rfl,rfl⟩)
  | true =>
    refine .inr (.inr ⟨⟨first,second⟩,rfl,?_⟩)
    simp only [Bool.true_eq_false,if_false] at read
    obtain ⟨⟨victim,cache₂,mem₂⟩,evicted,read⟩ := bind_ok.mp read
    cases victim with
    | none =>
      cases read
      cases ran
      exact ⟨none,rfl,evicted⟩
    | some i =>
      obtain ⟨row,inside,read⟩ := bind_ok.mp read
      cases read
      obtain ⟨rfl,rfl,rfl⟩ := delivered rfl
      exact ⟨some i,rfl,evicted⟩

/-- So does a store of a part of the block, which is stored to the row once it is there. -/
theorem write_access_cases {data : U64} {size : U8} (part : size ≠ 8)
    (ran : cache.write_access port mem a data size followup available = .ok (code,cache',mem')) :
    (¬ cache.Missing a ∧ code = 0 ∧ mem' = mem ∧
        cache' = cache.setRow (cache.indexOf a) ((cache.rows (cache.indexOf a)).store (cache.subindexOf a) data size)) ∨
      available = false ∧ code = 2 ∧ cache' = cache ∧ mem' = mem ∨
      cache.Missing a ∧ available = true ∧ ∃ index found cache₁, cache.victim index = .ok (cache.givenUp a) ∧
        cache.evict_read port mem a index (cache.tagOf a) followup = .ok (found,cache₁,mem') ∧
        if found = none then code = 1 ∧ cache' = cache₁
        else code = 0 ∧ ∀ i, found = some i →
          cache' = cache₁.setRow i { (cache₁.rows i).store (cache.subindexOf a) data size with
          tag := cache₁.fieldTag (cache.tagOf a), valid := true, dirty := true } := by
  have bound := index_lt params a
  rw [write_access_data port params] at ran
  split at ran
  · rename_i held
    obtain ⟨-,rfl,rfl,rfl⟩ := store_hit_ok ran
    exact .inl ⟨fun missing => held.elim missing.1 missing.2,rfl,rfl,rfl⟩
  rename_i missed
  unfold evict_write at ran
  rw [if_neg (not_not_intro params.type),victim_first params bound,ok_bind] at ran
  obtain ⟨⟨found,cache₁,mem₁⟩,row,ran⟩ := bind_ok.mp ran
  rw [write_row,if_pos part] at row
  cases available with
  | false =>
    cases row
    cases ran
    exact .inr (.inl ⟨rfl,rfl,rfl,rfl⟩)
  | true =>
    simp only [Bool.true_eq_false,if_false] at row
    obtain ⟨⟨victim,cache₂,mem₂⟩,evicted,row⟩ := bind_ok.mp row
    obtain ⟨index,chosen,-⟩ := bind_ok.mp evicted
    obtain rfl := victim_again params bound index chosen
    refine .inr (.inr ⟨not_or.mp missed,rfl,_,victim,cache₂,chosen,?_⟩)
    cases victim with
    | none =>
      cases row
      cases ran
      exact ⟨evicted,rfl,rfl⟩
    | some i =>
      cases row
      obtain ⟨r,inside,ran⟩ := bind_ok.mp ran
      obtain ⟨-,rfl⟩ := row_ok.mp inside
      cases ran
      refine ⟨evicted,rfl,?_⟩
      rintro _ ⟨⟩
      rfl

theorem read_access_asks {size value value' : U64}
    (clean : available = true → cache.Missing a → (cache.rows (cache.givenUp a)).dirty = false)
    (ran : cache.read_access port mem a size value followup available = .ok (code,value',cache',mem')) :
    AsksBlock port cache mem a followup available cache (cache.filledRow a) code cache' mem' := by
  obtain ⟨held,rfl,rfl,rfl⟩ | ⟨taken,rfl,rfl,rfl⟩ | ⟨missing,rfl,found,result,evicted⟩ := read_access_cases params ran
  · exact .hits held
  · exact .busy taken
  have unused : (cache.rows (cache.victimOf (cache.indexOf a))).dirty = false := clean rfl missing
  obtain ⟨done,data,mem₂,asked,outcome⟩ := evict_read_clean (victim_first params (index_lt params a))
    (by simp [unused]) evicted
  cases done with
  | false =>
    cases outcome
    obtain rfl : code = 1 := result
    exact .waits missing rfl data _ asked
  | true =>
    cases outcome
    obtain rfl : code = 0 := result
    exact .reads missing rfl data _ asked

/-- A store of a part of the block reads it first. -/
theorem write_access_asks {data : U64} {size : U8} (part : size ≠ 8)
    (clean : available = true → cache.Missing a → (cache.rows (cache.givenUp a)).dirty = false)
    (ran : cache.write_access port mem a data size followup available = .ok (code,cache',mem')) :
    AsksBlock port cache mem a followup available
      (cache.setRow (cache.indexOf a) ((cache.rows (cache.indexOf a)).store (cache.subindexOf a) data size))
      (fun block => cache.storedRow a data size (cache.filledRow a block)) code cache' mem' := by
  obtain ⟨held,rfl,rfl,rfl⟩ | ⟨taken,rfl,rfl,rfl⟩ | ⟨missing,rfl,index,found,cache₁,chosen,evicted,result⟩ :=
    write_access_cases params part ran
  · exact .hits held
  · exact .busy taken
  obtain ⟨done,block,mem₂,asked,outcome⟩ := evict_read_clean chosen (by simp [clean rfl missing]) evicted
  cases done with
  | false =>
    cases outcome
    obtain ⟨rfl,rfl⟩ : code = 1 ∧ cache' = _ := result
    exact .waits missing rfl block _ asked
  | true =>
    cases outcome
    obtain ⟨rfl,stored⟩ : code = 0 ∧ _ := result
    rw [stored _ rfl,setRow_same,setRow_setRow]
    exact .reads missing rfl block _ asked

omit params in
theorem fill_row_block {i : U64} {done : Bool}
    (filled : cache.fill_row port mem a i followup = .ok (done,cache',mem')) :
    ∃ data, cache.get_block port mem a (cache.rows i) followup = .ok (done,data,mem') ∧
      cache' = cache.setRow i { cache.rows i with data := data } := by
  obtain ⟨row,inside,filled⟩ := bind_ok.mp filled
  obtain ⟨-,rfl⟩ := row_ok.mp inside
  obtain ⟨⟨done,data,mem₁⟩,read,filled⟩ := bind_ok.mp filled
  cases filled
  exact ⟨data,read,rfl⟩

omit params in
/-- An eviction of a dirty row writes it back, and then reads the block unless it is to wait. -/
theorem evict_read_dirty {index i : U64} {found : Option U64} (type : cache.cache_type = .DATA)
    (chosen : cache.victim index = .ok i) (dirty : (cache.rows i).dirty = true)
    (evicted : cache.evict_read port mem a index (cache.tagOf a) followup = .ok (found,cache',mem')) :
    ∃ written mem₁, cache.put_block port mem i (cache.rows i) followup = .ok (written,mem₁) ∧
      ((followup = true ∧ written = false) ∧ found = none ∧ cache' = cache ∧ mem' = mem₁ ∨
        ¬ (followup = true ∧ written = false) ∧ ∃ done data,
          cache.get_block port mem₁ a (cache.rows i) followup = .ok (done,data,mem') ∧
          if done = false ∨ written = false then
            found = none ∧ cache' = cache.setRow i { cache.rows i with data := data, dirty := !written }
          else found ≠ none) := by
  unfold evict_read at evicted
  rw [chosen,ok_bind] at evicted
  obtain ⟨⟨written,cache₁,mem₁⟩,cleaned,evicted⟩ := bind_ok.mp evicted
  obtain ⟨row,inside,cleaned⟩ := bind_ok.mp cleaned
  obtain ⟨bound,rfl⟩ := row_ok.mp inside
  rw [if_pos ⟨type,dirty⟩,write_back,inside,ok_bind] at cleaned
  obtain ⟨⟨written,mem₂⟩,asked,cleaned⟩ := bind_ok.mp cleaned
  cases cleaned
  refine ⟨_,_,asked,?_⟩
  cases written with
  | false =>
    cases followup with
    | true =>
      cases evicted
      exact .inl ⟨⟨rfl,rfl⟩,rfl,rfl,rfl⟩
    | false =>
      simp only [Bool.false_eq_true,false_and,if_false] at evicted
      obtain ⟨⟨done,cache₂,mem₃⟩,filled,evicted⟩ := bind_ok.mp evicted
      obtain ⟨data,read,rfl⟩ := fill_row_block filled
      cases evicted.symm.trans (if_pos (.inr trivial))
      refine .inr ⟨by simp,done,data,read,?_⟩
      rw [if_pos (.inr rfl),Bool.not_false,← dirty]
      exact ⟨rfl,rfl⟩
  | true =>
    simp only [Bool.true_eq_false,and_false,if_false,if_true,or_false] at evicted
    obtain ⟨⟨done,cache₂,mem₃⟩,filled,evicted⟩ := bind_ok.mp evicted
    obtain ⟨data,read,rfl⟩ := fill_row_block filled
    rw [setRow_same] at read evicted
    cases done with
    | false =>
      cases evicted
      refine .inr ⟨by simp,false,data,read,?_⟩
      rw [if_pos (.inl rfl),setRow_setRow]
      exact ⟨rfl,rfl⟩
    | true =>
      obtain ⟨row,-,evicted⟩ := bind_ok.mp evicted
      cases evicted
      refine .inr ⟨by simp,true,data,read,?_⟩
      rw [if_neg (by decide)]
      exact Option.some_ne_none _

/-- The ways out of an eviction. -/
theorem evict_read_asks {index : U64} {found : Option U64} (missing : cache.Missing a)
    (chosen : cache.victim index = .ok (cache.givenUp a))
    (evicted : cache.evict_read port mem a index (cache.tagOf a) followup = .ok (found,cache',mem')) :
    if found = none then AsksFill port cache mem a followup true 1 cache' mem'
    else ∀ after, AsksFill port cache mem a followup true 0 after mem' := by
  by_cases dirty : (cache.rows (cache.givenUp a)).dirty = true
  · obtain ⟨written,mem₁,asked,⟨⟨rfl,rfl⟩,rfl,rfl,rfl⟩ | ⟨goes,done,data,read,outcome⟩⟩ :=
      evict_read_dirty params.type chosen dirty evicted
    · exact .keeps missing rfl dirty rfl _ asked
    cases written with
    | false =>
      obtain ⟨rfl,rfl⟩ := (if_pos (.inr rfl)).mp outcome
      have first : followup = false := by simpa using goes
      have row : ({ cache.rows (cache.givenUp a) with data := data, dirty := !false } : CacheRow) =
          { cache.rows (cache.givenUp a) with data := data } := by
        show CacheRow.mk _ _ true _ = CacheRow.mk _ _ (cache.rows (cache.givenUp a)).dirty _
        rw [dirty]
      rw [row]
      exact .delays missing rfl dirty first _ asked done data _ read
    | true =>
      cases done with
      | false =>
        obtain ⟨rfl,rfl⟩ := outcome
        exact .rewaits missing rfl dirty _ asked data _ read
      | true =>
        rw [if_neg outcome]
        exact fun after => .rereads missing rfl dirty _ asked data _ after read
  · obtain ⟨done,data,mem₂,asked,outcome⟩ := evict_read_clean chosen (fun both => dirty both.2) evicted
    have clean : (cache.rows (cache.givenUp a)).dirty = false := by simpa using dirty
    cases done with
    | false =>
      cases outcome
      exact .waits missing rfl clean data _ asked
    | true =>
      cases outcome
      exact fun after => .reads missing rfl clean data _ after asked

theorem read_access_fills {size value value' : U64}
    (ran : cache.read_access port mem a size value followup available = .ok (code,value',cache',mem')) :
    AsksFill port cache mem a followup available code cache' mem' := by
  obtain ⟨held,rfl,rfl,rfl⟩ | ⟨taken,rfl,rfl,rfl⟩ | ⟨missing,rfl,found,result,evicted⟩ := read_access_cases params ran
  · exact .hits held _
  · exact .busy taken
  have asks := evict_read_asks params missing (victim_first params (index_lt params a)) evicted
  split at asks
  · rename_i none
    rw [if_pos none] at result
    exact result ▸ asks
  · rename_i some
    rw [if_neg some] at result
    exact result ▸ asks cache'

theorem write_access_fills {data : U64} {size : U8} (part : size ≠ 8)
    (ran : cache.write_access port mem a data size followup available = .ok (code,cache',mem')) :
    AsksFill port cache mem a followup available code cache' mem' := by
  obtain ⟨held,rfl,rfl,rfl⟩ | ⟨taken,rfl,rfl,rfl⟩ | ⟨missing,rfl,index,found,cache₁,chosen,evicted,result⟩ :=
    write_access_cases params part ran
  · exact .hits held _
  · exact .busy taken
  have asks := evict_read_asks params missing chosen evicted
  split at asks
  · rename_i none
    rw [if_pos none] at result
    obtain ⟨rfl,rfl⟩ := result
    exact asks
  · rename_i some
    rw [if_neg some] at result
    exact result.1 ▸ asks cache'

/-- A store of the whole block writes back the row it gives up. -/
theorem write_access_cleans {data : U64}
    (ran : cache.write_access port mem a data 8 followup available = .ok (code,cache',mem')) :
    AsksClean port cache mem a data followup available code cache' mem' := by
  have bound := index_lt params a
  have inside := victimOf_inside params bound
  rw [write_access_data port params] at ran
  split at ran
  · rename_i held
    obtain ⟨-,rfl,rfl,rfl⟩ := store_hit_ok ran
    exact .hits fun missing => held.elim missing.1 missing.2
  rename_i missed
  have missing : cache.Missing a := not_or.mp missed
  unfold evict_write at ran
  rw [if_neg (not_not_intro params.type),victim_first params bound,ok_bind] at ran
  obtain ⟨⟨found,cache₁,mem₁⟩,chosen,ran⟩ := bind_ok.mp ran
  rw [write_row,if_neg (not_not_intro rfl),row_inside inside,ok_bind] at chosen
  by_cases dirty : (cache.rows (cache.victimOf (cache.indexOf a))).dirty = true
  · cases available with
    | false =>
      rw [if_pos ⟨dirty,rfl⟩] at chosen
      cases chosen
      cases ran
      exact .busy rfl
    | true =>
      rw [if_neg (by simp),clean_row,row_inside inside,ok_bind,if_pos ⟨params.type,dirty⟩,write_back,row_inside inside,
        ok_bind] at chosen
      obtain ⟨outcome,cleaned,chosen⟩ := bind_ok.mp chosen
      obtain ⟨⟨done,mem₂⟩,asked,cleaned⟩ := bind_ok.mp cleaned
      cases cleaned
      cases done with
      | false =>
        cases chosen
        cases ran
        exact .waits missing rfl dirty _ asked
      | true =>
        cases chosen
        simp only [if_true,row_setRow inside,ok_bind] at ran
        cases ran
        rw [setRow_setRow]
        exact .writes missing rfl dirty _ asked
  · rw [if_neg (fun both => dirty both.1),clean_row,row_inside inside,ok_bind,
      if_neg (fun both => dirty both.2)] at chosen
    cases chosen
    simp only [if_true,row_inside inside,ok_bind] at ran
    cases ran
    exact .takes missing (Bool.eq_false_of_not_eq_true dirty)

end
end CacheTable
end
end RiscvSim
