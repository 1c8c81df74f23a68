import RiscvSim.Requests

/-!
What memory answers, with any latency. A read is delivered from the bytes that memory has when it is answered, if
the stage may ask for them (`Framework.Delivers`): it is the first access of its stage in the cycle, aligned and
inside memory, and a poll finds its own request (`Framework.Pends`). A write is made when it is asked, whatever the
latency; the answer only comes later.
-/
namespace RiscvSim
open Bytes Runs

namespace Framework

/-! ### What an access leaves alone -/

/-- What an access of the current stage leaves, but for the bytes of memory. -/
structure Keeps (fw fw' : Framework) : Prop where
  size : fw'.riscv_mem_size = fw.riscv_mem_size
  ptbr : fw'.ptbr = fw.ptbr
  stage : fw'.current_stage = fw.current_stage
  issued : ∀ stage ∈ fw'.memory_accesses_issued, stage ∈ fw.memory_accesses_issued ∨ stage = fw.current_stage

/-- It reads at most. -/
structure SameMemory (fw fw' : Framework) : Prop extends Keeps fw fw' where
  mem : fw'.riscv_mem = fw.riscv_mem

theorem Keeps.trans {fw fw' fw'' : Framework} (first : Keeps fw fw') (second : Keeps fw' fw'') : Keeps fw fw'' where
  size := second.size.trans first.size
  ptbr := second.ptbr.trans first.ptbr
  stage := second.stage.trans first.stage
  issued stage inside := by
    rcases second.issued stage inside with old | own
    · exact first.issued stage old
    · exact .inr (own.trans first.stage)

theorem sameMemory_refl (fw : Framework) : SameMemory fw fw := ⟨⟨rfl,rfl,rfl,fun _ inside => .inl inside⟩,rfl⟩
theorem SameMemory.trans {fw fw' fw'' : Framework} (first : SameMemory fw fw') (second : SameMemory fw' fw'') :
    SameMemory fw fw'' :=
  ⟨first.toKeeps.trans second.toKeeps,second.mem.trans first.mem⟩

/-- A request that is added to the table is a read as far as memory goes. -/
theorem sameMemory_pending {fw : Framework} (pending : PendingTable) :
    SameMemory fw { fw with memory_pending := pending } :=
  ⟨⟨rfl,rfl,rfl,fun _ inside => .inl inside⟩,rfl⟩
theorem sameMemory_added (fw : Framework) (a n : U64) (op : MemoryOp) :
    SameMemory fw (fw.memory_add_pending a n op).2 := by
  obtain ⟨pending,same⟩ := add_pending_only fw a n op
  rw [same]
  exact sameMemory_pending pending

/-- The stage is noted. -/
theorem issued_cons {stage : Stage} {issued : List Stage} : ∀ s ∈ stage :: issued, s ∈ issued ∨ s = stage := by
  intro s inside
  exact (List.mem_cons.mp inside).symm

theorem memory_read_same (fw : Framework) (a : U64) (v : Buffer) (n : U64) :
    SameMemory fw (fw.memory_read a v n).2.2 := by
  unfold memory_read
  split
  · exact sameMemory_refl fw
  split
  · exact sameMemory_refl fw
  simp only
  split
  · exact ⟨⟨rfl,rfl,rfl,issued_cons⟩,rfl⟩
  · refine SameMemory.trans ?_ (sameMemory_added _ a n .READ)
    exact ⟨⟨rfl,rfl,rfl,issued_cons⟩,rfl⟩

theorem memory_status_same {fw fw' : Framework} {a : U64} {v v' : Option Buffer} {done : Bool}
    (polled : fw.memory_status a v = some (done,v',fw')) : SameMemory fw fw' := by
  obtain ⟨pending,rfl⟩ := memory_status_only polled
  exact sameMemory_pending pending

theorem read_word_same {fw fw' : Framework} {a v word : U32} {poll done : Bool}
    (read : port.read_word fw a v poll = .ok (done,word,fw')) : SameMemory fw fw' := by
  cases poll with
  | false =>
    cases read
    exact memory_read_same _ _ _ _
  | true =>
    rw [MemoryPort.read_word] at read
    split at read
    · cases read
    split at read
    · cases read
    · rename_i polled
      cases read
      exact memory_status_same polled

theorem get_block_same {cache : CacheTable} {fw fw' : Framework} {a : U64} {row : CacheRow} {followup done : Bool}
    {data : Buffer} (asked : cache.get_block port fw a row followup = .ok (done,data,fw')) : SameMemory fw fw' := by
  cases followup with
  | false =>
    have same := memory_read_same fw a row.data cache.cache_type.row_bytes
    have asked : fw.memory_read a row.data cache.cache_type.row_bytes = (done,data,fw') := Except.ok.inj asked
    rw [asked] at same
    exact same
  | true =>
    rw [CacheTable.get_block] at asked
    split at asked
    · cases asked
    · rename_i polled
      cases asked
      exact memory_status_same polled

/-- A translation reads the page table at most. -/
theorem get_address_same {t t' : Tlb} {ptbr : U64} {fw fw' : Framework} {va out out' : U32} {status code : U8}
    {locals : TlbLocals} (called : t.get_address port ptbr fw va out status locals = .ok (code,out',t',fw')) :
    SameMemory fw fw' := by
  rcases get_address_walks called with ⟨-,same⟩ | ⟨-,walks⟩
  · cases same
    exact sameMemory_refl _
  · cases walks with
    | ends => exact sameMemory_refl _
    | reads a poll asks v word _ read => exact read_word_same read
    | waits a poll asks v word _ read => exact read_word_same read

/-! ### What a read delivers -/

/-- The first slot of the address is that of the request. -/
def Pends (fw : Framework) (ask : Ask) : Prop :=
  ∃ q, fw.memory_pending.slots.find? (fun q => decide (q.address = ask.address)) = some q ∧ q.op = ask.op ∧
  q.n_bytes = ask.n_bytes

/-- A read that is answered delivers what memory has: it may be made, and a poll finds it. -/
structure Delivers (fw : Framework) (a n : U64) (poll : Bool) : Prop where
  stage : fw.current_stage = .F ∨ fw.current_stage = .M
  free : fw.current_stage ∉ fw.memory_accesses_issued
  bytes : n = 4 ∨ n = 8 ∨ n = 16
  aligned : a.toNat % n.toNat = 0
  range : ¬ a + n > fw.riscv_mem_size
  pending : poll = true → fw.Pends ⟨a,n,.READ⟩

section
variable {fw fw' : Framework} {a n : U64}

theorem dumped_byte (range : ¬ a + n > fw.riscv_mem_size) (v : Buffer) {k : Nat} (small : k < n.toNat) :
    (fw.memory_dump v a n).2 k = fw.riscv_mem (a + BitVec.ofNat 64 k) := by
  have byte : copy v 0 (fun i => fw.riscv_mem (a + BitVec.ofNat 64 i)) n.toNat k =
    fw.riscv_mem (a + BitVec.ofNat 64 k) :=
    copy_inside (Nat.zero_le k) (by omega)
  rw [memory_dump,if_neg range]
  exact byte

theorem memory_read_delivers {v v' : Buffer} (delivers : fw.Delivers a n false)
    (asked : fw.memory_read a v n = (true,v',fw')) {k : Nat} (small : k < n.toNat) :
    v' k = fw.riscv_mem (a + BitVec.ofNat 64 k) := by
  have whole : ¬ a % n ≠ 0 := by
    apply not_not_intro
    apply BitVec.eq_of_toNat_eq
    rw [BitVec.toNat_umod]
    exact delivers.aligned
  rw [memory_read,if_neg,if_neg] at asked
  · simp only at asked
    split at asked
    · cases asked
      exact dumped_byte delivers.range v small
    · cases asked
  · rintro (other | taken)
    · exact delivers.stage.elim other.1 other.2
    · exact delivers.free taken
  · rintro (large | bits | past | odd)
    · rcases delivers.bytes with rfl | rfl | rfl <;> exact absurd large (by decide)
    · rcases delivers.bytes with rfl | rfl | rfl <;> exact absurd bits (by decide)
    · exact delivers.range past
    · exact whole odd

theorem memory_status_delivers {v : Buffer} {v' : Option Buffer} (delivers : fw.Delivers a n true)
    (polled : fw.memory_status a (some v) = some (true,v',fw')) :
    ∃ b, v' = some b ∧ ∀ k < n.toNat, b k = fw.riscv_mem (a + BitVec.ofNat 64 k) := by
  rcases fw.memory_status_poll a v with missed | ⟨pnd,table,found,answer⟩
  · cases missed.symm.trans polled
  · obtain ⟨q,first,op,bytes⟩ := delivers.pending rfl
    obtain rfl : pnd = q := Option.some.inj ((status_pending_some found).1.symm.trans first)
    rw [if_pos op,bytes] at answer
    cases answer.symm.trans polled
    exact ⟨_,rfl,fun k small => dumped_byte delivers.range v small⟩

/-- The entry of a page table. -/
theorem read_word_delivers {a v word : U32} {poll : Bool} (delivers : fw.Delivers (a.setWidth 64) 4 poll)
    (read : port.read_word fw a v poll = .ok (true,word,fw')) : word = wordAt fw.riscv_mem (a.setWidth 64) := by
  cases poll with
  | false =>
    obtain ⟨done,same⟩ := Prod.mk.inj (Except.ok.inj read)
    obtain ⟨rfl,-⟩ := Prod.mk.inj same
    have asked : fw.memory_read (a.setWidth 64) (byteAt v) 4 = (true,_,_) := Prod.ext done rfl
    exact value_congr fun i small => memory_read_delivers delivers asked small
  | true =>
    rw [MemoryPort.read_word] at read
    split at read
    · cases read
    split at read
    · cases read
    · rename_i polled
      cases read
      obtain ⟨b,rfl,bytes⟩ := memory_status_delivers delivers polled
      exact value_congr fun i small => bytes i small

/-- The row of a cache. -/
theorem get_block_delivers {cache : CacheTable} {row : CacheRow} {followup : Bool} {data : Buffer}
    (bytes : cache.cache_type.row_bytes = n) (delivers : fw.Delivers a n followup)
    (asked : cache.get_block port fw a row followup = .ok (true,data,fw')) {k : Nat} (small : k < n.toNat) :
    data k = fw.riscv_mem (a + BitVec.ofNat 64 k) := by
  subst bytes
  cases followup with
  | false => exact memory_read_delivers delivers (Except.ok.inj asked) small
  | true =>
    rw [CacheTable.get_block] at asked
    split at asked
    · cases asked
    · rename_i polled
      cases asked
      obtain ⟨b,rfl,bytes⟩ := memory_status_delivers delivers polled
      exact bytes k small

/-! ### What a write makes -/

/-- A write of eight bytes, the first access of the M stage, is made at once. -/
theorem memory_write_makes {v : U64} {done : Bool} (stage : fw.current_stage = .M)
    (free : .M ∉ fw.memory_accesses_issued) (aligned : a.toNat % 8 = 0) (range : ¬ a + 8 > fw.riscv_mem_size)
    (written : fw.memory_write a v 8 = (done,fw')) :
    fw.Keeps fw' ∧ ∀ o, fw'.riscv_mem o = if (o - a).toNat < 8 then byteAt v (o - a).toNat else fw.riscv_mem o := by
  have whole : ¬ a % 8 ≠ 0 := by
    apply not_not_intro
    apply BitVec.eq_of_toNat_eq
    rw [BitVec.toNat_umod]
    exact aligned
  rw [memory_write,if_neg,if_neg] at written
  · simp only [memory_load,if_neg range] at written
    split at written
    · cases written
      exact ⟨⟨rfl,rfl,rfl,issued_cons⟩,fun o => rfl⟩
    · cases written
      have added := sameMemory_added { fw with
        riscv_mem := fun o => if (o - a).toNat < 8 then byteAt v (o - a).toNat else fw.riscv_mem o
        memory_accesses_issued := fw.current_stage :: fw.memory_accesses_issued
        write_counter := fw.write_counter + 1
        write_bytes := fw.write_bytes + 8 } a 8 .WRITE
      refine ⟨Keeps.trans ?_ added.toKeeps,fun o => congrFun added.mem o⟩
      exact ⟨rfl,rfl,rfl,issued_cons⟩
  · rintro (other | taken)
    · exact other stage
    · rw [stage] at taken
      exact free taken
  · rintro (large | bits | past | odd)
    · exact absurd large (by decide)
    · exact absurd bits (by decide)
    · exact range past
    · exact whole odd

end
end Framework
end RiscvSim
