import RiscvSim.Alongside

/-!
The counters that `memorystats` and `getcycles` print. Each stage gets at most one access a cycle,
and only fetch and memory get any: so a run of `n` cycles makes at most `2n` accesses, at most `n` of
them writes, all of eight bytes. Reads are of four, eight or sixteen bytes. The counters are of 64
bits and say this modulo 2^64.
-/
namespace RiscvSim
open Bytes Runs

/-- The static counters of the framework, and the accesses of the cycle. -/
structure Counters where
  cycle_counter : U64
  read_counter : U64
  read_bytes : U64
  write_counter : U64
  write_bytes : U64
  memory_accesses_issued : List Stage

namespace Framework

def counters (fw : Framework) : Counters :=
  ⟨fw.cycle_counter,fw.read_counter,fw.read_bytes,fw.write_counter,fw.write_bytes,fw.memory_accesses_issued⟩

/-! ### What the routines count -/

@[simp] theorem end_cycle_counters (fw : Framework) : fw.end_cycle.counters =
    { fw.counters with cycle_counter := fw.cycle_counter + 1, memory_accesses_issued := [] } := rfl

theorem memory_add_pending_counters (fw : Framework) (address size : U64) (op : MemoryOp) :
    (fw.memory_add_pending address size op).2.counters = fw.counters := by
  unfold memory_add_pending
  simp only
  split <;> rfl

theorem memory_load_counters (fw : Framework) (region : Buffer) (base size : U64) :
    (fw.memory_load region base size).2.counters = fw.counters := by
  unfold memory_load
  split <;> rfl

theorem memory_status_counters {fw : Framework} {address : U64} {value : Option Buffer}
    {r : Bool × Option Buffer × Framework} (answered : fw.memory_status address value = some r) :
    r.2.2.counters = fw.counters := by
  unfold memory_status at answered
  split at answered
  · cases answered
    rfl
  simp only at answered
  split at answered
  · cases value with
    | none => cases answered
    | some v =>
      cases answered
      rfl
  · cases answered
    rfl

/-- The stage may have an access, which it has not had in this cycle. -/
def MayAccess (fw : Framework) (stages : List Stage) : Prop :=
  fw.current_stage ∈ stages ∧ fw.current_stage ∉ fw.memory_accesses_issued

/-- A read is refused, or counted with the bytes asked for. -/
theorem memory_read_counters (fw : Framework) (address : U64) (value : Buffer) (size : U64) :
    (fw.memory_read address value size).2.2.counters = fw.counters ∨
      fw.MayAccess [.F,.M] ∧ (fw.memory_read address value size).2.2.counters = { fw.counters with
        read_counter := fw.read_counter + 1
        read_bytes := fw.read_bytes + size
        memory_accesses_issued := fw.current_stage :: fw.memory_accesses_issued } := by
  unfold memory_read
  split
  · exact .inl rfl
  split
  · exact .inl rfl
  rename_i allowed
  obtain ⟨stage,fresh⟩ := not_or.mp allowed
  have listed : fw.current_stage ∈ [Stage.F,.M] := by
    by_contra other
    simp only [List.mem_cons,List.not_mem_nil,or_false,not_or] at other
    exact stage other
  simp only
  split
  · exact .inr ⟨⟨listed,fresh⟩,rfl⟩
  · exact .inr ⟨⟨listed,fresh⟩,memory_add_pending_counters _ _ _ _⟩

theorem memory_write_counters (fw : Framework) (address value size : U64) :
    (fw.memory_write address value size).2.counters = fw.counters ∨
      fw.MayAccess [.M] ∧ (fw.memory_write address value size).2.counters = { fw.counters with
        write_counter := fw.write_counter + 1
        write_bytes := fw.write_bytes + size
        memory_accesses_issued := fw.current_stage :: fw.memory_accesses_issued } := by
  unfold memory_write
  split
  · exact .inl rfl
  split
  · exact .inl rfl
  rename_i allowed
  obtain ⟨stage,fresh⟩ := not_or.mp allowed
  have listed : fw.current_stage ∈ [Stage.M] := by simpa using stage
  have loaded := memory_load_counters { fw with memory_accesses_issued := fw.current_stage ::
    fw.memory_accesses_issued }
    (byteAt value) address size
  simp only [counters,Counters.mk.injEq] at loaded
  obtain ⟨cycles,reads,read_bytes,writes,write_bytes,issued⟩ := loaded
  refine .inr ⟨⟨listed,fresh⟩,?_⟩
  simp only
  split
  · simp only [counters,cycles,reads,read_bytes,writes,write_bytes,issued]
  · rw [memory_add_pending_counters]
    simp only [counters,cycles,reads,read_bytes,writes,write_bytes,issued]

end Framework

/-! ### What a run counts -/

/-- The counters after `n` cycles stand for these numbers of reads, bytes read and writes; an access
    made in a cycle under way stands beside the two of every cycle done. -/
structure Counters.Tallied (n reads bytes writes : Nat) (c : Counters) : Prop where
  cycle_counter : c.cycle_counter = BitVec.ofNat 64 n
  read_counter : c.read_counter = BitVec.ofNat 64 reads
  read_bytes : c.read_bytes = BitVec.ofNat 64 bytes
  write_counter : c.write_counter = BitVec.ofNat 64 writes
  write_bytes : c.write_bytes = BitVec.ofNat 64 (8 * writes)
  least : 4 * reads ≤ bytes
  most : bytes ≤ 16 * reads
  accesses : reads + writes ≤ 2 * n + c.memory_accesses_issued.length
  stores : writes ≤ n + c.memory_accesses_issued.count .M
  once : c.memory_accesses_issued.Nodup
  stages : ∀ stage ∈ c.memory_accesses_issued, stage ∈ [Stage.F,.M]

/-- No more than fetch and memory access memory in a cycle. -/
theorem issued_few {issued : List Stage} (once : issued.Nodup) (stages : ∀ stage ∈ issued, stage ∈ [Stage.F,.M]) :
    issued.length ≤ 2 :=
  (once.subperm stages).length_le

theorem ofNat_counted {count : U64} {k : Nat} (counted : count = BitVec.ofNat 64 k) (size : U64) :
    count + size = BitVec.ofNat 64 (k + size.toNat) := by
  rw [counted,BitVec.ofNat_add,BitVec.ofNat_toNat,BitVec.setWidth_eq]

section
variable {n reads bytes writes : Nat} {fw : Framework} (tallied : fw.counters.Tallied n reads bytes writes)
include tallied

theorem tallied_end_cycle : fw.end_cycle.counters.Tallied (n+1) reads bytes writes := by
  have few := issued_few tallied.once tallied.stages
  have store := List.nodup_iff_count_le_one.mp tallied.once Stage.M
  have accesses := tallied.accesses
  have stores := tallied.stores
  rw [Framework.end_cycle_counters]
  exact { tallied with
    cycle_counter := ofNat_counted tallied.cycle_counter 1
    accesses := by rw [List.length_nil]; omega
    stores := by rw [List.count_nil]; omega
    once := List.nodup_nil
    stages := fun _ inside => absurd inside List.not_mem_nil }

theorem tallied_read (address : U64) (value : Buffer) {size : U64} (sizes : size = 4 ∨ size = 8 ∨ size = 16) :
    ∃ reads bytes, (fw.memory_read address value size).2.2.counters.Tallied n reads bytes writes := by
  rcases fw.memory_read_counters address value size with same | ⟨⟨stage,fresh⟩,counted⟩
  · exact ⟨reads,bytes,same ▸ tallied⟩
  have small : 4 ≤ size.toNat ∧ size.toNat ≤ 16 := by rcases sizes with rfl | rfl | rfl <;> decide
  have least := tallied.least
  have most := tallied.most
  have accesses : reads + writes ≤ 2 * n + fw.memory_accesses_issued.length := tallied.accesses
  refine ⟨reads + 1,bytes + size.toNat,?_⟩
  rw [counted]
  exact { tallied with
    read_counter := ofNat_counted tallied.read_counter 1
    read_bytes := ofNat_counted tallied.read_bytes size
    least := by omega
    most := by omega
    accesses := by rw [List.length_cons]; omega
    stores := tallied.stores.trans (Nat.add_le_add_left List.count_le_count_cons n)
    once := List.nodup_cons.mpr ⟨fresh,tallied.once⟩
    stages := List.forall_mem_cons.mpr ⟨stage,tallied.stages⟩ }

theorem tallied_write (address value : U64) :
    ∃ writes, (fw.memory_write address value 8).2.counters.Tallied n reads bytes writes := by
  rcases fw.memory_write_counters address value 8 with same | ⟨⟨stage,fresh⟩,counted⟩
  · exact ⟨writes,same ▸ tallied⟩
  have memory : fw.current_stage = .M := List.mem_singleton.mp stage
  have accesses : reads + writes ≤ 2 * n + fw.memory_accesses_issued.length := tallied.accesses
  have stores : writes ≤ n + fw.memory_accesses_issued.count .M := tallied.stores
  refine ⟨writes + 1,?_⟩
  rw [counted]
  exact { tallied with
    write_counter := ofNat_counted tallied.write_counter 1
    write_bytes := ofNat_counted tallied.write_bytes 8
    accesses := by rw [List.length_cons]; omega
    stores := by rw [memory,List.count_cons_self]; omega
    once := List.nodup_cons.mpr ⟨fresh,tallied.once⟩
    stages := List.forall_mem_cons.mpr ⟨List.mem_cons_of_mem _ stage,tallied.stages⟩ }

end

/-- Some numbers of accesses stand behind the counters. -/
def Framework.Counts (n : Nat) (fw : Framework) : Prop := ∃ reads bytes writes, fw.counters.Tallied n reads bytes writes

theorem port_counts (n : Nat) : Framework.port.Keeps (Framework.Counts n) where
  memory_read counts address narrow value size sizes := by
    obtain ⟨reads,bytes,writes,tallied⟩ := counts
    obtain ⟨reads,bytes,tallied⟩ := tallied_read tallied address value sizes
    exact ⟨reads,bytes,writes,tallied⟩
  memory_write counts address narrow value := by
    obtain ⟨reads,bytes,writes,tallied⟩ := counts
    obtain ⟨writes,tallied⟩ := tallied_write tallied address value
    exact ⟨reads,bytes,writes,tallied⟩
  memory_status counts address narrow value r answered := by
    obtain ⟨reads,bytes,writes,tallied⟩ := counts
    exact ⟨reads,bytes,writes,Framework.memory_status_counters answered ▸ tallied⟩

theorem backing_counts : Framework.backing.Keeps Framework.Counts where
  tlb_port n := port_counts n
  cache_port n := port_counts n
  enter counts stage := counts
  end_cycle counts := by
    obtain ⟨reads,bytes,writes,tallied⟩ := counts
    exact ⟨reads,bytes,writes,tallied_end_cycle tallied⟩

/-- Between two cycles no access has been made. -/
theorem run_unissued {c c' : Pipeline (MemoryState Framework) × List Events} {inputs : List CalleeLocals}
    (start : c.1.mem.framework.memory_accesses_issued = []) (ran : run (cycle simulator) c inputs = .ok c') :
    c'.1.mem.framework.memory_accesses_issued = [] := by
  refine run_invariant (fun c : Pipeline (MemoryState Framework) × List Events =>
    c.1.mem.framework.memory_accesses_issued = [])
    ?_ start ran
  intro c locals c' unissued stepped
  rcases cycle_cases stepped with ⟨inst,rfl⟩ | ⟨inst,p,events,ran,rfl⟩
  · exact unissued
  · obtain ⟨memory_mem,execute_pc,decode_pc,fetch_mem,staged⟩ := stages_staged ran
    rw [show p.mem = simulator.end_cycle fetch_mem from staged.mem]
    rfl

theorem counts_initial (mem : U64 → Byte) (ptbr read_latency write_latency : U64) :
    (Framework.initial mem ptbr read_latency write_latency).Counts 0 :=
  ⟨0,0,0,⟨rfl,rfl,rfl,rfl,rfl,le_rfl,le_rfl,le_rfl,le_rfl,List.nodup_nil,fun _ inside =>
    absurd inside List.not_mem_nil⟩⟩

/-- What the counters say between two cycles: no cycle made more than two accesses or more than one write, and a
    read was of four to sixteen bytes, a write of eight. -/
theorem counts_bounded {n : Nat} {fw : Framework} (counts : fw.Counts n) (unissued : fw.memory_accesses_issued = []) :
    ∃ reads bytes writes, fw.cycle_counter = BitVec.ofNat 64 n ∧ fw.read_counter = BitVec.ofNat 64 reads ∧
      fw.read_bytes = BitVec.ofNat 64 bytes ∧ fw.write_counter = BitVec.ofNat 64 writes ∧ fw.write_bytes =
      BitVec.ofNat 64 (8 * writes) ∧ reads + writes ≤ 2 * n ∧ writes ≤ n ∧ 4 * reads ≤ bytes ∧ bytes ≤ 16 * reads := by
  obtain ⟨reads,bytes,writes,tallied⟩ := counts
  have accesses := tallied.accesses
  have stores := tallied.stores
  rw [show fw.counters.memory_accesses_issued = [] from unissued] at accesses stores
  exact ⟨reads,bytes,writes,tallied.cycle_counter,tallied.read_counter,tallied.read_bytes,tallied.write_counter,
    tallied.write_bytes,accesses,stores,tallied.least,tallied.most⟩

end RiscvSim
