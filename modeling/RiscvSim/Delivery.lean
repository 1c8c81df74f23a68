import RiscvSim.FlatPipeline
import RiscvSim.CacheFlat
import RiscvSim.Simulator

/-!
What the two stages get from their TLB and cache. A translation that is finished is in the TLB,
and a read that is done is of a row in the cache: the value of a load is in the row of the data cache
that holds its block, and the word of a fetch is in the instruction cache.
-/
namespace RiscvSim
open Bytes Runs

/-- A finished translation is that of the entry of the address. -/
theorem Tlb.get_address_finished {σ : Type} {port : MemoryPort σ} {ptbr : U64} {t t' : Tlb} {mem mem' : σ}
    {va out out' : U32} {status code : U8} {locals : TlbLocals}
    (called : t.get_address port ptbr mem va out status locals = .ok (code,out',t',mem'))
    (finished : code = 0xFE ∨ code = 0xFF) : t'.Hit va ∧ out' = t'.translation va := by
  unfold get_address at called
  simp only at called
  split at called
  · rename_i hit
    cases called
    exact ⟨hit.2,rfl⟩
  obtain ⟨⟨new_status,ret,t₁,mem₁⟩,updated,called⟩ := bind_ok.mp called
  simp only at called
  split at called
  · rename_i unfinished
    cases called
    rcases finished with rfl | rfl
    · exact absurd rfl (PageTables.update_code updated)
    · exact absurd rfl unfinished
  rename_i ended
  cases called
  cases not_not.mp ended
  -- only the last step of a walk returns 0xFF, and it enters the page that it returns
  cases update_tlb_entry_updates updated with
  | enters later valid word _ read present group =>
    refine ⟨⟨?_,?_⟩,?_⟩
    · simp
      bv_omega
    · simp
    · simp [translation]

/-- A read that is done delivers the row that holds the block. -/
theorem CacheTable.read_access_row {σ : Type} {port : MemoryPort σ} {cache cache' : CacheTable}
    (params : IsDataCache cache) {mem mem' : σ} {a size value value' : U64} {followup available : Bool}
    (ran : cache.read_access port mem a size value followup available = .ok (0,value',cache',mem')) :
    a.toNat % 4 = 0 ∧ ∃ i, cache'.Covers i a ∧ (i ≠ cache'.indexOf a → ¬ cache'.Holds (cache'.indexOf a) a) ∧
      value' = storeLow size.toNat value ((cache'.rows i).hit (a.toNat % 8 / 4) size) := by
  have bound := index_lt params a
  unfold read_access at ran
  split at ran
  · cases ran
  rename_i whole
  refine ⟨(subindexOf_words params a).mp (not_not.mp whole),?_⟩
  rw [subindexOf_word params] at ran
  obtain ⟨⟨found,cache₁,mem₁⟩,read,ran⟩ := bind_ok.mp ran
  have delivered {row : CacheRow} (here : found = .inr row) :
      value' = storeLow size.toNat value (row.hit (a.toNat % 8 / 4) size) ∧ cache₁ = cache' := by
    subst here
    simp only at ran
    split at ran
    · cases ran
    split at ran
    · cases ran
      exact ⟨rfl,rfl⟩
    · cases ran
  rw [read_row,lookup_data params,ok_bind] at read
  by_cases first : cache.Holds (cache.indexOf a) a
  · rw [if_pos first] at read
    cases read
    obtain ⟨rfl,rfl⟩ := delivered rfl
    exact ⟨_,⟨.inl rfl,first⟩,fun other => absurd rfl other,rfl⟩
  by_cases second : cache.Holds (cache.indexOf a + cache.num_blocks) a
  · rw [if_neg first,if_pos second] at read
    cases read
    obtain ⟨rfl,rfl⟩ := delivered rfl
    exact ⟨_,⟨.inr rfl,second⟩,fun _ => first,rfl⟩
  rw [if_neg first,if_neg second] at read
  simp only at read
  split at read
  · cases read
    cases ran
  obtain ⟨⟨victim,cache₂,mem₂⟩,evicted,read⟩ := bind_ok.mp read
  obtain ⟨r,rfl,⟨rfl,-⟩ | ⟨rfl,tag,valid⟩⟩ := evict_read_effect port (victim_first params bound) evicted
  · cases read
    cases ran
  obtain ⟨row,inside,read⟩ := bind_ok.mp read
  obtain ⟨-,rfl⟩ := row_ok.mp inside
  cases read
  obtain ⟨rfl,rfl⟩ := delivered rfl
  rw [tag_stored params.splits] at tag
  refine ⟨cache.victimOf (cache.indexOf a),⟨victimOf_cases cache _,?_⟩,?_,rfl⟩
  · rw [Holds,setRow_same]
    exact ⟨valid,tag⟩
  · intro other held
    rw [setRow_indexOf] at other held
    rw [Holds,setRow_other _ _ other.symm] at held
    exact first held

/-- Translation keeps the place in a block. -/
theorem Tlb.translation_mod (t : Tlb) (va : U32) : (t.translation va).toNat % 8 = va.toNat % 8 := by
  unfold translation physical
  generalize ((t.entries ((index va).setWidth 3)).physical_page.setWidth 32 : U32) = page
  rw [show (8 : Nat) = 2^3 from rfl,BitVec.toNat_or,Nat.or_mod_two_pow,BitVec.toNat_shiftLeft,BitVec.toNat_ushiftRight,
    BitVec.toNat_shiftLeft]
  have high : page.toNat <<< 14 % 2^32 % 2^3 = 0 := by
    rw [Nat.shiftLeft_eq]
    omega
  have low : (va.toNat <<< 18 % 2^32) >>> 18 % 2^3 = va.toNat % 2^3 := by
    rw [Nat.shiftLeft_eq,Nat.shiftRight_eq_div_pow]
    omega
  rw [high,low,Nat.zero_or]

/-- The word that a fetch finds in the cache. -/
def MemoryState.cached_word {φ : Type} (mem : MemoryState φ) (pc : U64) : Option U32 :=
  let address : U64 := (mem.itlb.translation (pc.setWidth 32)).setWidth 64
  if mem.itlb.Hit (pc.setWidth 32) ∧ mem.instruction_cache.Holds (mem.instruction_cache.indexOf address) address then
    some ((mem.instruction_cache.rows (mem.instruction_cache.indexOf address)).word
      (mem.instruction_cache.wordOf address))
  else none

theorem setWidth_storeLow (row : CacheRow) (k : Nat) (value : U64) :
    (storeLow 4 value (row.hit k 4)).setWidth 32 = row.word k := by
  refine eq_of_byteAt (n := 4) fun i inside => ?_
  rw [byteAt_setWidth _ _ (by omega),byteAt_storeLow _ _ _ _ (by omega),if_pos inside]
  rw [CacheRow.hit,if_neg (by decide),byteAt_setWidth _ _ (by omega)]

/-- A fetch delivers a word that the cache then holds. -/
theorem delivered_cached {φ : Type} {b : Backing φ} {mem : MemoryState φ} {locals : CalleeLocals}
    {d new_d_reg : StageRegD} {pc pc' : U64} {table : BranchTable} {d' : StageRegD} {delivered : U64 × U32}
    {mem' : MemoryState φ} (params : IsInstructionCache mem.instruction_cache)
    (fetched : Fetches (simulatorOver b) mem locals d new_d_reg pc table (d',pc',some delivered,mem')) :
    delivered.1 = pc ∧ mem'.cached_word pc = some delivered.2 := by
  cases fetched with
  | delivers status physical_pc mem₁ instruction mem₂ translated finished read =>
    refine ⟨rfl,?_⟩
    obtain ⟨tlb,framework,answered,rfl⟩ := itlb_address_moved translated
    obtain ⟨hit,rfl⟩ := Tlb.get_address_finished answered finished
    obtain ⟨value,cache,framework',ran,rfl,rfl⟩ := instruction_read_moved read
    cases CacheTable.read_access_instruction params ran with
    | hits holds =>
      rw [setWidth_storeLow]
      exact if_pos ⟨hit,holds⟩
    | fills missing free data _ asked =>
      rw [setWidth_storeLow]
      refine (if_pos ⟨hit,CacheTable.holds_filled params _ data⟩).trans (congrArg some ?_)
      exact congrArg (CacheRow.word · _) (CacheTable.setRow_same _ _ _)

/-- The caches are those that `initialise` constructs. -/
structure MemoryState.Built {φ : Type} (mem : MemoryState φ) : Prop where
  instruction_cache : IsInstructionCache mem.instruction_cache
  data_cache : IsDataCache mem.data_cache

theorem stages_built {φ : Type} {b : Backing φ} {p p' : Pipeline (MemoryState φ)} {locals : CalleeLocals}
    {events : Events} (built : p.mem.Built) (ran : stages (simulatorOver b) p locals = .ok (p',events)) :
    p'.mem.Built := by
  obtain ⟨memory_mem,execute_pc,decode_pc,fetch_mem,staged⟩ := stages_staged ran
  have memory := accesses_moved staged.memory
  have fetch := fetches_moved staged.fetch
  have instruction : IsInstructionCache memory_mem.instruction_cache := memory.instruction_cache ▸
    built.instruction_cache
  have data : IsDataCache memory_mem.data_cache := memory.params built.data_cache
  rw [staged.mem]
  exact ⟨fetch.params instruction,show IsDataCache fetch_mem.data_cache from fetch.data_cache ▸ data⟩

theorem cycle_built {φ : Type} {b : Backing φ} {c c' : Pipeline (MemoryState φ) × List Events} {locals : CalleeLocals}
    (built : c.1.mem.Built) (stepped : cycle (simulatorOver b) c locals = .ok c') : c'.1.mem.Built := by
  rcases cycle_cases stepped with ⟨inst,rfl⟩ | ⟨inst,p,events,staged,rfl⟩
  · exact built
  · exact stages_built (p := { c.1 with inst := inst }) built staged

end RiscvSim
