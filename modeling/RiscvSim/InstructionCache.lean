import RiscvSim.CacheRows

/-!
What a read of the instruction cache can do. It hits, or finds the memory access of the
cycle taken, or asks memory for the block: by a request, or by a poll of an earlier one.
-/
namespace RiscvSim
open Bytes Runs

namespace CacheTable

/-- The row of an address, with the block of the address and the bytes given in it. -/
def filledRow (cache : CacheTable) (address : U64) (data : Buffer) : CacheRow :=
  ⟨cache.fieldTag (cache.tagOf address),data,false,true⟩

theorem holds_filled {cache : CacheTable} (params : IsInstructionCache cache) (address : U64) (data : Buffer) :
    (cache.setRow (cache.indexOf address) (cache.filledRow address data)).Holds (cache.indexOf address) address := by
  rw [Holds,setRow_same]
  exact ⟨rfl,tag_stored params.splits address⟩

/-- The word of the block that an address is at. -/
def wordOf (cache : CacheTable) (address : U64) : Nat := (cache.subindexOf address >>> 2).toNat

theorem word_inside {cache : CacheTable} (params : IsInstructionCache cache) (address : U64) :
    ¬ cache.cache_type.Overrun (4 * (cache.subindexOf address >>> 2).toNat) (CacheRow.hit_bytes 4) := by
  rw [CacheType.Overrun,params.type,BitVec.toNat_ushiftRight,subindexOf_instruction params,Nat.shiftRight_eq_div_pow]
  show ¬ 16 < 4 * (address.toNat % 16 / 4) + 4
  omega

variable {σ : Type} {port : MemoryPort σ}

/-- The ways out of `read_access` on the instruction cache, for four bytes. -/
inductive InstructionReads (port : MemoryPort σ) (cache : CacheTable) (mem : σ) (address value : U64)
    (is_followup memory_read_available : Bool) : U8 × U64 × CacheTable × σ → Prop
  | hits (holds : cache.Holds (cache.indexOf address) address) :
    InstructionReads port cache mem address value is_followup memory_read_available
      (0,storeLow 4 value ((cache.rows (cache.indexOf address)).hit (cache.wordOf address) 4),cache,mem)
  | busy (missing : ¬ cache.Holds (cache.indexOf address) address) (taken : memory_read_available = false) :
    InstructionReads port cache mem address value is_followup memory_read_available (2,value,cache,mem)
  | waits (missing : ¬ cache.Holds (cache.indexOf address) address) (free : memory_read_available = true)
    (data : Buffer) (mem' : σ)
    (asked : cache.get_block port mem address (cache.rows (cache.indexOf address)) is_followup =
      .ok (false,data,mem')) :
    InstructionReads port cache mem address value is_followup memory_read_available
      (1,value,cache.setRow (cache.indexOf address) { cache.rows (cache.indexOf address) with data := data },mem')
  | fills (missing : ¬ cache.Holds (cache.indexOf address) address) (free : memory_read_available = true)
    (data : Buffer) (mem' : σ)
    (asked : cache.get_block port mem address (cache.rows (cache.indexOf address)) is_followup = .ok (true,data,mem')) :
    InstructionReads port cache mem address value is_followup memory_read_available
      (0,storeLow 4 value ((cache.filledRow address data).hit (cache.wordOf address) 4),
        cache.setRow (cache.indexOf address) (cache.filledRow address data),mem')

/-- Where the victim needs no write-back, an eviction is a read of the block into its row. -/
theorem evict_read_clean {cache : CacheTable} {mem : σ} {address index i : U64} {is_followup : Bool}
    {r : Option U64 × CacheTable × σ} (chosen : cache.victim index = .ok i)
    (clean : ¬ (cache.cache_type = .DATA ∧ (cache.rows i).dirty = true))
    (ran : cache.evict_read port mem address index (cache.tagOf address) is_followup = .ok r) :
    ∃ done data mem', cache.get_block port mem address (cache.rows i) is_followup = .ok (done,data,mem') ∧
      r = (if done then (some i,cache.setRow i (cache.filledRow address data),mem')
        else (none,cache.setRow i { cache.rows i with data := data },mem')) := by
  unfold evict_read at ran
  rw [chosen,ok_bind] at ran
  obtain ⟨⟨written,cache₁,mem₁⟩,cleaned,ran⟩ := bind_ok.mp ran
  obtain ⟨row,inside,cleaned⟩ := bind_ok.mp cleaned
  obtain ⟨bound,rfl⟩ := row_ok.mp inside
  rw [if_neg clean] at cleaned
  cases cleaned
  simp only [Bool.true_eq_false,and_false,if_false] at ran
  obtain ⟨⟨done,cache₂,mem₂⟩,filled,ran⟩ := bind_ok.mp ran
  obtain ⟨row,inside,filled⟩ := bind_ok.mp filled
  obtain ⟨-,rfl⟩ := row_ok.mp inside
  obtain ⟨⟨done,data,mem'⟩,asked,filled⟩ := bind_ok.mp filled
  cases filled
  refine ⟨_,data,_,asked,?_⟩
  cases done with
  | false =>
    cases ran
    rfl
  | true =>
    simp only [Bool.true_eq_false,or_self,if_false] at ran
    rw [row_setRow bound,ok_bind] at ran
    cases ran
    simp [filledRow]

theorem lookup_instruction {cache : CacheTable} (params : IsInstructionCache cache) {address : U64} {sub : Nat}
    {found : Option CacheRow} (ran : cache.lookup (cache.indexOf address) (cache.tagOf address) sub 4 = .ok found) :
    found =
      if cache.Holds (cache.indexOf address) address then some (cache.rows (cache.indexOf address)) else none := by
  obtain ⟨row,inside,ran⟩ := bind_ok.mp ran
  obtain ⟨-,rfl⟩ := row_ok.mp inside
  simp only [params.type] at ran
  cases ran
  have whole : ((4 : U64) ≠ 8 ∨ sub ≠ 3) := .inl (by decide)
  by_cases holds : cache.Holds (cache.indexOf address) address
  · rw [if_pos holds,if_pos ⟨holds.1,holds.2,whole⟩]
  · rw [if_neg holds,if_neg fun found => holds ⟨found.1,found.2.1⟩]

theorem read_access_instruction {cache : CacheTable} (params : IsInstructionCache cache) {mem : σ} {address value : U64}
    {is_followup memory_read_available : Bool} {r : U8 × U64 × CacheTable × σ}
    (ran : cache.read_access port mem address 4 value is_followup memory_read_available = .ok r) :
    InstructionReads port cache mem address value is_followup memory_read_available r := by
  unfold read_access at ran
  split at ran
  · cases ran
  obtain ⟨⟨found,cache',mem'⟩,read,ran⟩ := bind_ok.mp ran
  obtain ⟨row,looked,read⟩ := bind_ok.mp read
  have looked := lookup_instruction params looked
  by_cases holds : cache.Holds (cache.indexOf address) address
  · rw [if_pos holds] at looked
    subst looked
    cases read
    simp only [if_neg (word_inside params address)] at ran
    cases ran
    exact .hits holds
  rw [if_neg holds] at looked
  subst looked
  cases memory_read_available with
  | false =>
    cases read
    cases ran
    exact .busy holds rfl
  | true =>
    simp only [Bool.true_eq_false,if_false] at read
    obtain ⟨outcome,evicted,read⟩ := bind_ok.mp read
    have direct : cache.victim (cache.indexOf address) = .ok (cache.indexOf address) := by
      simp only [victim,params.type]; rfl
    obtain ⟨done,data,mem'',asked,rfl⟩ := evict_read_clean direct (by simp [params.type]) evicted
    cases done with
    | false =>
      cases read
      cases ran
      exact .waits holds rfl data _ asked
    | true =>
      obtain ⟨row,inside,read⟩ := bind_ok.mp read
      obtain ⟨-,rfl⟩ := row_ok.mp inside
      cases read
      simp only [if_true,setRow_same] at ran
      rw [if_neg (show ¬ (cache.setRow _ (cache.filledRow address data)).cache_type.Overrun _ _ from word_inside params
        address)] at ran
      cases ran
      exact .fills holds rfl data _ asked

theorem read_access_params {cache cache' : CacheTable} (params : IsInstructionCache cache) {mem mem' : σ}
    {address value value' : U64} {is_followup memory_read_available : Bool} {code : U8}
    (ran : cache.read_access port mem address 4 value is_followup memory_read_available =
      .ok (code,value',cache',mem')) :
    IsInstructionCache cache' := by
  cases read_access_instruction params ran with
  | hits => exact params
  | busy => exact params
  | waits => exact isInstructionCache_setRow params _ _
  | fills => exact isInstructionCache_setRow params _ _

end CacheTable
end RiscvSim
