import RiscvSim.Cache
import RiscvSim.Fields

/-!
How a cache takes an address apart. Tag, index and offset are the three fields of the address;
for both caches of the simulator their widths add up to that of an address, so that the set and
the stored tag say which block it is.
-/
namespace RiscvSim
open Fields

/-- The parameters of `construct_cache (2048, CACHE_DATA)`. -/
structure IsDataCache (cache : CacheTable) : Prop where
  type : cache.cache_type = .DATA
  blocks : cache.num_blocks = 2048
  index : cache.index_length = 11
  block : cache.block_size = 3

/-- The parameters of `construct_cache (512, CACHE_INSTRUCTION)`. -/
structure IsInstructionCache (cache : CacheTable) : Prop where
  type : cache.cache_type = .INSTRUCTION
  blocks : cache.num_blocks = 512
  index : cache.index_length = 9
  block : cache.block_size = 4

namespace CacheTable

theorem isDataCache_construct : IsDataCache (construct_cache 2048 .DATA) := ⟨rfl,rfl,by decide,rfl⟩
theorem isDataCache_setRow {cache : CacheTable} (params : IsDataCache cache) (i : U64) (r : CacheRow) :
    IsDataCache (cache.setRow i r) :=
  ⟨params.type,params.blocks,params.index,params.block⟩

end CacheTable

theorem isInstructionCache_construct : IsInstructionCache (construct_cache 512 .INSTRUCTION) := ⟨rfl,rfl,by decide,rfl⟩

/-- The fields of an address leave no bit out, and the rows are as many as the values of the index. -/
structure Splits (cache : CacheTable) : Prop where
  blocks : cache.num_blocks.toNat = 2^cache.index_length
  widths : cache.cache_type.tag_bits + (cache.block_size + cache.index_length) = 64

theorem IsDataCache.splits {cache : CacheTable} (params : IsDataCache cache) : Splits cache where
  blocks := by
    rw [params.blocks,params.index]
    rfl
  widths := by
    rw [params.type,params.block,params.index]
    rfl
theorem IsInstructionCache.splits {cache : CacheTable} (params : IsInstructionCache cache) : Splits cache where
  blocks := by
    rw [params.blocks,params.index]
    rfl
  widths := by
    rw [params.type,params.block,params.index]
    rfl

namespace CacheTable

theorem isInstructionCache_setRow {cache : CacheTable} (params : IsInstructionCache cache) (i : U64) (r : CacheRow) :
    IsInstructionCache (cache.setRow i r) := ⟨params.type,params.blocks,params.index,params.block⟩

/-! ### The fields of an address -/

theorem indexOf_field (cache : CacheTable) (a : U64) : cache.indexOf a = field a cache.block_size cache.index_length :=
  rfl
theorem subindexOf_field (cache : CacheTable) (a : U64) : cache.subindexOf a = field a 0 cache.block_size := rfl

section
variable {cache : CacheTable} (splits : Splits cache)
include splits

theorem fields_inside : cache.block_size + cache.index_length ≤ 64 := by
  have widths := splits.widths
  omega

theorem index_value (a : U64) : (cache.indexOf a).toNat = a.toNat / 2^cache.block_size % 2^cache.index_length := by
  rw [indexOf_field,field_toNat a (fields_inside splits)]
theorem subindex_value (a : U64) : (cache.subindexOf a).toNat = a.toNat % 2^cache.block_size := by
  have inside := fields_inside splits
  rw [subindexOf_field,field_toNat a (by omega),Nat.pow_zero,Nat.div_one]
/-- The test of `read_access` for an address inside a word. -/
theorem subindex_words (wide : 2 ≤ cache.block_size) (a : U64) : cache.subindexOf a &&& 3 = 0 ↔ a.toNat % 4 = 0 := by
  have low : a.toNat % 2^cache.block_size % 4 = a.toNat % 4 := Nat.mod_mod_of_dvd _ (Nat.pow_dvd_pow 2 wide)
  rw [← BitVec.toNat_inj,BitVec.toNat_and,subindex_value splits,show (3 : U64).toNat = 2^2-1 from rfl,
    Nat.and_two_pow_sub_one_eq_mod,← low]
  rfl
theorem index_below (a : U64) : (cache.indexOf a).toNat < cache.num_blocks.toNat := by
  rw [splits.blocks,indexOf_field]
  exact field_lt a (fields_inside splits)

/-- A tag of an address fits its bit-field. -/
theorem tag_stored (a : U64) : cache.fieldTag (cache.tagOf a) = cache.tagOf a := setWidth_above a splits.widths.ge

theorem address_joined (a : U64) :
    cache.tagOf a <<< (cache.index_length + cache.block_size) ||| cache.indexOf a <<< cache.block_size |||
    cache.subindexOf a = a :=
  join a (fields_inside splits)

theorem block_known (a b : U64) :
    cache.indexOf a = cache.indexOf b ∧ cache.tagOf a = cache.tagOf b ↔
      a >>> cache.block_size = b >>> cache.block_size :=
  above_iff a b (fields_inside splits)

end

/-- Tag, index and offset identify a block without loss, in both caches. -/
theorem address_without_loss (cache : CacheTable) (made : IsInstructionCache cache ∨ IsDataCache cache) (a b : U64) :
    (cache.indexOf a).toNat < cache.num_blocks.toNat ∧
    cache.tagOf a <<< (cache.index_length + cache.block_size) ||| cache.indexOf a <<< cache.block_size |||
      cache.subindexOf a = a ∧
    cache.fieldTag (cache.tagOf a) = cache.tagOf a ∧
    (cache.indexOf a = cache.indexOf b ∧ cache.fieldTag (cache.tagOf a) = cache.fieldTag (cache.tagOf b) ↔
      a >>> cache.block_size = b >>> cache.block_size) := by
  have splits : Splits cache := made.elim IsInstructionCache.splits IsDataCache.splits
  refine ⟨index_below splits a,address_joined splits a,tag_stored splits a,?_⟩
  rw [tag_stored splits,tag_stored splits]
  exact block_known splits a b

/-- The last byte of the address space and the block before its own. -/
theorem address_without_loss_top :
    (((construct_cache 512 .INSTRUCTION).indexOf (-1)).toNat < 512 ∧
      (construct_cache 512 .INSTRUCTION).tagOf (-1) <<< 13 ||| (construct_cache 512 .INSTRUCTION).indexOf (-1) <<< 4 |||
        (construct_cache 512 .INSTRUCTION).subindexOf (-1) = -1) ∧
    ¬ ((construct_cache 2048 .DATA).indexOf (-1) = (construct_cache 2048 .DATA).indexOf (-9) ∧
      (construct_cache 2048 .DATA).fieldTag ((construct_cache 2048 .DATA).tagOf (-1)) =
        (construct_cache 2048 .DATA).fieldTag ((construct_cache 2048 .DATA).tagOf (-9))) := by
  obtain ⟨below,joined,-⟩ := address_without_loss _ (.inl isInstructionCache_construct) (-1) (-1)
  obtain ⟨-,-,-,same⟩ := address_without_loss _ (.inr isDataCache_construct) (-1) (-9)
  exact ⟨⟨below,joined⟩,fun both => absurd (same.mp both) (by decide)⟩

/-! ### The fields in numbers -/

section
variable {cache : CacheTable} (params : IsDataCache cache)
include params

theorem indexOf_toNat (a : U64) : (cache.indexOf a).toNat = a.toNat/8%2048 := by
  rw [index_value params.splits,params.block,params.index]
  rfl
theorem tagOf_toNat (a : U64) : (cache.tagOf a).toNat = a.toNat/16384 := by
  rw [tagOf,params.index,params.block,BitVec.toNat_ushiftRight,Nat.shiftRight_eq_div_pow]
theorem subindexOf_toNat (a : U64) : (cache.subindexOf a).toNat = a.toNat%8 := by
  rw [subindex_value params.splits,params.block]
  rfl
theorem subindexOf_words (a : U64) : cache.subindexOf a &&& 3 = 0 ↔ a.toNat % 4 = 0 :=
  subindex_words params.splits (by rw [params.block]; decide) a
theorem subindexOf_word (a : U64) : (cache.subindexOf a >>> 2).toNat = a.toNat % 8 / 4 := by
  rw [BitVec.toNat_ushiftRight,subindexOf_toNat params,Nat.shiftRight_eq_div_pow]
theorem index_lt (a : U64) : (cache.indexOf a).toNat < 2048 := by
  have below := index_below params.splits a
  rwa [params.blocks] at below

end

section
variable {cache : CacheTable} (params : IsInstructionCache cache)
include params

theorem index_inside (a : U64) : (cache.indexOf a).toNat < cache.num_rows := by
  have below := index_below params.splits a
  rw [num_rows,params.type,Nat.mul_one]
  exact below
theorem subindexOf_instruction (a : U64) : (cache.subindexOf a).toNat = a.toNat % 16 := by
  rw [subindex_value params.splits,params.block]
  rfl
theorem subindexOf_instruction_words (a : U64) : cache.subindexOf a &&& 3 = 0 ↔ a.toNat % 4 = 0 :=
  subindex_words params.splits (by rw [params.block]; decide) a

end
end CacheTable
end RiscvSim
