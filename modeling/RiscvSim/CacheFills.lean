import RiscvSim.CacheFlat
import RiscvSim.InstructionCache

/-!
What a miss brings in, in either cache, from memory without latency. The read asks for as
many bytes as a row has, but at the address of the access: in the middle of a block it is
refused and still reported as done. So it is after a write-back, which takes the one memory
access of the stage.
-/
namespace RiscvSim
open Bytes Runs

namespace Framework

/-- The same state with other contents of memory. -/
def withMem (fw : Framework) (mem : U64 → Byte) : Framework := { fw with riscv_mem := mem }

theorem Fresh.withMem {fw : Framework} {stage : Stage} (fresh : fw.Fresh stage) (mem : U64 → Byte) :
    (fw.withMem mem).Fresh stage :=
  ⟨fresh.entered,fresh.issued,fresh.read,fresh.write,fresh.size,fresh.pages⟩

end Framework

namespace CacheTable

/-- The same rows with other contents. -/
def withData (cache : CacheTable) (data : U64 → Buffer) : CacheTable :=
  { cache with rows := fun i => { cache.rows i with data := data i } }

/-- The stage that uses the cache. -/
def stageOf (cache : CacheTable) : Stage := match cache.cache_type with | .INSTRUCTION => .F | .DATA => .M

/-- The row that a miss at the address gives up. -/
def evicted (cache : CacheTable) (a : U64) : U64 :=
  match cache.cache_type with | .INSTRUCTION => cache.indexOf a | .DATA => cache.givenUp a

/-- The row is of the set of the address. -/
def OfSet (cache : CacheTable) (i a : U64) : Prop :=
  i = cache.indexOf a ∨ cache.cache_type = .DATA ∧ i = cache.indexOf a + cache.num_blocks

/-- The row tagged for the address holds the block of memory that the address is in. -/
structure Filled (cache : CacheTable) (fw : Framework) (a : U64) : Prop where
  tagged : ∃ i, cache.OfSet i a ∧ cache.Holds i a
  block : ∀ i, cache.OfSet i a → cache.Holds i a → ∀ k < cache.cache_type.row_bytes.toNat, (cache.rows i).data k =
    fw.riscv_mem (BitVec.ofNat 64 (a.toNat / cache.cache_type.row_bytes.toNat * cache.cache_type.row_bytes.toNat + k))

/-- The write-back of a dirty row is made, and takes the memory access of the stage. -/
def WritesBack (cache : CacheTable) (fw : Framework) (i : U64) : Prop :=
  cache.cache_type = .DATA ∧ (cache.rows i).dirty = true ∧ ¬ cache.oldAddress i + 8 > fw.riscv_mem_size

variable {cache : CacheTable}

/-- What a write-back leaves of memory, and of the access of the stage. -/
structure CleanedFrom (cache : CacheTable) (i : U64) (fw fw₁ : Framework) : Prop where
  stage : fw₁.current_stage = fw.current_stage
  latency : fw₁.memory_read_latency = 0
  size : fw₁.riscv_mem_size = fw.riscv_mem_size
  same : ¬ cache.WritesBack fw i → fw₁ = fw
  taken : cache.WritesBack fw i → fw₁.current_stage ∈ fw₁.memory_accesses_issued
  bytes : ∀ o, fw₁.riscv_mem o = fw.riscv_mem o ∨ ∃ k < 8, fw₁.riscv_mem o = (cache.rows i).data k

theorem oldAddress_aligned (params : IsDataCache cache) (i : U64) : cache.oldAddress i % 8 = 0 := by
  apply BitVec.eq_of_toNat_eq
  rw [BitVec.toNat_umod]
  simp only [oldAddress,fieldTag,params.type,CacheType.tag_bits,params.index,params.block,BitVec.toNat_or,
    BitVec.toNat_setWidth,BitVec.toNat_shiftLeft,Nat.shiftLeft_eq]
  have high : (cache.rows i).tag.toNat * 2^(11+3) % 2^64 % 2^50 % 2^64 % 2^3 = 0 := by omega
  have low : i.toNat * 2^3 % 2^64 % 2^3 = 0 := by omega
  rw [show (8 : U64).toNat = 2^3 from rfl,Nat.or_mod_two_pow,high,low]
  rfl

theorem clean_row_fresh {fw : Framework} (data : cache.cache_type = .DATA → IsDataCache cache)
    (fresh : fw.Fresh cache.stageOf) {i : U64} (inside : i.toNat < cache.num_rows) :
    ∃ dirty fw₁, cache.clean_row Framework.port fw i false =
      .ok (true,cache.setRow i { cache.rows i with dirty := dirty },fw₁) ∧ CleanedFrom cache i fw fw₁ := by
  rw [clean_row,row_inside inside,ok_bind]
  by_cases dirty : cache.cache_type = .DATA ∧ (cache.rows i).dirty = true
  · have stage : cache.stageOf = .M := by rw [stageOf,dirty.1]
    rw [stage] at fresh
    obtain ⟨fw₁,written,steady,size,refused,made⟩ :=
      Framework.memory_write_row fresh (oldAddress_aligned (data dirty.1) i) (cache.rows i).dword
    refine ⟨false,fw₁,?_,steady.stage.trans fresh.entered.symm,steady.read,size,?_,?_,?_⟩
    · rw [if_pos dirty,write_back,row_inside inside,ok_bind,put_block]
      simp only [Framework.port,written,pure_eq,ok_bind,if_true]
    · intro kept
      exact refused (by_contra fun range => kept ⟨dirty.1,dirty.2,range⟩)
    · intro back
      rw [steady.stage]
      exact (made back.2.2).1
    · intro o
      by_cases past : cache.oldAddress i + 8 > fw.riscv_mem_size
      · rw [refused past]
        exact .inl rfl
      · rw [(made past).2 o]
        by_cases small : (o - cache.oldAddress i).toNat < 8
        · rw [if_pos small,CacheRow.dword,byteAt_value _ _ _ (by omega),if_pos small]
          exact .inr ⟨_,small,rfl⟩
        · exact .inl (if_neg small)
  · rw [if_neg dirty]
    refine ⟨(cache.rows i).dirty,fw,?_,rfl,fresh.read,rfl,fun _ => rfl,fun back => absurd ⟨back.1,back.2.1⟩ dirty,
      fun _ => .inl rfl⟩
    rw [show ({ cache.rows i with dirty := (cache.rows i).dirty } : CacheRow) = cache.rows i from rfl,setRow_self]
    rfl

/-- The data cache or the instruction cache. -/
def IsCache (cache : CacheTable) : Prop := IsDataCache cache ∨ IsInstructionCache cache

theorem IsCache.data (cached : cache.IsCache) (type : cache.cache_type = .DATA) : IsDataCache cache :=
  cached.resolve_right fun params => absurd (params.type.symm.trans type) (by decide)

theorem IsCache.victim (cached : cache.IsCache) (a : U64) : cache.victim (cache.indexOf a) = .ok (cache.evicted a) := by
  rcases cached with params | params
  · rw [victim_first params (index_lt params a),evicted,params.type]
    rfl
  · simp only [CacheTable.victim,evicted,params.type]
    rfl

theorem IsCache.inside (cached : cache.IsCache) (a : U64) : (cache.evicted a).toNat < cache.num_rows := by
  rcases cached with params | params
  · rw [evicted,params.type]
    exact victimOf_inside params (index_lt params a)
  · rw [evicted,params.type]
    exact index_inside params a

theorem IsCache.tag (cached : cache.IsCache) (a : U64) : cache.fieldTag (cache.tagOf a) = cache.tagOf a := by
  rcases cached with params | params
  · exact tag_stored params.splits a
  · exact tag_stored params.splits a

theorem IsCache.row (cached : cache.IsCache) : cache.cache_type.row_bytes = 8 ∨ cache.cache_type.row_bytes = 16 := by
  rcases cached with params | params <;> rw [params.type]
  · exact .inl rfl
  · exact .inr rfl

theorem IsCache.stage (cached : cache.IsCache) : cache.stageOf = .F ∨ cache.stageOf = .M := by
  rcases cached with params | params <;> rw [stageOf,params.type]
  · exact .inr rfl
  · exact .inl rfl

theorem IsCache.whole (cached : cache.IsCache) {a : U64} (words : a.toNat % 4 = 0) : cache.subindexOf a &&& 3 = 0 := by
  rcases cached with params | params
  · exact (subindexOf_words params a).mpr words
  · exact (subindexOf_instruction_words params a).mpr words

/-- The read finds no row: the look-up in the instruction cache also gives up on the last eight bytes past a row. -/
def Misses (cache : CacheTable) (a size : U64) : Prop := cache.lookup (cache.indexOf a) (cache.tagOf a)
    (cache.wordOf a) size = .ok none

theorem IsCache.misses_iff (cached : cache.IsCache) {a size : U64} :
    cache.Misses a size ↔ ∀ i, cache.OfSet i a → cache.Holds i a → cache.cache_type = .INSTRUCTION ∧ size = 8 ∧
    cache.wordOf a = 3 := by
  rcases cached with params | params
  · rw [Misses,lookup_data params]
    constructor
    · intro missing i
      by_cases first : cache.Holds (cache.indexOf a) a
      · simp [first] at missing
      · by_cases second : cache.Holds (cache.indexOf a + cache.num_blocks) a
        · simp [first,second] at missing
        · rintro (rfl | ⟨-,rfl⟩) held
          · exact absurd held first
          · exact absurd held second
    · intro free
      rw [if_neg,if_neg]
      · intro second
        exact absurd ((free _ (.inr ⟨params.type,rfl⟩) second).1.symm.trans params.type) (by decide)
      · intro first
        exact absurd ((free _ (.inl rfl) first).1.symm.trans params.type) (by decide)
  · have looked : cache.lookup (cache.indexOf a) (cache.tagOf a) (cache.wordOf a) size = .ok
        (if cache.Holds (cache.indexOf a) a ∧ (size ≠ 8 ∨ cache.wordOf a ≠ 3) then some (cache.rows (cache.indexOf a))
          else none) := by
      rw [lookup,row_inside (index_inside params a),ok_bind]
      simp only [params.type,Holds,and_assoc]
      rfl
    rw [Misses,looked]
    constructor
    · intro missing i set held
      obtain rfl : i = cache.indexOf a := set.elim id fun second => absurd (params.type.symm.trans second.1) (by decide)
      by_contra other
      rw [if_pos ⟨held,by by_contra both; exact other ⟨params.type,by simpa using both⟩⟩] at missing
      cases missing
    · intro free
      rw [if_neg]
      rintro ⟨held,part⟩
      have last := (free _ (.inl rfl) held).2
      exact part.elim (fun size => size last.1) (fun word => word last.2)

theorem IsCache.withData (cached : cache.IsCache) (data : U64 → Buffer) : (cache.withData data).IsCache :=
  cached.imp (fun params => ⟨params.type,params.blocks,params.index,params.block⟩)
    fun params => ⟨params.type,params.blocks,params.index,params.block⟩

theorem IsCache.misses_withData (cached : cache.IsCache) {a size : U64} (missing : cache.Misses a size)
    (data : U64 → Buffer) :
    (cache.withData data).Misses a size :=
  (cached.withData data).misses_iff.mpr (cached.misses_iff.mp missing)

theorem IsCache.evicted_ofSet (cached : cache.IsCache) (a : U64) : cache.OfSet (cache.evicted a) a := by
  rcases cached with params | params
  · rw [evicted,params.type]
    exact (givenUp_place cache a).imp id fun second => ⟨params.type,second⟩
  · rw [evicted,params.type]
    exact .inl rfl

/-- A miss leaves no other row with the tag of the address. -/
theorem IsCache.tagged_once (cached : cache.IsCache) {a size i : U64} (missing : cache.Misses a size)
    (set : cache.OfSet i a) (held : cache.Holds i a) : i = cache.evicted a := by
  have instruction := (cached.misses_iff.mp missing i set held).1
  rw [evicted,instruction]
  exact set.elim id fun second => absurd (instruction.symm.trans second.1) (by decide)

theorem filled_iff (cached : cache.IsCache) {a size : U64} (missing : cache.Misses a size) (data : Buffer)
    (fw : Framework) :
    (cache.setRow (cache.evicted a) ⟨cache.tagOf a,data,false,true⟩).Filled fw a ↔
      ∀ k < cache.cache_type.row_bytes.toNat, data k = fw.riscv_mem (BitVec.ofNat 64
        (a.toNat / cache.cache_type.row_bytes.toNat * cache.cache_type.row_bytes.toNat + k)) := by
  have here : (cache.setRow (cache.evicted a) ⟨cache.tagOf a,data,false,true⟩).Holds (cache.evicted a) a := by
    rw [Holds,setRow_same]
    exact ⟨rfl,rfl⟩
  constructor
  · intro filled k small
    have byte := filled.block (cache.evicted a) (cached.evicted_ofSet a) here k small
    rwa [setRow_same] at byte
  · intro bytes
    refine ⟨⟨cache.evicted a,cached.evicted_ofSet a,here⟩,fun i set held k small => ?_⟩
    by_cases same : i = cache.evicted a
    · subst same
      rw [setRow_same]
      exact bytes k small
    · rw [Holds,setRow_other _ _ same] at held
      exact absurd (cached.tagged_once missing set held) same

/-- The words of an access that ends in its row are in the row. -/
theorem IsCache.words_inside (cached : cache.IsCache) {a size : U64} (words : a.toNat % 4 = 0)
    (legal : size = 1 ∨ size = 2 ∨ size = 4 ∨ size = 8)
    (ends : a.toNat % cache.cache_type.row_bytes.toNat + size.toNat ≤ cache.cache_type.row_bytes.toNat) :
    ¬ cache.cache_type.Overrun (4 * (cache.subindexOf a >>> 2).toNat) (CacheRow.hit_bytes size) := by
  rw [BitVec.toNat_ushiftRight,Nat.shiftRight_eq_div_pow,CacheType.Overrun]
  rcases cached with params | params
  · rw [subindexOf_toNat params,params.type]
    rw [params.type] at ends
    rcases legal with rfl | rfl | rfl | rfl <;> simp [CacheType.row_bytes,CacheRow.hit_bytes] at ends ⊢ <;> omega
  · rw [subindexOf_instruction params,params.type]
    rw [params.type] at ends
    rcases legal with rfl | rfl | rfl | rfl <;> simp [CacheType.row_bytes,CacheRow.hit_bytes] at ends ⊢ <;> omega

/-- The row after a miss: read into from the address of the access, and tagged for it. -/
def broughtIn (cache : CacheTable) (fw : Framework) (a : U64) : CacheRow :=
  ⟨cache.tagOf a,fw.readInto a (cache.rows (cache.evicted a)).data cache.cache_type.row_bytes,false,true⟩

theorem read_miss (cached : cache.IsCache) {fw : Framework} (fresh : fw.Fresh cache.stageOf) {a size : U64}
    (words : a.toNat % 4 = 0) (inside : a.toNat < fw.riscv_mem_size.toNat)
    (legal : size = 1 ∨ size = 2 ∨ size = 4 ∨ size = 8)
    (ends : a.toNat % cache.cache_type.row_bytes.toNat + size.toNat ≤ cache.cache_type.row_bytes.toNat)
    (missing : cache.Misses a size) (value : U64) :
    ∃ value' fw₁ fw₂, cache.CleanedFrom (cache.evicted a) fw fw₁ ∧ fw₂.riscv_mem = fw₁.riscv_mem ∧
      cache.read_access Framework.port fw a size value false true =
        .ok (0,value',cache.setRow (cache.evicted a) (cache.broughtIn fw₁ a),fw₂) := by
  obtain ⟨dirty,fw₁,cleaned,left⟩ := clean_row_fresh (i := cache.evicted a) (fun type => cached.data type) fresh
    (cached.inside a)
  have stage : fw₁.current_stage = .F ∨ fw₁.current_stage = .M := by
    rw [left.stage,fresh.entered]
    exact cached.stage
  have range : a.toNat % cache.cache_type.row_bytes.toNat = 0 →
      ¬ (a + cache.cache_type.row_bytes > fw₁.riscv_mem_size) := by
    rw [left.size]
    exact fresh.row_in_range cached.row inside
  obtain ⟨fw₂,read,same⟩ := Framework.memory_read_row stage left.latency cached.row range
    (cache.rows (cache.evicted a)).data
  have evicted : cache.evict_read Framework.port fw a (cache.indexOf a) (cache.tagOf a) false =
      .ok (some (cache.evicted a),cache.setRow (cache.evicted a) (cache.broughtIn fw₁ a),fw₂) := by
    rw [evict_read_done (cached.victim a) (cached.inside a) cleaned read,cached.tag a]
    rfl
  have row : cache.read_row Framework.port fw a (cache.indexOf a) (cache.tagOf a) (cache.wordOf a) size false true =
      .ok (.inr (cache.broughtIn fw₁ a),cache.setRow (cache.evicted a) (cache.broughtIn fw₁ a),fw₂) := by
    rw [read_row,missing]
    simp only [ok_bind,Bool.true_eq_false,if_false,evicted,row_setRow (cached.inside a),pure_eq]
  rw [wordOf] at row
  have words_inside : ¬ (cache.setRow (cache.evicted a) (cache.broughtIn fw₁ a)).cache_type.Overrun
      (4 * (cache.subindexOf a >>> 2).toNat) (CacheRow.hit_bytes size) := cached.words_inside words legal ends
  simp only [read_access,if_neg (not_not_intro (cached.whole words)),row,ok_bind,if_neg words_inside,
    if_pos legal,pure_eq]
  exact ⟨_,fw₁,fw₂,left,same,rfl⟩

/-- A miss of an access that ends in its row fills the row with the block, whatever memory and the rows contain,
    exactly if the address is that of the block and no write-back takes the memory access of the stage. -/
theorem fill_brings_block_iff (cached : cache.IsCache) {fw : Framework} (fresh : fw.Fresh cache.stageOf) {a size : U64}
    (words : a.toNat % 4 = 0) (inside : a.toNat < fw.riscv_mem_size.toNat)
    (legal : size = 1 ∨ size = 2 ∨ size = 4 ∨ size = 8)
    (ends : a.toNat % cache.cache_type.row_bytes.toNat + size.toNat ≤ cache.cache_type.row_bytes.toNat)
    (missing : cache.Misses a size) :
    (∀ value, ∃ value' cache' fw', cache.read_access Framework.port fw a size value false true =
      .ok (0,value',cache',fw')) ∧
    ((∀ mem data value value' cache' fw',
        (cache.withData data).read_access Framework.port (fw.withMem mem) a size value false true =
          .ok (0,value',cache',fw') → cache'.Filled fw' a) ↔
      a.toNat % cache.cache_type.row_bytes.toNat = 0 ∧ ¬ cache.WritesBack fw (cache.evicted a)) := by
  refine ⟨fun value => ?_,fun filled => ?_,?_⟩
  · obtain ⟨_,_,_,-,-,ran⟩ := read_miss cached fresh words inside legal ends missing value
    exact ⟨_,_,_,ran⟩
  · -- with ones in memory and in the rows, a zero in the row tells that the read was refused
    have again := cached.misses_withData missing fun _ _ => 1
    obtain ⟨_,fw₁,fw₂,left,same,ran⟩ := read_miss (cached.withData fun _ _ => 1) (fresh.withMem fun _ => 1) words inside
      legal ends again 0
    have row := (filled_iff (cached.withData fun _ _ => 1) again _ fw₂).mp (filled _ _ _ _ _ _ ran) 0
      (Framework.bytes_pos cached.row)
    have ones : ∀ o, fw₂.riscv_mem o = 1 := by
      intro o
      rw [same]
      rcases left.bytes o with kept | ⟨k,-,stored⟩
      · exact kept
      · exact stored
    rw [ones] at row
    have read : ¬ (a.toNat % cache.cache_type.row_bytes.toNat ≠ 0 ∨ fw₁.current_stage ∈
        fw₁.memory_accesses_issued) := by
      intro refused
      exact absurd (row.symm.trans (Framework.readInto_refused cached.row refused _)) (by decide)
    exact ⟨not_not.mp fun odd => read (.inl odd),fun back => read (.inr (left.taken back))⟩
  · rintro ⟨aligned,clean⟩ mem data value value' cache' fw' ran
    have again := cached.misses_withData missing data
    obtain ⟨_,fw₁,fw₂,left,same,miss⟩ := read_miss (cached.withData data) (fresh.withMem mem) words inside legal
      ends again value
    rw [miss] at ran
    cases ran
    refine (filled_iff (cached.withData data) again _ fw').mpr ?_
    have untouched : fw₁ = fw.withMem mem := left.same clean
    have issued : (fw.withMem mem).current_stage ∉ (fw.withMem mem).memory_accesses_issued := by
      rw [(fresh.withMem mem).entered]
      exact fresh.issued
    have aligned : a.toNat % (cache.withData data).cache_type.row_bytes.toNat = 0 := aligned
    intro k small
    rw [same,untouched,Framework.readInto_block aligned issued small]
    -- the address is that of the block
    rw [Nat.div_mul_cancel (Nat.dvd_of_mod_eq_zero aligned),BitVec.ofNat_add,BitVec.ofNat_toNat,BitVec.setWidth_eq]

theorem fresh_sevens : sevens.Fresh .M := ⟨rfl,by decide,rfl,rfl,by decide,by decide⟩

theorem misses_construct {a size : U64} : (construct_cache 2048 .DATA).Misses a size :=
  IsCache.misses_iff (.inl isDataCache_construct) |>.mpr fun _ _ held => nomatch held.1

theorem fill_brings_block_iff_first :
    (∀ value, ∃ value' cache' fw', (construct_cache 2048 .DATA).read_access Framework.port sevens 8 4 value false true =
      .ok (0,value',cache',fw')) ∧
    (∀ mem data value value' cache' fw', ((construct_cache 2048 .DATA).withData data).read_access Framework.port
      (sevens.withMem mem)
      8 4 value false true = .ok (0,value',cache',fw') → cache'.Filled fw' 8) := by
  have missing : (construct_cache 2048 .DATA).Misses 8 4 := misses_construct
  obtain ⟨returns,filled⟩ := fill_brings_block_iff (.inl isDataCache_construct) fresh_sevens (by decide) (by decide)
    (by decide) (by decide)
    missing
  exact ⟨returns,filled.mpr ⟨by decide,fun back => nomatch back.2.1⟩⟩

/-- The second word of a block misses in an empty cache: the row is tagged for the block and starts with a zero,
    where memory has a 7. -/
theorem second_word_not_filled :
    ∃ value cache' fw', (construct_cache 2048 .DATA).read_access Framework.port sevens 4 4 0 false true =
      .ok (0,value,cache',fw') ∧
      cache'.Holds 0 4 ∧ (cache'.rows 0).data 0 = 0 ∧ fw'.riscv_mem 0 = 7 ∧ ¬ cache'.Filled fw' 4 := by
  refine ⟨_,_,_,rfl,by decide,by decide,rfl,fun filled => ?_⟩
  have byte := filled.block 0 (.inl (by decide)) (by decide) 0 (by decide)
  exact absurd byte (by decide)

end CacheTable
end RiscvSim
