import RiscvSim.CacheFlat

/-!
Hits in the data cache, byte by byte. A read finds the row that holds the block, and
delivers its bytes if the access begins with one of the row's words. A write finds the
row too, but stores into the first way.
-/
namespace RiscvSim
open Bytes Runs
namespace CacheTable

variable {σ : Type} (port : MemoryPort σ) {cache : CacheTable}

/-- The row that a lookup of the address finds, if its block is resident. -/
def holder (cache : CacheTable) (a : U64) : U64 :=
  if cache.Holds (cache.indexOf a) a then cache.indexOf a else cache.indexOf a + cache.num_blocks

theorem copy_eq_iff {dst src : Buffer} {off n : Nat} : copy dst off src n = dst ↔ ∀ t < n, dst (off+t) = src t := by
  constructor
  · intro same t inside
    rw [← same,copy_inside (by omega) (by omega),Nat.add_sub_cancel_left]
  · intro agree
    funext i
    by_cases inside : off ≤ i ∧ i < off+n
    · have there := agree (i-off) (by omega)
      rw [Nat.add_sub_cancel' inside.1] at there
      rw [copy_inside inside.1 inside.2,there]
    · exact copy_outside inside

/-! ### Writes -/

theorem write_hit (params : IsDataCache cache) {a : U64} (cached : cache.Cached a) (mem : σ) (data : U64) {size : U8}
    (aligned : Aligned a size) (followup available : Bool) :
    cache.write_access port mem a data size followup available = .ok (0,cache.setRow (cache.indexOf a)
      { cache.rows (cache.indexOf a) with
        data := copy (cache.rows (cache.indexOf a)).data (a.toNat % 8) (byteAt data) size.toNat },mem) := by
  rw [write_access_data port params,if_pos (show _ ∨ _ from cached),store_hit_inside (write_inside params aligned),
    CacheRow.store,subindexOf_toNat params]

/-- The bytes of the access in row `k` are replaced by those of the data, and lie in the row; the other rows stay. -/
structure Replaces (cache cache' : CacheTable) (k a data : U64) (size : U8) : Prop where
  inside : a.toNat % 8 + size.toNat ≤ 8
  bytes : (cache'.rows k).data = copy (cache.rows k).data (a.toNat % 8) (byteAt data) size.toNat
  others : ∀ j, j ≠ k → (cache'.rows j).data = (cache.rows j).data ∧ (cache'.rows j).tag = (cache.rows j).tag ∧
    (cache'.rows j).valid = (cache.rows j).valid

/-- A hit of way `k` replaces the bytes there, and nothing else, exactly if this is the first way or both
    rows of the set have the bytes already. -/
theorem write_hit_iff (params : IsDataCache cache) {k a : U64} (held : cache.Covers k a) {size : U8}
    (aligned : Aligned a size) (mem : σ) (data : U64) (followup available : Bool) :
    (∃ cache' mem', cache.write_access port mem a data size followup available = .ok (0,cache',mem') ∧
      Replaces cache cache' k a data size) ↔
    k = cache.indexOf a ∨ ∀ t < size.toNat, (cache.rows (cache.indexOf a)).data (a.toNat % 8 + t) = byteAt data t ∧
      (cache.rows k).data (a.toNat % 8 + t) = byteAt data t := by
  rw [write_hit port params held.cached mem data aligned]
  constructor
  · rintro ⟨cache',mem',done,_,bytes,others⟩
    cases done
    by_cases first : k = cache.indexOf a
    · exact .inl first
    · right
      have own := (others (cache.indexOf a) (Ne.symm first)).1
      rw [setRow_same] at own
      rw [setRow_other _ _ first] at bytes
      exact fun t inside => ⟨copy_eq_iff.mp own t inside,copy_eq_iff.mp bytes.symm t inside⟩
  · intro condition
    refine ⟨_,mem,rfl,aligned.fits,?_,?_⟩
    · by_cases first : k = cache.indexOf a
      · rw [first,setRow_same]
      · have agree := condition.resolve_left first
        rw [setRow_other _ _ first]
        exact (copy_eq_iff.mpr fun t inside => (agree t inside).2).symm
    · intro j other
      by_cases first : j = cache.indexOf a
      · have agree := condition.resolve_left fun same => other (first.trans same.symm)
        rw [first,setRow_same]
        exact ⟨copy_eq_iff.mpr fun t inside => (agree t inside).1,rfl,rfl⟩
      · rw [setRow_other _ _ first]
        exact ⟨rfl,rfl,rfl⟩

/-- Block 0x4000 in the first way and block 0 in the second way of set 0, both of zeros. -/
def bothWays : CacheTable :=
  ((construct_cache 2048 .DATA).setRow 0 ⟨1,fun _ => 0,false,true⟩).setRow 2048 ⟨0,fun _ => 0,false,true⟩

theorem isDataCache_bothWays : IsDataCache bothWays :=
  isDataCache_setRow (isDataCache_setRow isDataCache_construct _ _) _ _

theorem unique_bothWays : bothWays.Unique := by
  rintro i inside ⟨valid,_,tags⟩
  by_cases zero : i = 0
  · subst zero
    exact absurd tags (by decide)
  · have second : i ≠ 2048 := by
      rintro rfl
      exact absurd inside (by decide)
    rw [bothWays,setRow_other _ _ second,setRow_other _ _ zero] at valid
    cases valid

/-- A halfword stored at 0x4002. -/
theorem write_hit_iff_first : ∃ cache' mem', bothWays.write_access Framework.port sevens 0x4002 0x1234 2 false true =
    .ok (0,cache',mem') ∧ Replaces bothWays cache' 0 0x4002 0x1234 2 :=
  (write_hit_iff Framework.port isDataCache_bothWays ⟨by decide,by decide⟩ (by decide) sevens 0x1234 false true).mpr
    (.inl (by decide))

/-- A byte stored at 0, in the second way, goes to block 0x4000. -/
theorem second_way_write_misplaced : bothWays.Unique ∧ bothWays.Covers 2048 0 ∧
    ∃ cache', bothWays.write_access Framework.port sevens 0 0x55 1 false true = .ok (0,cache',sevens) ∧
      (cache'.rows 2048).data 0 = 0 ∧ (cache'.rows 0).data 0 = 0x55 :=
  ⟨unique_bothWays,⟨by decide,by decide⟩,_,rfl,by decide,by decide⟩

/-! ### Reads -/

theorem read_hit (params : IsDataCache cache) {a : U64} (cached : cache.Cached a) (mem : σ) {size : U8}
    (aligned : Aligned a size) (value : U64) (followup available : Bool) :
    cache.read_access port mem a (size.setWidth 64) value followup available =
      if a.toNat % 4 = 0 then
        .ok (0,storeLow size.toNat value ((cache.rows (cache.holder a)).hit (a.toNat % 8 / 4) (size.setWidth 64)),cache,
          mem)
      else .error .misaligned_cache_access := by
  have low : cache.subindexOf a &&& 3 ≠ 0 ↔ ¬ a.toNat % 4 = 0 := not_congr (subindexOf_words params a)
  have subindex := subindexOf_word params a
  have found : cache.lookup (cache.indexOf a) (cache.tagOf a) (a.toNat % 8 / 4) (size.setWidth 64) =
      .ok (some (cache.rows (cache.holder a))) := by
    rw [lookup_data params,holder]
    by_cases first : cache.Holds (cache.indexOf a) a
    · rw [if_pos first,if_pos first]
    · rw [if_neg first,if_neg first,if_pos (cached.resolve_left first)]
  have sizes : (size.setWidth 64 : U64) = 1 ∨ (size.setWidth 64 : U64) = 2 ∨ (size.setWidth 64 : U64) = 4 ∨
      (size.setWidth 64 : U64) = 8 := by
    rcases aligned.1 with rfl | rfl | rfl | rfl <;> decide
  have width : (size.setWidth 64 : U64).toNat = size.toNat := BitVec.toNat_setWidth_of_le (by decide)
  have row : cache.read_row port mem a (cache.indexOf a) (cache.tagOf a) (a.toNat % 8 / 4) (size.setWidth 64)
    followup available =
      .ok (.inr (cache.rows (cache.holder a)),cache,mem) := by
    rw [read_row,found]
    rfl
  unfold read_access
  by_cases words : a.toNat % 4 = 0
  · have inside := read_inside params aligned
    rw [subindex] at inside
    rw [if_neg (fun misaligned => low.mp misaligned words),if_pos words,subindex]
    simp only [row,ok_bind,pure_eq,if_neg inside,if_pos sizes,width]
  · rw [if_pos (low.mpr words),if_neg words]
    rfl

/-- A resident block is read byte for byte exactly at the words of its row, and the bytes read are those that a
    write replaces exactly if the block is in the first way. -/
theorem subword_accesses_iff (params : IsDataCache cache) {a : U64} (cached : cache.Cached a) {size : U8}
    (aligned : Aligned a size) (mem : σ) (value : U64) (followup available : Bool) :
    ((∃ value' cache' mem', cache.read_access port mem a (size.setWidth 64) value followup available =
      .ok (0,value',cache',mem') ∧
      ∀ t < size.toNat, byteAt value' t = (cache.rows (cache.holder a)).data (a.toNat % 8 + t)) ↔ a.toNat % 4 = 0) ∧
    ((∀ data, ∃ cache' mem', cache.write_access port mem a data size followup available = .ok (0,cache',mem') ∧
      (cache'.rows (cache.holder a)).data =
        copy (cache.rows (cache.holder a)).data (a.toNat % 8) (byteAt data) size.toNat) ↔
          cache.Holds (cache.indexOf a) a) := by
  constructor
  · rw [read_hit port params cached mem aligned]
    constructor
    · rintro ⟨value',cache',mem',done,_⟩
      by_contra words
      rw [if_neg words] at done
      cases done
    · intro words
      rw [if_pos words]
      exact ⟨_,_,_,rfl,fun t inside => hit_bytes _ aligned words value inside⟩
  · constructor
    · intro replaces
      by_contra missing
      -- some data differ from what the second way holds
      have holder : cache.holder a = cache.indexOf a + cache.num_blocks := if_neg missing
      have other : cache.indexOf a + cache.num_blocks ≠ cache.indexOf a :=
        (second_ne params (index_lt params a) (index_lt params a)).symm
      let old := (cache.rows (cache.indexOf a + cache.num_blocks)).data (a.toNat % 8)
      obtain ⟨cache',mem',done,bytes⟩ := replaces ((old + 1).setWidth 64)
      rw [write_hit port params cached mem _ aligned] at done
      cases done
      rw [holder,setRow_other _ _ other] at bytes
      have byte := copy_eq_iff.mp bytes.symm 0 aligned.positive
      rw [byteAt_setWidth _ _ (by decide),Nat.add_zero,byteAt,BitVec.extractLsb'_eq_self] at byte
      exact absurd byte (by simp [old])
    · intro first data
      refine ⟨_,_,write_hit port params cached mem data aligned followup available,?_⟩
      rw [holder,if_pos first,setRow_same]

/-- The word at 0x4004, in the first way. -/
theorem subword_accesses_iff_word :
    (∃ value' cache' mem', bothWays.read_access Framework.port sevens 0x4004 4 7 false true =
      .ok (0,value',cache',mem') ∧ ∀ t < 4, byteAt value' t = (bothWays.rows (bothWays.holder 0x4004)).data (4 + t)) ∧
    (∀ data, ∃ cache' mem', bothWays.write_access Framework.port sevens 0x4004 data 4 false true = .ok (0,cache',mem') ∧
      (cache'.rows (bothWays.holder 0x4004)).data = copy (bothWays.rows (bothWays.holder 0x4004)).data 4
      (byteAt data) 4) := by
  obtain ⟨reads,writes⟩ := subword_accesses_iff Framework.port isDataCache_bothWays (a := 0x4004) (.inl (by decide))
    (show Aligned 0x4004 4 by decide) sevens 7 false true
  exact ⟨reads.mpr (by decide),writes.mpr (by decide)⟩

/-- The byte at 0x4001 is resident, and reading it ends the simulator. -/
theorem byte_read_exits : bothWays.Cached 0x4001 ∧ Aligned 0x4001 1 ∧
    bothWays.read_access Framework.port sevens 0x4001 1 0 false true = .error .misaligned_cache_access :=
  ⟨by decide,by decide,rfl⟩

end CacheTable
end RiscvSim
