import RiscvSim.CacheRows

/-!
The data cache over memory without latency, one call per memory-stage cycle. What such a
call does to rows and memory is said once (`Settled`); from it follow the invariant that
clean rows agree with memory, and that the cache looks like flat memory, for runs that
avoid the calls that lose bytes: a write that hits a clean row or the second way, a fill
whose victim is dirty, a fill in the middle of a block.
-/
namespace RiscvSim
open Bytes Runs

/-! ### Memory without latency -/

namespace Framework

/-- The memory stage with no latency, and a memory size that `memory_initialize` accepts. -/
structure Steady (fw : Framework) : Prop where
  stage : fw.current_stage = .M
  read : fw.memory_read_latency = 0
  write : fw.memory_write_latency = 0
  size : fw.riscv_mem_size ≤ MEMORY_MAX_SIZE
  pages : fw.riscv_mem_size % MEMORY_PAGE_SIZE = 0

/-- `Steady`, in a cycle without a memory access so far. -/
structure Quiet (fw : Framework) : Prop extends Steady fw where
  issued : fw.memory_accesses_issued = []

theorem Steady.size_le {fw : Framework} (steady : fw.Steady) : fw.riscv_mem_size.toNat ≤ 33554432 := steady.size
theorem Steady.blocks {fw : Framework} (steady : fw.Steady) : fw.riscv_mem_size.toNat % 4096 = 0 := by
  have pages := congrArg BitVec.toNat steady.pages
  rw [BitVec.toNat_umod] at pages
  exact pages

theorem quiet_end_cycle {fw : Framework} (steady : fw.Steady) : fw.end_cycle.Quiet where
  stage := steady.stage
  read := steady.read
  write := steady.write
  size := steady.size
  pages := steady.pages
  issued := rfl

@[simp] theorem end_cycle_mem (fw : Framework) : fw.end_cycle.riscv_mem = fw.riscv_mem := rfl
@[simp] theorem end_cycle_size (fw : Framework) : fw.end_cycle.riscv_mem_size = fw.riscv_mem_size := rfl

/-- Whatever the arguments, a read without latency is done at once and leaves memory alone. -/
theorem memory_read_steady {fw : Framework} (steady : fw.Steady) (a : U64) (v : Buffer) (n : U64) :
    ∃ v' fw', fw.memory_read a v n = (true,v',fw') ∧ fw'.Steady ∧ fw'.riscv_mem = fw.riscv_mem ∧
      fw'.riscv_mem_size = fw.riscv_mem_size := by
  unfold memory_read
  split
  · exact ⟨_,fw,rfl,steady,rfl,rfl⟩
  · split
    · exact ⟨_,fw,rfl,steady,rfl,rfl⟩
    · simp only [steady.read,if_true]
      exact ⟨_,_,rfl,⟨steady.stage,rfl,steady.write,steady.size,steady.pages⟩,rfl,rfl⟩

/-- The stage has not accessed memory in this cycle, and there is no latency; the memory size is one that
    `memory_initialize` accepts. -/
structure Fresh (fw : Framework) (stage : Stage) : Prop where
  entered : fw.current_stage = stage
  issued : stage ∉ fw.memory_accesses_issued
  read : fw.memory_read_latency = 0
  write : fw.memory_write_latency = 0
  size : fw.riscv_mem_size ≤ MEMORY_MAX_SIZE
  pages : fw.riscv_mem_size % MEMORY_PAGE_SIZE = 0

theorem Quiet.fresh {fw : Framework} (quiet : fw.Quiet) : fw.Fresh .M where
  entered := quiet.stage
  issued := by simp [quiet.issued]
  read := quiet.read
  write := quiet.write
  size := quiet.size
  pages := quiet.pages

theorem Fresh.row_in_range {fw : Framework} {stage : Stage} (fresh : fw.Fresh stage) {a n : U64} (row : n = 8 ∨ n = 16)
    (inside : a.toNat < fw.riscv_mem_size.toNat) (aligned : a.toNat % n.toNat = 0) : ¬ (a + n > fw.riscv_mem_size) := by
  intro past
  have past : fw.riscv_mem_size.toNat < (a + n).toNat := past
  have size : fw.riscv_mem_size.toNat ≤ 33554432 := fresh.size
  have pages : fw.riscv_mem_size.toNat % 4096 = 0 := congrArg BitVec.toNat fresh.pages
  rw [BitVec.toNat_add] at past
  rcases row with rfl | rfl
  · rw [show (8 : U64).toNat = 8 from rfl] at past aligned
    omega
  · rw [show (16 : U64).toNat = 16 from rfl] at past aligned
    omega

/-- The buffer after a read of as many bytes as a row has. -/
def readInto (fw : Framework) (a : U64) (v : Buffer) (n : U64) : Buffer :=
  if a.toNat % n.toNat ≠ 0 then fill v 0 1
  else if fw.current_stage ∈ fw.memory_accesses_issued then fill v 0 n.toNat
  else copy v 0 (fun i => fw.riscv_mem (a + BitVec.ofNat 64 i)) n.toNat

theorem bytes_pos {n : U64} (row : n = 8 ∨ n = 16) : 0 < n.toNat := by
  rcases row with rfl | rfl <;> decide

theorem readInto_refused {fw : Framework} {a n : U64} (row : n = 8 ∨ n = 16)
    (refused : a.toNat % n.toNat ≠ 0 ∨ fw.current_stage ∈ fw.memory_accesses_issued) (v : Buffer) :
    fw.readInto a v n 0 = 0 := by
  unfold readInto
  by_cases odd : a.toNat % n.toNat ≠ 0
  · rw [if_pos odd]
    rfl
  · rw [if_neg odd,if_pos (refused.resolve_left odd)]
    exact if_pos (bytes_pos row)

theorem readInto_block {fw : Framework} {a n : U64} {v : Buffer} (aligned : a.toNat % n.toNat = 0)
    (free : fw.current_stage ∉ fw.memory_accesses_issued) {k : Nat} (small : k < n.toNat) :
    fw.readInto a v n k = fw.riscv_mem (a + BitVec.ofNat 64 k) := by
  rw [readInto,if_neg (not_not_intro aligned),if_neg free,copy_inside (by omega) (by omega)]
  rfl

theorem memory_read_row {fw : Framework} {a n : U64} (stage : fw.current_stage = .F ∨ fw.current_stage = .M)
    (latency : fw.memory_read_latency = 0) (row : n = 8 ∨ n = 16)
    (range : a.toNat % n.toNat = 0 → ¬ (a + n > fw.riscv_mem_size)) (v : Buffer) :
    ∃ fw', fw.memory_read a v n = (true,fw.readInto a v n,fw') ∧ fw'.riscv_mem = fw.riscv_mem := by
  have legal : ¬ (n > MEMORY_MAX_READ_BYTES) ∧ ¬ (popcountll n ≠ 1) := by
    rcases row with rfl | rfl <;> decide
  have whole : a % n ≠ 0 ↔ a.toNat % n.toNat ≠ 0 := by
    rw [ne_eq,← BitVec.toNat_inj,BitVec.toNat_umod]
    rfl
  unfold memory_read readInto
  by_cases odd : a.toNat % n.toNat ≠ 0
  · rw [if_pos (.inr (.inr (.inr (whole.mpr odd)))),if_pos odd]
    exact ⟨fw,rfl,rfl⟩
  · have range := range (not_not.mp odd)
    have stages : ¬ (fw.current_stage ≠ .F ∧ fw.current_stage ≠ .M) := by
      rintro ⟨notF,notM⟩
      exact stage.elim notF notM
    rw [if_neg,if_neg odd]
    · by_cases taken : fw.current_stage ∈ fw.memory_accesses_issued
      · rw [if_pos (.inr taken),if_pos taken]
        exact ⟨fw,rfl,rfl⟩
      · rw [if_neg (not_or_intro stages taken),if_neg taken]
        simp only [latency,if_true,memory_dump,if_neg range]
        exact ⟨_,rfl,rfl⟩
    · rintro (large | bits | past | misaligned)
      · exact legal.1 large
      · exact legal.2 bits
      · exact range past
      · exact odd (whole.mp misaligned)

/-- A read of a whole block in range delivers it. -/
theorem memory_read_block {fw : Framework} (quiet : fw.Quiet) {a : U64} (v : Buffer) (aligned : a.toNat % 8 = 0)
    (inside : a.toNat < fw.riscv_mem_size.toNat) {k : Nat} (byte : k < 8) :
    (fw.memory_read a v 8).2.1 k = fw.riscv_mem (a + BitVec.ofNat 64 k) := by
  obtain ⟨_,read,-⟩ := memory_read_row (.inr quiet.stage) quiet.read (.inl rfl)
    (fun _ => quiet.fresh.row_in_range (.inl rfl) inside aligned) v
  rw [read]
  exact readInto_block aligned (by rw [quiet.issued]; exact List.not_mem_nil) byte

/-- A write of eight bytes in the M stage, where it is the first access. -/
theorem memory_write_row {fw : Framework} (fresh : fw.Fresh .M) {a : U64} (aligned : a % 8 = 0) (data : U64) :
    ∃ fw', fw.memory_write a data 8 = (true,fw') ∧ fw'.Steady ∧ fw'.riscv_mem_size = fw.riscv_mem_size ∧
      (a + 8 > fw.riscv_mem_size → fw' = fw) ∧
      (¬ a + 8 > fw.riscv_mem_size → .M ∈ fw'.memory_accesses_issued ∧
        ∀ o, fw'.riscv_mem o = if (o - a).toNat < 8 then byteAt data (o - a).toNat else fw.riscv_mem o) := by
  unfold memory_write
  by_cases past : a + 8 > fw.riscv_mem_size
  · rw [if_pos (.inr (.inr (.inl past)))]
    exact ⟨fw,rfl,⟨fresh.entered,fresh.read,fresh.write,fresh.size,fresh.pages⟩,rfl,fun _ => rfl,fun range =>
      absurd past range⟩
  · rw [if_neg,if_neg]
    · simp only [memory_load,if_neg past,fresh.write,if_true]
      refine ⟨_,rfl,⟨fresh.entered,fresh.read,rfl,fresh.size,fresh.pages⟩,rfl,fun there => absurd there past,
        fun _ => ⟨?_,fun o => rfl⟩⟩
      rw [fresh.entered]
      exact List.mem_cons_self
    · rintro (other | taken)
      · exact other fresh.entered
      · rw [fresh.entered] at taken
        exact fresh.issued taken
    · rintro (large | bits | there | misaligned)
      · exact absurd large (by decide)
      · exact absurd bits (by decide)
      · exact past there
      · exact misaligned aligned

/-- A write of a whole block in range is done at once. -/
theorem memory_write_block {fw : Framework} (quiet : fw.Quiet) {a : U64} (data : U64) (aligned : a.toNat % 8 = 0)
    (inside : a.toNat < fw.riscv_mem_size.toNat) :
    ∃ fw', fw.memory_write a data 8 = (true,fw') ∧ fw'.Steady ∧ fw'.riscv_mem_size = fw.riscv_mem_size ∧
      ∀ o, fw'.riscv_mem o = if (o - a).toNat < 8 then byteAt data (o - a).toNat else fw.riscv_mem o := by
  have whole : a % 8 = 0 := by
    apply BitVec.eq_of_toNat_eq
    rw [BitVec.toNat_umod]
    exact aligned
  obtain ⟨fw',written,steady,size,-,made⟩ := memory_write_row quiet.fresh whole data
  exact ⟨fw',written,steady,size,(made (quiet.fresh.row_in_range (.inl rfl) inside aligned)).2⟩

end Framework

/-! ### Rows, blocks and the memory they stand for -/

namespace CacheTable

/-- The row is of the set of the address and holds its block. -/
def Covers (cache : CacheTable) (i o : U64) : Prop :=
  (i = cache.indexOf o ∨ i = cache.indexOf o + cache.num_blocks) ∧ cache.Holds i o

/-- The byte that the cache and the memory behind it stand for: the row's where the
    address is cached, else memory's. -/
def logical (cache : CacheTable) (fw : Framework) (o : U64) : Byte :=
  if cache.Holds (cache.indexOf o) o then (cache.rows (cache.indexOf o)).data (o.toNat % 8)
  else if cache.Holds (cache.indexOf o + cache.num_blocks) o then
    (cache.rows (cache.indexOf o + cache.num_blocks)).data (o.toNat % 8)
  else fw.riscv_mem o

/-- Every valid clean row holds the eight bytes of memory at the block address that its
    tag and its set give. -/
def CleanRowsAgree (cache : CacheTable) (fw : Framework) : Prop :=
  ∀ i : U64, i.toNat < cache.num_rows → (cache.rows i).valid = true → (cache.rows i).dirty = false →
    ∀ k < 8, (cache.rows i).data k =
      fw.riscv_mem (BitVec.ofNat 64 ((cache.rows i).tag.toNat * 16384 + i.toNat % 2048 * 8 + k))

/-- What the calls maintain on cache and memory together. -/
structure Coherent (cache : CacheTable) (fw : Framework) : Prop where
  params : IsDataCache cache
  quiet : fw.Quiet
  unique : cache.Unique
  dirty : ∀ i, (cache.rows i).dirty = true → (cache.rows i).valid = true
  range : ∀ i o, cache.Covers i o → o.toNat < fw.riscv_mem_size.toNat
  tags : ∀ i, (cache.rows i).tag.toNat < 2^50
  clean : ∀ i o, cache.Covers i o → (cache.rows i).dirty = false →
    (cache.rows i).data (o.toNat % 8) = fw.riscv_mem o

section
variable {cache : CacheTable} (params : IsDataCache cache)
include params

theorem same_block_iff (o a : U64) :
    cache.indexOf o = cache.indexOf a ∧ cache.tagOf o = cache.tagOf a ↔ o.toNat / 8 = a.toNat / 8 := by
  rw [← BitVec.toNat_inj,← BitVec.toNat_inj,indexOf_toNat params,indexOf_toNat params,tagOf_toNat params,
    tagOf_toNat params]
  omega

theorem covers_same_block {i o a : U64} (block : o.toNat / 8 = a.toNat / 8) :
    cache.Covers i o ↔ cache.Covers i a := by
  obtain ⟨index,tag⟩ := (same_block_iff params o a).mpr block
  rw [Covers,Covers,Holds,Holds,index,tag]

/-- A row determines the block that it covers. -/
theorem covers_block {i o a : U64} (here : cache.Covers i o) (there : cache.Covers i a) :
    o.toNat / 8 = a.toNat / 8 := by
  apply (same_block_iff params o a).mp
  refine ⟨?_,here.2.2.symm.trans there.2.2⟩
  have low := index_lt params o
  have high := index_lt params a
  rcases here.1 with first | second <;> rcases there.1 with first' | second'
  · exact first.symm.trans first'
  · exact absurd (first.symm.trans second') (second_ne params low high)
  · exact absurd (first'.symm.trans second) (second_ne params high low)
  · exact second_inj params low high (second.symm.trans second')

theorem covers_once {i j o : U64} (unique : cache.Unique) (here : cache.Covers i o) (there : cache.Covers j o) :
    i = j := by
  have low := index_lt params o
  have apart := unique (cache.indexOf o) (by rw [params.blocks]; exact low)
  obtain ⟨place,valid,tag⟩ := here
  obtain ⟨place',valid',tag'⟩ := there
  rcases place with rfl | rfl <;> rcases place' with rfl | rfl
  · rfl
  · exact absurd ⟨valid,valid',tag.trans tag'.symm⟩ apart
  · exact absurd ⟨valid',valid,tag'.trans tag.symm⟩ apart
  · rfl

theorem logical_covered {fw : Framework} {i o : U64} (unique : cache.Unique) (here : cache.Covers i o) :
    cache.logical fw o = (cache.rows i).data (o.toNat % 8) := by
  unfold logical
  by_cases first : cache.Holds (cache.indexOf o) o
  · rw [if_pos first,covers_once params unique here ⟨.inl rfl,first⟩]
  · rw [if_neg first]
    obtain ⟨rfl | rfl,held⟩ := here
    · exact absurd held first
    · rw [if_pos held]

/-- The address in the block of a row, from the tag and the subscript. -/
theorem covers_of_tag {i : U64} (inside : i.toNat < cache.num_rows) (valid : (cache.rows i).valid = true)
    (fits : (cache.rows i).tag.toNat < 2^50) {k : Nat} (byte : k < 8) :
    cache.Covers i (BitVec.ofNat 64 ((cache.rows i).tag.toNat * 16384 + i.toNat % 2048 * 8 + k)) := by
  rw [num_rows_data params] at inside
  refine ⟨?_,valid,?_⟩
  · rw [← BitVec.toNat_inj,← BitVec.toNat_inj,second_toNat params (index_lt params _),indexOf_toNat params,
      BitVec.toNat_ofNat]
    omega
  · rw [← BitVec.toNat_inj,tagOf_toNat params,BitVec.toNat_ofNat]
    omega

end

theorem logical_uncovered {cache : CacheTable} {fw : Framework} {o : U64} (free : ∀ i, ¬ cache.Covers i o) :
    cache.logical fw o = fw.riscv_mem o := by
  unfold logical
  rw [if_neg (fun held => free _ ⟨.inl rfl,held⟩),if_neg (fun held => free _ ⟨.inr rfl,held⟩)]

theorem Coherent.agree {cache : CacheTable} {fw : Framework} (coherent : cache.Coherent fw) :
    cache.CleanRowsAgree fw := by
  intro i inside valid clean k byte
  have covers := covers_of_tag coherent.params inside valid (coherent.tags i) byte
  have fits := coherent.tags i
  rw [← coherent.clean i _ covers clean,BitVec.toNat_ofNat]
  congr 1
  omega

/-- The tag of a row in use is that of an address inside memory. -/
theorem Coherent.tag_lt {cache : CacheTable} {fw : Framework} (coherent : cache.Coherent fw) {i : U64}
    (inside : i.toNat < cache.num_rows) (valid : (cache.rows i).valid = true) : (cache.rows i).tag.toNat < 2^36 := by
  have fits := coherent.tags i
  have range := coherent.range i _ (covers_of_tag coherent.params inside valid fits (k := 0) (by decide))
  have size := coherent.quiet.size_le
  rw [BitVec.toNat_ofNat] at range
  omega

/-- A clean row can be dropped: memory has its bytes. -/
theorem Coherent.logical_clean {cache : CacheTable} {fw : Framework} (coherent : cache.Coherent fw) {i o : U64}
    (here : cache.Covers i o) (clean : (cache.rows i).dirty = false) : cache.logical fw o = fw.riscv_mem o := by
  rw [logical_covered coherent.params coherent.unique here,coherent.clean i o here clean]

theorem coherent_construct {fw : Framework} (quiet : fw.Quiet) : (construct_cache 2048 .DATA).Coherent fw where
  params := isDataCache_construct
  quiet := quiet
  unique := unique_construct
  dirty := nofun
  range := fun _ _ covers => nomatch covers.2.1
  tags := fun _ => by show (0 : U64).toNat < 2^50; decide
  clean := fun _ _ covers => nomatch covers.2.1

/-! ### One call -/

/-- Memory after a possible write-back of the row: its block is stored if it was dirty. -/
structure WroteBack (cache : CacheTable) (i : U64) (fw fw' : Framework) : Prop where
  steady : fw'.Steady
  size : fw'.riscv_mem_size = fw.riscv_mem_size
  stored : ∀ o, (cache.rows i).dirty = true → cache.Covers i o → fw'.riscv_mem o = (cache.rows i).data (o.toNat % 8)
  kept : ∀ o, ¬ ((cache.rows i).dirty = true ∧ cache.Covers i o) → fw'.riscv_mem o = fw.riscv_mem o

/-- For a row of the first way, `old_address` is the address of its block, up to the width of
    the bit-field. -/
theorem oldAddress_toNat {cache : CacheTable} (params : IsDataCache cache) {i : U64} (first : i.toNat < 2048)
    (fits : (cache.rows i).tag.toNat < 2^36) :
    (cache.oldAddress i).toNat = (cache.rows i).tag.toNat * 16384 + i.toNat * 8 := by
  have low : i.toNat * 8 < 2^14 := by omega
  have whole : (cache.rows i).tag.toNat <<< 14 % 2^64 % 2^50 % 2^64 = (cache.rows i).tag.toNat <<< 14 := by
    rw [Nat.shiftLeft_eq]; omega
  have part : i.toNat <<< 3 % 2^64 = i.toNat * 8 := by rw [Nat.shiftLeft_eq]; omega
  simp only [oldAddress,fieldTag,params.type,CacheType.tag_bits,params.index,params.block,BitVec.toNat_or,
    BitVec.toNat_setWidth,BitVec.toNat_shiftLeft]
  rw [show 11 + 3 = 14 from rfl,whole,part,← Nat.shiftLeft_add_eq_or_of_lt low,Nat.shiftLeft_eq]

/-- An eviction that memory answers at once. -/
theorem evict_read_done {σ : Type} {port : MemoryPort σ} {cache : CacheTable} {mem mem₁ mem₂ : σ} {a index i tag : U64}
    {dirty : Bool} {data : Buffer} (chosen : cache.victim index = .ok i) (inside : i.toNat < cache.num_rows)
    (cleaned : cache.clean_row port mem i false = .ok (true,cache.setRow i { cache.rows i with dirty := dirty },mem₁))
    (read : port.memory_read mem₁ a (cache.rows i).data cache.cache_type.row_bytes = (true,data,mem₂)) :
    cache.evict_read port mem a index tag false =
      .ok (some i,cache.setRow i ⟨cache.fieldTag tag,data,false,true⟩,mem₂) := by
  have filled : (cache.setRow i { cache.rows i with dirty := dirty }).fill_row port mem₁ a i false =
      .ok (true,cache.setRow i { cache.rows i with data := data, dirty := dirty },mem₂) := by
    rw [fill_row,row_inside (by simpa using inside),ok_bind,get_block]
    simp only [setRow_same,setRow_cache_type,read,pure_eq,ok_bind,setRow_setRow]
  simp only [evict_read,chosen,cleaned,ok_bind,Bool.false_eq_true,false_and,if_false,filled,reduceCtorEq,or_self,
    row_setRow inside,pure_eq,setRow_setRow,setRow_fieldTag]

section
variable {cache : CacheTable} {fw : Framework} (coherent : cache.Coherent fw)
include coherent

/-- `clean_row` on a row that is not a dirty one of the second way. -/
theorem clean_row_quiet {i : U64} (inside : i.toNat < cache.num_rows)
    (first : (cache.rows i).dirty = true → i.toNat < 2048) :
    ∃ fw', cache.clean_row Framework.port fw i false =
        .ok (true,cache.setRow i { cache.rows i with dirty := false },fw') ∧
      cache.WroteBack i fw fw' ∧ ((cache.rows i).dirty = false → fw' = fw) := by
  have params := coherent.params
  rw [clean_row,row_inside inside,ok_bind]
  cases dirty : (cache.rows i).dirty with
  | false =>
    refine ⟨fw,?_,⟨coherent.quiet.toSteady,rfl,?_,fun _ _ => rfl⟩,fun _ => rfl⟩
    · rw [← dirty,setRow_self]
      simp [dirty]
    · intro o set
      rw [dirty] at set
      cases set
  | true =>
    have valid := coherent.dirty i dirty
    have low := first dirty
    have fits := coherent.tags i
    have old := oldAddress_toNat params low (coherent.tag_lt inside valid)
    -- the row covers exactly the eight bytes from `old_address` on
    have covered := covers_of_tag params inside valid fits (k := 0) (by decide)
    have same : BitVec.ofNat 64 ((cache.rows i).tag.toNat * 16384 + i.toNat % 2048 * 8 + 0) = cache.oldAddress i := by
      apply BitVec.eq_of_toNat_eq
      rw [BitVec.toNat_ofNat,old]
      omega
    rw [same] at covered
    have block : ∀ o : U64, cache.Covers i o ↔ o.toNat / 8 = (cache.oldAddress i).toNat / 8 := fun o =>
      ⟨fun here => covers_block params here covered,fun here => (covers_same_block params here).mpr covered⟩
    obtain ⟨fw',written,steady,size,bytes⟩ := Framework.memory_write_block coherent.quiet
      (cache.rows i).dword (by omega) (coherent.range i _ covered)
    have offset : ∀ o : U64, o.toNat / 8 = (cache.oldAddress i).toNat / 8 ↔ (o - cache.oldAddress i).toNat < 8 := by
      intro o
      rw [BitVec.toNat_sub]
      omega
    refine ⟨fw',?_,⟨steady,size,?_,?_⟩,by rintro ⟨⟩⟩
    · rw [if_pos ⟨params.type,rfl⟩,write_back,row_inside inside,ok_bind,put_block]
      simp only [Framework.port,written,pure_eq,ok_bind,if_true]
    · intro o _ here
      have near := (offset o).mp ((block o).mp here)
      rw [bytes,if_pos near,CacheRow.dword,byteAt_value _ _ _ (by omega),if_pos near]
      congr 1
      rw [BitVec.toNat_sub] at near ⊢
      omega
    · intro o other
      have far : ¬ (o - cache.oldAddress i).toNat < 8 := by
        rw [← offset,← block]
        exact fun here => other ⟨dirty,here⟩
      rw [bytes,if_neg far]

/-- `evict_read` is done at once; it brings in the block if its victim needs no write-back
    and the address is that of the block. -/
theorem evict_read_quiet (a tag : U64) {index i : U64} (chosen : cache.victim index = .ok i)
    (inside : i.toNat < cache.num_rows) (first : (cache.rows i).dirty = true → i.toNat < 2048) :
    ∃ r fw', cache.evict_read Framework.port fw a index tag false = .ok (some i,cache.setRow i r,fw') ∧
      (r.tag = cache.fieldTag tag ∧ r.valid = true ∧ r.dirty = false) ∧ cache.WroteBack i fw fw' ∧
      ((cache.rows i).dirty = false → a.toNat % 8 = 0 → a.toNat < fw.riscv_mem_size.toNat →
        ∀ k < 8, r.data k = fw.riscv_mem (a + BitVec.ofNat 64 k)) := by
  obtain ⟨fw₁,cleaned,back,untouched⟩ := clean_row_quiet coherent inside first
  obtain ⟨data,fw₂,read,steady,same,size⟩ := Framework.memory_read_steady back.steady a (cache.rows i).data 8
  refine ⟨⟨cache.fieldTag tag,data,false,true⟩,fw₂,?_,⟨rfl,rfl,rfl⟩,?_,?_⟩
  · refine evict_read_done chosen inside cleaned ?_
    rw [coherent.params.type]
    exact read
  · exact ⟨steady,size.trans back.size,fun o dirty here => same ▸ back.stored o dirty here,
      fun o other => same ▸ back.kept o other⟩
  · intro clean aligned range k byte
    rw [untouched clean] at read
    have block := Framework.memory_read_block coherent.quiet (cache.rows i).data aligned range byte
    rw [read] at block
    exact block

end

/-- A naturally aligned first try inside memory, with memory free for it. -/
structure Plain (size : U64) (c : Call) : Prop where
  aligned : Aligned c.address c.size
  range : c.address.toNat + c.size.toNat ≤ size.toNat
  first : c.is_followup = false
  available : c.memory_read_available = true

instance (size : U64) (c : Call) : Decidable (Plain size c) :=
  decidable_of_iff (Aligned c.address c.size ∧ c.address.toNat + c.size.toNat ≤ size.toNat ∧ c.is_followup = false ∧
      c.memory_read_available = true)
    ⟨fun ⟨aligned,range,first,available⟩ => ⟨aligned,range,first,available⟩,
      fun plain => ⟨plain.aligned,plain.range,plain.first,plain.available⟩⟩

theorem givenUp_place (cache : CacheTable) (a : U64) :
    cache.givenUp a = cache.indexOf a ∨ cache.givenUp a = cache.indexOf a + cache.num_blocks :=
  victimOf_cases cache (cache.indexOf a)
theorem not_covered {cache : CacheTable} {a : U64} (first : ¬ cache.Holds (cache.indexOf a) a)
    (second : ¬ cache.Holds (cache.indexOf a + cache.num_blocks) a) (i : U64) : ¬ cache.Covers i a := by
  rintro ⟨rfl | rfl,held⟩
  · exact first held
  · exact second held

theorem Plain.inside {size : U64} {c : Call} (plain : Plain size c) : c.address.toNat < size.toNat := by
  have range := plain.range
  rcases plain.aligned.1 with bytes | bytes | bytes | bytes <;> rw [bytes] at range <;> simp at range <;> omega

/-- What a plain call does over memory without latency. -/
inductive Settled (cache : CacheTable) (fw : Framework) (c : Call) (value : U64) (cache' : CacheTable)
    (fw' : Framework) :
    Prop where
  | read_hit (old i : U64) (access : c.access = .read old) (held : cache.Covers i c.address)
      (result : value = storeLow c.size.toNat old ((cache.rows i).hit (c.address.toNat % 8 / 4) (c.size.setWidth 64)))
      (rows : cache' = cache) (memory : fw' = fw)
  | write_hit (data i : U64) (access : c.access = .write data) (held : cache.Covers i c.address)
      -- the bytes go to the row of the first way wherever the block is
      (rows : cache' = cache.setRow (cache.indexOf c.address)
        ((cache.rows (cache.indexOf c.address)).store (cache.subindexOf c.address) data c.size))
      (memory : fw' = fw)
  | read_miss (old : U64) (r : CacheRow) (access : c.access = .read old) (free : ∀ i, ¬ cache.Covers i c.address)
      (block : r.tag = cache.tagOf c.address ∧ r.valid = true ∧ r.dirty = false)
      (fresh : (cache.rows (cache.givenUp c.address)).dirty = false → c.address.toNat % 8 = 0 →
        ∀ k < 8, r.data k = fw.riscv_mem (c.address + BitVec.ofNat 64 k))
      (result : value = storeLow c.size.toNat old (r.hit (c.address.toNat % 8 / 4) (c.size.setWidth 64)))
      (rows : cache' = cache.setRow (cache.givenUp c.address) r)
      (memory : cache.WroteBack (cache.givenUp c.address) fw fw')
  | write_miss (data : U64) (r : CacheRow) (access : c.access = .write data) (free : ∀ i, ¬ cache.Covers i c.address)
      (block : r.tag = cache.tagOf c.address ∧ r.valid = true ∧ r.dirty = true)
      (fresh : c.size = 8 ∨ (cache.rows (cache.givenUp c.address)).dirty = false → c.address.toNat % 8 = 0 →
        ∀ k < 8, r.data k =
          if k < c.size.toNat then byteAt data k else fw.riscv_mem (c.address + BitVec.ofNat 64 k))
      (rows : cache' = cache.setRow (cache.givenUp c.address) r)
      (memory : cache.WroteBack (cache.givenUp c.address) fw fw')

section
variable {cache : CacheTable} {fw : Framework} (coherent : cache.Coherent fw)
include coherent

theorem read_settled {c : Call} {old : U64} (plain : Plain fw.riscv_mem_size c) (access : c.access = .read old)
    (words : c.address.toNat % 4 = 0) :
    ∃ value cache' fw', cache.call Framework.port fw c = .ok (0,value,cache',fw') ∧
      Settled cache fw c value cache' fw' := by
  have params := coherent.params
  have bound := index_lt params c.address
  have subindex := subindexOf_word params c.address
  have whole : ¬ (cache.subindexOf c.address &&& 3 ≠ 0) := not_not_intro ((subindexOf_words params c.address).mpr words)
  have sizes : c.size.setWidth 64 = (1 : U64) ∨ c.size.setWidth 64 = (2 : U64) ∨ c.size.setWidth 64 = (4 : U64) ∨
      c.size.setWidth 64 = (8 : U64) := by
    rcases plain.aligned.1 with size | size | size | size <;> rw [size] <;> decide
  have bytes : (c.size.setWidth 64 : U64).toNat = c.size.toNat := by
    rw [BitVec.toNat_setWidth]
    exact Nat.mod_eq_of_lt (by have := c.size.isLt; omega)
  have inside : ¬ cache.cache_type.Overrun (4 * (c.address.toNat % 8 / 4)) (CacheRow.hit_bytes (c.size.setWidth 64)) :=
    subindex ▸ read_inside params plain.aligned
  simp only [call,access,plain.first,plain.available,read_access,if_neg whole,read_row,lookup_data params,ok_bind]
  by_cases first : cache.Holds (cache.indexOf c.address) c.address
  · simp only [if_pos first,pure_eq,ok_bind,if_pos sizes,bytes,subindex,if_neg inside]
    exact ⟨_,_,_,rfl,.read_hit old _ access ⟨.inl rfl,first⟩ rfl rfl rfl⟩
  · by_cases second : cache.Holds (cache.indexOf c.address + cache.num_blocks) c.address
    · simp only [if_neg first,if_pos second,pure_eq,ok_bind,if_pos sizes,bytes,subindex,if_neg inside]
      exact ⟨_,_,_,rfl,.read_hit old _ access ⟨.inr rfl,second⟩ rfl rfl rfl⟩
    · obtain ⟨r,fw',evicted,block,back,fresh⟩ := evict_read_quiet coherent c.address (cache.tagOf c.address)
        (victim_first params bound) (victimOf_inside params bound) (victim_dirty_first coherent.dirty bound)
      rw [tag_stored params.splits] at block
      simp only [if_neg first,if_neg second,Bool.true_eq_false,if_false,evicted,pure_eq,ok_bind,
        row_setRow (victimOf_inside params bound),if_pos sizes,bytes,subindex]
      rw [if_neg (show ¬ (cache.setRow _ r).cache_type.Overrun _ _ from inside)]
      exact ⟨_,_,_,rfl,.read_miss old r access (not_covered first second) block
        (fun clean aligned => fresh clean aligned plain.inside) rfl rfl back⟩

/-- The row that a missing write goes to: brought in for a part of a block, only cleaned
    for a whole one. -/
theorem write_row_quiet {c : Call} {data : U64} (plain : Plain fw.riscv_mem_size c) (access : c.access = .write data)
    (two : ¬ cache.ThirdWay c) (first : ¬ cache.Holds (cache.indexOf c.address) c.address)
    (second : ¬ cache.Holds (cache.indexOf c.address + cache.num_blocks) c.address) :
    ∃ r fw', cache.write_row Framework.port fw c.address (cache.givenUp c.address) (cache.tagOf c.address)
          c.size false true =
        .ok (.inr (cache.givenUp c.address),cache.setRow (cache.givenUp c.address) r,fw') ∧
      cache.WroteBack (cache.givenUp c.address) fw fw' ∧
      (c.size ≠ 8 → (cache.rows (cache.givenUp c.address)).dirty = false → c.address.toNat % 8 = 0 →
        ∀ k < 8, r.data k = fw.riscv_mem (c.address + BitVec.ofNat 64 k)) := by
  have params := coherent.params
  have bound := index_lt params c.address
  have inside := victimOf_inside params bound
  have low := victim_dirty_first coherent.dirty bound
  unfold write_row
  by_cases whole : c.size = 8
  · obtain ⟨fw',cleaned,back,_⟩ := clean_row_quiet coherent inside low
    refine ⟨{ cache.rows (cache.givenUp c.address) with dirty := false },fw',?_,back,fun part => absurd whole part⟩
    rw [if_neg (not_not_intro whole)]
    simp only [givenUp,row_inside inside,ok_bind,Bool.true_eq_false,and_false,if_false,cleaned,pure_eq,if_true]
  · have again : cache.victim (cache.givenUp c.address) = .ok (cache.givenUp c.address) := by
      rw [givenUp,victim_victimOf params bound,if_neg]
      exact fun third => two ⟨⟨data,access⟩,whole,plain.available,first,second,third⟩
    obtain ⟨r,fw',evicted,_,back,fresh⟩ :=
      evict_read_quiet coherent c.address (cache.tagOf c.address) again inside low
    refine ⟨r,fw',?_,back,fun _ clean aligned => fresh clean aligned plain.inside⟩
    rw [if_pos whole]
    simp only [Bool.true_eq_false,if_false,evicted,ok_bind,pure_eq]

theorem write_settled {c : Call} {data : U64} (plain : Plain fw.riscv_mem_size c) (access : c.access = .write data)
    (two : ¬ cache.ThirdWay c) :
    ∃ value cache' fw', cache.call Framework.port fw c = .ok (0,value,cache',fw') ∧
      Settled cache fw c value cache' fw' := by
  have params := coherent.params
  have bound := index_lt params c.address
  simp only [call,access,plain.first,plain.available,write_access_data Framework.port params]
  by_cases held : cache.Holds (cache.indexOf c.address) c.address ∨
      cache.Holds (cache.indexOf c.address + cache.num_blocks) c.address
  · simp only [if_pos held,store_hit_inside (write_inside params plain.aligned),ok_bind,pure_eq]
    rcases held with first | second
    · exact ⟨_,_,_,rfl,.write_hit data _ access ⟨.inl rfl,first⟩ rfl rfl⟩
    · exact ⟨_,_,_,rfl,.write_hit data _ access ⟨.inr rfl,second⟩ rfl rfl⟩
  · obtain ⟨first,second⟩ := not_or.mp held
    obtain ⟨r,fw',placed,back,fresh⟩ := write_row_quiet coherent plain access two first second
    have inside : (cache.givenUp c.address).toNat < cache.num_rows := victimOf_inside params bound
    simp only [if_neg held,evict_write,params.type,ne_eq,not_true,if_false,victim_first params bound,ok_bind]
    rw [show cache.victimOf (cache.indexOf c.address) = cache.givenUp c.address from rfl,placed]
    simp only [ok_bind,pure_eq,row_setRow inside,setRow_setRow,setRow_fieldTag,
      tag_stored params.splits]
    refine ⟨_,_,_,rfl,.write_miss data _ access (not_covered first second) ⟨rfl,rfl,rfl⟩ ?_ rfl back⟩
    intro kind aligned k byte
    have start : (cache.subindexOf c.address).toNat = 0 := by rw [subindexOf_toNat params,aligned]
    simp only [CacheRow.store,start]
    by_cases covered : k < c.size.toNat
    · rw [if_pos covered,copy_inside (by omega) (by omega)]
      rfl
    · have part : c.size ≠ 8 := by
        intro whole
        rw [whole] at covered
        exact covered byte
      rw [if_neg covered,copy_outside (by omega)]
      exact fresh part (kind.resolve_left part) aligned k byte

/-- The calls that fail are the reads off a word boundary and the writes that look for a
    third way; any other plain call returns 0. -/
theorem call_settled {c : Call} (plain : Plain fw.riscv_mem_size c)
    (words : ∀ old, c.access = .read old → c.address.toNat % 4 = 0) (two : ¬ cache.ThirdWay c) :
    ∃ value cache' fw', cache.call Framework.port fw c = .ok (0,value,cache',fw') ∧
      Settled cache fw c value cache' fw' := by
  cases access : c.access with
  | read old => exact read_settled coherent plain access (words old access)
  | write data => exact write_settled coherent plain access two

end

/-! ### What a change of one row does to the bytes the cache stands for -/

@[simp] theorem store_data (row : CacheRow) (sub data : U64) (size : U8) :
    (row.store sub data size).data = copy row.data sub.toNat (byteAt data) size.toNat := rfl

/-- A row that keeps its tag changes no block. -/
theorem covers_same {cache : CacheTable} {j : U64} {r : CacheRow} (tag : r.tag = (cache.rows j).tag)
    (valid : r.valid = (cache.rows j).valid) (i o : U64) : (cache.setRow j r).Covers i o ↔ cache.Covers i o := by
  by_cases here : i = j
  · subst here
    rw [Covers,Holds,setRow_same,tag,valid]
    rfl
  · rw [Covers,Holds,setRow_other _ _ here]
    rfl

/-- A write hit changes no block. -/
theorem covers_store (cache : CacheTable) (a data : U64) (size : U8) (i o : U64) :
    (cache.setRow (cache.indexOf a) ((cache.rows (cache.indexOf a)).store (cache.subindexOf a) data size)).Covers i o ↔
      cache.Covers i o := by
  apply covers_same
  · rfl
  · rfl

theorem covers_replace {cache : CacheTable} (params : IsDataCache cache) {a : U64} {r : CacheRow}
    (tag : r.tag = cache.tagOf a) (valid : r.valid = true) (i o : U64) :
    (cache.setRow (cache.givenUp a) r).Covers i o ↔
      if i = cache.givenUp a then o.toNat / 8 = a.toNat / 8 else cache.Covers i o := by
  have low := index_lt params o
  have high := index_lt params a
  by_cases here : i = cache.givenUp a
  · subst here
    rw [if_pos rfl,Covers,Holds,setRow_same,setRow_indexOf,setRow_num_blocks,setRow_tagOf,tag]
    constructor
    · rintro ⟨place,_,same⟩
      apply (same_block_iff params o a).mp
      refine ⟨?_,same.symm⟩
      rcases givenUp_place cache a with chosen | chosen <;> rcases place with at' | at' <;> rw [chosen] at at'
      · exact at'.symm
      · exact absurd at' (second_ne params high low)
      · exact absurd at'.symm (second_ne params low high)
      · exact (second_inj params high low at').symm
    · intro block
      obtain ⟨index,same⟩ := (same_block_iff params o a).mpr block
      rw [index,same]
      exact ⟨givenUp_place cache a,valid,rfl⟩
  · rw [if_neg here,Covers,Holds,setRow_other _ _ here]
    rfl

section
variable {cache : CacheTable} {fw : Framework} (coherent : cache.Coherent fw)
include coherent

theorem unique_replace {a : U64} {r : CacheRow} (free : ∀ i, ¬ cache.Covers i a) (tag : r.tag = cache.tagOf a) :
    (cache.setRow (cache.givenUp a) r).Unique :=
  unique_miss coherent.params coherent.unique (fun held => free _ ⟨.inl rfl,held⟩)
  (fun held => free _ ⟨.inr rfl,held⟩) tag

/-- Memory keeps the bytes of the new block, and those of the other rows. -/
theorem wroteBack_kept {a o : U64} {fw' : Framework} (free : ∀ i, ¬ cache.Covers i a)
    (back : cache.WroteBack (cache.givenUp a) fw fw')
    (other : o.toNat / 8 = a.toNat / 8 ∨ ∃ i ≠ cache.givenUp a, cache.Covers i o) :
    fw'.riscv_mem o = fw.riscv_mem o := by
  apply back.kept
  rintro ⟨_,here⟩
  rcases other with block | ⟨i,away,there⟩
  · exact free _ ((covers_same_block coherent.params block).mp here)
  · exact away (covers_once coherent.params coherent.unique there here)

section
variable {a : U64} {r : CacheRow} {fw' : Framework} (free : ∀ i, ¬ cache.Covers i a) (tag : r.tag = cache.tagOf a)
  (valid : r.valid = true) (back : cache.WroteBack (cache.givenUp a) fw fw')
include free tag valid back

theorem coherent_replace (inside : a.toNat < fw.riscv_mem_size.toNat)
    (agree : r.dirty = false → ∀ o : U64, o.toNat / 8 = a.toNat / 8 → r.data (o.toNat % 8) = fw.riscv_mem o) :
    (cache.setRow (cache.givenUp a) r).Coherent fw'.end_cycle where
  params := isDataCache_setRow coherent.params _ r
  quiet := Framework.quiet_end_cycle back.steady
  unique := unique_replace coherent free tag
  dirty := by
    intro i
    by_cases here : i = cache.givenUp a
    · subst here
      rw [setRow_same]
      exact fun _ => valid
    · rw [setRow_other _ _ here]
      exact coherent.dirty i
  range := by
    intro i o covers
    rw [Framework.end_cycle_size,back.size]
    rw [covers_replace coherent.params tag valid] at covers
    split at covers
    · have blocks := coherent.quiet.blocks
      omega
    · exact coherent.range i o covers
  tags := by
    intro i
    by_cases here : i = cache.givenUp a
    · subst here
      have bound := a.isLt
      rw [setRow_same,tag,tagOf_toNat coherent.params]
      omega
    · rw [setRow_other _ _ here]
      exact coherent.tags i
  clean := by
    intro i o covers clean
    rw [covers_replace coherent.params tag valid] at covers
    rw [Framework.end_cycle_mem]
    by_cases here : i = cache.givenUp a
    · subst here
      rw [if_pos rfl] at covers
      rw [setRow_same] at clean ⊢
      rw [agree clean o covers,wroteBack_kept coherent free back (.inl covers)]
    · rw [if_neg here] at covers
      rw [setRow_other _ _ here] at clean ⊢
      rw [coherent.clean i o covers clean,wroteBack_kept coherent free back (.inr ⟨i,here,covers⟩)]

/-- A replaced row adds its own block and loses nothing. -/
theorem logical_replace (o : U64) :
    (cache.setRow (cache.givenUp a) r).logical fw'.end_cycle o =
      if o.toNat / 8 = a.toNat / 8 then r.data (o.toNat % 8) else cache.logical fw o := by
  have params' := isDataCache_setRow coherent.params (cache.givenUp a) r
  have unique' := unique_replace coherent free tag
  have covers := covers_replace coherent.params tag valid (r := r)
  by_cases block : o.toNat / 8 = a.toNat / 8
  · have here : (cache.setRow (cache.givenUp a) r).Covers (cache.givenUp a) o := by
      rw [covers,if_pos rfl]
      exact block
    rw [if_pos block,logical_covered params' unique' here,setRow_same]
  · rw [if_neg block]
    by_cases other : ∃ i ≠ cache.givenUp a, cache.Covers i o
    · obtain ⟨i,away,there⟩ := other
      have there' : (cache.setRow (cache.givenUp a) r).Covers i o := by
        rw [covers,if_neg away]
        exact there
      rw [logical_covered params' unique' there',setRow_other _ _ away,
        logical_covered coherent.params coherent.unique there]
    · have gone : ∀ i, ¬ (cache.setRow (cache.givenUp a) r).Covers i o := by
        intro i
        rw [covers]
        split
        · exact block
        · rename_i away
          exact fun there => other ⟨i,away,there⟩
      rw [logical_uncovered gone,Framework.end_cycle_mem]
      -- the address was in the row given up, or nowhere in the cache
      by_cases lost : cache.Covers (cache.givenUp a) o
      · cases dirty : (cache.rows (cache.givenUp a)).dirty with
        | true => rw [back.stored o dirty lost,logical_covered coherent.params coherent.unique lost]
        | false => rw [coherent.logical_clean lost dirty,back.kept o (by simp [dirty])]
      · rw [back.kept o (fun both => lost both.2),logical_uncovered]
        intro i there
        by_cases here : i = cache.givenUp a
        · exact lost (here ▸ there)
        · exact other ⟨i,here,there⟩

end

theorem coherent_store {a data : U64} {size : U8} (dirty : (cache.rows (cache.indexOf a)).dirty = true) :
    (cache.setRow (cache.indexOf a) ((cache.rows (cache.indexOf a)).store (cache.subindexOf a) data size)).Coherent
      fw.end_cycle where
  params := isDataCache_setRow coherent.params _ _
  quiet := Framework.quiet_end_cycle coherent.quiet.toSteady
  unique := unique_same coherent.unique ⟨rfl,rfl,id⟩
  dirty := by
    intro i
    by_cases here : i = cache.indexOf a
    · subst here
      rw [setRow_same]
      exact coherent.dirty _
    · rw [setRow_other _ _ here]
      exact coherent.dirty i
  range := fun i o covers => coherent.range i o ((covers_store cache a data size i o).mp covers)
  tags := by
    intro i
    by_cases here : i = cache.indexOf a
    · subst here
      rw [setRow_same]
      exact coherent.tags _
    · rw [setRow_other _ _ here]
      exact coherent.tags i
  clean := by
    intro i o covers clean
    rw [covers_store] at covers
    by_cases here : i = cache.indexOf a
    · subst here
      rw [setRow_same] at clean
      exact absurd (dirty.symm.trans clean) (by decide)
    · rw [setRow_other _ _ here] at clean ⊢
      exact coherent.clean i o covers clean

/-- A write that hits the first way writes its bytes. -/
theorem logical_store {a data : U64} {size : U8} (held : cache.Covers (cache.indexOf a) a)
    (fits : a.toNat % 8 + size.toNat ≤ 8) (o : U64) :
    (cache.setRow (cache.indexOf a) ((cache.rows (cache.indexOf a)).store (cache.subindexOf a) data size)).logical
        fw.end_cycle o =
      if (o - a).toNat < size.toNat then byteAt data (o - a).toNat else cache.logical fw o := by
  have params := coherent.params
  have params' := isDataCache_setRow params (cache.indexOf a)
    ((cache.rows (cache.indexOf a)).store (cache.subindexOf a) data size)
  have unique' : (cache.setRow (cache.indexOf a)
    ((cache.rows (cache.indexOf a)).store (cache.subindexOf a) data size)).Unique :=
    unique_same coherent.unique ⟨rfl,rfl,id⟩
  have covers := covers_store cache a data size
  by_cases block : o.toNat / 8 = a.toNat / 8
  · have here : cache.Covers (cache.indexOf a) o := (covers_same_block params block).mpr held
    rw [logical_covered params' unique' ((covers _ _).mpr here),setRow_same,store_data,subindexOf_toNat params]
    by_cases near : (o - a).toNat < size.toNat
    · rw [if_pos near]
      rw [BitVec.toNat_sub] at near ⊢
      rw [copy_inside (by omega) (by omega)]
      congr 1
      omega
    · rw [if_neg near,logical_covered params coherent.unique here]
      rw [BitVec.toNat_sub] at near
      rw [copy_outside (by omega)]
  · have far : ¬ (o - a).toNat < size.toNat := by
      rw [BitVec.toNat_sub]
      omega
    rw [if_neg far]
    by_cases there : ∃ i, cache.Covers i o
    · obtain ⟨i,there⟩ := there
      have away : i ≠ cache.indexOf a := by
        rintro rfl
        exact block (covers_block params there held)
      rw [logical_covered params' unique' ((covers i o).mpr there),setRow_other _ _ away,
        logical_covered params coherent.unique there]
    · rw [logical_uncovered (fun i there' => there ⟨i,(covers i o).mp there'⟩),
        logical_uncovered (fun i at' => there ⟨i,at'⟩)]
      rfl

end

/-! ### Runs -/

/-- Some way of the set holds the block of the address. -/
def Cached (cache : CacheTable) (a : U64) : Prop :=
  cache.Holds (cache.indexOf a) a ∨ cache.Holds (cache.indexOf a + cache.num_blocks) a

instance (cache : CacheTable) (a : U64) : Decidable (cache.Cached a) := inferInstanceAs (Decidable (_ ∨ _))

/-- The read that a miss needs is made: it asks for a whole block, and no write-back takes
    the memory access of the cycle. -/
def Fills (cache : CacheTable) (a : U64) : Prop :=
  a.toNat % 8 = 0 ∧ (cache.rows (cache.givenUp a)).dirty = false

/-- The call does not leave a clean row apart from memory: a read hits or fills, a write
    hits only when the row that takes its bytes is dirty already. -/
def KeepsClean (s : CacheTable × Framework) (c : Call) : Prop :=
  match c.access with
  | .read _ => s.1.Cached c.address ∨ s.1.Fills c.address
  | .write _ => ¬ s.1.ThirdWay c ∧
      (s.1.Cached c.address → (s.1.rows (s.1.indexOf c.address)).dirty = true)

/-- The call acts as on flat memory: a read is of an aligned word, and hits or fills; a
    write hits a dirty row of the first way, or misses with a whole block, or fills. -/
def ActsFlat (s : CacheTable × Framework) (c : Call) : Prop :=
  match c.access with
  | .read _ => c.address.toNat % 4 = 0 ∧ (s.1.Cached c.address ∨ s.1.Fills c.address)
  | .write _ =>
    if s.1.Cached c.address then
      s.1.Holds (s.1.indexOf c.address) c.address ∧ (s.1.rows (s.1.indexOf c.address)).dirty = true
    else c.size = 8 ∨ (s.1.Fills c.address ∧ ¬ s.1.ThirdWay c)

instance (cache : CacheTable) (a : U64) : Decidable (cache.Fills a) := inferInstanceAs (Decidable (_ ∧ _))
instance : (c : Call) → Decidable (∃ data, c.access = .write data)
  | ⟨.read _,_,_,_,_⟩ => isFalse nofun
  | ⟨.write data,_,_,_,_⟩ => isTrue ⟨data,rfl⟩
instance (cache : CacheTable) (c : Call) : Decidable (cache.ThirdWay c) := inferInstanceAs (Decidable (_ ∧ _))
instance (s : CacheTable × Framework) : (c : Call) → Decidable (KeepsClean s c)
  | ⟨.read _,_,_,_,_⟩ => inferInstanceAs (Decidable (_ ∨ _))
  | ⟨.write _,_,_,_,_⟩ => inferInstanceAs (Decidable (_ ∧ _))
instance (s : CacheTable × Framework) : (c : Call) → Decidable (ActsFlat s c)
  | ⟨.read _,_,_,_,_⟩ => inferInstanceAs (Decidable (_ ∧ _))
  | ⟨.write _,a,size,_,_⟩ => inferInstanceAs (Decidable (if s.1.Cached a then _ ∧ _ else size = 8 ∨ _))

theorem Covers.cached {cache : CacheTable} {i a : U64} (here : cache.Covers i a) : cache.Cached a := by
  obtain ⟨rfl | rfl,held⟩ := here
  · exact .inl held
  · exact .inr held
theorem not_cached {cache : CacheTable} {a : U64} (free : ∀ i, ¬ cache.Covers i a) : ¬ cache.Cached a := by
  rintro (first | second)
  · exact free _ ⟨.inl rfl,first⟩
  · exact free _ ⟨.inr rfl,second⟩

theorem ActsFlat.keepsClean {s : CacheTable × Framework} {c : Call} (flat : ActsFlat s c) : KeepsClean s c := by
  unfold ActsFlat at flat
  unfold KeepsClean
  cases access : c.access with
  | read old =>
    simp only [access] at flat
    exact flat.2
  | write data =>
    simp only [access] at flat
    split at flat
    · rename_i held
      refine ⟨?_,fun _ => flat.2⟩
      rintro ⟨_,_,_,first,second,_⟩
      exact not_or_intro first second held
    · rename_i missed
      refine ⟨?_,fun held => absurd held missed⟩
      intro third
      rcases flat with whole | ⟨_,two⟩
      · exact third.2.1 whole
      · exact two third

/-- The block of a naturally aligned access at a block address. -/
theorem block_offset {a o : U64} (aligned : a.toNat % 8 = 0) (block : o.toNat / 8 = a.toNat / 8) :
    a + BitVec.ofNat 64 (o.toNat % 8) = o := by
  apply BitVec.eq_of_toNat_eq
  rw [BitVec.toNat_add,BitVec.toNat_ofNat]
  omega

theorem settled_coherent {cache cache' : CacheTable} {fw fw' : Framework} {c : Call} {value : U64}
    (coherent : cache.Coherent fw) (plain : Plain fw.riscv_mem_size c) (keeps : KeepsClean (cache,fw) c)
    (settled : Settled cache fw c value cache' fw') :
    cache'.Coherent fw'.end_cycle ∧ fw'.riscv_mem_size = fw.riscv_mem_size := by
  unfold KeepsClean at keeps
  cases settled with
  | read_hit old i access held result rows memory =>
    subst rows memory
    exact ⟨{ coherent with quiet := Framework.quiet_end_cycle coherent.quiet.toSteady },rfl⟩
  | write_hit data i access held rows memory =>
    subst rows memory
    simp only [access] at keeps
    exact ⟨coherent_store coherent (keeps.2 held.cached),rfl⟩
  | read_miss old r access free block fresh result rows memory =>
    subst rows
    simp only [access] at keeps
    obtain ⟨aligned,clean⟩ := keeps.resolve_left (not_cached free)
    refine ⟨coherent_replace coherent free block.1 block.2.1 memory plain.inside ?_,memory.size⟩
    intro _ o same
    rw [fresh clean aligned _ (Nat.mod_lt _ (by decide)),block_offset aligned same]
  | write_miss data r access free block fresh rows memory =>
    subst rows
    refine ⟨coherent_replace coherent free block.1 block.2.1 memory plain.inside ?_,memory.size⟩
    intro clean
    exact absurd (block.2.2.symm.trans clean) (by decide)

/-- The next call of a plain guarded run is made, and keeps the invariant. -/
theorem cycle_coherent {s : CacheTable × Framework} {c : Call} (coherent : s.1.Coherent s.2)
    (plain : Plain s.2.riscv_mem_size c) (words : ∀ old, c.access = .read old → c.address.toNat % 4 = 0)
    (keeps : KeepsClean s c) :
    ∃ value cache' fw', s.1.call Framework.port s.2 c = .ok (0,value,cache',fw') ∧
      Settled s.1 s.2 c value cache' fw' ∧ cycle Framework.port Framework.end_cycle s c = .ok (cache',fw'.end_cycle) ∧
      cache'.Coherent fw'.end_cycle ∧ fw'.end_cycle.riscv_mem_size = s.2.riscv_mem_size := by
  have two : ¬ s.1.ThirdWay c := by
    rintro third
    obtain ⟨data,access⟩ := third.1
    simp only [KeepsClean,access] at keeps
    exact keeps.1 third
  obtain ⟨value,cache',fw',called,settled⟩ := call_settled coherent plain words two
  obtain ⟨kept,size⟩ := settled_coherent coherent plain keeps settled
  refine ⟨value,cache',fw',called,settled,?_,kept,size⟩
  rw [cycle,called]
  rfl

/-- A run of word and double-word calls that never brings in a block over a dirty row or
    from its middle, and never writes into a clean row, keeps every clean row equal to memory. -/
theorem clean_rows_agree {fw : Framework} (quiet : fw.Quiet) {calls : List Call}
    (plain : ∀ c ∈ calls, Plain fw.riscv_mem_size c ∧ (c.size = 4 ∨ c.size = 8))
    (safe : Guarded (cycle Framework.port Framework.end_cycle) KeepsClean (construct_cache 2048 .DATA,fw) calls) :
    ∃ s, run (cycle Framework.port Framework.end_cycle) (construct_cache 2048 .DATA,fw) calls = .ok s ∧
      s.1.CleanRowsAgree s.2 := by
  have start : (construct_cache 2048 .DATA).Coherent fw ∧ fw.riscv_mem_size = fw.riscv_mem_size :=
    ⟨coherent_construct quiet,rfl⟩
  have total := guarded_total (fun s : CacheTable × Framework =>
    s.1.Coherent s.2 ∧ s.2.riscv_mem_size = fw.riscv_mem_size) ?_ start (guarded_and plain safe)
  · obtain ⟨s,ran,coherent,_⟩ := total
    exact ⟨s,ran,coherent.agree⟩
  · rintro s c ⟨coherent,size⟩ ⟨⟨plain,bytes⟩,keeps⟩
    have words : c.address.toNat % 4 = 0 := by
      have aligned := plain.aligned.2
      rcases bytes with bytes | bytes <;> rw [bytes] at aligned <;> simp at aligned <;> omega
    rw [← size] at plain
    obtain ⟨_,cache',fw',_,_,stepped,kept,size'⟩ := cycle_coherent coherent plain (fun _ _ => words) keeps
    exact ⟨(cache',fw'.end_cycle),stepped,kept,size'.trans size⟩

theorem quiet_sevens : sevens.Quiet := ⟨⟨rfl,rfl,rfl,by decide,by decide⟩,rfl⟩

/-- A word written twice, and a block brought in beside it. -/
theorem clean_rows_agree_two_blocks :
    ∃ s, run (cycle Framework.port Framework.end_cycle) (construct_cache 2048 .DATA,sevens)
        [⟨.write 5,0,8,false,true⟩,⟨.write 6,4,4,false,true⟩,⟨.read 0,0x4000,8,false,true⟩] = .ok s ∧
      s.1.CleanRowsAgree s.2 :=
  clean_rows_agree quiet_sevens (by decide) (by decide +kernel)

/-- A load and then a store to the same word: the store hits, and leaves the row marked
    clean with bytes that memory does not have. -/
theorem write_hit_stays_clean :
    (∀ c ∈ [(⟨.read 0,0,4,false,true⟩ : Call),⟨.write 5,0,4,false,true⟩],
      Plain sevens.riscv_mem_size c ∧ (c.size = 4 ∨ c.size = 8)) ∧
    ∃ s, run (cycle Framework.port Framework.end_cycle) (construct_cache 2048 .DATA,sevens)
        [⟨.read 0,0,4,false,true⟩,⟨.write 5,0,4,false,true⟩] = .ok s ∧
      ¬ s.1.CleanRowsAgree s.2 := by
  have evaluated : okAnd (run (cycle Framework.port Framework.end_cycle) (construct_cache 2048 .DATA,sevens)
      [⟨.read 0,0,4,false,true⟩,⟨.write 5,0,4,false,true⟩]) (fun s =>
        decide ((0 : U64).toNat < s.1.num_rows ∧ (s.1.rows 0).valid = true ∧ (s.1.rows 0).dirty = false ∧
          (s.1.rows 0).data 0 ≠
            s.2.riscv_mem (BitVec.ofNat 64 ((s.1.rows 0).tag.toNat * 16384 + (0 : U64).toNat % 2048 * 8 + 0)))) =
        true := by
    decide +kernel
  obtain ⟨s,ran,evaluated⟩ := okAnd_iff.mp evaluated
  obtain ⟨inside,valid,clean,differs⟩ := of_decide_eq_true evaluated
  refine ⟨by decide,s,ran,?_⟩
  intro agree
  exact differs (agree 0 inside valid clean 0 (by decide))

/-! ### Flat memory -/

/-- The call on flat memory. -/
def flat (m : U64 → Byte) (c : Call) : U64 → Byte :=
  match c.access with
  | .read _ => m
  | .write data => fun o => if (o - c.address).toNat < c.size.toNat then byteAt data (o - c.address).toNat else m o

/-- The bytes most recently written, the initial ones where there are none. -/
def flatMemory (m : U64 → Byte) (calls : List Call) : U64 → Byte := calls.foldl flat m

theorem byteAt_word (row : CacheRow) (j : Nat) {k : Nat} (small : k < 8) :
    byteAt ((row.word j).setWidth 64 : U64) k = if k < 4 then row.data (4*j+k) else 0 := by
  rw [byteAt_setWidth _ _ (by omega)]
  by_cases low : k < 4
  · rw [if_pos low,CacheRow.word,byteAt_value _ _ _ (by omega),if_pos low]
  · rw [if_neg low,byteAt_past _ _ (by omega)]

/-- The words delivered are the row's bytes from the first of them on. -/
theorem byteAt_hit (row : CacheRow) (sub : Nat) {size : U64} {i : Nat} (inside : i < size.toNat)
    (sizes : size.toNat ≤ 4 ∨ size = 8) : byteAt (row.hit sub size) i = row.data (4*sub+i) := by
  unfold CacheRow.hit
  by_cases whole : size = 8
  · have inside : i < 8 := by rw [whole] at inside; exact inside
    rw [if_pos whole,byteAt_or,byteAt_shiftLeft _ 4 _ (by omega),byteAt_word row _ inside]
    by_cases low : i < 4
    · simp [low]
    · rw [if_neg low,if_neg low,byteAt_word row _ (by omega),if_pos (by omega)]
      have place : 4*(sub+1)+(i-4) = 4*sub+i := by omega
      simp [place]
  · have low : i < 4 := by
      have := sizes.resolve_right whole
      omega
    rw [if_neg whole,byteAt_word row _ (by omega),if_pos low]

theorem Plain.fits {size : U64} {c : Call} (plain : Plain size c) : c.address.toNat % 8 + c.size.toNat ≤ 8 :=
  Aligned.fits (show Aligned c.address c.size from plain.aligned)

/-- The address of a byte of an access. -/
theorem Plain.byte {fw : Framework} {c : Call} (steady : fw.Steady) (plain : Plain fw.riscv_mem_size c) {i : Nat}
    (inside : i < c.size.toNat) :
    (c.address + BitVec.ofNat 64 i).toNat / 8 = c.address.toNat / 8 ∧
      (c.address + BitVec.ofNat 64 i).toNat % 8 = c.address.toNat % 8 + i := by
  have size := steady.size_le
  have range := plain.range
  have fits := plain.fits
  rw [BitVec.toNat_add,BitVec.toNat_ofNat]
  omega

/-- What a read delivers from the row that it reads. -/
theorem hit_bytes (row : CacheRow) {a : U64} {size : U8} (aligned : Aligned a size) (words : a.toNat % 4 = 0)
    (value : U64) {i : Nat} (inside : i < size.toNat) :
    byteAt (storeLow size.toNat value (row.hit (a.toNat % 8 / 4) (size.setWidth 64))) i =
      row.data (a.toNat % 8 + i) := by
  have fits := aligned.fits
  have width : (size.setWidth 64 : U64).toNat = size.toNat := BitVec.toNat_setWidth_of_le (by decide)
  have sizes : (size.setWidth 64 : U64).toNat ≤ 4 ∨ size.setWidth 64 = (8 : U64) := by
    rcases aligned.1 with bytes | bytes | bytes | bytes <;> rw [bytes] <;> decide
  rw [byteAt_storeLow _ _ _ _ (by omega),if_pos inside,byteAt_hit _ _ (by omega) sizes]
  congr 1
  omega

/-- A call that acts flat does to the bytes behind cache and memory what it does to flat
    memory. -/
theorem settled_flat {cache cache' : CacheTable} {fw fw' : Framework} {c : Call} {value : U64}
    (coherent : cache.Coherent fw) (plain : Plain fw.riscv_mem_size c) (acts : ActsFlat (cache,fw) c)
    (settled : Settled cache fw c value cache' fw') (o : U64) :
    cache'.logical fw'.end_cycle o = flat (cache.logical fw) c o := by
  have params := coherent.params
  unfold ActsFlat at acts
  cases settled with
  | read_hit old i access held result rows memory =>
    subst rows memory
    simp only [flat,access]
    rfl
  | write_hit data i access held rows memory =>
    subst rows memory
    simp only [access,if_pos held.cached] at acts
    simp only [flat,access]
    exact logical_store coherent ⟨.inl rfl,acts.1⟩ plain.fits o
  | read_miss old r access free block fresh result rows memory =>
    subst rows
    simp only [access] at acts
    obtain ⟨aligned,clean⟩ := acts.2.resolve_left (not_cached free)
    simp only [flat,access]
    rw [logical_replace coherent free block.1 block.2.1 memory]
    split
    · rename_i same
      have uncovered : ∀ i, ¬ cache.Covers i o := fun i here => free i ((covers_same_block params same).mp here)
      rw [fresh clean aligned _ (Nat.mod_lt _ (by decide)),block_offset aligned same,logical_uncovered uncovered]
    · rfl
  | write_miss data r access free block fresh rows memory =>
    subst rows
    simp only [access,if_neg (not_cached free)] at acts
    have aligned : c.address.toNat % 8 = 0 := by
      rcases acts with whole | ⟨fills,_⟩
      · have fits := plain.fits
        rw [whole] at fits
        simp at fits
        omega
      · exact fills.1
    have kind : c.size = 8 ∨ (cache.rows (cache.givenUp c.address)).dirty = false :=
      acts.imp_right (fun fills => fills.1.2)
    simp only [flat,access]
    rw [logical_replace coherent free block.1 block.2.1 memory]
    have fits := plain.fits
    by_cases same : o.toNat / 8 = c.address.toNat / 8
    · have place : (o - c.address).toNat = o.toNat % 8 := by
        rw [BitVec.toNat_sub]
        omega
      have uncovered : ∀ i, ¬ cache.Covers i o := fun i here => free i ((covers_same_block params same).mp here)
      rw [if_pos same,fresh kind aligned _ (Nat.mod_lt _ (by decide)),place,block_offset aligned same,
        logical_uncovered uncovered]
    · have far : ¬ (o - c.address).toNat < c.size.toNat := by
        rw [BitVec.toNat_sub]
        omega
      rw [if_neg same,if_neg far]

/-- A read that acts flat delivers the bytes behind cache and memory. -/
theorem settled_delivers {cache cache' : CacheTable} {fw fw' : Framework} {c : Call} {value old : U64}
    (coherent : cache.Coherent fw) (plain : Plain fw.riscv_mem_size c) (acts : ActsFlat (cache,fw) c)
    (settled : Settled cache fw c value cache' fw') (access : c.access = .read old) {i : Nat}
    (inside : i < c.size.toNat) : byteAt value i = cache.logical fw (c.address + BitVec.ofNat 64 i) := by
  have params := coherent.params
  obtain ⟨block,place⟩ := Plain.byte coherent.quiet.toSteady plain inside
  simp only [ActsFlat,access] at acts
  cases settled with
  | read_hit old i access held result rows memory =>
    rw [result,hit_bytes _ plain.aligned acts.1 _ inside,logical_covered params coherent.unique
      ((covers_same_block params block).mpr held),place]
  | read_miss old r access free _ fresh result rows memory =>
    obtain ⟨aligned,clean⟩ := acts.2.resolve_left (not_cached free)
    have fits := plain.fits
    rw [result,hit_bytes _ plain.aligned acts.1 _ inside,aligned,Nat.zero_add,fresh clean aligned i (by omega),
      logical_uncovered (fun j here => free j ((covers_same_block params block).mp here))]
  | write_hit data i access' held rows memory => cases access.symm.trans access'
  | write_miss data r access' free block fresh rows memory => cases access.symm.trans access'

/-- A plain run that acts flat is made in full, and ends with the bytes of flat memory. -/
theorem run_flat {s : CacheTable × Framework} (coherent : s.1.Coherent s.2) {calls : List Call}
    (plain : ∀ c ∈ calls, Plain s.2.riscv_mem_size c)
    (safe : Guarded (cycle Framework.port Framework.end_cycle) ActsFlat s calls) :
    ∃ s', run (cycle Framework.port Framework.end_cycle) s calls = .ok s' ∧ s'.1.Coherent s'.2 ∧
      s'.2.riscv_mem_size = s.2.riscv_mem_size ∧
      s'.1.logical s'.2 = flatMemory (s.1.logical s.2) calls := by
  induction calls generalizing s with
  | nil => exact ⟨s,rfl,coherent,rfl,rfl⟩
  | cons c rest ih =>
    have acts := safe.1
    have plainHere := plain c List.mem_cons_self
    have words : ∀ old, c.access = .read old → c.address.toNat % 4 = 0 := by
      intro old access
      simp only [ActsFlat,access] at acts
      exact acts.1
    obtain ⟨value,cache',fw',called,settled,stepped,kept,size⟩ :=
      cycle_coherent coherent plainHere words acts.keepsClean
    have bytes : cache'.logical fw'.end_cycle = flat (s.1.logical s.2) c :=
      funext (settled_flat coherent plainHere acts settled)
    obtain ⟨s',ran,kept',size',bytes'⟩ := ih (s := (cache',fw'.end_cycle)) kept
      (fun d inside => size ▸ plain d (List.mem_cons_of_mem _ inside)) (safe.2 _ stepped)
    refine ⟨s',?_,kept',size'.trans size,?_⟩
    · rw [run,stepped]
      exact ran
    · rw [bytes',bytes]
      rfl

/-- In a run whose calls all act flat, every call returns 0 and every read delivers the
    bytes most recently written, or the initial ones. -/
theorem reads_flat {fw : Framework} (quiet : fw.Quiet) (calls : List Call) (c : Call)
    (plain : ∀ d ∈ calls ++ [c], Plain fw.riscv_mem_size d)
    (safe : Guarded (cycle Framework.port Framework.end_cycle) ActsFlat (construct_cache 2048 .DATA,fw)
      (calls ++ [c])) :
    ∃ s value cache' fw',
      run (cycle Framework.port Framework.end_cycle) (construct_cache 2048 .DATA,fw) calls = .ok s ∧
      s.1.call Framework.port s.2 c = .ok (0,value,cache',fw') ∧
      ∀ old, c.access = .read old → ∀ i < c.size.toNat,
        byteAt value i = flatMemory fw.riscv_mem calls (c.address + BitVec.ofNat 64 i) := by
  obtain ⟨before,last⟩ := guarded_append safe
  obtain ⟨s,ran,coherent,size,bytes⟩ := run_flat (coherent_construct quiet)
    (fun d inside => plain d (List.mem_append_left _ inside)) before
  have acts := (last s ran).1
  have plainHere : Plain s.2.riscv_mem_size c := size ▸ plain c (by simp)
  have words : ∀ old, c.access = .read old → c.address.toNat % 4 = 0 := by
    intro old access
    simp only [ActsFlat,access] at acts
    exact acts.1
  obtain ⟨value,cache',fw',called,settled,_⟩ := cycle_coherent coherent plainHere words acts.keepsClean
  refine ⟨s,value,cache',fw',ran,called,?_⟩
  intro old access i inside
  rw [settled_delivers coherent plainHere acts settled access inside,bytes]
  rfl

/-- Two writes to one block, a block brought in beside it, and the second write read back. -/
theorem reads_flat_two_blocks :
    ∃ s value cache' fw',
      run (cycle Framework.port Framework.end_cycle) (construct_cache 2048 .DATA,sevens)
        [⟨.write 5,0,8,false,true⟩,⟨.write 6,4,4,false,true⟩,⟨.read 0,0x4000,8,false,true⟩] = .ok s ∧
      s.1.call Framework.port s.2 ⟨.read 0,4,4,false,true⟩ = .ok (0,value,cache',fw') ∧ byteAt value 0 = 6 := by
  obtain ⟨s,value,cache',fw',ran,called,bytes⟩ := reads_flat quiet_sevens
    [⟨.write 5,0,8,false,true⟩,⟨.write 6,4,4,false,true⟩,⟨.read 0,0x4000,8,false,true⟩]
    ⟨.read 0,4,4,false,true⟩ (by decide) (by decide +kernel)
  refine ⟨s,value,cache',fw',ran,called,?_⟩
  rw [bytes 0 rfl 0 (by decide)]
  decide +kernel

/-- Stores to two blocks of one set and another to the second of them, which hits in the
    second way: a load from it returns the old value. -/
theorem second_way_store_lost :
    (∀ c ∈ [(⟨.write 5,0,8,false,true⟩ : Call),⟨.write 6,0x4000,8,false,true⟩,⟨.write 9,0x4000,8,false,true⟩,
      ⟨.read 0,0x4000,8,false,true⟩], Plain sevens.riscv_mem_size c) ∧
    ∃ s value cache' fw',
      run (cycle Framework.port Framework.end_cycle) (construct_cache 2048 .DATA,sevens)
        [⟨.write 5,0,8,false,true⟩,⟨.write 6,0x4000,8,false,true⟩,⟨.write 9,0x4000,8,false,true⟩] = .ok s ∧
      s.1.call Framework.port s.2 ⟨.read 0,0x4000,8,false,true⟩ = .ok (0,value,cache',fw') ∧
      byteAt value 0 = 6 ∧
      flatMemory sevens.riscv_mem
        [⟨.write 5,0,8,false,true⟩,⟨.write 6,0x4000,8,false,true⟩,⟨.write 9,0x4000,8,false,true⟩] 0x4000 = 9 := by
  have evaluated : okAnd (run (cycle Framework.port Framework.end_cycle) (construct_cache 2048 .DATA,sevens)
      [⟨.write 5,0,8,false,true⟩,⟨.write 6,0x4000,8,false,true⟩,⟨.write 9,0x4000,8,false,true⟩]) (fun s =>
        okAnd (s.1.call Framework.port s.2 ⟨.read 0,0x4000,8,false,true⟩) (fun r =>
          decide (r.1 = 0 ∧ byteAt r.2.1 0 = 6))) = true := by
    decide +kernel
  obtain ⟨s,ran,evaluated⟩ := okAnd_iff.mp evaluated
  obtain ⟨⟨code,value,cache',fw'⟩,called,evaluated⟩ := okAnd_iff.mp evaluated
  obtain ⟨zero,old⟩ := of_decide_eq_true evaluated
  simp only at zero
  subst zero
  exact ⟨by decide,s,value,cache',fw',ran,called,old,by decide +kernel⟩

end CacheTable
end RiscvSim
