import RiscvSim.Paging
import RiscvSim.Polls

/-!
The instruction cache in a memory that changes. Some bytes stay what they were, those of the program among them, and the
rows hold these bytes (`CacheTable.Shows`), but for the row that a fetch which has to wait is reading into. So fetch
delivers the words of the program.
-/
namespace RiscvSim
open Bytes Runs

namespace CacheTable

/-- The rows hold the bytes of `text` that are fixed, but for a row `hole` that is being read into. -/
structure Shows (cache : CacheTable) (text : U64 → Byte) (fixed : U64 → Bool) (hole : Option U64) : Prop where
  params : IsInstructionCache cache
  held : ∀ o, cache.Holds (cache.indexOf o) o → hole ≠ some (cache.indexOf o) → fixed o = true →
    (cache.rows (cache.indexOf o)).data (o.toNat % 16) = text o

theorem shows_construct (text : U64 → Byte) (fixed : U64 → Bool) :
    (construct_cache 512 .INSTRUCTION).Shows text fixed none :=
  ⟨isInstructionCache_construct,fun _ held => nomatch held.1⟩

section
variable {cache cache' : CacheTable} {text : U64 → Byte} {fixed : U64 → Bool} {hole : Option U64}
  {fw fw' : Framework} {a : U64}

theorem Shows.weaken (whole : cache.Shows text fixed none) : cache.Shows text fixed hole :=
  ⟨whole.params,fun o held _ => whole.held o held nofun⟩

theorem same_row_iff (params : IsInstructionCache cache) (o a : U64) :
    cache.indexOf o = cache.indexOf a ∧ cache.tagOf o = cache.tagOf a ↔ o.toNat / 16 = a.toNat / 16 := by
  rw [block_known params.splits,params.block,← BitVec.toNat_inj,BitVec.toNat_ushiftRight,BitVec.toNat_ushiftRight,
    Nat.shiftRight_eq_div_pow,Nat.shiftRight_eq_div_pow]

/-- The word of an address, from the row that holds it. -/
theorem Shows.word (whole : cache.Shows text fixed none) (aligned : a.toNat % 4 = 0)
    (held : cache.Holds (cache.indexOf a) a) (all : ∀ i < 4, fixed (a + BitVec.ofNat 64 i) = true) :
    (cache.rows (cache.indexOf a)).word (cache.wordOf a) = wordAt text a := by
  refine value_congr fun i small => ?_
  have near : (a + BitVec.ofNat 64 i).toNat = a.toNat + i := by
    rw [BitVec.toNat_add,BitVec.toNat_ofNat]
    have bound := a.isLt
    omega
  obtain ⟨index,tag⟩ := (same_row_iff whole.params (a + BitVec.ofNat 64 i) a).mpr (by omega)
  have byte := whole.held (a + BitVec.ofNat 64 i) (by rw [Holds,index,tag]; exact held) nofun (all i small)
  rw [index,near] at byte
  have place : 4 * cache.wordOf a + i = (a.toNat + i) % 16 := by
    rw [wordOf,BitVec.toNat_ushiftRight,subindexOf_instruction whole.params,Nat.shiftRight_eq_div_pow]
    omega
  rw [← byte,← place]

/-- A row that is replaced leaves the others. -/
theorem Shows.elsewhere (shows : cache.Shows text fixed hole) {r : CacheRow} {o : U64}
    (other : cache.indexOf o ≠ cache.indexOf a) (away : hole ≠ some (cache.indexOf o)) (here : fixed o = true)
    (held : (cache.setRow (cache.indexOf a) r).Holds (cache.indexOf o) o) :
    ((cache.setRow (cache.indexOf a) r).rows (cache.indexOf o)).data (o.toNat % 16) = text o := by
  rw [Holds,setRow_other _ _ other] at held
  rw [setRow_other _ _ other]
  exact shows.held o held away here

/-- A read of the instruction cache. -/
theorem read_shows {value value' : U64} {followup available : Bool} {code : U8} (shows : cache.Shows text fixed hole)
    (own : hole = none ∨ hole = some (cache.indexOf a) ∧ ¬ cache.Holds (cache.indexOf a) a)
    (memory : ∀ o, fixed o = true → fw.riscv_mem o = text o)
    (ready : available = true → ¬ cache.Holds (cache.indexOf a) a → fw.Delivers a 16 followup)
    (ran : cache.read_access Framework.port fw a 4 value followup available = .ok (code,value',cache',fw')) :
    fw.SameMemory fw' ∧ (code = 0 ∧ cache'.Shows text fixed none ∨
      code = 1 ∧ available = true ∧ cache'.Shows text fixed (some (cache'.indexOf a)) ∧
      ¬ cache'.Holds (cache'.indexOf a) a ∨ code = 2 ∧ cache' = cache ∧ available = false) := by
  have params := shows.params
  -- the hole, if there is one, is the row of the address
  have others {o : U64} (other : cache.indexOf o ≠ cache.indexOf a) : hole ≠ some (cache.indexOf o) := by
    rcases own with rfl | ⟨rfl,-⟩
    · exact nofun
    · exact fun same => other (Option.some.inj same).symm
  cases read_access_instruction params ran with
  | hits holds =>
    obtain rfl := own.resolve_right fun missing => missing.2 holds
    exact ⟨Framework.sameMemory_refl fw,.inl ⟨rfl,shows⟩⟩
  | busy missing taken => exact ⟨Framework.sameMemory_refl fw,.inr (.inr ⟨rfl,rfl,taken⟩)⟩
  | waits missing free data _ asked =>
    refine ⟨Framework.get_block_same asked,
      .inr (.inl ⟨rfl,free,⟨isInstructionCache_setRow params _ _,fun o held away here => ?_⟩,?_⟩)⟩
    · rw [setRow_indexOf,setRow_indexOf] at away
      rw [setRow_indexOf] at held ⊢
      have other : cache.indexOf o ≠ cache.indexOf a := fun same => away (congrArg some same.symm)
      exact shows.elsewhere other (others other) here held
    · rw [Holds,setRow_indexOf,setRow_same]
      exact missing
  | fills missing free data _ asked =>
    have delivers := ready free missing
    refine ⟨Framework.get_block_same asked,.inl ⟨rfl,isInstructionCache_setRow params _ _,fun o held _ here => ?_⟩⟩
    rw [setRow_indexOf] at held ⊢
    by_cases other : cache.indexOf o = cache.indexOf a
    · rw [other,Holds,setRow_same,setRow_tagOf] at held
      rw [other,setRow_same]
      have block := (same_row_iff params o a).mp ⟨other,held.2.symm.trans (tag_stored params.splits a)⟩
      have row : cache.cache_type.row_bytes = 16 := by
        rw [params.type]
        rfl
      have byte : o.toNat % 16 < (16 : U64).toNat := Nat.mod_lt _ (by decide)
      have place : a + BitVec.ofNat 64 (o.toNat % 16) = o := by
        have aligned : a.toNat % 16 = 0 := delivers.aligned
        apply BitVec.eq_of_toNat_eq
        rw [BitVec.toNat_add,BitVec.toNat_ofNat]
        omega
      show data (o.toNat % 16) = text o
      rw [Framework.get_block_delivers row delivers asked byte,place]
      exact memory o here
    · exact shows.elsewhere other (others other) here held

/-- Addresses that are not divisible by four abort. -/
theorem read_access_words {σ : Type} {port : MemoryPort σ} (params : IsInstructionCache cache) {mem : σ}
    {size value : U64} {followup available : Bool} {r : U8 × U64 × CacheTable × σ}
    (ran : cache.read_access port mem a size value followup available = .ok r) : a.toNat % 4 = 0 := by
  unfold read_access at ran
  split at ran
  · cases ran
  rename_i whole
  exact (subindexOf_instruction_words params a).mp (not_not.mp whole)

end
end CacheTable

/-! ### The fetch stage -/

/-- The row that is being read into for what fetch waits for. -/
def MemoryState.awaited_row {φ : Type} (mem : MemoryState φ) (waits : Option Ask) : Option U64 :=
  waits.bind fun ask => if ask.n_bytes = 16 then some (mem.instruction_cache.indexOf ask.address) else none

/-- A walk waits for no row. -/
theorem awaited_walk {φ : Type} (mem : MemoryState φ) (t : Tlb) (ptbr : U64) (va : U32) (status : U8) :
    mem.awaited_row (waiting (t.walk_ask ptbr va status)) = none := by
  have word (a : U64) (poll : Bool) : mem.awaited_row (waiting (some (⟨a,4,.READ⟩,poll))) = none := by
    cases poll <;> rfl
  unfold Tlb.walk_ask
  split
  · exact word _ _
  split
  · rfl
  · exact word _ _

/-- What fetch finds. Its stage may ask, and polls for its own requests; a row that it asks for is a block inside
    memory. The fixed bytes are those of the page table, and the TLB and the cache hold nothing else of them. -/
structure FetchFinds (pt : PageTables) (fixed : U64 → Bool) (mem : MemoryState Framework) (d : StageRegD) (pc : U64) :
    Prop where
  stage : mem.framework.current_stage = .F
  free : .F ∉ mem.framework.memory_accesses_issued
  size : mem.framework.riscv_mem_size = pt.size
  ptbr : mem.framework.ptbr = pt.ptbr
  memory : ∀ o, fixed o = true → mem.framework.riscv_mem o = pt.mem o
  sound : pt.Sound mem.itlb
  known : pt.Known mem.itlb (pc.setWidth 32) d.walk_status
  rows : mem.instruction_cache.Shows pt.mem fixed (mem.awaited_row (waiting (mem.fetch_ask d pc)))
  pends : ∀ ask, waiting (mem.fetch_ask d pc) = some ask → mem.framework.Pends ask
  blocks : ∀ ask poll, mem.fetch_ask d pc = some (ask,poll) → ask.n_bytes = 16 →
    ask.address.toNat % 16 = 0 ∧ ¬ ask.address + 16 > mem.framework.riscv_mem_size

/-- What it leaves. -/
structure FetchLeaves (f : PageMap) (pt : PageTables) (fixed : U64 → Bool) (mem : MemoryState Framework) (pc : U64)
    (d' : StageRegD) (pc' : U64) (delivered : Option (U64 × U32)) (mem' : MemoryState Framework) : Prop where
  same : mem.framework.SameMemory mem'.framework
  sound : pt.Sound mem'.itlb
  known : pt.Known mem'.itlb (pc'.setWidth 32) d'.walk_status
  rows : mem'.instruction_cache.Shows pt.mem fixed (mem'.awaited_row (waiting (mem'.fetch_ask d' pc')))
  word : ∀ word, delivered = some (pc,word) → (∀ i < 4, fixed (f.place (pc.setWidth 32) + BitVec.ofNat 64 i) = true) →
    word = wordAt pt.mem (f.place (pc.setWidth 32)) ∧ (f.place (pc.setWidth 32)).toNat % 4 = 0

section
variable {f : PageMap} {pt : PageTables} {fixed : U64 → Bool} {mem mem' : MemoryState Framework}
  {d d' new_d_reg : StageRegD} {pc pc' : U64} {table : BranchTable} {delivered : Option (U64 × U32)}
  {locals : CalleeLocals} (tables : ∀ o, pt.Bytes o → fixed o = true) (finds : FetchFinds pt fixed mem d pc)
include tables finds

theorem FetchFinds.kept : pt.Kept mem.framework :=
  ⟨fun o inside => finds.memory o (tables o inside),finds.size,finds.ptbr⟩

theorem itlb_kept {status : U8} {physical_pc : U32}
    (translated : simulator.itlb_address mem locals (pc.setWidth 32) d.walk_status = .ok (status,physical_pc,mem')) :
    ∃ tlb framework, mem' = { mem with itlb := tlb, framework := framework } ∧
      pt.Translated mem.itlb mem.framework (pc.setWidth 32) d.walk_status status physical_pc tlb framework ∧
      (status ≠ 0xFE → mem.awaited_row (waiting (mem.fetch_ask d pc)) = none) := by
  obtain ⟨tlb,framework,answered,rfl⟩ := itlb_address_moved translated
  have walk (missed : ¬ (d.walk_status = 0xFF ∧ mem.itlb.Hit (pc.setWidth 32))) :
      mem.fetch_ask d pc = mem.itlb.walk_ask pt.ptbr (pc.setWidth 32) d.walk_status := by
    rw [← finds.ptbr]
    exact if_neg missed
  have free : mem.framework.current_stage ∉ mem.framework.memory_accesses_issued := by
    rw [finds.stage]
    exact finds.free
  have translated := PageTables.get_address_translated (finds.kept tables) (.inl finds.stage) free
    (fun missed ask waits => finds.pends ask (walk missed ▸ waits)) finds.known finds.sound answered
  refine ⟨tlb,framework,rfl,translated,fun later => ?_⟩
  rw [walk (translated.walked later).2]
  exact awaited_walk _ _ _ _ _

section
variable {a : U64} (found : d.walk_status = 0xFF ∧ mem.itlb.Hit (pc.setWidth 32))
  (address : ((mem.itlb.translation (pc.setWidth 32)).setWidth 64 : U64) = a)
include found address

omit tables finds in
/-- With the translation in the TLB, fetch asks for the row of the address, if that is missing. -/
theorem fetch_ask_hit : mem.fetch_ask d pc =
    if mem.instruction_cache.Holds (mem.instruction_cache.indexOf a) a then none
    else some (⟨a,16,.READ⟩,d.will_be_stalled == 1) := by
  subst address
  exact if_pos found

omit tables finds in
theorem awaited_hit : mem.awaited_row (waiting (mem.fetch_ask d pc)) = none ∨
    mem.awaited_row (waiting (mem.fetch_ask d pc)) = some (mem.instruction_cache.indexOf a) ∧
      ¬ mem.instruction_cache.Holds (mem.instruction_cache.indexOf a) a := by
  rw [fetch_ask_hit found address]
  by_cases holds : mem.instruction_cache.Holds (mem.instruction_cache.indexOf a) a
  · rw [if_pos holds]
    exact .inl rfl
  · rw [if_neg holds]
    cases d.will_be_stalled == 1 with
    | true => exact .inr ⟨rfl,holds⟩
    | false => exact .inl rfl

omit tables in
theorem FetchFinds.delivers (missing : ¬ mem.instruction_cache.Holds (mem.instruction_cache.indexOf a) a) :
    mem.framework.Delivers a 16 (d.will_be_stalled == 1) := by
  have asks := fetch_ask_hit found address
  rw [if_neg missing] at asks
  obtain ⟨aligned,range⟩ := finds.blocks _ _ asks rfl
  have free : mem.framework.current_stage ∉ mem.framework.memory_accesses_issued := by
    rw [finds.stage]
    exact finds.free
  refine ⟨.inl finds.stage,free,.inr (.inr rfl),aligned,range,fun polls => finds.pends _ ?_⟩
  rw [asks,polls]
  rfl

end

/-- The read of the cache. What is left of a miss that waits is the row that fetch then waits for. -/
theorem instruction_kept {mem₁ : MemoryState Framework} {status code : U8} {physical_pc word word' : U32}
    (translated : simulator.itlb_address mem locals (pc.setWidth 32) d.walk_status = .ok (status,physical_pc,mem₁))
    (finished : status = 0xFE ∨ status = 0xFF)
    (read : simulator.instruction_read mem₁ physical_pc word (d.will_be_stalled == 1) (status == 0xFE) =
      .ok (code,word',mem')) :
    mem.framework.SameMemory mem'.framework ∧ pt.Sound mem'.itlb ∧
      (code = 0 ∧ mem'.instruction_cache.Shows pt.mem fixed none ∨
        code = 1 ∧ mem'.instruction_cache.Shows pt.mem fixed
          (mem'.awaited_row (waiting (mem'.fetch_ask ⟨0,0,0,false,1,0xFF⟩ pc))) ∨
        code = 2 ∧ mem'.instruction_cache.Shows pt.mem fixed none) := by
  obtain ⟨tlb,framework,rfl,moved,walks⟩ := itlb_kept tables finds translated
  obtain ⟨hit,rfl⟩ := moved.reached finished
  obtain ⟨value,cache,framework',ran,-,rfl⟩ := instruction_read_moved read
  have memory (o : U64) (here : fixed o = true) : framework.riscv_mem o = pt.mem o := by
    rw [moved.same.mem]
    exact finds.memory o here
  generalize address : ((tlb.translation (pc.setWidth 32)).setWidth 64 : U64) = a at ran
  -- a read at once is for the row that fetch was to ask for
  have own : mem.awaited_row (waiting (mem.fetch_ask d pc)) = none ∨
      mem.awaited_row (waiting (mem.fetch_ask d pc)) = some (mem.instruction_cache.indexOf a) ∧
        ¬ mem.instruction_cache.Holds (mem.instruction_cache.indexOf a) a := by
    by_cases now : status = 0xFE
    · obtain ⟨⟨rfl,-⟩,found⟩ := moved.hit now
      exact awaited_hit found address
    · exact .inl (walks now)
  have ready (available : (status == 0xFE) = true)
      (missing : ¬ mem.instruction_cache.Holds (mem.instruction_cache.indexOf a) a) :
      framework.Delivers a 16 (d.will_be_stalled == 1) := by
    have now : status = 0xFE := by simpa using available
    obtain ⟨⟨rfl,rfl⟩,found⟩ := moved.hit now
    exact finds.delivers found address missing
  obtain ⟨same',outcome⟩ := CacheTable.read_shows finds.rows own memory ready ran
  refine ⟨moved.same.trans same',moved.sound,?_⟩
  rcases outcome with done | ⟨rfl,-,rows,missing⟩ | ⟨rfl,rfl,taken⟩
  · exact .inl done
  · refine .inr (.inl ⟨rfl,?_⟩)
    subst address
    have again : MemoryState.fetch_ask { mem with itlb := tlb, instruction_cache := cache, framework := framework' }
        ⟨0,0,0,false,1,0xFF⟩ pc = some (⟨(tlb.translation (pc.setWidth 32)).setWidth 64,16,.READ⟩,true) :=
      (if_pos ⟨rfl,hit⟩).trans (if_neg missing)
    rw [again]
    exact rows
  · have later : status ≠ 0xFE := by simpa using taken
    have rows := finds.rows
    rw [walks later] at rows
    exact .inr (.inr ⟨rfl,rows⟩)

/-- The fetch stage delivers the words of the program. -/
theorem fetches_kept (reads : f.Reads pt)
    (fetched : Fetches simulator mem locals d new_d_reg pc table (d',pc',delivered,mem')) :
    FetchLeaves f pt fixed mem pc d' pc' delivered mem' := by
  have whole := fetched
  cases fetched with
  | walks status physical_pc _ translated unfinished =>
    obtain ⟨tlb,framework,rfl,moved,walks⟩ := itlb_kept tables finds translated
    refine ⟨moved.same,moved.sound,(moved.walked unfinished.1).1,?_,nofun⟩
    have rows := finds.rows
    rw [walks unfinished.1] at rows
    exact rows.weaken
  | misses status physical_pc mem₁ code word _ translated finished accessed missed =>
    obtain ⟨same,sound,outcome⟩ := instruction_kept tables finds translated finished accessed
    refine ⟨same,sound,?_,?_,nofun⟩
    · rw [StageRegD.walk_status,if_neg (by simp only; split <;> decide)]
      exact PageTables.known_start _ _ _
    · rcases outcome with ⟨done,-⟩ | ⟨rfl,rows⟩ | ⟨rfl,rows⟩
      · exact absurd done missed
      · exact rows
      · exact rows.weaken
  | delivers status physical_pc mem₁ word _ translated finished accessed =>
    obtain ⟨same,sound,outcome⟩ := instruction_kept tables finds translated finished accessed
    have rows := (outcome.resolve_right (by rintro (⟨other,-⟩ | ⟨other,-⟩) <;> exact absurd other (by decide))).2
    refine ⟨same,sound,?_,rows.weaken,fun word' shown all => ?_⟩
    · rw [StageRegD.walk_status,if_neg (show (0 : U8) ≠ 2 by decide)]
      exact PageTables.known_start _ _ _
    · cases shown
      obtain ⟨-,cached⟩ := delivered_cached finds.rows.params whole
      unfold MemoryState.cached_word at cached
      simp only at cached
      split at cached
      · rename_i held
        have place : ((mem'.itlb.translation (pc.setWidth 32)).setWidth 64 : U64) = f.place (pc.setWidth 32) := by
          rw [reads.translation_eq sound held.1]
          rfl
        rw [place] at cached held
        have words : (f.place (pc.setWidth 32)).toNat % 4 = 0 := by
          obtain ⟨tlb,framework,rfl,moved,-⟩ := itlb_kept tables finds translated
          obtain ⟨hit,rfl⟩ := moved.reached finished
          obtain ⟨value,cache,framework',ran,-,rfl⟩ := instruction_read_moved accessed
          rw [← place]
          exact CacheTable.read_access_words finds.rows.params ran
        rw [← Option.some.inj cached]
        exact ⟨rows.word words held.2 all,words⟩
      · cases cached

end
end RiscvSim
