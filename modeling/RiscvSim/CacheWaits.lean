import RiscvSim.Answers
import RiscvSim.WriteBacks

/-!
The data cache over memory of any latency. A miss that has to wait reads into the row it is going to
replace, and the row keeps its old tag: until the block is there its bytes stand for nothing. Apart
from that row the cache and the memory behind it stand for one flat memory (`Stands`). A store of a whole block may
give up a dirty row: its bytes are put into memory in the cycle that asks for it, and memory then has them while the
store waits (`Spares`).
-/
namespace RiscvSim
open Bytes Runs

/-! ### The flat memory behind the cache -/

namespace CacheTable

/-- The cache over the memory `m` stands for the bytes `L`, but for a row `hole` that is being read into. -/
structure Stands (cache : CacheTable) (L m : U64 → Byte) (hole : Option U64) : Prop where
  params : IsDataCache cache
  unique : cache.Unique
  held : ∀ i o, cache.Covers i o → hole ≠ some i → (cache.rows i).data (o.toNat % 8) = L o
  backed : ∀ o, (∀ i, cache.Covers i o → (cache.rows i).dirty = false) → m o = L o

/-- It stands for them, or a miss of the address is filling its row, which is clean. -/
def StandsAt (cache : CacheTable) (L m : U64 → Byte) (a : U64) : Prop :=
  cache.Stands L m none ∨ cache.Stands L m (some (cache.givenUp a)) ∧ cache.Missing a ∧
  (cache.rows (cache.givenUp a)).dirty = false

/-- Memory has the bytes of the row that a miss of the address gives up. -/
def Spares (cache : CacheTable) (L m : U64 → Byte) (a : U64) : Prop := ∀ o, cache.Covers (cache.givenUp a) o → m o = L o

theorem stands_construct (m : U64 → Byte) : (construct_cache 2048 .DATA).Stands m m none where
  params := isDataCache_construct
  unique := unique_construct
  held _ _ covers := nomatch covers.2.1
  backed _ _ := rfl

theorem Missing.free {cache : CacheTable} {a : U64} (missing : cache.Missing a) (i : U64) : ¬ cache.Covers i a :=
  not_covered missing.1 missing.2 i

section
variable {cache : CacheTable} {L m : U64 → Byte} {a : U64}

theorem Stands.logical_eq {fw : Framework} (stands : cache.Stands L fw.riscv_mem none) : cache.logical fw = L := by
  funext o
  by_cases covered : ∃ i, cache.Covers i o
  · obtain ⟨i,covers⟩ := covered
    rw [logical_covered stands.params stands.unique covers]
    exact stands.held i o covers nofun
  · have free (i : U64) : ¬ cache.Covers i o := fun covers => covered ⟨i,covers⟩
    rw [logical_uncovered free]
    exact stands.backed o fun i covers => absurd covers (free i)

/-- What both cases say of the rows apart from the one that the miss replaces. -/
theorem StandsAt.weaken (stands : cache.StandsAt L m a) : cache.Stands L m (some (cache.givenUp a)) := by
  rcases stands with whole | ⟨filling,-⟩
  · exact ⟨whole.params,whole.unique,fun i o covers _ => whole.held i o covers nofun,whole.backed⟩
  · exact filling

/-- A dirty row is not being read into. -/
theorem StandsAt.whole (stands : cache.StandsAt L m a) (dirty : (cache.rows (cache.givenUp a)).dirty = true) :
    cache.Stands L m none :=
  stands.resolve_right fun filling => absurd (dirty.symm.trans filling.2.2) (by decide)

/-- Memory may get the bytes that the cache stands for. -/
theorem Stands.moved {m' : U64 → Byte} {hole : Option U64} (stands : cache.Stands L m hole)
    (moved : ∀ o, m' o = m o ∨ m' o = L o) :
    cache.Stands L m' hole where
  params := stands.params
  unique := stands.unique
  held := stands.held
  backed o all := by
    rcases moved o with same | there
    · exact same.trans (stands.backed o all)
    · exact there

theorem StandsAt.moved {m' : U64 → Byte} (stands : cache.StandsAt L m a) (moved : ∀ o, m' o = m o ∨ m' o = L o) :
    cache.StandsAt L m' a :=
  stands.imp (·.moved moved) fun filling => ⟨filling.1.moved moved,filling.2⟩

/-- A clean row is in memory. -/
theorem Stands.spares {hole : Option U64} (stands : cache.Stands L m hole)
    (clean : (cache.rows (cache.givenUp a)).dirty = false) :
    cache.Spares L m a := by
  intro o here
  refine stands.backed o fun i there => ?_
  rw [covers_once stands.params stands.unique there here]
  exact clean

/-- A miss that waits leaves the row it replaces to be filled. -/
theorem stands_waits (stands : cache.StandsAt L m a) (missing : cache.Missing a)
    (clean : (cache.rows (cache.givenUp a)).dirty = false) (data : Buffer) :
    (cache.setRow (cache.givenUp a) { cache.rows (cache.givenUp a) with data := data }).StandsAt L m a := by
  have stands := stands.weaken
  have chosen := givenUp_filled stands.params data (a := a) (id : (cache.rows (cache.givenUp a)).dirty = true → _)
  have covers (i o : U64) : (cache.setRow (cache.givenUp a) { cache.rows (cache.givenUp a) with data := data }).Covers i
    o ↔
      cache.Covers i o := by
    apply covers_same
    · rfl
    · rfl
  have dirty (i : U64) : ((cache.setRow (cache.givenUp a) { cache.rows (cache.givenUp a) with data := data }).rows
    i).dirty =
      (cache.rows i).dirty := by
    by_cases here : i = cache.givenUp a
    · rw [here,setRow_same]
    · rw [setRow_other _ _ here]
  refine .inr ⟨?_,?_,?_⟩
  · rw [chosen]
    refine ⟨isDataCache_setRow stands.params _ _,unique_same stands.unique ⟨rfl,rfl,id⟩,fun i o here other => ?_,
      fun o all => ?_⟩
    · have away : i ≠ cache.givenUp a := fun same => other (congrArg some same.symm)
      rw [setRow_other _ _ away]
      exact stands.held i o ((covers i o).mp here) other
    · exact stands.backed o fun i here => (dirty i).symm.trans (all i ((covers i o).mpr here))
  · have free (i : U64) : ¬ (cache.setRow (cache.givenUp a) { cache.rows (cache.givenUp a) with data := data }).Covers i
      a :=
      fun here => missing.free i ((covers i a).mp here)
    exact ⟨fun held => free _ ⟨.inl rfl,held⟩,fun held => free _ ⟨.inr rfl,held⟩⟩
  · rw [chosen,dirty]
    exact clean

/-- A miss that is done: the row holds the new bytes of its block, and the row given up was in memory. -/
theorem stands_replaced {L' : U64 → Byte} {r : CacheRow} (stands : cache.StandsAt L m a) (missing : cache.Missing a)
    (spares : cache.Spares L m a) (tag : r.tag = cache.tagOf a) (valid : r.valid = true)
    (bytes : ∀ o : U64, o.toNat / 8 = a.toNat / 8 → r.data (o.toNat % 8) = L' o)
    (others : ∀ o : U64, o.toNat / 8 ≠ a.toNat / 8 → L' o = L o)
    (read : r.dirty = false → ∀ o : U64, o.toNat / 8 = a.toNat / 8 → L' o = L o) :
    (cache.setRow (cache.givenUp a) r).Stands L' m none := by
  have stands := stands.weaken
  have params := stands.params
  have covers := covers_replace params tag valid (r := r)
  have apart {i o : U64} (here : cache.Covers i o) : o.toNat / 8 ≠ a.toNat / 8 :=
    fun block => missing.free i ((covers_same_block params block).mp here)
  refine ⟨isDataCache_setRow params _ _,unique_miss params stands.unique missing.1 missing.2 tag,fun i o here _ => ?_,
    fun o all => ?_⟩
  · rw [covers] at here
    by_cases same : i = cache.givenUp a
    · rw [if_pos same] at here
      rw [same,setRow_same]
      exact bytes o here
    · rw [if_neg same] at here
      rw [setRow_other _ _ same,others o (apart here)]
      exact stands.held i o here fun other => same (Option.some.inj other).symm
  · by_cases block : o.toNat / 8 = a.toNat / 8
    · have row := all (cache.givenUp a) ((covers _ o).mpr (by rw [if_pos rfl]; exact block))
      rw [setRow_same] at row
      rw [read row o block]
      exact stands.backed o fun i here => absurd block (apart here)
    · rw [others o block]
      by_cases given : cache.Covers (cache.givenUp a) o
      · exact spares o given
      refine stands.backed o fun i here => ?_
      have other : i ≠ cache.givenUp a := fun same => given (same ▸ here)
      have kept := all i ((covers i o).mpr (by rw [if_neg other]; exact here))
      rwa [setRow_other _ _ other] at kept

/-- The bytes after a store. -/
def overwrite (L : U64 → Byte) (a data : U64) (size : U8) : U64 → Byte := fun o =>
  if (o - a).toNat < size.toNat then byteAt data (o - a).toNat else L o

/-- Inside the block of the address, the bytes of a store are those from its place on. -/
theorem overwrite_block {data : U64} {size : U8} (fits : a.toNat % 8 + size.toNat ≤ 8) (row : Buffer) {o : U64}
    (block : o.toNat / 8 = a.toNat / 8) (same : row (o.toNat % 8) = L o) :
    copy row (a.toNat % 8) (byteAt data) size.toNat (o.toNat % 8) = overwrite L a data size o := by
  unfold overwrite
  by_cases near : (o - a).toNat < size.toNat
  · rw [if_pos near]
    rw [BitVec.toNat_sub] at near ⊢
    rw [copy_inside (by omega) (by omega)]
    congr 1
    omega
  · rw [if_neg near]
    rw [BitVec.toNat_sub] at near
    rw [copy_outside (by omega)]
    exact same

theorem overwrite_other {data : U64} {size : U8} (fits : a.toNat % 8 + size.toNat ≤ 8) {o : U64}
    (other : o.toNat / 8 ≠ a.toNat / 8) :
    overwrite L a data size o = L o := by
  refine if_neg ?_
  rw [BitVec.toNat_sub]
  omega

/-- A write that hits a dirty row of the first way. -/
theorem stands_store (stands : cache.Stands L m none) (first : cache.Holds (cache.indexOf a) a)
    (dirty : (cache.rows (cache.indexOf a)).dirty = true) {data : U64} {size : U8}
    (fits : a.toNat % 8 + size.toNat ≤ 8) :
    (cache.setRow (cache.indexOf a) ((cache.rows (cache.indexOf a)).store (cache.subindexOf a) data size)).Stands
      (overwrite L a data size) m none := by
  have params := stands.params
  have here : cache.Covers (cache.indexOf a) a := ⟨.inl rfl,first⟩
  have covers := covers_store cache a data size
  refine ⟨isDataCache_setRow params _ _,unique_same stands.unique ⟨rfl,rfl,id⟩,fun i o held _ => ?_,fun o all => ?_⟩
  · have held := (covers i o).mp held
    by_cases same : i = cache.indexOf a
    · subst same
      rw [setRow_same,store_data,subindexOf_toNat params]
      exact overwrite_block fits _ (covers_block params held here) (stands.held _ o held nofun)
    · rw [setRow_other _ _ same,stands.held i o held nofun,overwrite_other fits]
      intro block
      exact same (covers_once params stands.unique held ((covers_same_block params block).mpr here))
  · have kept (i : U64) (held : cache.Covers i o) : i ≠ cache.indexOf a ∧ (cache.rows i).dirty = false := by
      have row := all i ((covers i o).mpr held)
      by_cases same : i = cache.indexOf a
      · subst same
        rw [setRow_same] at row
        exact absurd (dirty.symm.trans row) (by decide)
      · rw [setRow_other _ _ same] at row
        exact ⟨same,row⟩
    rw [overwrite_other fits]
    · exact stands.backed o fun i held => (kept i held).2
    · intro block
      exact (kept _ ((covers_same_block params block).mpr here)).1 rfl

/-! ### One access -/

/-- The block of the address is inside a memory of the size. -/
def Within (size a : U64) : Prop := a.toNat / 8 * 8 + 8 ≤ size.toNat

/-- What an access does to memory: it moves bytes that the cache stands for at most. -/
structure Moves (L : U64 → Byte) (fw fw' : Framework) : Prop extends fw.Keeps fw' where
  bytes : ∀ o, fw'.riscv_mem o = fw.riscv_mem o ∨ fw'.riscv_mem o = L o

theorem moves_same {fw fw' : Framework} (same : fw.SameMemory fw') : Moves L fw fw' :=
  ⟨same.toKeeps,fun o => .inl (congrFun same.mem o)⟩

theorem Moves.trans {fw fw' fw'' : Framework} (first : Moves L fw fw') (second : Moves L fw' fw'') :
    Moves L fw fw'' where
  toKeeps := first.toKeeps.trans second.toKeeps
  bytes o := by
    rcases second.bytes o with same | there
    · rw [same]
      exact first.bytes o
    · exact .inr there

section
variable {fw fw' : Framework} {followup done : Bool}

/-- A poll for a write-back leaves memory as it is. -/
theorem put_block_polled {i : U64} {row : CacheRow}
    (asked : cache.put_block Framework.port fw i row true = .ok (done,fw')) : fw.SameMemory fw' := by
  rw [put_block] at asked
  split at asked
  · cases asked
  · rename_i polled
    cases asked
    exact Framework.memory_status_same polled

/-- The eight bytes that a dirty row is written back to are a block inside memory, and are those that it covers. -/
theorem givenUp_bytes (housed : cache.Housed (Within fw.riscv_mem_size)) (small : fw.riscv_mem_size ≤ MEMORY_MAX_SIZE)
    (dirty : (cache.rows (cache.givenUp a)).dirty = true) :
    (cache.oldAddress (cache.givenUp a)).toNat % 8 = 0 ∧ ¬ cache.oldAddress (cache.givenUp a) + 8 > fw.riscv_mem_size ∧
      ∀ o : U64, (o - cache.oldAddress (cache.givenUp a)).toNat < 8 ↔ cache.Covers (cache.givenUp a) o := by
  have size : fw.riscv_mem_size.toNat ≤ 33554432 := small
  have params := housed.params
  have inside := victimOf_inside params (index_lt params a)
  rw [num_rows_data params] at inside
  obtain ⟨b,within,covers⟩ := housed.block (cache.givenUp a) inside (housed.dirty _ dirty)
  have within : b.toNat / 8 * 8 + 8 ≤ fw.riscv_mem_size.toNat := within
  have low (c : U64) (inside : Within fw.riscv_mem_size c) : c.toNat < 2^50 := by
    have inside : c.toNat / 8 * 8 + 8 ≤ fw.riscv_mem_size.toNat := inside
    omega
  have place : (cache.oldAddress (cache.givenUp a)).toNat = b.toNat / 8 * 8 := by
    rw [oldAddress_block housed low dirty covers,BitVec.toNat_shiftLeft,BitVec.toNat_ushiftRight,Nat.shiftLeft_eq,
      Nat.shiftRight_eq_div_pow]
    omega
  refine ⟨by omega,fun past => ?_,fun o => ?_⟩
  · have past : fw.riscv_mem_size.toNat < (cache.oldAddress (cache.givenUp a) + 8).toNat := past
    rw [BitVec.toNat_add,place,show (8 : U64).toNat = 8 from rfl] at past
    omega
  · have block : (o - cache.oldAddress (cache.givenUp a)).toNat < 8 ↔ o.toNat / 8 = b.toNat / 8 := by
      rw [BitVec.toNat_sub]
      omega
    rw [block]
    exact ⟨fun same => (covers_same_block params same).mpr covers,fun here => covers_block params here covers⟩

/-- The write-back of a dirty row puts its block into memory when it is asked; a poll finds it there. -/
theorem put_block_moves (housed : cache.Housed (Within fw.riscv_mem_size)) (small : fw.riscv_mem_size ≤ MEMORY_MAX_SIZE)
    (stands : cache.Stands L fw.riscv_mem none) (dirty : (cache.rows (cache.givenUp a)).dirty = true)
    (stage : fw.current_stage = .M) (free : .M ∉ fw.memory_accesses_issued)
    (written : followup = true → cache.Spares L fw.riscv_mem a)
    (asked : cache.put_block Framework.port fw (cache.givenUp a) (cache.rows (cache.givenUp a)) followup =
      .ok (done,fw')) :
    Moves L fw fw' ∧ cache.Spares L fw'.riscv_mem a := by
  cases followup with
  | true =>
    have same := put_block_polled asked
    refine ⟨moves_same same,?_⟩
    rw [same.mem]
    exact written rfl
  | false =>
    obtain ⟨aligned,range,near⟩ := givenUp_bytes housed small dirty
    obtain ⟨keeps,bytes⟩ := Framework.memory_write_makes stage free aligned range (Except.ok.inj asked)
    have stored (o : U64) (here : cache.Covers (cache.givenUp a) o) : fw'.riscv_mem o = L o := by
      have inner := (near o).mpr here
      have held := stands.held _ o here (Option.some_ne_none _).symm
      rw [bytes,if_pos inner,CacheRow.dword,byteAt_value _ _ _ (by omega),if_pos inner,← held]
      congr 1
      rw [BitVec.toNat_sub] at inner ⊢
      omega
    refine ⟨⟨keeps,fun o => ?_⟩,stored⟩
    by_cases here : cache.Covers (cache.givenUp a) o
    · exact .inr (stored o here)
    · refine .inl ?_
      rw [bytes,if_neg fun inner => here ((near o).mp inner)]

end

/-- The outcome of an access: the cache stands for `L'` if it is done, and else for what it stood for; if the access
    waits, and not for its turn only, memory has the row that is given up. -/
def Served (cache' : CacheTable) (L L' m : U64 → Byte) (a : U64) (code : U8) : Prop :=
  code = 0 ∧ cache'.Stands L' m none ∨
    code ≠ 0 ∧ cache'.StandsAt L m a ∧ (code ≠ 2 → cache'.Spares L m a)

section
variable {L' : U64 → Byte} {cache' hit : CacheTable} {fw fw' : Framework} {followup available : Bool}
  {finish : Buffer → CacheRow} {code : U8}

theorem asksBlock_served (stands : cache.StandsAt L fw.riscv_mem a)
    (ready : available = true → cache.Missing a → (cache.rows (cache.givenUp a)).dirty = false ∧
      fw.Delivers a 8 followup)
    (hits : ¬ cache.Missing a → cache.Stands L fw.riscv_mem none → hit.Stands L' fw.riscv_mem none)
    (tag : ∀ data, (finish data).tag = cache.tagOf a ∧ (finish data).valid = true)
    (bytes : ∀ data, (∀ o : U64, o.toNat / 8 = a.toNat / 8 → data (o.toNat % 8) = L o) →
      ∀ o : U64, o.toNat / 8 = a.toNat / 8 → (finish data).data (o.toNat % 8) = L' o)
    (others : ∀ o : U64, o.toNat / 8 ≠ a.toNat / 8 → L' o = L o)
    (read : ∀ data, (finish data).dirty = false → L' = L)
    (asks : AsksBlock Framework.port cache fw a followup available hit finish code cache' fw') :
    fw.SameMemory fw' ∧ cache'.Served L L' fw.riscv_mem a code := by
  have stood := stands.weaken
  cases asks with
  | hits held =>
    exact ⟨Framework.sameMemory_refl fw,.inl ⟨rfl,hits held (stands.resolve_right fun filling => held filling.2.1)⟩⟩
  | busy taken => exact ⟨Framework.sameMemory_refl fw,.inr ⟨by decide,stands,fun other => absurd rfl other⟩⟩
  | waits missing free data _ asked =>
    obtain ⟨clean,-⟩ := ready free missing
    have waiting := stands_waits stands missing clean data
    refine ⟨Framework.get_block_same asked,.inr ⟨by decide,waiting,fun _ => waiting.weaken.spares ?_⟩⟩
    rw [givenUp_filled stood.params data (id : (cache.rows (cache.givenUp a)).dirty = true → _),setRow_same]
    exact clean
  | reads missing free data _ asked =>
    obtain ⟨clean,delivers⟩ := ready free missing
    refine ⟨Framework.get_block_same asked,.inl ⟨rfl,?_⟩⟩
    refine stands_replaced stands missing (stood.spares clean) (tag data).1 (tag data).2
      (bytes data fun o block => ?_) others
      fun unwritten o _ => by rw [read data unwritten]
    have row : cache.cache_type.row_bytes = 8 := by
      rw [stood.params.type]
      rfl
    have byte : o.toNat % 8 < (8 : U64).toNat := Nat.mod_lt _ (by decide)
    rw [Framework.get_block_delivers row delivers asked byte,block_offset delivers.aligned block]
    exact stood.backed o fun i here => absurd ((covers_same_block stood.params block).mp here) (missing.free i)

theorem read_served {size value value' : U64} (params : IsDataCache cache) (stands : cache.StandsAt L fw.riscv_mem a)
    (ready : available = true → cache.Missing a → (cache.rows (cache.givenUp a)).dirty = false ∧
      fw.Delivers a 8 followup)
    (ran : cache.read_access Framework.port fw a size value followup available = .ok (code,value',cache',fw')) :
    fw.SameMemory fw' ∧ cache'.Served L L fw.riscv_mem a code := by
  refine asksBlock_served stands ready (fun _ whole => whole) (fun data => ⟨tag_stored params.splits a,rfl⟩)
    (fun data same => same)
    (fun _ _ => rfl) (fun _ _ => rfl) (read_access_asks params (fun free missing => (ready free missing).1) ran)

theorem storedRow_data (params : IsDataCache cache) (data : U64) (size : U8) (row : CacheRow) :
    (cache.storedRow a data size row).data = copy row.data (a.toNat % 8) (byteAt data) size.toNat := by
  rw [← subindexOf_toNat params a]
  rfl

/-- A store of a whole block needs nothing of what the row held. -/
theorem stands_whole {data : U64} (params : IsDataCache cache) (stands : cache.StandsAt L m a)
    (fits : a.toNat % 8 + 8 ≤ 8) (missing : cache.Missing a) (spares : cache.Spares L m a) :
    (cache.setRow (cache.givenUp a) (cache.storedRow a data 8 (cache.rows (cache.givenUp a)))).Stands
    (overwrite L a data 8) m none := by
  refine stands_replaced stands missing spares (tag_stored params.splits a) rfl (fun o block => ?_)
    (fun o other => overwrite_other fits other) nofun
  have near : (o - a).toNat < 8 := by
    rw [BitVec.toNat_sub]
    omega
  rw [storedRow_data params,overwrite,if_pos (by exact near),copy_inside (by omega) (by show _ < _ + 8; omega)]
  congr 1
  rw [BitVec.toNat_sub]
  omega

/-- A store of a part of a block, which reads it first. -/
theorem part_served {data : U64} {size : U8} (params : IsDataCache cache) (stands : cache.StandsAt L fw.riscv_mem a)
    (fits : a.toNat % 8 + size.toNat ≤ 8) (part : size ≠ 8)
    (first : ¬ cache.Missing a → cache.Holds (cache.indexOf a) a ∧ (cache.rows (cache.indexOf a)).dirty = true)
    (ready : available = true → cache.Missing a → (cache.rows (cache.givenUp a)).dirty = false ∧
      fw.Delivers a 8 followup)
    (ran : cache.write_access Framework.port fw a data size followup available = .ok (code,cache',fw')) :
    fw.SameMemory fw' ∧ cache'.Served L (overwrite L a data size) fw.riscv_mem a code := by
  refine asksBlock_served stands ready (fun held stands => ?_) (fun block => ⟨tag_stored params.splits a,rfl⟩)
    (fun block same o here => ?_) (fun o other => overwrite_other fits other)
    (fun _ unwritten => nomatch (show true = false from unwritten))
    (write_access_asks params part (fun free missing => (ready free missing).1) ran)
  · exact stands_store stands (first held).1 (first held).2 fits
  · rw [storedRow_data params]
    exact overwrite_block fits block here (same o here)

/-- A store of a whole block, which writes back the row it gives up. -/
theorem whole_served {data : U64} (stands : cache.StandsAt L fw.riscv_mem a) (fits : a.toNat % 8 + 8 ≤ 8)
    (housed : cache.Housed (Within fw.riscv_mem_size)) (small : fw.riscv_mem_size ≤ MEMORY_MAX_SIZE)
    (first : ¬ cache.Missing a → cache.Holds (cache.indexOf a) a ∧ (cache.rows (cache.indexOf a)).dirty = true)
    (ready : available = true → cache.Missing a → (cache.rows (cache.givenUp a)).dirty = true →
      (fw.current_stage = .M ∧ .M ∉ fw.memory_accesses_issued) ∧ (followup = true → cache.Spares L fw.riscv_mem a))
    (ran : cache.write_access Framework.port fw a data 8 followup available = .ok (code,cache',fw')) :
    Moves L fw fw' ∧ cache'.Served L (overwrite L a data 8) fw'.riscv_mem a code := by
  have params := stands.weaken.params
  have asked {done : Bool} (free : available = true) (missing : cache.Missing a)
    (dirty : (cache.rows (cache.givenUp a)).dirty = true)
      (asked : cache.put_block Framework.port fw (cache.givenUp a) (cache.rows (cache.givenUp a)) followup =
        .ok (done,fw')) :=
    put_block_moves housed small (stands.whole dirty) dirty (ready free missing dirty).1.1
    (ready free missing dirty).1.2
      (ready free missing dirty).2 asked
  cases write_access_cleans params ran with
  | hits held =>
    have stands := stands.resolve_right fun filling => held filling.2.1
    exact ⟨moves_same (Framework.sameMemory_refl fw),.inl ⟨rfl,stands_store stands (first held).1 (first held).2 fits⟩⟩
  | takes missing clean =>
    exact ⟨moves_same (Framework.sameMemory_refl fw),
      .inl ⟨rfl,stands_whole params stands fits missing (stands.weaken.spares clean)⟩⟩
  | busy taken =>
    exact ⟨moves_same (Framework.sameMemory_refl fw),.inr ⟨by decide,stands,fun other => absurd rfl other⟩⟩
  | writes missing free dirty _ written =>
    obtain ⟨moves,spares⟩ := asked free missing dirty written
    exact ⟨moves,.inl ⟨rfl,stands_whole params (stands.moved moves.bytes) fits missing spares⟩⟩
  | waits missing free dirty _ written =>
    obtain ⟨moves,spares⟩ := asked free missing dirty written
    exact ⟨moves,.inr ⟨by decide,stands.moved moves.bytes,fun _ => spares⟩⟩

end
end
end CacheTable
end RiscvSim
