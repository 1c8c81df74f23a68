import RiscvSim.Answers
import RiscvSim.Delivery
import RiscvSim.FetchWalk
import RiscvSim.VirtualMemory

/-!
Walks in a memory that changes. The bytes of the page table stay what they were (`PageTables.Kept`),
whatever a program stores elsewhere; so a walk whose polls find their own requests still reads the entries
of the table, and what a TLB holds is right.
-/
namespace RiscvSim
open Bytes Runs

namespace PageTables

/-- A byte of the root, or of a table that a valid entry names. -/
def Bytes (pt : PageTables) (o : U64) : Prop :=
  (o - pt.ptbr).toNat < 4096 ∨ ∃ va, pt.first va >>> 31 = 1 ∧ (o - tableOf (pt.first va)).toNat < 4096

/-- Memory still has the page table. -/
structure Kept (pt : PageTables) (fw : Framework) : Prop where
  bytes : ∀ o, pt.Bytes o → fw.riscv_mem o = pt.mem o
  size : fw.riscv_mem_size = pt.size
  ptbr : fw.ptbr = pt.ptbr

/-- Once the first entry of a walk is read, it is the one of the address. -/
def Known (pt : PageTables) (t : Tlb) (va : U32) (status : U8) : Prop :=
  ¬ (status = 0 ∨ status = 0xFF) → t.cached_second_index = pt.first va

theorem known_start (pt : PageTables) (t : Tlb) (va : U32) : pt.Known t va 0xFF := fun later => absurd (.inr rfl) later

theorem Known.redirect {pt : PageTables} {t : Tlb} {va va' : U32} {status : U8} (known : pt.Known t va status)
    (same : SameWalk status va va') : pt.Known t va' status := by
  intro later
  rw [known later,first,first,firstEntry,firstEntry,same.1]

section
variable {pt : PageTables} {t t' : Tlb} {fw fw' : Framework} {va : U32} {status code : U8} (kept : pt.Kept fw)

include kept in
theorem Kept.first_word (va : U32) :
    wordAt fw.riscv_mem ((Tlb.first_level_index pt.ptbr (va >>> 12)).setWidth 64) = pt.first va := by
  rw [first_level_address]
  refine value_congr fun i small => kept.bytes _ (.inl ?_)
  have bound := va.isLt
  have root := pt.root
  have size : pt.size.toNat ≤ 33554432 := pt.size_le
  simp only [BitVec.toNat_sub,BitVec.toNat_add,BitVec.toNat_mul,BitVec.toNat_setWidth,BitVec.toNat_ushiftRight,
    BitVec.toNat_ofNat,Nat.shiftRight_eq_div_pow,show (4 : U64).toNat = 4 from rfl]
  omega

include kept in
theorem Kept.second_word (valid : pt.first va >>> 31 = 1) :
    wordAt fw.riscv_mem ((Tlb.second_level_index (pt.first va) (va >>> 12)).setWidth 64) =
      wordAt pt.mem ((Tlb.second_level_index (pt.first va) (va >>> 12)).setWidth 64) := by
  refine value_congr fun i small => kept.bytes _ (.inr ⟨va,valid,?_⟩)
  have inside : (tableOf (pt.first va)).toNat + 4096 ≤ pt.size.toNat := pt.tables va valid
  have place := second_level_toNat va inside
  have size : pt.size.toNat ≤ 33554432 := pt.size_le
  rw [BitVec.toNat_sub,BitVec.toNat_add,BitVec.toNat_setWidth,BitVec.toNat_ofNat,place]
  omega

/-- A stage that may ask for a word inside memory. -/
theorem delivers_word {a : U32} {poll : Bool} (stage : fw.current_stage = .F ∨ fw.current_stage = .M)
    (free : fw.current_stage ∉ fw.memory_accesses_issued) (aligned : a.toNat % 4 = 0)
    (range : a.toNat + 4 ≤ fw.riscv_mem_size.toNat) (pending : poll = true → fw.Pends ⟨a.setWidth 64,4,.READ⟩) :
    fw.Delivers (a.setWidth 64) 4 poll := by
  have wide : (a.setWidth 64 : U64).toNat = a.toNat := by
    have bound := a.isLt
    rw [BitVec.toNat_setWidth]
    omega
  refine ⟨stage,free,.inl rfl,?_,fun past => ?_,pending⟩
  · rw [wide]
    exact aligned
  · have past : fw.riscv_mem_size.toNat < (a.setWidth 64 + (4 : U64)).toNat := past
    rw [BitVec.toNat_add,wide,show (4 : U64).toNat = 4 from rfl] at past
    omega

section
variable (stage : fw.current_stage = .F ∨ fw.current_stage = .M) (free : fw.current_stage ∉ fw.memory_accesses_issued)
  (pends : ∀ ask, waiting (t.walk_ask pt.ptbr va status) = some ask → fw.Pends ask)
include kept stage free pends

theorem first_delivers (start : status = 0 ∨ status = 0xFF) :
    fw.Delivers ((Tlb.first_level_index pt.ptbr (va >>> 12)).setWidth 64) 4 (status == 0) := by
  have address := first_level_toNat pt va
  have aligned := pt.aligned
  have root := pt.root
  have bound := va.isLt
  refine delivers_word stage free (by omega) ?_ fun polls => pends _ ?_
  · rw [kept.size]
    omega
  · rw [Tlb.walk_ask,if_pos start,polls]
    rfl

variable (known : pt.Known t va status)
include known

theorem second_delivers (later : ¬ (status = 0 ∨ status = 0xFF)) (valid : pt.first va >>> 31 = 1) :
    fw.Delivers ((Tlb.second_level_index (pt.first va) (va >>> 12)).setWidth 64) 4 (status == 1) := by
  have inside : (tableOf (pt.first va)).toNat + 4096 ≤ pt.size.toNat := pt.tables va valid
  have address := second_level_toNat va inside
  have table := tableOf_toNat (pt.first va)
  refine delivers_word stage free (by omega) ?_ fun polls => pends _ ?_
  · rw [kept.size]
    omega
  · rw [Tlb.walk_ask,if_neg later,known later,if_neg (not_not_intro valid),polls]
    rfl

/-- A step of a walk enters the page of the address, or leaves the entries alone. -/
theorem update_kept {ret : U32} {locals : TlbLocals}
    (ran : t.update_tlb_entry Framework.port pt.ptbr fw (Tlb.index va) (va >>> 12) status locals =
      .ok (code,ret,t',fw')) :
    (∃ ret, pt.Entered t t' va ret) ∧ code = 0xFF ∨ t'.entries = t.entries ∧ pt.Known t' va code := by
  have second {v word : U32} {fw₁ : Framework} (later : ¬ (status = 0 ∨ status = 0xFF)) (valid : pt.first va >>> 31 = 1)
      (read : Framework.port.read_word fw (Tlb.second_level_index (pt.first va) (va >>> 12)) v (status == 1) =
        .ok (true,word,fw₁)) :
      word = wordAt pt.mem ((Tlb.second_level_index (pt.first va) (va >>> 12)).setWidth 64) :=
    (Framework.read_word_delivers (second_delivers kept stage free pends known later valid) read).trans
    (kept.second_word valid)
  cases Tlb.update_tlb_entry_updates ran with
  | reads_first start word _ read =>
    have word := Framework.read_word_delivers (first_delivers kept stage free pends start) read
    exact .inr ⟨rfl,fun _ => word.trans (kept.first_word va)⟩
  | awaits_first => exact .inr ⟨rfl,fun later => absurd (.inl rfl) later⟩
  | unmapped later => exact .inr ⟨rfl,fun _ => known later⟩
  | awaits_second later => exact .inr ⟨rfl,fun _ => known later⟩
  | absent later => exact .inr ⟨rfl,fun _ => known later⟩
  | enters later valid word _ read present group =>
    rw [known later] at valid read
    exact .inl ⟨⟨_,entered_walked t valid (second later valid read) present group⟩,rfl⟩

end

/-- What a translation leaves: the TLB is sound, and a walk is where its status says. A hit changes nothing, and one
    that is finished is that of the entry of the address. -/
structure Translated (pt : PageTables) (t : Tlb) (fw : Framework) (va : U32) (status code : U8) (out : U32) (t' : Tlb)
    (fw' : Framework) :
    Prop where
  same : fw.SameMemory fw'
  sound : pt.Sound t'
  walked : code ≠ 0xFE → pt.Known t' va code ∧ ¬ (status = 0xFF ∧ t.Hit va)
  hit : code = 0xFE → (t' = t ∧ fw' = fw) ∧ status = 0xFF ∧ t.Hit va
  reached : code = 0xFE ∨ code = 0xFF → t'.Hit va ∧ out = t'.translation va

include kept in
theorem get_address_translated (stage : fw.current_stage = .F ∨ fw.current_stage = .M)
    (free : fw.current_stage ∉ fw.memory_accesses_issued)
    (pends : ¬ (status = 0xFF ∧ t.Hit va) → ∀ ask, waiting (t.walk_ask pt.ptbr va status) = some ask → fw.Pends ask)
    (known : pt.Known t va status) (sound : pt.Sound t) {out out' : U32} {locals : TlbLocals}
    (called : t.get_address Framework.port fw.ptbr fw va out status locals = .ok (code,out',t',fw')) :
    pt.Translated t fw va status code out' t' fw' := by
  have same := Framework.get_address_same called
  have reached := Tlb.get_address_finished called
  rw [kept.ptbr] at called
  unfold Tlb.get_address at called
  simp only at called
  split at called
  · rename_i hit
    cases called
    exact ⟨same,sound,fun missed => absurd rfl missed,fun _ => ⟨⟨rfl,rfl⟩,hit⟩,reached⟩
  rename_i missed
  obtain ⟨⟨new_status,ret,t₁,fw₁⟩,updated,called⟩ := bind_ok.mp called
  have step : pt.Sound t₁ ∧ pt.Known t₁ va new_status := by
    rcases update_kept kept stage free (pends missed) known updated with ⟨⟨ret,entered⟩,rfl⟩ | ⟨entries,known⟩
    · exact ⟨sound_entered sound entered,known_start pt t₁ va⟩
    · refine ⟨?_,known⟩
      rw [Sound,entries]
      exact sound
  simp only at called
  split at called
  · cases called
    exact ⟨same,step.1,fun _ => ⟨step.2,missed⟩,fun ended => absurd ended (update_code updated),reached⟩
  · cases called
    exact ⟨same,step.1,fun _ => ⟨known_start pt t' va,missed⟩,fun ended => absurd ended (by decide),reached⟩

end
end PageTables

/-- The map extends that of the page table. A TLB entry is for a group of four pages, so the map takes a group with
    a page in the table to such a group, in order. -/
structure PageMap.Reads (f : PageMap) (pt : PageTables) : Prop where
  page : ∀ va n, pt.page va = some n → f.physical va = (n <<< 12) ||| (va &&& (0xFFF : U32))
  group : ∀ va va' n, va.toNat / 16384 = va'.toNat / 16384 → pt.page va = some n →
    (f.physical va').toNat = (f.physical va).toNat / 16384 * 16384 + va'.toNat % 16384

/-- A hit gives the physical address of the map. -/
theorem PageMap.Reads.translation_eq {f : PageMap} {pt : PageTables} (reads : f.Reads pt) {t : Tlb}
    (sound : pt.Sound t) {va : U32} (hit : t.Hit va) : t.translation va = f.physical va := by
  obtain ⟨-,vb,n,walked,found,entry⟩ := sound _ hit.2
  have group := PageTables.hit_group sound hit.2 hit.1
  apply BitVec.eq_of_toNat_eq
  rw [reads.group vb va n (walked.trans group.symm) found,reads.page vb n found,PageTables.mapped_toNat]
  show (Tlb.physical ((t.entries ((Tlb.index va).setWidth 3)).physical_page.setWidth 32) va).toNat = _
  rw [PageTables.physical_toNat,entry,BitVec.toNat_setWidth,BitVec.toNat_ushiftRight,Nat.shiftRight_eq_div_pow]
  omega

/-- An aligned word is the same seen through the map. -/
theorem PageMap.view_word (f : PageMap) (m : U64 → Byte) {va : U32} (aligned : (f.place va).toNat % 4 = 0) :
    (f.view m).word va = wordAt m (f.place va) := by
  refine value_congr fun i small => congrArg m (f.place_add ?_)
  have mod := f.place_mod va
  omega

/-! ### The first 4 MB mapped to themselves -/

/-- Every page in the frame of its own number. -/
def PageMap.identity : PageMap := ⟨id,Function.injective_id⟩

section
variable {program : Nat → U32} (low : ∀ i, 0x100000 ≤ i → program i = 0)
include low

theorem firstEntry_identityMapped (va : U32) :
    firstEntry (memOfWords (identityMapped program)) 0x400000 va = if va.toNat / 2^22 = 0 then 0x80000401 else 0 := by
  have bound := va.isLt
  have address : ((0x400000 : U64) + (va >>> 22).setWidth 64 * 4).toNat = (0x100000 + va.toNat / 2^22) * 4 := by
    simp only [BitVec.toNat_add,BitVec.toNat_mul,BitVec.toNat_setWidth,BitVec.toNat_ushiftRight,
      Nat.shiftRight_eq_div_pow,show (4 : U64).toNat = 4 from rfl,show (0x400000 : U64).toNat = 0x400000 from rfl]
    omega
  rw [firstEntry,wordAt_memOfWords _ (by rw [address]; omega) (by rw [address]; omega),address,
    Nat.mul_div_cancel _ (by decide),identityMapped]
  by_cases first : va.toNat / 2^22 = 0
  · rw [if_pos (by omega),if_pos first]
  · rw [if_neg (by omega),if_neg (by omega),if_neg first,low _ (by omega)]

omit low in
theorem secondEntry_identityMapped {va : U32} (inside : va.toNat / 2^22 = 0) :
    secondEntry (memOfWords (identityMapped program)) 0x80000401 va = 0x80000000 |||
    BitVec.ofNat 32 (va.toNat / 4096) := by
  have page : (va >>> 12 &&& (0x3FF : U32)).toNat = va.toNat / 4096 := by
    rw [BitVec.toNat_and,BitVec.toNat_ushiftRight,Nat.shiftRight_eq_div_pow,show (0x3FF : U32).toNat = 2^10-1 from rfl,
      Nat.and_two_pow_sub_one_eq_mod]
    omega
  have address : (tableOf 0x80000401 + (va >>> 12 &&& (0x3FF : U32)).setWidth 64 * 4).toNat =
      (0x100400 + va.toNat / 4096) * 4 := by
    rw [BitVec.toNat_add,PageTables.tableOf_toNat,BitVec.toNat_mul,BitVec.toNat_setWidth,page,
      show (4 : U64).toNat = 4 from rfl,show (0x80000401 : U32).toNat = 0x80000401 from rfl]
    omega
  rw [secondEntry,wordAt_memOfWords _ (by rw [address]; omega) (by rw [address]; omega),address,
    Nat.mul_div_cancel _ (by decide),identityMapped,if_neg (by omega),if_pos (by omega),Nat.add_sub_cancel_left]

/-- The tables of a program that is below them. -/
def identityTables : PageTables where
  mem := memOfWords (identityMapped program)
  size := 8 * 1024 * 1024
  ptbr := 0x400000
  size_le := Framework.initial_size_le
  aligned := rfl
  root := by decide
  tables va := by
    rw [firstEntry_identityMapped low]
    split
    · exact fun _ => by decide
    · exact fun valid => absurd valid (by decide)

theorem page_identityTables (va : U32) :
    (identityTables low).page va = if va.toNat / 2^22 = 0 then some (BitVec.ofNat 32 (va.toNat / 4096)) else none := by
  show pageNumber (memOfWords (identityMapped program)) 0x400000 va = _
  rw [pageNumber,firstEntry_identityMapped low]
  by_cases inside : va.toNat / 2^22 = 0
  · have fits : (BitVec.ofNat 32 (va.toNat / 4096)).toNat < 2^31 := by
      rw [BitVec.toNat_ofNat]
      omega
    rw [if_pos inside,if_pos inside,if_pos (by decide),secondEntry_identityMapped inside,if_pos (valid_or _)]
    exact congrArg some (BitVec.eq_of_toNat_eq (PageTables.frame_toNat fits))
  · rw [if_neg inside,if_neg inside,if_neg (by decide)]

omit low in
theorem identity_physical (va : U32) : PageMap.identity.physical va = va := by
  apply BitVec.eq_of_toNat_eq
  rw [PageMap.physical_toNat]
  show (PageMap.page va).toNat * 4096 + _ = _
  rw [PageMap.page_toNat]
  omega

theorem identity_reads : PageMap.identity.Reads (identityTables low) where
  page va n found := by
    rw [page_identityTables] at found
    split at found
    · cases found
      apply BitVec.eq_of_toNat_eq
      rw [identity_physical,PageTables.mapped_toNat,BitVec.toNat_ofNat]
      omega
    · cases found
  group va va' n together _ := by
    rw [identity_physical,identity_physical]
    omega

theorem identity_bytes {o : U64} (inside : (identityTables low).Bytes o) : 0x400000 ≤ o := by
  show (0x400000 : U64).toNat ≤ o.toNat
  rcases inside with root | ⟨va,valid,table⟩
  · have root : (o - 0x400000).toNat < 4096 := root
    bv_omega
  · have first : (identityTables low).first va = _ := firstEntry_identityMapped low va
    rw [first] at valid table
    split at valid
    · rename_i zero
      rw [if_pos zero,show tableOf 0x80000401 = 0x401000 from rfl] at table
      bv_omega
    · exact absurd valid (by decide)

end
end RiscvSim
