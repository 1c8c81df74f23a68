import RiscvSim.InstructionCache
import RiscvSim.Simulator
import RiscvSim.TlbWalk

/-!
Fetch against the page table. The walk of the instruction TLB takes its address anew from
the pc in every cycle, and only its status goes with the D register: an entry is right as
long as a redirect during a walk does not change what the walk has to read.
-/
namespace RiscvSim
open Bytes Runs

namespace PageTables

/-- A request of the instruction cache is one more read. -/
theorem held_memory_read {pt : PageTables} {fw : Framework} (held : pt.Held fw) {a : U64}
    (low : a.toNat < 2^32) (v : Buffer) :
    pt.Held (fw.memory_read a v 16).2.2 := by
  unfold Framework.memory_read
  split
  · exact held
  · rename_i checks
    split
    · exact held
    · simp only
      split
      · exact ⟨held.mem,held.size,held.ptbr,held.reads⟩
      · have range : a.toNat + 16 ≤ pt.size.toNat := by
          have size : pt.size.toNat ≤ 33554432 := pt.size_le
          have inside : ¬ (a + 16 > fw.riscv_mem_size) := fun past => checks (.inr (.inr (.inl past)))
          have inside : (a + (16 : U64)).toNat ≤ fw.riscv_mem_size.toNat := Nat.le_of_not_lt inside
          rw [held.size,BitVec.toNat_add,show (16 : U64).toNat = 16 from rfl] at inside
          omega
        refine ⟨?_,?_,?_,?_⟩
        · rw [Framework.add_pending_mem]
          exact held.mem
        · rw [Framework.add_pending_size]
          exact held.size
        · rw [Framework.add_pending_ptbr]
          exact held.ptbr
        · rw [Framework.add_pending_slots]
          exact Framework.onlyReads_added held.reads (by decide) (by decide) range

/-- A poll frees a slot at most. -/
theorem held_memory_status {pt : PageTables} {fw : Framework} (held : pt.Held fw) {a : U64} {v : Buffer}
    {r : Bool × Option Buffer × Framework} (polled : fw.memory_status a (some v) = some r) : pt.Held r.2.2 := by
  rcases fw.memory_status_poll a v with missing | ⟨pnd,table,found,outcome⟩
  · cases missing.symm.trans polled
    exact held
  · cases outcome.symm.trans polled
    obtain ⟨-,members⟩ := Framework.status_pending_some found
    refine ⟨held.mem,held.size,held.ptbr,fun q inside => ?_⟩
    rcases members q inside with old | rfl
    · exact held.reads q old
    · exact ⟨nofun,nofun⟩

theorem held_get_block {pt : PageTables} {cache : CacheTable} (params : IsInstructionCache cache) {fw fw' : Framework}
    (held : pt.Held fw) {a : U64} (low : a.toNat < 2^32) {row : CacheRow} {is_followup done : Bool} {data : Buffer}
    (asked : cache.get_block Framework.port fw a row is_followup = .ok (done,data,fw')) : pt.Held fw' := by
  cases is_followup with
  | false =>
    have same : (fw.memory_read a row.data cache.cache_type.row_bytes).2.2 = fw' :=
      congrArg (·.2.2) (Except.ok.inj asked)
    rw [← same,params.type]
    exact held_memory_read held low _
  | true =>
    unfold CacheTable.get_block at asked
    simp only at asked
    split at asked
    · cases asked
    · rename_i polled
      cases asked
      exact held_memory_status held polled

theorem held_read_access {pt : PageTables} {cache : CacheTable} (params : IsInstructionCache cache) {fw : Framework}
    (held : pt.Held fw) {a value : U64} (low : a.toNat < 2^32) {is_followup available : Bool}
    {r : U8 × U64 × CacheTable × Framework}
    (ran : cache.read_access Framework.port fw a 4 value is_followup available = .ok r) :
    pt.Held r.2.2.2 ∧ IsInstructionCache r.2.2.1 := by
  cases CacheTable.read_access_instruction params ran with
  | hits => exact ⟨held,params⟩
  | busy => exact ⟨held,params⟩
  | waits missing free data fw' asked =>
    exact ⟨held_get_block params held low asked,CacheTable.isInstructionCache_setRow params _ _⟩
  | fills missing free data fw' asked =>
    exact ⟨held_get_block params held low asked,CacheTable.isInstructionCache_setRow params _ _⟩

end PageTables

/-! ### Cycles of fetch alone -/

/-- The D register with its buffer, memory, and the pc of the last cycle. -/
structure FetchState where
  d : StageRegD
  new_d_reg : StageRegD
  mem : MemoryState Framework
  pc : U64

/-- What a cycle finds: the pc that the other stages left, the branch table, and the
    locals of the callees. -/
structure FetchCycle where
  pc : U64
  table : BranchTable
  locals : CalleeLocals

namespace FetchState

/-- One call of `stage_fetch`, with the D register fed back. -/
def step (s : FetchState) (c : FetchCycle) : Except Abort FetchState := do
  let (d,_,_,mem) ← stage_fetch simulator (simulator.enter s.mem .F) c.locals s.d s.new_d_reg c.pc c.table
  return ⟨d,d,simulator.end_cycle mem,c.pc⟩

/-- A walk is moved only to an address for which it reads the same entries. -/
def Steers (s : FetchState) (c : FetchCycle) : Prop :=
  s.d.will_be_stalled = 2 → PageTables.SameWalk s.d.tlb_stall_status (s.pc.setWidth 32) (c.pc.setWidth 32)
instance (s : FetchState) (c : FetchCycle) : Decidable (Steers s c) := inferInstanceAs (Decidable (_ → _))

/-- Kept by cycles that steer a walk only so. -/
structure Inv (pt : PageTables) (s : FetchState) : Prop where
  rested : pt.Rested s.mem.framework
  sound : pt.Sound s.mem.itlb
  cache : IsInstructionCache s.mem.instruction_cache
  walking : s.d.will_be_stalled = 2 →
    pt.Progress s.mem.itlb s.mem.framework.memory_pending.slots (s.pc.setWidth 32) s.d.tlb_stall_status

theorem inv_start {pt : PageTables} {s : FetchState} {c : FetchCycle} (inv : Inv pt s) (steers : Steers s c) :
    s.d.walk_status = 0xFF ∨
      pt.Progress s.mem.itlb s.mem.framework.memory_pending.slots (c.pc.setWidth 32) s.d.walk_status := by
  by_cases walking : s.d.will_be_stalled = 2
  · rw [StageRegD.walk_status,if_pos walking]
    exact .inr (PageTables.progress_redirect (inv.walking walking) (steers walking))
  · exact .inl (if_neg walking)

theorem wide_lt (a : U32) : (a.setWidth 64 : U64).toNat < 2^32 := by
  rw [BitVec.toNat_setWidth]
  exact Nat.lt_of_le_of_lt (Nat.mod_le _ _) a.isLt

theorem inv_step {pt : PageTables} (s : FetchState) (c : FetchCycle) (s' : FetchState) (inv : Inv pt s)
    (steers : Steers s c) (stepped : s.step c = .ok s') : Inv pt s' := by
  obtain ⟨⟨d,pc,delivered,mem⟩,fetched,same⟩ := bind_ok.mp stepped
  cases same
  have translation {status : U8} {physical_pc : U32} {mem' : MemoryState Framework}
      (translated : simulator.itlb_address (simulator.enter s.mem .F) c.locals (c.pc.setWidth 32) s.d.walk_status =
        .ok (status,physical_pc,mem')) :
      pt.Held mem'.framework ∧ pt.Sound mem'.itlb ∧ IsInstructionCache mem'.instruction_cache ∧
        (status ≠ 0xFE ∧ status ≠ 0xFF →
          pt.Progress mem'.itlb mem'.framework.memory_pending.slots (c.pc.setWidth 32) status) := by
    obtain ⟨⟨code,output,tlb,fw⟩,called,rest⟩ := bind_ok.mp translated
    cases rest
    have called : s.mem.itlb.get_address Framework.port s.mem.framework.ptbr (s.mem.framework.enter .F)
      (c.pc.setWidth 32) 0
      s.d.walk_status c.locals.itlb = .ok (status,physical_pc,tlb,fw) := called
    rw [inv.rested.ptbr] at called
    obtain ⟨held,sound,outcome⟩ :=
      PageTables.get_address_step inv.rested inv.sound (.inl rfl) (inv_start inv steers) called
    refine ⟨held,sound,inv.cache,fun unfinished => ?_⟩
    rcases outcome with ⟨hit,_⟩ | ended | ⟨_,progress⟩
    · exact absurd hit unfinished.1
    · exact absurd ended unfinished.2
    · exact progress
  have access {physical_pc word instruction : U32} {mem' mem'' : MemoryState Framework}
    {followup available : Bool} {code : U8}
      (held : pt.Held mem'.framework) (cache : IsInstructionCache mem'.instruction_cache)
      (accessed : simulator.instruction_read mem' physical_pc word followup available = .ok (code,instruction,mem'')) :
      pt.Held mem''.framework ∧ IsInstructionCache mem''.instruction_cache ∧ mem''.itlb = mem'.itlb := by
    obtain ⟨r,read,rest⟩ := bind_ok.mp accessed
    obtain ⟨held,cache⟩ := PageTables.held_read_access cache held (wide_lt physical_pc) read
    cases rest
    exact ⟨held,cache,rfl⟩
  cases stage_fetch_fetches fetched with
  | walks status physical_pc mem' translated unfinished =>
    obtain ⟨held,sound,cache,progress⟩ := translation translated
    exact ⟨held.rested,sound,cache,fun _ => PageTables.progress_end_cycle (progress unfinished)⟩
  | misses status physical_pc mem' read_status instruction mem'' translated finished accessed missed =>
    obtain ⟨held,sound,cache,-⟩ := translation translated
    obtain ⟨held,cache,same⟩ := access held cache accessed
    refine ⟨held.rested,?_,cache,?_⟩
    · exact same ▸ sound
    · intro walking
      simp only at walking
      split at walking <;> exact absurd walking (by decide)
  | delivers status physical_pc mem' instruction mem'' translated finished accessed =>
    obtain ⟨held,sound,cache,-⟩ := translation translated
    obtain ⟨held,cache,same⟩ := access held cache accessed
    exact ⟨held.rested,same ▸ sound,cache,fun walking => absurd (show (0 : U8) = 2 from walking) (by decide)⟩

/-- The state before the first fetch: nothing in the TLB, and no walk. -/
def start (fw : Framework) (new_d_reg : StageRegD) (pc : U64) : FetchState := ⟨.zero,new_d_reg,.initial fw,pc⟩

theorem inv_initial {pt : PageTables} {fw : Framework} (rested : pt.Rested fw) (new_d_reg : StageRegD) (pc : U64) :
    Inv pt (start fw new_d_reg pc) where
  rested := rested
  sound := nofun
  cache := isInstructionCache_construct
  walking walking := absurd (show (0 : U8) = 2 from walking) (by decide)

end FetchState

namespace PageTables

/-- Each aligned group of four virtual pages with a page mapped is mapped to an aligned
    group of four physical pages, in order. -/
def AlignedGroups (pt : PageTables) : Prop :=
  ∀ va va' : U32, va.toNat / 16384 = va'.toNat / 16384 → ∀ n, pt.page va = some n →
    ∃ n', pt.page va' = some n' ∧ n'.toNat / 4 = n.toNat / 4 ∧ n'.toNat % 4 = va'.toNat / 4096 % 4

/-- Every valid entry translates each address of the group it is tagged with as the table does. -/
def EntriesAgree (pt : PageTables) (t : Tlb) : Prop :=
  ∀ (k : BitVec 3) (va : U32), (t.entries k).valid = true → va >>> 17 = (t.entries k).virtual_page.setWidth 32 →
    (Tlb.index va).setWidth 3 = k →
    ∃ n, pt.page va = some n ∧
      Tlb.physical ((t.entries k).physical_page.setWidth 32) va = (n <<< 12) ||| (va &&& (0xFFF : U32))

theorem AlignedGroups.low {pt : PageTables} (aligned : pt.AlignedGroups) : pt.KeepsLowBits := by
  intro va n found
  obtain ⟨n',found',-,low⟩ := aligned va va rfl n found
  cases found.symm.trans found'
  exact low

theorem AlignedGroups.uniform {pt : PageTables} (aligned : pt.AlignedGroups) : pt.UniformGroups := by
  intro k small va va' group group' n found
  obtain ⟨n',found',high,-⟩ := aligned va va' (group.trans group'.symm) n found
  refine ⟨n',found',?_⟩
  have shifted : n' >>> 2 = n >>> 2 := by
    apply BitVec.eq_of_toNat_eq
    rw [BitVec.toNat_ushiftRight,BitVec.toNat_ushiftRight,Nat.shiftRight_eq_div_pow,Nat.shiftRight_eq_div_pow]
    exact high
  rw [shifted]

theorem entries_agree {pt : PageTables} (aligned : pt.AlignedGroups) {t : Tlb} (sound : pt.Sound t) :
    pt.EntriesAgree t := by
  rintro k va valid tag rfl
  exact hit_agrees aligned.low aligned.uniform sound valid (hit_group sound valid tag)

/-- Redirects that keep the entries of a walk in progress leave the instruction TLB right,
    for any page table with aligned groups and any latencies. -/
theorem fetch_entries_agree (pt : PageTables) (aligned : pt.AlignedGroups) (fw : Framework) (rested : pt.Rested fw)
    (new_d_reg : StageRegD) (pc : U64) (cycles : List FetchCycle) (s : FetchState)
    (steers : Guarded FetchState.step FetchState.Steers (.start fw new_d_reg pc) cycles)
    (ran : run FetchState.step (.start fw new_d_reg pc) cycles = .ok s) : pt.EntriesAgree s.mem.itlb :=
  entries_agree aligned (guarded_invariant (FetchState.Inv pt) FetchState.inv_step
    (FetchState.inv_initial rested new_d_reg pc) steers ran).sound

/-- The first 8 MB mapped to themselves, by a table for each half. -/
def doubled : PageTables := twoTables (fun i j => BitVec.ofNat 32 ((i - 1) * 1024 + j))

theorem page_doubled (va : U32) :
    doubled.page va = if va.toNat / 2^22 < 2 then some (BitVec.ofNat 32 (va.toNat / 4096)) else none := by
  rw [doubled,page_twoTables]
  split
  · have bound := va.isLt
    congr 1
    apply BitVec.eq_of_toNat_eq
    have place : (va.toNat / 2^22 + 1 - 1) * 1024 + va.toNat / 4096 % 1024 = va.toNat / 4096 := by omega
    rw [place,frame_toNat]
    rw [BitVec.toNat_ofNat]
    omega
  · rfl

theorem doubled_aligned : doubled.AlignedGroups := by
  intro va va' group n found
  rw [page_doubled] at found
  split at found
  · cases found
    have bound := va.isLt
    have bound' := va'.isLt
    refine ⟨_,by rw [page_doubled,if_pos (by omega)],?_,?_⟩
    · rw [BitVec.toNat_ofNat,BitVec.toNat_ofNat]
      omega
    · rw [BitVec.toNat_ofNat]
      omega
  · cases found

/-- Fetches at the given addresses. -/
def fetchesAt (pcs : List U64) : List FetchCycle := pcs.map fun pc => ⟨pc,.zero,⟨⟨0,0,0⟩,⟨0,0,0⟩⟩⟩

theorem fetch_entries_agree_doubled : ∃ s,
    run FetchState.step (.start doubled.boot .zero 0) (fetchesAt [0x4000,0x24000,0x24010,0x24010]) = .ok s ∧
      (s.mem.itlb.entries 1).valid = true ∧ doubled.EntriesAgree s.mem.itlb := by
  have steers : Guarded FetchState.step FetchState.Steers (.start doubled.boot .zero 0)
      (fetchesAt [0x4000,0x24000,0x24010,0x24010]) := by decide +kernel
  have result : okAnd (run FetchState.step (.start doubled.boot .zero 0) (fetchesAt [0x4000,0x24000,0x24010,0x24010]))
      (fun s => (s.mem.itlb.entries 1).valid) = true := by decide +kernel
  obtain ⟨s,ran,entered⟩ := okAnd_iff.mp result
  exact ⟨s,ran,entered,fetch_entries_agree doubled doubled_aligned _ (rested_boot doubled) _ _ _ s steers ran⟩

/-- A walk for an address in the second half of memory goes on for address 0, and enters
    the page of the one for the other. -/
theorem redirected_walk_corrupts : doubled.AlignedGroups ∧ ∃ s,
    run FetchState.step (.start doubled.boot .zero 0) (fetchesAt [0x400000,0]) = .ok s ∧
    ¬ doubled.EntriesAgree s.mem.itlb := by
  refine ⟨doubled_aligned,?_⟩
  have result : okAnd (run FetchState.step (.start doubled.boot .zero 0) (fetchesAt [0x400000,0]))
      (fun s => s.mem.itlb.entries 0 == ⟨true,256,0⟩) = true := by decide +kernel
  obtain ⟨s,ran,entered⟩ := okAnd_iff.mp result
  refine ⟨s,ran,fun agrees => ?_⟩
  have entry : s.mem.itlb.entries 0 = ⟨true,256,0⟩ := by simpa using entered
  obtain ⟨n,found,same⟩ := agrees 0 0 (by rw [entry]) (by rw [entry]; decide) (by decide)
  rw [page_doubled] at found
  cases found
  rw [entry] at same
  exact absurd same (by decide)

end PageTables
end RiscvSim
