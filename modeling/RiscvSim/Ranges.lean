import RiscvSim.Simulator

/-!
The range checks of memory. They compare the sum of an address and a size, which is taken
modulo 2^64, so a range that goes past the end of the address space passes if what is left of
the sum is small. For each routine, the ranges that get past its check in this way are stated
exactly.
-/
namespace RiscvSim
open Bytes

namespace Framework

/-- The same state with another byte at an offset. -/
def withByte (s : Framework) (o : U64) (b : Byte) : Framework := { s with riscv_mem := Function.update s.riscv_mem o b }

@[simp] theorem withByte_same (s : Framework) (o : U64) (b : Byte) : (s.withByte o b).riscv_mem o = b :=
  Function.update_self ..

variable {α β : Type}

/-- A routine touches a byte if for some argument it changes the byte, or has a result that
    depends on it. -/
def Touches (routine : α → Framework → β × Framework) (s : Framework) (o : U64) : Prop :=
  ∃ a, (routine a s).2.riscv_mem o ≠ s.riscv_mem o ∨ ∃ b, (routine a (s.withByte o b)).1 ≠ (routine a s).1

/-- All bytes that a routine touches lie in the array. -/
def InRange (routine : α → Framework → β × Framework) (s : Framework) : Prop :=
  ∀ o, Touches routine s o → o < s.riscv_mem_size

/-! ### The routines -/

def loading (base size : U64) (region : Buffer) (s : Framework) : Bool × Framework := s.memory_load region base size
def dumping (base size : U64) (region : Buffer) (s : Framework) : (Bool × Buffer) × Framework :=
  (s.memory_dump region base size,s)
def reading (address size_in_bytes : U64) (value : Buffer) (s : Framework) : (Bool × Buffer) × Framework :=
  let r := s.memory_read address value size_in_bytes
  ((r.1,r.2.1),r.2.2)
def writing (address size_in_bytes : U64) (value : U64) (s : Framework) : Bool × Framework :=
  s.memory_write address value size_in_bytes
/-- The word that `simulator_execute_instructions` reads at the pc, into a local that holds something. -/
def fetching (mem : MemoryState Framework) (pc : U64) (inst : U32) (s : Framework) : U32 × Framework :=
  (simulator.inst_at { mem with framework := s } pc inst,s)

/-! ### Ranges -/

/-- The byte lies in a range that passes the check. -/
def Copied (s : Framework) (base size o : U64) : Prop := base + size ≤ s.riscv_mem_size ∧ (o - base).toNat < size.toNat

/-- A range that passes the check lies in the array, unless it goes past the end of the address space. -/
theorem copied_inside_iff {s : Framework} (small : s.riscv_mem_size ≤ MEMORY_MAX_SIZE) (base size : U64) :
    (∀ o, s.Copied base size o → o < s.riscv_mem_size) ↔
      ¬ (2^64 ≤ base.toNat + size.toNat ∧ base + size ≤ s.riscv_mem_size) := by
  have bound : s.riscv_mem_size.toNat ≤ 33554432 := small
  have last := size.isLt
  constructor
  · rintro inside ⟨wraps,passes⟩
    -- the last byte of the address space is in the range
    have copied : s.Copied base size (-1) := by
      refine ⟨passes,?_⟩
      rw [BitVec.toNat_sub,show (-1 : U64).toNat = 2^64-1 from rfl]
      omega
    have below : (-1 : U64).toNat < _ := inside _ copied
    rw [show (-1 : U64).toNat = 2^64-1 from rfl] at below
    omega
  · rintro fits o ⟨passes,offset⟩
    have straight : base.toNat + size.toNat < 2^64 := by
      by_contra wraps
      exact fits ⟨by omega,passes⟩
    have sum : (base + size).toNat ≤ s.riscv_mem_size.toNat := passes
    rw [BitVec.toNat_add,Nat.mod_eq_of_lt straight] at sum
    rw [BitVec.toNat_sub] at offset
    show o.toNat < _
    omega

/-- A routine that copies its range under a condition stays in the array, unless the condition
    holds and the range goes past the end of the address space. -/
theorem inRange_iff {routine : α → Framework → β × Framework} {s : Framework}
    (small : s.riscv_mem_size ≤ MEMORY_MAX_SIZE) {now : Prop} {base size : U64}
    (touches : ∀ o, Touches routine s o ↔ now ∧ s.Copied base size o) :
    InRange routine s ↔ ¬ (now ∧ 2^64 ≤ base.toNat + size.toNat ∧ base + size ≤ s.riscv_mem_size) := by
  rw [not_and,← copied_inside_iff small]
  constructor
  · intro inside holds o copied
    exact inside o ((touches o).mpr ⟨holds,copied⟩)
  · intro inside o touched
    obtain ⟨holds,copied⟩ := (touches o).mp touched
    exact inside holds o copied

/-- A byte that is not the one given. -/
theorem exists_other (b : Byte) : ∃ c : Byte, c ≠ b := ⟨b + 1,by bv_omega⟩

theorem loading_touches (s : Framework) (base size o : U64) :
    Touches (loading base size) s o ↔ s.Copied base size o := by
  unfold Touches Copied loading
  by_cases passes : base + size ≤ s.riscv_mem_size
  · constructor
    · rintro ⟨region,changed | ⟨b,depends⟩⟩
      · rw [memory_load_passed passes] at changed
        refine ⟨passes,?_⟩
        by_contra outside
        exact changed (if_neg outside)
      · rw [memory_load_passed passes,memory_load_passed (s := s.withByte o b) passes] at depends
        exact absurd rfl depends
    · rintro ⟨-,inside⟩
      obtain ⟨c,other⟩ := exists_other (s.riscv_mem o)
      refine ⟨fun _ => c,.inl ?_⟩
      rw [memory_load_passed passes]
      rwa [← if_pos (c := (o - base).toNat < size.toNat) (t := c) (e := s.riscv_mem o) inside] at other
  · refine ⟨?_,fun copied => absurd copied.1 passes⟩
    rintro ⟨region,changed | ⟨b,depends⟩⟩
    · rw [memory_load_refused passes] at changed
      exact absurd rfl changed
    · rw [memory_load_refused passes,memory_load_refused (s := s.withByte o b) passes] at depends
      exact absurd rfl depends

/-- What is dumped does not depend on a byte outside. -/
theorem memory_dump_outside {s : Framework} {base size o : U64} (outside : ¬ s.Copied base size o) (b : Byte)
    (region : Buffer) :
    (s.withByte o b).memory_dump region base size = s.memory_dump region base size := by
  by_cases passes : base + size ≤ s.riscv_mem_size
  · rw [memory_dump_passed passes,memory_dump_passed (s := s.withByte o b) passes]
    refine congrArg (Prod.mk true) (funext fun k => ?_)
    by_cases inside : 0 ≤ k ∧ k < 0 + size.toNat
    · rw [copy_inside inside.1 inside.2,copy_inside inside.1 inside.2]
      refine Function.update_of_ne (fun same => outside ⟨passes,?_⟩) _ _
      rw [← same]
      bv_omega
    · rw [copy_outside inside,copy_outside inside]
  · rw [memory_dump_refused passes,memory_dump_refused (s := s.withByte o b) passes]

theorem memory_dump_byte {s : Framework} {base size o : U64} (copied : s.Copied base size o) (region : Buffer) :
    (s.memory_dump region base size).2 (o - base).toNat = s.riscv_mem o := by
  have inside : (o - base).toNat < 0 + size.toNat := by
    rw [Nat.zero_add]
    exact copied.2
  calc (s.memory_dump region base size).2 (o - base).toNat
    _ = copy region 0 (fun i => s.riscv_mem (base + BitVec.ofNat 64 i)) size.toNat (o - base).toNat := by
      rw [memory_dump_passed copied.1]
    _ = s.riscv_mem (base + (o - base)) := by
      rw [copy_inside (Nat.zero_le _) inside,Nat.sub_zero,BitVec.ofNat_toNat,BitVec.setWidth_eq]
    _ = s.riscv_mem o := by rw [BitVec.add_comm,BitVec.sub_add_cancel]

/-- What is dumped depends on every byte inside. -/
theorem memory_dump_inside {s : Framework} {base size o : U64} (copied : s.Copied base size o) {c : Byte}
    (other : c ≠ s.riscv_mem o) (region : Buffer) :
    ((s.withByte o c).memory_dump region base size).2 ≠ (s.memory_dump region base size).2 := by
  intro same
  have byte := memory_dump_byte (s := s.withByte o c) copied region
  rw [same,memory_dump_byte copied,withByte_same] at byte
  exact other byte.symm

theorem dumping_touches (s : Framework) (base size o : U64) :
    Touches (dumping base size) s o ↔ s.Copied base size o := by
  constructor
  · rintro ⟨region,changed | ⟨b,depends⟩⟩
    · exact absurd rfl changed
    · by_contra outside
      exact depends (memory_dump_outside outside b region)
  · intro copied
    obtain ⟨c,other⟩ := exists_other (s.riscv_mem o)
    exact ⟨fun _ => 0,.inr ⟨c,fun same => memory_dump_inside copied other _ (congrArg Prod.snd same)⟩⟩

/-! ### Reads and writes -/

theorem popcountll_small : ∀ n : Fin 17, popcountll (BitVec.ofNat 64 n) = 1 ↔ n.val ∈ [1,2,4,8,16] := by decide

theorem legal_read_iff (size : U64) : size ≤ MEMORY_MAX_READ_BYTES ∧ popcountll size = 1 ↔ size ∈ [1,2,4,8,16] := by
  have listed : size ∈ [1,2,4,8,16] ↔ size.toNat ∈ [1,2,4,8,16] := by
    simp only [List.mem_cons,List.not_mem_nil,or_false,← BitVec.toNat_inj]
    rfl
  rw [listed]
  by_cases small : size.toNat < 17
  · have single := popcountll_small ⟨size.toNat,small⟩
    rw [BitVec.ofNat_toNat,BitVec.setWidth_eq] at single
    exact ⟨fun legal => single.mp legal.2,fun inside => ⟨Nat.le_of_lt_succ small,single.mpr inside⟩⟩
  · constructor
    · rintro ⟨below,-⟩
      exact absurd (Nat.lt_succ_of_le below) small
    · intro inside
      simp only [List.mem_cons,List.not_mem_nil,or_false] at inside
      omega

theorem legal_write_iff (size : U64) : size ≤ 8 ∧ popcountll size = 1 ↔ size ∈ [1,2,4,8] := by
  constructor
  · rintro ⟨below,single⟩
    have inside := (legal_read_iff size).mp ⟨BitVec.le_trans below (by decide),single⟩
    simp only [List.mem_cons,List.not_mem_nil,or_false] at inside ⊢
    rcases inside with rfl | rfl | rfl | rfl | rfl
    all_goals first | exact absurd below (by decide) | simp
  · intro inside
    simp only [List.mem_cons,List.not_mem_nil,or_false] at inside
    rcases inside with rfl | rfl | rfl | rfl <;> decide

/-- A read that copies from memory at once, if its range passes the check. -/
structure ReadsNow (s : Framework) (address size : U64) : Prop where
  legal : size ∈ [1,2,4,8,16]
  aligned : address % size = 0
  stage : s.current_stage = .F ∨ s.current_stage = .M
  free : s.current_stage ∉ s.memory_accesses_issued
  latency : s.memory_read_latency = 0

structure WritesNow (s : Framework) (address size : U64) : Prop where
  legal : size ∈ [1,2,4,8]
  aligned : address % size = 0
  stage : s.current_stage = .M
  free : s.current_stage ∉ s.memory_accesses_issued

section
variable {s : Framework} {address size : U64}

theorem reading_answer (s : Framework) (address size : U64) (value : Buffer) : (reading address size value s).1 =
    if size > MEMORY_MAX_READ_BYTES ∨ popcountll size ≠ 1 ∨ address + size > s.riscv_mem_size ∨ address % size ≠
      0 then (true,fill value 0 1)
    else if (s.current_stage ≠ .F ∧ s.current_stage ≠ .M) ∨ s.current_stage ∈ s.memory_accesses_issued then (true,
      fill value 0 size.toNat)
    else if s.memory_read_latency = 0 then (true,(s.memory_dump value address size).2)
    else (false,fill value 0 size.toNat) := by
  simp only [reading,memory_read]
  split_ifs <;> rfl

theorem reads_now_iff : s.ReadsNow address size ∧ address + size ≤ s.riscv_mem_size ↔
    ¬ (size > MEMORY_MAX_READ_BYTES ∨ popcountll size ≠ 1 ∨ address + size > s.riscv_mem_size ∨ address % size ≠ 0) ∧
      ¬ ((s.current_stage ≠ .F ∧ s.current_stage ≠ .M) ∨ s.current_stage ∈ s.memory_accesses_issued) ∧
      s.memory_read_latency = 0 := by
  constructor
  · rintro ⟨⟨legal,aligned,stage,free,latency⟩,passes⟩
    obtain ⟨small,single⟩ := (legal_read_iff size).mpr legal
    simp only [not_or,not_and_or,not_not,gt_iff_lt,BitVec.not_lt]
    exact ⟨⟨small,single,passes,aligned⟩,⟨stage,free⟩,latency⟩
  · simp only [not_or,not_and_or,not_not,gt_iff_lt,BitVec.not_lt]
    rintro ⟨⟨small,single,passes,aligned⟩,⟨stage,free⟩,latency⟩
    exact ⟨⟨(legal_read_iff size).mp ⟨small,single⟩,aligned,stage,free,latency⟩,passes⟩

theorem reading_now (now : s.ReadsNow address size ∧ address + size ≤ s.riscv_mem_size) (value : Buffer) :
    (reading address size value s).1 = (true,(s.memory_dump value address size).2) := by
  obtain ⟨proper,allowed,latency⟩ := reads_now_iff.mp now
  rw [reading_answer,if_neg proper,if_neg allowed,if_pos latency]

theorem reading_mem (value : Buffer) : (reading address size value s).2.riscv_mem = s.riscv_mem := by
  simp only [reading,memory_read]
  split_ifs
  · rfl
  · rfl
  · rfl
  · exact add_pending_mem ..

theorem reading_otherwise (other : ¬ (s.ReadsNow address size ∧ address + size ≤ s.riscv_mem_size)) (value : Buffer)
    (o : U64) (b : Byte) :
    (reading address size value (s.withByte o b)).1 = (reading address size value s).1 := by
  rw [reads_now_iff] at other
  rw [reading_answer,reading_answer]
  by_cases improper : size > MEMORY_MAX_READ_BYTES ∨ popcountll size ≠ 1 ∨ address + size > s.riscv_mem_size ∨
    address % size ≠ 0
  · exact (if_pos improper).trans (if_pos improper).symm
  by_cases taken : (s.current_stage ≠ .F ∧ s.current_stage ≠ .M) ∨ s.current_stage ∈ s.memory_accesses_issued
  · rw [if_neg improper,if_pos taken]
    exact (if_neg improper).trans (if_pos taken)
  have latency : ¬ s.memory_read_latency = 0 := fun none => other ⟨improper,taken,none⟩
  rw [if_neg improper,if_neg taken,if_neg latency]
  exact (if_neg improper).trans ((if_neg taken).trans (if_neg latency))

theorem reading_touches (o : U64) : Touches (reading address size) s o ↔ s.ReadsNow address size ∧
    s.Copied address size o := by
  constructor
  · rintro ⟨value,changed | ⟨b,depends⟩⟩
    · exact absurd (congrFun (reading_mem value) o) changed
    · by_cases now : s.ReadsNow address size ∧ address + size ≤ s.riscv_mem_size
      · refine ⟨now.1,?_⟩
        by_contra outside
        rw [reading_now now,reading_now (s := s.withByte o b) ⟨⟨now.1.1,now.1.2,now.1.3,now.1.4,now.1.5⟩,now.2⟩,
          memory_dump_outside outside] at depends
        exact depends rfl
      · exact absurd (reading_otherwise now value o b) depends
  · rintro ⟨now,copied⟩
    obtain ⟨c,other⟩ := exists_other (s.riscv_mem o)
    refine ⟨fun _ => 0,.inr ⟨c,?_⟩⟩
    rw [reading_now ⟨now,copied.1⟩,reading_now (s := s.withByte o c) ⟨⟨now.1,now.2,now.3,now.4,now.5⟩,copied.1⟩]
    exact fun same => memory_dump_inside copied other _ (Prod.mk.inj same).2

/-! ### Writes -/

theorem writes_now_iff : s.WritesNow address size ∧ address + size ≤ s.riscv_mem_size ↔
    ¬ (size > 8 ∨ popcountll size ≠ 1 ∨ address + size > s.riscv_mem_size ∨ address % size ≠ 0) ∧
      ¬ (s.current_stage ≠ .M ∨ s.current_stage ∈ s.memory_accesses_issued) := by
  constructor
  · rintro ⟨⟨legal,aligned,stage,free⟩,passes⟩
    obtain ⟨small,single⟩ := (legal_write_iff size).mpr legal
    simp only [not_or,not_not,gt_iff_lt,BitVec.not_lt]
    exact ⟨⟨small,single,passes,aligned⟩,stage,free⟩
  · simp only [not_or,not_not,gt_iff_lt,BitVec.not_lt]
    rintro ⟨⟨small,single,passes,aligned⟩,stage,free⟩
    exact ⟨⟨(legal_write_iff size).mp ⟨small,single⟩,aligned,stage,free⟩,passes⟩

theorem memory_load_latency (s : Framework) (region : Buffer) (base size : U64) :
    (s.memory_load region base size).2.memory_write_latency = s.memory_write_latency := by
  unfold memory_load
  split_ifs <;> rfl

theorem writing_now (now : s.WritesNow address size ∧ address + size ≤ s.riscv_mem_size) (value : U64) :
    (writing address size value s).2.riscv_mem = (s.memory_load (byteAt value) address size).2.riscv_mem := by
  obtain ⟨proper,allowed⟩ := writes_now_iff.mp now
  rw [memory_load_passed now.2]
  simp only [writing,memory_write,if_neg proper,if_neg allowed]
  rw [memory_load_passed (s := { s with memory_accesses_issued := s.current_stage :: s.memory_accesses_issued }) now.2]
  split_ifs
  · rfl
  · exact add_pending_mem ..

theorem writing_otherwise (other : ¬ (s.WritesNow address size ∧ address + size ≤ s.riscv_mem_size)) (value : U64) :
    (writing address size value s).2 = s := by
  rw [writes_now_iff,not_and_or,not_not,not_not] at other
  simp only [writing,memory_write]
  split_ifs with improper taken
  · rfl
  · rfl
  · exact (other.elim improper taken).elim
  · exact (other.elim improper taken).elim

theorem writing_answer (s : Framework) (address size value : U64) : (writing address size value s).1 =
    if size > 8 ∨ popcountll size ≠ 1 ∨ address + size > s.riscv_mem_size ∨ address % size ≠ 0 then true
    else if s.current_stage ≠ .M ∨ s.current_stage ∈ s.memory_accesses_issued then true
    else decide (s.memory_write_latency = 0) := by
  simp only [writing,memory_write,memory_load_latency]
  split_ifs with improper taken latency
  · rfl
  · rfl
  · exact (decide_eq_true latency).symm
  · exact (decide_eq_false latency).symm

theorem exists_byteAt {k : Nat} (small : k < 8) (c : Byte) : ∃ v : U64, byteAt v k = c := by
  refine ⟨value 64 (fun _ => c) 8,?_⟩
  rw [byteAt_value _ _ _ (by omega),if_pos small]

theorem writing_touches (o : U64) : Touches (writing address size) s o ↔ s.WritesNow address size ∧
    s.Copied address size o := by
  constructor
  · rintro ⟨value,changed | ⟨b,depends⟩⟩
    · by_cases now : s.WritesNow address size ∧ address + size ≤ s.riscv_mem_size
      · refine ⟨now.1,(loading_touches s address size o).mp ⟨byteAt value,.inl ?_⟩⟩
        rwa [writing_now now] at changed
      · rw [writing_otherwise now] at changed
        exact absurd rfl changed
    · rw [writing_answer,writing_answer] at depends
      exact absurd rfl depends
  · rintro ⟨now,copied⟩
    have small : (o - address).toNat < 8 := lt_of_lt_of_le copied.2 ((legal_write_iff size).mpr now.legal).1
    obtain ⟨c,other⟩ := exists_other (s.riscv_mem o)
    obtain ⟨value,byte⟩ := exists_byteAt small c
    refine ⟨value,.inl ?_⟩
    rw [writing_now ⟨now,copied.1⟩,memory_load_passed copied.1]
    refine fun same => other ?_
    rw [← byte,← same]
    exact (if_pos copied.2).symm

/-! ### The fetch of the main loop -/

theorem fetching_eq (mem : MemoryState Framework) (pc : U64) (inst : U32) (s : Framework) :
    fetching mem pc inst s = (value 32 (s.memory_dump (byteAt inst) pc 4).2 4,s) := rfl

theorem fetching_touches (mem : MemoryState Framework) (pc o : U64) :
    Touches (fetching mem pc) s o ↔ s.Copied pc 4 o := by
  constructor
  · rintro ⟨inst,changed | ⟨b,depends⟩⟩
    · exact absurd rfl changed
    · by_contra outside
      rw [fetching_eq,fetching_eq,memory_dump_outside outside] at depends
      exact depends rfl
  · intro copied
    obtain ⟨c,other⟩ := exists_other (s.riscv_mem o)
    refine ⟨0,.inr ⟨c,fun same => other ?_⟩⟩
    have inside : (o - pc).toNat < 4 := copied.2
    have byte := congrArg (fun word => byteAt word (o - pc).toNat) same
    simp only [fetching_eq,byteAt_value _ _ _ (show 8 * (o - pc).toNat + 8 ≤ 32 by omega),if_pos inside,
      memory_dump_byte copied] at byte
    rw [memory_dump_byte (s := s.withByte o c) copied,withByte_same] at byte
    exact byte

/-! ### The ranges that get past the checks -/

theorem aligned_last (legal : size ∈ [1,2,4,8,16]) : (-size) % size = 0 := by
  simp only [List.mem_cons,List.not_mem_nil,or_false] at legal
  rcases legal with rfl | rfl | rfl | rfl | rfl <;> decide

/-- An aligned access goes past the end only if it ends there, and then it passes. -/
theorem wraps_iff (legal : size ∈ [1,2,4,8,16]) (aligned : address % size = 0) :
    2^64 ≤ address.toNat + size.toNat ∧ address + size ≤ s.riscv_mem_size ↔ address = -size := by
  constructor
  · rintro ⟨past,-⟩
    have whole : address.toNat % size.toNat = 0 := by
      rw [← BitVec.toNat_umod,aligned]
      rfl
    have top := address.isLt
    simp only [List.mem_cons,List.not_mem_nil,or_false] at legal
    apply BitVec.eq_of_toNat_eq
    rcases legal with rfl | rfl | rfl | rfl | rfl <;>
      simp only [BitVec.reduceNeg,BitVec.reduceToNat] at whole past ⊢ <;> omega
  · rintro rfl
    have zero : -size + size = 0 := by
      rw [BitVec.add_comm]
      exact BitVec.add_right_neg size
    refine ⟨?_,by rw [zero]; exact Nat.zero_le _⟩
    simp only [List.mem_cons,List.not_mem_nil,or_false] at legal
    rcases legal with rfl | rfl | rfl | rfl | rfl <;> decide

theorem reading_inRange_iff (small : s.riscv_mem_size ≤ MEMORY_MAX_SIZE) : InRange (reading address size) s ↔
    ¬ (size ∈ [1,2,4,8,16] ∧ address = -size ∧ (s.current_stage = .F ∨ s.current_stage = .M) ∧
      s.current_stage ∉ s.memory_accesses_issued ∧ s.memory_read_latency = 0) := by
  rw [inRange_iff small reading_touches,not_iff_not]
  constructor
  · rintro ⟨now,wraps⟩
    exact ⟨now.legal,(wraps_iff now.legal now.aligned).mp wraps,now.stage,now.free,now.latency⟩
  · rintro ⟨legal,rfl,stage,free,latency⟩
    have aligned := aligned_last legal
    exact ⟨⟨legal,aligned,stage,free,latency⟩,(wraps_iff legal aligned).mpr rfl⟩

theorem writing_inRange_iff (small : s.riscv_mem_size ≤ MEMORY_MAX_SIZE) : InRange (writing address size) s ↔
    ¬ (size ∈ [1,2,4,8] ∧ address = -size ∧ s.current_stage = .M ∧ s.current_stage ∉ s.memory_accesses_issued) := by
  have listed : size ∈ [1,2,4,8] → size ∈ [1,2,4,8,16] := fun legal => List.mem_append_left [16] legal
  rw [inRange_iff small writing_touches,not_iff_not]
  constructor
  · rintro ⟨now,wraps⟩
    exact ⟨now.legal,(wraps_iff (listed now.legal) now.aligned).mp wraps,now.stage,now.free⟩
  · rintro ⟨legal,rfl,stage,free⟩
    have aligned := aligned_last (listed legal)
    exact ⟨⟨legal,aligned,stage,free⟩,(wraps_iff (listed legal) aligned).mpr rfl⟩

end

/-- The bytes that the four routines and the fetch of the main loop touch lie in memory, but for
    ranges past the end of the address space of which the checks see the rest only. -/
theorem range_checks_iff (s : Framework) (small : s.riscv_mem_size ≤ MEMORY_MAX_SIZE) (address size : U64) :
    (InRange (loading address size) s ↔ ¬ (2^64 ≤ address.toNat + size.toNat ∧ address + size ≤ s.riscv_mem_size)) ∧
    (InRange (dumping address size) s ↔ ¬ (2^64 ≤ address.toNat + size.toNat ∧ address + size ≤ s.riscv_mem_size)) ∧
    (InRange (reading address size) s ↔ ¬ (size ∈ [1,2,4,8,16] ∧ address = -size ∧
      (s.current_stage = .F ∨ s.current_stage = .M) ∧ s.current_stage ∉ s.memory_accesses_issued ∧
      s.memory_read_latency = 0)) ∧
    (InRange (writing address size) s ↔ ¬ (size ∈ [1,2,4,8] ∧ address = -size ∧
      s.current_stage = .M ∧ s.current_stage ∉ s.memory_accesses_issued)) ∧
    ∀ mem pc, InRange (fetching mem pc) s ↔ ¬ (2^64 ≤ pc.toNat + 4 ∧ pc + 4 ≤ s.riscv_mem_size) := by
  refine ⟨?_,?_,reading_inRange_iff small,writing_inRange_iff small,fun mem pc => ?_⟩
  · rw [← copied_inside_iff small]
    exact forall_congr' fun o => imp_congr_left (loading_touches s address size o)
  · rw [← copied_inside_iff small]
    exact forall_congr' fun o => imp_congr_left (dumping_touches s address size o)
  · rw [show pc.toNat + 4 = pc.toNat + (4 : U64).toNat from rfl,← copied_inside_iff small]
    exact forall_congr' fun o => imp_congr_left (fetching_touches mem pc o)

theorem range_checks_iff_page : InRange (dumping 4096 4096) (.initial (fun _ => 0) 0 0 0) ∧
    InRange (writing 0x7FFFF8 8) ((Framework.initial (fun _ => 0) 0 0 0).enter .M) := by
  constructor
  · exact (range_checks_iff _ (by decide) 4096 4096).2.1.mpr (by decide)
  · exact (range_checks_iff _ (by decide) 0x7FFFF8 8).2.2.2.1.mpr (by decide)

/-- `jalr x0,-4(x0)` leads to the last word of the address space, and the fetch there reads it; so
    the last eight bytes are loaded, dumped, read and written. -/
theorem last_word_fetched : (∃ e, dispatch 0xFFC00067 ⟨0,0⟩ 4 .zero = .ok e ∧ e.pc = -4) ∧
    (∀ mem, ¬ InRange (fetching mem (-4)) (.initial (fun _ => 0) 0 0 0)) ∧
    ¬ InRange (loading (-8) 8) (.initial (fun _ => 0) 0 0 0) ∧
    ¬ InRange (dumping (-8) 8) (.initial (fun _ => 0) 0 0 0) ∧
    ¬ InRange (reading (-8) 8) ((Framework.initial (fun _ => 0) 0 0 0).enter .M) ∧
    ¬ InRange (writing (-8) 8) ((Framework.initial (fun _ => 0) 0 0 0).enter .M) := by
  refine ⟨⟨_,rfl,by decide⟩,fun mem inside => ?_,fun inside => ?_,fun inside => ?_,fun inside => ?_,fun inside => ?_⟩
  · exact absurd (inside (-4) ((fetching_touches mem _ _).mpr ⟨by decide,by decide⟩)) (by decide)
  · exact absurd (inside (-8) ((loading_touches _ _ _ _).mpr ⟨by decide,by decide⟩)) (by decide)
  · exact absurd (inside (-8) ((dumping_touches _ _ _ _).mpr ⟨by decide,by decide⟩)) (by decide)
  · exact absurd (inside (-8) ((reading_touches _).mpr ⟨⟨by decide,by decide,by decide,by decide,by decide⟩,
      by decide,by decide⟩)) (by decide)
  · exact absurd (inside (-8) ((writing_touches _).mpr ⟨⟨by decide,by decide,by decide,by decide⟩,by decide,by decide⟩))
      (by decide)

end Framework
end RiscvSim
