import RiscvSim.Alongside
import RiscvSim.Requests
import RiscvSim.Ranges

/-!
Where in memory a run goes. The simulator is run with every call of `memory_read`, `memory_write` and
`memory_status` recorded, together with the framework as the call finds it. Recording changes nothing, and no
call of a run touches a byte outside the array: the ranges that get past the checks lie at the end
of the address space, and the TLBs and the caches ask for addresses of 32 bits.
-/
namespace RiscvSim
open Bytes Runs

namespace Framework

/-- `memory_status` as a routine that touches bytes. -/
def polling (address : U64) (value : Option Buffer) (s : Framework) : Option (Bool × Option Buffer) × Framework :=
  match s.memory_status address value with
  | none => (none,s)
  | some (done,data,s') => (some (done,data),s')

/-- The slots hold requests of no more than sixteen bytes, and memory has no more than its maximal size. -/
structure Bounded (fw : Framework) : Prop where
  size : fw.riscv_mem_size ≤ MEMORY_MAX_SIZE
  slots : ∀ q ∈ fw.memory_pending.slots, q.n_bytes.toNat ≤ 16

theorem bounded_initial (mem : U64 → Byte) (ptbr read_latency write_latency : U64) :
    (Framework.initial mem ptbr read_latency write_latency).Bounded := by
  refine ⟨initial_size_le,fun q inside => ?_⟩
  rw [List.eq_of_mem_replicate inside]
  decide

theorem bounded_same {fw fw' : Framework} (bounded : fw.Bounded) (same : SameTable fw fw') : fw'.Bounded := by
  constructor
  · rw [same.size]
    exact bounded.size
  · rw [same.pending]
    exact bounded.slots

theorem bounded_added {fw : Framework} (bounded : fw.Bounded) (address : U64) {size : U64} (few : size.toNat ≤ 16)
    (op : MemoryOp) :
    (fw.memory_add_pending address size op).2.Bounded := by
  constructor
  · rw [add_pending_size]
    exact bounded.size
  · rw [add_pending_slots]
    cases added : add_pending _ fw.memory_pending.slots with
    | none => exact bounded.slots
    | some after =>
      intro q inside
      rcases (add_pending_some added).1 q inside with old | rfl
      · exact bounded.slots q old
      · exact few

theorem bounded_read {fw : Framework} (bounded : fw.Bounded) (address : U64) (value : Buffer) {size : U64}
    (few : size.toNat ≤ 16) :
    (fw.memory_read address value size).2.2.Bounded := by
  rcases fw.memory_read_cases address value size with ⟨data,fw',read,same⟩ | ⟨data,s,read,same,-⟩
  · rw [read]
    exact bounded_same bounded same
  · rw [read]
    exact bounded_added (bounded_same bounded same) address few .READ

theorem bounded_write {fw : Framework} (bounded : fw.Bounded) (address value : U64) {size : U64}
    (few : size.toNat ≤ 16) :
    (fw.memory_write address value size).2.Bounded := by
  rcases fw.memory_write_cases address value size with ⟨fw',written,same⟩ | ⟨s,written,same,-⟩
  · rw [written]
    exact bounded_same bounded same
  · rw [written]
    exact bounded_added (bounded_same bounded same) address few .WRITE

/-- What a poll finds: no slot that is done, or one that it marks. -/
theorem memory_status_cases (fw : Framework) (address : U64) (value : Option Buffer) :
    (∀ riscv_mem, { fw with riscv_mem := riscv_mem }.memory_status address value =
      some (false,value,{ fw with riscv_mem := riscv_mem })) ∨
      ∃ pnd ∈ fw.memory_pending.slots, ∃ table : PendingTable, (∀ q ∈ table.slots, ∃ p ∈ fw.memory_pending.slots,
        q.n_bytes = p.n_bytes) ∧ ∀ riscv_mem, { fw with riscv_mem := riscv_mem }.memory_status address value =
          if pnd.op = .READ then
            value.map fun b => (true,some ({ fw with riscv_mem := riscv_mem }.memory_dump b address pnd.n_bytes).2,
              { fw with riscv_mem := riscv_mem, memory_pending := table })
          else some (true,value,{ fw with riscv_mem := riscv_mem, memory_pending := table }) := by
  cases found : status_pending address fw.cycle_counter fw.memory_pending.slots with
  | none =>
    refine .inl fun riscv_mem => ?_
    exact memory_status_missed value found
  | some answer =>
    obtain ⟨pnd,after⟩ := answer
    obtain ⟨first,marked⟩ := status_pending_some found
    have inside : pnd ∈ fw.memory_pending.slots := List.mem_of_find?_eq_some first
    refine .inr ⟨pnd,inside,⟨after,(status_pending_length found).trans fw.memory_pending.size_eq⟩,?_,
      fun riscv_mem => ?_⟩
    · intro q among
      rcases marked q among with old | rfl
      · exact ⟨q,old,rfl⟩
      · exact ⟨pnd,inside,rfl⟩
    · exact memory_status_found value _ found

theorem bounded_status {fw : Framework} (bounded : fw.Bounded) {address : U64} {value : Option Buffer}
    {r : Bool × Option Buffer × Framework} (answered : fw.memory_status address value = some r) : r.2.2.Bounded := by
  rcases fw.memory_status_cases address value with missed | ⟨pnd,-,table,slots,found⟩
  · cases (missed fw.riscv_mem).symm.trans answered
    exact bounded
  · have marked : Bounded { fw with memory_pending := table } := by
      refine ⟨bounded.size,fun q inside => ?_⟩
      obtain ⟨p,old,same⟩ := slots q inside
      rw [same]
      exact bounded.slots p old
    have answered := (found fw.riscv_mem).symm.trans answered
    split at answered
    · obtain ⟨data,-,rfl⟩ := Option.map_eq_some_iff.mp answered
      exact marked
    · cases answered
      exact marked

theorem bounded_end_cycle {fw : Framework} (bounded : fw.Bounded) : fw.end_cycle.Bounded := by
  refine ⟨bounded.size,fun q inside => ?_⟩
  rw [end_cycle_slots] at inside
  obtain ⟨p,old,rfl⟩ := List.mem_map.mp inside
  split
  · exact bounded.slots p old
  · exact bounded.slots p old

/-! ### Calls of narrow addresses -/

section
variable {fw : Framework} (bounded : fw.Bounded) {address : U64} (narrow : address.toNat < 2^32)
include bounded narrow

theorem reading_inRange (size : U64) : InRange (reading address size) fw := by
  rw [reading_inRange_iff bounded.size]
  rintro ⟨legal,rfl,-⟩
  simp only [List.mem_cons,List.not_mem_nil,or_false] at legal
  rcases legal with rfl | rfl | rfl | rfl | rfl <;> exact absurd narrow (by decide)

theorem writing_inRange (size : U64) : InRange (writing address size) fw := by
  rw [writing_inRange_iff bounded.size]
  rintro ⟨legal,rfl,-⟩
  simp only [List.mem_cons,List.not_mem_nil,or_false] at legal
  rcases legal with rfl | rfl | rfl | rfl <;> exact absurd narrow (by decide)

/-- A poll touches no more than the bytes of the slot that it finds. -/
theorem polling_inRange : InRange (polling address) fw := by
  rintro o ⟨value,touched⟩
  rcases fw.memory_status_cases address value with missed | ⟨pnd,inside,table,-,found⟩
  · have polled (riscv_mem : U64 → Byte) : polling address value { fw with riscv_mem := riscv_mem } =
        (some (false,value),{ fw with riscv_mem := riscv_mem }) := by rw [polling,missed]
    rcases touched with changed | ⟨b,depends⟩
    · exact absurd (by rw [polled fw.riscv_mem]) changed
    · exact absurd (by rw [polled fw.riscv_mem,withByte,polled]) depends
  by_contra outside
  -- the bytes of the slot lie in the array
  have short := bounded.slots pnd inside
  have apart : ¬ fw.Copied address pnd.n_bytes o := by
    intro copied
    refine outside ((copied_inside_iff bounded.size address pnd.n_bytes).mpr ?_ o copied)
    rintro ⟨wraps,-⟩
    omega
  by_cases read : pnd.op = .READ
  · simp only [if_pos read] at found
    cases value with
    | none =>
      have polled (riscv_mem : U64 → Byte) : polling address none { fw with riscv_mem := riscv_mem } =
          (none,{ fw with riscv_mem := riscv_mem }) := by rw [polling,found,Option.map_none]
      rcases touched with changed | ⟨b,depends⟩
      · exact absurd (by rw [polled fw.riscv_mem]) changed
      · exact absurd (by rw [polled fw.riscv_mem,withByte,polled]) depends
    | some data =>
      have polled (riscv_mem : U64 → Byte) : polling address (some data) { fw with riscv_mem := riscv_mem } =
          (some (true,some ({ fw with riscv_mem := riscv_mem }.memory_dump data address pnd.n_bytes).2),
            { fw with riscv_mem := riscv_mem, memory_pending := table }) := by rw [polling,found,Option.map_some]
      rcases touched with changed | ⟨b,depends⟩
      · exact absurd (by rw [polled fw.riscv_mem]) changed
      · have same := memory_dump_outside apart b data
        rw [withByte] at same
        exact absurd (by rw [polled fw.riscv_mem,withByte,polled,same]) depends
  · simp only [if_neg read] at found
    have polled (riscv_mem : U64 → Byte) : polling address value { fw with riscv_mem := riscv_mem } =
        (some (true,value),{ fw with riscv_mem := riscv_mem, memory_pending := table }) := by rw [polling,found]
    rcases touched with changed | ⟨b,depends⟩
    · exact absurd (by rw [polled fw.riscv_mem]) changed
    · exact absurd (by rw [polled fw.riscv_mem,withByte,polled]) depends

end
end Framework

/-! ### A run with its calls recorded -/

/-- A call of a memory routine. -/
inductive MemoryCall where
  | read (address size_in_bytes : U64)
  | write (address size_in_bytes : U64)
  | status (address : U64)
  deriving DecidableEq

/-- All bytes that the call touches, made in the state given, lie in the array. -/
def MemoryCall.InRange (fw : Framework) : MemoryCall → Prop
  | .read address size => Framework.InRange (Framework.reading address size) fw
  | .write address size => Framework.InRange (Framework.writing address size) fw
  | .status address => Framework.InRange (Framework.polling address) fw

/-- The framework, with every call so far and the state that it found. -/
structure Recorded where
  framework : Framework
  calls : List (MemoryCall × Framework)

namespace Recorded

def port : MemoryPort Recorded where
  memory_read s address value size_in_bytes :=
    let (done,data,framework) := s.framework.memory_read address value size_in_bytes
    (done,data,⟨framework,s.calls ++ [(.read address size_in_bytes,s.framework)]⟩)
  memory_write s address value size_in_bytes :=
    let (done,framework) := s.framework.memory_write address value size_in_bytes
    (done,⟨framework,s.calls ++ [(.write address size_in_bytes,s.framework)]⟩)
  memory_status s address value :=
    (s.framework.memory_status address value).map fun (done,data,framework) =>
      (done,data,⟨framework,s.calls ++ [(.status address,s.framework)]⟩)
  status_bytes s := s.framework.status_bytes

def backing : Backing Recorded where
  tlb_port := port
  cache_port := port
  ptbr s := s.framework.ptbr
  memory_dump s := s.framework.memory_dump
  enter s stage := { s with framework := s.framework.enter stage }
  end_cycle s := { s with framework := s.framework.end_cycle }

/-- What the framework is to the one that records: the same, with all calls in range. -/
structure Records (fw : Framework) (s : Recorded) : Prop where
  same : s.framework = fw
  bounded : fw.Bounded
  inRange : ∀ call ∈ s.calls, call.1.InRange call.2

theorem inRange_added {s : Recorded} {fw : Framework} (records : Records fw s) (call : MemoryCall)
    (fits : call.InRange fw) :
    ∀ c ∈ s.calls ++ [(call,fw)], c.1.InRange c.2 := by
  intro c inside
  rcases List.mem_append.mp inside with before | last
  · exact records.inRange c before
  · cases List.mem_singleton.mp last
    exact fits

theorem port_records : Framework.port.Alongside Records port where
  memory_read {fw s} records address narrow value size sizes := by
    obtain rfl := records.same
    have few : size.toNat ≤ 16 := by rcases sizes with rfl | rfl | rfl <;> decide
    exact ⟨rfl,rfl,rfl,Framework.bounded_read records.bounded address value few,
      inRange_added records (.read address size) (Framework.reading_inRange records.bounded narrow size)⟩
  memory_write {fw s} records address narrow value := by
    obtain rfl := records.same
    exact ⟨rfl,rfl,Framework.bounded_write records.bounded address value (by decide),
      inRange_added records (.write address 8) (Framework.writing_inRange records.bounded narrow 8)⟩
  memory_status {fw s} records address narrow value := by
    obtain rfl := records.same
    simp only [Framework.port,port]
    cases answered : s.framework.memory_status address value with
    | none => exact .none
    | some r => exact .some ⟨rfl,rfl,rfl,Framework.bounded_status records.bounded answered,
        inRange_added records (.status address) (Framework.polling_inRange records.bounded narrow)⟩
  status_bytes records address := by rw [← records.same]; rfl

theorem backing_records : Framework.backing.Alongside (fun _ => Records) backing where
  tlb_port _ := port_records
  cache_port _ := port_records
  ptbr records := by rw [← records.same]; rfl
  memory_dump records := by rw [← records.same]; rfl
  enter records stage := ⟨by rw [← records.same]; rfl,⟨records.bounded.size,records.bounded.slots⟩,records.inRange⟩
  end_cycle records := ⟨by rw [← records.same]; rfl,Framework.bounded_end_cycle records.bounded,records.inRange⟩

end Recorded

/-- The simulator with its calls recorded. -/
def recorded : MemorySystem (MemoryState Recorded) CalleeLocals := simulatorOver Recorded.backing

/-- The pipeline with the calls recorded so far. -/
def Pipeline.recording (p : Pipeline (MemoryState Framework)) (calls : List (MemoryCall × Framework)) :
    Pipeline (MemoryState Recorded) :=
  p.over { p.mem with framework := ⟨p.mem.framework,calls⟩ }

/-- With every call recorded a run is the same, and all calls are in range. -/
theorem run_recorded {c c' : Pipeline (MemoryState Framework) × List Events} {inputs : List CalleeLocals}
    (kept : c.1.mem.Kept Framework.Bounded) (ran : run (cycle simulator) c inputs = .ok c') :
    ∃ calls, run (cycle recorded) (c.1.recording [],c.2) inputs = .ok (c'.1.recording calls,c'.2) ∧ ∀ call ∈ calls,
    call.1.InRange call.2 := by
  have records : Recorded.Records c.1.mem.framework ⟨c.1.mem.framework,[]⟩ :=
    ⟨rfl,kept.framework,fun _ inside => absurd inside List.not_mem_nil⟩
  have side : Side (fun _ => MemoryState.Side Recorded.Records) c (c.1.recording [],c.2) :=
    ⟨_,rfl,⟨rfl,rfl,rfl,rfl,kept.instructions,kept.data,records⟩⟩
  have both := run_alongside (simulatorOver_alongside Recorded.backing_records) side inputs
  rw [show run (cycle (simulatorOver Framework.backing)) c inputs = .ok c' from ran] at both
  generalize ended : run (cycle (simulatorOver Recorded.backing)) _ inputs = r at both
  cases both with
  | ok related =>
    obtain ⟨⟨itlb,dtlb,instruction_cache,data_cache,⟨framework,calls⟩⟩,rfl,side⟩ := related
    obtain ⟨rfl,rfl,rfl,rfl,-,-,rfl,-,inRange⟩ := side
    exact ⟨calls,ended,inRange⟩

theorem Framework.port_bounded : Framework.port.Keeps Framework.Bounded where
  memory_read bounded address narrow value size sizes := by
    have few : size.toNat ≤ 16 := by rcases sizes with rfl | rfl | rfl <;> decide
    exact bounded_read bounded address value few
  memory_write bounded address narrow value := bounded_write bounded address value (by decide)
  memory_status bounded address narrow value r answered := bounded_status bounded answered

theorem Framework.backing_bounded : Framework.backing.Keeps (fun _ => Framework.Bounded) where
  tlb_port _ := port_bounded
  cache_port _ := port_bounded
  enter bounded _ := ⟨bounded.size,bounded.slots⟩
  end_cycle bounded := bounded_end_cycle bounded

end RiscvSim
