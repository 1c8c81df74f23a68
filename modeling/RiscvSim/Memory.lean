import RiscvSim.Bytes

/-!
The memory of the simulator framework (`riscv_sim_framework.c`): the byte array, the
table of outstanding requests and the rule of one access per stage and cycle. Latency
is counted in cycles of `cycle_counter`; a request with latency zero is answered at
once and never enters the table.
-/
namespace RiscvSim
open Bytes

abbrev U8 := BitVec 8
abbrev U16 := BitVec 16
abbrev U32 := BitVec 32
abbrev U64 := BitVec 64

/-- What ends a run other than the end of the program: the three `exit (1)` calls,
    and the undefined accesses and traps of the C code. -/
inductive Abort where
  | misaligned_cache_access
  | illegal_cache_access_size
  | superpage_tlb_index_mismatch
  | rows_subscript
  | data_subscript
  | local_overrun
  | null_pointer
  | division_trap
  deriving DecidableEq, Repr

/-- The five values of `current_stage`. -/
inductive Stage where
  | F | D | X | M | W
  deriving DecidableEq, Repr

/-- `MEMORY_OP_NONE`, `MEMORY_OP_READ`, `MEMORY_OP_WRITE`, `MEMORY_OP_COMPLETED`. -/
inductive MemoryOp where
  | NONE | READ | WRITE | COMPLETED
  deriving DecidableEq, Repr

structure memory_pending_t where
  address : U64
  n_bytes : U64
  end_cycle : U64
  op : MemoryOp
  deriving DecidableEq, Repr

def MEMORY_MAX_SIZE : U64 := 32 * 1024 * 1024
def MEMORY_PAGE_SIZE : U64 := 4096
def MEMORY_MAX_PENDING : Nat := 4
def MEMORY_MAX_READ_BYTES : U64 := 16

/-- The table `memory_pending`, always of `MEMORY_MAX_PENDING` slots. -/
structure PendingTable where
  slots : List memory_pending_t
  size_eq : slots.length = MEMORY_MAX_PENDING

/-- The zeroed table of `memory_initialize_pending`. -/
def memory_initialize_pending : PendingTable :=
  ⟨List.replicate MEMORY_MAX_PENDING ⟨0,0,0,.NONE⟩,rfl⟩

/-- The static variables of the framework that its memory routines use. -/
structure Framework where
  /-- Relative to the start of the array; only offsets below `riscv_mem_size` lie in it. -/
  riscv_mem : U64 → Byte
  riscv_mem_size : U64
  ptbr : U64
  memory_read_latency : U64
  memory_write_latency : U64
  cycle_counter : U64
  read_counter : U64
  read_bytes : U64
  write_counter : U64
  write_bytes : U64
  memory_pending : PendingTable
  current_stage : Stage
  /-- The stages whose bit is set. -/
  memory_accesses_issued : List Stage

namespace Framework

/-- The state that `main` starts from, `memory_initialize` and `initialize_state` done,
    with the given memory contents, page table base and latencies. -/
def initial (riscv_mem : U64 → Byte) (ptbr read_latency write_latency : U64) : Framework where
  riscv_mem := riscv_mem
  riscv_mem_size := 8 * 1024 * 1024
  ptbr := ptbr
  memory_read_latency := read_latency
  memory_write_latency := write_latency
  cycle_counter := 0
  read_counter := 0
  read_bytes := 0
  write_counter := 0
  write_bytes := 0
  memory_pending := memory_initialize_pending
  current_stage := .W
  memory_accesses_issued := []

theorem initial_size_le : (8 * 1024 * 1024 : U64) ≤ MEMORY_MAX_SIZE := by decide

def memory_load (s : Framework) (region : Buffer) (base size : U64) : Bool × Framework :=
  if base + size > s.riscv_mem_size then (false,s)
  else (true,{ s with riscv_mem := fun o =>
    if (o - base).toNat < size.toNat then region (o - base).toNat else s.riscv_mem o })

def memory_dump (s : Framework) (region : Buffer) (base size : U64) : Bool × Buffer :=
  if base + size > s.riscv_mem_size then (false,region)
  else (true,copy region 0 (fun i => s.riscv_mem (base + BitVec.ofNat 64 i)) size.toNat)

theorem memory_load_passed {s : Framework} {base size : U64} (passes : base + size ≤ s.riscv_mem_size)
    (region : Buffer) :
    s.memory_load region base size = (true,{ s with
      riscv_mem := fun o => if (o - base).toNat < size.toNat then region (o - base).toNat else s.riscv_mem o }) :=
  if_neg (BitVec.not_lt.mpr passes)
theorem memory_load_refused {s : Framework} {base size : U64} (refused : ¬ base + size ≤ s.riscv_mem_size)
    (region : Buffer) :
    s.memory_load region base size = (false,s) := if_pos (BitVec.not_le.mp refused)
theorem memory_dump_passed {s : Framework} {base size : U64} (passes : base + size ≤ s.riscv_mem_size)
    (region : Buffer) :
    s.memory_dump region base size =
      (true,copy region 0 (fun i => s.riscv_mem (base + BitVec.ofNat 64 i)) size.toNat) :=
  if_neg (BitVec.not_lt.mpr passes)
theorem memory_dump_refused {s : Framework} {base size : U64} (refused : ¬ base + size ≤ s.riscv_mem_size)
    (region : Buffer) :
    s.memory_dump region base size = (false,region) := if_pos (BitVec.not_le.mp refused)

/-- The loop of `memory_add_pending`: the first free slot takes the request. -/
def add_pending (request : memory_pending_t) : List memory_pending_t → Option (List memory_pending_t)
  | [] => none
  | pnd :: rest =>
    if pnd.op = .NONE then some (request :: rest) else (add_pending request rest).map (pnd :: ·)

theorem add_pending_length {request : memory_pending_t} {slots after : List memory_pending_t}
    (added : add_pending request slots = some after) : after.length = slots.length := by
  induction slots generalizing after with
  | nil => cases added
  | cons pnd rest ih =>
    rw [add_pending] at added
    split at added
    · cases added; rfl
    · obtain ⟨tail,found,rfl⟩ := Option.map_eq_some_iff.mp added
      simp [ih found]

def memory_add_pending (s : Framework) (address size_in_bytes : U64) (op : MemoryOp) : Bool × Framework :=
  let latency := if op = .WRITE then s.memory_write_latency else s.memory_read_latency
  let request : memory_pending_t := ⟨address,size_in_bytes,s.cycle_counter + latency,op⟩
  match added : add_pending request s.memory_pending.slots with
  | none => (false,s)
  | some after => (true,{ s with
      memory_pending := ⟨after,(add_pending_length added).trans s.memory_pending.size_eq⟩ })

/-- `__builtin_popcountll`. -/
def popcountll (n : U64) : Nat := ((List.range 64).filter n.getLsbD).length

/-- The value is the buffer behind the pointer, before and after. -/
def memory_read (s : Framework) (address : U64) (value : Buffer) (size_in_bytes : U64) :
    Bool × Buffer × Framework :=
  if size_in_bytes > MEMORY_MAX_READ_BYTES ∨ popcountll size_in_bytes ≠ 1 ∨
      address + size_in_bytes > s.riscv_mem_size ∨ address % size_in_bytes ≠ 0 then
    (true,fill value 0 1,s)
  else if (s.current_stage ≠ .F ∧ s.current_stage ≠ .M) ∨ s.current_stage ∈ s.memory_accesses_issued then
    (true,fill value 0 size_in_bytes.toNat,s)
  else
    let s := { s with
      read_counter := s.read_counter + 1
      read_bytes := s.read_bytes + size_in_bytes
      memory_accesses_issued := s.current_stage :: s.memory_accesses_issued }
    if s.memory_read_latency = 0 then
      (true,(s.memory_dump value address size_in_bytes).2,s)
    else
      -- the result of `memory_add_pending` is ignored: a full table drops the request
      (false,fill value 0 size_in_bytes.toNat,(s.memory_add_pending address size_in_bytes .READ).2)

def memory_write (s : Framework) (address value size_in_bytes : U64) : Bool × Framework :=
  if size_in_bytes > 8 ∨ popcountll size_in_bytes ≠ 1 ∨
      address + size_in_bytes > s.riscv_mem_size ∨ address % size_in_bytes ≠ 0 then
    (true,s)
  else if s.current_stage ≠ .M ∨ s.current_stage ∈ s.memory_accesses_issued then
    (true,s)
  else
    let s := { s with memory_accesses_issued := s.current_stage :: s.memory_accesses_issued }
    -- the value is written at once, even if there is latency
    let s := (s.memory_load (byteAt value) address size_in_bytes).2
    let s := { s with
      write_counter := s.write_counter + 1
      write_bytes := s.write_bytes + size_in_bytes }
    if s.memory_write_latency = 0 then (true,s)
    else (false,(s.memory_add_pending address size_in_bytes .WRITE).2)

/-- The loop of `memory_status`: the first slot with the address decides, whatever its
    `op`. A finished slot is returned as it was, and is marked completed. -/
def status_pending (address cycle : U64) : List memory_pending_t → Option (memory_pending_t × List memory_pending_t)
  | [] => none
  | pnd :: rest =>
    if pnd.address = address then
      if pnd.end_cycle ≤ cycle then some (pnd,{ pnd with op := .COMPLETED } :: rest) else none
    else (status_pending address cycle rest).map (fun r => (r.1,pnd :: r.2))

theorem status_pending_length {address cycle : U64} {slots after : List memory_pending_t} {pnd : memory_pending_t}
    (found : status_pending address cycle slots = some (pnd,after)) : after.length = slots.length := by
  induction slots generalizing after with
  | nil => cases found
  | cons first rest ih =>
    rw [status_pending] at found
    split at found
    · split at found
      · cases found; rfl
      · cases found
    · obtain ⟨⟨p,tail⟩,inner,same⟩ := Option.map_eq_some_iff.mp found
      cases same
      simp [ih inner]

/-- The pointer is `none` if it is `NULL`; the result is `none` if that is written through. -/
def memory_status (s : Framework) (address : U64) (value : Option Buffer) :
    Option (Bool × Option Buffer × Framework) :=
  match found : status_pending address s.cycle_counter s.memory_pending.slots with
  | none => some (false,value,s)
  | some (pnd,after) =>
    let s' : Framework := { s with
      memory_pending := ⟨after,(status_pending_length found).trans s.memory_pending.size_eq⟩ }
    if pnd.op = .READ then
      match value with
      | none => none
      | some v => some (true,some (s.memory_dump v address pnd.n_bytes).2,s')
    else some (true,value,s')

/-- The number of bytes that `memory_status` copies to where the pointer points: those of the request that it finds,
    which need not be the caller's. -/
def status_bytes (s : Framework) (address : U64) : U64 :=
  match status_pending address s.cycle_counter s.memory_pending.slots with
  | none => 0
  | some (pnd,_) => if pnd.op = .READ ∧ ¬ address + pnd.n_bytes > s.riscv_mem_size then pnd.n_bytes else 0

/-- Completed slots are freed, and every stage may access memory again. -/
def memory_retire_completed (s : Framework) : Framework :=
  { s with
    memory_pending := ⟨s.memory_pending.slots.map (fun pnd => if pnd.op = .COMPLETED then { pnd with op := .NONE }
      else pnd),(List.length_map _).trans s.memory_pending.size_eq⟩
    memory_accesses_issued := [] }

/-- The end of a cycle in `simulator_execute_instructions`. -/
def end_cycle (s : Framework) : Framework :=
  { s with cycle_counter := s.cycle_counter + 1 }.memory_retire_completed
/-- The assignment to `current_stage` before a stage is called. -/
def enter (s : Framework) (stage : Stage) : Framework := { s with current_stage := stage }

end Framework

/-- Memory given by its 32-bit words. -/
def memOfWords (word : Nat → U32) (o : U64) : Byte := byteAt (word (o.toNat / 4)) (o.toNat % 4)

end RiscvSim
