import RiscvSim.Cache

/-!
The translation buffers (`TLB.c`). An entry translates a group of four pages, numbered by
the bits of the address from 14 on; a missing entry is walked in steps, each at most one
memory access, and the caller passes the returned status to the next step.
-/
namespace RiscvSim
open Bytes

/-- `struct tlb_entry`, with the widths of its bit-fields. -/
structure TlbEntry where
  valid : Bool
  physical_page : BitVec 18
  virtual_page : BitVec 15
  deriving DecidableEq, Repr

structure Tlb where
  /-- The array of eight entries. -/
  entries : BitVec 3 → TlbEntry
  cached_second_index : U32

/-- A `struct tlb` of static storage, all zero. -/
def Tlb.zero : Tlb := ⟨fun _ => ⟨false,0,0⟩,0⟩

/-- The values that the locals of `update_tlb_entry` and `get_address` happen to have
    before anything is stored to them. -/
structure TlbLocals where
  second_level_index : U32
  physical_page : U32
  ret_physical_page : U32

variable {σ : Type}

/-- A read of four bytes into a local through `memory_status` if it is a poll, else
    through `memory_read`. A poll that finds a request for more, such as one of fetch, is copied past the local. -/
def MemoryPort.read_word (port : MemoryPort σ) (mem : σ) (address : U32) (local_value : U32) :
    Bool → Except Abort (Bool × U32 × σ)
  | true =>
    if port.status_bytes mem (address.setWidth 64) > 4 then throw .local_overrun
    else match port.memory_status mem (address.setWidth 64) (some (byteAt local_value)) with
    | none => throw .null_pointer
    | some (done,data,mem) => return (done,value 32 (data.getD (byteAt local_value)) 4,mem)
  | false =>
    let (done,data,mem) := port.memory_read mem (address.setWidth 64) (byteAt local_value) 4
    return (done,value 32 data 4,mem)

namespace Tlb

/-- The address of the first-level entry, `get_ptbr ()` added in 64 bits. -/
def first_level_index (ptbr : U64) (virtual_page : U32) : U32 :=
  ((virtual_page >>> 2 >>> 8 <<< 2).setWidth 64 + ptbr).setWidth 32
/-- The address of the second-level entry in the table that a first-level entry names. -/
def second_level_index (cached_second_index virtual_page : U32) : U32 :=
  (cached_second_index <<< 1 >>> 1 <<< 12) + ((virtual_page &&& 0xFF) <<< 2)

/-- The status and `*ret_physical_page`. A status of 0 waits for the first-level entry, 2
    has it, 1 waits for the second-level entry, 0x80 found an invalid one and 0xFF is the end. -/
def update_tlb_entry (port : MemoryPort σ) (ptbr : U64) (cache : Tlb) (mem : σ) (tlb_index virtual_page : U32)
    (status : U8) (locals : TlbLocals) : Except Abort (U8 × U32 × Tlb × σ) := do
  let virtual_superpage := virtual_page >>> 2
  if status = 0 ∨ status = 0xFF then
    let (memory_direct_status,second_level_index,mem) ←
      port.read_word mem (first_level_index ptbr virtual_page) locals.second_level_index (status == 0)
    if memory_direct_status then
      -- only one read per stage
      return (2,locals.ret_physical_page,{ cache with cached_second_index := second_level_index },mem)
    else return (0,locals.ret_physical_page,cache,mem)
  else if cache.cached_second_index >>> 31 ≠ 1 then return (0x80,locals.ret_physical_page,cache,mem)
  else
    let (done,physical_page,mem) ←
      port.read_word mem (second_level_index cache.cached_second_index virtual_page) locals.physical_page (status == 1)
    if done = false then return (1,locals.ret_physical_page,cache,mem)
    else if physical_page >>> 31 = 0 then return (0x80,locals.ret_physical_page,cache,mem)
    else if virtual_superpage >>> 3 ≠ tlb_index then throw .superpage_tlb_index_mismatch
    else
      let entry : TlbEntry := ⟨true,(physical_page <<< 1 >>> 3).setWidth 18,(virtual_superpage >>> 3).setWidth 15⟩
      return (0xFF,entry.physical_page.setWidth 32,
        { cache with entries := fun i => if i = tlb_index.setWidth 3 then entry else cache.entries i },mem)

/-- The subscript of the entry of an address. -/
def index (virtual_address : U32) : U32 := (virtual_address >>> 14) &&& 7
/-- The physical address from the stored page and the low 14 bits. -/
def physical (physical_page virtual_address : U32) : U32 :=
  (physical_page <<< 14) ||| (virtual_address <<< 18 >>> 18)

/-- Returns 0xFE for a hit, 0xFF for a finished walk, else the status to go on with. -/
def get_address (port : MemoryPort σ) (ptbr : U64) (cache : Tlb) (mem : σ) (virtual_address output : U32)
    (status : U8) (locals : TlbLocals) : Except Abort (U8 × U32 × Tlb × σ) := do
  let entry := cache.entries ((index virtual_address).setWidth 3)
  if status = 0xFF ∧ virtual_address >>> 17 = entry.virtual_page.setWidth 32 ∧ entry.valid = true then
    return (0xFE,physical (entry.physical_page.setWidth 32) virtual_address,cache,mem)
  else
    let (new_status,ret_physical_page,cache,mem) ←
      cache.update_tlb_entry port ptbr mem (index virtual_address) (virtual_address >>> 12) status locals
    if new_status ≠ 0xFF then return (new_status,output,cache,mem)
    else return (0xFF,physical ret_physical_page virtual_address,cache,mem)

/-- The entry that the address selects translates it. -/
def Hit (cache : Tlb) (virtual_address : U32) : Prop :=
  virtual_address >>> 17 = (cache.entries ((index virtual_address).setWidth 3)).virtual_page.setWidth 32 ∧
    (cache.entries ((index virtual_address).setWidth 3)).valid = true
instance (cache : Tlb) (virtual_address : U32) : Decidable (cache.Hit virtual_address) := instDecidableAnd
/-- The physical address that a hit gives. -/
def translation (cache : Tlb) (virtual_address : U32) : U32 :=
  physical ((cache.entries ((index virtual_address).setWidth 3)).physical_page.setWidth 32) virtual_address

end Tlb
end RiscvSim
