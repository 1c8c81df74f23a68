import RiscvSim.Memory

/-!
The caches (`cache.c`), with `TWOWAY` and `WRITEBACK` defined. The instruction cache is
direct mapped; the data cache keeps its second way in the rows from `num_blocks` on. The
routines reach memory only through `memory_read`, `memory_write` and `memory_status`,
which are a parameter here (`MemoryPort`): the framework's are one instance, and results
about any memory behaviour quantify over the port.
-/
namespace RiscvSim
open Bytes

/-- The three memory routines a cache calls, over any memory state, and how many bytes the
    third copies. -/
structure MemoryPort (σ : Type) where
  memory_read : σ → U64 → Buffer → U64 → Bool × Buffer × σ
  memory_write : σ → U64 → U64 → U64 → Bool × σ
  memory_status : σ → U64 → Option Buffer → Option (Bool × Option Buffer × σ)
  status_bytes : σ → U64 → U64

/-- The port of the framework's own routines. -/
def Framework.port : MemoryPort Framework where
  memory_read := memory_read
  memory_write := memory_write
  memory_status := memory_status
  status_bytes := status_bytes

/-- `CACHE_INSTRUCTION` and `CACHE_DATA`. -/
inductive CacheType where
  | INSTRUCTION | DATA
  deriving DecidableEq, Repr

/-- `union cache_row`: `struct cache_row_i` and `struct cache_row_d` in one, the first
    without a `dirty` bit. `tag` is the value of the bit-field. -/
structure CacheRow where
  tag : U64
  data : Buffer
  dirty : Bool
  valid : Bool

/-- A row of the zeroed allocation. -/
def CacheRow.zero : CacheRow := ⟨0,fun _ => 0,false,false⟩

/-- The width of the bit-field `tag`. -/
def CacheType.tag_bits : CacheType → Nat
  | .INSTRUCTION => 51
  | .DATA => 50

/-- The element `data[k]` of the row's array of 32-bit words. -/
def CacheRow.word (row : CacheRow) (k : Nat) : U32 := value 32 (fun i => row.data (4*k+i)) 4
/-- All eight bytes of a data row, as `*(uint64_t*)` reads them. -/
def CacheRow.dword (row : CacheRow) : U64 := value 64 row.data 8

/-- The number of bytes of a row's data. -/
def CacheType.row_bytes : CacheType → U64
  | .INSTRUCTION => 16
  | .DATA => 8

/-- The `n` bytes from `first` on are not all in the array `data` of a row: a subscript past it is undefined, and
    what is behind it are `dirty` and `valid`. -/
def CacheType.Overrun (type : CacheType) (first n : Nat) : Prop := type.row_bytes.toNat < first + n
instance (type : CacheType) (first n : Nat) : Decidable (type.Overrun first n) := Nat.decLt _ _

/-- The number of bytes in the words of a row that an access of the given size reads. -/
def CacheRow.hit_bytes (size : U64) : Nat := if size = 8 then 8 else 4
/-- Those words. -/
def CacheRow.hit (row : CacheRow) (subindex : Nat) (size : U64) : U64 :=
  let low := (row.word subindex).setWidth 64
  if size = 8 then low ||| ((row.word (subindex+1)).setWidth 64 <<< 32) else low

/-- `memcpy ((uint8_t*) row.data + subindex, &data, size)`. -/
def CacheRow.store (row : CacheRow) (subindex data : U64) (size : U8) : CacheRow :=
  { row with data := copy row.data subindex.toNat (byteAt data) size.toNat }

structure CacheTable where
  num_blocks : U64
  index_length : Nat
  cache_type : CacheType
  block_size : Nat
  rows : U64 → CacheRow

def construct_cache (num_blocks : U64) (cache_type : CacheType) : CacheTable where
  num_blocks := num_blocks
  index_length := Nat.log2 num_blocks.toNat
  cache_type := cache_type
  block_size := match cache_type with | .INSTRUCTION => 4 | .DATA => 3
  rows := fun _ => .zero

namespace CacheTable

/-- The number of rows that `construct_cache` allocates. -/
def num_rows (cache : CacheTable) : Nat :=
  cache.num_blocks.toNat * match cache.cache_type with | .INSTRUCTION => 1 | .DATA => 2

/-- The expression `cache->rows[index]`, undefined past the allocation. -/
def row (cache : CacheTable) (index : U64) : Except Abort CacheRow :=
  if index.toNat < cache.num_rows then .ok (cache.rows index) else .error .rows_subscript

def setRow (cache : CacheTable) (index : U64) (r : CacheRow) : CacheTable :=
  { cache with rows := fun i => if i = index then r else cache.rows i }

/-- A value in the width of the bit-field `tag`: what an assignment to it keeps, and what a
    shift of it yields. -/
def fieldTag (cache : CacheTable) (tag : U64) : U64 := (tag.setWidth cache.cache_type.tag_bits).setWidth 64

def indexOf (cache : CacheTable) (address : U64) : U64 :=
  (address <<< ((64 - cache.block_size) - cache.index_length)) >>> (64 - cache.index_length)
def tagOf (cache : CacheTable) (address : U64) : U64 := address >>> (cache.block_size + cache.index_length)
def subindexOf (cache : CacheTable) (address : U64) : U64 :=
  (address <<< (64 - cache.block_size)) >>> (64 - cache.block_size)

/-- `old_address`, rebuilt from the stored tag and the subscript of the row. The tag is shifted as
    the bit-field it is: its upper bits are lost at `tag_bits`, not at 64. -/
def oldAddress (cache : CacheTable) (index : U64) : U64 :=
  cache.fieldTag ((cache.rows index).tag <<< (cache.index_length + cache.block_size)) ||| (index <<< cache.block_size)

/-- The condition that moves the victim to the second way. The second row is read only
    when the first is valid. -/
def second_way (cache : CacheTable) (index : U64) : Except Abort Bool := do
  let first ← cache.row index
  if !first.valid then return false
  let second ← cache.row (index + cache.num_blocks)
  return !second.valid || (first.dirty && !second.dirty)

/-- The row to be evicted (no choice if direct mapped). -/
def victim (cache : CacheTable) (index : U64) : Except Abort U64 := do
  match cache.cache_type with
  | .INSTRUCTION => return index
  | .DATA =>
    let second ← cache.second_way index
    return if second then index + cache.num_blocks else index

variable {σ : Type} (port : MemoryPort σ)

/-- The block of the row is written to its address, or the write polled. -/
def put_block (cache : CacheTable) (mem : σ) (index : U64) (row : CacheRow) : Bool → Except Abort (Bool × σ)
  | true =>
    match port.memory_status mem (cache.oldAddress index) none with
    | none => throw .null_pointer
    | some (done,_,mem) => return (done,mem)
  | false => return port.memory_write mem (cache.oldAddress index) row.dword 8

/-- Eviction for writeback of a dirty row, which is clean once this is done. -/
def write_back (cache : CacheTable) (mem : σ) (index : U64) (is_followup : Bool) :
    Except Abort (Bool × CacheTable × σ) := do
  let row ← cache.row index
  let (done,mem) ← cache.put_block port mem index row is_followup
  return (done,if done then cache.setRow index { row with dirty := false } else cache,mem)

/-- `write_back` where the row needs it. -/
def clean_row (cache : CacheTable) (mem : σ) (index : U64) (is_followup : Bool) :
    Except Abort (Bool × CacheTable × σ) := do
  let row ← cache.row index
  if cache.cache_type = .DATA ∧ row.dirty then cache.write_back port mem index is_followup
  else return (true,cache,mem)

/-- The bytes at the address are read into the row's data, or the read polled. A poll may find a fetch of 16 bytes:
    what runs past the 8 of a data row is `dirty` and `valid`, which the row gets anew, and bytes that such a row
    has no use for. -/
def get_block (cache : CacheTable) (mem : σ) (address : U64) (row : CacheRow) : Bool → Except Abort (Bool × Buffer × σ)
  | true =>
    match port.memory_status mem address (some row.data) with
    | none => throw .null_pointer
    | some (done,data,mem) => return (done,data.getD row.data,mem)
  | false => return port.memory_read mem address row.data cache.cache_type.row_bytes

/-- Input of the new values. The row's bytes change even if the read is not done. -/
def fill_row (cache : CacheTable) (mem : σ) (address index : U64) (is_followup : Bool) :
    Except Abort (Bool × CacheTable × σ) := do
  let row ← cache.row index
  let (done,data,mem) ← cache.get_block port mem address row is_followup
  return (done,cache.setRow index { row with data := data },mem)

/-- Returns the subscript of the row, or `none` for `NULL` (stall). -/
def evict_read (cache : CacheTable) (mem : σ) (address index tag : U64) (is_followup : Bool) :
    Except Abort (Option U64 × CacheTable × σ) := do
  let index ← cache.victim index
  let (written,cache,mem) ← cache.clean_row port mem index is_followup
  if is_followup ∧ written = false then return (none,cache,mem)
  let (done,cache,mem) ← cache.fill_row port mem address index is_followup
  -- `needs_stall`: an unfinished write-back makes the access wait whatever the read says
  if done = false ∨ written = false then return (none,cache,mem)
  let row ← cache.row index
  return (some index,cache.setRow index { row with tag := cache.fieldTag tag, valid := true, dirty := false },mem)

/-- The row that holds the block of an access, if there is one. -/
def lookup (cache : CacheTable) (index tag : U64) (subindex : Nat) (size : U64) : Except Abort (Option CacheRow) := do
  let first ← cache.row index
  match cache.cache_type with
  | .INSTRUCTION =>
    return if first.valid ∧ first.tag = tag ∧ (size ≠ 8 ∨ subindex ≠ 3) then some first else none
  | .DATA =>
    if first.valid ∧ first.tag = tag then return some first
    let second ← cache.row (index + cache.num_blocks)
    return if second.valid ∧ second.tag = tag then some second else none

/-- The row that an access reads, brought in if need be, or the code of a stall: 1 for
    memory, 2 if the TLB took the memory access of this cycle. -/
def read_row (cache : CacheTable) (mem : σ) (address index tag : U64) (subindex : Nat) (size : U64)
    (is_followup memory_read_available : Bool) : Except Abort ((U8 ⊕ CacheRow) × CacheTable × σ) := do
  match ← cache.lookup index tag subindex size with
  | some row => return (.inr row,cache,mem)
  | none =>
    if memory_read_available = false then return (.inl 2,cache,mem)
    let (found,cache,mem) ← cache.evict_read port mem address index tag is_followup
    match found with
    | none => return (.inl 1,cache,mem)
    | some i =>
      let row ← cache.row i
      return (.inr row,cache,mem)

/-- `value` is the object behind the pointer; only its low `size` bytes are stored. -/
def read_access (cache : CacheTable) (mem : σ) (address size value : U64)
    (is_followup memory_read_available : Bool) : Except Abort (U8 × U64 × CacheTable × σ) := do
  if cache.subindexOf address &&& 3 ≠ 0 then throw .misaligned_cache_access
  else
    let subindex := (cache.subindexOf address >>> 2).toNat
    let (found,cache,mem) ← cache.read_row port mem address (cache.indexOf address) (cache.tagOf address)
      subindex size is_followup memory_read_available
    match found with
    | .inl code => return (code,value,cache,mem)
    | .inr row =>
      if cache.cache_type.Overrun (4 * subindex) (CacheRow.hit_bytes size) then throw .data_subscript
      else if size = 1 ∨ size = 2 ∨ size = 4 ∨ size = 8 then
        return (0,storeLow size.toNat value (row.hit subindex size),cache,mem)
      else throw .illegal_cache_access_size

/-- The row that a missing write goes to, or the code of a stall. A write of a whole block
    needs no read of it. -/
def write_row (cache : CacheTable) (mem : σ) (address index tag : U64) (size : U8)
    (is_followup memory_read_available : Bool) : Except Abort ((U8 ⊕ U64) × CacheTable × σ) := do
  if size ≠ 8 then
    if memory_read_available = false then return (.inl 2,cache,mem)
    let (found,cache,mem) ← cache.evict_read port mem address index tag is_followup
    match found with
    | none => return (.inl 1,cache,mem)
    | some i => return (.inr i,cache,mem)
  else
    let row ← cache.row index
    if row.dirty = true ∧ memory_read_available = false then return (.inl 2,cache,mem)
    let (written,cache,mem) ← cache.clean_row port mem index is_followup
    return (if written then .inr index else .inl 1,cache,mem)

def evict_write (cache : CacheTable) (mem : σ) (address index tag data subindex : U64) (size : U8)
    (is_followup memory_read_available : Bool) : Except Abort (U8 × CacheTable × σ) := do
  if cache.cache_type ≠ .DATA then return (2,cache,mem)
  else
    let index ← cache.victim index
    let (found,cache,mem) ← cache.write_row port mem address index tag size is_followup memory_read_available
    match found with
    | .inl code => return (code,cache,mem)
    | .inr index =>
      let row ← cache.row index
      -- what runs past the data is `dirty` and `valid`, which are set then
      return (0,cache.setRow index
        { row.store subindex data size with tag := cache.fieldTag tag, valid := true, dirty := true },mem)

/-- A hit of `write_access`. -/
def store_hit (cache : CacheTable) (mem : σ) (index : U64) (row : CacheRow) (subindex data : U64) (size : U8) :
    Except Abort (U8 × CacheTable × σ) :=
  if cache.cache_type.Overrun subindex.toNat size.toNat then throw .data_subscript
  else return (0,cache.setRow index (row.store subindex data size),mem)

def write_access (cache : CacheTable) (mem : σ) (address data : U64) (size : U8)
    (is_followup memory_read_available : Bool) : Except Abort (U8 × CacheTable × σ) := do
  if cache.cache_type ≠ .DATA then return (1,cache,mem)
  else
    let index := cache.indexOf address
    let tag := cache.tagOf address
    let first ← cache.row index
    if first.valid ∧ first.tag = tag then cache.store_hit mem index first (cache.subindexOf address) data size
    else
      let second ← cache.row (index + cache.num_blocks)
      -- the hit is in the second way, but the bytes go to the row of the first
      if second.valid ∧ second.tag = tag then cache.store_hit mem index first (cache.subindexOf address) data size
      else
        cache.evict_write port mem address index tag data (cache.subindexOf address) size is_followup
          memory_read_available

end CacheTable
end RiscvSim
