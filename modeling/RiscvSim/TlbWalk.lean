import RiscvSim.Slots
import RiscvSim.Tlb
import RiscvSim.Runs

/-!
Walks of the page table. Memory holds the table and does not change; any latency is
possible. The state of a walk is split between the status that the caller keeps and
`cached_second_index`; `Progress` says what the two mean for the address walked, and one
call of `get_address` keeps it as long as the address stays in the part of the table
that the status is about.
-/
namespace RiscvSim
open Bytes Runs

/-! ### The table of outstanding requests -/

namespace Framework

theorem status_pending_some {a cycle : U64} {slots after : List memory_pending_t} {pnd : memory_pending_t}
    (found : status_pending a cycle slots = some (pnd,after)) :
    slots.find? (fun q => decide (q.address = a)) = some pnd ∧
      ∀ q ∈ after, q ∈ slots ∨ q = { pnd with op := .COMPLETED } := by
  obtain ⟨before,rest,rfl,others,here,-,rfl⟩ := status_pending_split found
  constructor
  · rw [List.find?_append,List.find?_eq_none.mpr (by simpa using others)]
    simp [here]
  · intro q inside
    simp only [List.mem_append,List.mem_cons] at inside ⊢
    tauto

theorem add_pending_some {request : memory_pending_t} {slots after : List memory_pending_t}
    (added : add_pending request slots = some after) :
    (∀ q ∈ after, q ∈ slots ∨ q = request) ∧
      ∃ q, after.find? (fun q => decide (q.address = request.address)) = some q ∧
        (q = request ∨ (q ∈ slots ∧ q.op ≠ .NONE)) := by
  obtain ⟨before,old,rest,rfl,busy,-,rfl⟩ := add_pending_split added
  constructor
  · intro q inside
    simp only [List.mem_append,List.mem_cons] at inside ⊢
    tauto
  · rw [List.find?_append]
    cases found : before.find? (fun q => decide (q.address = request.address)) with
    | none => exact ⟨request,by simp,.inl rfl⟩
    | some q =>
      have inside := List.mem_of_find?_eq_some found
      exact ⟨q,rfl,.inr ⟨List.mem_append_left _ inside,busy q inside⟩⟩

/-- The first slot of the address, if there is one, is an outstanding read: a poll that
    finds it done delivers the bytes. -/
def Answerable (a : U64) (slots : List memory_pending_t) : Prop :=
  ∀ q, slots.find? (fun q => decide (q.address = a)) = some q → q.op = .READ

/-- Only reads of words and more, inside memory, are outstanding. -/
def OnlyReads (size : U64) (slots : List memory_pending_t) : Prop :=
  ∀ q ∈ slots, q.op ≠ .WRITE ∧
    (q.op = .READ → 4 ≤ q.n_bytes.toNat ∧ q.n_bytes.toNat ≤ 16 ∧ q.address.toNat + q.n_bytes.toNat ≤ size.toNat)

/-- No slot waits for the end of the cycle to be freed. -/
def Retired (slots : List memory_pending_t) : Prop := ∀ q ∈ slots, q.op ≠ .COMPLETED

theorem retired_end_cycle (fw : Framework) : Retired fw.end_cycle.memory_pending.slots := by
  intro q inside
  rw [end_cycle_slots] at inside
  obtain ⟨p,_,rfl⟩ := List.mem_map.mp inside
  split
  · nofun
  · assumption

theorem onlyReads_end_cycle {size : U64} {fw : Framework} (reads : OnlyReads size fw.memory_pending.slots) :
    OnlyReads size fw.end_cycle.memory_pending.slots := by
  intro q inside
  rw [end_cycle_slots] at inside
  obtain ⟨p,old,rfl⟩ := List.mem_map.mp inside
  split
  · exact ⟨nofun,nofun⟩
  · exact reads p old

theorem answerable_end_cycle {a : U64} {fw : Framework} (answer : Answerable a fw.memory_pending.slots) :
    Answerable a fw.end_cycle.memory_pending.slots := by
  intro q found
  rw [end_cycle_slots,List.find?_map] at found
  obtain ⟨p,inner,rfl⟩ := Option.map_eq_some_iff.mp found
  have same : ∀ p : memory_pending_t,
      ((fun q : memory_pending_t => decide (q.address = a)) ∘
        fun pnd : memory_pending_t => if pnd.op = .COMPLETED then { pnd with op := .NONE } else pnd) p =
      decide (p.address = a) := by
    intro p
    simp only [Function.comp]
    split <;> rfl
  rw [funext same] at inner
  have read := answer p inner
  simp [read]

/-- A poll changes nothing but the table. -/
theorem memory_status_only {fw fw' : Framework} {a : U64} {v v' : Option Buffer} {done : Bool}
    (polled : fw.memory_status a v = some (done,v',fw')) : ∃ pending, fw' = { fw with memory_pending := pending } := by
  cases found : status_pending a fw.cycle_counter fw.memory_pending.slots with
  | none =>
    rw [memory_status_missed v found] at polled
    cases polled
    exact ⟨_,rfl⟩
  | some r =>
    rw [memory_status_found v ⟨r.2,(status_pending_length found).trans fw.memory_pending.size_eq⟩ found] at polled
    split at polled
    · obtain ⟨b,-,same⟩ := Option.map_eq_some_iff.mp polled
      cases same
      exact ⟨_,rfl⟩
    · cases polled
      exact ⟨_,rfl⟩

/-- What a poll with a destination does: nothing, or it completes the slot found. -/
theorem memory_status_poll (fw : Framework) (a : U64) (v : Buffer) :
    fw.memory_status a (some v) = some (false,some v,fw) ∨
      ∃ pnd table, status_pending a fw.cycle_counter fw.memory_pending.slots = some (pnd,table.slots) ∧
        fw.memory_status a (some v) = some (true,
          some (if pnd.op = .READ then (fw.memory_dump v a pnd.n_bytes).2 else v),{ fw with
            memory_pending := table }) := by
  cases found : status_pending a fw.cycle_counter fw.memory_pending.slots with
  | none => exact .inl (memory_status_missed _ found)
  | some r =>
    refine .inr ⟨r.1,⟨r.2,(status_pending_length found).trans fw.memory_pending.size_eq⟩,rfl,?_⟩
    rw [memory_status_found (some v) ⟨r.2,(status_pending_length found).trans fw.memory_pending.size_eq⟩ found]
    split <;> rfl

section
variable (fw : Framework) (a n : U64) (op : MemoryOp)

theorem add_pending_slots : (fw.memory_add_pending a n op).2.memory_pending.slots =
    (add_pending ⟨a,n,fw.cycle_counter + (if op = .WRITE then fw.memory_write_latency else fw.memory_read_latency),op⟩
      fw.memory_pending.slots).getD fw.memory_pending.slots := by
  unfold memory_add_pending
  simp only
  split <;> rename_i added <;> exact (congrArg (fun r => Option.getD r _) added).symm
theorem add_pending_only : ∃ pending, (fw.memory_add_pending a n op).2 = { fw with memory_pending := pending } := by
  unfold memory_add_pending
  simp only
  split <;> exact ⟨_,rfl⟩
theorem add_pending_mem : (fw.memory_add_pending a n op).2.riscv_mem = fw.riscv_mem := by
  obtain ⟨pending,same⟩ := add_pending_only fw a n op
  rw [same]
theorem add_pending_size : (fw.memory_add_pending a n op).2.riscv_mem_size = fw.riscv_mem_size := by
  obtain ⟨pending,same⟩ := add_pending_only fw a n op
  rw [same]
theorem add_pending_ptbr : (fw.memory_add_pending a n op).2.ptbr = fw.ptbr := by
  obtain ⟨pending,same⟩ := add_pending_only fw a n op
  rw [same]

end

theorem onlyReads_added {size a n cycle : U64} {slots : List memory_pending_t} (reads : OnlyReads size slots)
    (long : 4 ≤ n.toNat) (short : n.toNat ≤ 16) (range : a.toNat + n.toNat ≤ size.toNat) :
    OnlyReads size ((add_pending ⟨a,n,cycle,.READ⟩ slots).getD slots) := by
  cases added : add_pending ⟨a,n,cycle,.READ⟩ slots with
  | none => exact reads
  | some after =>
    intro q inside
    rcases (add_pending_some added).1 q inside with old | rfl
    · exact reads q old
    · exact ⟨nofun,fun _ => ⟨long,short,range⟩⟩

/-- A request that is added, or dropped because the table is full, can be polled. -/
theorem answerable_added {size a n cycle : U64} {slots : List memory_pending_t}
    (reads : OnlyReads size slots) (retired : Retired slots) :
    Answerable a ((add_pending ⟨a,n,cycle,.READ⟩ slots).getD slots) := by
  have busy : ∀ q ∈ slots, q.op ≠ .NONE → q.op = .READ := by
    intro q inside used
    have write := (reads q inside).1
    have done := retired q inside
    cases op : q.op <;> simp_all
  intro q found
  cases added : add_pending ⟨a,n,cycle,.READ⟩ slots with
  | none =>
    rw [added] at found
    have inside := List.mem_of_find?_eq_some found
    exact busy q inside (add_pending_none added q inside)
  | some after =>
    rw [added] at found
    obtain ⟨_,p,first,kind⟩ := add_pending_some added
    have same : p = q := Option.some.inj (first.symm.trans found)
    rcases kind with rfl | ⟨inside,used⟩
    · rw [← same]
    · rw [← same]
      exact busy p inside used

end Framework

/-! ### A step of a walk -/

/-- A poll that has a buffer is answered. -/
def MemoryPort.Answering {σ : Type} (port : MemoryPort σ) : Prop := ∀ mem a v, port.memory_status mem a (some v) ≠ none

theorem Framework.port_answering : Framework.port.Answering := by
  intro fw a v
  show fw.memory_status a (some v) ≠ none
  unfold Framework.memory_status
  split
  · exact Option.some_ne_none _
  · dsimp only
    split_ifs <;> exact Option.some_ne_none _

/-- A read of an entry aborts where a poll is answered with more bytes than the entry has. -/
theorem read_word_error {σ : Type} {port : MemoryPort σ} (answering : port.Answering) {mem : σ} {a v : U32}
    {poll : Bool} {e : Abort} (failed : port.read_word mem a v poll = .error e) :
    e = .local_overrun ∧ poll = true ∧ port.status_bytes mem (a.setWidth 64) > 4 := by
  cases poll with
  | false => cases failed
  | true =>
    rw [MemoryPort.read_word] at failed
    split at failed
    · rename_i long
      cases failed
      exact ⟨rfl,rfl,long⟩
    split at failed
    · rename_i unanswered
      exact absurd unanswered (answering _ _ _)
    · cases failed

namespace Tlb
variable {σ : Type} {port : MemoryPort σ} {ptbr : U64} {cache : Tlb} {mem : σ}
  {tlb_index virtual_page : U32} {status : U8} {locals : TlbLocals}

/-- The ways out of `update_tlb_entry`: each level reads its entry or goes on waiting for it, and only a valid entry of
    the second level is entered. -/
inductive Updates (port : MemoryPort σ) (ptbr : U64) (cache : Tlb) (mem : σ)
    (tlb_index virtual_page : U32) (status : U8) (locals : TlbLocals) : U8 × U32 × Tlb × σ → Prop
  | reads_first (start : status = 0 ∨ status = 0xFF) (word : U32) (mem' : σ)
    (read : port.read_word mem (first_level_index ptbr virtual_page) locals.second_level_index (status == 0) =
      .ok (true,word,mem')) :
    Updates port ptbr cache mem tlb_index virtual_page status locals
      (2,locals.ret_physical_page,{ cache with cached_second_index := word },mem')
  | awaits_first (start : status = 0 ∨ status = 0xFF) (word : U32) (mem' : σ)
    (read : port.read_word mem (first_level_index ptbr virtual_page) locals.second_level_index (status == 0) =
      .ok (false,word,mem')) :
    Updates port ptbr cache mem tlb_index virtual_page status locals (0,locals.ret_physical_page,cache,mem')
  | unmapped (later : ¬ (status = 0 ∨ status = 0xFF)) (invalid : cache.cached_second_index >>> 31 ≠ 1) :
    Updates port ptbr cache mem tlb_index virtual_page status locals (0x80,locals.ret_physical_page,cache,mem)
  | awaits_second (later : ¬ (status = 0 ∨ status = 0xFF)) (valid : cache.cached_second_index >>> 31 = 1)
    (word : U32) (mem' : σ)
    (read : port.read_word mem (second_level_index cache.cached_second_index virtual_page) locals.physical_page
      (status == 1) =
      .ok (false,word,mem')) :
    Updates port ptbr cache mem tlb_index virtual_page status locals (1,locals.ret_physical_page,cache,mem')
  | absent (later : ¬ (status = 0 ∨ status = 0xFF)) (valid : cache.cached_second_index >>> 31 = 1)
    (word : U32) (mem' : σ)
    (read : port.read_word mem (second_level_index cache.cached_second_index virtual_page) locals.physical_page
      (status == 1) =
      .ok (true,word,mem')) (invalid : word >>> 31 = 0) :
    Updates port ptbr cache mem tlb_index virtual_page status locals (0x80,locals.ret_physical_page,cache,mem')
  | enters (later : ¬ (status = 0 ∨ status = 0xFF)) (valid : cache.cached_second_index >>> 31 = 1)
    (word : U32) (mem' : σ)
    (read : port.read_word mem (second_level_index cache.cached_second_index virtual_page) locals.physical_page
      (status == 1) =
      .ok (true,word,mem')) (present : ¬ word >>> 31 = 0) (group : virtual_page >>> 2 >>> 3 = tlb_index) :
    Updates port ptbr cache mem tlb_index virtual_page status locals
      (0xFF,((word <<< 1 >>> 3).setWidth 18 : BitVec 18).setWidth 32,
        { cache with entries := fun i => if i = tlb_index.setWidth 3 then
          ⟨true,(word <<< 1 >>> 3).setWidth 18,(virtual_page >>> 2 >>> 3).setWidth 15⟩ else cache.entries i },mem')

theorem update_tlb_entry_updates {r : U8 × U32 × Tlb × σ}
    (ran : cache.update_tlb_entry port ptbr mem tlb_index virtual_page status locals = .ok r) :
    Updates port ptbr cache mem tlb_index virtual_page status locals r := by
  unfold update_tlb_entry at ran
  simp only at ran
  split at ran
  · rename_i start
    obtain ⟨⟨done,word,mem'⟩,read,ran⟩ := bind_ok.mp ran
    cases done with
    | true => cases ran; exact .reads_first start word mem' read
    | false => cases ran; exact .awaits_first start word mem' read
  rename_i later
  split at ran
  · rename_i invalid
    cases ran
    exact .unmapped later invalid
  rename_i valid
  have valid := not_not.mp valid
  obtain ⟨⟨done,word,mem'⟩,read,ran⟩ := bind_ok.mp ran
  cases done with
  | false => cases ran; exact .awaits_second later valid word mem' read
  | true =>
    simp only [Bool.true_eq_false,if_false] at ran
    split at ran
    · rename_i invalid
      cases ran
      exact .absent later valid word mem' read invalid
    rename_i present
    split at ran
    · cases ran
    rename_i group
    cases ran
    exact .enters later valid word mem' read present (not_not.mp group)

/-- The ways in which it aborts: a read does, or the entry found is not one of the subscript. -/
inductive UpdateFails (port : MemoryPort σ) (ptbr : U64) (cache : Tlb) (mem : σ)
    (tlb_index virtual_page : U32) (status : U8) (locals : TlbLocals) : Abort → Prop
  | first (start : status = 0 ∨ status = 0xFF) (e : Abort)
    (read : port.read_word mem (first_level_index ptbr virtual_page) locals.second_level_index (status == 0) =
      .error e) :
    UpdateFails port ptbr cache mem tlb_index virtual_page status locals e
  | second (later : ¬ (status = 0 ∨ status = 0xFF)) (valid : cache.cached_second_index >>> 31 = 1) (e : Abort)
    (read : port.read_word mem (second_level_index cache.cached_second_index virtual_page) locals.physical_page
      (status == 1) =
      .error e) : UpdateFails port ptbr cache mem tlb_index virtual_page status locals e
  | mismatch (later : ¬ (status = 0 ∨ status = 0xFF)) (valid : cache.cached_second_index >>> 31 = 1)
    (word : U32) (mem' : σ)
    (read : port.read_word mem (second_level_index cache.cached_second_index virtual_page) locals.physical_page
      (status == 1) =
      .ok (true,word,mem')) (present : ¬ word >>> 31 = 0) (group : virtual_page >>> 2 >>> 3 ≠ tlb_index) :
    UpdateFails port ptbr cache mem tlb_index virtual_page status locals .superpage_tlb_index_mismatch

theorem update_tlb_entry_fails {e : Abort}
    (failed : cache.update_tlb_entry port ptbr mem tlb_index virtual_page status locals = .error e) :
    UpdateFails port ptbr cache mem tlb_index virtual_page status locals e := by
  unfold update_tlb_entry at failed
  simp only at failed
  split at failed
  · rename_i start
    rcases bind_error.mp failed with read | ⟨⟨done,word,mem'⟩,-,failed⟩
    · exact .first start e read
    · cases done <;> cases failed
  rename_i later
  split at failed
  · cases failed
  rename_i valid
  have valid := not_not.mp valid
  rcases bind_error.mp failed with read | ⟨⟨done,word,mem'⟩,read,failed⟩
  · exact .second later valid e read
  cases done with
  | false => cases failed
  | true =>
    simp only [Bool.true_eq_false,if_false] at failed
    split at failed
    · cases failed
    rename_i present
    split at failed
    · rename_i group
      cases failed
      exact .mismatch later valid word mem' read present group
    · cases failed

end Tlb

/-! ### Page tables -/

/-- The four bytes at an address. -/
def wordAt (m : U64 → Byte) (a : U64) : U32 := value 32 (fun i => m (a + BitVec.ofNat 64 i)) 4

/-- The first-level entry of an address: number `va >> 22` of the table at `ptbr`. -/
def firstEntry (m : U64 → Byte) (ptbr : U64) (va : U32) : U32 := wordAt m (ptbr + (va >>> 22).setWidth 64 * 4)
/-- The address of the table that a first-level entry names. -/
def tableOf (entry : U32) : U64 := (entry &&& (0x7FFFFFFF : U32)).setWidth 64 * 4096
/-- The second-level entry of an address: number `(va >> 12) & 0x3FF` of its table. -/
def secondEntry (m : U64 → Byte) (entry va : U32) : U32 :=
  wordAt m (tableOf entry + (va >>> 12 &&& (0x3FF : U32)).setWidth 64 * 4)
/-- The physical page number that the two-level walk finds; bit 31 of an entry is its
    valid bit. -/
def pageNumber (m : U64 → Byte) (ptbr : U64) (va : U32) : Option U32 :=
  if firstEntry m ptbr va >>> 31 = 1 then
    if secondEntry m (firstEntry m ptbr va) va >>> 31 = 1 then
      some (secondEntry m (firstEntry m ptbr va) va &&& (0x7FFFFFFF : U32))
    else none
  else none

/-- A page table in memory: the root that `setptbr` accepts, and the tables that its
    valid entries name. -/
structure PageTables where
  mem : U64 → Byte
  size : U64
  ptbr : U64
  size_le : size ≤ MEMORY_MAX_SIZE
  aligned : ptbr.toNat % 4096 = 0
  root : ptbr.toNat + 4096 ≤ size.toNat
  tables : ∀ va : U32, firstEntry mem ptbr va >>> 31 = 1 → (tableOf (firstEntry mem ptbr va)).toNat + 4096 ≤ size.toNat

namespace PageTables

/-- The translation of an address. -/
def page (pt : PageTables) (va : U32) : Option U32 := pageNumber pt.mem pt.ptbr va
/-- The entry that the first step of a walk reads. -/
abbrev first (pt : PageTables) (va : U32) : U32 := firstEntry pt.mem pt.ptbr va

/-- The framework holds this table and has no access but reads outstanding. -/
structure Held (pt : PageTables) (fw : Framework) : Prop where
  mem : fw.riscv_mem = pt.mem
  size : fw.riscv_mem_size = pt.size
  ptbr : fw.ptbr = pt.ptbr
  reads : Framework.OnlyReads pt.size fw.memory_pending.slots

/-- `Held` at the start of a cycle. -/
structure Rested (pt : PageTables) (fw : Framework) : Prop extends pt.Held fw where
  retired : Framework.Retired fw.memory_pending.slots
  issued : fw.memory_accesses_issued = []

theorem Held.rested {pt : PageTables} {fw : Framework} (held : pt.Held fw) : pt.Rested fw.end_cycle where
  mem := held.mem
  size := held.size
  ptbr := held.ptbr
  reads := Framework.onlyReads_end_cycle held.reads
  retired := Framework.retired_end_cycle fw
  issued := rfl

/-- What a read of a word of the table has done: if it is done it delivers the word, else
    the request can be polled. -/
structure Answered (pt : PageTables) (a : U32) (done : Bool) (word : U32) (fw : Framework) :
    Prop extends pt.Held fw where
  delivered : done = true → word = wordAt pt.mem (a.setWidth 64)
  waiting : done = false → Framework.Answerable (a.setWidth 64) fw.memory_pending.slots

/-- The bytes that a read stores where a word is expected. -/
theorem value_dump {pt : PageTables} {fw : Framework} (held : pt.Held fw) {a n : U64} (v : Buffer)
    (long : 4 ≤ n.toNat) (short : n.toNat ≤ 16) (range : a.toNat + n.toNat ≤ pt.size.toNat) :
    value 32 (fw.memory_dump v a n).2 4 = wordAt pt.mem a := by
  have size : pt.size.toNat ≤ 33554432 := pt.size_le
  have inside : ¬ (a + n > fw.riscv_mem_size) := by
    intro past
    have past : fw.riscv_mem_size.toNat < (a + n).toNat := past
    rw [held.size,BitVec.toNat_add] at past
    omega
  rw [Framework.memory_dump,if_neg inside,wordAt]
  apply value_congr
  intro i less
  simp only
  rw [copy_inside (by omega) (by omega),held.mem]
  rfl

theorem read_answered {pt : PageTables} {fw : Framework} (rested : pt.Rested fw) {stage : Stage}
    (access : stage = .F ∨ stage = .M) {a : U32} (v : U32) (aligned : a.toNat % 4 = 0)
    (range : a.toNat + 4 ≤ pt.size.toNat) :
    ∃ done word fw', Framework.port.read_word (fw.enter stage) a v false = .ok (done,word,fw') ∧
      pt.Answered a done word fw' ∧
      (fw.memory_read_latency = 0 → done = true ∧ fw'.memory_read_latency = 0) := by
  have bound := a.isLt
  have size : pt.size.toNat ≤ 33554432 := pt.size_le
  have wide : (a.setWidth 64 : U64).toNat = a.toNat := by rw [BitVec.toNat_setWidth]; omega
  have checks : ¬ ((4 : U64) > MEMORY_MAX_READ_BYTES ∨ Framework.popcountll 4 ≠ 1 ∨
      a.setWidth 64 + 4 > (fw.enter stage).riscv_mem_size ∨ a.setWidth 64 % (4 : U64) ≠ 0) := by
    rintro (large | bits | past | odd)
    · exact absurd large (by decide)
    · exact absurd bits (by decide)
    · have past : fw.riscv_mem_size.toNat < (a.setWidth 64 + (4 : U64)).toNat := past
      rw [rested.size,BitVec.toNat_add,wide,show (4 : U64).toNat = 4 from rfl] at past
      omega
    · apply odd
      apply BitVec.eq_of_toNat_eq
      rw [BitVec.toNat_umod,wide]
      exact aligned
  have turn : ¬ (((fw.enter stage).current_stage ≠ .F ∧ (fw.enter stage).current_stage ≠ .M) ∨
      (fw.enter stage).current_stage ∈ (fw.enter stage).memory_accesses_issued) := by
    have none : (fw.enter stage).memory_accesses_issued = [] := rested.issued
    rw [none]
    rcases access with rfl | rfl <;> simp [Framework.enter]
  simp only [MemoryPort.read_word,Framework.port,Framework.memory_read,if_neg checks,if_neg turn,pure_eq]
  split
  · refine ⟨_,_,_,rfl,⟨⟨rested.mem,rested.size,rested.ptbr,rested.reads⟩,?_,nofun⟩,fun zero => ⟨rfl,zero⟩⟩
    intro _
    exact value_dump rested.toHeld _ (by decide) (by decide) (by rw [wide]; exact range)
  · rename_i slow
    refine ⟨_,_,_,rfl,⟨⟨?_,?_,?_,?_⟩,nofun,?_⟩,fun zero => absurd zero slow⟩
    · rw [Framework.add_pending_mem]
      exact rested.mem
    · rw [Framework.add_pending_size]
      exact rested.size
    · rw [Framework.add_pending_ptbr]
      exact rested.ptbr
    · rw [Framework.add_pending_slots]
      exact Framework.onlyReads_added rested.reads (by decide) (by decide) (by rw [wide]; exact range)
    · intro _
      rw [Framework.add_pending_slots]
      exact Framework.answerable_added rested.reads rested.retired

theorem poll_answered {pt : PageTables} {fw : Framework} (rested : pt.Rested fw) {stage : Stage} {a v : U32}
    (answer : Framework.Answerable (a.setWidth 64) fw.memory_pending.slots) {done : Bool} {word : U32} {fw' : Framework}
    (read : Framework.port.read_word (fw.enter stage) a v true = .ok (done,word,fw')) :
    pt.Answered a done word fw' := by
  rw [MemoryPort.read_word] at read
  split at read
  · cases read
  simp only [Framework.port] at read
  rcases (fw.enter stage).memory_status_poll (a.setWidth 64) (byteAt v) with missing | ⟨pnd,table,found,polled⟩
  · rw [missing] at read
    cases read
    exact ⟨⟨rested.mem,rested.size,rested.ptbr,rested.reads⟩,nofun,fun _ => answer⟩
  · obtain ⟨first,members⟩ := Framework.status_pending_some found
    have reading := answer pnd first
    have address : pnd.address = a.setWidth 64 := by simpa using List.find?_some first
    obtain ⟨long,short,range⟩ := (rested.reads pnd (List.mem_of_find?_eq_some first)).2 reading
    rw [polled,if_pos reading] at read
    cases read
    refine ⟨⟨rested.mem,rested.size,rested.ptbr,?_⟩,?_,nofun⟩
    · intro q inside
      rcases members q inside with old | rfl
      · exact rested.reads q old
      · exact ⟨nofun,nofun⟩
    · intro _
      rw [address] at range
      exact value_dump rested.toHeld _ long short range

/-! ### Steps of a walk -/

theorem tableOf_toNat (entry : U32) : (tableOf entry).toNat = entry.toNat % 2^31 * 4096 := by
  have bound := entry.isLt
  simp only [tableOf,BitVec.toNat_mul,BitVec.toNat_setWidth,BitVec.toNat_and,
    show (0x7FFFFFFF : U32).toNat = 2^31-1 from rfl,Nat.and_two_pow_sub_one_eq_mod,show (4096 : U64).toNat =
      4096 from rfl]
  omega

theorem first_level_toNat (pt : PageTables) (va : U32) :
    (Tlb.first_level_index pt.ptbr (va >>> 12)).toNat = pt.ptbr.toNat + va.toNat / 2^22 * 4 := by
  have bound := va.isLt
  have root := pt.root
  have size : pt.size.toNat ≤ 33554432 := pt.size_le
  simp only [Tlb.first_level_index,BitVec.toNat_setWidth,BitVec.toNat_add,BitVec.toNat_ushiftRight,
    BitVec.toNat_shiftLeft,Nat.shiftRight_eq_div_pow,Nat.shiftLeft_eq]
  omega

/-- The first read of a walk is of the entry that the table defines. -/
theorem first_level_address (pt : PageTables) (va : U32) :
    (Tlb.first_level_index pt.ptbr (va >>> 12)).setWidth 64 = pt.ptbr + (va >>> 22).setWidth 64 * 4 := by
  have bound := va.isLt
  have root := pt.root
  have size : pt.size.toNat ≤ 33554432 := pt.size_le
  apply BitVec.eq_of_toNat_eq
  rw [BitVec.toNat_setWidth,first_level_toNat]
  simp only [BitVec.toNat_add,BitVec.toNat_mul,BitVec.toNat_setWidth,BitVec.toNat_ushiftRight,Nat.shiftRight_eq_div_pow,
    show (4 : U64).toNat = 4 from rfl]
  omega

theorem second_level_toNat {pt : PageTables} {entry : U32} (va : U32)
    (inside : (tableOf entry).toNat + 4096 ≤ pt.size.toNat) :
    (Tlb.second_level_index entry (va >>> 12)).toNat = (tableOf entry).toNat + va.toNat / 4096 % 256 * 4 := by
  have bound := entry.isLt
  have size : pt.size.toNat ≤ 33554432 := pt.size_le
  rw [tableOf_toNat] at inside ⊢
  simp only [Tlb.second_level_index,BitVec.toNat_add,BitVec.toNat_and,BitVec.toNat_ushiftRight,BitVec.toNat_shiftLeft,
    Nat.shiftRight_eq_div_pow,Nat.shiftLeft_eq,show (0xFF : U32).toNat = 2^8-1 from rfl,Nat.and_two_pow_sub_one_eq_mod]
  omega

/-- The second read masks the page number with 0xFF; below 1 MB that is the entry that
    the table defines. -/
theorem second_level_address {pt : PageTables} {entry va : U32} (low : va.toNat < 2^20)
    (inside : (tableOf entry).toNat + 4096 ≤ pt.size.toNat) :
    (Tlb.second_level_index entry (va >>> 12)).setWidth 64 =
      tableOf entry + (va >>> 12 &&& (0x3FF : U32)).setWidth 64 * 4 := by
  have size : pt.size.toNat ≤ 33554432 := pt.size_le
  apply BitVec.eq_of_toNat_eq
  rw [BitVec.toNat_setWidth,second_level_toNat va inside]
  simp only [BitVec.toNat_add,BitVec.toNat_mul,BitVec.toNat_setWidth,BitVec.toNat_and,BitVec.toNat_ushiftRight,
    Nat.shiftRight_eq_div_pow,show (4 : U64).toNat = 4 from rfl,show (0x3FF : U32).toNat = 2^10-1 from rfl,
    Nat.and_two_pow_sub_one_eq_mod]
  omega

/-- Every valid entry is of the group its subscript names, and was walked from a page of it. -/
def Sound (pt : PageTables) (t : Tlb) : Prop :=
  ∀ k, (t.entries k).valid = true →
    (t.entries k).virtual_page.toNat = k.toNat ∧
      ∃ va n, va.toNat / 16384 = 9 * k.toNat ∧ pt.page va = some n ∧ (t.entries k).physical_page = (n >>> 2).setWidth 18

/-- What the status of an unfinished walk of an address stands for. -/
def Progress (pt : PageTables) (t : Tlb) (slots : List memory_pending_t) (va : U32) (status : U8) : Prop :=
  (status = 0 ∧ Framework.Answerable ((Tlb.first_level_index pt.ptbr (va >>> 12)).setWidth 64) slots) ∨
  ((status = 2 ∨ status = 0x80) ∧ t.cached_second_index = pt.first va) ∨
  (status = 1 ∧ t.cached_second_index = pt.first va ∧
    Framework.Answerable ((Tlb.second_level_index (pt.first va) (va >>> 12)).setWidth 64) slots)

/-- An address to which a walk may be moved: the first-level entry is the same, and while
    the second-level entry is awaited the page is. -/
def SameWalk (status : U8) (va va' : U32) : Prop :=
  va >>> 22 = va' >>> 22 ∧ (status = 1 → (va >>> 12 &&& (0xFF : U32)) = (va' >>> 12 &&& (0xFF : U32)))

instance (status : U8) (va va' : U32) : Decidable (SameWalk status va va') := inferInstanceAs (Decidable (_ ∧ _))

theorem progress_redirect {pt : PageTables} {t : Tlb} {slots : List memory_pending_t} {va va' : U32} {status : U8}
    (progress : pt.Progress t slots va status) (same : SameWalk status va va') : pt.Progress t slots va' status := by
  have firsts : pt.first va' = pt.first va := by rw [first,first,firstEntry,firstEntry,same.1]
  have index : Tlb.first_level_index pt.ptbr (va' >>> 12) = Tlb.first_level_index pt.ptbr (va >>> 12) := by
    apply BitVec.eq_of_toNat_eq
    have top := congrArg BitVec.toNat same.1
    simp only [BitVec.toNat_ushiftRight,Nat.shiftRight_eq_div_pow] at top
    rw [first_level_toNat,first_level_toNat,top]
  rcases progress with ⟨waits,answer⟩ | ⟨known,cached⟩ | ⟨waits,cached,answer⟩
  · rw [← index] at answer
    exact .inl ⟨waits,answer⟩
  · exact .inr (.inl ⟨known,cached.trans firsts.symm⟩)
  · have page : Tlb.second_level_index (pt.first va') (va' >>> 12) = Tlb.second_level_index (pt.first va)
        (va >>> 12) := by
      rw [Tlb.second_level_index,Tlb.second_level_index,firsts,← same.2 waits]
    rw [← page] at answer
    exact .inr (.inr ⟨waits,cached.trans firsts.symm,answer⟩)

theorem progress_end_cycle {pt : PageTables} {t : Tlb} {fw : Framework} {va : U32} {status : U8}
    (progress : pt.Progress t fw.memory_pending.slots va status) :
    pt.Progress t fw.end_cycle.memory_pending.slots va status := by
  rcases progress with ⟨waits,answer⟩ | ⟨known,cached⟩ | ⟨waits,cached,answer⟩
  · exact .inl ⟨waits,Framework.answerable_end_cycle answer⟩
  · exact .inr (.inl ⟨known,cached⟩)
  · exact .inr (.inr ⟨waits,cached,Framework.answerable_end_cycle answer⟩)

theorem index_toNat (va : U32) : (Tlb.index va).toNat = va.toNat / 16384 % 8 := by
  simp only [Tlb.index,BitVec.toNat_ushiftRight,BitVec.toNat_and,Nat.shiftRight_eq_div_pow,
    show (7 : U32).toNat = 2^3-1 from rfl,Nat.and_two_pow_sub_one_eq_mod]
theorem superpage_toNat (va : U32) : (va >>> 12 >>> 2 >>> 3).toNat = va.toNat / 131072 := by
  simp only [BitVec.toNat_ushiftRight,Nat.shiftRight_eq_div_pow,Nat.div_div_eq_div_mul]

/-- The entry keeps the upper bits of the page number. -/
theorem stored_page (word : U32) :
    ((word <<< 1 >>> 3).setWidth 18 : BitVec 18) = ((word &&& (0x7FFFFFFF : U32)) >>> 2).setWidth 18 := by
  apply BitVec.eq_of_toNat_eq
  have small := word.isLt
  simp only [BitVec.toNat_setWidth,BitVec.toNat_ushiftRight,BitVec.toNat_shiftLeft,BitVec.toNat_and,
    Nat.shiftRight_eq_div_pow,Nat.shiftLeft_eq,show (0x7FFFFFFF : U32).toNat = 2^31-1 from rfl,
    Nat.and_two_pow_sub_one_eq_mod]
  omega

/-- A valid second-level word that the last check lets through is the translation of the
    address, and its entry is of the group that the subscript names. -/
theorem walked_entry {pt : PageTables} {va word : U32} (cached : pt.first va >>> 31 = 1)
    (read : word = wordAt pt.mem ((Tlb.second_level_index (pt.first va) (va >>> 12)).setWidth 64))
    (valid : ¬ word >>> 31 = 0) (match' : va >>> 12 >>> 2 >>> 3 = Tlb.index va) :
    va.toNat / 16384 = 9 * ((Tlb.index va).setWidth 3 : BitVec 3).toNat ∧
      ((va >>> 12 >>> 2 >>> 3).setWidth 15 : BitVec 15).toNat = ((Tlb.index va).setWidth 3 : BitVec 3).toNat ∧
      ∃ n, pt.page va = some n ∧ ((word <<< 1 >>> 3).setWidth 18 : BitVec 18) = (n >>> 2).setWidth 18 := by
  have bound := va.isLt
  have group := congrArg BitVec.toNat match'
  rw [superpage_toNat,index_toNat] at group
  have nested : va.toNat / 131072 = va.toNat / 16384 / 8 := by rw [Nat.div_div_eq_div_mul]
  have low : va.toNat < 2^20 := by omega
  have second : secondEntry pt.mem (pt.first va) va = word := by
    rw [read,second_level_address low (pt.tables va cached)]
    rfl
  have top : word >>> 31 = 1 := by
    have small := word.isLt
    have nonzero : (word >>> 31).toNat ≠ 0 := fun zero => valid (BitVec.eq_of_toNat_eq zero)
    apply BitVec.eq_of_toNat_eq
    rw [BitVec.toNat_ushiftRight,Nat.shiftRight_eq_div_pow] at nonzero ⊢
    show _ = 1
    omega
  refine ⟨?_,?_,word &&& (0x7FFFFFFF : U32),?_,?_⟩
  · rw [BitVec.toNat_setWidth,index_toNat,show 2^3 = 8 from rfl,Nat.mod_mod]
    omega
  · rw [BitVec.toNat_setWidth,BitVec.toNat_setWidth,superpage_toNat,index_toNat,show 2^3 = 8 from rfl,Nat.mod_mod]
    omega
  · unfold page pageNumber
    rw [if_pos cached,show secondEntry pt.mem (firstEntry pt.mem pt.ptbr va) va = word from second,if_pos top]
  · exact stored_page word

/-- The walk of an address has ended: the page is entered, and nothing else. -/
def Entered (pt : PageTables) (t t' : Tlb) (va ret : U32) : Prop :=
  va.toNat / 16384 = 9 * ((Tlb.index va).setWidth 3 : BitVec 3).toNat ∧
    ∃ n, pt.page va = some n ∧ ret = ((n >>> 2).setWidth 18 : BitVec 18).setWidth 32 ∧
      t'.entries = fun i => if i = (Tlb.index va).setWidth 3 then
        ⟨true,(n >>> 2).setWidth 18,(va >>> 12 >>> 2 >>> 3).setWidth 15⟩ else t.entries i

theorem entered_walked {pt : PageTables} (t : Tlb) {va word : U32} (cached : pt.first va >>> 31 = 1)
    (read : word = wordAt pt.mem ((Tlb.second_level_index (pt.first va) (va >>> 12)).setWidth 64))
    (present : ¬ word >>> 31 = 0) (group : va >>> 12 >>> 2 >>> 3 = Tlb.index va) :
    pt.Entered t { t with entries := fun i => if i = (Tlb.index va).setWidth 3 then
      ⟨true,(word <<< 1 >>> 3).setWidth 18,(va >>> 12 >>> 2 >>> 3).setWidth 15⟩ else t.entries i } va
      (((word <<< 1 >>> 3).setWidth 18 : BitVec 18).setWidth 32) := by
  obtain ⟨number,-,n,found,page⟩ := walked_entry cached read present group
  rw [page]
  exact ⟨number,n,found,rfl,rfl⟩

section
variable {pt : PageTables} {t : Tlb} {fw : Framework} {stage : Stage} {va : U32} {status : U8} (rested : pt.Rested fw)
  (access : stage = .F ∨ stage = .M) (start : status = 0xFF ∨ pt.Progress t fw.memory_pending.slots va status)

include rested access start in
/-- The first-level entry is read or polled. -/
theorem first_answered {v word : U32} {done : Bool} {fw' : Framework}
    (read : Framework.port.read_word (fw.enter stage)
      (Tlb.first_level_index pt.ptbr (va >>> 12)) v (status == 0) = .ok (done,word,fw')) :
    pt.Answered (Tlb.first_level_index pt.ptbr (va >>> 12)) done word fw' := by
  have address := first_level_toNat pt va
  have aligned := pt.aligned
  have root := pt.root
  have bound := va.isLt
  by_cases poll : status = 0
  · have answer : Framework.Answerable ((Tlb.first_level_index pt.ptbr (va >>> 12)).setWidth 64)
        fw.memory_pending.slots := by
      rcases start with fresh | ⟨_,answer⟩ | ⟨known,_⟩ | ⟨waits,_⟩
      · rw [poll] at fresh; cases fresh
      · exact answer
      · rw [poll] at known; rcases known with known | known <;> cases known
      · rw [poll] at waits; cases waits
    rw [poll] at read
    exact poll_answered rested answer read
  · have fresh : (status == 0) = false := beq_eq_false_iff_ne.mpr poll
    rw [fresh] at read
    obtain ⟨_,_,_,asked,answered,_⟩ := read_answered rested access v
      (a := Tlb.first_level_index pt.ptbr (va >>> 12)) (by omega) (by omega)
    cases asked.symm.trans read
    exact answered

include start in
/-- After the first step the first-level entry is cached. -/
theorem first_cached (later : ¬ (status = 0 ∨ status = 0xFF)) : t.cached_second_index = pt.first va := by
  obtain ⟨notFirst,notFresh⟩ := not_or.mp later
  rcases start with fresh | ⟨first,_⟩ | ⟨_,cached⟩ | ⟨_,cached,_⟩
  · exact absurd fresh notFresh
  · exact absurd first notFirst
  · exact cached
  · exact cached

include rested access start in
/-- The second-level entry is read or polled. -/
theorem second_answered (later : ¬ (status = 0 ∨ status = 0xFF)) (valid : pt.first va >>> 31 = 1)
    {v word : U32} {done : Bool} {fw' : Framework}
    (read : Framework.port.read_word (fw.enter stage)
      (Tlb.second_level_index (pt.first va) (va >>> 12)) v (status == 1) = .ok (done,word,fw')) :
    pt.Answered (Tlb.second_level_index (pt.first va) (va >>> 12)) done word fw' := by
  obtain ⟨notFirst,notFresh⟩ := not_or.mp later
  have inside : (tableOf (pt.first va)).toNat + 4096 ≤ pt.size.toNat := pt.tables va valid
  have address := second_level_toNat va inside
  have table := tableOf_toNat (pt.first va)
  by_cases poll : status = 1
  · have answer : Framework.Answerable ((Tlb.second_level_index (pt.first va) (va >>> 12)).setWidth 64)
        fw.memory_pending.slots := by
      rcases start with fresh | ⟨first,_⟩ | ⟨known,_⟩ | ⟨_,_,answer⟩
      · exact absurd fresh notFresh
      · exact absurd first notFirst
      · rw [poll] at known; rcases known with known | known <;> cases known
      · exact answer
    rw [poll] at read
    exact poll_answered rested answer read
  · have fresh : (status == 1) = false := beq_eq_false_iff_ne.mpr poll
    rw [fresh] at read
    obtain ⟨_,_,_,asked,answered,_⟩ := read_answered rested access v
      (a := Tlb.second_level_index (pt.first va) (va >>> 12)) (by omega) (by omega)
    cases asked.symm.trans read
    exact answered

include rested access start in
/-- One step of a walk that has got as far as its status says. -/
theorem update_outcome {t' : Tlb} {fw' : Framework} {ret : U32} {code : U8} {locals : TlbLocals}
    (ran : t.update_tlb_entry Framework.port pt.ptbr (fw.enter stage) (Tlb.index va) (va >>> 12) status locals =
      .ok (code,ret,t',fw')) :
    pt.Held fw' ∧ code ≠ 0xFE ∧
      (code = 0xFF ∧ pt.Entered t t' va ret ∨
        code ≠ 0xFF ∧ t'.entries = t.entries ∧ pt.Progress t' fw'.memory_pending.slots va code) := by
  cases Tlb.update_tlb_entry_updates ran with
  | reads_first _ word _ read =>
    have answered := first_answered rested access start read
    have delivered := answered.delivered rfl
    rw [first_level_address] at delivered
    exact ⟨answered.toHeld,by decide,.inr ⟨by decide,rfl,.inr (.inl ⟨.inl rfl,delivered⟩)⟩⟩
  | awaits_first _ word _ read =>
    have answered := first_answered rested access start read
    exact ⟨answered.toHeld,by decide,.inr ⟨by decide,rfl,.inl ⟨rfl,answered.waiting rfl⟩⟩⟩
  | unmapped later invalid =>
    exact ⟨⟨rested.mem,rested.size,rested.ptbr,rested.reads⟩,by decide,
      .inr ⟨by decide,rfl,.inr (.inl ⟨.inr rfl,first_cached start later⟩)⟩⟩
  | awaits_second later valid word _ read =>
    have cached := first_cached start later
    rw [cached] at valid read
    have answered := second_answered rested access start later valid read
    exact ⟨answered.toHeld,by decide,.inr ⟨by decide,rfl,.inr (.inr ⟨rfl,cached,answered.waiting rfl⟩)⟩⟩
  | absent later valid word _ read =>
    have cached := first_cached start later
    rw [cached] at valid read
    have answered := second_answered rested access start later valid read
    exact ⟨answered.toHeld,by decide,.inr ⟨by decide,rfl,.inr (.inl ⟨.inr rfl,cached⟩)⟩⟩
  | enters later valid word _ read present group =>
    rw [first_cached start later] at valid read
    have answered := second_answered rested access start later valid read
    exact ⟨answered.toHeld,by decide,.inl ⟨rfl,entered_walked t valid (answered.delivered rfl) present group⟩⟩

end

/-- An entered page keeps a buffer sound. -/
theorem sound_entered {pt : PageTables} {t t' : Tlb} {va ret : U32} (sound : pt.Sound t)
    (entered : pt.Entered t t' va ret) :
    pt.Sound t' := by
  obtain ⟨group,n,found,-,entries⟩ := entered
  have bound := va.isLt
  intro k set
  rw [entries] at set ⊢
  simp only at set ⊢
  split at set
  · rename_i here
    subst here
    rw [if_pos rfl]
    refine ⟨?_,va,n,group,found,rfl⟩
    have nested : va.toNat / 131072 = va.toNat / 16384 / 8 := by rw [Nat.div_div_eq_div_mul]
    have small := ((Tlb.index va).setWidth 3 : BitVec 3).isLt
    have tag : va.toNat / 131072 = ((Tlb.index va).setWidth 3 : BitVec 3).toNat := by omega
    rw [BitVec.toNat_setWidth,superpage_toNat,tag]
    exact Nat.mod_eq_of_lt (by omega)
  · rename_i other
    rw [if_neg other]
    exact sound k set

theorem update_step {pt : PageTables} {t t' : Tlb} {fw fw' : Framework} {stage : Stage} {va ret : U32}
    {status code : U8} {locals : TlbLocals} (rested : pt.Rested fw) (sound : pt.Sound t)
    (access : stage = .F ∨ stage = .M) (start : status = 0xFF ∨ pt.Progress t fw.memory_pending.slots va status)
    (ran : t.update_tlb_entry Framework.port pt.ptbr (fw.enter stage) (Tlb.index va) (va >>> 12) status locals =
      .ok (code,ret,t',fw')) :
    pt.Held fw' ∧ pt.Sound t' ∧ code ≠ 0xFE ∧
      (code = 0xFF ∨ (t'.entries = t.entries ∧ pt.Progress t' fw'.memory_pending.slots va code)) := by
  obtain ⟨held,notHit,⟨ended,entered⟩ | ⟨-,entries,progress⟩⟩ := update_outcome rested access start ran
  · exact ⟨held,sound_entered sound entered,notHit,.inl ended⟩
  · refine ⟨held,?_,notHit,.inr ⟨entries,progress⟩⟩
    rw [Sound,entries]
    exact sound

theorem update_code {σ : Type} {port : MemoryPort σ} {ptbr : U64} {t t' : Tlb} {mem mem' : σ} {index page ret : U32}
    {status code : U8} {locals : TlbLocals}
    (ran : t.update_tlb_entry port ptbr mem index page status locals = .ok (code,ret,t',mem')) : code ≠ 0xFE := by
  cases Tlb.update_tlb_entry_updates ran <;> decide

/-- Only a new access can hit. -/
theorem hit_status {σ : Type} {port : MemoryPort σ} {ptbr : U64} {t t' : Tlb} {mem mem' : σ} {va out out' : U32}
    {status : U8} {locals : TlbLocals}
    (called : t.get_address port ptbr mem va out status locals = .ok (0xFE,out',t',mem')) : status = 0xFF := by
  unfold Tlb.get_address at called
  simp only at called
  split at called
  · rename_i hit
    exact hit.1
  · obtain ⟨⟨code,ret,t₁,mem₁⟩,updated,rest⟩ := bind_ok.mp called
    simp only at rest
    split at rest
    · cases rest
      exact absurd rfl (update_code updated)
    · cases rest

/-- A new access to an entered group is answered at once. -/
theorem get_address_hit {σ : Type} (port : MemoryPort σ) (ptbr : U64) {cache : Tlb} (mem : σ) {virtual_address : U32}
    (output : U32) (locals : TlbLocals) (hit : cache.Hit virtual_address) :
    cache.get_address port ptbr mem virtual_address output 0xFF locals =
      .ok (0xFE,cache.translation virtual_address,cache,mem) := by
  unfold Tlb.get_address
  rw [if_pos ⟨rfl,hit⟩]
  rfl

/-- A hit is on the group that the subscript of the entry names. -/
theorem hit_group {pt : PageTables} {t : Tlb} (sound : pt.Sound t) {va : U32}
    (valid : (t.entries ((Tlb.index va).setWidth 3)).valid = true)
    (tag : va >>> 17 = (t.entries ((Tlb.index va).setWidth 3)).virtual_page.setWidth 32) :
    va.toNat / 16384 = 9 * ((Tlb.index va).setWidth 3 : BitVec 3).toNat := by
  have same := (sound _ valid).1
  have values := congrArg BitVec.toNat tag
  have small := (t.entries ((Tlb.index va).setWidth 3)).virtual_page.isLt
  rw [BitVec.toNat_ushiftRight,Nat.shiftRight_eq_div_pow,BitVec.toNat_setWidth,same] at values
  rw [BitVec.toNat_setWidth,index_toNat,show 2^3 = 8 from rfl,Nat.mod_mod] at values ⊢
  have nested : va.toNat / 131072 = va.toNat / 16384 / 8 := by rw [Nat.div_div_eq_div_mul]
  omega

/-- What one call of `get_address` does: a hit changes nothing, and otherwise the walk
    ends or gets as far as the status returned says. -/
theorem get_address_step {pt : PageTables} {t t' : Tlb} {fw fw' : Framework} {stage : Stage} {va out out' : U32}
    {status code : U8} {locals : TlbLocals} (rested : pt.Rested fw) (sound : pt.Sound t)
    (access : stage = .F ∨ stage = .M) (start : status = 0xFF ∨ pt.Progress t fw.memory_pending.slots va status)
    (called : t.get_address Framework.port pt.ptbr (fw.enter stage) va out status locals = .ok (code,out',t',fw')) :
    pt.Held fw' ∧ pt.Sound t' ∧
      ((code = 0xFE ∧ t' = t ∧ fw' = fw.enter stage ∧ (t.entries ((Tlb.index va).setWidth 3)).valid = true ∧
          va.toNat / 16384 = 9 * ((Tlb.index va).setWidth 3 : BitVec 3).toNat ∧
          out' = Tlb.physical ((t.entries ((Tlb.index va).setWidth 3)).physical_page.setWidth 32) va) ∨
        code = 0xFF ∨ (code ≠ 0xFE ∧ pt.Progress t' fw'.memory_pending.slots va code)) := by
  unfold Tlb.get_address at called
  simp only at called
  split at called
  · rename_i hit
    obtain ⟨_,tag,valid⟩ := hit
    cases called
    exact ⟨⟨rested.mem,rested.size,rested.ptbr,rested.reads⟩,sound,
      .inl ⟨rfl,rfl,rfl,valid,hit_group sound valid tag,rfl⟩⟩
  · obtain ⟨⟨new_status,ret,t₁,fw₁⟩,updated,rest⟩ := bind_ok.mp called
    obtain ⟨held,sound',notHit,ended⟩ := update_step rested sound access start updated
    simp only at rest
    split at rest
    · rename_i going
      cases rest
      exact ⟨held,sound',.inr (.inr ⟨notHit,(ended.resolve_left going).2⟩)⟩
    · cases rest
      exact ⟨held,sound',.inr (.inl rfl)⟩

end PageTables

/-! ### Calls on one buffer -/

/-- A translation buffer, memory, and the address and status of a walk that has not ended. -/
structure Translator where
  tlb : Tlb
  fw : Framework
  walk : Option (U32 × U8)

/-- The arguments of a call of `get_address` but the status. -/
structure TlbCall where
  virtual_address : U32
  output : U32
  locals : TlbLocals

namespace Translator

/-- The status to pass: of the walk in progress, or 0xFF for a new access. -/
def status (s : Translator) : U8 :=
  match s.walk with
  | none => 0xFF
  | some (_,status) => status

/-- One call in a cycle of its own, with the value returned and `*output`. -/
def call (stage : Stage) (s : Translator) (c : TlbCall) : Except Abort (U8 × U32 × Translator) := do
  let (code,output,tlb,fw) ← s.tlb.get_address Framework.port s.fw.ptbr (s.fw.enter stage) c.virtual_address c.output
    s.status c.locals
  return (code,output,⟨tlb,fw.end_cycle,if code = 0xFE ∨ code = 0xFF then none else some (c.virtual_address,code)⟩)

def step (stage : Stage) (s : Translator) (c : TlbCall) : Except Abort Translator := do
  let (_,_,s) ← s.call stage c
  return s

/-- The address of a walk is held until it ends. -/
def KeepsAddress (s : Translator) (c : TlbCall) : Prop := ∀ walk, s.walk = some walk → c.virtual_address = walk.1

instance (s : Translator) (c : TlbCall) : Decidable (KeepsAddress s c) :=
  match walk : s.walk with
  | none => isTrue (fun _ same => nomatch walk.symm.trans same)
  | some w =>
    decidable_of_iff (c.virtual_address = w.1)
      ⟨fun held _ same => by cases walk.symm.trans same; exact held,fun keeps => keeps w walk⟩

/-- An empty buffer. -/
def empty (fw : Framework) : Translator := ⟨.zero,fw,none⟩

/-- Kept by calls that hold their address. -/
structure Inv (pt : PageTables) (s : Translator) : Prop where
  rested : pt.Rested s.fw
  sound : pt.Sound s.tlb
  walking : ∀ va status, s.walk = some (va,status) → pt.Progress s.tlb s.fw.memory_pending.slots va status

theorem inv_empty {pt : PageTables} {fw : Framework} (rested : pt.Rested fw) : Inv pt (empty fw) where
  rested := rested
  sound := nofun
  walking := nofun

theorem inv_start {pt : PageTables} {s : Translator} {c : TlbCall} (inv : Inv pt s) (keeps : KeepsAddress s c) :
    s.status = 0xFF ∨ pt.Progress s.tlb s.fw.memory_pending.slots c.virtual_address s.status := by
  cases walk : s.walk with
  | none => exact .inl (by rw [status,walk])
  | some w =>
    obtain ⟨va,st⟩ := w
    have same : c.virtual_address = va := keeps _ walk
    rw [status,walk,same]
    exact .inr (inv.walking va st walk)

theorem inv_step {pt : PageTables} {stage : Stage} (access : stage = .F ∨ stage = .M) (s : Translator) (c : TlbCall)
    (s' : Translator) (inv : Inv pt s) (keeps : KeepsAddress s c) (stepped : step stage s c = .ok s') : Inv pt s' := by
  obtain ⟨⟨code,output,_⟩,called,rest⟩ := bind_ok.mp stepped
  cases rest
  obtain ⟨⟨code,output,tlb,fw⟩,got,rest⟩ := bind_ok.mp called
  cases rest
  rw [inv.rested.ptbr] at got
  obtain ⟨held,sound,outcome⟩ := PageTables.get_address_step inv.rested inv.sound access (inv_start inv keeps) got
  refine ⟨held.rested,sound,?_⟩
  intro va status walk
  rcases outcome with ⟨rfl,_⟩ | rfl | ⟨_,progress⟩
  · cases walk
  · cases walk
  · simp only at walk
    split at walk
    · cases walk
    · cases walk
      exact PageTables.progress_end_cycle progress

end Translator

/-! ### A table with two second-level tables -/

theorem wordAt_memOfWords (word : Nat → U32) {a : U64} (aligned : a.toNat % 4 = 0) (range : a.toNat + 4 < 2^64) :
    wordAt (memOfWords word) a = word (a.toNat / 4) := by
  rw [wordAt,← value_byteAt (n := 4) (word (a.toNat / 4))]
  apply value_congr
  intro i less
  have place : (a + BitVec.ofNat 64 i).toNat = a.toNat + i := by
    rw [BitVec.toNat_add,BitVec.toNat_ofNat]
    omega
  rw [memOfWords,place]
  congr 1
  · congr 1
    omega
  · omega

/-- The root in page 0 names the tables in pages 1 and 2 for the first two regions of 4 MB;
    every page of these regions is mapped, by the function given. -/
def twoTablesWord (frame : Nat → Nat → U32) (i : Nat) : U32 :=
  if i < 1024 then (if i < 2 then 0x80000001 + BitVec.ofNat 32 i else 0)
  else 0x80000000 ||| frame (i / 1024) (i % 1024)

theorem firstEntry_twoTables (frame : Nat → Nat → U32) (va : U32) :
    firstEntry (memOfWords (twoTablesWord frame)) 0 va =
      if va.toNat / 2^22 < 2 then 0x80000001 + BitVec.ofNat 32 (va.toNat / 2^22) else 0 := by
  have bound := va.isLt
  have address : ((0 : U64) + (va >>> 22).setWidth 64 * 4).toNat = va.toNat / 2^22 * 4 := by
    simp only [BitVec.toNat_add,BitVec.toNat_mul,BitVec.toNat_setWidth,BitVec.toNat_ushiftRight,
      Nat.shiftRight_eq_div_pow,show (4 : U64).toNat = 4 from rfl,show (0 : U64).toNat = 0 from rfl]
    omega
  rw [firstEntry,wordAt_memOfWords _ (by rw [address]; omega) (by rw [address]; omega),address,
    Nat.mul_div_cancel _ (by decide),twoTablesWord,if_pos (by omega)]

def twoTables (frame : Nat → Nat → U32) : PageTables where
  mem := memOfWords (twoTablesWord frame)
  size := 8 * 1024 * 1024
  ptbr := 0
  size_le := Framework.initial_size_le
  aligned := rfl
  root := by decide
  tables := by
    intro va
    rw [firstEntry_twoTables]
    split
    · intro _
      rename_i low
      have cases : va.toNat / 2^22 = 0 ∨ va.toNat / 2^22 = 1 := by omega
      rcases cases with zero | one
      · rw [zero]; decide
      · rw [one]; decide
    · intro valid
      exact absurd valid (by decide)

theorem valid_or (x : U32) : ((0x80000000 : U32) ||| x) >>> 31 = 1 := by
  apply BitVec.eq_of_getLsbD_eq
  intro i small
  rw [BitVec.getLsbD_ushiftRight,BitVec.getLsbD_or]
  by_cases low : i = 0
  · subst low
    simp
  · rw [BitVec.getLsbD_of_ge x _ (by omega),BitVec.getLsbD_of_ge _ _ (by omega)]
    simp
    omega

theorem page_twoTables (frame : Nat → Nat → U32) (va : U32) :
    (twoTables frame).page va =
      if va.toNat / 2^22 < 2 then
        some ((0x80000000 ||| frame (va.toNat / 2^22 + 1) (va.toNat / 4096 % 1024)) &&& (0x7FFFFFFF : U32))
      else none := by
  have bound := va.isLt
  unfold PageTables.page pageNumber
  rw [show (twoTables frame).mem = memOfWords (twoTablesWord frame) from rfl,show (twoTables frame).ptbr = 0 from rfl,
    firstEntry_twoTables]
  by_cases low : va.toNat / 2^22 < 2
  · have entry : (0x80000001 + BitVec.ofNat 32 (va.toNat / 2^22) : U32).toNat = 2^31 + 1 + va.toNat / 2^22 := by
      rw [BitVec.toNat_add,BitVec.toNat_ofNat]
      simp
      omega
    have valid : (0x80000001 + BitVec.ofNat 32 (va.toNat / 2^22) : U32) >>> 31 = 1 := by
      apply BitVec.eq_of_toNat_eq
      rw [BitVec.toNat_ushiftRight,entry,Nat.shiftRight_eq_div_pow]
      show _ = 1
      omega
    have page : (va >>> 12 &&& (0x3FF : U32)).toNat = va.toNat / 4096 % 1024 := by
      rw [BitVec.toNat_and,BitVec.toNat_ushiftRight,Nat.shiftRight_eq_div_pow,show (0x3FF : U32).toNat =
        2^10-1 from rfl,Nat.and_two_pow_sub_one_eq_mod]
    have address : (tableOf (0x80000001 + BitVec.ofNat 32 (va.toNat / 2^22)) +
        (va >>> 12 &&& (0x3FF : U32)).setWidth 64 * 4).toNat =
          (va.toNat / 2^22 + 1) * 4096 + va.toNat / 4096 % 1024 * 4 := by
      rw [BitVec.toNat_add,PageTables.tableOf_toNat,entry,BitVec.toNat_mul,BitVec.toNat_setWidth,page,
        show (4 : U64).toNat = 4 from rfl]
      omega
    have second : secondEntry (memOfWords (twoTablesWord frame)) (0x80000001 + BitVec.ofNat 32 (va.toNat / 2^22)) va =
        0x80000000 ||| frame (va.toNat / 2^22 + 1) (va.toNat / 4096 % 1024) := by
      rw [secondEntry,wordAt_memOfWords _ (by rw [address]; omega) (by rw [address]; omega),address,twoTablesWord,
        if_neg (by omega)]
      congr 2
      · omega
      · omega
    rw [if_pos low,if_pos valid,second,if_pos (valid_or _),if_pos low]
  · rw [if_neg low,if_neg low,if_neg (by decide)]

/-! ### A hit agrees with the table -/

namespace PageTables

/-- The requirement of the design document: a valid mapping keeps the low two bits of the
    page number. -/
def KeepsLowBits (pt : PageTables) : Prop := ∀ va n, pt.page va = some n → n.toNat % 4 = va.toNat / 4096 % 4

/-- In each of the eight groups that can be entered, one mapped page means that all four
    are mapped, to frames with the same upper 18 bits. -/
def UniformGroups (pt : PageTables) : Prop :=
  ∀ k < 8, ∀ va va' : U32, va.toNat / 16384 = 9*k → va'.toNat / 16384 = 9*k →
    ∀ n, pt.page va = some n → ∃ n', pt.page va' = some n' ∧ ((n' >>> 2).setWidth 18 : BitVec 18) =
      (n >>> 2).setWidth 18

theorem or_toNat {a b : U32} {i : Nat} (low : b.toNat < 2^i) (high : a.toNat % 2^i = 0) :
    (a ||| b).toNat = a.toNat + b.toNat := by
  rw [BitVec.toNat_or]
  have split : a.toNat = (a.toNat / 2^i) <<< i := by
    rw [Nat.shiftLeft_eq,Nat.div_mul_cancel (Nat.dvd_of_mod_eq_zero high)]
  rw [split,Nat.shiftLeft_add_eq_or_of_lt low]

theorem physical_toNat (page : BitVec 18) (va : U32) :
    (Tlb.physical (page.setWidth 32) va).toNat = page.toNat * 16384 + va.toNat % 16384 := by
  have size := page.isLt
  have high : ((page.setWidth 32 : U32) <<< 14).toNat = page.toNat * 16384 := by
    rw [BitVec.toNat_shiftLeft,BitVec.toNat_setWidth,Nat.shiftLeft_eq]
    omega
  have rest : (va <<< 18 >>> 18).toNat = va.toNat % 16384 := by
    rw [BitVec.toNat_ushiftRight,BitVec.toNat_shiftLeft,Nat.shiftLeft_eq,Nat.shiftRight_eq_div_pow]
    omega
  rw [Tlb.physical,or_toNat (i := 14) (by omega) (by omega),high,rest]

theorem mapped_toNat (n va : U32) : ((n <<< 12) ||| (va &&& (0xFFF : U32))).toNat = n.toNat % 2^20 * 4096 +
    va.toNat % 4096 := by
  have high : (n <<< 12).toNat = n.toNat % 2^20 * 4096 := by
    rw [BitVec.toNat_shiftLeft,Nat.shiftLeft_eq]
    omega
  have rest : (va &&& (0xFFF : U32)).toNat = va.toNat % 4096 := by
    rw [BitVec.toNat_and,show (0xFFF : U32).toNat = 2^12-1 from rfl,Nat.and_two_pow_sub_one_eq_mod]
  rw [or_toNat (i := 12) (by omega) (by omega),high,rest]

/-- The stored page and the low 14 bits make up the right address exactly if the upper
    bits of the page are stored. -/
theorem physical_eq_iff {va n : U32} {page : BitVec 18} (low : n.toNat % 4 = va.toNat / 4096 % 4) :
    Tlb.physical (page.setWidth 32) va = (n <<< 12) ||| (va &&& (0xFFF : U32)) ↔
      ((n >>> 2).setWidth 18 : BitVec 18) = page := by
  have size := page.isLt
  rw [← BitVec.toNat_inj,← BitVec.toNat_inj,physical_toNat,mapped_toNat,BitVec.toNat_setWidth,BitVec.toNat_ushiftRight,
    Nat.shiftRight_eq_div_pow]
  omega

/-- Uniform groups make every hit right. -/
theorem hit_agrees {pt : PageTables} (low : pt.KeepsLowBits) (uniform : pt.UniformGroups) {t : Tlb} (sound : pt.Sound t)
    {va : U32} (valid : (t.entries ((Tlb.index va).setWidth 3)).valid = true)
    (group : va.toNat / 16384 = 9 * ((Tlb.index va).setWidth 3 : BitVec 3).toNat) :
    ∃ n, pt.page va = some n ∧
      Tlb.physical ((t.entries ((Tlb.index va).setWidth 3)).physical_page.setWidth 32) va =
        (n <<< 12) ||| (va &&& (0xFFF : U32)) := by
  obtain ⟨_,walked,n,walkedGroup,found,stored⟩ := sound _ valid
  obtain ⟨n',found',same⟩ := uniform _ ((Tlb.index va).setWidth 3 : BitVec 3).isLt walked va walkedGroup group n found
  refine ⟨n',found',(physical_eq_iff (low va n' found')).mpr ?_⟩
  rw [stored,same]

/-- Memory that holds the table and answers at once. -/
def boot (pt : PageTables) : Framework :=
  { Framework.initial pt.mem pt.ptbr 0 0 with riscv_mem_size := pt.size }

theorem rested_boot (pt : PageTables) : pt.Rested pt.boot where
  mem := rfl
  size := rfl
  ptbr := rfl
  reads := by
    intro q inside
    rw [List.eq_of_mem_replicate inside]
    exact ⟨nofun,nofun⟩
  retired := by
    intro q inside
    rw [List.eq_of_mem_replicate inside]
    nofun
  issued := rfl

section
variable {pt : PageTables} {fw : Framework} (rested : pt.Rested fw) (fast : fw.memory_read_latency = 0)
include rested fast

/-- Without latency the first step of a walk has the first-level entry. -/
theorem walk_first (t : Tlb) (va : U32) (free : (t.entries ((Tlb.index va).setWidth 3)).valid = false) (out : U32)
    (locals : TlbLocals) :
    ∃ fw', t.get_address Framework.port pt.ptbr (fw.enter .F) va out 0xFF locals =
        .ok (2,out,{ t with cached_second_index := pt.first va },fw') ∧
      pt.Held fw' ∧ fw'.memory_read_latency = 0 := by
  have root := pt.root
  have aligned := pt.aligned
  have bound := va.isLt
  have address := first_level_toNat pt va
  obtain ⟨done,word,fw',asked,answered,now⟩ := read_answered rested (.inl rfl) locals.second_level_index
    (a := Tlb.first_level_index pt.ptbr (va >>> 12)) (by omega) (by omega)
  obtain ⟨rfl,fast'⟩ := now fast
  have word := answered.delivered rfl
  rw [first_level_address] at word
  refine ⟨fw',?_,answered.toHeld,fast'⟩
  have fresh : ((0xFF : U8) == 0) = false := by decide
  simp only [Tlb.get_address,Tlb.update_tlb_entry,free,Bool.false_eq_true,and_false,if_false,or_true,
    if_true,fresh,asked,ok_bind,pure_eq,word]
  rfl

/-- Without latency the second step enters the page that it finds. -/
theorem walk_second (t : Tlb) {va n : U32} {k : Nat} (small : k < 8) (group : va.toNat / 16384 = 9*k)
    (cached : t.cached_second_index = pt.first va) (found : pt.page va = some n) (out : U32) (locals : TlbLocals) :
    ∃ out' t' fw', t.get_address Framework.port pt.ptbr (fw.enter .F) va out 2 locals = .ok (0xFF,out',t',fw') ∧
      t'.entries (BitVec.ofNat 3 k) = ⟨true,(n >>> 2).setWidth 18,BitVec.ofNat 15 k⟩ ∧ pt.Held fw' := by
  have bound := va.isLt
  have nested : va.toNat / 131072 = va.toNat / 16384 / 8 := by rw [Nat.div_div_eq_div_mul]
  have low : va.toNat < 2^20 := by omega
  have index : Tlb.index va = BitVec.ofNat 32 k := by
    apply BitVec.eq_of_toNat_eq
    rw [index_toNat,group,BitVec.toNat_ofNat,Nat.mod_eq_of_lt (by omega : k < 2^32)]
    omega
  have superpage : va >>> 12 >>> 2 >>> 3 = BitVec.ofNat 32 k := by
    apply BitVec.eq_of_toNat_eq
    rw [superpage_toNat,nested,group,BitVec.toNat_ofNat,Nat.mod_eq_of_lt (by omega : k < 2^32)]
    omega
  -- what the table defines for the address
  unfold page pageNumber at found
  split at found
  · rename_i valid
    split at found
    · rename_i present
      cases found
      have inside : (tableOf (pt.first va)).toNat + 4096 ≤ pt.size.toNat := pt.tables va valid
      have address := second_level_toNat va inside
      have table := tableOf_toNat (pt.first va)
      obtain ⟨done,word,fw',asked,answered,now⟩ := read_answered rested (.inl rfl) locals.physical_page
        (a := Tlb.second_level_index (pt.first va) (va >>> 12)) (by omega) (by omega)
      obtain ⟨rfl,_⟩ := now fast
      have read := answered.delivered rfl
      rw [second_level_address low inside,show wordAt pt.mem (tableOf (pt.first va) +
        (va >>> 12 &&& (0x3FF : U32)).setWidth 64 * 4) =
          secondEntry pt.mem (firstEntry pt.mem pt.ptbr va) va from rfl] at read
      rw [← read] at present ⊢
      have set : ¬ word >>> 31 = 0 := by
        rw [present]
        decide
      have three : (BitVec.ofNat 32 k).setWidth 3 = BitVec.ofNat 3 k := BitVec.setWidth_ofNat_of_le (by decide) k
      have fifteen : (BitVec.ofNat 32 k).setWidth 15 = BitVec.ofNat 15 k := BitVec.setWidth_ofNat_of_le (by decide) k
      have later : ((2 : U8) == 1) = false := by decide
      rw [← stored_page]
      let entry : TlbEntry := ⟨true,(word <<< 1 >>> 3).setWidth 18,BitVec.ofNat 15 k⟩
      refine ⟨Tlb.physical (entry.physical_page.setWidth 32) va,
        { t with entries := fun i => if i = BitVec.ofNat 3 k then entry else t.entries i },fw',?_,if_pos rfl,
        answered.toHeld⟩
      simp only [Tlb.get_address,Tlb.update_tlb_entry,later,asked,ok_bind,pure_eq,cached,valid,set,superpage,index,
        show ((2 : U8) = 0xFF) = False from by decide,show ((2 : U8) = 0) = False from by decide,ne_eq,not_true,
        false_and,or_self,if_false,Bool.true_eq_false,three,fifteen]
      rfl
    · cases found
  · cases found

end

/-- Two calls for a mapped page of a group enter it. -/
theorem group_entered {pt : PageTables} {va n : U32} {k : Nat} (small : k < 8) (group : va.toNat / 16384 = 9*k)
    (found : pt.page va = some n) :
    ∃ s, Guarded (Translator.step .F) Translator.KeepsAddress (.empty pt.boot) [⟨va,0,⟨0,0,0⟩⟩,⟨va,0,⟨0,0,0⟩⟩] ∧
      run (Translator.step .F) (.empty pt.boot) [⟨va,0,⟨0,0,0⟩⟩,⟨va,0,⟨0,0,0⟩⟩] = .ok s ∧ s.walk = none ∧
      s.tlb.entries (BitVec.ofNat 3 k) = ⟨true,(n >>> 2).setWidth 18,BitVec.ofNat 15 k⟩ := by
  obtain ⟨fw₁,first,held₁,fast₁⟩ := walk_first pt.rested_boot rfl .zero va rfl 0 ⟨0,0,0⟩
  obtain ⟨out,t,fw₂,second,entered,_⟩ := walk_second held₁.rested fast₁
    ({ Tlb.zero with cached_second_index := pt.first va } : Tlb) small group rfl found 0 ⟨0,0,0⟩
  have step₁ : Translator.step .F (.empty pt.boot) ⟨va,0,⟨0,0,0⟩⟩ =
      .ok ⟨{ Tlb.zero with cached_second_index := pt.first va },fw₁.end_cycle,some (va,2)⟩ := by
    unfold Translator.step Translator.call
    rw [show (Translator.empty pt.boot).tlb.get_address Framework.port (Translator.empty pt.boot).fw.ptbr
      ((Translator.empty pt.boot).fw.enter .F) va 0 (Translator.empty pt.boot).status ⟨0,0,0⟩ = _ from first]
    rfl
  have step₂ : Translator.step .F ⟨{ Tlb.zero with cached_second_index := pt.first va },fw₁.end_cycle,some (va,2)⟩
      ⟨va,0,⟨0,0,0⟩⟩ = .ok ⟨t,fw₂.end_cycle,none⟩ := by
    unfold Translator.step Translator.call
    simp only [Translator.status]
    rw [show fw₁.end_cycle.ptbr = pt.ptbr from held₁.ptbr,second]
    rfl
  refine ⟨⟨t,fw₂.end_cycle,none⟩,⟨nofun,?_⟩,?_,rfl,entered⟩
  · intro s stepped
    rw [step₁] at stepped
    cases stepped
    refine ⟨?_,fun _ _ => trivial⟩
    intro walk same
    cases same
    rfl
  · rw [run,step₁,ok_bind,run,step₂]
    rfl

/-- Every hit, on every sequence of calls that hold their address, is the translation that
    the table defines. -/
def HitsAgree (pt : PageTables) : Prop :=
  ∀ (stage : Stage) (fw : Framework) (calls : List TlbCall) (s s' : Translator) (c : TlbCall) (out : U32),
    stage = .F ∨ stage = .M → pt.Rested fw →
    Guarded (Translator.step stage) Translator.KeepsAddress (.empty fw) calls →
    run (Translator.step stage) (.empty fw) calls = .ok s → s.call stage c = .ok (0xFE,out,s') →
    ∃ n, pt.page c.virtual_address = some n ∧ out = (n <<< 12) ||| (c.virtual_address &&& (0xFFF : U32))

/-- For a page table that keeps the low two bits, hits agree with it exactly if the groups
    that can be entered are uniform. -/
theorem hits_agree_iff {pt : PageTables} (low : pt.KeepsLowBits) : pt.HitsAgree ↔ pt.UniformGroups := by
  constructor
  · intro agrees k small va va' group group' n found
    obtain ⟨s,safe,ran,idle,entered⟩ := group_entered small group found
    have nested : va'.toNat / 131072 = va'.toNat / 16384 / 8 := by rw [Nat.div_div_eq_div_mul]
    have index : (Tlb.index va').setWidth 3 = BitVec.ofNat 3 k := by
      apply BitVec.eq_of_toNat_eq
      rw [BitVec.toNat_setWidth,index_toNat,group',BitVec.toNat_ofNat]
      omega
    have tag : va' >>> 17 = (BitVec.ofNat 15 k).setWidth 32 := by
      apply BitVec.eq_of_toNat_eq
      rw [BitVec.toNat_ushiftRight,Nat.shiftRight_eq_div_pow,BitVec.toNat_setWidth,BitVec.toNat_ofNat,
        Nat.mod_eq_of_lt (by omega : k < 2^15),Nat.mod_eq_of_lt (by omega : k < 2^32)]
      omega
    have hit : s.call .F ⟨va',0,⟨0,0,0⟩⟩ = .ok (0xFE,Tlb.physical (((n >>> 2).setWidth 18 : BitVec 18).setWidth 32) va',
        ⟨s.tlb,(s.fw.enter .F).end_cycle,none⟩) := by
      simp only [Translator.call,Tlb.get_address,Translator.status,idle,index,entered,tag,and_self,if_true,
        ok_bind,pure_eq]
      rfl
    obtain ⟨n',found',out⟩ := agrees .F pt.boot _ s _ _ _ (.inl rfl) pt.rested_boot safe ran hit
    exact ⟨n',found',(physical_eq_iff (low va' n' found')).mp out⟩
  · intro uniform stage fw calls s s' c out access rested safe ran called
    have inv := guarded_invariant (Translator.Inv pt) (Translator.inv_step access)
      (Translator.inv_empty rested) safe ran
    obtain ⟨⟨code,output,tlb,fw'⟩,got,rest⟩ := bind_ok.mp called
    cases rest
    rw [inv.rested.ptbr] at got
    obtain ⟨_,_,⟨_,_,_,valid,group,rfl⟩ | ended | ⟨notHit,_⟩⟩ :=
      get_address_step inv.rested inv.sound access (.inl (hit_status got)) got
    · exact hit_agrees low uniform inv.sound valid group
    · cases ended
    · exact absurd rfl notHit

theorem frame_toNat {frame : U32} (fits : frame.toNat < 2^31) :
    ((0x80000000 ||| frame) &&& (0x7FFFFFFF : U32)).toNat = frame.toNat := by
  rw [BitVec.toNat_and,or_toNat fits (by decide),show (0x7FFFFFFF : U32).toNat = 2^31-1 from rfl,
    Nat.and_two_pow_sub_one_eq_mod,show (0x80000000 : U32).toNat = 2^31 from rfl]
  omega

theorem keepsLowBits_twoTables {frame : Nat → Nat → U32}
    (low : ∀ i j, j < 1024 → (frame i j).toNat < 2^31 ∧ (frame i j).toNat % 4 = j % 4) :
    (twoTables frame).KeepsLowBits := by
  intro va n found
  rw [page_twoTables] at found
  split at found
  · cases found
    obtain ⟨fits,same⟩ := low (va.toNat / 2^22 + 1) (va.toNat / 4096 % 1024) (Nat.mod_lt _ (by decide))
    rw [frame_toNat fits,same]
    omega
  · cases found

/-- Virtual and physical addresses are the same. -/
def identity : PageTables := twoTables (fun _ j => BitVec.ofNat 32 j)

theorem identity_low : identity.KeepsLowBits := by
  apply keepsLowBits_twoTables
  intro _ j small
  rw [BitVec.toNat_ofNat]
  omega

theorem hits_agree_identity : identity.HitsAgree := by
  apply (hits_agree_iff identity_low).mpr
  intro k small va va' group group' n found
  have frames : ∀ va : U32, va.toNat / 16384 = 9*k →
      ∃ n, identity.page va = some n ∧ n.toNat / 4 = va.toNat / 16384 := by
    intro va group
    have fits : (BitVec.ofNat 32 (va.toNat / 4096 % 1024)).toNat < 2^31 := by
      rw [BitVec.toNat_ofNat]
      omega
    refine ⟨_,by rw [identity,page_twoTables,if_pos (by omega)],?_⟩
    rw [frame_toNat fits,BitVec.toNat_ofNat]
    omega
  obtain ⟨m,page,frame⟩ := frames va group
  obtain ⟨m',page',frame'⟩ := frames va' group'
  cases page.symm.trans found
  refine ⟨m',page',BitVec.eq_of_toNat_eq ?_⟩
  rw [BitVec.toNat_setWidth,BitVec.toNat_setWidth,BitVec.toNat_ushiftRight,BitVec.toNat_ushiftRight,
    Nat.shiftRight_eq_div_pow,Nat.shiftRight_eq_div_pow,show 2^2 = 4 from rfl,frame,frame',group,group']

/-- Pages 0 and 1 in frames 4 and 9. -/
def splitGroup : PageTables :=
  twoTables (fun _ j => if j = 0 then 4 else if j = 1 then 9 else BitVec.ofNat 32 j)

/-- Once page 0 is entered, page 1 is translated to frame 5. -/
theorem hit_disagrees :
    splitGroup.KeepsLowBits ∧ splitGroup.page 0x1000 = some 9 ∧
    Guarded (Translator.step .F) Translator.KeepsAddress (.empty splitGroup.boot) [⟨0,0,⟨0,0,0⟩⟩,⟨0,0,⟨0,0,0⟩⟩] ∧
    ∃ s s', run (Translator.step .F) (.empty splitGroup.boot) [⟨0,0,⟨0,0,0⟩⟩,⟨0,0,⟨0,0,0⟩⟩] = .ok s ∧
      s.call .F ⟨0x1000,0,⟨0,0,0⟩⟩ = .ok (0xFE,0x5000,s') := by
  refine ⟨?_,by decide +kernel,by decide +kernel,?_⟩
  · apply keepsLowBits_twoTables
    intro _ j small
    split
    · rename_i zero
      rw [zero]; decide
    · split
      · rename_i one
        rw [one]; decide
      · rw [BitVec.toNat_ofNat]
        omega
  · have evaluated : okAnd (run (Translator.step .F) (.empty splitGroup.boot) [⟨0,0,⟨0,0,0⟩⟩,⟨0,0,⟨0,0,0⟩⟩]) (fun s =>
        okAnd (s.call .F ⟨0x1000,0,⟨0,0,0⟩⟩) (fun r => decide (r.1 = 0xFE ∧ r.2.1 = 0x5000))) = true := by
      decide +kernel
    obtain ⟨s,ran,evaluated⟩ := okAnd_iff.mp evaluated
    obtain ⟨⟨code,out,s'⟩,called,evaluated⟩ := okAnd_iff.mp evaluated
    obtain ⟨rfl,rfl⟩ := of_decide_eq_true evaluated
    exact ⟨s,s',ran,called⟩

end PageTables
end RiscvSim
