import RiscvSim.Paging
import RiscvSim.Polls
import RiscvSim.Suspension

/-!
The memory stage in a memory that changes. The data cache and memory stand for the bytes `L`, or the row of
the access that waits is being filled, or memory already has the row that it gives up (`DataKept`). The
stage keeps this, whether it retires what is in M or saves it, as long as it meets none of the defects of
the caches (`Serves`); memory changes at most where a dirty row is written back, and there to bytes of `L`.
-/
namespace RiscvSim
open Bytes Runs

/-- The place in memory of the access in an M register. -/
def StageRegM.place (m : StageRegM) (f : PageMap) : U64 := f.place (m.address.setWidth 32)

/-- The bytes after the store that a cycle makes, if it makes one. -/
def PageMap.after (f : PageMap) (L : U64 → Byte) : Option (U64 × U8 × U64) → U64 → Byte
  | none => L
  | some (address,size,data) => CacheTable.overwrite L (f.place (address.setWidth 32)) data size

/-- The access in M is naturally aligned and inside memory. A store that hits, hits a dirty row of the first way,
    and none is of a byte that is fixed; an access that has to read its block does so from the start of the
    block. -/
structure Serves (f : PageMap) (fixed : U64 → Bool) (mem : MemoryState Framework) (m : StageRegM) : Prop where
  aligned : Aligned (m.place f) m.size
  inside : CacheTable.Within mem.framework.riscv_mem_size (m.place f)
  hits : m.readWrite = .memory_write → ¬ mem.data_cache.Missing (m.place f) →
    mem.data_cache.Holds (mem.data_cache.indexOf (m.place f)) (m.place f) ∧
      (mem.data_cache.rows (mem.data_cache.indexOf (m.place f))).dirty = true
  fills : mem.data_cache.Missing (m.place f) → m.Fills → (m.place f).toNat % 8 = 0
  spared : m.readWrite = .memory_write → ∀ i < m.size.toNat, fixed (m.place f + BitVec.ofNat 64 i) = false

instance (size a : U64) : Decidable (CacheTable.Within size a) := Nat.decLe _ _
instance (f : PageMap) (fixed : U64 → Bool) (mem : MemoryState Framework) (m : StageRegM) :
    Decidable (Serves f fixed mem m) :=
  decidable_of_iff (Aligned (m.place f) m.size ∧ CacheTable.Within mem.framework.riscv_mem_size (m.place f) ∧
    (m.readWrite = .memory_write → ¬ mem.data_cache.Missing (m.place f) →
      mem.data_cache.Holds (mem.data_cache.indexOf (m.place f)) (m.place f) ∧
        (mem.data_cache.rows (mem.data_cache.indexOf (m.place f))).dirty = true) ∧
    (mem.data_cache.Missing (m.place f) → m.Fills → (m.place f).toNat % 8 = 0) ∧
    (m.readWrite = .memory_write → ∀ i < m.size.toNat, fixed (m.place f + BitVec.ofNat 64 i) = false))
    ⟨fun ⟨aligned,inside,hits,fills,spared⟩ => ⟨aligned,inside,hits,fills,spared⟩,
      fun serves => ⟨serves.aligned,serves.inside,serves.hits,serves.fills,serves.spared⟩⟩

/-- The data cache stands for `L`, or is being filled for the access, which has stalled. -/
def Backs (f : PageMap) (L : U64 → Byte) (mem : MemoryState Framework) (m : StageRegM) : Prop :=
  mem.data_cache.Stands L mem.framework.riscv_mem none ∨
    (m.Accesses ∧ m.wasStalled ≠ 0) ∧ mem.data_cache.StandsAt L mem.framework.riscv_mem (m.place f)

/-- Nothing waits: the data cache over memory stands for `L`, and the data TLB is sound. -/
structure DataRests (pt : PageTables) (fixed : U64 → Bool) (L : U64 → Byte) (mem : MemoryState Framework) : Prop where
  logical : ∀ o, fixed o = true → L o = pt.mem o
  sound : pt.Sound mem.dtlb
  housed : mem.data_cache.Housed (CacheTable.Within pt.size)
  stands : mem.data_cache.Stands L mem.framework.riscv_mem none

/-- The same with the access that is under way: its walk is where its status says, its row is being filled, or
    memory has the row that it waits to have written. -/
structure DataKept (f : PageMap) (pt : PageTables) (fixed : U64 → Bool) (L : U64 → Byte) (mem : MemoryState Framework)
    (m : StageRegM) :
    Prop where
  logical : ∀ o, fixed o = true → L o = pt.mem o
  sound : pt.Sound mem.dtlb
  housed : mem.data_cache.Housed (CacheTable.Within pt.size)
  backs : Backs f L mem m
  known : pt.Known mem.dtlb (m.address.setWidth 32) m.walk_status
  written : ∀ ask, waiting (mem.memory_ask m) = some ask → ask.op = .WRITE →
    mem.data_cache.Spares L mem.framework.riscv_mem (m.place f)

/-- What the stage finds beside that: it may ask, and polls for its own requests; it is not to read a block into the
    place of a dirty row. -/
structure MemoryFinds (f : PageMap) (pt : PageTables) (fixed : U64 → Bool) (mem : MemoryState Framework)
    (m : StageRegM) : Prop where
  stage : mem.framework.current_stage = .M
  free : .M ∉ mem.framework.memory_accesses_issued
  size : mem.framework.riscv_mem_size = pt.size
  ptbr : mem.framework.ptbr = pt.ptbr
  memory : ∀ o, fixed o = true → mem.framework.riscv_mem o = pt.mem o
  pends : ∀ ask, waiting (mem.memory_ask m) = some ask → mem.framework.Pends ask
  clean : ¬ mem.Refills m
  serves : m.Accesses → Serves f fixed mem m

/-- What the data cache leaves of an access. -/
structure DataServed (f : PageMap) (pt : PageTables) (L L' : U64 → Byte) (mem : MemoryState Framework)
    (m : StageRegM) (code : U8) (mem' : MemoryState Framework) : Prop where
  moves : CacheTable.Moves L mem.framework mem'.framework
  sound : pt.Sound mem'.dtlb
  housed : mem'.data_cache.Housed (CacheTable.Within pt.size)
  served : mem'.data_cache.Served L L' mem'.framework.riscv_mem (m.place f) code

section
variable {f : PageMap} {pt : PageTables} {fixed : U64 → Bool} {L : U64 → Byte} {mem mem' : MemoryState Framework}
  {m : StageRegM}

theorem Backs.standsAt (backs : Backs f L mem m) : mem.data_cache.StandsAt L mem.framework.riscv_mem (m.place f) := by
  rcases backs with whole | ⟨-,filling⟩
  · exact .inl whole
  · exact filling

theorem Backs.rests (backs : Backs f L mem m) (rests : ¬ m.Accesses) :
    mem.data_cache.Stands L mem.framework.riscv_mem none :=
  backs.resolve_right fun filling => rests filling.1.1

/-- A new access waits for nothing. -/
theorem DataRests.kept (rests : DataRests pt fixed L mem) (fresh : m.wasStalled = 0) : DataKept f pt fixed L mem m := by
  have start : m.walk_status = 0xFF := if_neg (not_not_intro fresh)
  refine ⟨rests.logical,rests.sound,rests.housed,.inl rests.stands,?_,fun ask waits => ?_⟩
  · rw [start]
    exact PageTables.known_start _ _ _
  · rw [memory_ask_idle start (by rw [fresh]; decide)] at waits
    cases waits

theorem DataKept.rests (kept : DataKept f pt fixed L mem m) (idle : ¬ m.Accesses) : DataRests pt fixed L mem :=
  ⟨kept.logical,kept.sound,kept.housed,kept.backs.rests idle⟩

/-- A walk waits for a read. -/
theorem walk_reads {t : Tlb} {ptbr : U64} {va : U32} {status : U8} {ask : Ask}
    (waits : waiting (t.walk_ask ptbr va status) = some ask) :
    ask.op = .READ := by
  have asked := waiting_some waits
  unfold Tlb.walk_ask at asked
  split at asked
  · exact (congrArg (·.1.op) (Option.some.inj asked)).symm
  split at asked
  · cases asked
  · exact (congrArg (·.1.op) (Option.some.inj asked)).symm

/-- The value of a load that is done. -/
theorem load_value {m₀ m₁ : U64 → Byte} {V : FlatMemory} {value old : U64} {followup available : Bool}
    (params : IsDataCache mem.data_cache) (reflects : f.Reflects m₀ V L) (stands : mem'.data_cache.Stands L m₁ none)
    (aligned : Aligned (m.place f) m.size) (small : m.signExtend = true → m.size = 1 ∨ m.size = 2 ∨ m.size = 4)
    (clear : old.toNat < 2^(8 * m.size.toNat))
    (read : simulator.data_read mem (f.physical (m.address.setWidth 32)) m.size old followup available =
      .ok (0,value,mem')) (a : Machine) (memory : a.memory = V) :
    a.loaded m.address m.size m.signExtend = if m.signExtend then extend_sign m.size value else value := by
  have sizes : m.size.toNat ≤ 4 ∨ m.size = 8 := by
    rcases aligned.1 with size | size | size | size <;> rw [size] <;> decide
  have delivered := data_read_found params sizes read
  have held : ¬ mem'.data_cache.Missing (m.place f) := by
    obtain ⟨cache,framework,ran,rfl⟩ := data_read_moved read
    obtain ⟨-,i,covers,-⟩ := CacheTable.read_access_row params ran
    exact fun missing => missing.free i covers
  have fits : (m.address.setWidth 32 : U32).toNat % 8 + m.size.toNat ≤ 8 := by
    rw [← f.place_mod]
    exact aligned.fits
  rw [reflects.found_eq stands held fits] at delivered
  rw [delivered,(extended_iff small old fun _ past => read_top V _ _ past).mpr (.inl clear),Machine.loaded,memory]

section
variable {locals : CalleeLocals} {w new_w_reg w' : StageRegW} {stored : Option (U64 × U8 × U64)} {status code : U8}
  {physical_address : U32} {mem₁ : MemoryState Framework} (tables : ∀ o, pt.Bytes o → fixed o = true)
  (reads : f.Reads pt) (finds : MemoryFinds f pt fixed mem m) (kept : DataKept f pt fixed L mem m)
include finds kept

include tables reads in
theorem dtlb_kept (access : m.Accesses) (translated : Translates simulator mem locals m status physical_address mem') :
    ∃ tlb framework, mem' = { mem with dtlb := tlb, framework := framework } ∧
      pt.Translated mem.dtlb mem.framework (m.address.setWidth 32) m.walk_status status physical_address tlb framework ∧
      (status = 0xFE ∨ status = 0xFF → physical_address = f.physical (m.address.setWidth 32)) := by
  obtain ⟨tlb,framework,answered,rfl⟩ := dtlb_address_moved translated
  have pends (missed : ¬ (m.walk_status = 0xFF ∧ mem.dtlb.Hit (m.address.setWidth 32))) (ask : Ask)
      (waits : waiting (mem.dtlb.walk_ask pt.ptbr (m.address.setWidth 32) m.walk_status) = some ask) :
      mem.framework.Pends ask := by
    refine finds.pends ask ?_
    rw [← finds.ptbr] at waits
    rw [MemoryState.memory_ask,if_neg (not_not_intro access),if_neg missed]
    exact waits
  have held : pt.Kept mem.framework := ⟨fun o inside => finds.memory o (tables o inside),finds.size,finds.ptbr⟩
  have moved := PageTables.get_address_translated held (.inr finds.stage) (by rw [finds.stage]; exact finds.free)
    pends kept.known
    kept.sound answered
  refine ⟨tlb,framework,rfl,moved,fun finished => ?_⟩
  obtain ⟨hit,rfl⟩ := moved.reached finished
  exact reads.translation_eq moved.sound hit

/-! ### The data cache -/

include reads

omit finds in
theorem data_address_place (hit : mem.dtlb.Hit (m.address.setWidth 32)) : mem.data_address m = m.place f := by
  rw [MemoryState.data_address,reads.translation_eq kept.sound hit]
  rfl

section
variable (access : m.Accesses) (now : m.walk_status = 0xFF ∧ mem.dtlb.Hit (m.address.setWidth 32))
  (missing : mem.data_cache.Missing (m.place f))
include access now missing

/-- The row that an access gives up if it reads its block. -/
theorem fills_clean (fills : m.Fills) : (mem.data_cache.rows (mem.data_cache.givenUp (m.place f))).dirty = false := by
  by_contra dirty
  refine finds.clean ⟨⟨access,fills⟩,now,?_⟩
  rw [MemoryState.given_up,data_address_place reads kept now.2]
  exact ⟨missing,Bool.eq_true_of_not_eq_false dirty⟩

theorem fills_delivers (fills : m.Fills) : mem.framework.Delivers (m.place f) 8 (m.wasStalled == 1) := by
  have serves := finds.serves access
  have inside : (m.place f).toNat / 8 * 8 + 8 ≤ mem.framework.riscv_mem_size.toNat := serves.inside
  have aligned := serves.fills missing fills
  have clean := fills_clean reads finds kept access now missing fills
  have size : mem.framework.riscv_mem_size.toNat ≤ 33554432 := by
    rw [finds.size]
    exact pt.size_le
  refine ⟨.inr finds.stage,
    by rw [finds.stage]; exact finds.free,.inr (.inl rfl),aligned,fun past => ?_,fun polls => finds.pends _ ?_⟩
  · have past : mem.framework.riscv_mem_size.toNat < (m.place f + 8).toNat := past
    rw [BitVec.toNat_add,show (8 : U64).toNat = 8 from rfl] at past
    omega
  · rw [MemoryState.memory_ask,if_neg (not_not_intro access),if_pos now,MemoryState.data_ask,MemoryState.given_up,
      data_address_place reads kept now.2,if_neg (not_not_intro missing),if_neg
      (by rw [clean]; decide),if_pos fills,polls]
    rfl

omit finds in
/-- A store of a whole block that polls, polls for the write of the row it gives up. -/
theorem whole_written (dirty : (mem.data_cache.rows (mem.data_cache.givenUp (m.place f))).dirty = true)
    (polls : (m.wasStalled == 1) = true) : mem.data_cache.Spares L mem.framework.riscv_mem (m.place f) := by
  refine kept.written ⟨mem.data_cache.oldAddress (mem.data_cache.givenUp (m.place f)),8,.WRITE⟩ ?_ rfl
  rw [MemoryState.memory_ask,if_neg (not_not_intro access),if_pos now,MemoryState.data_ask,MemoryState.given_up,
    data_address_place reads kept now.2,if_neg (not_not_intro missing),if_pos dirty,polls]
  rfl

end

include tables

theorem load_served (op : m.readWrite = .memory_read)
    (translated : Translates simulator mem locals m status physical_address mem₁)
    (finished : status = 0xFE ∨ status = 0xFF) {old value : U64}
    (read : simulator.data_read mem₁ physical_address m.size old (m.wasStalled == 1) (status == 0xFE) =
      .ok (code,value,mem')) :
    DataServed f pt L L mem m code mem' := by
  have params : IsDataCache mem.data_cache := kept.housed.params
  obtain ⟨tlb,framework,rfl,moved,placed⟩ := dtlb_kept tables reads finds kept (.inl op) translated
  obtain ⟨cache,framework',ran,rfl⟩ := data_read_moved read
  have inside : CacheTable.Within pt.size (m.place f) := finds.size ▸ (finds.serves (.inl op)).inside
  have ran : mem.data_cache.read_access Framework.port framework (m.place f) (m.size.setWidth 64) old
    (m.wasStalled == 1)
      (status == 0xFE) = .ok (code,value,cache,framework') := by
    rw [placed finished] at ran
    exact ran
  have stands : mem.data_cache.StandsAt L framework.riscv_mem (m.place f) := moved.same.mem ▸ kept.backs.standsAt
  obtain ⟨same,served⟩ := CacheTable.read_served params stands (fun available missing => by
    obtain ⟨⟨-,rfl⟩,now⟩ := moved.hit (by simpa using available)
    exact ⟨fills_clean reads finds kept (.inl op) now missing (.inl op),
      fills_delivers reads finds kept (.inl op) now missing (.inl op)⟩) ran
  refine ⟨CacheTable.moves_same (moved.same.trans same),moved.sound,
    CacheTable.housed_effect kept.housed inside (CacheTable.read_access_effect Framework.port params ran),?_⟩
  rw [← same.mem] at served
  exact served

theorem store_served (op : m.readWrite = .memory_write)
    (translated : Translates simulator mem locals m status physical_address mem₁)
    (finished : status = 0xFE ∨ status = 0xFF)
    (write : simulator.data_write mem₁ physical_address m.value m.size (m.wasStalled == 1) (status == 0xFE) =
      .ok (code,mem')) :
    DataServed f pt L (CacheTable.overwrite L (m.place f) m.value m.size) mem m code mem' := by
  have params : IsDataCache mem.data_cache := kept.housed.params
  have serves := finds.serves (.inr op)
  obtain ⟨tlb,framework,rfl,moved,placed⟩ := dtlb_kept tables reads finds kept (.inr op) translated
  obtain ⟨cache,framework',ran,rfl⟩ := data_write_moved write
  have inside : CacheTable.Within pt.size (m.place f) := finds.size ▸ serves.inside
  have ran : mem.data_cache.write_access Framework.port framework (m.place f) m.value m.size (m.wasStalled == 1)
    (status == 0xFE) =
      .ok (code,cache,framework') := by
    rw [placed finished] at ran
    exact ran
  have stands : mem.data_cache.StandsAt L framework.riscv_mem (m.place f) := moved.same.mem ▸ kept.backs.standsAt
  have housed := CacheTable.housed_effect kept.housed inside (CacheTable.write_access_effect Framework.port params ran)
  by_cases part : m.size = 8
  · have size : framework.riscv_mem_size = pt.size := moved.same.size.trans finds.size
    have fits := serves.aligned.fits
    rw [part] at ran fits ⊢
    obtain ⟨moves,served⟩ := CacheTable.whole_served stands fits (size ▸ kept.housed) (size ▸ pt.size_le)
      (serves.hits op)
      (fun available missing dirty => by
        obtain ⟨⟨-,rfl⟩,now⟩ := moved.hit (by simpa using available)
        exact ⟨⟨finds.stage,finds.free⟩,whole_written reads kept (.inr op) now missing dirty⟩) ran
    exact ⟨(CacheTable.moves_same moved.same).trans moves,moved.sound,housed,served⟩
  · obtain ⟨same,served⟩ := CacheTable.part_served params stands serves.aligned.fits part (serves.hits op)
      (fun available missing => by
        obtain ⟨⟨-,rfl⟩,now⟩ := moved.hit (by simpa using available)
        exact ⟨fills_clean reads finds kept (.inr op) now missing (.inr part),
          fills_delivers reads finds kept (.inr op) now missing (.inr part)⟩) ran
    rw [← same.mem] at served
    exact ⟨CacheTable.moves_same (moved.same.trans same),moved.sound,housed,served⟩

/-! ### The stage -/

omit tables reads finds kept in
/-- A cycle that saves the access, for a stall with the code and the flush given. -/
theorem stalls_saved {taint : U8} {saved : StageRegM} (access : m.Accesses) (set : code ≠ 0)
    (flush : taint = 0 ∨ taint = 1) (effect : saved.effect = m.effect) (pc : saved.pc = m.pc) :
    Stalls m (new_w_reg.stall code taint saved) none :=
  ⟨set,rfl,flush,access,effect,pc,rfl⟩

omit tables reads finds in
theorem DataServed.stalls {L' : U64 → Byte} (served : DataServed f pt L L' mem m code mem') (access : m.Accesses)
    (stall : code ≠ 0) :
    DataKept f pt fixed L mem' (m.missing code) := by
  have waits : (m.missing code).wasStalled ≠ 0 := by
    show (if code = 2 then 2 else 1 : U8) ≠ 0
    split <;> decide
  have start : (m.missing code).walk_status = 0xFF := if_pos waits
  obtain ⟨-,stands,spares⟩ := served.served.resolve_left fun done => stall done.1
  refine ⟨kept.logical,served.sound,served.housed,.inr ⟨⟨access,waits⟩,stands⟩,?_,fun ask polled _ => spares ?_⟩
  · rw [start]
    exact PageTables.known_start _ _ _
  · rintro rfl
    rw [memory_ask_idle start (show (2 : U8) ≠ 1 by decide)] at polled
    cases polled

/-- A walk that goes on. -/
theorem walking_kept (access : m.Accesses) (translated : Translates simulator mem locals m status physical_address mem')
    (unfinished : status ≠ 0xFE ∧ status ≠ 0xFF) :
    mem.framework.SameMemory mem'.framework ∧ DataKept f pt fixed L mem' (m.walking status) := by
  obtain ⟨tlb,framework,rfl,moved,-⟩ := dtlb_kept tables reads finds kept access translated
  refine ⟨moved.same,kept.logical,moved.sound,kept.housed,.inr ⟨⟨access,show (1 : U8) ≠ 0 by decide⟩,?_⟩,
    (moved.walked unfinished.1).1,fun ask polled written => ?_⟩
  · show mem.data_cache.StandsAt L framework.riscv_mem (m.place f)
    rw [moved.same.mem]
    exact kept.backs.standsAt
  · have later : ¬ ((m.walking status).walk_status = 0xFF ∧ tlb.Hit ((m.walking status).address.setWidth 32)) :=
      fun start => unfinished.2 start.1
    rw [MemoryState.memory_ask,if_neg (not_not_intro (show (m.walking status).Accesses from access)),
      if_neg later] at polled
    exact absurd written (by rw [walk_reads polled]; decide)

/-- The M stage saves the access or retires what is in M, and memory gets bytes of `L` at most. -/
theorem accesses_kept (clean : w.tainted_executions = 0)
    (accessed : Accesses simulator mem locals m w new_w_reg (w',stored,mem')) :
    CacheTable.Moves L mem.framework mem'.framework ∧
      (Stalls m w' stored ∧ DataKept f pt fixed L mem' w'.memory_register ∨
        w'.global_memory_stall = 0 ∧ DataRests pt fixed (f.after L stored) mem') := by
  have rested {L' : U64 → Byte} (served : DataServed f pt L L' mem m 0 mem') (logical : ∀ o, fixed o = true →
    L' o = pt.mem o) :
      DataRests pt fixed L' mem' :=
    ⟨logical,served.sound,served.housed,(served.served.resolve_right fun waits => waits.1 rfl).2⟩
  cases accessed with
  | squashes tainted =>
    rw [clean] at tainted
    exact absurd tainted (by decide)
  | forwards _ op =>
    exact ⟨CacheTable.moves_same (Framework.sameMemory_refl _),.inr ⟨rfl,kept.rests (by simp [StageRegM.Accesses,op])⟩⟩
  | idle _ op =>
    exact ⟨CacheTable.moves_same (Framework.sameMemory_refl _),.inr ⟨rfl,kept.rests (by simp [StageRegM.Accesses,op])⟩⟩
  | walks _ code op status physical_address _ translated unfinished =>
    have access : m.Accesses := op.imp (·.1) (·.1)
    have set : code ≠ 0 := by rcases op with ⟨-,rfl⟩ | ⟨-,rfl⟩ <;> decide
    obtain ⟨same,walking⟩ := walking_kept tables reads finds kept access translated unfinished
    exact ⟨CacheTable.moves_same same,.inl ⟨stalls_saved access set (.inr rfl) rfl rfl,walking⟩⟩
  | load_misses _ op status physical_address mem₁ translated finished missed value _ read stall =>
    have set : (if missed = 2 then 4 else 1 : U8) ≠ 0 := by split <;> decide
    have served := load_served tables reads finds kept op translated finished read
    exact ⟨served.moves,.inl ⟨stalls_saved (.inl op) set (.inr rfl) rfl rfl,served.stalls kept (.inl op) stall⟩⟩
  | loads _ op status physical_address mem₁ translated finished value _ read =>
    have served := load_served tables reads finds kept op translated finished read
    exact ⟨served.moves,.inr ⟨rfl,rested served kept.logical⟩⟩
  | store_misses _ op status physical_address mem₁ translated finished missed _ write stall =>
    have set : (if missed = 2 then 5 else 1 : U8) ≠ 0 := by split <;> decide
    have served := store_served tables reads finds kept op translated finished write
    exact ⟨served.moves,.inl ⟨stalls_saved (.inr op) set (.inl rfl) rfl rfl,served.stalls kept (.inr op) stall⟩⟩
  | stores _ op status physical_address mem₁ translated finished _ write =>
    have served := store_served tables reads finds kept op translated finished write
    refine ⟨served.moves,.inr ⟨rfl,rested served fun o here => ?_⟩⟩
    refine (if_neg fun near => ?_).trans (kept.logical o here)
    have near : (o - m.place f).toNat < m.size.toNat := near
    have spared := (finds.serves (.inr op)).spared op _ near
    rw [BitVec.ofNat_toNat,BitVec.setWidth_eq,BitVec.add_comm,BitVec.sub_add_cancel,here] at spared
    cases spared

/-- A load that is done has the value that the bytes have through the map. -/
theorem loads_value {m₀ : U64 → Byte} {V : FlatMemory} (op : m.readWrite = .memory_read)
    (translated : Translates simulator mem locals m status physical_address mem₁)
    (finished : status = 0xFE ∨ status = 0xFF) {old value : U64}
    (read : simulator.data_read mem₁ physical_address m.size old (m.wasStalled == 1) (status == 0xFE) =
      .ok (0,value,mem')) (reflects : f.Reflects m₀ V L) (small : m.signExtend = true → m.size = 1 ∨
      m.size = 2 ∨ m.size = 4)
    (clear : old.toNat < 2^(8 * m.size.toNat)) (a : Machine) (memory : a.memory = V) :
    a.loaded m.address m.size m.signExtend = if m.signExtend then extend_sign m.size value else value := by
  have served := load_served tables reads finds kept op translated finished read
  have stands := (served.served.resolve_right fun waits => waits.1 rfl).2
  obtain ⟨tlb,framework,rfl,-,placed⟩ := dtlb_kept tables reads finds kept (.inl op) translated
  rw [placed finished] at read
  have params : IsDataCache ({ mem with dtlb := tlb, framework := framework } : MemoryState Framework).data_cache :=
    kept.housed.params
  exact load_value params reflects stands (finds.serves (.inl op)).aligned small clear read a memory

end
end
end RiscvSim
