import RiscvSim.CacheAddress
import RiscvSim.Runs

/-!
What an access does to the rows of the data cache, for any behaviour of memory. One
access changes at most one row, which is of the set of its address; it changes the row's
block only when it completes a miss. From this follows that a block is resident at most
once, over any run. The subscripts stay inside the allocation except in one case, a
partial write that misses a set with a dirty first and a clean second way.
-/
namespace RiscvSim
open Bytes Runs

/-- One call of `read_access` or `write_access`, with the object behind `value`. -/
inductive Access where
  | read (value : U64)
  | write (data : U64)

structure Call where
  access : Access
  address : U64
  size : U8
  is_followup : Bool
  memory_read_available : Bool

/-- A naturally aligned access of 1, 2, 4 or 8 bytes. -/
def Aligned (a : U64) (size : U8) : Prop := (size = 1 ∨ size = 2 ∨ size = 4 ∨ size = 8) ∧ a.toNat % size.toNat = 0

instance (a : U64) (size : U8) : Decidable (Aligned a size) := inferInstanceAs (Decidable (_ ∧ _))

theorem Aligned.positive {a : U64} {size : U8} (aligned : Aligned a size) : 0 < size.toNat := by
  rcases aligned.1 with rfl | rfl | rfl | rfl <;> decide
/-- It stays in its block. -/
theorem Aligned.fits {a : U64} {size : U8} (aligned : Aligned a size) : a.toNat % 8 + size.toNat ≤ 8 := by
  obtain ⟨sizes,aligned⟩ := aligned
  rcases sizes with rfl | rfl | rfl | rfl <;> simp at aligned ⊢ <;> omega
/-- So do the words that a read of it takes. -/
theorem Aligned.words_fit {a : U64} {size : U8} (aligned : Aligned a size) :
    4 * (a.toNat % 8 / 4) + CacheRow.hit_bytes (size.setWidth 64) ≤ 8 := by
  obtain ⟨sizes,aligned⟩ := aligned
  rcases sizes with rfl | rfl | rfl | rfl <;> simp [CacheRow.hit_bytes] at aligned ⊢ <;> omega

namespace CacheTable
variable {σ : Type} (port : MemoryPort σ)

/-- The code returned and the object behind `value` after the call. -/
def call (cache : CacheTable) (mem : σ) (c : Call) : Except Abort (U8 × U64 × CacheTable × σ) :=
  match c.access with
  | .read value =>
    cache.read_access port mem c.address (c.size.setWidth 64) value c.is_followup c.memory_read_available
  | .write data => do
    let (code,cache,mem) ← cache.write_access port mem c.address data c.size c.is_followup c.memory_read_available
    return (code,data,cache,mem)

/-- A call followed by what memory does until the next one. -/
def cycle (next : σ → σ) (s : CacheTable × σ) (c : Call) : Except Abort (CacheTable × σ) := do
  let (_,_,cache,mem) ← s.1.call port s.2 c
  return (cache,next mem)

/-! ### Rows -/

@[simp] theorem setRow_same (cache : CacheTable) (i : U64) (r : CacheRow) : (cache.setRow i r).rows i = r := by
  simp [setRow]
theorem setRow_other (cache : CacheTable) {i j : U64} (r : CacheRow) (other : j ≠ i) :
    (cache.setRow i r).rows j = cache.rows j := by
  simp [setRow,other]
@[simp] theorem setRow_setRow (cache : CacheTable) (i : U64) (r r' : CacheRow) :
    (cache.setRow i r).setRow i r' = cache.setRow i r' := by
  simp only [setRow,mk.injEq,true_and]
  funext j
  split <;> rfl
@[simp] theorem setRow_self (cache : CacheTable) (i : U64) : cache.setRow i (cache.rows i) = cache := by
  cases cache
  simp only [setRow,mk.injEq,true_and]
  funext j
  split <;> simp_all
@[simp] theorem setRow_num_rows (cache : CacheTable) (i : U64) (r : CacheRow) :
    (cache.setRow i r).num_rows = cache.num_rows := rfl
@[simp] theorem setRow_num_blocks (cache : CacheTable) (i : U64) (r : CacheRow) :
    (cache.setRow i r).num_blocks = cache.num_blocks := rfl
@[simp] theorem setRow_cache_type (cache : CacheTable) (i : U64) (r : CacheRow) :
    (cache.setRow i r).cache_type = cache.cache_type := rfl
@[simp] theorem setRow_fieldTag (cache : CacheTable) (i tag : U64) (r : CacheRow) :
    (cache.setRow i r).fieldTag tag = cache.fieldTag tag := rfl
@[simp] theorem setRow_indexOf (cache : CacheTable) (i a : U64) (r : CacheRow) :
    (cache.setRow i r).indexOf a = cache.indexOf a := rfl
@[simp] theorem setRow_tagOf (cache : CacheTable) (i a : U64) (r : CacheRow) :
    (cache.setRow i r).tagOf a = cache.tagOf a := rfl

theorem row_ok {cache : CacheTable} {i : U64} {r : CacheRow} :
    cache.row i = .ok r ↔ i.toNat < cache.num_rows ∧ cache.rows i = r := by
  unfold row
  split <;> simp_all
theorem row_inside {cache : CacheTable} {i : U64} (inside : i.toNat < cache.num_rows) :
    cache.row i = .ok (cache.rows i) := by
  simp [row,inside]
theorem row_setRow {cache : CacheTable} {i : U64} {r : CacheRow} (inside : i.toNat < cache.num_rows) :
    (cache.setRow i r).row i = .ok r := by
  rw [row_inside (by simpa using inside),setRow_same]
theorem row_outside {cache : CacheTable} {i : U64} (outside : ¬ i.toNat < cache.num_rows) :
    cache.row i = .error .rows_subscript := by
  simp [row,outside]

/-- The same block, valid or not, and not made dirty: what a row keeps until a miss is
    completed in it. -/
structure SameBlock (r r' : CacheRow) : Prop where
  tag : r'.tag = r.tag
  valid : r'.valid = r.valid
  dirty : r'.dirty = true → r.dirty = true

theorem sameBlock_refl (r : CacheRow) : SameBlock r r := ⟨rfl,rfl,id⟩
theorem SameBlock.trans {r r' r'' : CacheRow} (same : SameBlock r r') (later : SameBlock r' r'') : SameBlock r r'' :=
  ⟨later.tag.trans same.tag,later.valid.trans same.valid,same.dirty ∘ later.dirty⟩

theorem clean_row_effect {cache cache' : CacheTable} {mem mem' : σ} {i : U64} {followup written : Bool}
    (ran : cache.clean_row port mem i followup = .ok (written,cache',mem')) :
    ∃ r, cache' = cache.setRow i r ∧ SameBlock (cache.rows i) r := by
  obtain ⟨row,inside,rest⟩ := bind_ok.mp ran
  obtain ⟨bound,rfl⟩ := row_ok.mp inside
  split at rest
  · obtain ⟨row,inside,rest⟩ := bind_ok.mp rest
    obtain ⟨_,rfl⟩ := row_ok.mp inside
    obtain ⟨⟨done,after⟩,_,rest⟩ := bind_ok.mp rest
    cases rest
    cases written with
    | true => exact ⟨_,rfl,rfl,rfl,nofun⟩
    | false => exact ⟨cache.rows i,by simp,sameBlock_refl _⟩
  · cases rest
    exact ⟨cache.rows i,by simp,sameBlock_refl _⟩

theorem fill_row_effect {cache cache' : CacheTable} {mem mem' : σ} {a i : U64} {followup done : Bool}
    (ran : cache.fill_row port mem a i followup = .ok (done,cache',mem')) :
    ∃ r, cache' = cache.setRow i r ∧ SameBlock (cache.rows i) r := by
  obtain ⟨row,inside,rest⟩ := bind_ok.mp ran
  obtain ⟨_,rfl⟩ := row_ok.mp inside
  obtain ⟨⟨_,data,after⟩,_,rest⟩ := bind_ok.mp rest
  cases rest
  exact ⟨_,rfl,rfl,rfl,id⟩

/-- `evict_read` touches its victim only, and gives it the new block exactly if it does
    not stall. -/
theorem evict_read_effect {cache cache' : CacheTable} {mem mem' : σ} {a index i tag : U64} {followup : Bool}
    {found : Option U64} (chosen : cache.victim index = .ok i)
    (ran : cache.evict_read port mem a index tag followup = .ok (found,cache',mem')) :
    ∃ r, cache' = cache.setRow i r ∧
      ((found = none ∧ SameBlock (cache.rows i) r) ∨
        (found = some i ∧ r.tag = cache.fieldTag tag ∧ r.valid = true)) := by
  unfold evict_read at ran
  rw [chosen,ok_bind] at ran
  obtain ⟨⟨written,cache₁,mem₁⟩,cleaned,rest⟩ := bind_ok.mp ran
  obtain ⟨r₁,rfl,same₁⟩ := clean_row_effect port cleaned
  simp only at rest
  split at rest
  · cases rest
    exact ⟨r₁,rfl,.inl ⟨rfl,same₁⟩⟩
  · obtain ⟨⟨done,cache₂,mem₂⟩,filled,rest⟩ := bind_ok.mp rest
    obtain ⟨r₂,rfl,same₂⟩ := fill_row_effect port filled
    rw [setRow_same] at same₂
    simp only at rest
    split at rest
    · cases rest
      exact ⟨r₂,by simp,.inl ⟨rfl,same₁.trans same₂⟩⟩
    · obtain ⟨row,_,rest⟩ := bind_ok.mp rest
      cases rest
      exact ⟨_,by simp; rfl,.inr ⟨rfl,rfl,rfl⟩⟩

/-- The row a missing write goes to is the victim of `evict_write`, provided a second
    choice of a victim falls on the same row. -/
theorem write_row_effect {cache cache' : CacheTable} {mem mem' : σ} {a i tag : U64} {size : U8}
    {followup available : Bool} {found : U8 ⊕ U64}
    (again : ∀ j, cache.victim i = .ok j → j = i)
    (ran : cache.write_row port mem a i tag size followup available = .ok (found,cache',mem')) :
    ∃ r, cache' = cache.setRow i r ∧
      ((∃ code, found = .inl code ∧ code ≠ 0 ∧ SameBlock (cache.rows i) r) ∨ found = .inr i) := by
  unfold write_row at ran
  split at ran
  · split at ran
    · cases ran
      exact ⟨cache.rows i,by simp,.inl ⟨2,rfl,by decide,sameBlock_refl _⟩⟩
    · obtain ⟨⟨victim,cache₁,mem₁⟩,evicted,rest⟩ := bind_ok.mp ran
      have chosen : cache.victim i = .ok i := by
        obtain ⟨j,choice,_⟩ := bind_ok.mp evicted
        rw [choice,again j choice]
      obtain ⟨r,rfl,⟨rfl,same⟩ | ⟨rfl,_,_⟩⟩ := evict_read_effect port chosen evicted
      · cases rest
        exact ⟨r,rfl,.inl ⟨1,rfl,by decide,same⟩⟩
      · cases rest
        exact ⟨r,rfl,.inr rfl⟩
  · obtain ⟨row,_,rest⟩ := bind_ok.mp ran
    split at rest
    · cases rest
      exact ⟨cache.rows i,by simp,.inl ⟨2,rfl,by decide,sameBlock_refl _⟩⟩
    · obtain ⟨⟨written,cache₁,mem₁⟩,cleaned,rest⟩ := bind_ok.mp rest
      obtain ⟨r,rfl,same⟩ := clean_row_effect port cleaned
      cases rest
      refine ⟨r,rfl,?_⟩
      cases written with
      | true => exact .inr rfl
      | false => exact .inl ⟨1,rfl,by decide,same⟩

theorem evict_write_effect {cache cache' : CacheTable} {mem mem' : σ} {a index i tag data sub : U64} {size : U8}
    {followup available : Bool} {code : U8} (type : cache.cache_type = .DATA)
    (chosen : cache.victim index = .ok i) (again : ∀ j, cache.victim i = .ok j → j = i)
    (ran : cache.evict_write port mem a index tag data sub size followup available = .ok (code,cache',mem')) :
    ∃ r, cache' = cache.setRow i r ∧
      ((code ≠ 0 ∧ SameBlock (cache.rows i) r) ∨ (code = 0 ∧ r.tag = cache.fieldTag tag ∧ r.valid = true)) := by
  unfold evict_write at ran
  rw [if_neg (not_not_intro type),chosen,ok_bind] at ran
  obtain ⟨⟨found,cache₁,mem₁⟩,placed,rest⟩ := bind_ok.mp ran
  obtain ⟨r,rfl,⟨c,rfl,stall,same⟩ | rfl⟩ := write_row_effect port again placed
  · cases rest
    exact ⟨r,rfl,.inl ⟨stall,same⟩⟩
  · obtain ⟨row,_,rest⟩ := bind_ok.mp rest
    cases rest
    exact ⟨_,by simp; rfl,.inr ⟨rfl,rfl,rfl⟩⟩

/-! ### The two ways of a set -/

section
variable {cache : CacheTable} (params : IsDataCache cache)
include params

theorem num_rows_data : cache.num_rows = 4096 := by
  simp [num_rows,params.type,params.blocks]

theorem second_toNat {i : U64} (first : i.toNat < 2048) : (i + cache.num_blocks).toNat = i.toNat + 2048 := by
  rw [params.blocks,BitVec.toNat_add,show (2048 : U64).toNat = 2048 from rfl]
  omega
theorem second_ne {i j : U64} (first : i.toNat < 2048) (other : j.toNat < 2048) : i ≠ j + cache.num_blocks := by
  intro same
  have values := congrArg BitVec.toNat same
  rw [second_toNat params other] at values
  omega
theorem second_inj {i j : U64} (first : i.toNat < 2048) (other : j.toNat < 2048)
    (same : i + cache.num_blocks = j + cache.num_blocks) : i = j := by
  have values := congrArg BitVec.toNat same
  rw [second_toNat params first,second_toNat params other] at values
  exact BitVec.eq_of_toNat_eq (by omega)

theorem row_first {i : U64} (first : i.toNat < 2048) : cache.row i = .ok (cache.rows i) :=
  row_inside (by rw [num_rows_data params]; omega)
theorem row_second {i : U64} (first : i.toNat < 2048) :
    cache.row (i + cache.num_blocks) = .ok (cache.rows (i + cache.num_blocks)) :=
  row_inside (by rw [num_rows_data params,second_toNat params first]; omega)

end

/-- The way-selection rule on the two rows of a set. -/
def prefersSecond (cache : CacheTable) (i : U64) : Bool :=
  (cache.rows i).valid && (!(cache.rows (i + cache.num_blocks)).valid ||
    ((cache.rows i).dirty && !(cache.rows (i + cache.num_blocks)).dirty))
/-- The row of the set that the rule gives up. -/
def victimOf (cache : CacheTable) (i : U64) : U64 := if cache.prefersSecond i then i + cache.num_blocks else i
/-- The row that a miss of the address gives up. -/
def givenUp (cache : CacheTable) (a : U64) : U64 := cache.victimOf (cache.indexOf a)

section
variable {cache : CacheTable} (params : IsDataCache cache)
include params

theorem victim_first {i : U64} (first : i.toNat < 2048) : cache.victim i = .ok (cache.victimOf i) := by
  simp only [victim,params.type,second_way,row_first params first,row_second params first,ok_bind,pure_eq]
  cases valid : (cache.rows i).valid <;> simp [victimOf,prefersSecond,valid]

/-- From the second way the rule looks for a third: it keeps an invalid row, and
    subscripts past the allocation otherwise. -/
theorem victim_second {i : U64} (first : i.toNat < 2048) :
    cache.victim (i + cache.num_blocks) =
      if (cache.rows (i + cache.num_blocks)).valid then .error .rows_subscript
      else .ok (i + cache.num_blocks) := by
  have outside : cache.row (i + cache.num_blocks + cache.num_blocks) = .error .rows_subscript := by
    apply row_outside
    rw [num_rows_data params,BitVec.toNat_add,second_toNat params first,params.blocks]
    simp
    omega
  simp only [victim,params.type,second_way,row_second params first,outside,ok_bind,pure_eq]
  cases valid : (cache.rows (i + cache.num_blocks)).valid <;> simp

theorem victim_again {i : U64} (first : i.toNat < 2048) (j : U64)
    (choice : cache.victim (cache.victimOf i) = .ok j) : j = cache.victimOf i := by
  by_cases second : cache.prefersSecond i
  · have chosen : cache.victimOf i = i + cache.num_blocks := if_pos second
    rw [chosen,victim_second params first] at choice
    split at choice
    · cases choice
    · cases choice; exact chosen.symm
  · have chosen : cache.victimOf i = i := if_neg second
    rw [chosen,victim_first params first,chosen] at choice
    cases choice; exact chosen.symm

end

/-- The rule never gives up a dirty row of the second way, if dirty rows are valid. -/
theorem victim_dirty_first {cache : CacheTable} (sound : ∀ i, (cache.rows i).dirty = true → (cache.rows i).valid = true)
    {i : U64} (first : i.toNat < 2048) (dirty : (cache.rows (cache.victimOf i)).dirty = true) :
    (cache.victimOf i).toNat < 2048 := by
  unfold victimOf at dirty ⊢
  split at dirty
  · rename_i second
    have valid := sound _ dirty
    simp [prefersSecond,valid,dirty] at second
  · rename_i kept
    rw [if_neg kept]
    exact first

/-- The row holds the block of the address, if it is of its set. -/
def Holds (cache : CacheTable) (i a : U64) : Prop := (cache.rows i).valid = true ∧ (cache.rows i).tag = cache.tagOf a

instance (cache : CacheTable) (i a : U64) : Decidable (cache.Holds i a) := inferInstanceAs (Decidable (_ ∧ _))

/-- The effect of a call that does not abort: a hit changes no block of the set, and a
    miss changes that of the victim exactly if the call returns 0. -/
inductive Effect (cache cache' : CacheTable) (a : U64) (code : U8) : Prop where
  | hit (held : cache.Holds (cache.indexOf a) a ∨ cache.Holds (cache.indexOf a + cache.num_blocks) a) (r : CacheRow)
      (same : SameBlock (cache.rows (cache.indexOf a)) r) (done : code = 0)
      (after : cache' = cache.setRow (cache.indexOf a) r)
  | stall (r : CacheRow) (same : SameBlock (cache.rows (cache.victimOf (cache.indexOf a))) r) (stalled : code ≠ 0)
      (after : cache' = cache.setRow (cache.victimOf (cache.indexOf a)) r)
  | miss (first : ¬ cache.Holds (cache.indexOf a) a) (second : ¬ cache.Holds (cache.indexOf a + cache.num_blocks) a)
      (r : CacheRow) (tag : r.tag = cache.tagOf a) (valid : r.valid = true) (done : code = 0)
      (after : cache' = cache.setRow (cache.victimOf (cache.indexOf a)) r)

theorem effect_params {cache cache' : CacheTable} (params : IsDataCache cache) {a : U64} {code : U8}
    (effect : Effect cache cache' a code) : IsDataCache cache' := by
  cases effect with
  | hit _ r _ _ after => exact after ▸ isDataCache_setRow params _ r
  | stall r _ _ after => exact after ▸ isDataCache_setRow params _ r
  | miss _ _ r _ _ _ after => exact after ▸ isDataCache_setRow params _ r

/-- `lookup` in the two ways of the set. -/
theorem lookup_data {cache : CacheTable} (params : IsDataCache cache) (a : U64) (sub : Nat) (size : U64) :
    cache.lookup (cache.indexOf a) (cache.tagOf a) sub size = .ok
      (if cache.Holds (cache.indexOf a) a then some (cache.rows (cache.indexOf a))
       else if cache.Holds (cache.indexOf a + cache.num_blocks) a then
        some (cache.rows (cache.indexOf a + cache.num_blocks)) else none) := by
  have bound := index_lt params a
  simp only [lookup,row_first params bound,row_second params bound,params.type,ok_bind,pure_eq]
  by_cases first : cache.Holds (cache.indexOf a) a
  · rw [if_pos first]
    exact if_pos first
  · rw [if_neg first]
    exact if_neg first

theorem read_access_effect {cache cache' : CacheTable} (params : IsDataCache cache) {mem mem' : σ}
    {a size value value' : U64} {followup available : Bool} {code : U8}
    (ran : cache.read_access port mem a size value followup available = .ok (code,value',cache',mem')) :
    Effect cache cache' a code := by
  unfold read_access at ran
  split at ran
  · cases ran
  · obtain ⟨⟨found,cache₁,mem₁⟩,rowRead,rest⟩ := bind_ok.mp ran
    rw [read_row,lookup_data params,ok_bind] at rowRead
    -- the result of the lookup decides between hit and miss
    by_cases first : cache.Holds (cache.indexOf a) a
    · rw [if_pos first] at rowRead
      cases rowRead
      simp only at rest
      split at rest
      · cases rest
      split at rest
      · cases rest
        exact .hit (.inl first) _ (sameBlock_refl _) rfl (by simp)
      · cases rest
    · by_cases second : cache.Holds (cache.indexOf a + cache.num_blocks) a
      · rw [if_neg first,if_pos second] at rowRead
        cases rowRead
        simp only at rest
        split at rest
        · cases rest
        split at rest
        · cases rest
          exact .hit (.inr second) _ (sameBlock_refl _) rfl (by simp)
        · cases rest
      · rw [if_neg first,if_neg second] at rowRead
        simp only at rowRead
        split at rowRead
        · cases rowRead; cases rest
          exact .stall _ (sameBlock_refl _) (by decide) (by simp)
        · obtain ⟨⟨victim,cache₂,mem₂⟩,evicted,rowRead⟩ := bind_ok.mp rowRead
          obtain ⟨r,rfl,⟨rfl,same⟩ | ⟨rfl,tag,valid⟩⟩ :=
            evict_read_effect port (victim_first params (index_lt params a)) evicted
          · cases rowRead; cases rest
            exact .stall r same (by decide) rfl
          · obtain ⟨row,_,rowRead⟩ := bind_ok.mp rowRead
            cases rowRead
            simp only at rest
            split at rest
            · cases rest
            split at rest
            · cases rest
              exact .miss first second r (tag.trans (tag_stored params.splits a)) valid rfl rfl
            · cases rest

theorem write_inside {cache : CacheTable} (params : IsDataCache cache) {a : U64} {size : U8}
    (aligned : Aligned a size) :
    ¬ cache.cache_type.Overrun (cache.subindexOf a).toNat size.toNat := by
  rw [CacheType.Overrun,params.type,subindexOf_toNat params]
  exact Nat.not_lt.mpr aligned.fits
theorem read_inside {cache : CacheTable} (params : IsDataCache cache) {a : U64} {size : U8} (aligned : Aligned a size) :
    ¬ cache.cache_type.Overrun (4 * (cache.subindexOf a >>> 2).toNat) (CacheRow.hit_bytes (size.setWidth 64)) := by
  rw [CacheType.Overrun,params.type,subindexOf_word params]
  exact Nat.not_lt.mpr aligned.words_fit

/-- A hit stores inside the data of the row. -/
theorem store_hit_ok {cache cache' : CacheTable} {mem mem' : σ} {index sub data : U64} {row : CacheRow} {size code : U8}
    (ran : cache.store_hit mem index row sub data size = .ok (code,cache',mem')) :
    ¬ cache.cache_type.Overrun sub.toNat size.toNat ∧ code = 0 ∧ cache' = cache.setRow index (row.store sub data size) ∧
    mem' = mem := by
  unfold store_hit at ran
  split at ran
  · cases ran
  · rename_i inside
    cases ran
    exact ⟨inside,rfl,rfl,rfl⟩

theorem store_hit_inside {cache : CacheTable} {sub : U64} {size : U8}
    (inside : ¬ cache.cache_type.Overrun sub.toNat size.toNat) (mem : σ) (index data : U64) (row : CacheRow) :
    cache.store_hit mem index row sub data size = .ok (0,cache.setRow index (row.store sub data size),mem) :=
    if_neg inside

/-- `write_access` in the two ways of the set. -/
theorem write_access_data {cache : CacheTable} (params : IsDataCache cache) (mem : σ) (a data : U64) (size : U8)
    (followup available : Bool) :
    cache.write_access port mem a data size followup available =
      if cache.Holds (cache.indexOf a) a ∨ cache.Holds (cache.indexOf a + cache.num_blocks) a then
        cache.store_hit mem (cache.indexOf a) (cache.rows (cache.indexOf a)) (cache.subindexOf a) data size
      else cache.evict_write port mem a (cache.indexOf a) (cache.tagOf a) data (cache.subindexOf a) size
        followup available := by
  have bound := index_lt params a
  unfold write_access
  rw [if_neg (not_not_intro params.type)]
  simp only [row_first params bound,row_second params bound,ok_bind]
  by_cases first : cache.Holds (cache.indexOf a) a
  · rw [if_pos (Or.inl (b := cache.Holds (cache.indexOf a + cache.num_blocks) a) first)]
    exact if_pos first
  · by_cases second : cache.Holds (cache.indexOf a + cache.num_blocks) a
    · rw [if_pos (Or.inr (a := cache.Holds (cache.indexOf a) a) second)]
      exact (if_neg first).trans (if_pos second)
    · rw [if_neg (not_or_intro first second)]
      exact (if_neg first).trans (if_neg second)

theorem write_access_effect {cache cache' : CacheTable} (params : IsDataCache cache) {mem mem' : σ}
    {a data : U64} {size : U8} {followup available : Bool} {code : U8}
    (ran : cache.write_access port mem a data size followup available = .ok (code,cache',mem')) :
    Effect cache cache' a code := by
  have bound := index_lt params a
  rw [write_access_data port params] at ran
  split at ran
  · rename_i held
    obtain ⟨-,rfl,rfl,rfl⟩ := store_hit_ok ran
    refine .hit held _ ?_ rfl rfl
    exact ⟨rfl,rfl,id⟩
  · rename_i missed
    obtain ⟨first,second⟩ := not_or.mp missed
    obtain ⟨r,rfl,⟨stalled,same⟩ | ⟨rfl,tag,valid⟩⟩ :=
      evict_write_effect port params.type (victim_first params bound) (victim_again params bound) ran
    · exact .stall r same stalled rfl
    · exact .miss first second r (tag.trans (tag_stored params.splits a)) valid rfl rfl

theorem call_effect {cache cache' : CacheTable} (params : IsDataCache cache) {mem mem' : σ} {c : Call}
    {code : U8} {value : U64} (ran : cache.call port mem c = .ok (code,value,cache',mem')) :
    Effect cache cache' c.address code := by
  unfold call at ran
  split at ran
  · exact read_access_effect port params ran
  · obtain ⟨⟨_,_,_⟩,written,rest⟩ := bind_ok.mp ran
    cases rest
    exact write_access_effect port params written

/-! ### A block is resident at most once -/

/-- No set has both ways valid with equal tags. -/
def Unique (cache : CacheTable) : Prop :=
  ∀ i : U64, i.toNat < cache.num_blocks.toNat →
    ¬ ((cache.rows i).valid = true ∧ (cache.rows (i + cache.num_blocks)).valid = true ∧
      (cache.rows i).tag = (cache.rows (i + cache.num_blocks)).tag)
/-- The block of the address is valid in exactly one way of its set. -/
def HeldOnce (cache : CacheTable) (a : U64) : Prop :=
  (cache.Holds (cache.indexOf a) a ∧ ¬ cache.Holds (cache.indexOf a + cache.num_blocks) a) ∨
    (¬ cache.Holds (cache.indexOf a) a ∧ cache.Holds (cache.indexOf a + cache.num_blocks) a)

theorem unique_construct : Unique (construct_cache 2048 .DATA) := by
  rintro i _ ⟨valid,_⟩
  cases valid

theorem victimOf_cases (cache : CacheTable) (i : U64) :
    cache.victimOf i = i ∨ cache.victimOf i = i + cache.num_blocks := by
  unfold victimOf
  split
  · exact .inr rfl
  · exact .inl rfl

/-- A row whose block stays the same keeps the blocks of all sets apart. -/
theorem unique_same {cache : CacheTable} {j : U64} {r : CacheRow} (unique : cache.Unique)
    (same : SameBlock (cache.rows j) r) : (cache.setRow j r).Unique := by
  have block : ∀ i, SameBlock (cache.rows i) ((cache.setRow j r).rows i) := by
    intro i
    by_cases here : i = j
    · subst here; simpa using same
    · rw [setRow_other _ _ here]; exact sameBlock_refl _
  intro i inside
  rw [setRow_num_blocks,(block i).1,(block i).2,(block _).1,(block _).2]
  exact unique i inside

/-- The victim of a miss takes a block that no row of its set holds. -/
theorem unique_miss {cache : CacheTable} (params : IsDataCache cache) {a : U64} {r : CacheRow} (unique : cache.Unique)
    (first : ¬ cache.Holds (cache.indexOf a) a) (second : ¬ cache.Holds (cache.indexOf a + cache.num_blocks) a)
    (tag : r.tag = cache.tagOf a) : (cache.setRow (cache.victimOf (cache.indexOf a)) r).Unique := by
  have bound := index_lt params a
  intro i inside
  have inside : i.toNat < 2048 := by rw [setRow_num_blocks,params.blocks] at inside; exact inside
  rw [setRow_num_blocks]
  rcases victimOf_cases cache (cache.indexOf a) with chosen | chosen
  · rw [chosen,setRow_other (i := cache.indexOf a) _ _ (second_ne params bound inside).symm]
    by_cases here : i = cache.indexOf a
    · subst here
      rw [setRow_same]
      rintro ⟨_,valid,same⟩
      exact second ⟨valid,same.symm.trans tag⟩
    · rw [setRow_other _ _ here]
      exact unique i (by rw [params.blocks]; exact inside)
  · rw [chosen,setRow_other (j := i) _ _ (second_ne params inside bound)]
    by_cases here : i = cache.indexOf a
    · subst here
      rw [setRow_same]
      rintro ⟨valid,_,same⟩
      exact first ⟨valid,same.trans tag⟩
    · rw [setRow_other _ _ (fun same => here (second_inj params inside bound same))]
      exact unique i (by rw [params.blocks]; exact inside)

theorem unique_effect {cache cache' : CacheTable} (params : IsDataCache cache) {a : U64} {code : U8}
    (unique : cache.Unique) (effect : Effect cache cache' a code) : IsDataCache cache' ∧ cache'.Unique := by
  refine ⟨effect_params params effect,?_⟩
  cases effect with
  | hit _ r same _ after => exact after ▸ unique_same unique same
  | stall r same _ after => exact after ▸ unique_same unique same
  | miss first second r tag _ _ after => exact after ▸ unique_miss params unique first second tag

/-- Two rows of a set with different blocks cannot both hold the block of an address. -/
theorem heldOnce_of_unique {cache : CacheTable} (params : IsDataCache cache) {a : U64} (unique : cache.Unique)
    (held : cache.Holds (cache.indexOf a) a ∨ cache.Holds (cache.indexOf a + cache.num_blocks) a) :
    cache.HeldOnce a := by
  have apart : ¬ (cache.Holds (cache.indexOf a) a ∧ cache.Holds (cache.indexOf a + cache.num_blocks) a) := by
    rintro ⟨⟨valid,tag⟩,⟨valid',tag'⟩⟩
    exact unique (cache.indexOf a) (by rw [params.blocks]; exact index_lt params a) ⟨valid,valid',tag.trans tag'.symm⟩
  unfold HeldOnce
  tauto

theorem held_effect {cache cache' : CacheTable} {a : U64} {code : U8}
    (effect : Effect cache cache' a code) (zero : code = 0) :
    cache'.Holds (cache'.indexOf a) a ∨ cache'.Holds (cache'.indexOf a + cache'.num_blocks) a := by
  cases effect with
  | hit held r same _ after =>
    subst after
    simp only [setRow_indexOf,setRow_num_blocks]
    have kept : ∀ i, cache.Holds i a → (cache.setRow (cache.indexOf a) r).Holds i a := by
      intro i ⟨valid,tag⟩
      by_cases here : i = cache.indexOf a
      · subst here
        exact ⟨by rw [setRow_same,same.valid]; exact valid,by rw [setRow_same,same.tag]; exact tag⟩
      · exact ⟨by rw [setRow_other _ _ here]; exact valid,by rw [setRow_other _ _ here]; exact tag⟩
    exact held.imp (kept _) (kept _)
  | stall _ _ stalled _ => exact absurd zero stalled
  | miss _ _ r tag valid _ after =>
    subst after
    simp only [setRow_indexOf,setRow_num_blocks]
    rcases victimOf_cases cache (cache.indexOf a) with chosen | chosen
    · exact .inl ⟨by rw [chosen,setRow_same]; exact valid,by rw [chosen,setRow_same]; exact tag⟩
    · exact .inr ⟨by rw [chosen,setRow_same]; exact valid,by rw [chosen,setRow_same]; exact tag⟩

theorem run_unique (next : σ → σ) {mem : σ} {calls : List Call} {s : CacheTable × σ}
    (ran : run (cycle port next) (construct_cache 2048 .DATA,mem) calls = .ok s) : IsDataCache s.1 ∧ s.1.Unique := by
  apply run_invariant (fun s : CacheTable × σ => IsDataCache s.1 ∧ s.1.Unique) _ _ ran
  · rintro s c s' ⟨params,unique⟩ stepped
    obtain ⟨⟨code,value,cache',mem'⟩,called,rest⟩ := bind_ok.mp stepped
    cases rest
    exact unique_effect params unique (call_effect port params called)
  · exact ⟨isDataCache_construct,unique_construct⟩

/-- After any calls on a zeroed data cache, for any behaviour of memory, no block is
    resident twice; a call that returns 0 leaves its block in exactly one way. -/
theorem block_resident_once (next : σ → σ) {mem : σ} {calls : List Call} {c : Call} {s : CacheTable × σ}
    {code : U8} {value : U64} {cache' : CacheTable} {mem' : σ}
    (ran : run (cycle port next) (construct_cache 2048 .DATA,mem) calls = .ok s)
    (called : s.1.call port s.2 c = .ok (code,value,cache',mem')) :
    s.1.Unique ∧ cache'.Unique ∧ (code = 0 → cache'.HeldOnce c.address) := by
  obtain ⟨params,unique⟩ := run_unique port next ran
  have effect := call_effect port params called
  obtain ⟨params',unique'⟩ := unique_effect params unique effect
  exact ⟨unique,unique',fun zero => heldOnce_of_unique params' unique' (held_effect effect zero)⟩

/-- Memory without latency, every byte 7. -/
def sevens : Framework := (Framework.initial (fun _ => 7) 0 0 0).enter .M

theorem block_resident_once_fills :
    ∃ s r, run (cycle Framework.port Framework.end_cycle) (construct_cache 2048 .DATA,sevens)
        [⟨.write 5,0,8,false,true⟩,⟨.read 0,0x4000,4,false,true⟩] = .ok s ∧
      s.1.call Framework.port s.2 ⟨.read 0,0x8000,8,false,true⟩ = .ok r ∧ r.1 = 0 ∧
      s.1.Unique ∧ r.2.2.1.Unique ∧ (r.1 = 0 → r.2.2.1.HeldOnce 0x8000) := by
  have evaluated : okAnd (run (cycle Framework.port Framework.end_cycle) (construct_cache 2048 .DATA,sevens)
      [⟨.write 5,0,8,false,true⟩,⟨.read 0,0x4000,4,false,true⟩]) (fun s =>
        okAnd (s.1.call Framework.port s.2 ⟨.read 0,0x8000,8,false,true⟩) (fun r => r.1 == 0)) = true := by
    decide +kernel
  obtain ⟨s,ran,evaluated⟩ := okAnd_iff.mp evaluated
  obtain ⟨⟨code,value,cache',mem'⟩,called,zero⟩ := okAnd_iff.mp evaluated
  have once := block_resident_once Framework.port Framework.end_cycle ran called
  exact ⟨s,_,ran,called,by simpa using zero,once⟩

/-! ### Subscripts of the rows -/

theorem put_block_error {cache : CacheTable} {mem : σ} {i : U64} {row : CacheRow} {followup : Bool} {e : Abort}
    (failed : cache.put_block port mem i row followup = .error e) : e = .null_pointer := by
  cases followup with
  | false => cases failed
  | true =>
    rw [put_block] at failed
    split at failed
    · cases failed; rfl
    · cases failed
theorem get_block_error {cache : CacheTable} {mem : σ} {a : U64} {row : CacheRow} {followup : Bool} {e : Abort}
    (failed : cache.get_block port mem a row followup = .error e) : e = .null_pointer := by
  cases followup with
  | false => cases failed
  | true =>
    rw [get_block] at failed
    split at failed
    · cases failed; rfl
    · cases failed

theorem clean_row_error {cache : CacheTable} {mem : σ} {i : U64} {followup : Bool} {e : Abort}
    (inside : i.toNat < cache.num_rows) (failed : cache.clean_row port mem i followup = .error e) :
    e = .null_pointer := by
  rw [clean_row,row_inside inside,ok_bind] at failed
  split at failed
  · rw [write_back,row_inside inside,ok_bind] at failed
    rcases bind_error.mp failed with failed | ⟨_,_,failed⟩
    · exact put_block_error port failed
    · cases failed
  · cases failed
theorem fill_row_error {cache : CacheTable} {mem : σ} {a i : U64} {followup : Bool} {e : Abort}
    (inside : i.toNat < cache.num_rows) (failed : cache.fill_row port mem a i followup = .error e) :
    e = .null_pointer := by
  rw [fill_row,row_inside inside,ok_bind] at failed
  rcases bind_error.mp failed with failed | ⟨_,_,failed⟩
  · exact get_block_error port failed
  · cases failed

/-- Once the victim is chosen inside the allocation, `evict_read` subscripts nothing else. -/
theorem evict_read_error {cache : CacheTable} {mem : σ} {a index i tag : U64} {followup : Bool} {e : Abort}
    (chosen : cache.victim index = .ok i) (inside : i.toNat < cache.num_rows)
    (failed : cache.evict_read port mem a index tag followup = .error e) : e = .null_pointer := by
  rw [evict_read,chosen,ok_bind] at failed
  rcases bind_error.mp failed with failed | ⟨⟨written,cache₁,mem₁⟩,cleaned,failed⟩
  · exact clean_row_error port inside failed
  · obtain ⟨r₁,rfl,_⟩ := clean_row_effect port cleaned
    simp only at failed
    split at failed
    · cases failed
    · rcases bind_error.mp failed with failed | ⟨⟨done,cache₂,mem₂⟩,filled,failed⟩
      · exact fill_row_error port (by simpa using inside) failed
      · obtain ⟨r₂,rfl,_⟩ := fill_row_effect port filled
        simp only at failed
        split at failed
        · cases failed
        · rw [row_inside (by simpa using inside)] at failed
          cases failed

/-- A partial write that misses a set with a dirty first and a clean second way, in a
    cycle where memory can be read: `evict_write` moves to the second way and `evict_read`
    looks for a third. -/
def ThirdWay (cache : CacheTable) (c : Call) : Prop :=
  (∃ data, c.access = .write data) ∧ c.size ≠ 8 ∧ c.memory_read_available = true ∧
    ¬ cache.Holds (cache.indexOf c.address) c.address ∧
    ¬ cache.Holds (cache.indexOf c.address + cache.num_blocks) c.address ∧
    ((cache.rows (cache.indexOf c.address)).valid = true ∧ (cache.rows (cache.indexOf c.address)).dirty = true) ∧
    (cache.rows (cache.indexOf c.address + cache.num_blocks)).valid = true ∧
    (cache.rows (cache.indexOf c.address + cache.num_blocks)).dirty = false

section
variable {cache : CacheTable} (params : IsDataCache cache)
include params

theorem victimOf_inside {i : U64} (first : i.toNat < 2048) : (cache.victimOf i).toNat < cache.num_rows := by
  rw [num_rows_data params]
  rcases victimOf_cases cache i with chosen | chosen
  · rw [chosen]; omega
  · rw [chosen,second_toNat params first]; omega

theorem read_access_subscripts {mem : σ} {a size value : U64} {followup available : Bool} :
    cache.read_access port mem a size value followup available ≠ .error .rows_subscript := by
  have bound := index_lt params a
  intro failed
  unfold read_access at failed
  split at failed
  · cases failed
  · rcases bind_error.mp failed with failed | ⟨⟨found,cache₁,mem₁⟩,_,failed⟩
    · rw [read_row,lookup_data params,ok_bind] at failed
      split at failed
      · cases failed
      · split at failed
        · cases failed
        · rcases bind_error.mp failed with failed | ⟨⟨victim,cache₁,mem₁⟩,evicted,failed⟩
          · cases evict_read_error port (victim_first params bound) (victimOf_inside params bound) failed
          · obtain ⟨r,rfl,⟨rfl,_⟩ | ⟨rfl,_,_⟩⟩ := evict_read_effect port (victim_first params bound) evicted
            · cases failed
            · simp only [row_setRow (victimOf_inside params bound)] at failed
              cases failed
    · simp only at failed
      split at failed
      · cases failed
      · split at failed
        · cases failed
        · split at failed <;> cases failed

/-- The rule applied to its own choice leaves the allocation exactly if the first row is
    dirty and the second one valid and clean. -/
theorem victim_victimOf {i : U64} (first : i.toNat < 2048) :
    cache.victim (cache.victimOf i) =
      if ((cache.rows i).valid = true ∧ (cache.rows i).dirty = true) ∧
          (cache.rows (i + cache.num_blocks)).valid = true ∧ (cache.rows (i + cache.num_blocks)).dirty = false
      then .error .rows_subscript else .ok (cache.victimOf i) := by
  by_cases second : cache.prefersSecond i
  · have chosen : cache.victimOf i = i + cache.num_blocks := if_pos second
    rw [chosen,victim_second params first]
    simp only [prefersSecond,Bool.and_eq_true,Bool.or_eq_true,Bool.not_eq_true'] at second
    cases valid : (cache.rows (i + cache.num_blocks)).valid <;> simp_all
  · have chosen : cache.victimOf i = i := if_neg second
    rw [chosen,victim_first params first,chosen,if_neg]
    rintro ⟨⟨valid,dirty⟩,_,clean⟩
    simp [prefersSecond,valid,dirty,clean] at second

theorem write_row_subscripts {mem : σ} {a i tag : U64} {size : U8} {followup available : Bool}
    (first : i.toNat < 2048) :
    cache.write_row port mem a (cache.victimOf i) tag size followup available = .error .rows_subscript ↔
      size ≠ 8 ∧ available = true ∧ ((cache.rows i).valid = true ∧ (cache.rows i).dirty = true) ∧
        (cache.rows (i + cache.num_blocks)).valid = true ∧ (cache.rows (i + cache.num_blocks)).dirty = false := by
  have inside := victimOf_inside params first
  unfold write_row
  by_cases partialWrite : size ≠ 8
  · cases available with
    | false =>
      rw [if_pos partialWrite]
      simp
    | true =>
      rw [if_pos partialWrite,if_neg (by decide)]
      simp only [partialWrite,ne_eq,not_false_eq_true,true_and]
      constructor
      · intro failed
        rcases bind_error.mp failed with failed | ⟨⟨victim,cache₁,mem₁⟩,_,failed⟩
        · by_contra kept
          have chosen := victim_victimOf params first
          rw [if_neg kept] at chosen
          cases evict_read_error port chosen inside failed
        · simp only at failed
          split at failed <;> cases failed
      · intro third
        rw [evict_read,victim_victimOf params first,if_pos third]
        rfl
  · rw [if_neg partialWrite,row_inside inside,ok_bind]
    simp only [partialWrite,false_and,iff_false]
    intro failed
    split at failed
    · cases failed
    · rcases bind_error.mp failed with failed | ⟨_,_,failed⟩
      · cases clean_row_error port inside failed
      · cases failed

theorem write_access_subscripts {mem : σ} {data : U64} {c : Call} (writes : c.access = .write data) :
    cache.write_access port mem c.address data c.size c.is_followup c.memory_read_available = .error .rows_subscript ↔
      cache.ThirdWay c := by
  have bound := index_lt params c.address
  rw [write_access_data port params,ThirdWay]
  by_cases held : cache.Holds (cache.indexOf c.address) c.address ∨
      cache.Holds (cache.indexOf c.address + cache.num_blocks) c.address
  · rw [if_pos held]
    constructor
    · unfold store_hit
      split <;> nofun
    · rintro ⟨_,_,_,first,second,_⟩
      exact absurd held (not_or_intro first second)
  · obtain ⟨first,second⟩ := not_or.mp held
    rw [if_neg held,evict_write,if_neg (not_not_intro params.type),victim_first params bound,ok_bind]
    simp only [first,second,not_false_eq_true,true_and,writes,Access.write.injEq,exists_eq']
    rw [← write_row_subscripts port params bound]
    constructor
    · intro failed
      rcases bind_error.mp failed with failed | ⟨⟨found,cache₁,mem₁⟩,placed,failed⟩
      · exact failed
      · obtain ⟨r,rfl,⟨_,rfl,_⟩ | rfl⟩ := write_row_effect port (victim_again params bound) placed
        · cases failed
        · simp only [row_setRow (victimOf_inside params bound)] at failed
          cases failed
    · intro failed
      rw [failed]
      rfl

end

/-- In every reachable state, the next call keeps its subscripts inside the allocation
    unless it is a partial write that looks for a third way. -/
theorem subscripts_inside_iff (next : σ → σ) {mem : σ} {calls : List Call} {s : CacheTable × σ}
    (ran : run (cycle port next) (construct_cache 2048 .DATA,mem) calls = .ok s) (c : Call) :
    s.1.call port s.2 c ≠ .error .rows_subscript ↔ ¬ s.1.ThirdWay c := by
  obtain ⟨params,_⟩ := run_unique port next ran
  apply not_congr
  unfold call
  cases accessed : c.access with
  | read value =>
    simp only [ThirdWay,accessed,reduceCtorEq,exists_false,false_and,iff_false]
    exact read_access_subscripts port params
  | write data =>
    rw [← write_access_subscripts port params accessed]
    simp only
    constructor
    · intro failed
      rcases bind_error.mp failed with failed | ⟨_,_,failed⟩
      · exact failed
      · cases failed
    · intro failed
      rw [failed]
      rfl

theorem subscripts_inside_iff_two_blocks :
    ∃ s, run (cycle Framework.port Framework.end_cycle) (construct_cache 2048 .DATA,sevens)
        [⟨.write 5,0,4,false,true⟩,⟨.read 0,0x4000,4,false,true⟩] = .ok s ∧
      (s.1.call Framework.port s.2 ⟨.write 6,0x8000,8,false,true⟩ ≠ .error .rows_subscript ↔
        ¬ s.1.ThirdWay ⟨.write 6,0x8000,8,false,true⟩) := by
  have evaluated : okAnd (run (cycle Framework.port Framework.end_cycle) (construct_cache 2048 .DATA,sevens)
      [⟨.write 5,0,4,false,true⟩,⟨.read 0,0x4000,4,false,true⟩]) (fun _ => true) = true := by
    decide +kernel
  obtain ⟨s,ran,_⟩ := okAnd_iff.mp evaluated
  exact ⟨s,ran,subscripts_inside_iff Framework.port Framework.end_cycle ran _⟩

/-- A store, a load and a store of one word each, to three blocks of one set: the third
    call reads a row past the allocation. -/
theorem third_way_reached :
    (∀ c ∈ [(⟨.write 5,0,4,false,true⟩ : Call),⟨.read 0,0x4000,4,false,true⟩,⟨.write 6,0x8000,4,false,true⟩],
      Aligned c.address c.size) ∧
    ∃ s, run (cycle Framework.port Framework.end_cycle) (construct_cache 2048 .DATA,sevens)
        [⟨.write 5,0,4,false,true⟩,⟨.read 0,0x4000,4,false,true⟩] = .ok s ∧
      s.1.call Framework.port s.2 ⟨.write 6,0x8000,4,false,true⟩ = .error .rows_subscript := by
  have evaluated : okAnd (run (cycle Framework.port Framework.end_cycle) (construct_cache 2048 .DATA,sevens)
      [⟨.write 5,0,4,false,true⟩,⟨.read 0,0x4000,4,false,true⟩]) (fun s =>
        match s.1.call Framework.port s.2 ⟨.write 6,0x8000,4,false,true⟩ with
        | .error .rows_subscript => true
        | _ => false) = true := by
    decide +kernel
  obtain ⟨s,ran,evaluated⟩ := okAnd_iff.mp evaluated
  refine ⟨by decide,s,ran,?_⟩
  revert evaluated
  split
  · intro _; assumption
  · nofun

end CacheTable
end RiscvSim
