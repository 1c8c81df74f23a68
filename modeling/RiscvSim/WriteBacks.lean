import RiscvSim.CacheFlat
import RiscvSim.Requests

/-!
The blocks that the data cache gives up. The port is watched for the two calls made for
them, `memory_write` and `memory_status` without a buffer: whatever memory answers, a call
of `read_access` or `write_access` makes them for its victim only, at an address rebuilt
from the row. The subscript of a row of the second way would put a stray bit into it, but a
dirty row there is never the victim.
-/
namespace RiscvSim
open Bytes Runs

/-- A call made for a block that is given up. -/
inductive BlockCall where
  | memory_write (address value size_in_bytes : U64)
  | memory_status (address : U64)
  deriving DecidableEq

def BlockCall.address : BlockCall → U64
  | .memory_write address _ _ => address
  | .memory_status address => address

namespace CacheTable
variable {σ : Type} (port : MemoryPort σ)

/-- The port, with these calls recorded. -/
def recorded : MemoryPort (σ × List BlockCall) where
  memory_read s address value size_in_bytes :=
    let (done,data,mem) := port.memory_read s.1 address value size_in_bytes
    (done,data,(mem,s.2))
  memory_write s address value size_in_bytes :=
    let (done,mem) := port.memory_write s.1 address value size_in_bytes
    (done,(mem,s.2 ++ [.memory_write address value size_in_bytes]))
  memory_status s address value :=
    (port.memory_status s.1 address value).map fun (done,data,mem) =>
      (done,data,(mem,match value with
        | none => s.2 ++ [.memory_status address]
        | some _ => s.2))
  status_bytes s := port.status_bytes s.1

/-- Nothing is recorded, or one call for the row, which is dirty. -/
def GivesUp (cache : CacheTable) (i : U64) (log log' : List BlockCall) : Prop :=
  log' = log ∨ (cache.rows i).dirty = true ∧ ∃ e, log' = log ++ [e] ∧
    (e = .memory_write (cache.oldAddress i) (cache.rows i).dword 8 ∨ e = .memory_status (cache.oldAddress i))

section
variable {cache cache' : CacheTable} {s s' : σ × List BlockCall}

theorem put_block_records {i : U64} {row : CacheRow} {followup done : Bool}
    (asked : cache.put_block (recorded port) s i row followup = .ok (done,s')) :
    ∃ e, s'.2 = s.2 ++ [e] ∧ (e = .memory_write (cache.oldAddress i) row.dword 8 ∨
      e = .memory_status (cache.oldAddress i)) := by
  cases followup with
  | false =>
    cases asked
    exact ⟨_,rfl,.inl rfl⟩
  | true =>
    unfold put_block at asked
    simp only at asked
    split at asked
    · cases asked
    · rename_i _ _ _ _ answered
      obtain ⟨_,_,same⟩ := Option.map_eq_some_iff.mp answered
      cases same
      cases asked
      exact ⟨_,rfl,.inr rfl⟩

theorem clean_row_records {i : U64} {followup written : Bool}
    (ran : cache.clean_row (recorded port) s i followup = .ok (written,cache',s')) : cache.GivesUp i s.2 s'.2 := by
  obtain ⟨row,inside,rest⟩ := bind_ok.mp ran
  obtain ⟨-,rfl⟩ := row_ok.mp inside
  split at rest
  · rename_i kind
    obtain ⟨row,inside,rest⟩ := bind_ok.mp rest
    obtain ⟨-,rfl⟩ := row_ok.mp inside
    obtain ⟨_,asked,rest⟩ := bind_ok.mp rest
    cases rest
    exact .inr ⟨kind.2,put_block_records port asked⟩
  · cases rest
    exact .inl rfl

/-- The read of the new block is of no concern here. -/
theorem fill_row_records {a i : U64} {followup done : Bool}
    (ran : cache.fill_row (recorded port) s a i followup = .ok (done,cache',s')) : s'.2 = s.2 := by
  obtain ⟨row,-,rest⟩ := bind_ok.mp ran
  obtain ⟨_,asked,rest⟩ := bind_ok.mp rest
  cases rest
  cases followup with
  | false =>
    cases asked
    rfl
  | true =>
    unfold get_block at asked
    simp only at asked
    split at asked
    · cases asked
    · rename_i _ _ _ _ answered
      obtain ⟨_,_,same⟩ := Option.map_eq_some_iff.mp answered
      cases same
      cases asked
      rfl

theorem evict_read_records {a index i tag : U64} {followup : Bool} {found : Option U64}
    (chosen : cache.victim index = .ok i)
    (ran : cache.evict_read (recorded port) s a index tag followup = .ok (found,cache',s')) :
    cache.GivesUp i s.2 s'.2 := by
  unfold evict_read at ran
  rw [chosen,ok_bind] at ran
  obtain ⟨⟨written,cache₁,s₁⟩,cleaned,rest⟩ := bind_ok.mp ran
  have given := clean_row_records port cleaned
  simp only at rest
  split at rest
  · cases rest
    exact given
  · obtain ⟨⟨done,cache₂,s₂⟩,filled,rest⟩ := bind_ok.mp rest
    rw [← fill_row_records port filled] at given
    simp only at rest
    split at rest
    · cases rest
      exact given
    · obtain ⟨row,-,rest⟩ := bind_ok.mp rest
      cases rest
      exact given

theorem write_row_records {a i tag : U64} {size : U8} {followup available : Bool} {found : U8 ⊕ U64}
    (again : ∀ j, cache.victim i = .ok j → j = i)
    (ran : cache.write_row (recorded port) s a i tag size followup available = .ok (found,cache',s')) :
    cache.GivesUp i s.2 s'.2 := by
  unfold write_row at ran
  split at ran
  · split at ran
    · cases ran
      exact .inl rfl
    · obtain ⟨⟨victim,cache₁,s₁⟩,evicted,rest⟩ := bind_ok.mp ran
      obtain ⟨j,choice,-⟩ := bind_ok.mp evicted
      have given := evict_read_records port choice evicted
      rw [again j choice] at given
      cases victim <;> cases rest <;> exact given
  · obtain ⟨row,-,rest⟩ := bind_ok.mp ran
    split at rest
    · cases rest
      exact .inl rfl
    · obtain ⟨⟨written,cache₁,s₁⟩,cleaned,rest⟩ := bind_ok.mp rest
      cases rest
      exact clean_row_records port cleaned

variable (params : IsDataCache cache)
include params

theorem read_access_records {a size value value' : U64} {followup available : Bool} {code : U8}
    (ran : cache.read_access (recorded port) s a size value followup available = .ok (code,value',cache',s')) :
    cache.GivesUp (cache.givenUp a) s.2 s'.2 := by
  unfold read_access at ran
  split at ran
  · cases ran
  obtain ⟨⟨found,cache₁,s₁⟩,read,rest⟩ := bind_ok.mp ran
  have last : s' = s₁ := by
    simp only at rest
    split at rest
    · cases rest
      rfl
    split at rest
    · cases rest
    · split at rest <;> cases rest
      rfl
  subst last
  obtain ⟨held,-,read⟩ := bind_ok.mp read
  cases held with
  | some row =>
    cases read
    exact .inl rfl
  | none =>
    simp only at read
    split at read
    · cases read
      exact .inl rfl
    · obtain ⟨⟨victim,cache₂,s₂⟩,evicted,read⟩ := bind_ok.mp read
      have given := evict_read_records port (victim_first params (index_lt params a)) evicted
      cases victim with
      | none =>
        cases read
        exact given
      | some i =>
        obtain ⟨row,-,read⟩ := bind_ok.mp read
        cases read
        exact given

theorem write_access_records {a data : U64} {size : U8} {followup available : Bool} {code : U8}
    (ran : cache.write_access (recorded port) s a data size followup available = .ok (code,cache',s')) :
    cache.GivesUp (cache.givenUp a) s.2 s'.2 := by
  have bound := index_lt params a
  rw [write_access_data (recorded port) params] at ran
  split at ran
  · obtain ⟨-,-,-,rfl⟩ := store_hit_ok ran
    exact .inl rfl
  unfold evict_write at ran
  rw [if_neg (not_not_intro params.type),victim_first params bound,ok_bind] at ran
  obtain ⟨⟨found,cache₁,s₁⟩,placed,rest⟩ := bind_ok.mp ran
  have given := write_row_records port (victim_again params bound) placed
  cases found with
  | inl code =>
    cases rest
    exact given
  | inr i =>
    obtain ⟨row,-,rest⟩ := bind_ok.mp rest
    cases rest
    exact given

theorem call_records {c : Call} {code : U8} {value : U64}
    (called : cache.call (recorded port) s c = .ok (code,value,cache',s')) :
    cache.GivesUp (cache.givenUp c.address) s.2 s'.2 := by
  unfold call at called
  split at called
  · exact read_access_records port params called
  · obtain ⟨⟨_,_,_⟩,written,rest⟩ := bind_ok.mp called
    cases rest
    exact write_access_records port params written

end

/-! ### The block of a row -/

/-- A dirty row is valid, and a valid row holds the block of one of the addresses. -/
structure Housed (installed : U64 → Prop) (cache : CacheTable) : Prop where
  params : IsDataCache cache
  dirty : ∀ i, (cache.rows i).dirty = true → (cache.rows i).valid = true
  block : ∀ i, i.toNat < 4096 → (cache.rows i).valid = true → ∃ a, installed a ∧ cache.Covers i a

theorem housed_construct (installed : U64 → Prop) : Housed installed (construct_cache 2048 .DATA) where
  params := isDataCache_construct
  dirty _ dirty := nomatch dirty
  block _ _ valid := nomatch valid

section
variable {installed : U64 → Prop} {cache cache' : CacheTable} (housed : Housed installed cache)
include housed

theorem housed_same {j : U64} {r : CacheRow} (same : SameBlock (cache.rows j) r) :
    Housed installed (cache.setRow j r) := by
  have block (i : U64) : SameBlock (cache.rows i) ((cache.setRow j r).rows i) := by
    by_cases here : i = j
    · subst here
      rw [setRow_same]
      exact same
    · rw [setRow_other _ _ here]
      exact sameBlock_refl _
  refine ⟨isDataCache_setRow housed.params _ _,?_,?_⟩
  · intro i dirty
    rw [(block i).valid]
    exact housed.dirty i ((block i).dirty dirty)
  · intro i inside valid
    rw [(block i).valid] at valid
    obtain ⟨a,here,place,held⟩ := housed.block i inside valid
    exact ⟨a,here,place,(block i).valid.trans held.1,(block i).tag.trans held.2⟩

theorem housed_effect {a : U64} {code : U8} (here : installed a) (effect : Effect cache cache' a code) :
    Housed installed cache' := by
  cases effect with
  | hit _ r same _ after => exact after ▸ housed_same housed same
  | stall r same _ after => exact after ▸ housed_same housed same
  | miss _ _ r tag valid _ after =>
    subst after
    refine ⟨isDataCache_setRow housed.params _ _,?_,?_⟩
    · intro i dirty
      by_cases same : i = cache.victimOf (cache.indexOf a)
      · rw [same,setRow_same]
        exact valid
      · rw [setRow_other _ _ same] at dirty ⊢
        exact housed.dirty i dirty
    · intro i inside filled
      by_cases same : i = cache.victimOf (cache.indexOf a)
      · subst same
        refine ⟨a,here,victimOf_cases cache _,?_⟩
        rw [Holds,setRow_same]
        exact ⟨valid,tag⟩
      · rw [setRow_other _ _ same] at filled
        obtain ⟨b,before,place,held⟩ := housed.block i inside filled
        refine ⟨b,before,place,?_⟩
        rw [Holds,setRow_other _ _ same]
        exact held

/-- The address rebuilt from a dirty victim is that of the block it holds. -/
theorem oldAddress_block (below : ∀ a, installed a → a.toNat < 2^50) {a : U64}
    (dirty : (cache.rows (cache.givenUp a)).dirty = true) {b : U64} (held : cache.Covers (cache.givenUp a) b) :
    cache.oldAddress (cache.givenUp a) = (b >>> 3) <<< 3 := by
  have params := housed.params
  have first : (cache.givenUp a).toNat < 2048 := victim_dirty_first housed.dirty (index_lt params a) dirty
  have index := indexOf_toNat params b
  have tag := tagOf_toNat params b
  have place : cache.givenUp a = cache.indexOf b := by
    refine held.1.resolve_right fun second => ?_
    have far := second_toNat params (index_lt params b)
    rw [← second] at far
    omega
  have fits : (cache.rows (cache.givenUp a)).tag.toNat < 2^36 := by
    obtain ⟨first,before,_,_,same⟩ := housed.block _ (by omega) held.2.1
    have small := below first before
    rw [same,tagOf_toNat params]
    omega
  apply BitVec.eq_of_toNat_eq
  rw [oldAddress_toNat params first fits,held.2.2,tag,place,index,BitVec.toNat_shiftLeft,BitVec.toNat_ushiftRight,
    Nat.shiftLeft_eq,Nat.shiftRight_eq_div_pow]
  omega

end

theorem run_housed (next : σ → σ) {mem : σ} {calls : List Call} {s : CacheTable × σ}
    (ran : run (cycle port next) (construct_cache 2048 .DATA,mem) calls = .ok s) :
    Housed (fun a => ∃ c ∈ calls, c.address = a) s.1 := by
  refine guarded_invariant (fun s : CacheTable × σ => Housed (fun a => ∃ c ∈ calls, c.address = a) s.1) ?_
    (housed_construct _) (guarded_all (fun c inside => inside) _) ran
  intro s c s' housed inside stepped
  obtain ⟨⟨code,value,cache',mem'⟩,called,rest⟩ := bind_ok.mp stepped
  cases rest
  exact housed_effect housed ⟨c,inside,rfl⟩ (call_effect port housed.params called)

/-- After any calls on a zeroed data cache with addresses that the bit-field `tag` can give back
    (those of `stage_memory` have 32 bits), for any behaviour of memory: what a call writes back,
    or polls, is the row that it gives up, with the row's bytes and at the address of the block
    that earlier calls put there. -/
theorem write_back_address (next : σ → σ) {mem mem' : σ} {calls : List Call} {s : CacheTable × σ} {c : Call} {code : U8}
    {value : U64} {cache' : CacheTable} {log : List BlockCall} {e : BlockCall}
    (below : ∀ c ∈ calls, c.address.toNat < 2^50)
    (ran : run (cycle port next) (construct_cache 2048 .DATA,mem) calls = .ok s)
    (called : s.1.call (recorded port) (s.2,[]) c = .ok (code,value,cache',(mem',log))) (made : e ∈ log) :
    (s.1.rows (s.1.givenUp c.address)).dirty = true ∧ (∃ b ∈ calls, s.1.Covers (s.1.givenUp c.address) b.address) ∧
      (∀ a, s.1.Covers (s.1.givenUp c.address) a → e.address = (a >>> 3) <<< 3) ∧
      ∀ address data size, e = .memory_write address data size →
        data = (s.1.rows (s.1.givenUp c.address)).dword ∧ size = 8 := by
  have housed := run_housed port next ran
  obtain same | ⟨dirty,e',same,kind⟩ := call_records port housed.params called
  · rw [show log = [] from same] at made
    cases made
  obtain rfl : e = e' := by
    rw [show log = [e'] from same] at made
    exact List.mem_singleton.mp made
  refine ⟨dirty,?_,?_,?_⟩
  · have inside : (s.1.givenUp c.address).toNat < 4096 :=
      (victim_dirty_first housed.dirty (index_lt housed.params _) dirty).trans (by decide)
    obtain ⟨_,⟨b,earlier,rfl⟩,held⟩ := housed.block _ inside (housed.dirty _ dirty)
    exact ⟨b,earlier,held⟩
  · intro a held
    rw [← oldAddress_block housed (by rintro _ ⟨b,earlier,rfl⟩; exact below b earlier) dirty held]
    rcases kind with rfl | rfl <;> rfl
  · rintro address data size rfl
    rcases kind with kind | kind <;> cases kind
    exact ⟨rfl,rfl⟩

/-- The third block of a set takes the place of the first, which goes back to address 0x10. -/
theorem write_back_address_third :
    ∃ s r, run (cycle Framework.port Framework.end_cycle) (construct_cache 2048 .DATA,sevens)
        [⟨.write 5,0x10,8,false,true⟩,⟨.write 6,0x4010,8,false,true⟩] = .ok s ∧
      s.1.call (recorded Framework.port) (s.2,[]) ⟨.write 9,0x8010,8,false,true⟩ = .ok r ∧
      BlockCall.memory_write 0x10 5 8 ∈ r.2.2.2.2 ∧ (s.1.rows (s.1.givenUp 0x8010)).dirty = true ∧
      5 = (s.1.rows (s.1.givenUp 0x8010)).dword := by
  have evaluated : okAnd (run (cycle Framework.port Framework.end_cycle) (construct_cache 2048 .DATA,sevens)
      [⟨.write 5,0x10,8,false,true⟩,⟨.write 6,0x4010,8,false,true⟩]) (fun s =>
        okAnd (s.1.call (recorded Framework.port) (s.2,[]) ⟨.write 9,0x8010,8,false,true⟩) (fun r =>
          decide (BlockCall.memory_write 0x10 5 8 ∈ r.2.2.2.2))) = true := by
    decide +kernel
  obtain ⟨s,ran,evaluated⟩ := okAnd_iff.mp evaluated
  obtain ⟨⟨code,value,cache',mem',log⟩,called,made⟩ := okAnd_iff.mp evaluated
  have made := of_decide_eq_true made
  obtain ⟨dirty,-,-,bytes⟩ := write_back_address Framework.port Framework.end_cycle (by simp) ran called made
  exact ⟨s,_,ran,called,made,dirty,(bytes _ _ _ rfl).1⟩

end CacheTable
end RiscvSim
