import RiscvSim.CacheWaits
import RiscvSim.LoadValues

/-!
Memory as a program sees it. A page map says which frame each page is in. The bytes that the data cache
stands for, looked at through the map, are the flat memory of the sequential machine (`Reflects`), and a
load or a store does to the one what it does to the other.
-/
namespace RiscvSim
open Bytes Runs Words

/-! ### Pages -/

/-- The frame of every page. No two pages share one. -/
structure PageMap where
  frame : BitVec 20 → BitVec 20
  apart : Function.Injective frame

theorem append_toNat {w v : Nat} (x : BitVec w) (y : BitVec v) : (x ++ y).toNat = x.toNat * 2^v + y.toNat := by
  rw [BitVec.toNat_append,← Nat.shiftLeft_add_eq_or_of_lt y.isLt,Nat.shiftLeft_eq]

namespace PageMap
variable (f : PageMap)

def page (va : U32) : BitVec 20 := va.extractLsb' 12 20
/-- The physical address: the frame and the low 12 bits. -/
def physical (va : U32) : U32 := f.frame (page va) ++ va.extractLsb' 0 12
/-- The place in memory. -/
def place (va : U32) : U64 := (f.physical va).setWidth 64

theorem page_toNat (va : U32) : (page va).toNat = va.toNat / 4096 := by
  have bound := va.isLt
  rw [page,BitVec.extractLsb'_toNat,Nat.shiftRight_eq_div_pow]
  omega

theorem physical_toNat (va : U32) : (f.physical va).toNat = (f.frame (page va)).toNat * 4096 + va.toNat % 4096 := by
  rw [physical,append_toNat,BitVec.extractLsb'_toNat,Nat.shiftRight_zero]
  rfl

theorem place_toNat (va : U32) : (f.place va).toNat = (f.frame (page va)).toNat * 4096 + va.toNat % 4096 := by
  rw [place,BitVec.toNat_setWidth,physical_toNat]
  have bound := (f.frame (page va)).isLt
  omega

theorem place_mod (va : U32) : (f.place va).toNat % 8 = va.toNat % 8 := by
  rw [place_toNat]
  omega

theorem place_injective : Function.Injective f.place := by
  intro va vb same
  have values := congrArg BitVec.toNat same
  rw [place_toNat,place_toNat] at values
  have pages : page va = page vb := f.apart (BitVec.eq_of_toNat_eq (by omega))
  have pages := congrArg BitVec.toNat pages
  rw [page_toNat,page_toNat] at pages
  exact BitVec.eq_of_toNat_eq (by omega)

/-- A block of eight bytes is in one page. -/
theorem place_add {va : U32} {i : Nat} (inside : va.toNat % 8 + i < 8) :
    f.place (va + BitVec.ofNat 32 i) = f.place va + BitVec.ofNat 64 i := by
  have sum : (va + BitVec.ofNat 32 i).toNat = va.toNat + i := by
    rw [BitVec.toNat_add,BitVec.toNat_ofNat]
    have := va.isLt
    omega
  have pages : page (va + BitVec.ofNat 32 i) = page va := by
    apply BitVec.eq_of_toNat_eq
    rw [page_toNat,page_toNat,sum]
    omega
  apply BitVec.eq_of_toNat_eq
  have bound := (f.frame (page va)).isLt
  rw [BitVec.toNat_add,BitVec.toNat_ofNat,place_toNat,place_toNat,pages,sum]
  omega

/-! ### The bytes behind the map -/

/-- Memory looked at through the map. -/
def view (m : U64 → Byte) : FlatMemory := fun va => m (f.place va)

/-- The bytes `L` are those of the flat memory `V` where a page is, and those of `m` elsewhere. -/
structure Reflects (m : U64 → Byte) (V : FlatMemory) (L : U64 → Byte) : Prop where
  mapped : ∀ va, L (f.place va) = V va
  rest : ∀ o, (∀ va, f.place va ≠ o) → L o = m o

theorem reflects_view (m : U64 → Byte) : f.Reflects m (f.view m) m := ⟨fun _ => rfl,fun _ _ => rfl⟩

variable {f} {m : U64 → Byte} {V : FlatMemory} {L : U64 → Byte}

theorem Reflects.eq {L' : U64 → Byte} (first : f.Reflects m V L) (second : f.Reflects m V L') : L = L' := by
  funext o
  by_cases mapped : ∃ va, f.place va = o
  · obtain ⟨va,rfl⟩ := mapped
    rw [first.mapped,second.mapped]
  · have apart (va : U32) : f.place va ≠ o := fun same => mapped ⟨va,same⟩
    rw [first.rest o apart,second.rest o apart]

/-- The bytes of a store are the same on both sides. -/
theorem store_offset (va vb : U32) {size : U8} (fits : va.toNat % 8 + size.toNat ≤ 8) :
    ((f.place vb - f.place va).toNat < size.toNat ↔ (vb - va).toNat < size.toNat) ∧
      ((vb - va).toNat < size.toNat → (f.place vb - f.place va).toNat = (vb - va).toNat) := by
  have forward (near : (vb - va).toNat < size.toNat) : (f.place vb - f.place va).toNat = (vb - va).toNat := by
    have there : vb = va + BitVec.ofNat 32 (vb - va).toNat := by
      rw [BitVec.ofNat_toNat,BitVec.setWidth_eq,BitVec.add_comm,BitVec.sub_add_cancel]
    have placed : f.place vb = f.place va + BitVec.ofNat 64 (vb - va).toNat := by
      rw [← f.place_add (show va.toNat % 8 + (vb - va).toNat < 8 by omega),← there]
    rw [placed,BitVec.add_comm (f.place va),BitVec.add_sub_cancel,BitVec.toNat_ofNat]
    omega
  refine ⟨⟨fun near => ?_,fun near => by rw [forward near]; exact near⟩,forward⟩
  have there : f.place vb = f.place (va + BitVec.ofNat 32 (f.place vb - f.place va).toNat) := by
    rw [f.place_add (by omega),BitVec.ofNat_toNat,BitVec.setWidth_eq,BitVec.add_comm,BitVec.sub_add_cancel]
  have same := f.place_injective there
  rw [same,BitVec.add_comm va,BitVec.add_sub_cancel,BitVec.toNat_ofNat]
  omega

theorem Reflects.store (reflects : f.Reflects m V L) {va : U32} {data : U64} {size : U8}
    (fits : va.toNat % 8 + size.toNat ≤ 8) :
    f.Reflects m (V.write va size data) (CacheTable.overwrite L (f.place va) data size) where
  mapped vb := by
    obtain ⟨near,same⟩ := store_offset (f := f) va vb fits
    unfold CacheTable.overwrite FlatMemory.write
    by_cases inside : (vb - va).toNat < size.toNat
    · rw [if_pos (near.mpr inside),if_pos inside,same inside]
    · rw [if_neg fun there => inside (near.mp there),if_neg inside,reflects.mapped]
  rest o apart := by
    refine (if_neg fun near => ?_).trans (reflects.rest o apart)
    refine apart (va + BitVec.ofNat 32 (o - f.place va).toNat) ?_
    rw [f.place_add (by omega),BitVec.ofNat_toNat,BitVec.setWidth_eq,BitVec.add_comm,BitVec.sub_add_cancel]

/-- What a load finds in the row that holds its address. -/
theorem Reflects.found_eq {mem : MemoryState Framework} {m' : U64 → Byte} (reflects : f.Reflects m V L)
    (stands : mem.data_cache.Stands L m' none) {va : U32} {size : U8}
    (held : ¬ mem.data_cache.Missing (f.place va)) (fits : va.toNat % 8 + size.toNat ≤ 8) :
    mem.found (f.physical va) size = V.read va size := by
  have covers : mem.data_cache.Covers (mem.data_cache.holder (f.place va)) (f.place va) := by
    unfold CacheTable.holder
    split
    · rename_i first
      exact ⟨.inl rfl,first⟩
    · rename_i first
      exact ⟨.inr rfl,by_contra fun second => held ⟨first,second⟩⟩
  have low : (f.physical va).toNat % 8 = va.toNat % 8 := by
    rw [physical_toNat]
    omega
  refine value_congr fun i small => ?_
  have offset : (f.place va + BitVec.ofNat 64 i).toNat = (f.place va).toNat + i := by
    have bound := (f.frame (page va)).isLt
    rw [BitVec.toNat_add,BitVec.toNat_ofNat,place_toNat]
    omega
  have mod := f.place_mod va
  have block : (f.place va + BitVec.ofNat 64 i).toNat / 8 = (f.place va).toNat / 8 := by omega
  have byte := stands.held _ _ ((CacheTable.covers_same_block stands.params block).mpr covers) nofun
  rw [← f.place_add (by omega),reflects.mapped] at byte
  rw [← byte,f.place_add (by omega),offset,low]
  congr 1
  omega

end PageMap
end RiscvSim
