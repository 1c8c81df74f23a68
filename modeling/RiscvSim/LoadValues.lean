import RiscvSim.CacheHits
import RiscvSim.Replay

/-!
The value that a load leaves in W. `read_access` stores the bytes it found through a pointer
to the value of the new W register, where what the last instruction left stands above them.
The sign is filled in over it; zeros are not.
-/
namespace RiscvSim
open Bytes Runs Words

/-- A load in M, with a size and an extension that a load handler sets. -/
structure StageRegM.IsLoad (m : StageRegM) : Prop where
  op : m.readWrite = .memory_read
  kind : ∃ instruction, loadOf instruction = some (m.size,m.signExtend)

/-- The row that a finished read is of is the one that a lookup finds. -/
theorem CacheTable.holder_eq {cache : CacheTable} {i a : U64} (covers : cache.Covers i a)
    (order : i ≠ cache.indexOf a → ¬ cache.Holds (cache.indexOf a) a) : cache.holder a = i := by
  unfold holder
  obtain ⟨rfl | rfl,held⟩ := covers
  · exact if_pos held
  · by_cases second : cache.indexOf a + cache.num_blocks = cache.indexOf a
    · rw [second] at held
      rw [if_pos held,second]
    · exact if_neg (order second)

/-- The value of some bytes in the row that holds the address. -/
def MemoryState.found {φ : Type} (mem : MemoryState φ) (address : U32) (size : U8) : U64 :=
  value 64 (fun i => (mem.data_cache.rows (mem.data_cache.holder (address.setWidth 64))).data (address.toNat % 8 + i))
    size.toNat

theorem MemoryState.found_top {φ : Type} (mem : MemoryState φ) (address : U32) (size : U8) {i : Nat}
    (past : 8 * size.toNat ≤ i) :
    (mem.found address size).getLsbD i = false := by
  rw [found,getLsbD_value]
  simp [Nat.not_lt.mpr past]

section
variable {φ : Type} {b : Backing φ} {mem mem' : MemoryState φ}

/-- A read that is done replaces the low bytes by those found. -/
theorem data_read_found {address : U32} {size : U8} {value value' : U64} {is_followup available : Bool}
    (params : IsDataCache mem.data_cache) (sizes : size.toNat ≤ 4 ∨ size = 8)
    (read : (simulatorOver b).data_read mem address size value is_followup available = .ok (0,value',mem')) :
    value' = storeLow size.toNat value (mem'.found address size) := by
  obtain ⟨cache,framework,ran,rfl⟩ := data_read_moved read
  obtain ⟨words,i,covers,order,rfl⟩ := CacheTable.read_access_row params ran
  have range := address.isLt
  have number : (size.setWidth 64 : U64).toNat = size.toNat := by
    rw [BitVec.toNat_setWidth]
    have := size.isLt
    omega
  have place : (address.setWidth 64 : U64).toNat = address.toNat := by
    rw [BitVec.toNat_setWidth]
    omega
  rw [place] at words
  refine eq_of_byteAt (n := 8) fun k inside => ?_
  rw [byteAt_storeLow _ _ _ _ inside,byteAt_storeLow _ _ _ _ inside,number,place]
  split
  · rename_i low
    have first : 4 * (address.toNat % 8 / 4) + k = address.toNat % 8 + k := by omega
    rw [CacheTable.byteAt_hit _ _ (by omega) (number.symm ▸ sizes.imp_right fun eight => by rw [eight]; rfl),first,
      MemoryState.found,byteAt_value _ _ _ (by omega),if_pos low,CacheTable.holder_eq covers order]
  · rfl

/-- The bytes below are those found, the bits above are left. -/
theorem setWidth_storeLow_eq (size : Nat) (old found : U64) :
    (storeLow size old found).setWidth (8*size) = found.setWidth (8*size) := by
  apply BitVec.eq_of_getLsbD_eq
  intro i inside
  rw [BitVec.getLsbD_setWidth,BitVec.getLsbD_setWidth,getLsbD_storeLow,if_pos inside]

theorem storeLow_top_iff (size : Nat) (old found : U64) :
    (∀ i, 8*size ≤ i → (storeLow size old found).getLsbD i = false) ↔ old.toNat < 2^(8*size) := by
  rw [toNat_lt_two_pow_iff]
  refine forall₂_congr fun i past => ?_
  rw [getLsbD_storeLow,if_neg (by omega)]

theorem extended_iff {size : U8} {signExtend : Bool} (small : signExtend = true → size = 1 ∨ size = 2 ∨ size = 4)
    (old : U64) {found : U64} (top : ∀ i, 8 * size.toNat ≤ i → found.getLsbD i = false) :
    (if signExtend then extend_sign size (storeLow size.toNat old found) else storeLow size.toNat old found) =
      (if signExtend then (found.setWidth (8 * size.toNat)).signExtend 64 else found) ↔
    old.toNat < 2^(8 * size.toNat) ∨ signExtend = true ∧ found.getLsbD (8 * size.toNat - 1) = true := by
  cases signExtend with
  | true =>
    have sizes := small rfl
    have sign : 8 * size.toNat - 1 < 8 * size.toNat := by rcases sizes with rfl | rfl | rfl <;> decide
    have extended := extend_sign_eq_iff (storeLow size.toNat old found) sizes
    rw [setWidth_storeLow_eq,storeLow_top_iff,getLsbD_storeLow,if_pos sign] at extended
    rw [if_pos rfl,if_pos rfl,extended,or_comm]
    simp
  | false =>
    simp only [Bool.false_eq_true,if_false,false_and,or_false]
    rw [← storeLow_top_iff size.toNat old found]
    constructor
    · intro same
      rw [same]
      exact top
    · intro clear
      apply BitVec.eq_of_getLsbD_eq
      intro i _
      by_cases low : i < 8 * size.toNat
      · rw [getLsbD_storeLow,if_pos low]
      · rw [clear i (by omega),top i (by omega)]

/-- A load that completes leaves the extension of the value found exactly if the old value of the W register was no
    larger than the load, or a sign is filled in. -/
theorem load_extended_iff {locals : CalleeLocals} {m : StageRegM} {w new_w_reg w' : StageRegW}
    {stored : Option (U64 × U8 × U64)} (params : IsDataCache mem.data_cache) (load : m.IsLoad)
    (ran : stage_memory (simulatorOver b) mem locals m w new_w_reg = .ok (w',stored,mem')) (completed : w'.op = true) :
    (w'.value = if m.signExtend then
        ((mem'.found (mem'.dtlb.translation (m.address.setWidth 32)) m.size).setWidth (8 * m.size.toNat)).signExtend 64
      else mem'.found (mem'.dtlb.translation (m.address.setWidth 32)) m.size) ↔
    new_w_reg.value.toNat < 2^(8 * m.size.toNat) ∨ m.signExtend = true ∧
      (mem'.found (mem'.dtlb.translation (m.address.setWidth 32)) m.size).getLsbD (8 * m.size.toNat - 1) = true := by
  obtain ⟨instruction,kind⟩ := load.kind
  obtain ⟨sizes,small⟩ := loadOf_sizes kind
  cases stage_memory_accesses ran with
  | squashes tainted => cases completed
  | forwards clean op => cases load.op.symm.trans op
  | idle clean op => cases load.op.symm.trans op
  | walks clean code op status physical_address mem₁ translated unfinished => cases completed
  | load_misses clean op status physical_address mem₁ translated finished missed value mem₂ read stall =>
    cases completed
  | store_misses clean op => cases load.op.symm.trans op
  | stores clean op => cases load.op.symm.trans op
  | loads clean op status physical_address mem₁ translated finished value mem₂ read =>
    obtain ⟨tlb,framework,answered,rfl⟩ := dtlb_address_moved translated
    obtain ⟨-,rfl⟩ := Tlb.get_address_finished answered finished
    have delivered := data_read_found
      (show IsDataCache (MemoryState.data_cache { mem with dtlb := tlb, framework := framework }) from params)
      sizes read
    obtain ⟨cache,framework',-,rfl⟩ := data_read_moved read
    show (if m.signExtend then extend_sign m.size value else value) = _ ↔ _
    rw [delivered]
    exact extended_iff small new_w_reg.value fun _ past => MemoryState.found_top _ _ _ past

end

/-- The first pages mapped to themselves, and blocks 0x4000 and 0 in the data cache. -/
def mappedPages : MemoryState Framework :=
  ⟨.zero,⟨fun i => ⟨true,i.setWidth 18,0⟩,0⟩,construct_cache 512 .INSTRUCTION,CacheTable.bothWays,CacheTable.sevens⟩

/-- A load of a byte, without extension, from 0x4000 to x5. -/
def byteLoad : StageRegM := { StageRegM.zero with address := 0x4000, size := 1, readWrite := .memory_read, reg := 5 }

theorem isLoad_byteLoad : byteLoad.IsLoad := ⟨rfl,0x00004003,rfl⟩

/-- The new W register as an instruction left it. -/
def leftValue (value : U64) : StageRegW := { StageRegW.zero with value := value }

/-- The load behind an instruction that left 0x12. -/
theorem load_extended_iff_byte : ∃ w' mem',
    stage_memory simulator mappedPages ⟨⟨0,0,0⟩,⟨0,0,0⟩⟩ byteLoad .zero (leftValue 0x12) = .ok (w',none,mem') ∧
      w'.value = mem'.found (mem'.dtlb.translation 0x4000) 1 := by
  refine ⟨_,_,rfl,?_⟩
  have ran : stage_memory simulator mappedPages ⟨⟨0,0,0⟩,⟨0,0,0⟩⟩ byteLoad .zero (leftValue 0x12) =
    .ok (_,none,_) := rfl
  exact (load_extended_iff CacheTable.isDataCache_bothWays isLoad_byteLoad ran rfl).mpr (.inl (by decide))

/-- Behind one that left 0x1234, the second byte stays in the value. -/
theorem byte_load_keeps_old_bits : ∃ w' mem',
    stage_memory simulator mappedPages ⟨⟨0,0,0⟩,⟨0,0,0⟩⟩ byteLoad .zero (leftValue 0x1234) = .ok (w',none,mem') ∧
      w'.op = true ∧ w'.value = 0x1200 ∧ mem'.found (mem'.dtlb.translation 0x4000) 1 = 0 :=
  ⟨_,_,rfl,rfl,by decide,by decide⟩

end RiscvSim
