import RiscvSim.Memory

/-!
The branch target buffer (`branch_predictor.c`), 32 entries with two-bit counters.
-/
namespace RiscvSim

structure BranchInformationEntry where
  branch_address : U64
  target_address : U64
  bht : U8
  deriving DecidableEq, Repr

/-- The array `branch_table`. -/
abbrev BranchTable := BitVec 5 → BranchInformationEntry

namespace BranchTable

/-- The table of static storage, all zero. -/
def zero : BranchTable := fun _ => ⟨0,0,0⟩

/-- The subscript `(uint8_t) address & 31`. -/
def index (address : U64) : BitVec 5 := address.setWidth 5

def set (table : BranchTable) (t_index : BitVec 5) (entry : BranchInformationEntry) : BranchTable :=
  fun i => if i = t_index then entry else table i

def update_bht (table : BranchTable) (t_bht : Bool) (t_index : BitVec 5) : BranchTable :=
  if t_bht = true ∧ (table t_index).bht < 3 then
    table.set t_index { table t_index with bht := (table t_index).bht + 1 }
  else if t_bht = false ∧ (table t_index).bht > 0 then
    table.set t_index { table t_index with bht := (table t_index).bht - 1 }
  else table

def predict_address (table : BranchTable) (branch_address : U64) : U64 :=
  if branch_address = (table (index branch_address)).branch_address ∧ (table (index branch_address)).bht > 1 then
    (table (index branch_address)).target_address
  else branch_address + 4

/-- The subscript is taken from the target, and the address stored there compared with it. -/
def update_entry (table : BranchTable) (new_address new_target : U64) (t_bht : Bool) : BranchTable :=
  if (table (index new_target)).branch_address = new_target then table.update_bht t_bht (index new_target)
  else table.set (index new_target) ⟨new_address,new_target,if new_address + 4 > new_target then 3 else 0⟩

/-! ### What an update does -/

/-- The counter after `update_bht`. -/
def counted (t_bht : Bool) (bht : U8) : U8 :=
  if t_bht = true ∧ bht < 3 then bht + 1 else if t_bht = false ∧ bht > 0 then bht - 1 else bht

/-- The entry that `update_entry` leaves. -/
def updated (table : BranchTable) (new_address new_target : U64) (t_bht : Bool) : BranchInformationEntry :=
  if (table (index new_target)).branch_address = new_target then
    { table (index new_target) with bht := counted t_bht (table (index new_target)).bht }
  else ⟨new_address,new_target,if new_address + 4 > new_target then 3 else 0⟩

@[simp] theorem set_same (table : BranchTable) (i : BitVec 5) (entry : BranchInformationEntry) :
    table.set i entry i = entry := if_pos rfl
@[simp] theorem set_other (table : BranchTable) {i j : BitVec 5} (entry : BranchInformationEntry) (other : j ≠ i) :
    table.set i entry j = table j := if_neg other
theorem set_self (table : BranchTable) (i : BitVec 5) : table.set i (table i) = table := by
  funext j
  by_cases here : j = i
  · rw [here,set_same]
  · rw [set_other _ _ here]

theorem set_inj {table : BranchTable} {i : BitVec 5} {entry entry' : BranchInformationEntry} :
    table.set i entry = table.set i entry' ↔ entry = entry' := by
  constructor
  · intro same
    simpa using congrFun same i
  · rintro rfl
    rfl
/-- Two slots are set alike only if neither changes. -/
theorem set_eq_set {table : BranchTable} {i j : BitVec 5} {entry entry' : BranchInformationEntry} (other : j ≠ i) :
    table.set j entry = table.set i entry' ↔ entry = table j ∧ entry' = table i := by
  constructor
  · intro same
    have there := congrFun same j
    have here := congrFun same i
    rw [set_same,set_other _ _ other] at there
    rw [set_same,set_other _ _ other.symm] at here
    exact ⟨there,here.symm⟩
  · rintro ⟨rfl,rfl⟩
    rw [set_self,set_self]

theorem update_bht_eq (table : BranchTable) (t_bht : Bool) (i : BitVec 5) :
    table.update_bht t_bht i = table.set i { table i with bht := counted t_bht (table i).bht } := by
  unfold update_bht counted
  split
  · rfl
  · split
    · rfl
    · exact (set_self table i).symm

theorem update_entry_eq (table : BranchTable) (new_address new_target : U64) (t_bht : Bool) :
    table.update_entry new_address new_target t_bht = table.set (index new_target)
    (table.updated new_address new_target t_bht) := by
  unfold update_entry updated
  split
  · exact update_bht_eq table t_bht _
  · rfl

/-- What holds of all entries holds after an update, if counting keeps it and the new entry has it. -/
theorem update_entry_all {P : BranchInformationEntry → Prop} {table : BranchTable}
    {new_address new_target : U64} {t_bht : Bool} (all : ∀ i, P (table i))
    (count : ∀ entry, P entry → P { entry with bht := counted t_bht entry.bht })
    (fresh : P ⟨new_address,new_target,if new_address + 4 > new_target then 3 else 0⟩) (i : BitVec 5) :
    P (table.update_entry new_address new_target t_bht i) := by
  rw [update_entry_eq]
  by_cases here : i = index new_target
  · rw [here,set_same,updated]
    split
    · exact count _ (all _)
    · exact fresh
  · rw [set_other _ _ here]
    exact all i

theorem counted_false_le (bht : U8) : counted false bht ≤ bht := by
  unfold counted
  simp only [Bool.false_eq_true,false_and,if_false,true_and]
  split
  · bv_omega
  · exact BitVec.le_refl _
theorem gt_of_counted_false {bht k : U8} (above : counted false bht > k) : bht > k := by
  have less := counted_false_le bht
  bv_omega

end BranchTable
end RiscvSim
