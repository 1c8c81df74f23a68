import RiscvSim.Stages

/-!
What the branch target buffer predicts. A prediction is never invented: it is the next
instruction, or a target to which the branch has jumped. It is not that of the documented
two-bit predictor, since the buffer is read in the slot of the branch and written in the slot
of the target; the calls that the two agree on are stated exactly.
-/
namespace RiscvSim
open Bytes Runs BranchTable

/-! ### Where predictions come from -/

/-- The end of `stage_execute`, for an instruction and the pc that it resolved to. -/
def BranchTable.resolve (table : BranchTable) (executed : U64 × U64) : BranchTable :=
  if executed.2 ≠ executed.1 + 4 then table.update_entry executed.1 executed.2 (executed.2 == executed.1 + 4) else table

/-- An entry that predicts a jump was made by a backward one. -/
structure Learned (executed : List (U64 × U64)) (entry : BranchInformationEntry) : Prop where
  bound : entry.bht ≤ 3
  seen : entry.bht > 0 → (entry.branch_address,entry.target_address) ∈ executed ∧ entry.target_address <
    entry.branch_address + 4

theorem Learned.later {executed : List (U64 × U64)} {entry : BranchInformationEntry} (learned : Learned executed entry)
    (last : U64 × U64) :
    Learned (executed ++ [last]) entry where
  bound := learned.bound
  seen positive := ⟨List.mem_append_left _ (learned.seen positive).1,(learned.seen positive).2⟩

theorem Learned.counted {executed : List (U64 × U64)} {entry : BranchInformationEntry}
    (learned : Learned executed entry) :
    Learned executed { entry with bht := BranchTable.counted false entry.bht } where
  bound := BitVec.le_trans (counted_false_le _) learned.bound
  seen positive := learned.seen (gt_of_counted_false positive)

theorem learned_resolve {executed : List (U64 × U64)} {table : BranchTable} (learned : ∀ i, Learned executed (table i))
    (last : U64 × U64) (i : BitVec 5) : Learned (executed ++ [last]) (table.resolve last i) := by
  obtain ⟨pc,resolved⟩ := last
  by_cases jumps : resolved ≠ pc + 4
  · have other : (resolved == pc + 4) = false := beq_false_of_ne jumps
    rw [resolve,if_pos jumps,other]
    refine update_entry_all (P := Learned (executed ++ [(pc,resolved)])) (fun i => (learned i).later _)
      (fun _ => Learned.counted) ?_ i
    by_cases backward : pc + 4 > resolved
    · rw [if_pos backward]
      exact ⟨(by decide : (3 : U8) ≤ 3),fun _ => ⟨List.mem_append_right _ List.mem_cons_self,backward⟩⟩
    · rw [if_neg backward]
      exact ⟨(by decide : (0 : U8) ≤ 3),fun positive => absurd positive (by decide : ¬ (0 : U8) > 0)⟩
  · rw [resolve,if_neg jumps]
    exact (learned i).later _

theorem learned_run (executed : List (U64 × U64)) (i : BitVec 5) :
    Learned executed (executed.foldl resolve .zero i) := by
  induction executed using List.reverseRecOn generalizing i with
  | nil => exact ⟨(by decide : (0 : U8) ≤ 3),fun positive => absurd positive (by decide : ¬ (0 : U8) > 0)⟩
  | append_singleton before last ih =>
    rw [List.foldl_append]
    exact learned_resolve ih last i

theorem Learned.predicts {executed : List (U64 × U64)} {table : BranchTable} (learned : ∀ i, Learned executed (table i))
    (a : U64) :
    table.predict_address a = a + 4 ∨ table.predict_address a < a + 4 ∧ (a,table.predict_address a) ∈ executed := by
  unfold predict_address
  by_cases found : a = (table (index a)).branch_address ∧ (table (index a)).bht > 1
  · rw [if_pos found]
    obtain ⟨seen,backward⟩ := (learned (index a)).seen (BitVec.lt_trans (by decide : (0 : U8) < 1) found.2)
    rw [← found.1] at seen backward
    exact .inr ⟨backward,seen⟩
  · rw [if_neg found]
    exact .inl rfl

/-- The counters stay in their two bits, and what is predicted is the next instruction or a
    backward jump that was made. -/
theorem predictions_not_invented (executed : List (U64 × U64)) :
    (∀ i, (executed.foldl resolve .zero i).bht ≤ 3) ∧
    ∀ a, (executed.foldl resolve .zero).predict_address a = a + 4 ∨
      ∃ t, (executed.foldl resolve .zero).predict_address a = t ∧ t < a + 4 ∧ (a,t) ∈ executed := by
  refine ⟨fun i => (learned_run executed i).bound,fun a => ?_⟩
  rcases Learned.predicts (learned_run executed) a with next | taken
  · exact .inl next
  · exact .inr ⟨_,rfl,taken⟩

/-! ### The branch table of a run -/

/-- A word dispatched at an address resolved to the second of the pair. -/
def Resolved (dispatched : U64 × U32) (executed : U64 × U64) : Prop :=
  executed.1 = dispatched.1 ∧ ∃ x m e, dispatch dispatched.2 x (dispatched.1 + 4) m = .ok e ∧ executed.2 = e.pc

theorem executes_resolved {x : StageRegX} {m : StageRegM} {w : StageRegW} {new_m_reg : StageRegM} {pc : U64}
    {table : BranchTable} {r : StageRegM × U64 × BranchTable × Option (U64 × U32)}
    (executed : Executes x m w new_m_reg pc table r) :
    ∃ step, List.Forall₂ Resolved r.2.2.2.toList step ∧ r.2.2.1 = step.foldl resolve table := by
  cases executed with
  | dispatches flows holds clean word e handled => exact ⟨[(x.pc,e.pc)],.cons ⟨rfl,_,_,e,handled,rfl⟩ .nil,rfl⟩
  | _ => exact ⟨[],.nil,rfl⟩

/-- The branch table after a run is that of the instructions dispatched, in their order. -/
theorem branch_table_resolved {σ ι : Type} {ms : MemorySystem σ ι} {mem : σ} {pc : U64} {file : RegisterFile}
    {buffers : LoopLocals} {inputs : List ι} {p : Pipeline σ} {log : List Events}
    (ran : run (cycle ms) (Pipeline.initial mem pc file buffers) inputs = .ok (p,log)) :
    ∃ executed, List.Forall₂ Resolved (log.filterMap (·.dispatched)) executed ∧ p.branch_table =
      executed.foldl resolve .zero := by
  refine run_invariant (fun s => ∃ executed, List.Forall₂ Resolved (s.2.filterMap (·.dispatched)) executed ∧
    s.1.branch_table = executed.foldl resolve .zero) ?_ ⟨[],.nil,rfl⟩ ran
  rintro s locals s' ⟨executed,all,same⟩ stepped
  rcases cycle_cases stepped with ⟨inst,rfl⟩ | ⟨inst,p,events,ran,rfl⟩
  · exact ⟨executed,all,same⟩
  · obtain ⟨memory_mem,execute_pc,decode_pc,fetch_mem,staged⟩ := stages_staged ran
    obtain ⟨step,new,table⟩ := executes_resolved staged.execute
    refine ⟨executed ++ step,?_,?_⟩
    · rw [filterMap_append_single]
      exact List.rel_append all new
    · rw [List.foldl_append,← same]
      exact table

/-! ### The documented predictor -/

structure Branch where
  address : U64
  target : U64
  counter : Fin 4
  deriving DecidableEq, Repr

/-- Slots for branches with the same low five bits. -/
structure Predictor where
  slot : BitVec 5 → Option Branch
  own : ∀ i branch, slot i = some branch → index branch.address = i

namespace Predictor

def empty : Predictor := ⟨fun _ => none,nofun⟩

/-- The branch, if its slot holds it. -/
def held (p : Predictor) (a : U64) : Option Branch := (p.slot (index a)).filter fun branch => branch.address = a

/-- One step towards 3 or 0. -/
def move (taken : Bool) (counter : Fin 4) : Fin 4 :=
  if taken then if counter = 3 then 3 else counter + 1 else if counter = 0 then 0 else counter - 1

def learn (p : Predictor) (a t : U64) (taken : Bool) : Branch :=
  match p.held a with
  | some branch => { branch with counter := move taken branch.counter }
  | none => ⟨a,t,if t < a + 4 then 3 else 0⟩

theorem held_some {p : Predictor} {a : U64} {branch : Branch} (holds : p.held a = some branch) :
    p.slot (index a) = some branch ∧ branch.address = a := by
  obtain ⟨stored,same⟩ := Option.filter_eq_some_iff.mp holds
  exact ⟨stored,of_decide_eq_true same⟩
theorem learn_address (p : Predictor) (a t : U64) (taken : Bool) : (p.learn a t taken).address = a := by
  unfold learn
  cases holds : p.held a with
  | none => rfl
  | some branch => exact (held_some holds).2

def update (p : Predictor) (a t : U64) (taken : Bool) : Predictor where
  slot := Function.update p.slot (index a) (some (p.learn a t taken))
  own i branch stored := by
    by_cases here : i = index a
    · rw [here,Function.update_self] at stored
      rw [← Option.some.inj stored,learn_address,here]
    · rw [Function.update_of_ne here] at stored
      exact p.own i branch stored

def predict (p : Predictor) (a : U64) : U64 :=
  match p.held a with
  | some branch => if branch.counter > 1 then branch.target else a + 4
  | none => a + 4

/-! ### The buffer as the documented predictor -/

end Predictor

/-- The entry of the buffer for a branch. -/
def Branch.entry (branch : Branch) : BranchInformationEntry :=
  ⟨branch.address,branch.target,BitVec.ofNat 8 branch.counter⟩

namespace Predictor

/-- The buffer with the same branches. An empty slot is an entry of zeros. -/
def table (p : Predictor) : BranchTable := fun i =>
  match p.slot i with
  | some branch => branch.entry
  | none => ⟨0,0,0⟩

theorem table_some {p : Predictor} {i : BitVec 5} {branch : Branch} (stored : p.slot i = some branch) :
    p.table i = branch.entry := by
  rw [table,stored]
theorem table_none {p : Predictor} {i : BitVec 5} (free : p.slot i = none) : p.table i = ⟨0,0,0⟩ := by
  rw [table,free]

theorem entry_predicts (counter : Fin 4) : (BitVec.ofNat 8 counter : U8) > 1 ↔ counter > 1 := by
  revert counter
  decide
theorem counted_move (taken : Bool) (counter : Fin 4) : counted taken (BitVec.ofNat 8 counter) = BitVec.ofNat 8
    (move taken counter) := by
  revert taken counter
  decide
theorem entry_counter_inj {c c' : Fin 4} : (BitVec.ofNat 8 c : U8) = BitVec.ofNat 8 c' ↔ c = c' := by
  revert c c'
  decide
theorem move_fixed {taken : Bool} {counter : Fin 4} :
    move taken counter = counter ↔ counter = if taken then 3 else 0 := by
  revert taken counter
  decide
/-- The counter that a new entry would have. -/
theorem move_fresh (taken backward : Bool) (counter : Fin 4) : (if backward then 3 else 0) = move taken counter ↔
    if backward then taken = true ∧ counter ≥ 2 else taken = false ∧ counter ≤ 1 := by
  revert taken backward counter
  decide

theorem held_stored {p : Predictor} {a : U64} {branch : Branch} (stored : p.slot (index a) = some branch) :
    p.held a = if branch.address = a then some branch else none := by
  rw [held,stored,Option.filter_some]
  simp

theorem predict_table (p : Predictor) (a : U64) : p.table.predict_address a = p.predict a := by
  unfold predict_address predict
  cases stored : p.slot (index a) with
  | none =>
    rw [table_none stored,if_neg fun found => absurd found.2 (by decide : ¬ (0 : U8) > 1),held,stored]
    rfl
  | some branch =>
    rw [table_some stored,held_stored stored]
    by_cases here : branch.address = a
    · simp only [if_pos here]
      by_cases jumps : branch.counter > 1
      · rw [if_pos ⟨here.symm,(entry_predicts _).mpr jumps⟩,if_pos jumps]
        rfl
      · rw [if_neg fun found => jumps ((entry_predicts _).mp found.2),if_neg jumps]
    · rw [if_neg fun found => here found.1.symm]
      simp only [if_neg here]

theorem table_update (p : Predictor) (a t : U64) (taken : Bool) :
    (p.update a t taken).table = p.table.set (index a) (p.learn a t taken).entry := by
  funext i
  by_cases here : i = index a
  · rw [here,set_same,table_some (Function.update_self ..)]
  · have kept : (p.update a t taken).slot i = p.slot i := Function.update_of_ne here _ _
    rw [set_other _ _ here,table,kept]
    rfl

/-- A call after which the buffer still has the branches of the documented predictor. -/
def Agrees (p : Predictor) (a t : U64) (taken : Bool) : Prop :=
  if index t = index a then
    match p.held a with
    | some branch =>
      t = a ∨ branch.target = t ∧
        if t < a + 4 then taken = true ∧ branch.counter ≥ 2 else taken = false ∧ branch.counter ≤ 1
    | none => (p.table (index a)).branch_address ≠ t
  else
    -- both counters are at their limit already
    (p.held a).map (·.counter) = some (if taken then 3 else 0) ∧
      (p.table (index t)).branch_address = t ∧ (p.table (index t)).bht = if taken then 3 else 0

theorem updated_stale {table : BranchTable} {a t : U64} {taken : Bool} (other : (table (index t)).branch_address ≠ t) :
    table.updated a t taken = ⟨a,t,if a + 4 > t then 3 else 0⟩ := if_neg other
theorem updated_known {table : BranchTable} {a t : U64} {taken : Bool} (known : (table (index t)).branch_address = t) :
    table.updated a t taken = { table (index t) with bht := counted taken (table (index t)).bht } := if_pos known

theorem with_bht_iff {entry : BranchInformationEntry} {bht : U8} :
    { entry with bht := bht } = entry ↔ bht = entry.bht :=
  ⟨congrArg BranchInformationEntry.bht,fun same => by rw [same]⟩

/-- A new entry is that of a branch. -/
theorem fresh_entry (a t : U64) : (⟨a,t,if a + 4 > t then 3 else 0⟩ : BranchInformationEntry) =
    (⟨a,t,if t < a + 4 then 3 else 0⟩ : Branch).entry := by
  unfold Branch.entry
  by_cases backward : t < a + 4
  · rw [if_pos backward,if_pos backward]
    rfl
  · rw [if_neg backward,if_neg backward]
    rfl

/-- A slot that does not hold the branch has no entry with its address and target but the zeros. -/
theorem entry_unheld {p : Predictor} {a : U64} (free : p.held a = none)
    (same : (p.table (index a)).branch_address = a) :
    p.table (index a) = ⟨0,0,0⟩ := by
  cases stored : p.slot (index a) with
  | none => exact table_none stored
  | some branch =>
    rw [table_some stored] at same
    rw [held_stored stored,if_pos (show branch.address = a from same)] at free
    cases free

theorem entry_counter (p : Predictor) (i : BitVec 5) : ∃ counter : Fin 4, (p.table i).bht = BitVec.ofNat 8 counter := by
  cases stored : p.slot i with
  | none => exact ⟨0,by rw [table_none stored]; rfl⟩
  | some branch => exact ⟨branch.counter,by rw [table_some stored]; rfl⟩

theorem entry_address {p : Predictor} {i : BitVec 5} {a t : U64} {bht : U8} (same : p.table i = ⟨a,t,bht⟩) :
    index a = i ∨ a = 0 ∧ t = 0 ∧ bht = 0 := by
  cases stored : p.slot i with
  | none =>
    rw [table_none stored] at same
    cases same
    exact .inr ⟨rfl,rfl,rfl⟩
  | some branch =>
    rw [table_some stored] at same
    refine .inl ?_
    rw [← p.own i branch stored]
    exact congrArg (fun entry => index entry.branch_address) same.symm

theorem same_slot_iff {p : Predictor} {a t : U64} {taken : Bool} (slot : index t = index a) :
    p.table.updated a t taken = (p.learn a t taken).entry ↔
      match p.held a with
      | some branch =>
        t = a ∨ branch.target = t ∧
          if t < a + 4 then taken = true ∧ branch.counter ≥ 2 else taken = false ∧ branch.counter ≤ 1
      | none => (p.table (index a)).branch_address ≠ t := by
  unfold learn
  cases holds : p.held a with
  | some branch =>
    obtain ⟨stored,rfl⟩ := held_some holds
    have entry := table_some stored
    by_cases itself : t = branch.address
    · -- the entry is found, and counted as documented
      subst itself
      rw [updated_known (by rw [entry]; rfl),entry]
      simp only [true_or,iff_true]
      rw [Branch.entry,Branch.entry,counted_move]
    · rw [updated_stale (by rw [slot,entry]; exact Ne.symm itself),fresh_entry]
      simp only [itself,false_or,Branch.entry,BranchInformationEntry.mk.injEq,true_and,entry_counter_inj]
      rw [eq_comm]
      refine and_congr_right fun _ => ?_
      simpa using move_fresh taken (t < branch.address + 4) branch.counter
  | none =>
    by_cases known : (p.table (index a)).branch_address = t
    · simp only [known,ne_eq,not_true,iff_false]
      rw [updated_known (by rw [slot]; exact known),slot]
      intro same
      have address : (p.table (index a)).branch_address = a := congrArg (·.branch_address) same
      have zero := entry_unheld holds address
      rw [zero] at address known same
      subst address known
      revert same
      cases taken <;> decide
    · simp only [known,ne_eq,not_false_eq_true,iff_true]
      rw [updated_stale (by rw [slot]; exact known),fresh_entry]

/-- The slot of the target keeps its entry. -/
theorem target_kept_iff {p : Predictor} {a t : U64} {taken : Bool} (slot : index t ≠ index a) :
    p.table.updated a t taken = p.table (index t) ↔
      (p.table (index t)).branch_address = t ∧ (p.table (index t)).bht = if taken then 3 else 0 := by
  by_cases known : (p.table (index t)).branch_address = t
  · obtain ⟨counter,bht⟩ := p.entry_counter (index t)
    rw [updated_known known,with_bht_iff,bht,counted_move,entry_counter_inj,move_fixed]
    simp only [known,true_and]
    cases taken <;> exact entry_counter_inj.symm
  · rw [updated_stale known]
    refine ⟨fun same => ?_,fun found => absurd found.1 known⟩
    rcases entry_address same.symm with here | ⟨rfl,rfl,-⟩
    · exact absurd here.symm slot
    · exact absurd rfl slot

/-- The documented predictor keeps the slot of the branch. -/
theorem source_kept_iff {p : Predictor} {a t : U64} {taken : Bool} (slot : index t ≠ index a) :
    (p.learn a t taken).entry = p.table (index a) ↔ (p.held a).map (·.counter) = some (if taken then 3 else 0) := by
  unfold learn
  cases holds : p.held a with
  | some branch =>
    rw [table_some (held_some holds).1,Option.map_some,Option.some_inj,← move_fixed,Branch.entry,Branch.entry]
    simp only [BranchInformationEntry.mk.injEq,true_and,entry_counter_inj]
  | none =>
    refine ⟨fun same => ?_,by rintro ⟨⟩⟩
    have zero := entry_unheld holds (congrArg (·.branch_address) same.symm)
    rw [zero] at same
    have address : a = 0 := congrArg (·.branch_address) same
    have target : t = 0 := congrArg (·.target_address) same
    rw [address,target] at slot
    exact absurd rfl slot

theorem update_agrees_iff (p : Predictor) (a t : U64) (taken : Bool) :
    p.table.update_entry a t taken = (p.update a t taken).table ↔ p.Agrees a t taken := by
  rw [update_entry_eq,table_update,Agrees]
  by_cases slot : index t = index a
  · rw [if_pos slot,slot,set_inj]
    exact same_slot_iff slot
  · rw [if_neg slot,set_eq_set slot,target_kept_iff slot,source_kept_iff slot,and_comm]

instance (p : Predictor) (a t : U64) (taken : Bool) : Decidable (p.Agrees a t taken) := by
  unfold Agrees
  cases p.held a <;> infer_instance

end Predictor

/-! ### What the slots predict -/

namespace BranchTable

/-- The jump that an entry predicts in its slot: of a branch of the slot, and not to the instruction behind it, which is
    predicted anyway. -/
def jumpOf (i : BitVec 5) (entry : BranchInformationEntry) : Option (U64 × U64) :=
  if entry.bht > 1 ∧ index entry.branch_address = i ∧ entry.target_address ≠ entry.branch_address + 4 then
    some (entry.branch_address,entry.target_address)
  else none

theorem jumpOf_some {i : BitVec 5} {entry : BranchInformationEntry} {a t : U64} (jumps : jumpOf i entry = some (a,t)) :
    entry.bht > 1 ∧ entry.branch_address = a ∧ entry.target_address = t ∧ index a = i ∧ t ≠ a + 4 := by
  unfold jumpOf at jumps
  split_ifs at jumps with found
  cases jumps
  exact ⟨found.1,rfl,rfl,found.2⟩

theorem predict_iff (table : BranchTable) {a t : U64} (away : t ≠ a + 4) :
    table.predict_address a = t ↔ jumpOf (index a) (table (index a)) = some (a,t) := by
  unfold predict_address
  constructor
  · intro predicted
    split_ifs at predicted with found
    · have address := found.1.symm
      rw [jumpOf,address,predicted,if_pos ⟨found.2,rfl,away⟩]
    · exact absurd predicted.symm away
  · intro jumps
    obtain ⟨counter,address,target,-⟩ := jumpOf_some jumps
    rw [if_pos ⟨address.symm,counter⟩,target]

/-- Two buffers predict alike exactly if their slots predict the same jumps. -/
theorem predictions_iff {table table' : BranchTable} :
    (∀ a, table.predict_address a = table'.predict_address a) ↔ ∀ i, jumpOf i (table i) = jumpOf i (table' i) := by
  constructor
  · intro same i
    refine Option.ext fun ⟨a,t⟩ => ⟨fun jumps => ?_,fun jumps => ?_⟩
    · obtain ⟨-,-,-,rfl,away⟩ := jumpOf_some jumps
      exact (predict_iff table' away).mp ((same a).symm.trans ((predict_iff table away).mpr jumps))
    · obtain ⟨-,-,-,rfl,away⟩ := jumpOf_some jumps
      exact (predict_iff table away).mp ((same a).trans ((predict_iff table' away).mpr jumps))
  · intro same a
    by_cases away : table.predict_address a = a + 4
    · rw [away]
      by_contra other
      have there := (predict_iff table' (Ne.symm other)).mp rfl
      rw [← same] at there
      exact other (away.symm.trans ((predict_iff table (Ne.symm other)).mpr there))
    · have here := (predict_iff table away).mp rfl
      rw [same] at here
      exact ((predict_iff table' away).mpr here).symm

end BranchTable

namespace Predictor

/-- A call after which the slots still predict the jumps of the documented predictor: the entry that is written
    predicts the documented one if it is written to the slot of the branch, and else neither slot has to predict
    another jump than before. -/
def Foretells (table : BranchTable) (p : Predictor) (a t : U64) (taken : Bool) : Prop :=
  if index t = index a then jumpOf (index a) (table.updated a t taken) = jumpOf (index a) (p.learn a t taken).entry
  else jumpOf (index t) (table.updated a t taken) = jumpOf (index t) (table (index t)) ∧
    jumpOf (index a) (p.learn a t taken).entry = jumpOf (index a) (table (index a))

theorem update_foretells_iff {table : BranchTable} {p : Predictor}
    (same : ∀ i, jumpOf i (table i) = jumpOf i (p.table i)) (a t : U64) (taken : Bool) :
    (∀ i, jumpOf i (table.update_entry a t taken i) = jumpOf i ((p.update a t taken).table i)) ↔
      Foretells table p a t taken := by
  rw [update_entry_eq,table_update,Foretells]
  by_cases slot : index t = index a
  · rw [if_pos slot,slot]
    refine ⟨fun after => by simpa using after (index a),fun after i => ?_⟩
    by_cases here : i = index a
    · rw [here,set_same,set_same,after]
    · rw [set_other _ _ here,set_other _ _ here,same]
  · rw [if_neg slot]
    constructor
    · intro after
      have target := after (index t)
      have source := after (index a)
      rw [set_same,set_other _ _ slot,← same] at target
      rw [set_other _ _ (Ne.symm slot),set_same] at source
      exact ⟨target,source.symm⟩
    · rintro ⟨target,source⟩ i
      by_cases there : i = index t
      · rw [there,set_same,set_other _ _ slot,target,same]
      by_cases here : i = index a
      · rw [here,set_other _ _ (Ne.symm slot),set_same,source]
      · rw [set_other _ _ there,set_other _ _ here,same]

end Predictor

/-! ### Sequences of calls -/

/-- The arguments of a call of `update_entry`. -/
structure UpdateCall where
  address : U64
  target : U64
  taken : Bool

/-- The buffer after the calls, and the documented predictor after them. -/
def trained (calls : List UpdateCall) : BranchTable :=
  calls.foldl (fun table c => table.update_entry c.address c.target c.taken) .zero
def documented (calls : List UpdateCall) : Predictor :=
  calls.foldl (fun p c => p.update c.address c.target c.taken) .empty

theorem trained_append (before : List UpdateCall) (c : UpdateCall) :
    trained (before ++ [c]) = (trained before).update_entry c.address c.target c.taken := List.foldl_concat _ _ _ _
theorem documented_append (before : List UpdateCall) (c : UpdateCall) :
    documented (before ++ [c]) = (documented before).update c.address c.target c.taken := List.foldl_concat _ _ _ _

theorem trained_documented {calls : List UpdateCall}
    (agree : ∀ before c after, calls = before ++ c :: after → (documented before).Agrees c.address c.target c.taken) :
    trained calls = (documented calls).table := by
  induction calls using List.reverseRecOn with
  | nil => rfl
  | append_singleton before c ih =>
    have earlier : trained before = (documented before).table := by
      refine ih fun before' c' after same => agree before' c' (after ++ [c]) ?_
      rw [same,List.append_assoc,List.cons_append]
    rw [trained_append,documented_append,earlier]
    exact ((documented before).update_agrees_iff _ _ _).mpr (agree before c [] rfl)

theorem predictions_documented (calls : List UpdateCall) :
    (∀ a, (trained calls).predict_address a = (documented calls).predict a) ↔
      ∀ i, jumpOf i (trained calls i) = jumpOf i ((documented calls).table i) := by
  rw [← predictions_iff]
  exact forall_congr' fun a => by rw [Predictor.predict_table]

theorem trained_foretold {calls : List UpdateCall}
    (foretell : ∀ before c after, calls = before ++ c :: after →
      Predictor.Foretells (trained before) (documented before) c.address c.target c.taken) (i : BitVec 5) :
    jumpOf i (trained calls i) = jumpOf i ((documented calls).table i) := by
  induction calls using List.reverseRecOn generalizing i with
  | nil => rfl
  | append_singleton before c ih =>
    have earlier : ∀ i, jumpOf i (trained before i) = jumpOf i ((documented before).table i) := by
      refine ih fun before' c' after same => foretell before' c' (after ++ [c]) ?_
      rw [same,List.append_assoc,List.cons_append]
    rw [trained_append,documented_append]
    exact (Predictor.update_foretells_iff earlier _ _ _).mpr (foretell before c [] rfl) i

end RiscvSim
