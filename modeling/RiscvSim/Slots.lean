import RiscvSim.Memory

/-!
The table of outstanding requests as a list. A request takes the first free slot, and a poll
looks at the first slot with its address; everything else about the table follows from where
these two slots are.
-/
namespace RiscvSim.Framework
open Bytes

variable {request : memory_pending_t} {slots after : List memory_pending_t}

/-- The first free slot takes the request. -/
theorem add_pending_split (added : add_pending request slots = some after) :
    ∃ before old rest, slots = before ++ old :: rest ∧ (∀ q ∈ before, q.op ≠ .NONE) ∧ old.op = .NONE ∧
      after = before ++ request :: rest := by
  induction slots generalizing after with
  | nil => cases added
  | cons first rest ih =>
    rw [add_pending] at added
    by_cases free : first.op = .NONE
    · rw [if_pos free] at added
      cases added
      exact ⟨[],first,rest,rfl,by simp,free,rfl⟩
    · rw [if_neg free] at added
      obtain ⟨tail,inner,rfl⟩ := Option.map_eq_some_iff.mp added
      obtain ⟨before,old,behind,rfl,busy,unused,rfl⟩ := ih inner
      exact ⟨first :: before,old,behind,rfl,by simpa using ⟨free,busy⟩,unused,rfl⟩

theorem add_pending_none (full : add_pending request slots = none) : ∀ q ∈ slots, q.op ≠ .NONE := by
  induction slots with
  | nil => simp
  | cons first rest ih =>
    rw [add_pending] at full
    split at full
    · cases full
    · rename_i busy
      simpa using ⟨busy,ih (Option.map_eq_none_iff.mp full)⟩

/-- A poll finds the slot that no slot of the same address is in front of. -/
theorem status_pending_append {a cycle : U64} {before rest : List memory_pending_t} {q : memory_pending_t}
    (others : ∀ r ∈ before, r.address ≠ a) (here : q.address = a) :
    status_pending a cycle (before ++ q :: rest) =
      if q.end_cycle ≤ cycle then some (q,before ++ { q with op := .COMPLETED } :: rest) else none := by
  induction before with
  | nil => simp [status_pending,here]
  | cons first before ih =>
    rw [List.cons_append,status_pending,if_neg (others first List.mem_cons_self),
      ih (fun r inside => others r (List.mem_cons_of_mem _ inside))]
    split <;> rfl

theorem status_pending_split {a cycle : U64} {pnd : memory_pending_t}
    (found : status_pending a cycle slots = some (pnd,after)) :
    ∃ before rest, slots = before ++ pnd :: rest ∧ (∀ q ∈ before, q.address ≠ a) ∧ pnd.address = a ∧
    pnd.end_cycle ≤ cycle ∧ after = before ++ { pnd with op := .COMPLETED } :: rest := by
  induction slots generalizing after with
  | nil => cases found
  | cons first rest ih =>
    rw [status_pending] at found
    by_cases here : first.address = a
    · rw [if_pos here] at found
      split at found
      · rename_i done
        cases found
        exact ⟨[],rest,rfl,by simp,here,done,rfl⟩
      · cases found
    · rw [if_neg here] at found
      obtain ⟨⟨p,tail⟩,inner,same⟩ := Option.map_eq_some_iff.mp found
      obtain ⟨rfl,rfl⟩ := Prod.mk.inj same
      obtain ⟨before,behind,rfl,others,address,done,tailed⟩ := ih inner
      exact ⟨first :: before,behind,rfl,by simpa using ⟨here,others⟩,address,done,congrArg (first :: ·) tailed⟩

theorem memory_status_missed {fw : Framework} {a : U64} (v : Option Buffer)
    (missed : status_pending a fw.cycle_counter fw.memory_pending.slots = none) :
    fw.memory_status a v = some (false,v,fw) := by
  unfold memory_status
  split
  · rfl
  · rename_i found
    cases missed.symm.trans found

/-- A poll completes the slot that it finds done, and delivers the bytes of a read. -/
theorem memory_status_found {fw : Framework} {a : U64} (v : Option Buffer) {pnd : memory_pending_t}
    (table : PendingTable)
    (found : status_pending a fw.cycle_counter fw.memory_pending.slots = some (pnd,table.slots)) :
    fw.memory_status a v =
      if pnd.op = .READ then v.map fun b =>
        (true,some (fw.memory_dump b a pnd.n_bytes).2,{ fw with memory_pending := table })
      else some (true,v,{ fw with memory_pending := table }) := by
  unfold memory_status
  split
  · rename_i missed
    cases missed.symm.trans found
  · rename_i found'
    obtain ⟨rfl,rfl⟩ := Prod.mk.inj (Option.some.inj (found'.symm.trans found))
    simp only
    split
    · cases v <;> rfl
    · rfl

theorem end_cycle_slots (fw : Framework) : fw.end_cycle.memory_pending.slots =
    fw.memory_pending.slots.map (fun pnd => if pnd.op = .COMPLETED then { pnd with op := .NONE } else pnd) := rfl

end RiscvSim.Framework
