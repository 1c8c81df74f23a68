import RiscvSim.Requests

/-!
The clients of memory. A ledger keeps what the table cannot show: which stage made each
request that has not been reported, and which addresses were reported in this cycle. Slots are
found by address alone and keep it after they are freed, so the table and the ledger agree only
as long as the clients are orderly: nobody polls without a request of its own, and no request
is made for an address that another one is still about. Then every poll is answered from the
client's own slot.
-/
namespace RiscvSim
open Bytes Runs

/-! ### The table and the requests not reported -/

/-- A request that has not been reported. -/
def memory_pending_t.Live (q : memory_pending_t) : Prop := q.op = .READ ∨ q.op = .WRITE
instance memory_pending_t.decidableLive (q : memory_pending_t) : Decidable q.Live := instDecidableOr

theorem memory_pending_t.Live.taken {q : memory_pending_t} (live : q.Live) : q.op ≠ .NONE := by
  rintro none
  rcases live with op | op <;> cases op.symm.trans none
theorem memory_pending_t.Live.open {q : memory_pending_t} (live : q.Live) : q.op ≠ .COMPLETED := by
  rintro done
  rcases live with op | op <;> cases op.symm.trans done

namespace Framework

/-- The table holds the requests not reported, each in front of all slots that keep its address,
    and what else is taken was reported in this cycle. -/
structure Accounted (slots unreported : List memory_pending_t) (reported : List U64) : Prop where
  backed : ∀ q ∈ unreported, q ∈ slots ∧ q.Live
  single : unreported.Pairwise (fun q r => q.address ≠ r.address)
  fronted : slots.Pairwise (fun q r => r.Live → q.address ≠ r.address)
  live : ∀ q ∈ slots, q.Live → q ∈ unreported
  completed : ∀ q ∈ slots, q.op = .COMPLETED → q.address ∈ reported
  few : slots.countP (·.Live) ≤ unreported.length
  done : slots.countP (·.op = .COMPLETED) ≤ reported.length

section
variable {slots unreported : List memory_pending_t} {reported : List U64}
  (accounted : Accounted slots unreported reported)
include accounted

/-- There is a free slot while fewer are unreported or reported in this cycle. -/
theorem accounted_room (room : unreported.length + reported.length < slots.length) (request : memory_pending_t) :
    ∃ after, add_pending request slots = some after := by
  cases added : add_pending request slots with
  | some after => exact ⟨after,rfl⟩
  | none =>
    have busy := add_pending_none added
    have kinds : slots.countP (fun q => decide ¬ q.Live) = slots.countP (·.op = .COMPLETED) := by
      refine List.countP_congr fun q inside => ?_
      have taken := busy q inside
      cases op : q.op <;> simp_all [memory_pending_t.Live]
    have total := List.length_eq_countP_add_countP (fun q : memory_pending_t => decide q.Live) (l := slots)
    have few := accounted.few
    have done := accounted.done
    simp only [decide_eq_true_eq] at total
    omega

theorem accounted_add {request : memory_pending_t} (real : request.Live)
    (fresh : ∀ q ∈ unreported, q.address ≠ request.address) (unheard : request.address ∉ reported)
    {after : List memory_pending_t} (added : add_pending request slots = some after) :
    Accounted after (request :: unreported) reported := by
  obtain ⟨before,old,rest,rfl,busy,unused,rfl⟩ := add_pending_split added
  have dead : ¬ old.Live := fun live => live.taken unused
  have kept {q : memory_pending_t} (inside : q ∈ before ∨ q ∈ rest) : q ∈ before ++ old :: rest := by
    simp only [List.mem_append,List.mem_cons]
    tauto
  have shape {q : memory_pending_t} (inside : q ∈ before ++ request :: rest) : q = request ∨ q ∈ before ∨ q ∈ rest := by
    simp only [List.mem_append,List.mem_cons] at inside
    tauto
  constructor
  · intro q inside
    rcases List.mem_cons.mp inside with rfl | inside
    · exact ⟨by simp,real⟩
    · obtain ⟨held,live⟩ := accounted.backed q inside
      refine ⟨?_,live⟩
      simp only [List.mem_append,List.mem_cons] at held ⊢
      rcases held with held | rfl | held
      · exact .inl held
      · exact absurd live dead
      · exact .inr (.inr held)
  · exact List.pairwise_cons.mpr ⟨fun q inside => (fresh q inside).symm,accounted.single⟩
  · have front := accounted.fronted
    simp only [List.pairwise_append,List.pairwise_cons,List.mem_cons] at front ⊢
    obtain ⟨first,⟨-,second⟩,across⟩ := front
    refine ⟨first,⟨fun q inside live => ?_,second⟩,?_⟩
    · exact (fresh q (accounted.live q (kept (.inr inside)) live)).symm
    · rintro q inside r (rfl | later) live
      · -- a slot in front is taken, by a request not reported or by one reported in this cycle
        cases op : q.op with
        | NONE => exact absurd op (busy q inside)
        | COMPLETED => exact fun same => unheard (same ▸ accounted.completed q (kept (.inl inside)) op)
        | READ => exact fresh q (accounted.live q (kept (.inl inside)) (.inl op))
        | WRITE => exact fresh q (accounted.live q (kept (.inl inside)) (.inr op))
      · exact across q inside r (.inr later) live
  · intro q inside live
    rcases shape inside with rfl | inside
    · exact List.mem_cons_self
    · exact List.mem_cons_of_mem _ (accounted.live q (kept inside) live)
  · intro q inside done
    rcases shape inside with rfl | inside
    · exact absurd done real.open
    · exact accounted.completed q (kept inside) done
  · have few := accounted.few
    simp [dead,real] at few ⊢
    omega
  · have done := accounted.done
    simp [unused,real.open] at done ⊢
    omega

/-- The poll of a request not reported comes to its own slot. -/
theorem accounted_status {q : memory_pending_t} (waits : q ∈ unreported) (cycle : U64) :
    ∃ before rest, slots = before ++ q :: rest ∧ status_pending q.address cycle slots =
      if q.end_cycle ≤ cycle then some (q,before ++ { q with op := .COMPLETED } :: rest) else none := by
  obtain ⟨held,live⟩ := accounted.backed q waits
  obtain ⟨before,rest,rfl⟩ := List.append_of_mem held
  refine ⟨before,rest,rfl,status_pending_append (fun r inside => ?_) rfl⟩
  exact (List.pairwise_append.mp accounted.fronted).2.2 r inside q List.mem_cons_self live

/-- A request reported leaves the others. -/
theorem accounted_report {q : memory_pending_t} (waits : q ∈ unreported) {before rest : List memory_pending_t}
    (place : slots = before ++ q :: rest) :
    Accounted (before ++ { q with op := .COMPLETED } :: rest) (unreported.filter (·.address ≠ q.address))
    (q.address :: reported) := by
  subst place
  have live := (accounted.backed q waits).2
  have shape {r : memory_pending_t} (inside : r ∈ before ++ { q with op := .COMPLETED } :: rest) :
      r = { q with op := .COMPLETED } ∨ r ∈ before ++ q :: rest ∧ (r ∈ before ∨ r ∈ rest) := by
    simp only [List.mem_append,List.mem_cons] at inside ⊢
    tauto
  have front := accounted.fronted
  simp only [List.pairwise_append,List.pairwise_cons,List.mem_cons] at front
  obtain ⟨first,⟨behind,second⟩,across⟩ := front
  have other {r : memory_pending_t} (inside : r ∈ before ∨ r ∈ rest) (open_ : r.Live) : r.address ≠ q.address := by
    rcases inside with inside | inside
    · exact across r inside q (.inl rfl) live
    · exact (behind r inside open_).symm
  constructor
  · intro r inside
    simp only [List.mem_filter,decide_eq_true_eq] at inside
    obtain ⟨held,open_⟩ := accounted.backed r inside.1
    refine ⟨?_,open_⟩
    simp only [List.mem_append,List.mem_cons] at held ⊢
    rcases held with held | rfl | held
    · exact .inl held
    · exact absurd rfl inside.2
    · exact .inr (.inr held)
  · exact accounted.single.filter _
  · simp only [List.pairwise_append,List.pairwise_cons,List.mem_cons]
    refine ⟨first,⟨behind,second⟩,?_⟩
    rintro r inside t (rfl | later) open_
    · exact absurd rfl open_.open
    · exact across r inside t (.inr later) open_
  · intro r inside open_
    rcases shape inside with rfl | ⟨held,place⟩
    · exact absurd rfl open_.open
    · simp only [List.mem_filter,decide_eq_true_eq]
      exact ⟨accounted.live r held open_,other place open_⟩
  · intro r inside done
    rcases shape inside with rfl | ⟨held,-⟩
    · exact List.mem_cons_self
    · exact List.mem_cons_of_mem _ (accounted.completed r held done)
  · obtain ⟨l1,l2,rfl⟩ := List.append_of_mem waits
    have single := accounted.single
    simp only [List.pairwise_append,List.pairwise_cons,List.mem_cons] at single
    have front (r : memory_pending_t) (inside : r ∈ l1) : r.address ≠ q.address := single.2.2 r inside q (.inl rfl)
    have back (r : memory_pending_t) (inside : r ∈ l2) : r.address ≠ q.address := (single.2.1.1 r inside).symm
    have keep1 : l1.filter (·.address ≠ q.address) = l1 := List.filter_eq_self.mpr (by simpa using front)
    have keep2 : l2.filter (·.address ≠ q.address) = l2 := List.filter_eq_self.mpr (by simpa using back)
    have dead : ¬ ({ q with op := .COMPLETED } : memory_pending_t).Live := fun open_ => open_.open rfl
    have few := accounted.few
    rw [List.filter_append,List.filter_cons,keep1,keep2]
    simp [dead,live] at few ⊢
    omega
  · have done := accounted.done
    simp [live.open] at done ⊢
    omega

/-- A slot without a request that is marked as completed counts as reported. -/
theorem accounted_vain {q : memory_pending_t} (dead : ¬ q.Live) {before rest : List memory_pending_t}
    (place : slots = before ++ q :: rest) :
    Accounted (before ++ { q with op := .COMPLETED } :: rest) unreported (q.address :: reported) := by
  subst place
  have dead' : ¬ ({ q with op := .COMPLETED } : memory_pending_t).Live := fun live => live.open rfl
  have shape {r : memory_pending_t} (inside : r ∈ before ++ { q with op := .COMPLETED } :: rest) :
      r = { q with op := .COMPLETED } ∨ r ∈ before ++ q :: rest := by
    simp only [List.mem_append,List.mem_cons] at inside ⊢
    tauto
  constructor
  · intro r inside
    obtain ⟨held,live⟩ := accounted.backed r inside
    refine ⟨?_,live⟩
    simp only [List.mem_append,List.mem_cons] at held ⊢
    rcases held with held | rfl | held
    · exact .inl held
    · exact absurd live dead
    · exact .inr (.inr held)
  · exact accounted.single
  · have front := accounted.fronted
    simp only [List.pairwise_append,List.pairwise_cons,List.mem_cons] at front ⊢
    refine ⟨front.1,front.2.1,?_⟩
    rintro r inside t (rfl | later) live
    · exact absurd live dead'
    · exact front.2.2 r inside t (.inr later) live
  · intro r inside live
    rcases shape inside with rfl | held
    · exact absurd live dead'
    · exact accounted.live r held live
  · intro r inside done
    rcases shape inside with rfl | held
    · exact List.mem_cons_self
    · exact List.mem_cons_of_mem _ (accounted.completed r held done)
  · have few := accounted.few
    simp [dead,dead'] at few ⊢
    omega
  · have done := accounted.done
    simp only [List.countP_append,List.countP_cons,List.length_cons] at done ⊢
    split at done <;> simp <;> omega

theorem accounted_retire :
    Accounted (slots.map (fun pnd => if pnd.op = .COMPLETED then { pnd with op := .NONE } else pnd)) unreported [] := by
  have same {q : memory_pending_t} (live : (if q.op = .COMPLETED then { q with op := .NONE } else q).Live) :
      q.Live ∧ (if q.op = .COMPLETED then { q with op := .NONE } else q) = q := by
    split at live
    · exact absurd rfl live.taken
    · rename_i open_
      exact ⟨live,if_neg open_⟩
  have address (q : memory_pending_t) : (if q.op = .COMPLETED then { q with op := .NONE } else q).address =
      q.address := by
    split <;> rfl
  constructor
  · intro q inside
    obtain ⟨held,live⟩ := accounted.backed q inside
    exact ⟨List.mem_map.mpr ⟨q,held,if_neg live.open⟩,live⟩
  · exact accounted.single
  · refine List.pairwise_map.mpr (accounted.fronted.imp fun apart live => ?_)
    rw [address,address]
    exact apart (same live).1
  · intro r inside live
    obtain ⟨q,held,rfl⟩ := List.mem_map.mp inside
    rw [(same live).2]
    exact accounted.live q held (same live).1
  · intro r inside done
    obtain ⟨q,-,rfl⟩ := List.mem_map.mp inside
    split at done
    · cases done
    · rename_i open_
      exact absurd done open_
  · refine le_trans (le_of_eq ?_) accounted.few
    rw [List.countP_map]
    refine List.countP_congr fun q inside => ?_
    simp only [Function.comp,decide_eq_true_eq]
    constructor
    · exact fun live => (same live).1
    · intro live
      rw [if_neg live.open]
      exact live
  · refine le_of_eq (List.countP_eq_zero.mpr fun r inside => ?_)
    obtain ⟨q,-,rfl⟩ := List.mem_map.mp inside
    split
    · simp
    · rename_i open_
      simpa using open_

end

theorem accounted_initialize : Accounted memory_initialize_pending.slots [] [] := by
  constructor <;> simp [memory_initialize_pending,memory_pending_t.Live]

/-- The slot of a request made now. -/
def request (fw : Framework) (address n_bytes : U64) (op : MemoryOp) : memory_pending_t :=
  ⟨address,n_bytes,fw.cycle_counter + (if op = .WRITE then fw.memory_write_latency else fw.memory_read_latency),op⟩

theorem SameTable.request {fw fw' : Framework} (same : SameTable fw fw') (a n : U64) (op : MemoryOp) :
    fw'.request a n op = fw.request a n op := by
  rw [Framework.request,Framework.request,same.cycle,same.read_latency,same.write_latency]

theorem memory_add_pending_added {fw : Framework} {a n : U64} {op : MemoryOp} {after : List memory_pending_t}
    (added : add_pending (fw.request a n op) fw.memory_pending.slots = some after) :
    (fw.memory_add_pending a n op).1 = true ∧ (fw.memory_add_pending a n op).2.memory_pending.slots = after := by
  constructor
  · unfold memory_add_pending
    simp only
    split
    · rename_i full
      cases full.symm.trans added
    · rfl
  · rw [add_pending_slots]
    exact congrArg (fun r => Option.getD r _) added

end Framework

/-! ### The ledger -/

/-- A request and the stage that made it. -/
structure Request where
  stage : Stage
  slot : memory_pending_t

/-- The framework, the requests not reported yet, the addresses reported in this cycle, and whether
    a request was dropped. -/
structure Ledger where
  framework : Framework
  unreported : List Request
  reported : List U64
  dropped : Bool

namespace Ledger

/-- The entries after a request. -/
def asked (s : Ledger) (address n_bytes : U64) (op : MemoryOp) (done : Bool) (framework : Framework) : Ledger :=
  if done then { s with framework := framework }
  else { s with
    framework := framework
    unreported := ⟨s.framework.current_stage,s.framework.request address n_bytes op⟩ :: s.unreported
    dropped := s.dropped || !(s.framework.memory_add_pending address n_bytes op).1 }

/-- The entries after a poll. -/
def told (s : Ledger) (address : U64) (done : Bool) (framework : Framework) : Ledger :=
  if done then { s with
    framework := framework
    unreported := s.unreported.filter fun r => ¬ (r.stage = s.framework.current_stage ∧ r.slot.address = address)
    reported := address :: s.reported }
  else { s with framework := framework }

def memory_read (s : Ledger) (address : U64) (value : Buffer) (size_in_bytes : U64) : Bool × Buffer × Ledger :=
  let (done,data,framework) := s.framework.memory_read address value size_in_bytes
  (done,data,s.asked address size_in_bytes .READ done framework)
def memory_write (s : Ledger) (address value size_in_bytes : U64) : Bool × Ledger :=
  let (done,framework) := s.framework.memory_write address value size_in_bytes
  (done,s.asked address size_in_bytes .WRITE done framework)
def memory_status (s : Ledger) (address : U64) (value : Option Buffer) : Option (Bool × Option Buffer × Ledger) :=
  (s.framework.memory_status address value).map fun (done,data,framework) => (done,data,s.told address done framework)
def enter (s : Ledger) (stage : Stage) : Ledger := { s with framework := s.framework.enter stage }
def end_cycle (s : Ledger) : Ledger := { s with framework := s.framework.end_cycle, reported := [] }

theorem memory_status_only {s s' : Ledger} {a : U64} {v v' : Option Buffer} {done : Bool}
    (polled : s.memory_status a v = some (done,v',s')) :
    ∃ pending, s'.framework = { s.framework with memory_pending := pending } := by
  obtain ⟨⟨done,data,fw⟩,answered,same⟩ := Option.map_eq_some_iff.mp polled
  cases same
  have framework : (s.told a done fw).framework = fw := by
    unfold told
    split <;> rfl
  rw [framework]
  exact Framework.memory_status_only answered

/-- The ledger is what the table holds, and nothing was dropped. -/
structure Accounts (s : Ledger) : Prop where
  table : Framework.Accounted s.framework.memory_pending.slots (s.unreported.map (·.slot)) s.reported
  inside : ∀ r ∈ s.unreported, ¬ r.slot.address + r.slot.n_bytes > s.framework.riscv_mem_size
  kept : s.dropped = false

/-- No other request is about the address, and there is a free slot. -/
structure Admits (s : Ledger) (address : U64) : Prop where
  fresh : ∀ r ∈ s.unreported, r.slot.address ≠ address
  unheard : address ∉ s.reported
  room : s.unreported.length + s.reported.length < MEMORY_MAX_PENDING

/-- The current stage has a request for the address, and polls a read with a buffer. -/
def Owes (s : Ledger) (address : U64) (value : Option Buffer) (r : Request) : Prop :=
  r ∈ s.unreported ∧ r.stage = s.framework.current_stage ∧ r.slot.address = address ∧
  (r.slot.op = .READ → value.isSome = true)

section
variable {s s' : Ledger} (accounts : s.Accounts)
include accounts

theorem accounts_same {fw : Framework} (same : Framework.SameTable s.framework fw) :
    Accounts { s with framework := fw } where
  table := by
    show Framework.Accounted fw.memory_pending.slots _ _
    rw [same.pending]
    exact accounts.table
  inside r held := by
    show ¬ _ > fw.riscv_mem_size
    rw [same.size]
    exact accounts.inside r held
  kept := accounts.kept

theorem accounts_enter (stage : Stage) : (s.enter stage).Accounts :=
  ⟨accounts.table,accounts.inside,accounts.kept⟩

theorem accounts_end_cycle : s.end_cycle.Accounts :=
  ⟨Framework.accounted_retire accounts.table,accounts.inside,accounts.kept⟩

/-- A request that is admitted and not answered at once takes a slot. -/
theorem accounts_asked {a n : U64} {op : MemoryOp} (kind : op = .READ ∨ op = .WRITE) (admits : s.Admits a)
    {fw : Framework} (same : Framework.SameTable s.framework fw) (proper : ¬ a + n > s.framework.riscv_mem_size) :
    (s.asked a n op false (fw.memory_add_pending a n op).2).Accounts := by
  have room : (s.unreported.map (·.slot)).length + s.reported.length < s.framework.memory_pending.slots.length := by
    rw [List.length_map,s.framework.memory_pending.size_eq]
    exact admits.room
  obtain ⟨after,added⟩ := Framework.accounted_room accounts.table room (s.framework.request a n op)
  have added' : Framework.add_pending (fw.request a n op) fw.memory_pending.slots = some after := by
    rw [same.request,same.pending]
    exact added
  have slots := (Framework.memory_add_pending_added added').2
  constructor
  · show Framework.Accounted (fw.memory_add_pending a n op).2.memory_pending.slots _ _
    rw [slots]
    have live : (s.framework.request a n op).Live := kind
    refine Framework.accounted_add accounts.table live ?_ admits.unheard added
    intro q held
    obtain ⟨r,inside,rfl⟩ := List.mem_map.mp held
    exact admits.fresh r inside
  · intro r held
    show ¬ _ > (fw.memory_add_pending a n op).2.riscv_mem_size
    rw [Framework.add_pending_size,same.size]
    rcases List.mem_cons.mp held with rfl | held
    · exact proper
    · exact accounts.inside r held
  · show (s.dropped || !(s.framework.memory_add_pending a n op).1) = false
    rw [accounts.kept,(Framework.memory_add_pending_added added).1]
    rfl

theorem accounts_read {a n : U64} (v : Buffer) (admits : s.Admits a) : (s.memory_read a v n).2.2.Accounts := by
  unfold memory_read
  rcases Framework.memory_read_cases s.framework a v n with ⟨v',fw',read,same⟩ | ⟨v',fw',read,takes⟩
  · rw [read]
    exact accounts_same accounts same
  · rw [read]
    exact accounts_asked accounts (.inl rfl) admits takes.same takes.proper

theorem accounts_write {a v n : U64} (admits : s.Admits a) : (s.memory_write a v n).2.Accounts := by
  unfold memory_write
  rcases Framework.memory_write_cases s.framework a v n with ⟨fw',write,same⟩ | ⟨fw',write,takes⟩
  · rw [write]
    exact accounts_same accounts same
  · rw [write]
    exact accounts_asked accounts (.inr rfl) admits takes.same takes.proper

/-- An address has one request that is not reported. -/
theorem unreported_single {q r : Request} (left : q ∈ s.unreported) (right : r ∈ s.unreported)
    (same : q.slot.address = r.slot.address) : q = r := by
  have single := accounts.table.single
  obtain ⟨before,rest,entries⟩ := List.append_of_mem right
  rw [List.pairwise_map,entries,List.pairwise_append,List.pairwise_cons] at single
  rw [entries] at left
  rcases List.mem_append.mp left with front | behind
  · exact absurd same (single.2.2 q front r List.mem_cons_self)
  · rcases List.mem_cons.mp behind with equal | behind
    · exact equal
    · exact absurd same.symm (single.2.1.1 q behind)

/-- What the poll of a request of one's own does: it is answered from its slot, true exactly
    if the end cycle has come, and with the bytes of memory if it is a read. -/
structure Answered (s s' : Ledger) (r : Request) (value value' : Option Buffer) (done : Bool) : Prop where
  accounts : s'.Accounts
  ended : done = true ↔ r.slot.end_cycle ≤ s.framework.cycle_counter
  bytes : done = true → r.slot.op = .READ → ∃ b, value' = some b ∧
    ∀ i < r.slot.n_bytes.toNat, b i = s.framework.riscv_mem (r.slot.address + BitVec.ofNat 64 i)
  waits : done = false → s' = s
  entries : done = true → s'.unreported = s.unreported.filter
    (fun q => ¬ (q.stage = r.stage ∧ q.slot.address = r.slot.address)) ∧ s'.reported = r.slot.address :: s.reported

theorem status_answered {a : U64} {v : Option Buffer} {r : Request} (owes : s.Owes a v r) :
    ∃ done v' s', s.memory_status a v = some (done,v',s') ∧ Answered s s' r v v' done := by
  obtain ⟨held,stage,rfl,buffer⟩ := owes
  have waits : r.slot ∈ s.unreported.map (·.slot) := List.mem_map_of_mem held
  obtain ⟨before,rest,place,polled⟩ := Framework.accounted_status accounts.table waits s.framework.cycle_counter
  by_cases ended : r.slot.end_cycle ≤ s.framework.cycle_counter
  · rw [if_pos ended] at polled
    have size : (before ++ { r.slot with op := .COMPLETED } :: rest).length = MEMORY_MAX_PENDING :=
      (Framework.status_pending_length polled).trans s.framework.memory_pending.size_eq
    -- the ledger loses the request, and no other one of the address
    have only : s.unreported.filter (fun q => ¬ (q.stage = r.stage ∧ q.slot.address = r.slot.address)) =
        s.unreported.filter (fun q => q.slot.address ≠ r.slot.address) := by
      refine List.filter_congr fun q inside => ?_
      simp only [decide_eq_decide,ne_eq,not_iff_not,and_iff_right_iff_imp]
      exact fun same => congrArg Request.stage (unreported_single accounts inside held same)
    have told := Framework.accounted_report accounts.table waits place
    rw [List.filter_map] at told
    have after : (s.told r.slot.address true { s.framework with memory_pending := ⟨_,size⟩ }).Accounts := by
      refine ⟨?_,fun q inside => accounts.inside q (List.mem_of_mem_filter inside),accounts.kept⟩
      show Framework.Accounted _ ((s.unreported.filter _).map _) _
      rw [← stage,only]
      exact told
    have entries : (s.told r.slot.address true { s.framework with memory_pending := ⟨_,size⟩ }).unreported =
        s.unreported.filter (fun q => ¬ (q.stage = r.stage ∧ q.slot.address = r.slot.address)) := by
      rw [stage]
      rfl
    have found := Framework.memory_status_found v ⟨_,size⟩ polled
    by_cases read : r.slot.op = .READ
    · rw [if_pos read] at found
      obtain ⟨b,rfl⟩ := Option.isSome_iff_exists.mp (buffer read)
      refine ⟨true,some (s.framework.memory_dump b r.slot.address r.slot.n_bytes).2,_,?_,after,iff_of_true rfl ended,
        fun _ _ => ⟨_,rfl,fun i small => ?_⟩,by rintro ⟨⟩,fun _ => ⟨entries,rfl⟩⟩
      · rw [memory_status,found]
        rfl
      · rw [Framework.memory_dump,if_neg (accounts.inside r held)]
        simp [copy,small]
    · rw [if_neg read] at found
      refine ⟨true,v,_,?_,after,iff_of_true rfl ended,fun _ op => absurd op read,by rintro ⟨⟩,
        fun _ => ⟨entries,rfl⟩⟩
      rw [memory_status,found]
      rfl
  · rw [if_neg ended] at polled
    refine ⟨false,v,s.told r.slot.address false s.framework,?_,accounts,?_,by rintro ⟨⟩,fun _ => rfl,
      by rintro ⟨⟩⟩
    · rw [memory_status,Framework.memory_status_missed v polled]
      rfl
    · simp [ended]

/-- A poll at an address that no request is about leaves the requests alone. -/
theorem status_vain {a : U64} {v v' : Option Buffer} {done : Bool} (free : ∀ r ∈ s.unreported, r.slot.address ≠ a)
    (polled : s.memory_status a v = some (done,v',s')) :
    s'.Accounts ∧ s'.unreported = s.unreported ∧ (s'.reported = s.reported ∨ s'.reported = a :: s.reported) := by
  obtain ⟨⟨done,data,fw⟩,answered,same⟩ := Option.map_eq_some_iff.mp polled
  cases same
  cases found : Framework.status_pending a s.framework.cycle_counter s.framework.memory_pending.slots with
  | none =>
    rw [Framework.memory_status_missed v found] at answered
    cases answered
    exact ⟨accounts,rfl,.inl rfl⟩
  | some r =>
    obtain ⟨q,after⟩ := r
    obtain ⟨before,rest,place,-,rfl,-,rfl⟩ := Framework.status_pending_split found
    have size := (Framework.status_pending_length found).trans s.framework.memory_pending.size_eq
    have dead : ¬ q.Live := by
      intro live
      obtain ⟨r,held,rfl⟩ := List.mem_map.mp (accounts.table.live q (by rw [place]; simp) live)
      exact free r held rfl
    have kept : s.unreported.filter (fun r => ¬ (r.stage = s.framework.current_stage ∧ r.slot.address = q.address)) =
        s.unreported :=
      List.filter_eq_self.mpr fun r held => decide_eq_true fun both => free r held both.2
    have after : fw = { s.framework with memory_pending := ⟨_,size⟩ } ∧ done = true := by
      rw [Framework.memory_status_found v ⟨_,size⟩ found] at answered
      split at answered
      · obtain ⟨b,-,same⟩ := Option.map_eq_some_iff.mp answered
        cases same
        exact ⟨rfl,rfl⟩
      · cases answered
        exact ⟨rfl,rfl⟩
    obtain ⟨rfl,rfl⟩ := after
    refine ⟨⟨?_,?_,accounts.kept⟩,kept,.inr rfl⟩
    · show Framework.Accounted _ ((s.unreported.filter _).map _) _
      rw [kept]
      exact Framework.accounted_vain accounts.table dead place
    · show ∀ r ∈ s.unreported.filter _, _
      rw [kept]
      exact accounts.inside

end

/-! ### Any interleaving of the clients -/

/-- What happens to memory: the calls of a stage, and the end of a cycle. -/
inductive ClientOp where
  | memory_read (stage : Stage) (address : U64) (value : Buffer) (size_in_bytes : U64)
  | memory_write (stage : Stage) (address value size_in_bytes : U64)
  | memory_status (stage : Stage) (address : U64) (value : Option Buffer)
  | end_cycle

def step (s : Ledger) : ClientOp → Except Abort Ledger
  | .memory_read stage address value size_in_bytes => .ok ((s.enter stage).memory_read address value size_in_bytes).2.2
  | .memory_write stage address value size_in_bytes => .ok ((s.enter stage).memory_write address value size_in_bytes).2
  | .memory_status stage address value =>
    match (s.enter stage).memory_status address value with
    | none => .error .null_pointer
    | some (_,_,s') => .ok s'
  | .end_cycle => .ok s.end_cycle

/-- Requests are admitted, and polls are of a request of the client's own. -/
def Orderly (s : Ledger) : ClientOp → Prop
  | .memory_read _ address _ _ => s.Admits address
  | .memory_write _ address _ _ => s.Admits address
  | .memory_status stage address value => ∃ r ∈ s.unreported, (s.enter stage).Owes address value r
  | .end_cycle => True

instance (s : Ledger) (address : U64) : Decidable (s.Admits address) :=
  decidable_of_iff ((∀ r ∈ s.unreported, r.slot.address ≠ address) ∧ address ∉ s.reported ∧
      s.unreported.length + s.reported.length < MEMORY_MAX_PENDING)
    ⟨fun ⟨fresh,unheard,room⟩ => ⟨fresh,unheard,room⟩,fun ⟨fresh,unheard,room⟩ => ⟨fresh,unheard,room⟩⟩
instance (s : Ledger) (op : ClientOp) : Decidable (s.Orderly op) :=
  match op with
  | .memory_read _ _ _ _ => inferInstanceAs (Decidable (s.Admits _))
  | .memory_write _ _ _ _ => inferInstanceAs (Decidable (s.Admits _))
  | .memory_status stage address value =>
    decidable_of_iff (∃ r ∈ s.unreported, r.stage = stage ∧ r.slot.address = address ∧
      (r.slot.op = .READ → value.isSome = true))
      ⟨fun ⟨r,held,rest⟩ => ⟨r,held,held,rest⟩,fun ⟨r,held,owes⟩ => ⟨r,held,owes.2⟩⟩
  | .end_cycle => isTrue trivial

theorem accounts_step (s : Ledger) (op : ClientOp) (s' : Ledger) (accounts : s.Accounts) (orderly : s.Orderly op)
    (stepped : s.step op = .ok s') : s'.Accounts := by
  cases op with
  | memory_read stage a v n =>
    cases stepped
    exact accounts_read (accounts_enter accounts stage) v ⟨orderly.fresh,orderly.unheard,orderly.room⟩
  | memory_write stage a v n =>
    cases stepped
    exact accounts_write (accounts_enter accounts stage) ⟨orderly.fresh,orderly.unheard,orderly.room⟩
  | memory_status stage a v =>
    obtain ⟨r,-,owes⟩ := orderly
    obtain ⟨done,v',s₁,polled,answered⟩ := status_answered (accounts_enter accounts stage) owes
    rw [step,polled] at stepped
    cases stepped
    exact answered.accounts
  | end_cycle =>
    cases stepped
    exact accounts_end_cycle accounts

/-- The ledger at the start: nothing asked. -/
def opened (framework : Framework) : Ledger := ⟨framework,[],[],false⟩

theorem accounts_opened {fw : Framework} (zeroed : fw.memory_pending = memory_initialize_pending) :
    (opened fw).Accounts where
  table := by
    show Framework.Accounted fw.memory_pending.slots [] []
    rw [zeroed]
    exact Framework.accounted_initialize
  inside := nofun
  kept := rfl

/-- Each client gets its own completion. After any interleaving of orderly clients, the poll of a
    client that has a request is answered from the slot of that request: true exactly if its end cycle
    has come, and then with the bytes of memory if it is a read. -/
theorem own_completion (fw : Framework) (zeroed : fw.memory_pending = memory_initialize_pending)
    (ops : List ClientOp) (s : Ledger) (orderly : Guarded step Orderly (opened fw) ops)
    (ran : run step (opened fw) ops = .ok s) (stage : Stage) (a : U64) (v : Option Buffer)
    (next : s.Orderly (.memory_status stage a v)) :
    ∃ r ∈ s.unreported, r.stage = stage ∧ r.slot.address = a ∧ r.slot ∈ s.framework.memory_pending.slots ∧ r.slot.Live ∧
      ∃ done v' s', (s.enter stage).memory_status a v = some (done,v',s') ∧
        (done = true ↔ r.slot.end_cycle ≤ s.framework.cycle_counter) ∧
        (done = true → r.slot.op = .READ → ∃ b, v' = some b ∧
          ∀ i < r.slot.n_bytes.toNat, b i = s.framework.riscv_mem (a + BitVec.ofNat 64 i)) := by
  have accounts := guarded_invariant Accounts accounts_step (accounts_opened zeroed) orderly ran
  obtain ⟨r,held,owes⟩ := next
  have made := owes.2.1
  obtain rfl : r.slot.address = a := owes.2.2.1
  obtain ⟨inside,live⟩ := accounts.table.backed r.slot (List.mem_map_of_mem held)
  obtain ⟨done,v',s',polled,answered⟩ := status_answered (accounts_enter accounts stage) owes
  exact ⟨r,held,made,rfl,inside,live,done,v',s',polled,answered.ended,answered.bytes⟩

/-- Memory with latency 1, every byte 7. -/
def slow : Framework := .initial (fun _ => 7) 0 1 1
def zeros : Buffer := fun _ => 0

/-- Both stages read, and fetch polls after memory. -/
theorem own_completion_two_reads : ∃ s done v' s', run step (opened slow)
      [.memory_read .M 0x10 zeros 8,.memory_read .F 0x40 zeros 16,.end_cycle,.memory_status .M 0x10 (some zeros)] =
        .ok s ∧ (s.enter .F).memory_status 0x40 (some zeros) = some (done,v',s') ∧
    ∃ r ∈ s.unreported, r.slot.address = 0x40 ∧ (done = true ↔ r.slot.end_cycle ≤ s.framework.cycle_counter) := by
  have orderly : Guarded step Orderly (opened slow)
      [.memory_read .M 0x10 zeros 8,.memory_read .F 0x40 zeros 16,.end_cycle,.memory_status .M 0x10 (some zeros)] :=
      by decide +kernel
  have result : okAnd (run step (opened slow)
      [.memory_read .M 0x10 zeros 8,.memory_read .F 0x40 zeros 16,.end_cycle,.memory_status .M 0x10 (some zeros)])
      (fun s => decide (s.Orderly (.memory_status .F 0x40 (some zeros)))) = true := by decide +kernel
  obtain ⟨s,ran,next⟩ := okAnd_iff.mp result
  obtain ⟨r,held,-,address,-,-,done,v',s',polled,ended,-⟩ :=
    own_completion slow rfl _ s orderly ran .F 0x40 (some zeros) (of_decide_eq_true next)
  exact ⟨s,done,v',s',ran,polled,r,held,address,ended⟩

/-- Both stages read the same word, as two walks of one root entry do. Memory's poll is answered
    from the first slot; so is that of fetch in the same cycle, and nothing is stored for it. -/
theorem same_word_lost : ∃ s v' s', run step (opened slow)
      [.memory_read .M 0x400000 zeros 4,.memory_read .F 0x400000 zeros 4,.end_cycle,.memory_status .M 0x400000
        (some zeros)] = .ok s ∧
    (∃ r ∈ s.unreported, r.stage = .F ∧ r.slot.address = 0x400000 ∧ r.slot.op = .READ ∧ r.slot.n_bytes = 4) ∧
    (s.enter .F).memory_status 0x400000 (some zeros) = some (true,some v',s') ∧ v' 0 = 0 ∧
    s.framework.riscv_mem 0x400000 = 7 := by
  have result : okAnd (run step (opened slow)
      [.memory_read .M 0x400000 zeros 4,.memory_read .F 0x400000 zeros 4,.end_cycle,
        .memory_status .M 0x400000 (some zeros)])
      (fun s => decide (∃ r ∈ s.unreported, r.stage = .F ∧ r.slot.address = 0x400000 ∧ r.slot.op = .READ ∧
        r.slot.n_bytes = 4) &&
        ((s.enter .F).memory_status 0x400000 (some zeros)).any (fun answer => answer.1 &&
          answer.2.1.any (fun v' => decide (v' 0 = 0 ∧ s.framework.riscv_mem 0x400000 = 7)))) =
            true := by decide +kernel
  obtain ⟨s,ran,result⟩ := okAnd_iff.mp result
  obtain ⟨waits,result⟩ := Bool.and_eq_true_iff.mp result
  obtain ⟨⟨done,value,s'⟩,polled,result⟩ := (Option.any_eq_true _ _).mp result
  obtain ⟨rfl,result⟩ := Bool.and_eq_true_iff.mp result
  obtain ⟨v',rfl,result⟩ := (Option.any_eq_true _ _).mp result
  exact ⟨s,v',s',ran,of_decide_eq_true waits,polled,of_decide_eq_true result⟩

end Ledger
end RiscvSim
