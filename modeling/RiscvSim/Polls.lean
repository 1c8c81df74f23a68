import RiscvSim.Clients
import RiscvSim.Forwarding

/-!
The requests of fetch and memory over whole runs. The framework is watched: the ledger keeps
the requests not reported, and every `memory_status` call of a cache is recorded with what it
finds. What each of the two stages asks next can be told from the pipeline, so in attentive cycles
the requests not reported are those of the two stages that wait: no more than two, none dropped,
and every poll has its own behind it.
-/
namespace RiscvSim
open Bytes Runs

/-- The bytes that a cache of the stage asks for. -/
def Stage.block_bytes (stage : Stage) : U64 := if stage = .F then CacheType.row_bytes .INSTRUCTION
    else CacheType.row_bytes .DATA

/-- A call of `memory_status` in `evict_read` or `evict_write`: the stage, the address, whether
    there is a destination, the requests not reported and the table found. -/
structure Poll where
  stage : Stage
  address : U64
  reads : Bool
  unreported : List Request
  slots : List memory_pending_t

/-- A request of the stage for this access waits in the table: for the read of a block, or
    the write-back of one. -/
def Poll.Backed (poll : Poll) : Prop :=
  ∃ r ∈ poll.unreported, r.stage = poll.stage ∧ r.slot ∈ poll.slots ∧ r.slot.address = poll.address ∧
    r.slot.n_bytes = poll.stage.block_bytes ∧ r.slot.op = (if poll.reads then .READ else .WRITE)
instance (poll : Poll) : Decidable poll.Backed := List.decidableBEx _ _

/-- The ledger, with the polls of the caches so far. -/
structure Watched where
  ledger : Ledger
  polls : List Poll

namespace Watched

def tlb_port : MemoryPort Watched where
  memory_read s address value size_in_bytes :=
    let (done,data,ledger) := s.ledger.memory_read address value size_in_bytes
    (done,data,{ s with ledger := ledger })
  memory_write s address value size_in_bytes :=
    let (done,ledger) := s.ledger.memory_write address value size_in_bytes
    (done,{ s with ledger := ledger })
  memory_status s address value :=
    (s.ledger.memory_status address value).map fun (done,data,ledger) => (done,data,{ s with ledger := ledger })
  status_bytes s := s.ledger.framework.status_bytes

/-- The poll as the call finds it. -/
def poll (s : Watched) (address : U64) (reads : Bool) : Poll :=
  ⟨s.ledger.framework.current_stage,address,reads,s.ledger.unreported,s.ledger.framework.memory_pending.slots⟩

def cache_port : MemoryPort Watched where
  memory_read := tlb_port.memory_read
  memory_write := tlb_port.memory_write
  memory_status s address value :=
    (s.ledger.memory_status address value).map fun (done,data,ledger) =>
    (done,data,⟨ledger,s.polls ++ [s.poll address value.isSome]⟩)
  status_bytes := tlb_port.status_bytes

def backing : Backing Watched where
  tlb_port := tlb_port
  cache_port := cache_port
  ptbr s := s.ledger.framework.ptbr
  memory_dump s := s.ledger.framework.memory_dump
  enter s stage := { s with ledger := s.ledger.enter stage }
  end_cycle s := { s with ledger := s.ledger.end_cycle }

/-- All polls recorded are backed. -/
def Logged (s : Watched) : Prop := ∀ poll ∈ s.polls, poll.Backed

end Watched

/-- The simulator with its requests and polls recorded. -/
def watched : MemorySystem (MemoryState Watched) CalleeLocals := simulatorOver Watched.backing

/-! ### One request or poll -/

/-- A request or a poll of the current stage, and whether it is answered. -/
inductive Asked (s : Watched) (ask : Ask) : Bool → Bool → Watched → Prop
  | read (op : ask.op = .READ) (v v' : Buffer) (done : Bool) (ledger : Ledger)
    (asked : s.ledger.memory_read ask.address v ask.n_bytes = (done,v',ledger)) :
    Asked s ask false done ⟨ledger,s.polls⟩
  | write (op : ask.op = .WRITE) (v : U64) (done : Bool) (ledger : Ledger)
    (asked : s.ledger.memory_write ask.address v ask.n_bytes = (done,ledger)) : Asked s ask false done ⟨ledger,s.polls⟩
  | poll (v v' : Option Buffer) (op : ask.op = if v.isSome then .READ else .WRITE) (done : Bool) (ledger : Ledger)
    (polls : List Poll)
    (asked : s.ledger.memory_status ask.address v = some (done,v',ledger))
    (recorded : polls = s.polls ∨
      polls = s.polls ++ [s.poll ask.address v.isSome] ∧ ask.n_bytes = s.ledger.framework.current_stage.block_bytes) :
    Asked s ask true done ⟨ledger,polls⟩

/-- What a stage does with memory in a cycle: nothing if there is nothing to ask, else the
    request or the poll, and then it waits unless it is answered. -/
inductive Does (s : Watched) : Option (Ask × Bool) → Watched → Option Ask → Prop
  | nothing : Does s none s none
  | answered (ask : Ask) (poll : Bool) (s' : Watched) (asked : Asked s ask poll true s') :
    Does s (some (ask,poll)) s' none
  | waits (ask : Ask) (poll : Bool) (s' : Watched) (asked : Asked s ask poll false s') :
    Does s (some (ask,poll)) s' (some ask)

section
variable {s s' : Watched}

theorem read_word_asked {a v word : U32} {poll done : Bool}
    (read : Watched.tlb_port.read_word s a v poll = .ok (done,word,s')) :
    Asked s ⟨a.setWidth 64,4,.READ⟩ poll done s' := by
  cases poll with
  | false =>
    cases read
    exact .read rfl _ _ _ _ rfl
  | true =>
    unfold MemoryPort.read_word at read
    simp only at read
    split at read
    · cases read
    split at read
    · cases read
    · rename_i answered
      cases read
      obtain ⟨⟨done,data,ledger⟩,status,same⟩ := Option.map_eq_some_iff.mp answered
      cases same
      exact .poll _ _ rfl _ _ _ status (.inl rfl)

theorem get_block_asked {cache : CacheTable} {a : U64} {row : CacheRow} {followup done : Bool} {data : Buffer}
    (bytes : cache.cache_type.row_bytes = s.ledger.framework.current_stage.block_bytes)
    (asked : cache.get_block Watched.cache_port s a row followup = .ok (done,data,s')) :
    Asked s ⟨a,cache.cache_type.row_bytes,.READ⟩ followup done s' := by
  cases followup with
  | false =>
    cases asked
    exact .read rfl _ _ _ _ rfl
  | true =>
    unfold CacheTable.get_block at asked
    simp only at asked
    split at asked
    · cases asked
    · rename_i answered
      cases asked
      obtain ⟨⟨done,data,ledger⟩,status,same⟩ := Option.map_eq_some_iff.mp answered
      cases same
      exact .poll _ _ rfl _ _ _ status (.inr ⟨rfl,bytes⟩)

theorem put_block_asked {cache : CacheTable} {i : U64} {row : CacheRow} {followup done : Bool}
    (stage : s.ledger.framework.current_stage = .M)
    (asked : cache.put_block Watched.cache_port s i row followup = .ok (done,s')) :
    Asked s ⟨cache.oldAddress i,8,.WRITE⟩ followup done s' := by
  cases followup with
  | false =>
    cases asked
    exact .write rfl _ _ _ rfl
  | true =>
    unfold CacheTable.put_block at asked
    simp only at asked
    split at asked
    · cases asked
    · rename_i answered
      cases asked
      obtain ⟨⟨done,data,ledger⟩,status,same⟩ := Option.map_eq_some_iff.mp answered
      cases same
      refine .poll none _ rfl _ _ _ status (.inr ⟨rfl,?_⟩)
      rw [stage]
      rfl

/-- A request is answered at once and leaves the table alone, or it takes a slot. -/
theorem asked_request {ask : Ask} {done : Bool} (asked : Asked s ask false done s') :
    (done = true ∧ ∃ fw, Framework.SameTable s.ledger.framework fw ∧ s' = ⟨{ s.ledger with framework := fw },s.polls⟩) ∨
      done = false ∧ (ask.op = .READ ∨ ask.op = .WRITE) ∧
        ∃ fw, Framework.Takes s.ledger.framework fw ask.address ask.n_bytes ∧
        s' = ⟨s.ledger.asked ask.address ask.n_bytes ask.op false
          (fw.memory_add_pending ask.address ask.n_bytes ask.op).2,s.polls⟩ := by
  cases asked with
  | read op v v' done ledger asked =>
    rcases Framework.memory_read_cases s.ledger.framework ask.address v ask.n_bytes with
      ⟨v',fw',read,same⟩ | ⟨v',fw',read,takes⟩
    · rw [Ledger.memory_read,read] at asked
      cases asked
      exact .inl ⟨rfl,fw',same,rfl⟩
    · rw [Ledger.memory_read,read] at asked
      cases asked
      exact .inr ⟨rfl,.inl op,fw',takes,by rw [op]⟩
  | write op v done ledger asked =>
    rcases Framework.memory_write_cases s.ledger.framework ask.address v ask.n_bytes with
      ⟨fw',write,same⟩ | ⟨fw',write,takes⟩
    · rw [Ledger.memory_write,write] at asked
      cases asked
      exact .inl ⟨rfl,fw',same,rfl⟩
    · rw [Ledger.memory_write,write] at asked
      cases asked
      exact .inr ⟨rfl,.inr op,fw',takes,by rw [op]⟩

/-- No call moves the page table or the stage. -/
theorem asked_only {ask : Ask} {poll done : Bool} (asked : Asked s ask poll done s') :
    s'.ledger.framework.ptbr = s.ledger.framework.ptbr ∧
      s'.ledger.framework.current_stage = s.ledger.framework.current_stage := by
  cases poll with
  | false =>
    obtain ⟨-,fw,same,rfl⟩ | ⟨-,-,fw,takes,rfl⟩ := asked_request asked
    · exact ⟨same.ptbr,same.stage⟩
    · obtain ⟨pending,only⟩ := Framework.add_pending_only fw ask.address ask.n_bytes ask.op
      show (fw.memory_add_pending _ _ _).2.ptbr = _ ∧ (fw.memory_add_pending _ _ _).2.current_stage = _
      rw [only]
      exact ⟨takes.same.ptbr,takes.same.stage⟩
  | true =>
    cases asked with
    | poll v v' op done ledger polls asked recorded =>
      obtain ⟨pending,only⟩ := Ledger.memory_status_only asked
      rw [only]
      exact ⟨rfl,rfl⟩

/-- The second request of a stage in a cycle is refused, that is answered at once. -/
theorem asked_refused {ask ask' : Ask} {s₁ : Watched} {done : Bool} (first : Asked s ask false false s₁)
    (second : Asked s₁ ask' false done s') : done = true := by
  obtain ⟨wrong,-⟩ | ⟨-,-,fw,takes,rfl⟩ := asked_request first
  · cases wrong
  obtain ⟨answered,-⟩ | ⟨-,-,fw',again,-⟩ := asked_request second
  · exact answered
  · obtain ⟨pending,only⟩ := Framework.add_pending_only fw ask.address ask.n_bytes ask.op
    have free : (fw.memory_add_pending ask.address ask.n_bytes ask.op).2.current_stage ∉
      (fw.memory_add_pending ask.address ask.n_bytes ask.op).2.memory_accesses_issued := again.free
    rw [only] at free
    refine absurd ?_ free
    show fw.current_stage ∈ fw.memory_accesses_issued
    rw [takes.same.stage,takes.issued]
    exact List.mem_cons_self

theorem does_ptbr {next : Option (Ask × Bool)} {w : Option Ask} (does : Does s next s' w) :
    s'.ledger.framework.ptbr = s.ledger.framework.ptbr := by
  cases does with
  | nothing => rfl
  | answered ask poll s' asked => exact (asked_only asked).1
  | waits ask poll s' asked => exact (asked_only asked).1

/-- A step of a walk is one request or poll, or the walk ends. -/
theorem walks_does {ptbr : U64} {cache cache' : Tlb} {virtual_address : U32} {status code : U8}
    (walks : Walks Watched.tlb_port ptbr cache s virtual_address status code cache' s') :
    code ≠ 0xFE ∧ (code = 0xFF → Does s (cache.walk_ask ptbr virtual_address status) s' none) ∧
      Does s (cache.walk_ask ptbr virtual_address status) s' (waiting (cache'.walk_ask ptbr virtual_address code)) := by
  cases walks with
  | ends none =>
    rw [none,waiting_walk (by decide) (by decide)]
    exact ⟨by decide,fun _ => .nothing,.nothing⟩
  | reads a poll asks v word mem' read code ended cache' =>
    have does := Does.answered _ _ _ (read_word_asked read)
    rw [asks,waiting_walk ended.1 ended.2.1]
    exact ⟨ended.2.2,fun _ => does,does⟩
  | waits a poll asks v word mem' read code going again =>
    rw [asks,again]
    exact ⟨going.1,fun ended => absurd ended going.2,.waits _ _ _ (read_word_asked read)⟩

end

/-! ### The requests of two stages -/

/-- What a request asks. -/
def Request.ask (r : Request) : Ask := ⟨r.slot.address,r.slot.n_bytes,r.slot.op⟩

/-- The requests not reported are of what fetch and memory wait for. -/
structure Ledger.Books (s : Ledger) (asks : Stage → Option Ask) : Prop where
  accounts : s.Accounts
  owned : ∀ r ∈ s.unreported, asks r.stage = some r.ask
  clients : ∀ stage ask, asks stage = some ask → stage = .F ∨ stage = .M

/-- Nobody waits for what was not asked. -/
def Ledger.Made (s : Ledger) (asks : Stage → Option Ask) : Prop :=
  ∀ stage ask, asks stage = some ask → ∃ r ∈ s.unreported, r.stage = stage ∧ r.ask = ask

section
variable {s s' : Ledger} {asks : Stage → Option Ask} (books : s.Books asks)
include books

/-- Each stage has at most one. -/
theorem books_distinct : (s.unreported.map (·.stage)).Nodup := by
  refine List.pairwise_map.mpr ?_
  have single := List.pairwise_map.mp books.accounts.table.single
  refine single.imp_of_mem fun left right apart same => apart ?_
  have equal := (books.owned _ left).symm.trans ((congrArg asks same).trans (books.owned _ right))
  exact congrArg Ask.address (Option.some.inj equal)

/-- While one stage waits for nothing there is at most one request. -/
theorem books_few {stage : Stage} (client : stage = .F ∨ stage = .M) (idle : asks stage = none) :
    s.unreported.length ≤ 1 := by
  have inside : s.unreported.map (·.stage) ⊆ [if stage = .F then .M else .F] := by
    intro other held
    obtain ⟨r,member,rfl⟩ := List.mem_map.mp held
    have owned := books.owned r member
    rcases books.clients _ _ owned with fetch | memory
    · rcases client with rfl | rfl
      · rw [fetch,idle] at owned
        cases owned
      · simpa using fetch
    · rcases client with rfl | rfl
      · simpa using memory
      · rw [memory,idle] at owned
        cases owned
  simpa using ((books_distinct books).subperm inside).length_le

theorem books_enter (stage : Stage) : (s.enter stage).Books asks :=
  ⟨Ledger.accounts_enter books.accounts stage,books.owned,books.clients⟩

theorem books_end_cycle : s.end_cycle.Books asks :=
  ⟨Ledger.accounts_end_cycle books.accounts,books.owned,books.clients⟩

/-- A request answered at once leaves the books as they are. -/
theorem books_same {fw : Framework} (same : Framework.SameTable s.framework fw) :
    Ledger.Books { s with framework := fw } asks :=
  ⟨Ledger.accounts_same books.accounts same,books.owned,books.clients⟩

/-- The entry of a stage without a request can be anything. -/
theorem books_free {stage : Stage} (client : stage = .F ∨ stage = .M) (accounts : s'.Accounts)
    (same : s'.unreported = s.unreported) (free : ∀ r ∈ s.unreported, r.stage ≠ stage) (w : Option Ask) :
    s'.Books (Function.update asks stage w) where
  accounts := accounts
  owned r held := by
    rw [same] at held
    rw [Function.update_of_ne (free r held)]
    exact books.owned r held
  clients other ask asked := by
    by_cases here : other = stage
    · exact here ▸ client
    · rw [Function.update_of_ne here] at asked
      exact books.clients other ask asked

/-- A request that takes a slot is entered for the stage. -/
theorem books_added {ask : Ask} (client : s.framework.current_stage = .F ∨ s.framework.current_stage = .M)
    (idle : asks s.framework.current_stage = none) (accounts : s'.Accounts)
    (entered : s'.unreported = ⟨s.framework.current_stage,s.framework.request ask.address ask.n_bytes ask.op⟩ ::
      s.unreported) :
    s'.Books (Function.update asks s.framework.current_stage (some ask)) where
  accounts := accounts
  owned r held := by
    rw [entered] at held
    rcases List.mem_cons.mp held with rfl | held
    · exact Function.update_self ..
    · have other : r.stage ≠ s.framework.current_stage := by
        intro same
        have none := books.owned r held
        rw [same,idle] at none
        cases none
      rw [Function.update_of_ne other]
      exact books.owned r held
  clients stage ask' asked := by
    by_cases here : stage = s.framework.current_stage
    · exact here ▸ client
    · rw [Function.update_of_ne here] at asked
      exact books.clients stage ask' asked

/-- A request reported is off the books. -/
theorem books_reported {stage : Stage} {r : Request} (held : r ∈ s.unreported) (own : r.stage = stage)
    (accounts : s'.Accounts)
    (entries : s'.unreported = s.unreported.filter (fun q => ¬ (q.stage = r.stage ∧ q.slot.address = r.slot.address))) :
    s'.Books (Function.update asks stage none) where
  accounts := accounts
  owned q inside := by
    simp only [entries,List.mem_filter,decide_eq_true_eq] at inside
    have other : q.stage ≠ stage := by
      intro same
      have equal := (books.owned q inside.1).symm.trans ((congrArg asks (same.trans own.symm)).trans
        (books.owned r held))
      exact inside.2 ⟨same.trans own.symm,congrArg Ask.address (Option.some.inj equal)⟩
    rw [Function.update_of_ne other]
    exact books.owned q inside.1
  clients other ask asked := by
    by_cases here : other = stage
    · rw [here,Function.update_self] at asked
      cases asked
    · rw [Function.update_of_ne here] at asked
      exact books.clients other ask asked

end

section
variable {s s' : Ledger} {asks : Stage → Option Ask} (made : s.Made asks)
include made

theorem made_added {ask : Ask}
    (entered : s'.unreported = ⟨s.framework.current_stage,s.framework.request ask.address ask.n_bytes ask.op⟩ ::
      s.unreported) :
    s'.Made (Function.update asks s.framework.current_stage (some ask)) := by
  intro stage ask' asked
  rw [entered]
  by_cases here : stage = s.framework.current_stage
  · subst here
    rw [Function.update_self] at asked
    cases asked
    exact ⟨_,List.mem_cons_self,rfl,rfl⟩
  · rw [Function.update_of_ne here] at asked
    obtain ⟨r,held,found⟩ := made stage ask' asked
    exact ⟨r,List.mem_cons_of_mem _ held,found⟩

theorem made_reported {stage : Stage} {r : Request} (own : r.stage = stage)
    (entries : s'.unreported = s.unreported.filter (fun q => ¬ (q.stage = r.stage ∧ q.slot.address = r.slot.address))) :
    s'.Made (Function.update asks stage none) := by
  intro other ask asked
  by_cases here : other = stage
  · rw [here,Function.update_self] at asked
    cases asked
  · rw [Function.update_of_ne here] at asked
    obtain ⟨q,inside,made,found⟩ := made other ask asked
    refine ⟨q,?_,made,found⟩
    simp only [entries,List.mem_filter,decide_eq_true_eq]
    exact ⟨inside,fun same => here (made.symm.trans (same.1.trans own))⟩

end

/-- What the calls of a stage leave: the books with its own entry brought up to date. -/
structure Settled (s s' : Watched) (asks : Stage → Option Ask) (places : List U64) (w : Option Ask) : Prop where
  books : s'.ledger.Books (Function.update asks s.ledger.framework.current_stage w)
  reported : ∀ a ∈ s'.ledger.reported, a ∈ s.ledger.reported ∨ a ∈ places
  few : s'.ledger.reported.length ≤ s.ledger.reported.length + places.length

/-- No other stage waits at the address. -/
def Alone (s : Watched) (asks : Stage → Option Ask) (a : U64) : Prop :=
  ∀ stage other, stage ≠ s.ledger.framework.current_stage → asks stage = some other → other.address ≠ a

section
variable {s s' : Watched} {asks : Stage → Option Ask} {ask : Ask} {done : Bool} (books : s.ledger.Books asks)
include books

/-- A request that is answered at once changes no entry. -/
theorem answered_settled (asked : Asked s ask false true s') :
    Settled s s' asks [] (asks s.ledger.framework.current_stage) ∧ s'.ledger.reported = s.ledger.reported := by
  obtain ⟨-,fw,same,rfl⟩ | ⟨wrong,-⟩ := asked_request asked
  · refine ⟨⟨?_,fun a held => .inl held,Nat.le_refl _⟩,rfl⟩
    rw [Function.update_eq_self]
    exact books_same books same
  · cases wrong

/-- A request of a stage that waits for nothing. -/
theorem request_settled (client : s.ledger.framework.current_stage = .F ∨ s.ledger.framework.current_stage = .M)
    (idle : asks s.ledger.framework.current_stage = none) (few : s.ledger.reported.length ≤ 2)
    (alone : Alone s asks ask.address) (unheard : ask.address ∉ s.ledger.reported) (asked : Asked s ask false done s') :
    Settled s s' asks [] (if done then none else some ask) := by
  obtain ⟨rfl,-⟩ | ⟨rfl,kind,fw,takes,rfl⟩ := asked_request asked
  · have settled := (answered_settled books asked).1
    rw [idle] at settled
    exact settled
  · have room := books_few books client idle
    have admits : s.ledger.Admits ask.address := by
      refine ⟨fun r held same => ?_,unheard,by show _ < 4; omega⟩
      have entry := books.owned r held
      refine alone r.stage r.ask (fun here => ?_) entry same
      rw [here,idle] at entry
      cases entry
    exact ⟨books_added books client idle (Ledger.accounts_asked books.accounts kind admits takes.same takes.proper) rfl,
      fun a held => .inl held,Nat.le_refl _⟩

/-- A poll for a request of one's own: it goes on, or it is reported. -/
theorem poll_own {r : Request} (held : r ∈ s.ledger.unreported) (stage : r.stage = s.ledger.framework.current_stage)
    (asked : Asked s r.ask true done s') :
    s'.ledger.Accounts ∧ if done then s'.ledger.reported = r.slot.address :: s.ledger.reported ∧
        s'.ledger.unreported =
          s.ledger.unreported.filter (fun q => ¬ (q.stage = r.stage ∧ q.slot.address = r.slot.address))
      else s'.ledger = s.ledger := by
  cases asked with
  | poll v v' op done ledger polls asked recorded =>
    have owes : s.ledger.Owes r.slot.address v r := by
      refine ⟨held,stage,rfl,fun read => ?_⟩
      rw [show r.slot.op = _ from op] at read
      split at read
      · assumption
      · cases read
    obtain ⟨done,v',ledger,polled,answered⟩ := Ledger.status_answered books.accounts owes
    cases polled.symm.trans asked
    refine ⟨answered.accounts,?_⟩
    cases done with
    | false => exact answered.waits rfl
    | true => exact (answered.entries rfl).symm

/-- A poll of a stage for what it waits for, or at an address where nobody waits. -/
theorem poll_settled (client : s.ledger.framework.current_stage = .F ∨ s.ledger.framework.current_stage = .M)
    (own : ∀ other, asks s.ledger.framework.current_stage = some other → other = ask) (alone : Alone s asks ask.address)
    (asked : Asked s ask true done s') : Settled s s' asks [ask.address] (if done then none else some ask) := by
  have told (reported : s'.ledger.reported = ask.address :: s.ledger.reported) :
      (∀ a ∈ s'.ledger.reported, a ∈ s.ledger.reported ∨ a ∈ [ask.address]) ∧
        s'.ledger.reported.length ≤ s.ledger.reported.length + 1 := by
    rw [reported]
    exact ⟨fun a inside => (List.mem_cons.mp inside).symm.imp id List.mem_singleton.mpr,Nat.le_refl _⟩
  by_cases held : ∃ r ∈ s.ledger.unreported, r.stage = s.ledger.framework.current_stage
  · obtain ⟨r,held,stage⟩ := held
    have entry : asks s.ledger.framework.current_stage = some r.ask := stage ▸ books.owned r held
    obtain rfl := own _ entry
    obtain ⟨accounts,outcome⟩ := poll_own books held stage asked
    cases done with
    | false =>
      have same : s'.ledger = s.ledger := outcome
      refine ⟨?_,by rw [same]; exact fun a inside => .inl inside,by rw [same]; exact Nat.le_add_right _ _⟩
      rw [same,show (if false = true then none else some r.ask) = asks s.ledger.framework.current_stage from entry.symm,
        Function.update_eq_self]
      exact books
    | true =>
      obtain ⟨reported,entries⟩ := outcome
      exact ⟨books_reported books held stage accounts entries,(told reported).1,(told reported).2⟩
  · have absent (r : Request) (inside : r ∈ s.ledger.unreported) : r.stage ≠ s.ledger.framework.current_stage :=
      fun same => held ⟨r,inside,same⟩
    cases asked with
    | poll v v' op done ledger polls asked recorded =>
      obtain ⟨accounts,same,more⟩ := Ledger.status_vain books.accounts
        (fun r inside => alone r.stage r.ask (absent r inside) (books.owned r inside)) asked
      have books := books_free books client accounts same absent (if done then none else some ask)
      rcases more with kept | more
      · exact ⟨books,fun a inside => .inl (kept ▸ inside),kept ▸ Nat.le_add_right _ _⟩
      · exact ⟨books,(told more).1,(told more).2⟩

end

/-- The addresses that a stage asks for. -/
def places (next : Option (Ask × Bool)) : List U64 := next.toList.map (·.1.address)

section
variable {s s' : Watched} {asks : Stage → Option Ask} (books : s.ledger.Books asks)
  (client : s.ledger.framework.current_stage = .F ∨ s.ledger.framework.current_stage = .M)
include books client

/-- A call for what the entry says, at an address that nobody else is at. -/
theorem asked_settled {ask : Ask} {poll done : Bool}
    (own : asks s.ledger.framework.current_stage = waiting (some (ask,poll))) (few : s.ledger.reported.length ≤ 2)
    (alone : Alone s asks ask.address) (unheard : ask.address ∉ s.ledger.reported) (asked : Asked s ask poll done s') :
    Settled s s' asks [ask.address] (if done then none else some ask) := by
  cases poll with
  | true => exact poll_settled books client (fun other entry => Option.some.inj (entry.symm.trans own)) alone asked
  | false =>
    have settled := request_settled books client own few alone unheard asked
    exact ⟨settled.books,fun a inside => .inl ((settled.reported a inside).resolve_right List.not_mem_nil),
      settled.few.trans (Nat.le_succ _)⟩

theorem does_settled {next : Option (Ask × Bool)} {w : Option Ask}
    (own : asks s.ledger.framework.current_stage = waiting next) (few : s.ledger.reported.length ≤ 2)
    (alone : ∀ a ∈ places next, Alone s asks a ∧ a ∉ s.ledger.reported) (does : Does s next s' w) :
    Settled s s' asks (places next) w := by
  cases does with
  | nothing =>
    refine ⟨?_,fun a held => .inl held,Nat.le_refl _⟩
    rw [Function.update_eq_self_iff.mpr (show none = asks _ from own.symm)]
    exact books
  | answered ask poll s' call =>
    obtain ⟨alone,unheard⟩ := alone ask.address List.mem_cons_self
    exact asked_settled books client own few alone unheard call
  | waits ask poll s' call =>
    obtain ⟨alone,unheard⟩ := alone ask.address List.mem_cons_self
    exact asked_settled books client own few alone unheard call

end

/-! ### Polls with a request behind them -/

/-- Nobody polls in vain: what the stages wait for was asked, and the polls recorded are backed. -/
structure Watched.Prompt (s : Watched) (asks : Stage → Option Ask) : Prop where
  made : s.ledger.Made asks
  logged : s.Logged

section
variable {s s' : Watched} {asks : Stage → Option Ask} {ask : Ask} {done : Bool} (books : s.ledger.Books asks)
  (prompt : s.Prompt asks)
include prompt

theorem request_prompt (idle : asks s.ledger.framework.current_stage = none) (asked : Asked s ask false done s') :
    s'.Prompt (Function.update asks s.ledger.framework.current_stage (if done then none else some ask)) := by
  obtain ⟨rfl,fw,same,rfl⟩ | ⟨rfl,-,fw,-,rfl⟩ := asked_request asked
  · rw [Function.update_eq_self_iff.mpr (show (if true = true then none else some ask) = asks _ from idle.symm)]
    exact ⟨prompt.made,prompt.logged⟩
  · exact ⟨made_added prompt.made rfl,prompt.logged⟩

include books

theorem poll_prompt (own : asks s.ledger.framework.current_stage = some ask) (asked : Asked s ask true done s') :
    s'.Prompt (Function.update asks s.ledger.framework.current_stage (if done then none else some ask)) := by
  obtain ⟨r,held,stage,rfl⟩ := prompt.made _ _ own
  refine ⟨?_,?_⟩
  · obtain ⟨-,outcome⟩ := poll_own books held stage asked
    cases done with
    | false =>
      rw [show s'.ledger = s.ledger from outcome,
        show (if false = true then none else some r.ask) =
          asks s.ledger.framework.current_stage from own.symm,Function.update_eq_self]
      exact prompt.made
    | true => exact made_reported prompt.made stage outcome.2
  · cases asked with
    | poll v v' op done ledger polls asked recorded =>
      rcases recorded with rfl | ⟨rfl,bytes⟩
      · exact prompt.logged
      · intro poll inside
        rcases List.mem_append.mp inside with old | new
        · exact prompt.logged poll old
        · obtain rfl := List.mem_singleton.mp new
          exact ⟨r,held,stage,(books.accounts.table.backed _ (List.mem_map_of_mem held)).1,rfl,bytes,op⟩

theorem does_prompt {next : Option (Ask × Bool)} {w : Option Ask}
    (own : asks s.ledger.framework.current_stage = waiting next) (does : Does s next s' w) :
    s'.Prompt (Function.update asks s.ledger.framework.current_stage w) := by
  have asked {ask : Ask} {poll done : Bool} (here : next = some (ask,poll)) (asked : Asked s ask poll done s') :
      s'.Prompt (Function.update asks s.ledger.framework.current_stage (if done then none else some ask)) := by
    subst here
    cases poll with
    | true => exact poll_prompt books prompt own asked
    | false => exact request_prompt prompt own asked
  cases does with
  | nothing =>
    rw [Function.update_eq_self_iff.mpr (show none = asks _ from own.symm)]
    exact prompt
  | answered ask poll s' call => exact asked rfl call
  | waits ask poll s' call => exact asked rfl call

end

/-! ### The memory stage -/

/-- A memory that knows the root of the page table: the framework, watched or not. -/
class Rooted (φ : Type) where
  ptbr : φ → U64
instance : Rooted Framework := ⟨Framework.ptbr⟩
instance : Rooted Watched := ⟨fun s => s.ledger.framework.ptbr⟩

namespace MemoryState
variable {φ : Type} [Rooted φ]

/-- The physical address of the access, if the TLB has its entry. -/
def data_address (mem : MemoryState φ) (m : StageRegM) : U64 :=
  (mem.dtlb.translation (m.address.setWidth 32)).setWidth 64
/-- The row that the access gives up if it misses. -/
def given_up (mem : MemoryState φ) (m : StageRegM) : U64 := mem.data_cache.givenUp (mem.data_address m)

/-- What the data cache asks next for an access that hits in the TLB: a dirty row is written back first. -/
def data_ask (mem : MemoryState φ) (m : StageRegM) : Option (Ask × Bool) :=
  if ¬ mem.data_cache.Missing (mem.data_address m) then none
  else if (mem.data_cache.rows (mem.given_up m)).dirty = true then
    some (⟨mem.data_cache.oldAddress (mem.given_up m),8,.WRITE⟩,m.wasStalled == 1)
  else if m.Fills then some (⟨mem.data_address m,8,.READ⟩,m.wasStalled == 1)
  else none

/-- What the memory stage asks next, and whether it polls. -/
def memory_ask (mem : MemoryState φ) (m : StageRegM) : Option (Ask × Bool) :=
  if ¬ m.Accesses then none
  else if m.walk_status = 0xFF ∧ mem.dtlb.Hit (m.address.setWidth 32) then mem.data_ask m
  else mem.dtlb.walk_ask (Rooted.ptbr mem.framework) (m.address.setWidth 32) m.walk_status

/-- The access is to read a block into the place of a dirty row. -/
def Refills (mem : MemoryState φ) (m : StageRegM) : Prop :=
  (m.Accesses ∧ m.Fills) ∧ (m.walk_status = 0xFF ∧ mem.dtlb.Hit (m.address.setWidth 32)) ∧
    mem.data_cache.Missing (mem.data_address m) ∧ (mem.data_cache.rows (mem.given_up m)).dirty = true
instance (mem : MemoryState φ) (m : StageRegM) : Decidable (mem.Refills m) := instDecidableAnd

/-- The block that is read in the cycle of the write-back. -/
def refill (mem : MemoryState φ) (m : StageRegM) : Option U64 :=
  if mem.Refills m then some (mem.data_address m) else none

/-- The addresses that the memory stage asks for. -/
def memory_places (mem : MemoryState φ) (m : StageRegM) : List U64 := places (mem.memory_ask m) ++ (mem.refill m).toList

end MemoryState

theorem waiting_poll {ask : Ask} {poll : Bool} (first : poll = false) : waiting (some (ask,poll)) = none := by
  rw [first]
  rfl

theorem waiting_some {next : Option (Ask × Bool)} {ask : Ask} (waits : waiting next = some ask) :
    next = some (ask,true) := by
  unfold waiting at waits
  split at waits
  · cases waits
    rfl
  · cases waits

/-- An access that has not stalled, or not for memory, polls for nothing. -/
theorem memory_ask_idle {φ : Type} [Rooted φ] {mem : MemoryState φ} {m : StageRegM} (start : m.walk_status = 0xFF)
    (fresh : m.wasStalled ≠ 1) :
    waiting (mem.memory_ask m) = none := by
  have first : (m.wasStalled == 1) = false := by simpa using fresh
  unfold MemoryState.memory_ask
  split
  · rfl
  split
  · unfold MemoryState.data_ask
    split
    · rfl
    split
    · exact waiting_poll first
    split
    · exact waiting_poll first
    · rfl
  · rw [start]
    exact waiting_walk (by decide) (by decide)

/-- The bytes of a row change nothing but the bytes. -/
theorem rows_filled (cache : CacheTable) (i j : U64) (data : Buffer) :
    (cache.setRow i { cache.rows i with data := data }).rows j =
      { cache.rows j with data := if j = i then data else (cache.rows j).data } := by
  simp only [CacheTable.setRow]
  split
  · rename_i here
    rw [here]
  · rfl

/-- What the memory stage does with memory in a cycle. An access that refills a dirty row writes it back and reads the
    block in one cycle: the read is refused behind a request, and behind a poll it is a poll for what nobody asked. -/
inductive MemoryDoes (s : Watched) : Option U64 → Option (Ask × Bool) → Watched → Option Ask → Prop
  | once (refill : Option U64) (next : Option (Ask × Bool)) (s' : Watched) (w : Option Ask) (does : Does s next s' w) :
    MemoryDoes s refill next s' w
  | delays (a : U64) (ask : Ask) (s₁ s' : Watched) (done : Bool) (written : Asked s ask false false s₁)
    (read : Asked s₁ ⟨a,8,.READ⟩ false done s') : MemoryDoes s (some a) (some (ask,false)) s' (some ask)
  | refills (a : U64) (ask : Ask) (poll : Bool) (s₁ s' : Watched) (done : Bool) (written : Asked s ask poll true s₁)
    (read : Asked s₁ ⟨a,8,.READ⟩ poll done s') :
    MemoryDoes s (some a) (some (ask,poll)) s' (if done then none else some ⟨a,8,.READ⟩)

theorem memoryDoes_ptbr {s s' : Watched} {refill : Option U64} {next : Option (Ask × Bool)} {w : Option Ask}
    (does : MemoryDoes s refill next s' w) : s'.ledger.framework.ptbr = s.ledger.framework.ptbr := by
  cases does with
  | once refill next s' w does => exact does_ptbr does
  | delays a ask s₁ s' done written read => exact (asked_only read).1.trans (asked_only written).1
  | refills a ask poll s₁ s' done written read => exact (asked_only read).1.trans (asked_only written).1

/-- The stage is left to wait at an address it asks for. -/
theorem memoryDoes_waits {s s' : Watched} {refill : Option U64} {next : Option (Ask × Bool)} {w : Option Ask}
    (does : MemoryDoes s refill next s' w) {ask : Ask} (waits : w = some ask) :
    ask.address ∈ places next ++ refill.toList := by
  cases does with
  | once refill next s' w does =>
    cases does with
    | nothing => cases waits
    | answered => cases waits
    | waits =>
      cases waits
      exact List.mem_cons_self
  | delays a ask' s₁ s' done written read =>
    cases waits
    exact List.mem_cons_self
  | refills a ask' poll s₁ s' done written read =>
    cases done with
    | true => cases waits
    | false =>
      cases waits
      exact List.mem_cons_of_mem _ List.mem_cons_self

theorem memoryDoes_settled {s s' : Watched} {asks : Stage → Option Ask} (books : s.ledger.Books asks)
    (client : s.ledger.framework.current_stage = .F ∨ s.ledger.framework.current_stage = .M) {refill : Option U64}
    {next : Option (Ask × Bool)} {w : Option Ask} (own : asks s.ledger.framework.current_stage = waiting next)
    (few : s.ledger.reported.length ≤ 2)
    (alone : ∀ a ∈ places next ++ refill.toList, Alone s asks a ∧ a ∉ s.ledger.reported)
    (does : MemoryDoes s refill next s' w) : Settled s s' asks (places next ++ refill.toList) w := by
  cases does with
  | once refill next s' w does =>
    have settled := does_settled books client own few (fun a inside => alone a (List.mem_append_left _ inside)) does
    exact ⟨settled.books,fun a inside => (settled.reported a inside).imp id (List.mem_append_left _),
      settled.few.trans (by simp)⟩
  | delays a ask s₁ s' done written read =>
    obtain ⟨here,unheard⟩ := alone ask.address List.mem_cons_self
    obtain rfl := asked_refused written read
    have settled := asked_settled books client own few here unheard written
    have stage := (asked_only written).2
    obtain ⟨after,same⟩ := answered_settled settled.books read
    rw [stage,Function.update_self] at after
    refine ⟨?_,?_,?_⟩
    · have books := after.books
      rw [stage,Function.update_idem] at books
      exact books
    · rw [same]
      exact fun b inside => (settled.reported b inside).imp id (List.mem_append_left _)
    · rw [same]
      exact settled.few.trans (by simp [places])
  | refills a ask poll s₁ s' done written read =>
    obtain ⟨here,unheard⟩ := alone ask.address List.mem_cons_self
    obtain ⟨there,unheard'⟩ := alone a (List.mem_cons_of_mem _ List.mem_cons_self)
    have stage := (asked_only written).2
    have settled := asked_settled books client own few here unheard written
    have idle : Function.update asks s.ledger.framework.current_stage (if true = true then none else some ask)
        s₁.ledger.framework.current_stage = none := by
      rw [stage]
      exact Function.update_self ..
    have apart : Alone s₁ (Function.update asks s.ledger.framework.current_stage (if true = true then none
        else some ask)) a := by
      intro other ask' elsewhere waits
      rw [stage] at elsewhere
      rw [Function.update_of_ne elsewhere] at waits
      exact there other ask' elsewhere waits
    have second : Settled s₁ s' (Function.update asks s.ledger.framework.current_stage (if true = true then none
      else some ask)) [a]
        (if done then none else some ⟨a,8,.READ⟩) := by
      cases poll with
      | true =>
        exact poll_settled settled.books (stage ▸ client) (fun other waits => nomatch idle.symm.trans waits) apart read
      | false =>
        have same := (answered_settled books written).2
        have settled := request_settled settled.books (stage ▸ client) idle (same ▸ few) apart (same ▸ unheard') read
        exact ⟨settled.books,fun a inside => .inl ((settled.reported a inside).resolve_right List.not_mem_nil),
          settled.few.trans (Nat.le_succ _)⟩
    refine ⟨?_,?_,?_⟩
    · have books := second.books
      rw [stage,Function.update_idem] at books
      exact books
    · intro b inside
      rcases second.reported b inside with old | new
      · exact (settled.reported b old).imp id (List.mem_append_left _)
      · exact .inr (List.mem_append_right _ new)
    · exact second.few.trans (Nat.succ_le_succ settled.few)

/-- It is left to poll for what it waits for. -/
theorem memoryDoes_polls {s s' : Watched} {refill : Option U64} {next next' : Option (Ask × Bool)} {ask : Ask}
    (polls : next' = some (ask,true)) (does : MemoryDoes s refill next s' (some ask)) :
    MemoryDoes s refill next s' (waiting next') := by
  rw [polls]
  exact does

/-- What an access asks of memory: a read of the block, with a write of the row given up before it, or that write
    alone. -/
def StageRegM.AsksCache (m : StageRegM) (cache : CacheTable) (s : Watched) (a : U64)
    (followup available : Bool) (code : U8) (cache' : CacheTable) (s' : Watched) : Prop :=
  if m.Fills then cache.AsksFill Watched.cache_port s a followup available code cache' s'
  else cache.AsksClean Watched.cache_port s a m.value followup available code cache' s'

section
variable {m : StageRegM} {cache cache' : CacheTable} {s s' : Watched} {a : U64} {followup available : Bool} {code : U8}

theorem read_asks (op : m.readWrite = .memory_read) (params : IsDataCache cache) {size value value' : U64}
    (ran : cache.read_access Watched.cache_port s a size value followup available = .ok (code,value',cache',s')) :
    m.AsksCache cache s a followup available code cache' s' := by
  rw [StageRegM.AsksCache,if_pos (.inl op)]
  exact CacheTable.read_access_fills params ran

theorem write_asks (op : m.readWrite = .memory_write) (params : IsDataCache cache)
    (ran : cache.write_access Watched.cache_port s a m.value m.size followup available = .ok (code,cache',s')) :
    m.AsksCache cache s a followup available code cache' s' := by
  by_cases fills : m.Fills
  · have part : m.size ≠ 8 := by
      rcases fills with load | part
      · rw [op] at load
        cases load
      · exact part
    rw [StageRegM.AsksCache,if_pos fills]
    exact CacheTable.write_access_fills params part ran
  · have whole : m.size = 8 := by
      by_contra part
      exact fills (.inr part)
    rw [StageRegM.AsksCache,if_neg fills]
    rw [whole] at ran
    exact CacheTable.write_access_cleans params ran

/-- Without the memory access of the cycle nothing is asked. -/
theorem asksCache_busy (asked : m.AsksCache cache s a followup false code cache' s') :
    (code = 0 ∨ code = 2) ∧ s' = s := by
  unfold StageRegM.AsksCache at asked
  split at asked
  · cases asked with
    | hits => exact ⟨.inl rfl,rfl⟩
    | busy => exact ⟨.inr rfl,rfl⟩
    | _ => contradiction
  · cases asked with
    | hits => exact ⟨.inl rfl,rfl⟩
    | takes => exact ⟨.inl rfl,rfl⟩
    | busy => exact ⟨.inr rfl,rfl⟩
    | _ => contradiction

end

section
variable {mem : MemoryState Watched} {m : StageRegM} {code : U8} {cache' : CacheTable} {s' : Watched}

/-- What is polled for next does not depend on the bytes of the row given up. -/
theorem data_ask_filled (params : IsDataCache mem.data_cache) (missing : mem.data_cache.Missing (mem.data_address m))
    (data : Buffer) {dirty : Bool} (less : dirty = true → (mem.data_cache.rows (mem.given_up m)).dirty = true)
    (s : Watched) :
    MemoryState.data_ask { mem with
        data_cache := mem.data_cache.setRow (mem.given_up m)
          { mem.data_cache.rows (mem.given_up m) with data := data, dirty := dirty }
        framework := s } (m.missing 1) =
      if dirty = true then some (⟨mem.data_cache.oldAddress (mem.given_up m),8,.WRITE⟩,true)
      else if m.Fills then some (⟨mem.data_address m,8,.READ⟩,true) else none := by
  have same : (mem.data_cache.setRow (mem.given_up m)
      { mem.data_cache.rows (mem.given_up m) with data := data, dirty := dirty }).givenUp (mem.data_address m) =
        mem.given_up m :=
    CacheTable.givenUp_filled params data less
  refine (if_neg (not_not_intro (CacheTable.missing_filled missing _ data dirty))).trans ?_
  show (if ((CacheTable.setRow _ _ _).rows (CacheTable.givenUp _ (mem.data_address m))).dirty = true then
    some ((⟨CacheTable.oldAddress _ (CacheTable.givenUp _ (mem.data_address m)),8,.WRITE⟩ : Ask),true) else
    if m.Fills then some ((⟨mem.data_address m,8,.READ⟩ : Ask),true) else none) = _
  rw [same,CacheTable.setRow_same,CacheTable.oldAddress_filled]

theorem fill_does (params : IsDataCache mem.data_cache) (stage : mem.framework.ledger.framework.current_stage = .M)
    (fills : m.Fills)
    (asked : mem.data_cache.AsksFill Watched.cache_port mem.framework (mem.data_address m)
      (m.wasStalled == 1) true code cache' s')
    (hit : m.Accesses ∧ m.walk_status = 0xFF ∧ mem.dtlb.Hit (m.address.setWidth 32)) :
    MemoryDoes mem.framework (mem.refill m) (mem.data_ask m) s'
      (if code = 0 then none else waiting (MemoryState.data_ask { mem with data_cache := cache', framework := s' }
        (m.missing code))) := by
  have bytes : mem.data_cache.cache_type.row_bytes = 8 := by rw [params.type]; rfl
  have sized {s : Watched} (stage : s.ledger.framework.current_stage = .M) :
      mem.data_cache.cache_type.row_bytes = s.ledger.framework.current_stage.block_bytes := by rw [bytes,stage]; rfl
  have reads (missing : mem.data_cache.Missing (mem.data_address m))
    (clean : (mem.data_cache.rows (mem.given_up m)).dirty = false) :
      mem.data_ask m = some (⟨mem.data_address m,8,.READ⟩,m.wasStalled == 1) := by
    rw [MemoryState.data_ask,if_neg (not_not_intro missing),if_neg (by simp [clean]),if_pos fills]
  have writes (missing : mem.data_cache.Missing (mem.data_address m))
    (dirty : (mem.data_cache.rows (mem.given_up m)).dirty = true) :
      mem.data_ask m = some (⟨mem.data_cache.oldAddress (mem.given_up m),8,.WRITE⟩,m.wasStalled == 1) ∧
        mem.refill m = some (mem.data_address m) := by
    rw [MemoryState.data_ask,if_neg (not_not_intro missing),if_pos dirty]
    exact ⟨rfl,if_pos ⟨⟨hit.1,fills⟩,hit.2,missing,dirty⟩⟩
  cases asked with
  | hits held =>
    rw [MemoryState.data_ask,if_pos held,if_pos rfl]
    exact .once _ _ _ _ .nothing
  | busy taken => cases taken
  | reads missing free clean data mem' cache' asked =>
    have asked := get_block_asked (sized stage) asked
    rw [reads missing clean,if_pos rfl]
    rw [bytes] at asked
    exact .once _ _ _ _ (.answered _ _ _ asked)
  | waits missing free clean data mem' asked =>
    have asked := get_block_asked (sized stage) asked
    rw [bytes] at asked
    have again := data_ask_filled params missing data (fun dirty => dirty) s'
    rw [if_neg (by simp [show (mem.data_cache.rows (mem.given_up m)).dirty = false from clean]),if_pos fills] at again
    rw [reads missing clean,if_neg (by decide)]
    exact memoryDoes_polls again (.once _ _ _ _ (.waits _ _ _ asked))
  | keeps missing free dirty followup mem' asked =>
    obtain ⟨asks,-⟩ := writes missing dirty
    have again : MemoryState.data_ask { mem with framework := s' } (m.missing 1) =
        some (⟨mem.data_cache.oldAddress (mem.given_up m),8,.WRITE⟩,true) :=
      (if_neg (not_not_intro missing)).trans (if_pos dirty)
    rw [asks,if_neg (by decide)]
    exact memoryDoes_polls again (.once _ _ _ _ (.waits _ _ _ (put_block_asked stage asked)))
  | delays missing free dirty first s₁ asked done data s' read =>
    obtain ⟨asks,refill⟩ := writes missing dirty
    have written := put_block_asked stage asked
    have read := get_block_asked (sized ((asked_only written).2.trans stage)) read
    rw [bytes] at read
    rw [first] at written read
    have again := data_ask_filled params missing data (fun dirty => dirty) s'
    rw [if_pos (show (mem.data_cache.rows (mem.given_up m)).dirty = true from dirty)] at again
    rw [asks,refill,first,if_neg (by decide)]
    exact memoryDoes_polls again (.delays _ _ _ _ _ written read)
  | rereads missing free dirty s₁ asked data s' cache' read =>
    obtain ⟨asks,refill⟩ := writes missing dirty
    have written := put_block_asked stage asked
    have read := get_block_asked (sized ((asked_only written).2.trans stage)) read
    rw [bytes] at read
    rw [asks,refill,if_pos rfl]
    exact .refills _ _ _ _ _ _ written read
  | rewaits missing free dirty s₁ asked data s' read =>
    obtain ⟨asks,refill⟩ := writes missing dirty
    have written := put_block_asked stage asked
    have read := get_block_asked (sized ((asked_only written).2.trans stage)) read
    rw [bytes] at read
    have again := data_ask_filled params missing data (show false = true → _ from nofun) s'
    rw [if_neg (by decide),if_pos fills] at again
    rw [asks,refill,if_neg (by decide)]
    exact memoryDoes_polls again (.refills _ _ _ _ _ _ written read)

theorem clean_does (stage : mem.framework.ledger.framework.current_stage = .M) (whole : ¬ m.Fills)
    (asked : mem.data_cache.AsksClean Watched.cache_port mem.framework (mem.data_address m) m.value
      (m.wasStalled == 1) true code
      cache' s') :
    Does mem.framework (mem.data_ask m) s'
      (if code = 0 then none else waiting (MemoryState.data_ask { mem with data_cache := cache', framework := s' }
        (m.missing code))) := by
  have asks (missing : mem.data_cache.Missing (mem.data_address m))
    (dirty : (mem.data_cache.rows (mem.given_up m)).dirty = true) :
      mem.data_ask m = some (⟨mem.data_cache.oldAddress (mem.given_up m),8,.WRITE⟩,m.wasStalled == 1) := by
    rw [MemoryState.data_ask,if_neg (not_not_intro missing),if_pos dirty]
  cases asked with
  | hits held =>
    rw [show mem.data_ask m = none from if_pos held,if_pos rfl]
    exact .nothing
  | takes missing clean =>
    have none : mem.data_ask m = none :=
      (if_neg (not_not_intro missing)).trans ((if_neg (Bool.eq_false_iff.mp clean)).trans (if_neg whole))
    rw [none,if_pos rfl]
    exact .nothing
  | busy taken => cases taken
  | writes missing free dirty mem' asked =>
    rw [asks missing dirty,if_pos rfl]
    exact .answered _ _ _ (put_block_asked stage asked)
  | waits missing free dirty mem' asked =>
    have again : MemoryState.data_ask { mem with data_cache := mem.data_cache, framework := s' } (m.missing 1) =
        some (⟨mem.data_cache.oldAddress (mem.given_up m),8,.WRITE⟩,true) :=
      (if_neg (not_not_intro missing)).trans (if_pos dirty)
    rw [asks missing dirty,if_neg (by decide),again]
    exact .waits _ _ _ (put_block_asked stage asked)

/-- With it, the access asks what its state says, and is left to poll for it. -/
theorem asksCache_does (params : IsDataCache mem.data_cache) (stage : mem.framework.ledger.framework.current_stage = .M)
    (hit : m.Accesses ∧ m.walk_status = 0xFF ∧ mem.dtlb.Hit (m.address.setWidth 32))
    (asked : m.AsksCache mem.data_cache mem.framework (mem.data_address m) (m.wasStalled == 1) true code cache' s') :
    MemoryDoes mem.framework (mem.refill m) (mem.data_ask m) s'
      (if code = 0 then none else waiting (MemoryState.data_ask { mem with data_cache := cache', framework := s' }
        (m.missing code))) := by
  unfold StageRegM.AsksCache at asked
  split at asked
  · exact fill_does params stage ‹_› asked hit
  · exact .once _ _ _ _ (clean_does stage ‹_› asked)

end

/-- The translation hits and leaves all as it was, or it is a step of the walk. -/
theorem dtlb_does {mem mem' : MemoryState Watched} {locals : CalleeLocals} {m : StageRegM} {status : U8}
    {physical_address : U32} (op : m.Accesses)
    (translated : Translates watched mem locals m status physical_address mem') :
    (status = 0xFE ∧ (m.walk_status = 0xFF ∧ mem.dtlb.Hit (m.address.setWidth 32)) ∧ mem' = mem ∧
        (physical_address.setWidth 64 : U64) = mem.data_address m) ∨
      (status ≠ 0xFE ∧ mem' = { mem with dtlb := mem'.dtlb, framework := mem'.framework } ∧
        (status = 0xFF → Does mem.framework (mem.memory_ask m) mem'.framework none) ∧
        Does mem.framework (mem.memory_ask m) mem'.framework
          (waiting (mem'.dtlb.walk_ask mem.framework.ledger.framework.ptbr (m.address.setWidth 32) status))) := by
  obtain ⟨r,answered,outcome⟩ := bind_ok.mp translated
  rcases get_address_walks answered with ⟨hit,rfl⟩ | ⟨missed,walks⟩
  · cases outcome
    exact .inl ⟨rfl,hit,rfl,rfl⟩
  · cases outcome
    obtain ⟨walked,ended,does⟩ := walks_does walks
    have asks : mem.memory_ask m =
        mem.dtlb.walk_ask mem.framework.ledger.framework.ptbr (m.address.setWidth 32) m.walk_status :=
      (if_neg (not_not_intro op)).trans (if_neg missed)
    rw [asks]
    exact .inr ⟨walked,rfl,ended,does⟩

/-- The translation and the access together. -/
theorem access_does {mem mem' : MemoryState Watched} {m : StageRegM} {locals : CalleeLocals} {status code : U8}
    {physical_address : U32} {cache' : CacheTable} {s' : Watched} (params : IsDataCache mem.data_cache)
    (stage : mem.framework.ledger.framework.current_stage = .M) (op : m.Accesses)
    (translated : Translates watched mem locals m status physical_address mem')
    (finished : status = 0xFE ∨ status = 0xFF)
    (asked : m.AsksCache mem'.data_cache mem'.framework (physical_address.setWidth 64) (m.wasStalled == 1)
      (status == 0xFE) code cache' s') :
    MemoryDoes mem.framework (mem.refill m) (mem.memory_ask m) s' (if code = 0 then none
      else waiting (MemoryState.memory_ask { mem' with data_cache := cache', framework := s' } (m.missing code))) := by
  have restart : (m.missing code).walk_status = 0xFF := by
    unfold StageRegM.walk_status StageRegM.missing
    simp only
    split <;> split <;> simp_all
  rcases dtlb_does op translated with ⟨rfl,hit,rfl,address⟩ | ⟨walked,moved,ended,-⟩
  · rw [address] at asked
    have does := asksCache_does params stage ⟨op,hit⟩ asked
    have now : mem'.memory_ask m = mem'.data_ask m := (if_neg (not_not_intro op)).trans (if_pos hit)
    have later : MemoryState.memory_ask { mem' with data_cache := cache', framework := s' } (m.missing code) =
        MemoryState.data_ask { mem' with data_cache := cache', framework := s' } (m.missing code) :=
      (if_neg (not_not_intro op)).trans (if_pos ⟨restart,hit.2⟩)
    rw [now,later]
    exact does
  · have unavailable : (status == 0xFE) = false := by simpa using walked
    rw [unavailable] at asked
    obtain ⟨rest,rfl⟩ := asksCache_busy asked
    have does := ended (finished.resolve_left walked)
    rcases rest with rfl | rfl
    · exact .once _ _ _ _ does
    · rw [if_neg (by decide),memory_ask_idle restart (show (2 : U8) ≠ 1 by decide)]
      exact .once _ _ _ _ does

/-- The stage asks what its state says, and what it saves for a replay is to poll for it. -/
structure MemoryDone (mem : MemoryState Watched) (m : StageRegM) (w' : StageRegW) (mem' : MemoryState Watched) :
    Prop where
  does : MemoryDoes mem.framework (mem.refill m) (mem.memory_ask m) mem'.framework
    (if w'.global_memory_stall = 0 then none else waiting (mem'.memory_ask w'.memory_register))
  itlb : mem'.itlb = mem.itlb
  instruction_cache : mem'.instruction_cache = mem.instruction_cache
  params : IsDataCache mem'.data_cache

/-- The W register of a stall saves what is to poll. -/
theorem stall_does {s s' : Watched} {refill : Option U64} {next : Option (Ask × Bool)} {mem' : MemoryState Watched}
    {new_w_reg : StageRegW} {code tainted : U8} {m : StageRegM} (set : code ≠ 0)
    (does : MemoryDoes s refill next s' (waiting (mem'.memory_ask m))) :
    MemoryDoes s refill next s' (if (new_w_reg.stall code tainted m).global_memory_stall = 0 then none
      else waiting (mem'.memory_ask (new_w_reg.stall code tainted m).memory_register)) := by
  rw [if_neg (show (new_w_reg.stall code tainted m).global_memory_stall ≠ 0 from set)]
  exact does

/-- The translation leaves the data cache alone. -/
theorem translates_params {mem mem' : MemoryState Watched} {locals : CalleeLocals} {m : StageRegM} {status : U8}
    {physical_address : U32} (params : IsDataCache mem.data_cache)
    (translated : Translates watched mem locals m status physical_address mem') :
    IsDataCache mem'.data_cache := by
  obtain ⟨tlb,framework,-,rfl⟩ := dtlb_address_moved translated
  exact params

theorem memory_does {mem : MemoryState Watched} {m : StageRegM} {locals : CalleeLocals} {w new_w_reg : StageRegW}
    {r : StageRegW × Option (U64 × U8 × U64) × MemoryState Watched} (params : IsDataCache mem.data_cache)
    (stage : mem.framework.ledger.framework.current_stage = .M) (unsquashed : ¬ w.tainted_executions > 0)
    (accessed : Accesses watched mem locals m w new_w_reg r) :
    MemoryDoes mem.framework (mem.refill m) (mem.memory_ask m) r.2.2.framework
      (if r.1.global_memory_stall = 0 then none else waiting (r.2.2.memory_ask r.1.memory_register)) := by
  have still {w' : StageRegW} (rest : ¬ m.Accesses) (flows : w'.global_memory_stall = 0) :
      MemoryDoes mem.framework (mem.refill m) (mem.memory_ask m) mem.framework
        (if w'.global_memory_stall = 0 then none else waiting (mem.memory_ask w'.memory_register)) := by
    rw [if_pos flows,MemoryState.memory_ask,if_pos rest]
    exact .once _ _ _ _ .nothing
  cases accessed with
  | squashes tainted => exact absurd tainted unsquashed
  | forwards unsquashed op => exact still (by simp [StageRegM.Accesses,op]) rfl
  | idle unsquashed op => exact still (by simp [StageRegM.Accesses,op]) rfl
  | walks unsquashed code op status physical_address mem' translated unfinished =>
    have access : m.Accesses := op.imp And.left And.left
    rcases dtlb_does access translated with ⟨hit,-⟩ | ⟨walked,-,-,does⟩
    · exact absurd hit unfinished.1
    have stalls : code ≠ 0 := by rcases op with ⟨-,rfl⟩ | ⟨-,rfl⟩ <;> decide
    have again : mem'.memory_ask (m.walking status) =
        mem'.dtlb.walk_ask mem.framework.ledger.framework.ptbr (m.address.setWidth 32) status := by
      rw [← does_ptbr does]
      exact (if_neg (not_not_intro access)).trans (if_neg fun hit => unfinished.2 hit.1)
    refine stall_does stalls ?_
    rw [again]
    exact .once _ _ _ _ does
  | load_misses unsquashed op status physical_address mem' translated finished missed value mem'' read stall =>
    obtain ⟨cache',s',ran,rfl⟩ := data_read_moved read
    have does := access_does params stage (.inl op) translated finished
      (read_asks op (translates_params params translated) ran)
    rw [if_neg stall] at does
    exact stall_does (by split <;> decide) does
  | loads unsquashed op status physical_address mem' translated finished value mem'' read =>
    obtain ⟨cache',s',ran,rfl⟩ := data_read_moved read
    exact access_does params stage (.inl op) translated finished
      (read_asks op (translates_params params translated) ran)
  | store_misses unsquashed op status physical_address mem' translated finished missed mem'' write stall =>
    obtain ⟨cache',s',ran,rfl⟩ := data_write_moved write
    have does := access_does params stage (.inr op) translated finished
      (write_asks op (translates_params params translated) ran)
    rw [if_neg stall] at does
    exact stall_does (by split <;> decide) does
  | stores unsquashed op status physical_address mem' translated finished mem'' write =>
    obtain ⟨cache',s',ran,rfl⟩ := data_write_moved write
    exact access_does params stage (.inr op) translated finished
      (write_asks op (translates_params params translated) ran)

theorem memory_done {mem : MemoryState Watched} {m : StageRegM} {locals : CalleeLocals} {w new_w_reg : StageRegW}
    {r : StageRegW × Option (U64 × U8 × U64) × MemoryState Watched} (params : IsDataCache mem.data_cache)
    (stage : mem.framework.ledger.framework.current_stage = .M) (unsquashed : ¬ w.tainted_executions > 0)
    (accessed : Accesses watched mem locals m w new_w_reg r) : MemoryDone mem m r.1 r.2.2 := by
  have moved := accesses_moved accessed
  exact ⟨memory_does params stage unsquashed accessed,moved.itlb,moved.instruction_cache,moved.params params⟩

/-- A stage with no access, or with a squashed one, leaves memory alone. -/
theorem memory_quiet {σ ι : Type} {ms : MemorySystem σ ι} {mem : σ} {m : StageRegM} {locals : ι}
    {w new_w_reg : StageRegW} {r : StageRegW × Option (U64 × U8 × U64) × σ}
    (quiet : ¬ m.Accesses ∨ w.tainted_executions > 0) (accessed : Accesses ms mem locals m w new_w_reg r) :
    r.2.2 = mem ∧ r.1.global_memory_stall = 0 ∧ r.2.1 = none := by
  have busy (unsquashed : ¬ w.tainted_executions > 0) (op : m.Accesses) {P : Prop} : P :=
    absurd quiet (not_or_intro (not_not_intro op) unsquashed)
  cases accessed with
  | squashes => exact ⟨rfl,rfl,rfl⟩
  | forwards => exact ⟨rfl,rfl,rfl⟩
  | idle => exact ⟨rfl,rfl,rfl⟩
  | walks unsquashed code op => exact busy unsquashed (op.imp And.left And.left)
  | load_misses unsquashed op => exact busy unsquashed (.inl op)
  | loads unsquashed op => exact busy unsquashed (.inl op)
  | store_misses unsquashed op => exact busy unsquashed (.inr op)
  | stores unsquashed op => exact busy unsquashed (.inr op)

/-! ### The fetch stage -/

/-- What the fetch stage asks next at the pc, and whether it polls. -/
def MemoryState.fetch_ask {φ : Type} [Rooted φ] (mem : MemoryState φ) (d : StageRegD) (pc : U64) :
    Option (Ask × Bool) :=
  if d.walk_status = 0xFF ∧ mem.itlb.Hit (pc.setWidth 32) then
    let address : U64 := (mem.itlb.translation (pc.setWidth 32)).setWidth 64
    if mem.instruction_cache.Holds (mem.instruction_cache.indexOf address) address then none
    else some (⟨address,16,.READ⟩,d.will_be_stalled == 1)
  else mem.itlb.walk_ask (Rooted.ptbr mem.framework) (pc.setWidth 32) d.walk_status

/-- A fetch that has not stalled, or not for memory, polls for nothing. -/
theorem fetch_ask_idle {φ : Type} [Rooted φ] {mem : MemoryState φ} {d : StageRegD} {pc : U64}
    (start : d.walk_status = 0xFF) (fresh : d.will_be_stalled ≠ 1) : waiting (mem.fetch_ask d pc) = none := by
  have first : (d.will_be_stalled == 1) = false := by simpa using fresh
  unfold MemoryState.fetch_ask
  split
  · simp only
    split
    · rfl
    · exact waiting_poll first
  · rw [start]
    exact waiting_walk (by decide) (by decide)

/-- The stage asks what its state says, and is left to poll for it. -/
structure FetchDone (mem : MemoryState Watched) (d : StageRegD) (pc : U64) (d' : StageRegD) (pc' : U64)
    (mem' : MemoryState Watched) :
    Prop where
  does : Does mem.framework (mem.fetch_ask d pc) mem'.framework (waiting (mem'.fetch_ask d' pc'))
  dtlb : mem'.dtlb = mem.dtlb
  data_cache : mem'.data_cache = mem.data_cache
  params : IsInstructionCache mem'.instruction_cache

theorem itlb_does {mem mem' : MemoryState Watched} {locals : CalleeLocals} {d : StageRegD} {pc : U64} {code : U8}
    {physical_pc : U32}
    (translated : watched.itlb_address mem locals (pc.setWidth 32) d.walk_status = .ok (code,physical_pc,mem')) :
    (code = 0xFE ∧ (d.walk_status = 0xFF ∧ mem.itlb.Hit (pc.setWidth 32)) ∧ mem' = mem ∧
        physical_pc = mem.itlb.translation (pc.setWidth 32)) ∨
      (code ≠ 0xFE ∧ mem' = { mem with itlb := mem'.itlb, framework := mem'.framework } ∧
        (code = 0xFF → Does mem.framework (mem.fetch_ask d pc) mem'.framework none) ∧
        Does mem.framework (mem.fetch_ask d pc) mem'.framework
          (waiting (mem'.itlb.walk_ask mem.framework.ledger.framework.ptbr (pc.setWidth 32) code))) := by
  obtain ⟨r,answered,outcome⟩ := bind_ok.mp translated
  rcases get_address_walks answered with ⟨hit,rfl⟩ | ⟨missed,walks⟩
  · cases outcome
    exact .inl ⟨rfl,hit,rfl,rfl⟩
  · cases outcome
    obtain ⟨walked,ended,does⟩ := walks_does walks
    rw [show mem.fetch_ask d pc = mem.itlb.walk_ask mem.framework.ledger.framework.ptbr (pc.setWidth 32)
      d.walk_status from if_neg missed]
    exact .inr ⟨walked,rfl,ended,does⟩

/-- The read of the instruction cache, with the translation before it: it is over, or fetch is left to poll. -/
theorem instruction_does {mem mem' mem'' : MemoryState Watched} {locals : CalleeLocals} {d : StageRegD} {pc : U64}
    {status code : U8} {physical_pc word word' : U32} (params : IsInstructionCache mem.instruction_cache)
    (stage : mem.framework.ledger.framework.current_stage = .F)
    (translated : watched.itlb_address mem locals (pc.setWidth 32) d.walk_status = .ok (status,physical_pc,mem'))
    (finished : status = 0xFE ∨ status = 0xFF)
    (accessed : watched.instruction_read mem' physical_pc word (d.will_be_stalled == 1) (status == 0xFE) =
      .ok (code,word',mem'')) :
    (code = 0 ∨ code = 2) ∧ Does mem.framework (mem.fetch_ask d pc) mem''.framework none ∨
      code = 1 ∧ ∃ ask, mem''.fetch_ask ⟨0,0,0,false,1,0xFF⟩ pc = some (ask,true) ∧
        Does mem.framework (mem.fetch_ask d pc) mem''.framework (some ask) := by
  obtain ⟨value,cache,s',ran,rfl,rfl⟩ := instruction_read_moved accessed
  rcases itlb_does translated with ⟨rfl,hit,rfl,rfl⟩ | ⟨walked,moved,ended,-⟩
  · have bytes : mem'.instruction_cache.cache_type.row_bytes = 16 := by rw [params.type]; rfl
    have sized : mem'.instruction_cache.cache_type.row_bytes =
        mem'.framework.ledger.framework.current_stage.block_bytes := by
      rw [bytes,stage]; rfl
    have asks (missing : ¬ mem'.instruction_cache.Holds
        (mem'.instruction_cache.indexOf ((mem'.itlb.translation (pc.setWidth 32)).setWidth 64))
        ((mem'.itlb.translation (pc.setWidth 32)).setWidth 64)) :
        mem'.fetch_ask d pc = some (⟨(mem'.itlb.translation (pc.setWidth 32)).setWidth 64,16,.READ⟩,
          d.will_be_stalled == 1) :=
      (if_pos hit).trans (if_neg missing)
    cases CacheTable.read_access_instruction params ran with
    | hits holds =>
      refine .inl ⟨.inl rfl,?_⟩
      rw [show mem'.fetch_ask d pc = none from (if_pos hit).trans (if_pos holds)]
      exact .nothing
    | busy missing taken => cases taken
    | waits missing free data _ asked =>
      have asked := get_block_asked sized asked
      rw [bytes] at asked
      refine .inr ⟨rfl,⟨(mem'.itlb.translation (pc.setWidth 32)).setWidth 64,16,.READ⟩,?_,?_⟩
      · refine (if_pos ⟨rfl,hit.2⟩).trans (if_neg fun held => missing ?_)
        unfold CacheTable.Holds at held
        rw [rows_filled] at held
        exact held
      · rw [asks missing]
        exact .waits _ _ _ asked
    | fills missing free data _ asked =>
      have asked := get_block_asked sized asked
      rw [bytes] at asked
      refine .inl ⟨.inl rfl,?_⟩
      rw [asks missing]
      exact .answered _ _ _ asked
  · have unavailable : (status == 0xFE) = false := by simpa using walked
    have params' : IsInstructionCache mem'.instruction_cache := by
      rw [moved]
      exact params
    have does := ended (finished.resolve_left walked)
    rw [unavailable] at ran
    cases CacheTable.read_access_instruction params' ran with
    | hits holds => exact .inl ⟨.inl rfl,does⟩
    | busy missing taken => exact .inl ⟨.inr rfl,does⟩
    | waits missing free => cases free
    | fills missing free => cases free

theorem fetch_does {mem : MemoryState Watched} {locals : CalleeLocals} {d new_d_reg : StageRegD} {pc : U64}
    {table : BranchTable} {r : StageRegD × U64 × Option (U64 × U32) × MemoryState Watched}
    (params : IsInstructionCache mem.instruction_cache) (stage : mem.framework.ledger.framework.current_stage = .F)
    (fetched : Fetches watched mem locals d new_d_reg pc table r) :
    Does mem.framework (mem.fetch_ask d pc) r.2.2.2.framework (waiting (r.2.2.2.fetch_ask r.1 r.2.1)) := by
  cases fetched with
  | walks status physical_pc mem' translated unfinished =>
    rcases itlb_does translated with ⟨hit,-⟩ | ⟨walked,moved,-,does⟩
    · exact absurd hit unfinished.1
    have again : mem'.fetch_ask { new_d_reg with will_be_stalled := 2, tlb_stall_status := status } pc =
        mem'.itlb.walk_ask mem.framework.ledger.framework.ptbr (pc.setWidth 32) status := by
      rw [← does_ptbr does]
      exact if_neg fun hit => unfinished.2 hit.1
    rw [again]
    exact does
  | misses status physical_pc mem' read_status instruction mem'' translated finished accessed missed =>
    rcases instruction_does params stage translated finished accessed with ⟨ended,does⟩ | ⟨rfl,ask,again,does⟩
    · obtain rfl := ended.resolve_left missed
      rw [fetch_ask_idle (by rfl) (show (3 : U8) ≠ 1 by decide)]
      exact does
    · show Does _ _ _ (waiting (mem''.fetch_ask ⟨0,0,0,false,1,0xFF⟩ pc))
      rw [again]
      exact does
  | delivers status physical_pc mem' instruction mem'' translated finished accessed =>
    rcases instruction_does params stage translated finished accessed with ⟨ended,does⟩ | ⟨miss,-⟩
    · rw [fetch_ask_idle (by rfl) (by simp)]
      exact does
    · cases miss

theorem fetch_done {mem : MemoryState Watched} {locals : CalleeLocals} {d new_d_reg : StageRegD} {pc : U64}
    {table : BranchTable} {r : StageRegD × U64 × Option (U64 × U32) × MemoryState Watched}
    (params : IsInstructionCache mem.instruction_cache) (stage : mem.framework.ledger.framework.current_stage = .F)
    (fetched : Fetches watched mem locals d new_d_reg pc table r) :
    FetchDone mem d pc r.1 r.2.1 r.2.2.2 := by
  have moved := fetches_moved fetched
  exact ⟨fetch_does params stage fetched,moved.dtlb,moved.data_cache,moved.params params⟩

/-! ### Cycles -/

section
variable {φ : Type} [Rooted φ]

/-- The access that memory has under way: the one saved for a replay, or the one in M. -/
def Pipeline.request {σ : Type} (p : Pipeline σ) : StageRegM :=
  if p.cur_w_reg.global_memory_stall = 0 then p.cur_m_reg else p.cur_w_reg.memory_register

/-- What each stage waits for. -/
def Pipeline.asks (p : Pipeline (MemoryState φ)) : Stage → Option Ask
  | .F => waiting (p.mem.fetch_ask p.cur_d_reg p.program_counter)
  | .M => waiting (p.mem.memory_ask p.request)
  | _ => none

/-- A cycle that keeps requests and polls together: fetch goes on waiting for what it waits
    for; no other access comes to M before a saved one is replayed; and the two stages are not
    at one address. -/
structure Attentive (p : Pipeline (MemoryState φ)) : Prop where
  fetch : ∀ pc, p.fetch_pc = .ok pc →
    waiting (p.mem.fetch_ask p.cur_d_reg pc) = waiting (p.mem.fetch_ask p.cur_d_reg p.program_counter)
  replay : p.cur_w_reg.global_memory_stall ≠ 0 → ¬ p.cur_m_reg.Accesses ∨ p.cur_w_reg.tainted_executions > 0
  apart : ∀ pc, p.fetch_pc = .ok pc → ∀ b ∈ p.mem.fetch_ask p.cur_d_reg pc,
    (∀ a ∈ p.mem.memory_ask p.request, a.1.address ≠ b.1.address) ∧ p.mem.refill p.request ≠ some b.1.address

/-- In which, too, an access that is to read a block gives up a clean row. -/
structure Diligent (p : Pipeline (MemoryState φ)) : Prop extends Attentive p where
  clean : p.cur_w_reg.global_memory_stall = 0 → ¬ p.mem.Refills p.cur_m_reg

instance (priority := 2000) decidableOk {ε α : Type} (x : Except ε α) (P : α → Prop) [DecidablePred P] :
    Decidable (∀ a, x = .ok a → P a) :=
  match x with
  | .error _ => isTrue nofun
  | .ok a => decidable_of_iff (P a) ⟨fun holds _ same => Except.ok.inj same ▸ holds,fun all => all a rfl⟩
instance (p : Pipeline (MemoryState φ)) : Decidable (Attentive p) :=
  decidable_of_iff ((∀ pc, p.fetch_pc = .ok pc →
        waiting (p.mem.fetch_ask p.cur_d_reg pc) = waiting (p.mem.fetch_ask p.cur_d_reg p.program_counter)) ∧ _ ∧
      ∀ pc, p.fetch_pc = .ok pc → ∀ b ∈ p.mem.fetch_ask p.cur_d_reg pc,
        (∀ a ∈ p.mem.memory_ask p.request, a.1.address ≠ b.1.address) ∧ p.mem.refill p.request ≠ some b.1.address)
    ⟨fun ⟨fetch,replay,apart⟩ => ⟨fetch,replay,apart⟩,fun attentive => ⟨attentive.fetch,attentive.replay,
      attentive.apart⟩⟩
instance (p : Pipeline (MemoryState φ)) : Decidable (Diligent p) :=
  decidable_of_iff (Attentive p ∧ (p.cur_w_reg.global_memory_stall = 0 → ¬ p.mem.Refills p.cur_m_reg))
    ⟨fun ⟨attentive,clean⟩ => ⟨attentive,clean⟩,fun diligent => ⟨diligent.toAttentive,diligent.clean⟩⟩

end

/-- Between two cycles the requests not reported are of what fetch and memory wait for. -/
structure Balanced (p : Pipeline (MemoryState Watched)) : Prop where
  retiring : p.cur_w_reg.Fitted
  prepared : p.cur_m_reg.Small
  instruction_cache : IsInstructionCache p.mem.instruction_cache
  data_cache : IsDataCache p.mem.data_cache
  books : p.mem.framework.ledger.Books p.asks
  quiet : p.mem.framework.ledger.reported = []

/-- And nobody polls in vain. -/
def Pipeline.Prompt (p : Pipeline (MemoryState Watched)) : Prop := p.mem.framework.Prompt p.asks

/-- An instruction that execute prepares has not been stalled. -/
theorem executes_fresh {x : StageRegX} {m : StageRegM} {w : StageRegW} {new_m_reg : StageRegM} {pc : U64}
    {table : BranchTable} {r : StageRegM × U64 × BranchTable × Option (U64 × U32)}
    (executed : Executes x m w new_m_reg pc table r) (flows : w.global_memory_stall = 0) : r.1.wasStalled = 0 := by
  cases executed with
  | replays stall => exact absurd flows stall
  | bubble => rfl
  | squashes => rfl
  | skips => rfl
  | dispatches flows holds clean word e handled =>
    simp only
    split <;> exact dispatch_wasStalled handled

/-- What the M stage leaves: its entry is what the next cycle finds, and whatever it reported or
    waits for is at an address it was to ask for. -/
structure MemorySettled (p p' : Pipeline (MemoryState Watched)) (mem : MemoryState Watched) : Prop where
  itlb : mem.itlb = p.mem.itlb
  instruction_cache : mem.instruction_cache = p.mem.instruction_cache
  data_cache : IsDataCache mem.data_cache
  ptbr : mem.framework.ledger.framework.ptbr = p.mem.framework.ledger.framework.ptbr
  books : mem.framework.ledger.Books (Function.update p.asks .M (waiting (mem.memory_ask p'.request)))
  prompt : Diligent p → p.Prompt →
    mem.framework.Prompt (Function.update p.asks .M (waiting (mem.memory_ask p'.request)))
  reported : ∀ a ∈ mem.framework.ledger.reported, a ∈ p.mem.memory_places p.request
  few : mem.framework.ledger.reported.length ≤ 2
  waits : ∀ ask, waiting (mem.memory_ask p'.request) = some ask → ask.address ∈ p.mem.memory_places p.request

theorem memory_places_few {φ : Type} [Rooted φ] (mem : MemoryState φ) (m : StageRegM) :
    (mem.memory_places m).length ≤ 2 := by
  unfold MemoryState.memory_places places
  cases mem.memory_ask m <;> cases mem.refill m <;> simp

theorem asked_places {next : Option (Ask × Bool)} {ask : Ask × Bool} (asked : next = some ask) :
    ask.1.address ∈ places next := by
  rw [asked]
  exact List.mem_cons_self

section
variable {p p' : Pipeline (MemoryState Watched)} {locals : CalleeLocals} {events : Events}
  {memory_mem fetch_mem : MemoryState Watched} {execute_pc decode_pc : U64} (attentive : Attentive p)
  (staged : Staged watched p locals memory_mem execute_pc decode_pc fetch_mem p' events)
include attentive staged

/-- The two stages are at different addresses. -/
theorem places_apart {a : U64} (memory : a ∈ p.mem.memory_places p.request) {b : Ask × Bool}
    (fetch : p.mem.fetch_ask p.cur_d_reg decode_pc = some b) : a ≠ b.1.address := by
  obtain ⟨asked,filled⟩ := attentive.apart decode_pc staged.fetch_pc b fetch
  rcases List.mem_append.mp memory with own | refill
  · obtain ⟨ask,found,rfl⟩ := List.mem_map.mp own
    exact asked ask (Option.mem_toList.mp found)
  · rintro rfl
    exact filled (Option.mem_toList.mp refill)

/-- What memory is to ask is at addresses that nobody else waits at. -/
theorem memory_alone : ∀ a ∈ p.mem.memory_places p.request, Alone (watched.enter p.mem .M).framework p.asks a := by
  intro a asked stage other elsewhere waits same
  -- only fetch waits beside memory, and it goes on with what it waits for
  cases stage with
  | F =>
    have found := waiting_some ((attentive.fetch decode_pc staged.fetch_pc).trans waits)
    exact places_apart attentive staged asked found same.symm
  | M => exact elsewhere rfl
  | _ => cases waits

/-- What fetch is to ask is at an address that memory neither waits at nor was told of. -/
theorem fetch_alone {mem : MemoryState Watched} (memory : MemorySettled p p' mem) :
    ∀ a ∈ places (p.mem.fetch_ask p.cur_d_reg decode_pc), Alone (watched.enter mem .F).framework
      (Function.update p.asks .M (waiting (mem.memory_ask p'.request))) a ∧ a ∉ mem.framework.ledger.reported := by
  intro a asked
  obtain ⟨ask,found,rfl⟩ := List.mem_map.mp asked
  have found : p.mem.fetch_ask p.cur_d_reg decode_pc = some ask := Option.mem_toList.mp found
  refine ⟨fun stage other elsewhere waits same => ?_,fun told => ?_⟩
  · cases stage with
    | F => exact elsewhere rfl
    | M =>
      rw [Function.update_self] at waits
      exact places_apart attentive staged (memory.waits other waits) found same
    | _ => cases waits
  · exact places_apart attentive staged (memory.reported _ told) found rfl

variable (balanced : Balanced p)
include balanced

/-- Nothing is stalled: the access in M is made, and the next one is it again or a new one. -/
theorem access_settled (flows : p.cur_w_reg.global_memory_stall = 0) : MemorySettled p p' memory_mem := by
  have unsquashed : ¬ p.cur_w_reg.tainted_executions > 0 := by
    rw [balanced.retiring.flows flows]
    decide
  have request : p.request = p.cur_m_reg := if_pos flows
  have quiet : (watched.enter p.mem .M).framework.ledger.reported = [] := balanced.quiet
  have done := memory_done (show IsDataCache (watched.enter p.mem .M).data_cache from balanced.data_cache) rfl
    unsquashed staged.memory
  -- after a stall the saved access is next, else a new one, which has nothing to wait for
  have next : (if p'.cur_w_reg.global_memory_stall = 0 then none
    else waiting (memory_mem.memory_ask p'.cur_w_reg.memory_register)) =
      waiting (memory_mem.memory_ask p'.request) := by
    unfold Pipeline.request
    split
    · have fresh := executes_fresh staged.execute flows
      refine (memory_ask_idle (if_neg (not_not_intro fresh)) ?_).symm
      rw [show p'.cur_m_reg.wasStalled = 0 from fresh]
      decide
    · rfl
  have does : MemoryDoes (watched.enter p.mem .M).framework (p.mem.refill p.request) (p.mem.memory_ask p.request)
    memory_mem.framework
      (waiting (memory_mem.memory_ask p'.request)) := by
    rw [request,← next]
    exact done.does
  have settled := memoryDoes_settled (s := (watched.enter p.mem .M).framework)
    (books_enter balanced.books .M) (.inr rfl) rfl
    (by rw [quiet]; decide)
    (fun a asked => ⟨memory_alone attentive staged a asked,by rw [quiet]; exact List.not_mem_nil⟩) does
  exact {
    itlb := done.itlb
    instruction_cache := done.instruction_cache
    data_cache := done.params
    ptbr := (memoryDoes_ptbr does :)
    books := settled.books
    prompt := fun diligent prompt => by
      have none : p.mem.refill p.request = none := by
        rw [request]
        exact if_neg (diligent.clean flows)
      rw [none] at does
      cases does with
      | once refill next s' w does =>
        exact does_prompt (s := (watched.enter p.mem .M).framework) (books_enter balanced.books .M)
          ⟨prompt.made,prompt.logged⟩ rfl does
    reported := fun a told => (settled.reported a told).resolve_left (by rw [quiet]; exact List.not_mem_nil)
    few := by
      have few := settled.few
      rw [quiet] at few
      exact few.trans ((Nat.zero_add _).trans_le (memory_places_few p.mem p.request))
    waits := fun ask waits => memoryDoes_waits does waits }

/-- An access is saved: memory is left alone, and the next cycle finds the access in M. -/
theorem replay_settled (stall : p.cur_w_reg.global_memory_stall ≠ 0) : MemorySettled p p' memory_mem := by
  obtain ⟨same,after,-⟩ := memory_quiet (attentive.replay stall) staged.memory
  have same : memory_mem = watched.enter p.mem .M := same
  have request : p'.request = { p.request with tainted_executions := 1 } := by
    rw [Pipeline.request,if_pos after,Pipeline.request,if_neg stall]
    exact congrArg Prod.fst (executes_replays staged.execute stall)
  have asks : memory_mem.memory_ask p'.request = p.mem.memory_ask p.request := by
    rw [request,same]
    rfl
  have entries : Function.update p.asks .M (waiting (memory_mem.memory_ask p'.request)) = p.asks := by
    rw [asks]
    exact Function.update_eq_self_iff.mpr rfl
  have quiet : memory_mem.framework.ledger.reported = [] := by
    rw [same]
    exact balanced.quiet
  exact {
    itlb := by rw [same]; rfl
    instruction_cache := by rw [same]; rfl
    data_cache := by rw [same]; exact balanced.data_cache
    ptbr := by rw [same]; rfl
    books := by
      rw [entries,same]
      exact books_enter balanced.books .M
    prompt := fun _ prompt => by
      rw [entries,same]
      exact ⟨prompt.made,prompt.logged⟩
    reported := by
      rw [quiet]
      exact fun a told => absurd told List.not_mem_nil
    few := by rw [quiet]; decide
    waits := fun ask waits => List.mem_append_left _ (asked_places (waiting_some (asks ▸ waits))) }

theorem memory_settled : MemorySettled p p' memory_mem := by
  by_cases flows : p.cur_w_reg.global_memory_stall = 0
  · exact access_settled attentive staged balanced flows
  · exact replay_settled attentive staged balanced flows

theorem staged_balanced : Balanced p' ∧ (Diligent p → p.Prompt → p'.Prompt) := by
  have memory := memory_settled attentive staged balanced
  have params : IsInstructionCache (watched.enter memory_mem .F).instruction_cache := by
    show IsInstructionCache memory_mem.instruction_cache
    rw [memory.instruction_cache]
    exact balanced.instruction_cache
  have done := fetch_done params rfl staged.fetch
  have asks : (watched.enter memory_mem .F).fetch_ask p.cur_d_reg decode_pc =
      p.mem.fetch_ask p.cur_d_reg decode_pc := by
    unfold MemoryState.fetch_ask
    rw [show (watched.enter memory_mem .F).itlb = p.mem.itlb from memory.itlb,
      show (watched.enter memory_mem .F).instruction_cache = p.mem.instruction_cache from memory.instruction_cache,
      show Rooted.ptbr (watched.enter memory_mem .F).framework = Rooted.ptbr p.mem.framework from memory.ptbr]
  have does := done.does
  rw [asks] at does
  have own : Function.update p.asks .M (waiting (memory_mem.memory_ask p'.request)) .F =
      waiting (p.mem.fetch_ask p.cur_d_reg decode_pc) :=
    (Function.update_of_ne (by decide) ..).trans (attentive.fetch decode_pc staged.fetch_pc).symm
  have settled := does_settled (s := (watched.enter memory_mem .F).framework) (books_enter memory.books .F)
    (.inl rfl) own memory.few
    (fetch_alone attentive staged memory) does
  have moved : p'.mem.memory_ask p'.request = memory_mem.memory_ask p'.request := by
    rw [staged.mem]
    unfold MemoryState.memory_ask MemoryState.data_ask MemoryState.given_up MemoryState.data_address
    rw [show (watched.end_cycle fetch_mem).dtlb = memory_mem.dtlb from done.dtlb,
      show (watched.end_cycle fetch_mem).data_cache = memory_mem.data_cache from done.data_cache,
      show Rooted.ptbr (watched.end_cycle fetch_mem).framework =
        Rooted.ptbr memory_mem.framework from (does_ptbr does :)]
  have fetch : p'.asks .F = waiting (fetch_mem.fetch_ask p'.cur_d_reg p'.program_counter) := by
    show waiting (p'.mem.fetch_ask p'.cur_d_reg p'.program_counter) = _
    rw [staged.mem]
    rfl
  have entries : Function.update (Function.update p.asks .M (waiting (memory_mem.memory_ask p'.request))) .F
      (waiting (fetch_mem.fetch_ask p'.cur_d_reg p'.program_counter)) = p'.asks := by
    funext stage
    cases stage with
    | F => exact (Function.update_self ..).trans fetch.symm
    | M =>
      rw [Function.update_of_ne (by decide),Function.update_self,← moved]
      rfl
    | _ => rfl
  have books : fetch_mem.framework.ledger.Books p'.asks := entries ▸ settled.books
  refine ⟨?_,fun diligent prompt => ?_⟩
  · exact {
      retiring := accesses_fitted staged.memory balanced.prepared balanced.retiring.flushed
      prepared := executes_small staged.execute balanced.retiring.saved
      instruction_cache := by rw [staged.mem]; exact done.params
      data_cache := by rw [staged.mem]; exact done.data_cache ▸ memory.data_cache
      books := by rw [staged.mem]; exact books_end_cycle books
      quiet := by rw [staged.mem]; rfl }
  · have prompt := memory.prompt diligent prompt
    have prompt := does_prompt (s := (watched.enter memory_mem .F).framework) (books_enter memory.books .F)
      ⟨prompt.made,prompt.logged⟩ own does
    have prompt : fetch_mem.framework.Prompt p'.asks := entries ▸ prompt
    rw [Pipeline.Prompt,staged.mem]
    exact ⟨prompt.made,prompt.logged⟩

end

theorem cycle_balanced {s s' : Pipeline (MemoryState Watched) × List Events} {locals : CalleeLocals}
    (balanced : Balanced s.1) (attentive : Attentive s.1) (stepped : cycle watched s locals = .ok s') :
    Balanced s'.1 ∧ (Diligent s.1 → s.1.Prompt → s'.1.Prompt) := by
  rcases cycle_cases stepped with ⟨inst,rfl⟩ | ⟨inst,p,events,ran,rfl⟩
  · exact ⟨{ balanced with },fun _ prompt => prompt⟩
  · obtain ⟨memory_mem,execute_pc,decode_pc,fetch_mem,staged⟩ := stages_staged ran
    obtain ⟨balanced,prompt⟩ := staged_balanced (p := { s.1 with inst := inst }) { attentive with } staged
      { balanced with }
    exact ⟨balanced,fun diligent => prompt { diligent with }⟩

/-- The watched simulator before its first cycle. -/
def Watched.started (fw : Framework) (pc : U64) (file : RegisterFile) (buffers : LoopLocals) :
    Pipeline (MemoryState Watched) × List Events :=
  Pipeline.initial (.initial ⟨.opened fw,[]⟩) pc file buffers

theorem asks_started (fw : Framework) (pc : U64) (file : RegisterFile) (buffers : LoopLocals) :
    (Watched.started fw pc file buffers).1.asks = fun _ => none := by
  funext stage
  cases stage with
  | F => exact fetch_ask_idle rfl (show (0 : U8) ≠ 1 by decide)
  | M =>
    show waiting ((Watched.started fw pc file buffers).1.mem.memory_ask .zero) = none
    exact memory_ask_idle rfl (by decide)
  | _ => rfl

theorem balanced_started {fw : Framework} (zeroed : fw.memory_pending = memory_initialize_pending) (pc : U64)
    (file : RegisterFile) (buffers : LoopLocals) : Balanced (Watched.started fw pc file buffers).1 where
  retiring := (fitted_initial (MemoryState.initial (⟨.opened fw,[]⟩ : Watched)) pc file buffers).retiring
  prepared := (fitted_initial (MemoryState.initial (⟨.opened fw,[]⟩ : Watched)) pc file buffers).prepared
  instruction_cache := isInstructionCache_construct
  data_cache := CacheTable.isDataCache_construct
  books := by
    rw [asks_started]
    exact ⟨Ledger.accounts_opened zeroed,nofun,nofun⟩
  quiet := rfl

theorem prompt_started (fw : Framework) (pc : U64) (file : RegisterFile) (buffers : LoopLocals) :
    (Watched.started fw pc file buffers).1.Prompt := by
  rw [Pipeline.Prompt,asks_started]
  exact ⟨nofun,nofun⟩

/-- No request is dropped: in a run of attentive cycles, with any latencies, every request that
    is not answered at once finds a free slot. -/
theorem no_request_dropped (fw : Framework) (zeroed : fw.memory_pending = memory_initialize_pending) (pc : U64)
    (file : RegisterFile) (buffers : LoopLocals) (inputs : List CalleeLocals) (p : Pipeline (MemoryState Watched))
    (log : List Events)
    (attentive : Guarded (cycle watched) (fun s _ => Attentive s.1) (Watched.started fw pc file buffers) inputs)
    (ran : run (cycle watched) (Watched.started fw pc file buffers) inputs = .ok (p,log)) :
    p.mem.framework.ledger.dropped = false := by
  have balanced := guarded_invariant (fun s : Pipeline (MemoryState Watched) × List Events => Balanced s.1)
    (fun _ _ _ balanced attentive stepped => (cycle_balanced balanced attentive stepped).1)
    (balanced_started zeroed pc file buffers) attentive ran
  exact balanced.books.accounts.kept

/-- The watched simulator at the first instruction of a program, with latencies of one cycle, all storage zero. -/
def startedWatched (program : Nat → U32) : Pipeline (MemoryState Watched) × List Events :=
  Watched.started (.initial (memOfWords (identityMapped program)) 0x400000 1 1) 0 (fun _ => 0) zeroBuffers

/-- `lw x5,256(x0)`. -/
def oneLoad (i : Nat) : U32 := if i = 0 then 0x10002283 else 0

/-- The walks and the fills of both stages. -/
theorem no_request_dropped_one_load : ∃ p log, run (cycle watched) (startedWatched oneLoad)
    (zeroLocals 20) = .ok (p,log) ∧ p.mem.framework.ledger.dropped = false := by
  have attentive : Guarded (cycle watched) (fun s _ => Attentive s.1) (startedWatched oneLoad) (zeroLocals 20) := by
    decide +kernel
  have result : okAnd (run (cycle watched) (startedWatched oneLoad) (zeroLocals 20)) (fun _ => true) = true := by
    decide +kernel
  obtain ⟨⟨p,log⟩,ran,-⟩ := okAnd_iff.mp result
  exact ⟨p,log,ran,no_request_dropped _ rfl 0 _ _ _ p log attentive ran⟩

/-- A chain of `jal x1,32` through five blocks, by the first word of each, then back to 12 and
    through the last word of each. -/
def hops (i : Nat) : U32 := if i = 32 then 0xF8DFF0EF else if i % 8 = 0 ∨ i % 8 = 3 then 0x020000EF else 0

/-- On the second way fetch is always one block too far when the jump is executed, and its
    request is left in the table. There is no slot for the fifth one. -/
theorem fifth_request_dropped : ∃ p log, run (cycle watched) (startedWatched hops) (zeroLocals 29) = .ok (p,log) ∧
    p.mem.framework.ledger.dropped = true ∧
    p.mem.framework.ledger.unreported.map (·.slot.address) = [144,112,80,48,16] := by
  have result : okAnd (run (cycle watched) (startedWatched hops) (zeroLocals 29))
    (fun s => s.1.mem.framework.ledger.dropped &&
      decide (s.1.mem.framework.ledger.unreported.map (·.slot.address) = [144,112,80,48,16])) =
        true := by decide +kernel
  obtain ⟨⟨p,log⟩,ran,fails⟩ := okAnd_iff.mp result
  obtain ⟨dropped,waits⟩ := Bool.and_eq_true_iff.mp fails
  exact ⟨p,log,ran,dropped,of_decide_eq_true waits⟩

/-- A follow-up poll has a request behind it: in a run of diligent cycles, with any latencies,
    whenever a cache polls, a request of the same access waits in the table. -/
theorem follow_ups_backed (fw : Framework) (zeroed : fw.memory_pending = memory_initialize_pending) (pc : U64)
    (file : RegisterFile) (buffers : LoopLocals) (inputs : List CalleeLocals) (p : Pipeline (MemoryState Watched))
    (log : List Events)
    (diligent : Guarded (cycle watched) (fun s _ => Diligent s.1) (Watched.started fw pc file buffers) inputs)
    (ran : run (cycle watched) (Watched.started fw pc file buffers) inputs = .ok (p,log)) :
    ∀ poll ∈ p.mem.framework.polls, poll.Backed := by
  obtain ⟨-,prompt⟩ := guarded_invariant (fun s : Pipeline (MemoryState Watched) × List Events => Balanced s.1 ∧
    s.1.Prompt)
    (fun _ _ _ ⟨balanced,prompt⟩ diligent stepped =>
      (cycle_balanced balanced diligent.toAttentive stepped).imp id fun keeps => keeps diligent prompt)
    ⟨balanced_started zeroed pc file buffers,prompt_started fw pc file buffers⟩ diligent ran
  exact prompt.logged

theorem follow_ups_backed_one_load : ∃ p log, run (cycle watched) (startedWatched oneLoad)
    (zeroLocals 24) = .ok (p,log) ∧
    (∃ poll ∈ p.mem.framework.polls, poll.stage = .F) ∧ (∃ poll ∈ p.mem.framework.polls, poll.stage = .M) ∧
    ∀ poll ∈ p.mem.framework.polls, poll.Backed := by
  have diligent : Guarded (cycle watched) (fun s _ => Diligent s.1) (startedWatched oneLoad) (zeroLocals 24) := by
    decide +kernel
  have result : okAnd (run (cycle watched) (startedWatched oneLoad) (zeroLocals 24)) (fun s => decide
      ((∃ poll ∈ s.1.mem.framework.polls, poll.stage = .F) ∧ ∃ poll ∈ s.1.mem.framework.polls, poll.stage = .M)) =
        true := by
    decide +kernel
  obtain ⟨⟨p,log⟩,ran,polls⟩ := okAnd_iff.mp result
  obtain ⟨fetch,memory⟩ := of_decide_eq_true polls
  exact ⟨p,log,ran,fetch,memory,follow_ups_backed _ rfl 0 _ _ _ p log diligent ran⟩

/-- `jal x1,32` in the last word of a block, after three `addi x5,x6,1`. -/
def jumpAway (i : Nat) : U32 := if i = 3 then 0x020000EF else 0x00130293

/-- The jump takes the pc away from the block that fetch waits for, and fetch polls for one
    that nobody has asked for. -/
theorem poll_unbacked : ∃ p log, run (cycle watched) (startedWatched jumpAway) (zeroLocals 12) = .ok (p,log) ∧
    ∃ poll ∈ p.mem.framework.polls, poll.stage = .F ∧ poll.address = 44 ∧
      ∀ q ∈ poll.slots, q.address ≠ poll.address := by
  have result : okAnd (run (cycle watched) (startedWatched jumpAway) (zeroLocals 12)) (fun s => decide
      (∃ poll ∈ s.1.mem.framework.polls, poll.stage = .F ∧ poll.address = 44 ∧
        ∀ q ∈ poll.slots, q.address ≠ poll.address)) = true := by
    decide +kernel
  obtain ⟨⟨p,log⟩,ran,fails⟩ := okAnd_iff.mp result
  exact ⟨p,log,ran,of_decide_eq_true fails⟩

end RiscvSim
