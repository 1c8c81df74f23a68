import RiscvSim.Alongside
import RiscvSim.Answers
import RiscvSim.Polls

/-!
The simulator beside the one that is watched. Watching changes nothing, so what the watched requests and
polls are known to be is true of the simulator itself: in a run of diligent cycles a watched memory can be
put beside it that is in balance (`Pipeline.Twinned`), and whenever a stage polls, the first slot of the
address is that of its own request (`Framework.Pends`).
-/
namespace RiscvSim
open Bytes Runs

namespace Watched

theorem asked_framework (s : Ledger) (address n_bytes : U64) (op : MemoryOp) (done : Bool) (fw : Framework) :
    (s.asked address n_bytes op done fw).framework = fw := by
  unfold Ledger.asked
  split <;> rfl
theorem told_framework (s : Ledger) (address : U64) (done : Bool) (fw : Framework) :
    (s.told address done fw).framework = fw := by
  unfold Ledger.told
  split <;> rfl

/-- The framework that is watched. -/
def Watches (fw : Framework) (s : Watched) : Prop := s.ledger.framework = fw

theorem tlb_port_watches : Framework.port.Alongside Watches tlb_port where
  memory_read {fw s} watches address narrow value size sizes := by
    cases watches
    exact ⟨rfl,rfl,asked_framework _ _ _ _ _ _⟩
  memory_write {fw s} watches address narrow value := by
    cases watches
    exact ⟨rfl,asked_framework _ _ _ _ _ _⟩
  memory_status {fw s} watches address narrow value := by
    cases watches
    simp only [Framework.port,tlb_port,Ledger.memory_status]
    cases s.ledger.framework.memory_status address value with
    | none => exact .none
    | some r => exact .some ⟨rfl,rfl,told_framework _ _ _ _⟩
  status_bytes watches address := by cases watches; rfl

theorem cache_port_watches : Framework.port.Alongside Watches cache_port where
  memory_read := tlb_port_watches.memory_read
  memory_write := tlb_port_watches.memory_write
  memory_status {fw s} watches address narrow value := by
    cases watches
    simp only [Framework.port,cache_port,Ledger.memory_status]
    cases s.ledger.framework.memory_status address value with
    | none => exact .none
    | some r => exact .some ⟨rfl,rfl,told_framework _ _ _ _⟩
  status_bytes := tlb_port_watches.status_bytes

theorem backing_watches : Framework.backing.Alongside (fun _ => Watches) backing where
  tlb_port _ := tlb_port_watches
  cache_port _ := cache_port_watches
  ptbr watches := by cases watches; rfl
  memory_dump watches := by cases watches; rfl
  enter watches stage := by cases watches; rfl
  end_cycle watches := by cases watches; rfl

end Watched

/-- Watching changes nothing: the watched simulator stops with the same error, or comes to the same
    pipeline, TLBs, caches, framework and log. -/
theorem watched_alike (fw : Framework) (pc : U64) (file : RegisterFile) (buffers : LoopLocals)
    (inputs : List CalleeLocals) :
    Both (fun c c' => ∃ w : Watched, w.ledger.framework = c.1.mem.framework ∧
      c' = (c.1.over { c.1.mem with framework := w },c.2))
      (run (cycle simulator) (Pipeline.initial (.initial fw) pc file buffers) inputs)
      (run (cycle watched) (Watched.started fw pc file buffers) inputs) := by
  have start : Watched.Watches fw ⟨⟨fw,[],[],false⟩,[]⟩ := rfl
  have both := run_alongside (simulatorOver_alongside Watched.backing_watches)
    (side_initial (R := fun _ => Watched.Watches) start pc file buffers) inputs
  refine both.mono ?_
  rintro c c' ⟨⟨itlb,dtlb,instruction_cache,data_cache,w⟩,rfl,side⟩
  obtain ⟨rfl,rfl,rfl,rfl,-,-,watches⟩ := side
  exact ⟨w,watches,rfl⟩

/-! ### What the polls find -/

/-- What a stage waits for is the first slot of its address. -/
theorem Ledger.Books.pends {s : Ledger} {asks : Stage → Option Ask} (books : s.Books asks) (made : s.Made asks)
    {stage : Stage} {ask : Ask} (waits : asks stage = some ask) : s.framework.Pends ask := by
  obtain ⟨r,held,-,rfl⟩ := made stage ask waits
  have table := books.accounts.table
  obtain ⟨inside,live⟩ := table.backed r.slot (List.mem_map_of_mem held)
  obtain ⟨before,rest,place⟩ := List.append_of_mem inside
  refine ⟨r.slot,?_,rfl,rfl⟩
  have fronted := table.fronted
  rw [place] at fronted ⊢
  have others : before.find? (fun q => decide (q.address = r.slot.address)) = none := by
    refine List.find?_eq_none.mpr fun q earlier => ?_
    simpa using (List.pairwise_append.mp fronted).2.2 q earlier r.slot List.mem_cons_self live
  show (before ++ r.slot :: rest).find? (fun q => decide (q.address = r.slot.address)) = some r.slot
  rw [List.find?_append,others]
  simp

section
variable {p p' : Pipeline (MemoryState Framework)} {mem : MemoryState Framework} {t : MemoryState Watched}

section
variable (side : mem.Side Watched.Watches t)
include side

theorem side_fetch_ask (d : StageRegD) (pc : U64) : t.fetch_ask d pc = mem.fetch_ask d pc := by
  obtain ⟨itlb,-,instruction_cache,-,-,-,watches⟩ := side
  unfold MemoryState.fetch_ask
  rw [itlb,instruction_cache,show Rooted.ptbr t.framework = Rooted.ptbr mem.framework from congrArg
    Framework.ptbr watches]

theorem side_memory_ask (m : StageRegM) : t.memory_ask m = mem.memory_ask m := by
  obtain ⟨-,dtlb,-,data_cache,-,-,watches⟩ := side
  unfold MemoryState.memory_ask MemoryState.data_ask MemoryState.given_up MemoryState.data_address
  rw [dtlb,data_cache,show Rooted.ptbr t.framework = Rooted.ptbr mem.framework from congrArg Framework.ptbr watches]

theorem side_refills (m : StageRegM) : t.Refills m ↔ mem.Refills m := by
  obtain ⟨-,dtlb,-,data_cache,-,-,-⟩ := side
  unfold MemoryState.Refills MemoryState.given_up MemoryState.data_address
  rw [dtlb,data_cache]

end

section
variable (side : p.mem.Side Watched.Watches t)
include side

theorem side_asks : (p.over t).asks = p.asks := by
  funext stage
  cases stage with
  | F => exact congrArg waiting (side_fetch_ask side _ _)
  | M => exact congrArg waiting (side_memory_ask side _)
  | _ => rfl

/-- The conditions are on what both have. -/
theorem diligent_over (diligent : Diligent p) : Diligent (p.over t) where
  fetch pc here := by
    rw [show (p.over t).mem = t from rfl,side_fetch_ask side,side_fetch_ask side]
    exact diligent.fetch pc here
  replay := diligent.replay
  apart pc here b asked := by
    rw [show (p.over t).mem = t from rfl,side_fetch_ask side] at asked
    obtain ⟨memory,refill⟩ := diligent.apart pc here b asked
    refine ⟨fun a asks => memory a ?_,fun refills => refill ?_⟩
    · rw [show (p.over t).mem = t from rfl,side_memory_ask side] at asks
      exact asks
    · rw [← refills]
      unfold MemoryState.refill MemoryState.data_address
      rw [show (p.over t).mem = t from rfl,side.dtlb]
      exact if_congr (side_refills side _).symm rfl rfl
  clean flows refills := diligent.clean flows ((side_refills side _).mp refills)

end

/-- A watched memory beside that of the pipeline, in balance and without a poll in vain. -/
structure Pipeline.Twin (p : Pipeline (MemoryState Framework)) (t : MemoryState Watched) : Prop where
  side : p.mem.Side Watched.Watches t
  balanced : Balanced (p.over t)
  prompt : (p.over t).Prompt

theorem twin_initial {fw : Framework} (zeroed : fw.memory_pending = memory_initialize_pending) (pc : U64)
    (file : RegisterFile) (buffers : LoopLocals) : (Pipeline.initial (MemoryState.initial fw) pc file buffers).1.Twin
    (.initial ⟨.opened fw,[]⟩) where
  side := ⟨rfl,rfl,rfl,rfl,CacheTable.narrow_instruction,CacheTable.narrow_data,rfl⟩
  balanced := balanced_started zeroed pc file buffers
  prompt := prompt_started fw pc file buffers

/-- A diligent cycle keeps it; in it, memory and then fetch find their own requests. -/
theorem staged_twin {locals : CalleeLocals} {events : Events} (twin : p.Twin t) (diligent : Diligent p)
    (ran : stages simulator p locals = .ok (p',events)) :
    ∃ memory_mem execute_pc decode_pc fetch_mem t', Staged simulator p locals memory_mem execute_pc decode_pc
    fetch_mem p' events ∧ p'.Twin t' ∧ (∀ ask, p.asks .M = some ask → p.mem.framework.Pends ask) ∧
      ∀ ask, p.asks .F = some ask → memory_mem.framework.Pends ask := by
  have alongside := simulatorOver_alongside Watched.backing_watches
  obtain ⟨memory_mem,execute_pc,decode_pc,fetch_mem,t₁,t₂,t',staged,staged',side₁,side'⟩ :=
    staged_alongside (n := 0) alongside twin.side ran
  have diligent' := diligent_over twin.side diligent
  obtain ⟨balanced,prompt⟩ := staged_balanced diligent'.toAttentive staged' twin.balanced
  have memory := memory_settled diligent'.toAttentive staged' twin.balanced
  refine ⟨memory_mem,execute_pc,decode_pc,fetch_mem,t',staged,⟨side',balanced,prompt diligent' twin.prompt⟩,?_,?_⟩
  · intro ask waits
    rw [← side_asks twin.side] at waits
    have pends := twin.balanced.books.pends twin.prompt.made waits
    rw [show (p.over t).mem.framework.ledger.framework = p.mem.framework from twin.side.framework] at pends
    exact pends
  · intro ask waits
    rw [← side_asks twin.side] at waits
    have kept : Function.update (p.over t).asks .M (waiting (t₁.memory_ask (p'.over t').request)) .F = some ask :=
      (Function.update_of_ne (by decide) ..).trans waits
    have pends := memory.books.pends (memory.prompt diligent' twin.prompt).made kept
    rw [show t₁.framework.ledger.framework = memory_mem.framework from side₁.framework] at pends
    exact pends

end
end RiscvSim
