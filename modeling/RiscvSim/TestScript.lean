import RiscvSim.Checkpoints
import RiscvSim.Interaction
import RiscvSim.Latency
import RiscvSim.RegisterDump
import RiscvSim.Running

/-!
A whole test, as `run_test.sh` runs it: page tables and a program are loaded, the program is run and its registers
are dumped. From what each line of the script achieves follows what the script does. The
dump shows the registers of the sequential machine at the end of the program, in runs that meet
none of the defects (`Calm`).
-/
namespace RiscvSim
open Bytes Runs CText Scripts

/-! ### The script -/

/-- The lines that `run_test.sh` types in, for a program and a number of steps. -/
def run_test (program steps : List Char) : List (List Char) :=
  ["load /x 0x0 ./pt1-3-2-4-7\n".toList,"setptbr 0x8000\n".toList,"load 0x5000 ".toList ++ program ++ ['\n'],
    "setpc 0x1000\n".toList,"run ".toList ++ steps ++ ['\n'],"test_dump_reg\n".toList]

/-- The commands of the lines, with their words. -/
def testOrders (program steps : List Char) : List (Command × List (List Char)) :=
  [(.load,[['/','x'],"0x0".toList,"./pt1-3-2-4-7".toList]),(.setptbr,["0x8000".toList]),
    (.load,["0x5000".toList,program]), (.setpc,["0x1000".toList]),(.run,[steps]),(.test_dump_reg,[])]

/-- Memory before the run: the page tables, and the program moved by what `offset` happened to hold. -/
def testMemory (tables : U64 → Byte) (offset : U64) (image : List Char) : U64 → Byte :=
  blocksLoaded (.initial tables 0x8000 0 0) (BitVec.ofNat 64 0x5000 + offset).toNat image

theorem orders_quiet {l : List Char} {command : Command} {words : List (List Char)} (orders : Orders l command words)
    (quiet : command = .load → readsInput words = false) : takesInput l = false := by
  obtain ⟨cmd,cut,named⟩ := orders
  unfold takesInput
  simp only [cut,named]
  by_cases load : command = .load
  · rw [quiet load,Bool.and_false]
  · simp [load]

section
variable {program steps : List Char} (proper : IsWord program) (short : program.length < 4000) (proper' : IsWord steps)
  (short' : steps.length < 4000)
include proper short proper' short'

theorem run_test_orders :
    List.Forall₂ (fun l (order : Command × List (List Char)) => Orders l order.1 order.2) (run_test program steps)
    (testOrders program steps) := by
  have load : Orders (spoken "load".toList ["0x5000".toList,program]) .load ["0x5000".toList,program] := by
    refine orders_spoken (by decide)
      (List.forall_mem_cons.mpr ⟨isWord_of (by decide),List.forall_mem_cons.mpr ⟨isWord_of (by decide),
      List.forall_mem_singleton.mpr proper⟩⟩) ?_
    simp [spoken,SIM_MAX_LINE]
    omega
  have run : Orders (spoken "run".toList [steps]) .run [steps] := by
    refine orders_spoken (by decide)
      (List.forall_mem_cons.mpr ⟨isWord_of (by decide),List.forall_mem_singleton.mpr proper'⟩) ?_
    simp [spoken,SIM_MAX_LINE]
    omega
  rw [show spoken "load".toList ["0x5000".toList,program] = "load 0x5000 ".toList ++ program ++
    ['\n'] by simp [spoken]] at load
  rw [show spoken "run".toList [steps] = "run ".toList ++ steps ++ ['\n'] by simp [spoken]] at run
  exact .cons ⟨"load".toList,by decide,by decide⟩ (.cons ⟨"setptbr".toList,by decide,by decide⟩ (.cons load
    (.cons ⟨"setpc".toList,by decide,by decide⟩ (.cons run (.cons ⟨"test_dump_reg".toList,by decide,by decide⟩ .nil)))))

/-- The script is read line by line. -/
theorem run_test_lines : lines (8192-1) (run_test program steps).flatten = run_test program steps := by
  have single {word : List Char} (proper : IsWord word) : '\n' ∉ word := fun here => (proper.2 _ here).1 (by decide)
  have load : '\n' ∉ "load 0x5000 ".toList ++ program := List.not_mem_append (by decide) (single proper)
  have run : '\n' ∉ "run ".toList ++ steps := List.not_mem_append (by decide) (single proper')
  refine lines_flatten ?_
  simp only [run_test,List.forall_mem_cons,List.not_mem_nil,false_implies,implies_true,and_true]
  refine ⟨⟨"load /x 0x0 ./pt1-3-2-4-7".toList,by decide⟩,⟨"setptbr 0x8000".toList,by decide⟩,⟨_,rfl,load,?_⟩,
    ⟨"setpc 0x1000".toList,by decide⟩,⟨_,rfl,run,?_⟩,⟨"test_dump_reg".toList,by decide⟩⟩
  · simp
    omega
  · simp
    omega

/-- None of the lines loads from the input. -/
theorem run_test_quiet : ∀ l ∈ run_test program steps, takesInput l = false := by
  have orders := run_test_orders proper short proper' short'
  simp only [run_test,testOrders,List.forall₂_cons] at orders
  obtain ⟨order₀,order₁,order₂,order₃,order₄,order₅,-⟩ := orders
  simp only [run_test,List.forall_mem_cons,List.not_mem_nil,false_implies,implies_true,and_true]
  exact ⟨orders_quiet order₀ fun _ => by decide,orders_quiet order₁ Command.noConfusion,
    orders_quiet order₂ fun _ => rfl,orders_quiet order₃ Command.noConfusion,
    orders_quiet order₄ Command.noConfusion,orders_quiet order₅ Command.noConfusion⟩

end

/-! ### The lines -/

/-- The simulator before its first cycle, all registers zero, with nothing on descriptor 3. -/
structure Ready (files : String → Option (List Char)) (read_latency write_latency : U64) (mem : U64 → Byte)
    (ptbr pc : U64) (s : Session) :
    Prop where
  pipeline : ∃ buffers, s.pipeline = (launched mem ptbr read_latency write_latency pc (fun _ => 0) buffers).1
  log : s.log = []
  files : s.files = files
  silent : s.written .fd3 = []

theorem ready_initial (outside : U64 → Byte) (read_latency write_latency : U64) (buffers : LoopLocals)
    (files : String → Option (List Char)) (writable : String → Bool) (stdin : List Char) :
    Ready files read_latency write_latency (zeroedMemory outside) 0 0
      (.initial outside read_latency write_latency buffers files writable stdin) := ⟨⟨buffers,rfl⟩,rfl,rfl,rfl⟩

section
variable {files : String → Option (List Char)} {read_latency write_latency ptbr pc : U64}
  {mem : U64 → Byte} {u : Unknowns} {l : List Char} {rest : List (List Char)}

/-- A line that obeys its command. -/
theorem orders_achieves {P Q : Session → Prop} {command : Command} {words : List (List Char)}
    (orders : Orders l command words) (stays : command ≠ .exit)
    (obeyed : ∀ s, P s → ∃ t, command.execute u words s = .ok t ∧ Q t) : Achieves obey P [(u,l)] Q := by
  refine achieves_one fun s before => ?_
  obtain ⟨t,done,after⟩ := obeyed s before
  refine ⟨t,?_,after⟩
  have goes : (command != .exit) = true := by simpa using stays
  show execute_line u l s = _
  rw [orders_executes orders,done]
  show Except.ok (command != .exit,t) = _
  rw [goes]

/-- What is said on `stderr` is not on descriptor 3. -/
theorem warn_silent (s : Session) (bad : Bool) (text : List Char) :
    (s.warn bad text).written .fd3 = s.written .fd3 := by
  cases bad with
  | false => rfl
  | true => exact Session.written_elsewhere rfl (List.forall_mem_singleton.mpr (show Channel.stderr ≠ .fd3 by decide))

theorem loaded_silent (s : Session) (l : Loaded) : (s.loaded false l).written .fd3 = s.written .fd3 := by
  refine Session.written_elsewhere rfl fun said here => ?_
  obtain ⟨message,-,rfl⟩ := List.mem_map.mp here
  exact Channel.noConfusion

/-- A file is loaded without a complaint. -/
theorem load_achieves {A F : List Char} {a : Nat} {is_hex : Bool} {mem' : U64 → Byte} {said : List String}
    (orders : Orders l .load (hexWords is_hex (A :: F :: rest))) (spells : Spells A a) (inside : a ≤ memory_size.toNat)
    (loads : ∀ stdin, load_data_from_file files stdin u.offset (some (String.ofList F)) is_hex (BitVec.ofNat 64 a)
      (.initial mem ptbr read_latency write_latency) = ⟨true,said,.initial mem' ptbr read_latency write_latency⟩) :
    Achieves obey (Ready files read_latency write_latency mem ptbr pc) [(u,l)]
    (Ready files read_latency write_latency mem' ptbr pc) := by
  refine orders_achieves orders (by decide) ?_
  rintro s ⟨⟨buffers,pipeline⟩,log,same,silent⟩
  have loaded : load_data_from_file s.files (s.stdin.getD []) u.offset (some (String.ofList F)) is_hex
    (BitVec.ofNat 64 a) s.framework =
      ⟨true,said,.initial mem' ptbr read_latency write_latency⟩ := by
    rw [same,Session.framework,pipeline]
    exact loads _
  refine ⟨_,load_spelled spells inside is_hex rest u s loaded rfl,⟨buffers,?_⟩,log,same,
    (loaded_silent s _).trans silent⟩
  show s.pipeline.withFramework _ = _
  rw [pipeline]
  rfl

theorem hex_loaded {fopen : String → Option (List Char)} {filename : String} {file : List Char}
    (opens : fopen filename = some file) {addr : U64} {s s' : Framework}
    (accepted : load_lines (some filename) addr 0 (lines (4096-1) file) s = (none,s')) (stdin : List Char)
    (offset : U64) :
    load_data_from_file fopen stdin offset (some filename) true addr s =
      ⟨true,[loadingText filename addr true],s'⟩ := by
  simp only [load_data_from_file,opened,opens,if_true,accepted]
  rfl

theorem setptbr_achieves {V : List Char} {v : Nat} (orders : Orders l .setptbr (V :: rest)) (spells : Spells V v)
    (small : v < 2^64) (aligned : BitVec.ofNat 64 v % MEMORY_PAGE_SIZE = 0) :
    Achieves obey (Ready files read_latency write_latency mem ptbr pc) [(u,l)]
      (Ready files read_latency write_latency mem (BitVec.ofNat 64 v) pc) := by
  refine orders_achieves orders (by decide) ?_
  rintro s ⟨⟨buffers,pipeline⟩,log,same,silent⟩
  have paged : ¬ BitVec.ofNat 64 v % MEMORY_PAGE_SIZE ≠ 0 := not_not_intro aligned
  simp only [Command.execute,execute_setptbr,strtoul₀_value spells small,if_neg paged]
  refine ⟨_,rfl,⟨buffers,?_⟩,(Session.warn_log ..).trans log,(warn_files ..).trans same,(warn_silent ..).trans silent⟩
  show (Session.warn _ _ _).pipeline.withFramework { (Session.warn _ _ _).pipeline.mem.framework with ptbr := _ } = _
  rw [Session.warn_pipeline,pipeline]
  rfl

theorem setpc_achieves {V : List Char} {v : Nat} (orders : Orders l .setpc (V :: rest)) (spells : Spells V v)
    (small : v < 2^64) (aligned : BitVec.ofNat 64 v % 4 = 0) :
    Achieves obey (Ready files read_latency write_latency mem ptbr pc) [(u,l)]
      (Ready files read_latency write_latency mem ptbr (BitVec.ofNat 64 v)) := by
  refine orders_achieves orders (by decide) ?_
  rintro s ⟨⟨buffers,pipeline⟩,log,same,silent⟩
  have whole : ¬ BitVec.ofNat 64 v % 4 ≠ 0 := not_not_intro aligned
  simp only [Command.execute,execute_setpc,strtoul₀_value spells small,if_neg whole]
  refine ⟨_,rfl,⟨buffers,?_⟩,(Session.warn_log ..).trans log,(warn_files ..).trans same,(warn_silent ..).trans silent⟩
  simp only [Session.warn_pipeline,pipeline]
  rfl

/-- A run starts from the buffers of its own call. -/
theorem run_achieves {N : List Char} {n : Nat} {p : Pipeline (MemoryState Framework)} {log : List Events}
    (orders : Orders l .run (N :: rest)) (spells : Spells N n) (few : 1 ≤ n ∧ n ≤ 100000000)
    (ran : run (cycle simulator) (launched mem ptbr read_latency write_latency pc (fun _ => 0) u.buffers)
      ((List.range n).map u.locals) =
      .ok (p,log)) :
    Achieves obey (Ready files read_latency write_latency mem ptbr pc) [(u,l)] (fun s => s.pipeline = p ∧
      s.written .fd3 = []) := by
  refine orders_achieves orders (by decide) ?_
  rintro s ⟨⟨buffers,pipeline⟩,started,-,silent⟩
  rw [Command.execute,run_spelled spells few,pipeline,started]
  have ran : run (cycle simulator)
      (((launched mem ptbr read_latency write_latency pc (fun _ => 0) buffers).1).entered u.buffers,[])
      ((List.range n).map u.locals) = .ok (p,log) := ran
  rw [ran]
  refine ⟨_,rfl,rfl,(Session.written_elsewhere rfl fun said here => ?_).trans silent⟩
  rw [printedBy_stdout here]
  decide

theorem test_dump_reg_achieves {p : Pipeline (MemoryState Framework)} {words : List (List Char)}
    (orders : Orders l .test_dump_reg words) :
    Achieves obey (fun s => s.pipeline = p ∧ s.written .fd3 = []) [(u,l)] (fun s => s.written .fd3 =
      registerText p.register_file) := by
  refine orders_achieves orders (by decide) ?_
  rintro s ⟨rfl,silent⟩
  refine ⟨_,rfl,?_⟩
  rw [dump_reg_written,silent]
  rfl

/-- The script, with what each of its lines finds. -/
theorem run_test_achieves (unknowns : Nat → Unknowns) {program steps table image : List Char} {n : Nat}
    {tables : U64 → Byte} {p : Pipeline (MemoryState Framework)} {log : List Events} (proper : IsWord program)
    (short : program.length < 4000) (spells : Spells steps n) (brief : steps.length < 4000)
    (few : 1 ≤ n ∧ n ≤ 100000000) (opens : files "./pt1-3-2-4-7" = some table)
    (accepted : load_lines (some "./pt1-3-2-4-7") 0 0 (lines (4096-1) table)
      (.initial mem 0 read_latency write_latency) = (none,.initial tables 0 read_latency write_latency))
    (opens' : files (String.ofList program) = some image)
    (fits : (BitVec.ofNat 64 0x5000 + (unknowns 2).offset).toNat + image.length < 2^64)
    (ran : run (cycle simulator)
      (launched (testMemory tables (unknowns 2).offset image) 0x8000 read_latency write_latency 0x1000 (fun _ => 0)
      (unknowns 4).buffers) ((List.range n).map (unknowns 4).locals) = .ok (p,log)) :
    Achieves obey (Ready files read_latency write_latency mem 0 0) ((run_test program steps).mapIdx fun i l =>
      (unknowns i,l))
      (fun s => s.written .fd3 = registerText p.register_file) := by
  have zero : Spells "0x0".toList 0 := .hexadecimal 'x' ['0'] (.inl rfl) (all_digits (by decide))
  have root : Spells "0x8000".toList 0x8000 := .hexadecimal 'x' "8000".toList (.inl rfl) (all_digits (by decide))
  have base : Spells "0x5000".toList 0x5000 := .hexadecimal 'x' "5000".toList (.inl rfl) (all_digits (by decide))
  have entry : Spells "0x1000".toList 0x1000 := .hexadecimal 'x' "1000".toList (.inl rfl) (all_digits (by decide))
  have orders := run_test_orders proper short (spells_isWord spells) brief
  simp only [run_test,testOrders,List.forall₂_cons] at orders
  obtain ⟨order₀,order₁,order₂,order₃,order₄,order₅,-⟩ := orders
  have order₀ : Orders _ .load (hexWords true ["0x0".toList,"./pt1-3-2-4-7".toList]) := order₀
  have order₂ : Orders _ .load (hexWords false ["0x5000".toList,program]) := order₂
  show Achieves obey _ ([(unknowns 0,_)] ++
    ([(unknowns 1,_)] ++ ([(unknowns 2,_)] ++ ([(unknowns 3,_)] ++ ([(unknowns 4,_)] ++
    [(unknowns 5,_)]))))) _
  refine (load_achieves order₀ zero (by decide) fun stdin => hex_loaded opens accepted stdin _).append ?_
  refine (setptbr_achieves order₁ root (by decide) (by decide)).append ?_
  refine (load_achieves order₂ base (by decide) fun stdin => binary_loaded opens' fits stdin _).append ?_
  refine (setpc_achieves order₃ entry (by decide) (by decide)).append ?_
  exact (run_achieves order₄ spells few ran).append (test_dump_reg_achieves order₅)

end

/-! ### The result -/

/-- The sequential machine at the first instruction of a test. -/
def testMachine (f : PageMap) (mem : U64 → Byte) : Machine := Machine.start 0x1000 (fun _ => 0) (f.view mem)

/-- The simulator before the first cycle of a test. -/
def testStart (settings : Settings) (mem : U64 → Byte) (buffers : LoopLocals) :
    Pipeline (MemoryState Framework) × List Events :=
  launched mem 0x8000 settings.memory_read_latency settings.memory_write_latency 0x1000 (fun _ => 0) buffers

/-- A script that is typed in ends the program as a session of its lines. -/
theorem main_typed {outside : U64 → Byte} {buffers : LoopLocals} {unknowns : Nat → Unknowns}
    {files : String → Option (List Char)} {writable : String → Bool} {stdin prog_name : List Char} {flags : List Flag}
    {settings : Settings} {script : List (List Char)} {s : Session}
    (taken : run (take_flag files prog_name) ⟨none,0,0,false⟩ flags = .ok settings) (typed : settings.cmd_fp = none)
    (untested : settings.run_unit_tests = false) (cut : lines (8192-1) stdin = script)
    (quiet : ∀ l ∈ script, takesInput l = false)
    (obeyed : session obey (script.mapIdx fun i l => (unknowns i,l))
      (.initial outside settings.memory_read_latency settings.memory_write_latency buffers files writable stdin) =
        .ok (true,s)) :
    ∃ e, main outside buffers unknowns files writable stdin prog_name flags = .ok e ∧ e.code = 0 ∧
    textOn .fd3 e.output = s.written .fd3 := by
  subst cut
  have alike : Alike (.initial outside settings.memory_read_latency settings.memory_write_latency buffers files
    writable stdin)
    (.initial outside settings.memory_read_latency settings.memory_write_latency buffers files writable stdin) :=
    ⟨rfl,rfl,rfl,rfl,prompted_refl _⟩
  have both := interactive_both unknowns (i := 0) alike rfl (Nat.lt_succ_self stdin.length) quiet
  simp only [Nat.zero_add] at both
  rw [obeyed] at both
  generalize looped : interactive_loop _ _ _ _ = r at both
  cases both with
  | @ok _ t alike =>
    refine ⟨⟨0,t.output,some t⟩,?_,rfl,(alike.written (by decide)).symm⟩
    unfold main
    simp only [taken,typed,untested,looped]
    rfl

/-- A test shows what its program does. If the tables and the program are loaded, and the run meets none of the
    defects and comes to the end of the program, what `run_test.sh` finds on descriptor 3 is the dump of the
    registers with which the sequential machine ends. -/
theorem test_shows_program (outside : U64 → Byte) (buffers : LoopLocals) (unknowns : Nat → Unknowns)
    (files : String → Option (List Char)) (writable : String → Bool) (prog_name program steps table image : List Char)
    (flags : List Flag) (settings : Settings) (tables : U64 → Byte) (f : PageMap) (pt : PageTables) (fixed : U64 → Bool)
    (n : Nat) (p : Pipeline (MemoryState Framework)) (log : List Events)
    (taken : run (take_flag files prog_name) ⟨none,0,0,false⟩ flags = .ok settings)
    (typed : settings.cmd_fp = none) (untested : settings.run_unit_tests = false)
    (proper : IsWord program) (short : program.length < 4000)
    (spells : Spells steps n) (brief : steps.length < 4000) (few : 1 ≤ n ∧ n ≤ 100000000)
    (opens : files "./pt1-3-2-4-7" = some table)
    (accepted : load_lines (some "./pt1-3-2-4-7") 0 0 (lines (4096-1) table)
        (.initial (zeroedMemory outside) 0 settings.memory_read_latency settings.memory_write_latency) =
      (none,.initial tables 0 settings.memory_read_latency settings.memory_write_latency))
    (opens' : files (String.ofList program) = some image)
    (fits : (BitVec.ofNat 64 0x5000 + (unknowns 2).offset).toNat + image.length < 2^64)
    (contents : pt.mem = testMemory tables (unknowns 2).offset image) (root : pt.ptbr = 0x8000)
    (size : pt.size = 8 * 1024 * 1024) (kept : ∀ o, pt.Bytes o → fixed o = true) (reads : f.Reads pt)
    (undisturbed : (testMachine f pt.mem).UndisturbedFor n)
    (calm : Guarded (cycle simulator) (fun c _ => Calm f fixed (testMachine f pt.mem) c.1)
      (testStart settings pt.mem (unknowns 4).buffers) ((List.range n).map (unknowns 4).locals))
    (ran : run (cycle simulator) (testStart settings pt.mem (unknowns 4).buffers)
      ((List.range n).map (unknowns 4).locals) = .ok (p,log))
    (drained : Drained (testMachine f pt.mem) n p) :
    ∃ e k m, main outside buffers unknowns files writable (run_test program steps).flatten prog_name flags =
      .ok e ∧ e.code = 0 ∧ k ≤ n ∧ (testMachine f pt.mem).after k = .ok m ∧ (testMachine f pt.mem).PastEnd n m.pc ∧
      textOn .fd3 e.output = registerText m.registers.value := by
  have proper' := spells_isWord spells
  have cut := run_test_lines proper short proper' brief
  obtain ⟨s,obeyed,shown⟩ := run_test_achieves unknowns proper short spells brief few opens accepted opens' fits
    (contents ▸ ran) _
    (ready_initial outside _ _ buffers files writable (run_test program steps).flatten)
  obtain ⟨e,done,code,written⟩ := main_typed taken typed untested cut (run_test_quiet proper short proper' brief) obeyed
  have small : ((List.range n).map (unknowns 4).locals).length = n := by rw [List.length_map,List.length_range]
  have start := follows_launched f pt fixed size settings.memory_read_latency settings.memory_write_latency
    0x1000 (fun _ => 0)
    (unknowns 4).buffers
  rw [root] at start
  have follows := run_follows kept reads rfl (small.symm ▸ undisturbed) start calm ran
  obtain ⟨k,m,less,reached,past,registers,-⟩ := drained_state undisturbed (Nat.le_of_eq small) follows drained
  refine ⟨e,k,m,done,code,less,reached,past,
    written.trans (shown.trans ((registerText_eq_iff _ _).mpr fun r nonzero => ?_))⟩
  rw [registers]
  exact (if_neg nonzero).symm

/-! ### A test of the repository -/

/-- The lines of `pt1-3-2-4-7` that are not zero. -/
def tableText : List Char :=
  "00070000 04 00 00 80 05 00 00 80 06 00 00 80 00 00 00 00\n".toList ++
    "00100000 07 00 00 80 00 00 00 00 00 00 00 00 00 00 00 00\n".toList

/-- Memory with a row of bytes over it. -/
def withRow (base : U64) (bytes : List Byte) (mem : U64 → Byte) (o : U64) : Byte :=
  if (o - base).toNat < bytes.length then bytes.getD (o - base).toNat 0 else mem o

def testTables : U64 → Byte :=
  withRow 0x8000 [7,0,0,0x80,0,0,0,0,0,0,0,0,0,0,0,0]
    (withRow 0x7000 [4,0,0,0x80,5,0,0,0x80,6,0,0,0x80,0,0,0,0] (zeroedMemory fun _ => 0))

set_option maxRecDepth 10000 in
theorem tableText_loads : load_lines (some "./pt1-3-2-4-7") 0 0 (lines (4096-1) tableText)
    (.initial (zeroedMemory fun _ => 0) 0 0 0) = (none,.initial testTables 0 0 0) := by
  rfl

/-- The pages 0, 1 and 2 in the frames 4, 5 and 6. -/
def PageMap.across : PageMap := ⟨(· ^^^ 4),fun _ _ same => by simpa using same⟩

/-- `loads_branches_stalling_forwarding.asm.bin`: a loop that stores, loads and branches back three times. -/
def loopImage : List Char :=
  [0x93,0x62,0x10,0x00,0x13,0x63,0x50,0x00,0x23,0x20,0x51,0x00,0x93,0x82,0x12,0x00,
    0x93,0x83,0x12,0x00,0x03,0x2e,0x01,0x00,0xb3,0x8e,0xc3,0x01,0xe3,0x96,0x62,0xfe].map Char.ofNat

def loopMemory : U64 → Byte := testMemory testTables 0 loopImage

def loopName : List Char := "asm_tests/loads_branches_stalling_forwarding.asm.bin".toList

def loopFiles (name : String) : Option (List Char) :=
  if name = "./pt1-3-2-4-7" then some tableText else if name = String.ofList loopName then some loopImage else none

/-- The file `loads_branches_stalling_forwarding.asm.bin.reg`. -/
def loopText : List Char :=
  "t0: 0x0000000000000005\nt1: 0x0000000000000005\nt2: 0x0000000000000006\n".toList ++
    "t3: 0x0000000000000004\nt4: 0x000000000000000A\n".toList

theorem loop_undisturbed : (testMachine .across loopMemory).UndisturbedFor 60 := by
  have result : okAnd ((testMachine .across loopMemory).after 60) (fun t => t.stores ==
      [(0,4,1),(0,4,2),(0,4,3),(0,4,4)]) = true := by
    decide +kernel
  obtain ⟨t,last,stored⟩ := okAnd_iff.mp result
  have stored : t.stores = [(0,4,1),(0,4,2),(0,4,3),(0,4,4)] := by simpa using stored
  refine undisturbedFor_of last ?_
  rw [stored]
  decide +kernel

/-! The tables map the pages 0, 1 and 2, through the table at 0x7000. -/

theorem loopMemory_root : ∀ k < 1024, wordAt loopMemory (0x8000 + BitVec.ofNat 64 k * 4) = if k = 0 then 0x80000007
    else 0 := by
  decide +kernel

theorem loopMemory_table : ∀ j < 1024, wordAt loopMemory (0x7000 + BitVec.ofNat 64 j * 4) =
    if j < 3 then 0x80000004 + BitVec.ofNat 32 j else 0 := by
  decide +kernel

theorem firstEntry_loop (va : U32) :
    firstEntry loopMemory 0x8000 va = if va.toNat / 2^22 = 0 then 0x80000007 else 0 := by
  have bound := va.isLt
  have number : ((va >>> 22).setWidth 64 : U64) = BitVec.ofNat 64 (va.toNat / 2^22) := by
    apply BitVec.eq_of_toNat_eq
    rw [BitVec.toNat_setWidth,BitVec.toNat_ushiftRight,Nat.shiftRight_eq_div_pow,BitVec.toNat_ofNat]
  rw [firstEntry,number]
  exact loopMemory_root _ (by omega)

theorem secondEntry_loop {va : U32} (inside : va.toNat / 2^22 = 0) : secondEntry loopMemory 0x80000007 va =
    if va.toNat / 4096 < 3 then 0x80000004 + BitVec.ofNat 32 (va.toNat / 4096) else 0 := by
  have number : ((va >>> 12 &&& (0x3FF : U32)).setWidth 64 : U64) = BitVec.ofNat 64 (va.toNat / 4096) := by
    apply BitVec.eq_of_toNat_eq
    rw [BitVec.toNat_setWidth,BitVec.toNat_and,BitVec.toNat_ushiftRight,Nat.shiftRight_eq_div_pow,
      show (0x3FF : U32).toNat = 2^10-1 from rfl,Nat.and_two_pow_sub_one_eq_mod,BitVec.toNat_ofNat]
    omega
  rw [secondEntry,number]
  exact loopMemory_table _ (by omega)

/-- The pages 0, 1 and 2 in the frames 4, 5 and 6. -/
def loopTables : PageTables where
  mem := loopMemory
  size := 8 * 1024 * 1024
  ptbr := 0x8000
  size_le := Framework.initial_size_le
  aligned := rfl
  root := by decide
  tables va := by
    rw [firstEntry_loop]
    split
    · exact fun _ => by decide
    · exact fun valid => absurd valid (by decide)

theorem page_loopTables (va : U32) :
    loopTables.page va = if va.toNat / 4096 < 3 then some (4 + BitVec.ofNat 32 (va.toNat / 4096)) else none := by
  show pageNumber loopMemory 0x8000 va = _
  rw [pageNumber,firstEntry_loop]
  by_cases inside : va.toNat / 2^22 = 0
  · rw [if_pos inside,if_pos (by decide),secondEntry_loop inside]
    by_cases mapped : va.toNat / 4096 < 3
    · rw [if_pos mapped,if_pos mapped]
      generalize va.toNat / 4096 = j at mapped
      interval_cases j <;> decide
    · rw [if_neg mapped,if_neg mapped,if_neg (by decide)]
  · rw [if_neg inside,if_neg (by decide),if_neg (by omega)]

/-- The frames 4 to 7 are those of the pages 0 to 3. -/
theorem across_physical {va : U32} (small : va.toNat / 4096 < 4) :
    (PageMap.across.physical va).toNat = 16384 + va.toNat := by
  have frame : (PageMap.across.frame (PageMap.page va)).toNat = va.toNat / 4096 + 4 := by
    show (PageMap.page va ^^^ 4).toNat = _
    rw [BitVec.toNat_xor,PageMap.page_toNat]
    generalize va.toNat / 4096 = j at small
    interval_cases j <;> decide
  rw [PageMap.physical_toNat,frame]
  omega

theorem across_reads : PageMap.across.Reads loopTables where
  page va n found := by
    rw [page_loopTables] at found
    split at found
    · cases found
      apply BitVec.eq_of_toNat_eq
      rw [across_physical (by omega),PageTables.mapped_toNat,BitVec.toNat_add,BitVec.toNat_ofNat,
        show (4 : U32).toNat = 4 from rfl]
      omega
    · cases found
  group va va' n together found := by
    rw [page_loopTables] at found
    split at found
    · rw [across_physical (by omega),across_physical (by omega)]
      omega
    · cases found

/-- The program and the page tables. -/
def abovePage4 (a : U64) : Bool := decide (0x5000 ≤ a) && decide (a < 0x9000)

theorem loopTables_bytes (o : U64) (inside : loopTables.Bytes o) : abovePage4 o = true := by
  have range (low : 0x7000 ≤ o.toNat) (high : o.toNat < 0x9000) : abovePage4 o = true := by
    have least : (0x5000 : U64) ≤ o := Nat.le_trans (show (0x5000 : U64).toNat ≤ 0x7000 by decide) low
    have most : o < (0x9000 : U64) := high
    rw [abovePage4,decide_eq_true least,decide_eq_true most]
    rfl
  rcases inside with root | ⟨va,valid,table⟩
  · have root : (o - 0x8000).toNat < 4096 := root
    exact range (by bv_omega) (by bv_omega)
  · have first : loopTables.first va = _ := firstEntry_loop va
    rw [first] at valid table
    split at valid
    · rename_i zero
      rw [if_pos zero,show tableOf 0x80000007 = 0x7000 from rfl] at table
      exact range (by bv_omega) (by bv_omega)
    · exact absurd valid (by decide)

theorem test_shows_program_loop : ∃ e, main (fun _ => 0) noUnknowns.buffers (fun _ => noUnknowns) loopFiles
    (fun _ => true) (run_test loopName "60".toList).flatten "riscvsim".toList [] = .ok e ∧ e.code = 0 ∧
    textOn .fd3 e.output = loopText := by
  have calm : Guarded (cycle simulator) (fun c _ => Calm .across abovePage4 (testMachine .across loopMemory) c.1)
      (testStart ⟨none,0,0,false⟩ loopMemory noUnknowns.buffers) ((List.range 60).map noUnknowns.locals) := by
    decide +kernel
  have result : okAnd (run (cycle simulator) (testStart ⟨none,0,0,false⟩ loopMemory noUnknowns.buffers)
    ((List.range 60).map noUnknowns.locals))
      (fun c => decide (Drained (testMachine .across loopMemory) 60 c.1)) = true := by
    decide +kernel
  obtain ⟨⟨p,log⟩,ran,shown⟩ := okAnd_iff.mp result
  have drained := of_decide_eq_true shown
  have sixty : Spells "60".toList 60 := .decimal '6' ['0'] (by decide) (all_digits (by decide))
  obtain ⟨e,k,m,done,code,less,reached,past,written⟩ := test_shows_program (fun _ => 0) noUnknowns.buffers
    (fun _ => noUnknowns) loopFiles
    (fun _ => true) "riscvsim".toList loopName "60".toList tableText loopImage
    [] ⟨none,0,0,false⟩ testTables .across loopTables abovePage4 60 p log
    rfl rfl rfl (isWord_of (by decide)) (by decide) sixty (by decide) (by decide) rfl tableText_loads rfl
      (by decide) rfl rfl rfl loopTables_bytes
    across_reads loop_undisturbed calm ran drained
  refine ⟨e,done,code,?_⟩
  -- the machine itself is at its end after 26 instructions
  have ends : okAnd ((testMachine .across loopMemory).after 26) (fun t => decide
      ((testMachine .across loopMemory).PastEnd 60 t.pc ∧ registerText t.registers.value = loopText)) = true := by
    decide +kernel
  obtain ⟨t,reached',shown'⟩ := okAnd_iff.mp ends
  obtain ⟨past',text⟩ := of_decide_eq_true shown'
  rw [written,(ended_eq loop_undisturbed ⟨less,by decide⟩ reached reached' ⟨past,past'⟩).1,text]

end RiscvSim
