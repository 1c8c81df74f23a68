import RiscvSim.Shell
import RiscvSim.Statistics
import RiscvSim.Footprint

/-!
Whole sessions with the shell. A line does to the simulator one of a few things (`Moves`), and whatever the
commands are, the simulator keeps what a run of cycles keeps: its memory has its size and the latencies of the options,
the counters account for the cycles since the last `initialize`, and no run leaves memory.
-/
namespace RiscvSim
open Bytes Runs CText Scripts

/-! ### What a load changes -/

/-- The same variables but for the bytes of memory. -/
def Framework.Rewritten (fw fw' : Framework) : Prop := ∃ riscv_mem, fw' = { fw with riscv_mem := riscv_mem }

theorem Framework.Rewritten.trans {fw fw' fw'' : Framework} (first : fw.Rewritten fw') (second : fw'.Rewritten fw'') :
    fw.Rewritten fw'' := by
  obtain ⟨_,rfl⟩ := first
  obtain ⟨riscv_mem,rfl⟩ := second
  exact ⟨riscv_mem,rfl⟩

theorem rewritten_memory_load (s : Framework) (region : Buffer) (base size : U64) :
    s.Rewritten (s.memory_load region base size).2 := by
  unfold Framework.memory_load
  split
  · exact ⟨s.riscv_mem,rfl⟩
  · exact ⟨_,rfl⟩

theorem rewritten_load_line {filename : Option String} {addr : U64} {lineno : Nat} {buf : List Char} {s s' : Framework}
    (loaded : load_line filename addr lineno buf s = .ok s') : s.Rewritten s' := by
  unfold load_line at loaded
  split at loaded
  · cases loaded
    exact ⟨s.riscv_mem,rfl⟩
  · split_ifs at loaded
    dsimp only at loaded
    split at loaded
    · cases loaded
    · split_ifs at loaded
      · cases loaded
        exact rewritten_memory_load s _ _ _
      · cases loaded
        exact ⟨s.riscv_mem,rfl⟩

theorem rewritten_load_lines (filename : Option String) (addr : U64) (lineno : Nat) (bufs : List (List Char))
    (s : Framework) :
    s.Rewritten (load_lines filename addr lineno bufs s).2 := by
  induction bufs generalizing lineno s with
  | nil => exact ⟨s.riscv_mem,rfl⟩
  | cons buf rest ih =>
    rw [load_lines]
    cases loaded : load_line filename addr (lineno+1) buf s with
    | error message => exact ⟨s.riscv_mem,rfl⟩
    | ok s' => exact (rewritten_load_line loaded).trans (ih (lineno+1) s')

theorem rewritten_load_blocks (addr : U64) (calls : Nat) (total : U64) (file : List Char) (s : Framework) :
    s.Rewritten (load_blocks addr calls total file s) := by
  induction calls generalizing total file s with
  | zero => exact ⟨s.riscv_mem,rfl⟩
  | succ calls ih =>
    rw [load_blocks]
    split
    · exact (rewritten_memory_load s _ _ _).trans (ih _ _ _)
    · exact ⟨s.riscv_mem,rfl⟩

theorem rewritten_load (fopen : String → Option (List Char)) (stdin : List Char) (offset : U64)
    (filename : Option String) (is_hex : Bool) (addr : U64) (s : Framework) :
    s.Rewritten (load_data_from_file fopen stdin offset filename is_hex addr s).framework := by
  unfold load_data_from_file
  split
  · exact ⟨s.riscv_mem,rfl⟩
  · rename_i file _
    have lines := rewritten_load_lines filename addr 0 (lines (4096 - 1) file) s
    dsimp only
    split_ifs
    · cases loaded : load_lines filename addr 0 (CText.lines (4096 - 1) file) s with
      | mk message s' =>
        rw [loaded] at lines
        cases message <;> exact lines
    · exact ⟨s.riscv_mem,rfl⟩
    · exact rewritten_load_blocks addr file.length offset file s

/-- A line of a hex file has the byte for this place. -/
def LineGives (addr : U64) (buf : List Char) (o : U64) (byte : Byte) : Prop :=
  ∃ tok toks membuf, tokens sep (cstring buf) = tok :: toks ∧ verify_base tok 8 = true ∧
  toks.mapM load_byte = some membuf ∧
    ∃ k : Nat, membuf[k]? = some byte ∧ o = addr + BitVec.ofInt 64 (strtol tok 8) + BitVec.ofNat 64 k

/-- A file has the byte for this place: in one of its lines, or at the distance from where a binary one starts. -/
def FileGives (is_hex : Bool) (addr offset : U64) (file : List Char) (o : U64) (byte : Byte) : Prop :=
  if is_hex then ∃ buf ∈ lines (4096 - 1) file, LineGives addr buf o byte
  else ∃ (k : Nat) (c : Char), file[k]? = some c ∧ byte = BitVec.ofNat 8 c.toNat ∧ o = addr + offset + BitVec.ofNat 64 k

theorem memory_load_gives (s : Framework) (region : Buffer) (base size o : U64) :
    (s.memory_load region base size).2.riscv_mem o = s.riscv_mem o ∨
      ∃ k < size.toNat, o = base + BitVec.ofNat 64 k ∧ (s.memory_load region base size).2.riscv_mem o = region k := by
  unfold Framework.memory_load
  split
  · exact .inl rfl
  · by_cases inside : (o - base).toNat < size.toNat
    · refine .inr ⟨(o - base).toNat,inside,?_,if_pos inside⟩
      rw [BitVec.ofNat_toNat,BitVec.setWidth_eq,BitVec.add_comm,BitVec.sub_add_cancel]
    · exact .inl (if_neg inside)

theorem load_line_gives {filename : Option String} {addr : U64} {lineno : Nat} {buf : List Char} {s s' : Framework}
    (loaded : load_line filename addr lineno buf s = .ok s') (o : U64) :
    s'.riscv_mem o = s.riscv_mem o ∨ LineGives addr buf o (s'.riscv_mem o) := by
  unfold load_line at loaded
  split at loaded
  · cases loaded
    exact .inl rfl
  · rename_i tok toks cut
    split_ifs at loaded with octal
    dsimp only at loaded
    split at loaded
    · cases loaded
    · rename_i membuf bytes
      split_ifs at loaded with some
      · cases loaded
        rcases memory_load_gives s (fun i => membuf.getD i 0) (addr + BitVec.ofInt 64 (strtol tok 8))
          (BitVec.ofNat 64 membuf.length) o
          with kept | ⟨k,few,here,byte⟩
        · exact .inl kept
        · have inside : k < membuf.length := by
            rw [BitVec.toNat_ofNat] at few
            exact few.trans_le (Nat.mod_le _ _)
          refine .inr ⟨tok,toks,membuf,cut,Bool.eq_true_of_not_eq_false octal,bytes,k,?_,here⟩
          rw [byte,List.getD_eq_getElem?_getD,List.getElem?_eq_getElem inside,Option.getD_some]
      · cases loaded
        exact .inl rfl

theorem load_lines_gives (filename : Option String) (addr : U64) (lineno : Nat) (bufs : List (List Char))
    (s : Framework) (o : U64) :
    (load_lines filename addr lineno bufs s).2.riscv_mem o = s.riscv_mem o ∨
      ∃ buf ∈ bufs, LineGives addr buf o ((load_lines filename addr lineno bufs s).2.riscv_mem o) := by
  induction bufs generalizing lineno s with
  | nil => exact .inl rfl
  | cons buf rest ih =>
    rw [load_lines]
    cases loaded : load_line filename addr (lineno+1) buf s with
    | error message => exact .inl rfl
    | ok s' =>
      rcases ih (lineno+1) s' with kept | ⟨later,among,gives⟩
      · rcases load_line_gives loaded o with same | gives
        · exact .inl (kept.trans same)
        · exact .inr ⟨buf,List.mem_cons_self,by rw [kept]; exact gives⟩
      · exact .inr ⟨later,List.mem_cons_of_mem _ among,gives⟩

theorem load_blocks_gives (addr : U64) (calls : Nat) (total : U64) (file : List Char) (s : Framework) (o : U64) :
    (load_blocks addr calls total file s).riscv_mem o = s.riscv_mem o ∨
      ∃ (k : Nat) (c : Char), file[k]? = some c ∧ (load_blocks addr calls total file s).riscv_mem o =
        BitVec.ofNat 8 c.toNat ∧ o = addr + total + BitVec.ofNat 64 k := by
  induction calls generalizing total file s with
  | zero => exact .inl rfl
  | succ calls ih =>
    rw [load_blocks]
    split
    · -- a byte of a later block, or of this one
      rcases ih (total + BitVec.ofNat 64 (file.take 4096).length) (file.drop 4096) _ with kept | ⟨k,c,stands,byte,here⟩
      · rcases memory_load_gives s (fun i => BitVec.ofNat 8 ((file.take 4096).getD i '\x00').toNat) (addr + total)
          (BitVec.ofNat 64 (file.take 4096).length) o with same | ⟨k,few,here,byte⟩
        · exact .inl (kept.trans same)
        · have inside : k < (file.take 4096).length := by
            rw [BitVec.toNat_ofNat] at few
            exact few.trans_le (Nat.mod_le _ _)
          have below : k < 4096 ∧ k < file.length := by simpa using inside
          obtain ⟨c,stands⟩ : ∃ c, file[k]? = some c := ⟨_,List.getElem?_eq_getElem below.2⟩
          refine .inr ⟨k,c,stands,?_,here⟩
          rw [kept,byte,List.getD_eq_getElem?_getD,List.getElem?_take_of_lt below.1,stands,Option.getD_some]
      · rw [List.getElem?_drop] at stands
        have long : 4096 + k < file.length := (List.getElem?_eq_some_iff.mp stands).1
        refine .inr ⟨4096 + k,c,stands,byte,?_⟩
        rw [here,List.length_take,Nat.min_eq_left (by omega),BitVec.ofNat_add,← BitVec.add_assoc,← BitVec.add_assoc]
    · exact .inl rfl

/-- A load changes bytes to those of the file only. -/
theorem load_gives (fopen : String → Option (List Char)) (stdin : List Char) (offset : U64) (filename : Option String)
    (is_hex : Bool) (addr : U64) (s : Framework) (o : U64) :
    (load_data_from_file fopen stdin offset filename is_hex addr s).framework.riscv_mem o = s.riscv_mem o ∨
      ∃ file, opened fopen stdin filename = some file ∧ FileGives is_hex addr offset file o
        ((load_data_from_file fopen stdin offset filename is_hex addr s).framework.riscv_mem o) := by
  unfold load_data_from_file
  split
  · exact .inl rfl
  · rename_i file opens
    have bytes := load_lines_gives filename addr 0 (lines (4096 - 1) file) s o
    dsimp only
    split_ifs with hex none
    · cases loaded : load_lines filename addr 0 (CText.lines (4096 - 1) file) s with
      | mk message s' =>
        rw [loaded] at bytes
        cases message <;> exact bytes.imp_right fun gives => ⟨file,opens,by rw [FileGives,if_pos hex]; exact gives⟩
    · exact .inl rfl
    · exact (load_blocks_gives addr file.length offset file s o).imp_right fun gives =>
        ⟨file,opens,by rw [FileGives,if_neg hex]; exact gives⟩

/-! ### What a line does -/

/-- The line names the command, and has these words behind the name. -/
def Orders (l : List Char) (command : Command) (words : List (List Char)) : Prop :=
  ∃ cmd, tokens cmdsep ((cstring l).take (SIM_MAX_LINE-1)) = cmd :: words ∧ Command.named cmd = some command

/-- A line is blank, names no command or orders one. -/
theorem line_ok {u : Unknowns} {l : List Char} {s s' : Session} {more : Bool}
    (done : execute_line u l s = .ok (more,s')) :
    s' = s ∨ (∃ text, s' = s.say .stderr text) ∨ ∃ command words, Orders l command words ∧
    command.execute u words s = .ok s' := by
  unfold execute_line at done
  split at done
  · cases done
    exact .inl rfl
  · rename_i cmd words cut
    split at done
    · cases done
      exact .inr (.inl ⟨_,rfl⟩)
    · rename_i command named
      cases executed : command.execute u words s with
      | error e =>
        rw [executed] at done
        cases done
      | ok t =>
        rw [executed] at done
        cases done
        exact .inr (.inr ⟨command,words,⟨cmd,cut,named⟩,executed⟩)

/-- Memory behind a `load` with these words: every byte is as it was, or as the file has it. -/
def LoadGives (u : Unknowns) (words : List (List Char)) (s : Session) (riscv_mem : U64 → Byte) : Prop :=
  ∀ o, riscv_mem o = s.framework.riscv_mem o ∨ ∃ is_hex token rest file, check_for_hex words = (is_hex,token :: rest) ∧
    opened s.files (s.stdin.getD []) (rest.head?.map String.ofList) = some file ∧
    FileGives is_hex (BitVec.ofInt 64 (strtol₀ token)) u.offset file o (riscv_mem o)

/-- What a line can do to the simulator and its log. -/
inductive Moves (u : Unknowns) : Pipeline (MemoryState Framework) × List Events → Pipeline (MemoryState Framework) ×
    List Events → Prop where
  | stays (c : Pipeline (MemoryState Framework) × List Events) : Moves u c c
  | loads (p : Pipeline (MemoryState Framework)) (log : List Events) (riscv_mem : U64 → Byte) :
    Moves u (p,log) (p.withFramework { p.mem.framework with riscv_mem := riscv_mem },log)
  | writes (p : Pipeline (MemoryState Framework)) (log : List Events) (reg value : U64) :
    Moves u (p,log) ({ p with register_file := p.register_file.register_write reg value },log)
  | jumps (p : Pipeline (MemoryState Framework)) (log : List Events) (pc : U64) (aligned : pc % 4 = 0) :
    Moves u (p,log) ({ p with program_counter := pc },log)
  | maps (p : Pipeline (MemoryState Framework)) (log : List Events) (ptbr : U64)
    (aligned : ptbr % MEMORY_PAGE_SIZE = 0) :
    Moves u (p,log) (p.withFramework { p.mem.framework with ptbr := ptbr },log)
  | restarts (p : Pipeline (MemoryState Framework)) (log : List Events) : Moves u (p,log) (initialize_state p,[])
  | runs (p : Pipeline (MemoryState Framework)) (log : List Events) (n_steps : U64)
    (c : Pipeline (MemoryState Framework) × List Events)
    (some : ¬ n_steps < 1) (bounded : ¬ n_steps > 100000000)
    (ran : simulator_execute_instructions u n_steps p log = .ok c) :
    Moves u (p,log) c

section
variable {u : Unknowns} {words : List (List Char)} {s s' : Session}

theorem load_moves (done : execute_load u words s = .ok s') : ∃ riscv_mem, LoadGives u words s riscv_mem ∧
    s'.pipeline = s.pipeline.withFramework { s.framework with riscv_mem := riscv_mem } ∧ s'.log = s.log := by
  unfold execute_load at done
  split at done
  · cases done
    exact ⟨s.framework.riscv_mem,fun _ => .inl rfl,rfl,rfl⟩
  · rename_i is_hex token rest hex
    dsimp only at done
    have loads : ∃ riscv_mem, LoadGives u words s riscv_mem ∧
      s.pipeline.withFramework (load_data_from_file s.files (s.stdin.getD [])
        u.offset (rest.head?.map String.ofList) is_hex (BitVec.ofInt 64 (strtol₀ token)) s.framework).framework =
          s.pipeline.withFramework { s.framework with riscv_mem := riscv_mem } ∧ s.log = s.log := by
      obtain ⟨riscv_mem,same⟩ := rewritten_load s.files (s.stdin.getD []) u.offset (rest.head?.map String.ofList) is_hex
        (BitVec.ofInt 64 (strtol₀ token)) s.framework
      refine ⟨riscv_mem,fun o => ?_,congrArg _ same,rfl⟩
      have byte := load_gives s.files (s.stdin.getD []) u.offset (rest.head?.map String.ofList) is_hex
        (BitVec.ofInt 64 (strtol₀ token)) s.framework o
      rw [same] at byte
      exact byte.imp_right fun ⟨file,opens,gives⟩ => ⟨is_hex,token,rest,file,hex,opens,gives⟩
    split_ifs at done <;> cases done
    · exact ⟨s.framework.riscv_mem,fun _ => .inl rfl,rfl,rfl⟩
    · exact ⟨s.framework.riscv_mem,fun _ => .inl rfl,rfl,rfl⟩
    · exact loads
    · exact loads

theorem dump_moves (done : execute_dump u words s = .ok s') : s'.pipeline = s.pipeline ∧ s'.log = s.log := by
  unfold execute_dump at done
  split at done
  · rename_i is_hex token token' rest _
    dsimp only at done
    split_ifs at done
    · cases done
      exact ⟨rfl,rfl⟩
    · split at done
      · cases done
      · have same (filename : Option String) (d : Dumped) :
            (s.dumped filename d).pipeline = s.pipeline ∧ (s.dumped filename d).log = s.log := by
          cases filename <;> exact ⟨rfl,rfl⟩
        split_ifs at done <;> cases done
        · exact same _ _
        · exact same _ _
  · cases done
    exact ⟨rfl,rfl⟩

theorem readreg_moves (done : execute_readreg words s = .ok s') : s'.pipeline = s.pipeline ∧ s'.log = s.log := by
  unfold execute_readreg at done
  split at done
  · cases done
  · dsimp only at done
    split_ifs at done <;> cases done <;> exact ⟨rfl,rfl⟩

theorem writereg_moves (u : Unknowns) (words : List (List Char)) (s : Session) :
    Moves u (s.pipeline,s.log) ((execute_writereg words s).pipeline,(execute_writereg words s).log) := by
  unfold execute_writereg
  split
  · exact .stays _
  · dsimp only
    split_ifs
    · exact .stays _
    · split
      · exact .stays _
      · exact .writes _ _ _ _

theorem run_moves (done : execute_run u words s = .ok s') : Moves u (s.pipeline,s.log) (s'.pipeline,s'.log) := by
  unfold execute_run at done
  split at done
  · cases done
    exact .stays _
  · dsimp only at done
    split_ifs at done with refused
    · cases done
      exact .stays _
    · split at done
      · cases done
      · rename_i p log ran
        cases done
        obtain ⟨some,bounded⟩ := not_or.mp refused
        exact .runs _ _ _ _ some bounded ran

theorem setpc_moves (u : Unknowns) (words : List (List Char)) (s : Session) :
    Moves u (s.pipeline,s.log) ((execute_setpc words s).pipeline,(execute_setpc words s).log) := by
  unfold execute_setpc
  split
  · exact .stays _
  · dsimp only
    split_ifs with aligned
    · simp only [Session.say,Session.warn_pipeline,Session.warn_log]
      exact .stays _
    · simp only [Session.warn_pipeline,Session.warn_log]
      exact .jumps _ _ _ (not_not.mp aligned)

theorem setptbr_moves (u : Unknowns) (words : List (List Char)) (s : Session) :
    Moves u (s.pipeline,s.log) ((execute_setptbr words s).pipeline,(execute_setptbr words s).log) := by
  unfold execute_setptbr
  split
  · exact .stays _
  · dsimp only
    split_ifs with aligned
    · simp only [Session.say,Session.warn_pipeline,Session.warn_log]
      exact .stays _
    · simp only [Session.withFramework,Session.framework,Session.warn_pipeline,Session.warn_log]
      exact .maps _ _ _ (not_not.mp aligned)

theorem execute_moves {command : Command} (done : command.execute u words s = .ok s') :
    Moves u (s.pipeline,s.log) (s'.pipeline,s'.log) := by
  have stays {t : Session} (same : t.pipeline = s.pipeline ∧ t.log = s.log) :
      Moves u (s.pipeline,s.log) (t.pipeline,t.log) := by
    rw [same.1,same.2]
    exact .stays _
  cases command with
  | load =>
    obtain ⟨riscv_mem,-,moved,same⟩ := load_moves done
    rw [moved,same]
    exact .loads _ _ riscv_mem
  | dump => exact stays (dump_moves done)
  | readreg => exact stays (readreg_moves done)
  | run => exact run_moves done
  | writereg =>
    cases done
    exact writereg_moves u words s
  | setpc =>
    cases done
    exact setpc_moves u words s
  | setptbr =>
    cases done
    exact setptbr_moves u words s
  | initialize_state =>
    cases done
    exact .restarts _ _
  | _ =>
    cases done
    exact .stays _

theorem line_moves {line : Line} {more : Bool} (done : obey line s = .ok (more,s')) :
    Moves line.1 (s.pipeline,s.log) (s'.pipeline,s'.log) := by
  rcases line_ok done with rfl | ⟨text,rfl⟩ | ⟨command,words,-,executed⟩
  · exact .stays _
  · exact .stays _
  · exact execute_moves executed

end

/-! ### What a session keeps -/

/-- The variables that the options and `setptbr` set. -/
structure Framework.Configured (read_latency write_latency : U64) (fw : Framework) : Prop where
  size : fw.riscv_mem_size = memory_size
  read_latency : fw.memory_read_latency = read_latency
  write_latency : fw.memory_write_latency = write_latency
  ptbr : fw.ptbr % MEMORY_PAGE_SIZE = 0

section
variable {read_latency write_latency : U64}

theorem Framework.Configured.same {fw fw' : Framework} (configured : fw.Configured read_latency write_latency)
    (same : SameTable fw fw') :
    fw'.Configured read_latency write_latency where
  size := same.size.trans configured.size
  read_latency := same.read_latency.trans configured.read_latency
  write_latency := same.write_latency.trans configured.write_latency
  ptbr := by rw [same.ptbr]; exact configured.ptbr

theorem Framework.Configured.added {fw : Framework} (configured : fw.Configured read_latency write_latency)
    (address size : U64) (op : MemoryOp) :
    (fw.memory_add_pending address size op).2.Configured read_latency write_latency := by
  unfold memory_add_pending
  dsimp only
  split
  · exact configured
  · exact { configured with }

theorem Framework.port_configured : Framework.port.Keeps (Framework.Configured read_latency write_latency) where
  memory_read {fw} configured address narrow value size sizes := by
    show (fw.memory_read address value size).2.2.Configured read_latency write_latency
    rcases fw.memory_read_cases address value size with ⟨value',fw',answered,same⟩ | ⟨value',fw',answered,same,-⟩
    · rw [answered]
      exact configured.same same
    · rw [answered]
      exact (configured.same same).added address size .READ
  memory_write {fw} configured address narrow value := by
    show (fw.memory_write address value 8).2.Configured read_latency write_latency
    rcases fw.memory_write_cases address value 8 with ⟨fw',answered,same⟩ | ⟨fw',answered,same,-⟩
    · rw [answered]
      exact configured.same same
    · rw [answered]
      exact (configured.same same).added address 8 .WRITE
  memory_status {fw} configured address narrow value r answered := by
    rcases fw.memory_status_cases address value with missed | ⟨pnd,-,table,-,found⟩
    · cases (missed fw.riscv_mem).symm.trans answered
      exact configured
    · have marked : Framework.Configured read_latency write_latency { fw with memory_pending := table } :=
        { configured with }
      have answered := (found fw.riscv_mem).symm.trans answered
      split_ifs at answered
      · obtain ⟨b,-,rfl⟩ := Option.map_eq_some_iff.mp answered
        exact marked
      · cases answered
        exact marked

theorem Framework.backing_configured :
    Framework.backing.Keeps (fun _ => Framework.Configured read_latency write_latency) where
  tlb_port _ := port_configured
  cache_port _ := port_configured
  enter configured _ := { configured with }
  end_cycle configured := { configured with }

/-- What holds of the simulator between two lines. -/
structure Sound (read_latency write_latency : U64) (c : Pipeline (MemoryState Framework) × List Events) : Prop where
  counts : c.1.mem.Kept (Framework.Counts c.2.length)
  bounded : c.1.mem.framework.Bounded
  configured : c.1.mem.framework.Configured read_latency write_latency
  unissued : c.1.mem.framework.memory_accesses_issued = []

variable {u : Unknowns} {c c' : Pipeline (MemoryState Framework) × List Events}

theorem Sound.kept (sound : Sound read_latency write_latency c) {Inv : Framework → Prop}
    (holds : Inv c.1.mem.framework) : c.1.mem.Kept Inv :=
  ⟨sound.counts.instructions,sound.counts.data,holds⟩

/-- A run from a sound state, whatever its locals. -/
theorem sound_run {inputs : List CalleeLocals} (sound : Sound read_latency write_latency c)
    (ran : run (cycle simulator) c inputs = .ok c') :
    Sound read_latency write_latency c' where
  counts := run_keeps backing_counts sound.counts ran
  bounded := (run_keeps Framework.backing_bounded (sound.kept sound.bounded) ran).framework
  configured := (run_keeps Framework.backing_configured (sound.kept sound.configured) ran).framework
  unissued := run_unissued sound.unissued ran

theorem sound_moves (sound : Sound read_latency write_latency c) (moves : Moves u c c') :
    Sound read_latency write_latency c' := by
  obtain ⟨counts,bounded,configured,unissued⟩ := sound
  cases moves with
  | stays => exact ⟨counts,bounded,configured,unissued⟩
  | loads p log riscv_mem =>
    exact ⟨⟨counts.instructions,counts.data,counts.framework⟩,⟨bounded.size,bounded.slots⟩,{ configured with },unissued⟩
  | writes p log reg value => exact ⟨counts,bounded,configured,unissued⟩
  | jumps p log pc aligned => exact ⟨counts,bounded,configured,unissued⟩
  | maps p log ptbr aligned =>
    exact ⟨⟨counts.instructions,counts.data,counts.framework⟩,⟨bounded.size,bounded.slots⟩,
      { configured with ptbr := aligned },unissued⟩
  | restarts p log =>
    refine ⟨⟨counts.instructions,counts.data,0,0,0,?_⟩,⟨bounded.size,?_⟩,{ configured with },unissued⟩
    · refine ⟨rfl,rfl,rfl,rfl,rfl,le_rfl,le_rfl,Nat.zero_le _,Nat.zero_le _,?_,?_⟩
      · show List.Nodup p.mem.framework.memory_accesses_issued
        rw [unissued]
        exact List.nodup_nil
      · show ∀ stage ∈ p.mem.framework.memory_accesses_issued, _
        rw [unissued]
        exact fun _ inside => absurd inside List.not_mem_nil
    · intro q inside
      rw [List.eq_of_mem_replicate inside]
      decide
  | runs p log n_steps c some few ran =>
    have entered : Sound read_latency write_latency (p.entered u.buffers,log) := ⟨counts,bounded,configured,unissued⟩
    exact sound_run entered ran

theorem sound_initial (outside : U64 → Byte) (buffers : LoopLocals) (files : String → Option (List Char))
    (writable : String → Bool) (stdin : List Char) :
    let s := Session.initial outside read_latency write_latency buffers files writable stdin
    Sound read_latency write_latency (s.pipeline,s.log) where
  counts := ⟨CacheTable.narrow_instruction,CacheTable.narrow_data,counts_initial _ _ _ _⟩
  bounded := Framework.bounded_initial _ _ _ _
  configured := ⟨rfl,rfl,rfl,show (0 : U64) % MEMORY_PAGE_SIZE = 0 by decide⟩
  unissued := rfl

theorem sound_session {script : List Line} {s s' : Session} {more : Bool}
    (sound : Sound read_latency write_latency (s.pipeline,s.log)) (ran : session obey script s = .ok (more,s')) :
    Sound read_latency write_latency (s'.pipeline,s'.log) :=
  session_invariant (fun s => Sound read_latency write_latency (s.pipeline,s.log)) sound
    (fun _ _ _ _ _ sound obeyed => sound_moves sound (line_moves obeyed)) ran

end

/-! ### Results -/

/-- After any commands memory has its size, the latencies are those of the options and the page table starts at a
    page. The cycles since the last `initialize` are counted; there are at most two accesses a cycle, and one write,
    on the whole, and on average a read was of four to sixteen bytes, a write of eight. This is what `getcycles` and
    `memorystats` print. -/
theorem session_accounts (outside : U64 → Byte) (read_latency write_latency : U64) (buffers : LoopLocals)
    (files : String → Option (List Char)) (writable : String → Bool) (stdin : List Char) (script : List Line)
    (more : Bool) (s : Session)
    (ran : session obey script (.initial outside read_latency write_latency buffers files writable stdin) =
      .ok (more,s)) :
    s.framework.Configured read_latency write_latency ∧
      ∃ reads bytes writes, s.framework.cycle_counter = BitVec.ofNat 64 s.log.length ∧
        s.framework.read_counter = BitVec.ofNat 64 reads ∧ s.framework.read_bytes = BitVec.ofNat 64 bytes ∧
        s.framework.write_counter = BitVec.ofNat 64 writes ∧ s.framework.write_bytes = BitVec.ofNat 64 (8 * writes) ∧
        reads + writes ≤ 2 * s.log.length ∧ writes ≤ s.log.length ∧ 4 * reads ≤ bytes ∧ bytes ≤ 16 * reads := by
  have sound := sound_session (sound_initial outside buffers files writable stdin) ran
  exact ⟨sound.configured,counts_bounded sound.counts.framework sound.unissued⟩

/-- A hex file with the two sums of `twoSums` and page tables for the first page. -/
def sumsImage : String := "0 93 02 13 00 93 83 12 00\n10000 02 00 00 80\n20000 00 00 00 80\n"
/-- Everything that is not set is zero. -/
def noUnknowns : Unknowns := ⟨0,fun _ => 0,zeroBuffers,fun _ => ⟨⟨0,0,0⟩,⟨0,0,0⟩⟩⟩
def sumsSession : Session := .initial (fun _ => 0) 1 1 noUnknowns.buffers (fun _ => some sumsImage.toList)
    (fun _ => true) []
def sumsScript : List Line := ["load /x 0 image\n","setptbr 0x1000\n","run 12\n"].map fun l => (noUnknowns,l.toList)

theorem session_accounts_sums : ∃ s, session obey sumsScript sumsSession = .ok (true,s) ∧ s.log.length = 12 ∧
    s.framework.read_counter = 3 ∧ s.framework.Configured 1 1 ∧
    ∃ reads, s.framework.read_counter = BitVec.ofNat 64 reads ∧ reads ≤ 2 * s.log.length := by
  have result : okAnd (session obey sumsScript sumsSession) (fun r => r.1 && decide
      (r.2.log.length = 12 ∧ r.2.framework.read_counter = 3)) = true := by decide +kernel
  obtain ⟨⟨more,s⟩,ran,shown⟩ := okAnd_iff.mp result
  obtain ⟨rfl,shown⟩ := (Bool.and_eq_true _ _).mp shown
  obtain ⟨cycles,counted⟩ := of_decide_eq_true shown
  obtain ⟨configured,reads,bytes,writes,-,read_counter,-,-,-,accesses,-⟩ :=
    session_accounts _ 1 1 _ _ _ _ sumsScript true s ran
  exact ⟨s,ran,cycles,counted,configured,reads,read_counter,(Nat.le_add_right _ _).trans accesses⟩

end RiscvSim
