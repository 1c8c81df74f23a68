import RiscvSim.Buffers
import RiscvSim.DataFiles
import RiscvSim.Numerals
import RiscvSim.Scripts

/-!
The command shell of the framework (`execute_line`, `readline` and `main`). A session is the
simulator together with the files, the input and what has been printed so far. A line of input is cut
into words, the first of which names a command. What the C code reads without having
set it is in `Unknowns`, and may be anything for every line.
-/
namespace RiscvSim
open Bytes Runs CText

/-! ### Sessions -/

def Pipeline.withFramework (p : Pipeline (MemoryState Framework)) (framework : Framework) :
    Pipeline (MemoryState Framework) :=
  { p with mem := { p.mem with framework := framework } }

/-- Where a text goes: the standard streams, and the descriptor that the tests read. -/
inductive Channel where
  | stdout | stderr | fd3
  deriving DecidableEq, Repr

/-- What of an output goes to a channel. -/
def textOn (channel : Channel) (output : List (Channel × List Char)) : List Char :=
  output.flatMap fun (other,text) => if other = channel then text else []

@[simp] theorem textOn_append (channel : Channel) (before after : List (Channel × List Char)) :
    textOn channel (before ++ after) = textOn channel before ++ textOn channel after := List.flatMap_append

/-- The program between two lines. A file name stands for one file, and what was written can be read. -/
structure Session where
  pipeline : Pipeline (MemoryState Framework)
  /-- What the cycles since the last `initialize` did. -/
  log : List Events
  files : String → Option (List Char)
  writable : String → Bool
  /-- What is left of the input; none once it is closed. -/
  stdin : Option (List Char)
  output : List (Channel × List Char)

/-- What ends the program inside a command: an abort of the simulator, a number read from the null pointer,
    a line read from the closed input, and a loop without an end. -/
inductive Ending where
  | abort (cause : Abort)
  | null_token
  | closed_stdin
  | endless
  deriving DecidableEq, Repr

/-- What a line finds in variables that nothing has set: `offset` of `load_data_from_file`, the locals of the main
    loop and of the callees in each cycle. The static `buf` of `dump_data_to_file` holds what the last dump left. -/
structure Unknowns where
  offset : U64
  buf : Buffer
  buffers : LoopLocals
  locals : Nat → CalleeLocals

namespace Session

def say (s : Session) (channel : Channel) (text : List Char) : Session :=
  { s with output := s.output ++ [(channel,text)] }
def complain (s : Session) (messages : List String) : Session :=
  { s with output := s.output ++ messages.map fun message => (.stderr,message.toList) }

/-- A complaint after which the command goes on. -/
def warn (s : Session) (bad : Bool) (text : List Char) : Session := if bad then s.say .stderr text else s

@[simp] theorem warn_pipeline (s : Session) (bad : Bool) (text : List Char) :
    (s.warn bad text).pipeline = s.pipeline := by
  cases bad <;> rfl
@[simp] theorem warn_log (s : Session) (bad : Bool) (text : List Char) : (s.warn bad text).log = s.log := by
  cases bad <;> rfl

/-- Everything written on a channel. -/
def written (s : Session) (channel : Channel) : List Char := textOn channel s.output

/-- What is added on other channels is not written on this one. -/
theorem written_elsewhere {s t : Session} {channel : Channel} {more : List (Channel × List Char)}
    (added : t.output = s.output ++ more) (elsewhere : ∀ said ∈ more, said.1 ≠ channel) :
    t.written channel = s.written channel := by
  have none : textOn channel more = [] := List.flatMap_eq_nil_iff.mpr fun said here => if_neg (elsewhere said here)
  rw [written,added,textOn_append,none,List.append_nil]
  rfl

def framework (s : Session) : Framework := s.pipeline.mem.framework
def withFramework (s : Session) (framework : Framework) : Session :=
  { s with pipeline := s.pipeline.withFramework framework }
def withRegister (s : Session) (reg value : U64) : Session :=
  { s with pipeline := { s.pipeline with register_file := s.pipeline.register_file.register_write reg value } }

@[simp] theorem withRegister_file (s : Session) (reg value : U64) :
    (s.withRegister reg value).pipeline.register_file = s.pipeline.register_file.register_write reg value := rfl

end Session

/-! ### The simulator's part -/

def SIM_MAX_LINE : Nat := 4096
def cmdsep : List Char := [' ','\t','\n','\r']
def memory_size : U64 := 8 * 1024 * 1024
def RISCV_NUM_REGISTERS : Nat := 32

/-- The pc, the table of requests, the registers of the stages and the counters; nothing else. -/
def initialize_state (p : Pipeline (MemoryState Framework)) : Pipeline (MemoryState Framework) :=
  { p with
    program_counter := 0
    cur_d_reg := .zero, cur_x_reg := .zero, cur_m_reg := .zero, cur_w_reg := .zero
    mem := { p.mem with framework := { p.mem.framework with
      memory_pending := memory_initialize_pending
      cycle_counter := 0, read_counter := 0, write_counter := 0, read_bytes := 0, write_bytes := 0 } } }

/-- A call of `simulator_execute_instructions` starts with these locals. -/
def Pipeline.entered (p : Pipeline (MemoryState Framework)) (locals : LoopLocals) : Pipeline (MemoryState Framework) :=
  { p.buffered locals with inst := locals.inst }

def simulator_execute_instructions (u : Unknowns) (n_steps : U64) (p : Pipeline (MemoryState Framework))
    (log : List Events) :
    Except Abort (Pipeline (MemoryState Framework) × List Events) :=
  run (cycle simulator) (p.entered u.buffers,log) ((List.range n_steps.toNat).map u.locals)

/-- What `riscv_illegal_instruction` is called for when execute dispatches a word; no operand has a part in it. -/
def reported (dispatched : U64 × U32) : List (U64 × U32) :=
  match dispatch dispatched.2 ⟨0,0⟩ (dispatched.1 + 4) .zero with
  | .ok e => e.illegal
  | .error _ => []

/-- The text of `riscv_illegal_instruction`. -/
def illegalText (report : U64 × U32) : List Char :=
  "Illegal instruction @ 0x".toList ++ capitals 16 report.1.toNat ++ ": 0x".toList ++
  capitals 8 report.2.toNat ++ ['\n']

/-- What cycles print. -/
def printedBy (log : List Events) : List (Channel × List Char) :=
  ((log.filterMap Events.dispatched).flatMap reported).map fun report => (.stdout,illegalText report)

/-! ### Commands -/

/-- Whether the next word is `/x`, and the words from the one that `token` is on. -/
def check_for_hex : List (List Char) → Bool × List (List Char)
  | [] => (false,[])
  | token :: rest => if strcasecmp token ['/','x'] then (true,rest) else (false,token :: rest)

def abi_regs : List String :=
  ["zero","ra","sp","gp","tp","t0","t1","t2","s0","s1","a0","a1","a2","a3","a4","a5","a6","a7","s2","s3","s4","s5",
    "s6","s7","s8","s9","s10","s11","t3","t4","t5","t6"]

/-- A line of the register dump; there is none for a register that is zero. -/
def dump_reg_line (file : RegisterFile) (i : Nat) : List Char :=
  let val := file.register_read_one (BitVec.ofNat 64 i)
  if val ≠ 0 then (abi_regs.getD i "").toList ++ ": 0x".toList ++ capitals 16 val.toNat ++ ['\n'] else []

/-- The loop of `test_dump_reg`, which writes to descriptor 3, and of `debug_dump_reg`, which prints. -/
def dump_reg (channel : Channel) (s : Session) : Session :=
  { s with output := s.output ++ (List.range RISCV_NUM_REGISTERS).map fun i =>
    (channel,dump_reg_line s.pipeline.register_file i) }

/-- All of the input is read, and it is closed behind a bad line. -/
def Session.loaded (s : Session) (from_stdin : Bool) (l : Loaded) : Session :=
  { (s.withFramework l.framework).complain l.stderr with
    stdin := if from_stdin then (if l.ok then some [] else none) else s.stdin }

/-- The file name is the next word, if there is one. -/
def execute_load (u : Unknowns) (words : List (List Char)) (s : Session) : Except Ending Session :=
  match check_for_hex words with
  | (_,[]) => .ok (s.complain ["Usage: load [/x] <address> [filename]\n"])
  | (is_hex,token :: rest) =>
    if verify_base token 16 = false then .ok (s.complain ["Usage: load [/x] <address> [filename]\n"])
    else
      let address : U64 := BitVec.ofInt 64 (strtol₀ token)
      if address > memory_size then .ok (s.say .stderr ("Address out of range: 0x".toList ++
        spaced 16 address.toNat ++ ['\n']))
      else
        let filename := rest.head?.map String.ofList
        let from_stdin := filename.isNone && is_hex
        if from_stdin && s.stdin.isNone then .error .closed_stdin
        else
          let l := load_data_from_file s.files (s.stdin.getD []) u.offset filename is_hex address s.framework
          if l.ok then .ok (s.loaded from_stdin l)
          else .ok ((s.loaded from_stdin l).complain ["load: failed to load all data from " ++
            filename.getD "<stdin>" ++ "\n"])

/-- The text goes to the file, which is emptied before anything is written, or to `stdout`. -/
def Session.dumped (s : Session) (filename : Option String) (d : Dumped) : Session :=
  match filename with
  | none => (s.complain d.stderr).say .stdout d.text
  | some name => { s.complain d.stderr with
      files := fun other => if other = name ∧ s.writable name then some d.text else s.files other }

def execute_dump (u : Unknowns) (words : List (List Char)) (s : Session) : Except Ending Session :=
  match check_for_hex words with
  | (is_hex,token :: token' :: rest) =>
    let address : U64 := BitVec.ofInt 64 (strtol₀ token)
    let length : U64 := BitVec.ofInt 64 (strtol₀ token')
    if address + length > memory_size ∨ length > memory_size then
      .ok (s.say .stderr ("dump: address or length out of range: address 0x".toList ++ spaced 16 address.toNat ++
        " length ".toList ++
        integer length.toInt ++ ['\n']))
    else
      let filename := rest.head?.map String.ofList
      match dump_data_to_file (length.toNat / 16 + 1) s.writable u.buf filename is_hex address length s.framework with
      | none => .error .endless
      | some d =>
        let s := s.dumped filename d
        if d.ok then .ok s else .ok (s.complain ["dump: failed to dump data from " ++ filename.getD "<stdout>" ++ "\n"])
  | _ => .ok (s.complain ["Usage: dump [/x] <address> <length> [filename]\n"])

/-- Without a register the usage is printed, and the null pointer read. -/
def execute_readreg (words : List (List Char)) (s : Session) : Except Ending Session :=
  match check_for_hex words with
  | (_,[]) => .error .null_token
  | (is_hex,token :: _) =>
    let reg_num : U64 := BitVec.ofInt 64 (strtol₀ token)
    let value := s.pipeline.register_file.register_read_one reg_num
    if reg_num ≥ BitVec.ofNat 64 RISCV_NUM_REGISTERS then .ok (s.say .stderr ("readreg: bad register ".toList ++
      decimal reg_num.toNat ++ ['\n']))
    else if is_hex then
      .ok (s.say .stdout (['R'] ++ decimal reg_num.toNat ++ " = 0x".toList ++ padded 16 16 value.toNat ++ ['\n']))
    else .ok (s.say .stdout (['R'] ++ decimal reg_num.toNat ++ " = ".toList ++ decimal value.toNat ++ ['\n']))

/-- The value is stored in x0 as in any other. -/
def execute_writereg (words : List (List Char)) (s : Session) : Session :=
  match words with
  | [] => s.complain ["Usage: writereg <reg_num> <value>\n"]
  | token :: rest =>
    let reg_num : U64 := strtoul₀ token
    if reg_num ≥ BitVec.ofNat 64 RISCV_NUM_REGISTERS then s.say .stderr ("writereg: bad register ".toList ++
      decimal reg_num.toNat ++ ['\n'])
    else
      match rest with
      | [] => s.complain ["writereg: no value\n"]
      | token :: _ =>
        let value : U64 := BitVec.ofInt 64 (strtol₀ token)
        s.withRegister reg_num value

def execute_run (u : Unknowns) (words : List (List Char)) (s : Session) : Except Ending Session :=
  match words with
  | [] => .ok (s.complain ["Usage: run <number of steps>\n"])
  | token :: _ =>
    let n_steps : U64 := BitVec.ofInt 64 (strtol₀ token)
    if n_steps < 1 ∨ n_steps > 100000000 then
      .ok (s.say .stderr ("run: steps must be between 1-100000000, not ".toList ++ decimal n_steps.toNat ++ ['\n']))
    else
      match simulator_execute_instructions u n_steps s.pipeline s.log with
      | .error cause => .error (.abort cause)
      | .ok (p,log) => .ok { s with
          pipeline := p
          log := log
          output := s.output ++ printedBy (log.drop s.log.length) }

/-- A pc outside memory is complained about, and set all the same. -/
def execute_setpc (words : List (List Char)) (s : Session) : Session :=
  match words with
  | [] => s.complain ["Usage: setpc <program counter>\n"]
  | token :: _ =>
    let prog_start := strtoul₀ token
    let s := s.warn (prog_start > memory_size) ("setpc: program counter (".toList ++ hexadecimal prog_start.toNat ++
      ") must be within memory (".toList ++ hexadecimal memory_size.toNat ++ ")\n".toList)
    if prog_start % 4 ≠ 0 then
      s.say .stderr ("setpc: program counter (".toList ++ hexadecimal prog_start.toNat ++
        ") must be a multiple of 4\n".toList)
    else { s with pipeline := { s.pipeline with program_counter := prog_start } }

/-- As `setpc`, with pages in place of words. -/
def execute_setptbr (words : List (List Char)) (s : Session) : Session :=
  match words with
  | [] => s.complain ["Usage: setptbr <page table base register>\n"]
  | token :: _ =>
    let value := strtoul₀ token
    let s := s.warn (value > memory_size) ("setptbr: page table base register (".toList ++ hexadecimal value.toNat ++
      ") must be within memory (".toList ++ hexadecimal memory_size.toNat ++ ")\n".toList)
    if value % MEMORY_PAGE_SIZE ≠ 0 then
      s.say .stderr ("setptbr: page table base register (".toList ++ hexadecimal value.toNat ++
        ") must point to a page-aligned address\n".toList)
    else s.withFramework { s.framework with ptbr := value }

def execute_initialize_state (s : Session) : Session :=
  { s.say .stdout "Setting state registers, counters, and PC to 0!\n".toList with
    pipeline := initialize_state s.pipeline
    log := [] }

def execute_getpc (s : Session) : Session :=
  s.say .stdout ("PC: 0x".toList ++ hexadecimal s.pipeline.program_counter.toNat ++ ['\n'])
def execute_getcycles (s : Session) : Session :=
  s.say .stdout ("Cycles: ".toList ++ decimal s.framework.cycle_counter.toNat ++ ['\n'])
def execute_memorystats (s : Session) : Session :=
  (((s.say .stdout ("Read operations: ".toList ++ decimal s.framework.read_counter.toNat ++ ['\n'])).say
    .stdout ("Read bytes: ".toList ++ decimal s.framework.read_bytes.toNat ++ ['\n'])).say
    .stdout ("Write operations: ".toList ++ decimal s.framework.write_counter.toNat ++ ['\n'])).say
    .stdout ("Write bytes: ".toList ++ decimal s.framework.write_bytes.toNat ++ ['\n'])

/-- The commands, in the order in which they are tried. -/
inductive Command where
  | load | test_dump_reg | debug_dump_reg | dump | readreg | writereg | run | setpc | setptbr | initialize_state
    | getpc | getcycles
  | memorystats | exit
  deriving DecidableEq, Repr

namespace Command

def all : List Command :=
  [load,test_dump_reg,debug_dump_reg,dump,readreg,writereg,run,setpc,setptbr,initialize_state,getpc,getcycles,
    memorystats,exit]

def name : Command → String
  | load => "load"
  | test_dump_reg => "test_dump_reg"
  | debug_dump_reg => "debug_dump_reg"
  | dump => "dump"
  | readreg => "readreg"
  | writereg => "writereg"
  | run => "run"
  | setpc => "setpc"
  | setptbr => "setptbr"
  | initialize_state => "initialize"
  | getpc => "getpc"
  | getcycles => "getcycles"
  | memorystats => "memorystats"
  | exit => "exit"

/-- The command that a word names. -/
def named (cmd : List Char) : Option Command := all.find? fun c => strcasecmp c.name.toList cmd

/-- The body of a command, for the words behind its name. -/
def execute (u : Unknowns) (words : List (List Char)) (s : Session) : Command → Except Ending Session
  | load => execute_load u words s
  | test_dump_reg => .ok (dump_reg .fd3 s)
  | debug_dump_reg => .ok (dump_reg .stdout s)
  | dump => execute_dump u words s
  | readreg => execute_readreg words s
  | writereg => .ok (execute_writereg words s)
  | run => execute_run u words s
  | setpc => .ok (execute_setpc words s)
  | setptbr => .ok (execute_setptbr words s)
  | initialize_state => .ok (execute_initialize_state s)
  | getpc => .ok (execute_getpc s)
  | getcycles => .ok (execute_getcycles s)
  | memorystats => .ok (execute_memorystats s)
  | exit => .ok s

end Command

/-- False ends the session. A line is cut off behind 4095 characters. -/
def execute_line (u : Unknowns) (l : List Char) (s : Session) : Except Ending (Bool × Session) :=
  match tokens cmdsep ((cstring l).take (SIM_MAX_LINE-1)) with
  | [] => .ok (true,s)
  | cmd :: words =>
    match Command.named cmd with
    | none => .ok (true,s.say .stderr ("Unrecognized command: ".toList ++ cmd ++ ['\n']))
    | some command => (command.execute u words s).map fun s => (command != .exit,s)

/-! ### Main -/

/-- An option as `getopt` returns it, with its argument. -/
inductive Flag where
  | u
  | f (optarg : List Char)
  | r (optarg : List Char)
  | w (optarg : List Char)
  | unknown
  deriving DecidableEq, Repr

/-- What the options set: the command file, if one was opened. -/
structure Settings where
  cmd_fp : Option (List Char)
  memory_read_latency : U64
  memory_write_latency : U64
  run_unit_tests : Bool

def usage (prog_name : List Char) : List (List Char) :=
  ["Usage: ".toList ++ prog_name ++ " [-f command_file] [-r latency] [-w latency] [-u]\n".toList,
    "\t-f command_file : run simulator commands from command_file\n".toList,
    "\t-r latency : set read latency (in cycles)\n".toList,
    "\t-w latency : set write latency (in cycles)\n".toList,
    "\t-u : run unit tests\n".toList]

/-- A turn of the loop over the options, or what is printed before the program exits. -/
def take_flag (fopen : String → Option (List Char)) (prog_name : List Char) (settings : Settings) :
    Flag → Except (List (List Char)) Settings
  | .f optarg =>
    match fopen (String.ofList optarg) with
    | some file => .ok { settings with cmd_fp := some file }
    | none => .error (("Couldn't open command file ".toList ++ optarg ++ ['\n']) :: usage prog_name)
  | .r optarg => .ok { settings with memory_read_latency := BitVec.ofInt 64 (strtol optarg 10) }
  | .w optarg => .ok { settings with memory_write_latency := BitVec.ofInt 64 (strtol optarg 10) }
  | .u => .ok { settings with run_unit_tests := true }
  | .unknown => .error (usage prog_name)

/-- Memory behind `memory_initialize`: zero, and whatever there is outside the array. -/
def zeroedMemory (outside : U64 → Byte) (o : U64) : Byte := if o < memory_size then 0 else outside o

/-- The program behind `initialize_state`. -/
def Session.initial (outside : U64 → Byte) (read_latency write_latency : U64) (buffers : LoopLocals)
    (files : String → Option (List Char)) (writable : String → Bool) (stdin : List Char) : Session where
  pipeline := (Pipeline.initial (.initial (.initial (zeroedMemory outside) 0 read_latency write_latency)) 0
    (fun _ => 0) buffers).1
  log := []
  files := files
  writable := writable
  stdin := some stdin
  output := []

/-- What is obeyed: a line, with what it finds. -/
abbrev Line := Unknowns × List Char

def obey (line : Line) (s : Session) : Except Ending (Bool × Session) := execute_line line.1 line.2 s

/-- The loop over the lines of a command file, which its own commands do not write. -/
def command_loop (unknowns : Nat → Unknowns) (file : List Char) (s : Session) : Except Ending Session := do
  let (_,s) ← Scripts.session obey ((lines (1024-1) file).mapIdx fun i cur_line => (unknowns i,cur_line)) s
  return s

/-- The prompt, as `readline` prints it. -/
def prompt (s : Session) : List Char :=
  "-RISCV (PC=0x".toList ++ hexadecimal s.pipeline.program_counter.toNat ++ ")> ".toList

/-- The loop over the lines of the input, for as many turns as given. -/
def interactive_loop (unknowns : Nat → Unknowns) : Nat → Nat → Session → Except Ending Session
  | 0,_,_ => .error .endless
  | turns+1,i,s =>
    let s := s.say .stdout (prompt s)
    match s.stdin with
    | none => .error .closed_stdin
    | some input =>
      match fgets (8192-1) input with
      | none => .ok (s.say .stdout ['\n'])
      | some (cur_line,rest) => do
        let (more,s) ← execute_line (unknowns i) cur_line { s with stdin := some rest }
        if more then interactive_loop unknowns turns (i+1) s else .ok s

/-- The exit code and the session at the end; the options are refused before there is one. -/
structure Ended where
  code : Nat
  output : List (Channel × List Char)
  session : Option Session

/-- Each line of the input takes a character at least, so that there are no more turns than those and the last. -/
def main (outside : U64 → Byte) (buffers : LoopLocals) (unknowns : Nat → Unknowns) (files : String → Option (List Char))
    (writable : String → Bool) (stdin prog_name : List Char) (flags : List Flag) : Except Ending Ended :=
  match run (take_flag files prog_name) ⟨none,0,0,false⟩ flags with
  | .error said => .ok ⟨1,said.map fun text => (.stderr,text),none⟩
  | .ok settings =>
    let s := Session.initial outside settings.memory_read_latency settings.memory_write_latency buffers
      files writable stdin
    if settings.run_unit_tests then .ok ⟨0,s.output,some s⟩
    else do
      let s ← match settings.cmd_fp with
        | some file => command_loop unknowns file s
        | none => interactive_loop unknowns (stdin.length+1) 0 s
      return ⟨0,s.output,some s⟩

end RiscvSim
