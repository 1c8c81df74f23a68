import RiscvSim.Checkpoints

/-!
The two ways to give commands. A line does not depend on what was printed before it, nor on the input unless it loads
from there; so a text of commands that is typed in does to the simulator and to the files what
the same text does as a command file, and complains and dumps the same.
-/
namespace RiscvSim
open Bytes Runs CText Scripts

/-! ### What a line does not depend on -/

/-- The session with another input, behind an output. -/
def Session.onto (s : Session) (stdin : Option (List Char)) (before : List (Channel × List Char)) : Session :=
  { s with stdin := stdin, output := before ++ s.output }

section
variable (s : Session) (i : Option (List Char)) (o : List (Channel × List Char))

@[simp] theorem onto_pipeline : (s.onto i o).pipeline = s.pipeline := rfl
@[simp] theorem onto_log : (s.onto i o).log = s.log := rfl
@[simp] theorem onto_framework : (s.onto i o).framework = s.framework := rfl
@[simp] theorem onto_files : (s.onto i o).files = s.files := rfl
@[simp] theorem onto_writable : (s.onto i o).writable = s.writable := rfl

theorem say_onto (channel : Channel) (text : List Char) :
    (s.onto i o).say channel text = (s.say channel text).onto i o := by
  unfold Session.say Session.onto
  simp only [List.append_assoc]

theorem complain_onto (messages : List String) : (s.onto i o).complain messages = (s.complain messages).onto i o := by
  unfold Session.complain Session.onto
  simp only [List.append_assoc]

theorem warn_onto (bad : Bool) (text : List Char) : (s.onto i o).warn bad text = (s.warn bad text).onto i o := by
  cases bad with
  | false => rfl
  | true => exact say_onto s i o .stderr text

theorem dump_reg_onto (channel : Channel) : dump_reg channel (s.onto i o) = (dump_reg channel s).onto i o := by
  unfold dump_reg Session.onto
  simp only [List.append_assoc]

theorem loaded_onto (l : Loaded) : (s.onto i o).loaded false l = (s.loaded false l).onto i o := by
  unfold Session.loaded Session.complain Session.withFramework Session.onto
  simp only [List.append_assoc,Bool.false_eq_true,if_false]

theorem dumped_onto (filename : Option String) (d : Dumped) :
    (s.onto i o).dumped filename d = (s.dumped filename d).onto i o := by
  cases filename with
  | none =>
    unfold Session.dumped
    simp only [complain_onto,say_onto]
  | some name =>
    unfold Session.dumped Session.complain Session.onto
    simp only [List.append_assoc]

theorem readreg_onto (words : List (List Char)) : execute_readreg words (s.onto i o) = (execute_readreg words s).map
    (·.onto i o) := by
  unfold execute_readreg
  cases check_for_hex words with
  | mk is_hex words =>
    cases words with
    | nil => rfl
    | cons token rest =>
      simp only [say_onto]
      split_ifs <;> rfl

theorem writereg_onto (words : List (List Char)) :
    execute_writereg words (s.onto i o) = (execute_writereg words s).onto i o := by
  unfold execute_writereg
  cases words with
  | nil => exact complain_onto s i o _
  | cons token rest =>
    dsimp only
    split_ifs
    · exact say_onto s i o _ _
    · cases rest with
      | nil => exact complain_onto s i o _
      | cons token rest => rfl

theorem run_onto (u : Unknowns) (words : List (List Char)) :
    execute_run u words (s.onto i o) = (execute_run u words s).map (·.onto i o) := by
  unfold execute_run
  cases words with
  | nil => exact congrArg Except.ok (complain_onto s i o _)
  | cons token rest =>
    dsimp only
    split_ifs
    · exact congrArg Except.ok (say_onto s i o _ _)
    · rw [onto_pipeline,onto_log]
      cases simulator_execute_instructions u (BitVec.ofInt 64 (strtol₀ token)) s.pipeline s.log with
      | error cause => rfl
      | ok c =>
        unfold Session.onto
        simp only [List.append_assoc,Except.map]

theorem setpc_onto (words : List (List Char)) :
    execute_setpc words (s.onto i o) = (execute_setpc words s).onto i o := by
  unfold execute_setpc
  cases words with
  | nil => exact complain_onto s i o _
  | cons token rest =>
    dsimp only
    rw [warn_onto]
    split_ifs
    · exact say_onto _ i o _ _
    · rfl

theorem setptbr_onto (words : List (List Char)) :
    execute_setptbr words (s.onto i o) = (execute_setptbr words s).onto i o := by
  unfold execute_setptbr
  cases words with
  | nil => exact complain_onto s i o _
  | cons token rest =>
    dsimp only
    rw [warn_onto]
    split_ifs
    · exact say_onto _ i o _ _
    · rfl

theorem dump_onto (u : Unknowns) (words : List (List Char)) :
    execute_dump u words (s.onto i o) = (execute_dump u words s).map (·.onto i o) := by
  unfold execute_dump
  generalize check_for_hex words = cut
  obtain ⟨is_hex,words⟩ := cut
  rcases words with _ | ⟨token,_ | ⟨token',rest⟩⟩
  · exact congrArg Except.ok (complain_onto s i o _)
  · exact congrArg Except.ok (complain_onto s i o _)
  · dsimp only
    split_ifs
    · exact congrArg Except.ok (say_onto s i o _ _)
    · rw [onto_writable,onto_framework]
      cases dump_data_to_file ((BitVec.ofInt 64 (strtol₀ token')).toNat / 16 + 1) s.writable u.buf
        (rest.head?.map String.ofList) is_hex
          (BitVec.ofInt 64 (strtol₀ token)) (BitVec.ofInt 64 (strtol₀ token')) s.framework with
      | none => rfl
      | some d =>
        simp only [dumped_onto,complain_onto]
        split_ifs <;> rfl

/-- The words behind `load` name no file, and it is hex that is loaded. -/
def readsInput (words : List (List Char)) : Bool := (check_for_hex words).1 && (check_for_hex words).2.length == 1

/-- The characters of the input do not matter unless hex is loaded from it. -/
theorem load_input (fopen : String → Option (List Char)) (stdin stdin' : List Char) (offset : U64)
    (filename : Option String) (is_hex : Bool) (addr : U64) (fw : Framework)
    (quiet : filename = none → is_hex = false) :
    load_data_from_file fopen stdin offset filename is_hex addr fw =
      load_data_from_file fopen stdin' offset filename is_hex addr fw := by
  cases filename with
  | none =>
    rw [quiet rfl]
    rfl
  | some name => rfl

theorem load_onto (u : Unknowns) (words : List (List Char)) (quiet : readsInput words = false) :
    execute_load u words (s.onto i o) = (execute_load u words s).map (·.onto i o) := by
  unfold execute_load
  unfold readsInput at quiet
  generalize check_for_hex words = cut at quiet
  obtain ⟨is_hex,words⟩ := cut
  cases words with
  | nil => exact congrArg Except.ok (complain_onto s i o _)
  | cons token rest =>
    have named : rest.head?.map String.ofList = none → is_hex = false := by
      intro none
      cases rest with
      | nil => simpa using quiet
      | cons word rest => cases none
    have apart : ((rest.head?.map String.ofList).isNone && is_hex) = false := by
      cases filename : rest.head?.map String.ofList with
      | none => simpa using named filename
      | some name => rfl
    dsimp only
    rw [onto_files,onto_framework,load_input s.files ((s.onto i o).stdin.getD []) (s.stdin.getD []) _ _ _ _ _ named,
      apart]
    simp only [complain_onto,say_onto,loaded_onto,Bool.false_and,Bool.false_eq_true,if_false]
    split_ifs <;> rfl

theorem execute_onto (u : Unknowns) (words : List (List Char)) (command : Command)
    (quiet : command = .load → readsInput words = false) :
    command.execute u words (s.onto i o) = (command.execute u words s).map (·.onto i o) := by
  cases command with
  | load => exact load_onto s i o u words (quiet rfl)
  | dump => exact dump_onto s i o u words
  | readreg => exact readreg_onto s i o words
  | run => exact run_onto s i o u words
  | test_dump_reg => exact congrArg Except.ok (dump_reg_onto s i o .fd3)
  | debug_dump_reg => exact congrArg Except.ok (dump_reg_onto s i o .stdout)
  | writereg => exact congrArg Except.ok (writereg_onto s i o words)
  | setpc => exact congrArg Except.ok (setpc_onto s i o words)
  | setptbr => exact congrArg Except.ok (setptbr_onto s i o words)
  | initialize_state =>
    refine congrArg Except.ok ?_
    unfold execute_initialize_state
    rw [say_onto]
    rfl
  | getpc => exact congrArg Except.ok (say_onto s i o _ _)
  | getcycles => exact congrArg Except.ok (say_onto s i o _ _)
  | memorystats =>
    refine congrArg Except.ok ?_
    unfold execute_memorystats
    simp only [say_onto,onto_framework]
  | exit => rfl

end

/-- The line loads hex from the input. -/
def takesInput (l : List Char) : Bool :=
  match tokens cmdsep ((cstring l).take (SIM_MAX_LINE-1)) with
  | [] => false
  | cmd :: words => Command.named cmd == some .load && readsInput words

theorem obey_onto (line : Line) (quiet : takesInput line.2 = false) (s : Session) (i : Option (List Char))
    (o : List (Channel × List Char)) :
    obey line (s.onto i o) = (obey line s).map fun r => (r.1,r.2.onto i o) := by
  unfold obey execute_line
  unfold takesInput at quiet
  generalize tokens cmdsep ((cstring line.2).take (SIM_MAX_LINE-1)) = cut at quiet ⊢
  cases cut with
  | nil => rfl
  | cons cmd words =>
    dsimp only at quiet ⊢
    cases named : Command.named cmd with
    | none => exact congrArg (fun t => Except.ok (true,t)) (say_onto s i o _ _)
    | some command =>
      have silent : command = .load → readsInput words = false := by
        rintro rfl
        rw [named] at quiet
        simpa using quiet
      dsimp only
      rw [execute_onto s i o line.1 words command silent]
      cases command.execute line.1 words s <;> rfl

/-! ### Two sessions -/

/-- What only the interactive loop prints: a prompt, or the end of the last one. -/
def Prompts (text : List Char) : Prop := text = ['\n'] ∨ ∃ s, text = prompt s

/-- The second output is the first with prompts between, on `stdout`. -/
inductive Prompted : List (Channel × List Char) → List (Channel × List Char) → Prop where
  | nil : Prompted [] []
  | said (said : Channel × List Char) {first second : List (Channel × List Char)} (rest : Prompted first second) :
    Prompted (said :: first) (said :: second)
  | prompt {text : List Char} (prompts : Prompts text) {first second : List (Channel × List Char)}
    (rest : Prompted first second) :
    Prompted first ((.stdout,text) :: second)

theorem prompted_refl (output : List (Channel × List Char)) : Prompted output output := by
  induction output with
  | nil => exact .nil
  | cons said output ih => exact .said said ih

theorem Prompted.append {first second first' second' : List (Channel × List Char)} (prompted : Prompted first second)
    (rest : Prompted first' second') : Prompted (first ++ first') (second ++ second') := by
  induction prompted with
  | nil => exact rest
  | said said _ ih => exact .said said ih
  | prompt prompts _ ih => exact .prompt prompts ih

/-- Prompts change the text of no other channel. -/
theorem Prompted.elsewhere {first second : List (Channel × List Char)} (prompted : Prompted first second)
    {channel : Channel} (other : channel ≠ .stdout) : textOn channel first = textOn channel second := by
  induction prompted with
  | nil => rfl
  | said said _ ih => simpa [textOn] using ih
  | prompt _ _ ih => simpa [textOn,other.symm] using ih

/-- The same simulator and files; the same output, with prompts between in the second. -/
structure Alike (s t : Session) : Prop where
  pipeline : s.pipeline = t.pipeline
  log : s.log = t.log
  files : s.files = t.files
  writable : s.writable = t.writable
  output : Prompted s.output t.output

theorem Alike.written {s t : Session} (alike : Alike s t) {channel : Channel} (other : channel ≠ .stdout) :
    s.written channel = t.written channel := alike.output.elsewhere other

theorem alike_say {s t : Session} (alike : Alike s t) {text : List Char} (prompts : Prompts text) :
    Alike s (t.say .stdout text) where
  pipeline := alike.pipeline
  log := alike.log
  files := alike.files
  writable := alike.writable
  output := by simpa [Session.say] using alike.output.append (.prompt prompts .nil)

/-- A line keeps two sessions alike, and leaves the input. -/
theorem obey_alike {s t : Session} (alike : Alike s t) (line : Line) (quiet : takesInput line.2 = false) :
    Both (fun r r' => r.1 = r'.1 ∧ Alike r.2 r'.2 ∧ r'.2.stdin = t.stdin) (obey line s) (obey line t) := by
  -- both are one session without output, behind an output of their own
  have first : s = ({ s with stdin := none, output := [] } : Session).onto s.stdin s.output := by
    unfold Session.onto
    simp only [List.append_nil]
  have second : t = ({ s with stdin := none, output := [] } : Session).onto t.stdin t.output := by
    unfold Session.onto
    simp only [List.append_nil,alike.pipeline,alike.log,alike.files,alike.writable]
  rw [first,second,obey_onto line quiet,obey_onto line quiet]
  cases obey line { s with stdin := none, output := [] } with
  | error e => exact .error e
  | ok r =>
    exact .ok ⟨rfl,⟨rfl,rfl,rfl,rfl,alike.output.append (prompted_refl _)⟩,rfl⟩

/-! ### The two loops -/

theorem interactive_both (unknowns : Nat → Unknowns) {turns i : Nat} {s t : Session} {input : List Char}
    (alike : Alike s t) (stdin : t.stdin = some input) (enough : input.length < turns)
    (quiet : ∀ l ∈ lines (8192-1) input, takesInput l = false) :
    Both (fun r t' => Alike r.2 t') (session obey ((lines (8192-1) input).mapIdx fun k l => (unknowns (i+k),l)) s)
      (interactive_loop unknowns turns i t) := by
  induction turns generalizing i s t input with
  | zero => omega
  | succ turns ih =>
    have prompted := alike_say alike (.inr ⟨t,rfl⟩)
    have stdin' : (t.say .stdout (prompt t)).stdin = some input := stdin
    rw [interactive_loop]
    dsimp only
    rw [stdin']
    dsimp only
    rw [lines_eq (by decide)] at quiet ⊢
    cases read : fgets (8192-1) input with
    | none => exact .ok (alike_say prompted (.inl rfl))
    | some taken =>
      obtain ⟨line,rest⟩ := taken
      rw [read] at quiet
      have shorter := fgets_shorter (by decide) read
      have typed : Alike s { t.say .stdout (prompt t) with stdin := some rest } := { prompted with }
      rw [List.mapIdx_cons]
      refine (obey_alike typed (unknowns i,line) (quiet line List.mem_cons_self)).bind ?_
      rintro ⟨more,s'⟩ ⟨_,t'⟩ - ⟨rfl,alike',left⟩
      cases more with
      | false => exact .ok alike'
      | true =>
        have later := @ih (i+1) s' t' rest alike' left (by omega) fun l among => quiet l (List.mem_cons_of_mem _ among)
        simpa only [Nat.add_assoc,Nat.add_comm 1,Bool.true_eq_false,if_true] using later

/-- A line that does not fill the buffer is the same in a larger one. -/
theorem takeLine_more {room room' : Nat} {input : List Char} (short : (takeLine room input).1.length < room)
    (less : room ≤ room') :
    takeLine room' input = takeLine room input := by
  induction room generalizing room' input with
  | zero => omega
  | succ room ih =>
    obtain ⟨more,rfl⟩ := Nat.exists_eq_add_of_le less
    cases input with
    | nil => rw [Nat.add_right_comm]; rfl
    | cons c input =>
      rw [Nat.add_right_comm,takeLine,takeLine]
      rw [takeLine] at short
      split_ifs at short ⊢ with ends
      · rfl
      · have tail := ih (show (takeLine room input).1.length < room by simpa using short) (Nat.le_add_right room more)
        rw [tail]

/-- Lines that do not fill the buffer are the same lines in a larger one. -/
theorem lines_more {size size' : Nat} (two : 2 ≤ size) (less : size ≤ size') {input : List Char}
    (short : ∀ l ∈ lines size input, l.length < size-1) : lines size' input = lines size input := by
  induction count : input.length using Nat.strongRecOn generalizing input with
  | ind n ih =>
    rw [lines_eq two] at short
    rw [lines_eq two,lines_eq (by omega)]
    unfold fgets at short ⊢
    by_cases empty : input = []
    · rw [if_pos empty,if_pos empty]
    · rw [if_neg empty] at short ⊢
      rw [if_neg empty]
      dsimp only at short ⊢
      have read : fgets size input = some (takeLine (size-1) input) := if_neg empty
      have shorter := fgets_shorter two read
      rw [takeLine_more (short _ List.mem_cons_self) (by omega),
        ih _ (count ▸ shorter) (fun l among => short l (List.mem_cons_of_mem _ among)) rfl]

/-- Commands typed in do what a file of them does. Whatever the other options, a text whose lines are shorter than
    1022 characters and do not load from the input, given as a command file or typed in, ends the program in the
    same way, or leads to the same simulator and the same files and prints the same, with prompts between on
    `stdout`. -/
theorem typed_like_file (outside : U64 → Byte) (buffers : LoopLocals) (unknowns : Nat → Unknowns)
    (files : String → Option (List Char)) (writable : String → Bool) (stdin prog_name name text : List Char)
    (flags : List Flag) (settings : Settings)
    (taken : run (take_flag files prog_name) ⟨none,0,0,false⟩ flags = .ok settings) (typed : settings.cmd_fp = none)
    (opens : files (String.ofList name) = some text) (short : ∀ l ∈ lines (1024-1) text, l.length < 1022)
    (quiet : ∀ l ∈ lines (1024-1) text, takesInput l = false) :
    Both (fun e e' => e.code = e'.code ∧ ∃ s t, e.session = some s ∧ e'.session = some t ∧ Alike s t)
      (main outside buffers unknowns files writable stdin prog_name (flags ++ [.f name]))
      (main outside buffers unknowns files writable text prog_name flags) := by
  have taken' : run (take_flag files prog_name) ⟨none,0,0,false⟩ (flags ++ [.f name]) =
      .ok { settings with cmd_fp := some text } := by
    rw [run_append,taken,ok_bind]
    show take_flag files prog_name settings (.f name) >>= _ = _
    simp only [take_flag,opens]
    rfl
  have same : lines (8192-1) text = lines (1024-1) text := lines_more (by decide) (by decide) short
  have alike : Alike (Session.initial outside settings.memory_read_latency settings.memory_write_latency buffers files
    writable stdin)
      (Session.initial outside settings.memory_read_latency settings.memory_write_latency buffers files
        writable text) :=
    ⟨rfl,rfl,rfl,rfl,prompted_refl _⟩
  unfold main
  rw [taken,taken']
  dsimp only
  by_cases tests : settings.run_unit_tests = true
  · rw [if_pos tests,if_pos tests]
    exact .ok ⟨rfl,_,_,rfl,rfl,alike⟩
  · rw [if_neg tests,if_neg tests,typed]
    have both := interactive_both unknowns (i := 0) alike rfl (Nat.lt_succ_self text.length) (by rw [same]; exact quiet)
    simp only [same,Nat.zero_add] at both
    refine Both.bind (R := Alike) ?_ ?_
    · unfold command_loop
      generalize session obey _ _ = x at both ⊢
      generalize interactive_loop _ _ _ _ = y at both ⊢
      cases both with
      | error e => exact .error e
      | ok related => exact .ok related
    · rintro s t - alike
      exact .ok ⟨rfl,_,_,rfl,rfl,alike⟩

/-- Three commands that set and show t0. -/
def tenText : List Char := "writereg 5 10\ngetpc\ntest_dump_reg".toList

theorem typed_like_file_ten : ∃ e e' s t,
    main (fun _ => 0) noUnknowns.buffers (fun _ => noUnknowns) (fun _ => some tenText) (fun _ => true)
      [] "riscvsim".toList [.r ['1'],.f "commands".toList] = .ok e ∧
    main (fun _ => 0) noUnknowns.buffers (fun _ => noUnknowns) (fun _ => some tenText) (fun _ => true)
      tenText "riscvsim".toList [.r ['1']] = .ok e' ∧
    e.session = some s ∧ e'.session = some t ∧ t.written .fd3 = "t0: 0x000000000000000A\n".toList ∧ s.written .fd3 =
      t.written .fd3 := by
  have result : okAnd (main (fun _ => 0) noUnknowns.buffers (fun _ => noUnknowns) (fun _ => some tenText)
    (fun _ => true) tenText
      "riscvsim".toList [.r ['1']]) (fun e' => e'.session.any fun t =>
      decide (t.written .fd3 = "t0: 0x000000000000000A\n".toList)) = true := by
    decide +kernel
  have short : (lines (1024-1) tenText).all (fun l => decide (l.length < 1022) && !takesInput l) = true := by
    decide +kernel
  obtain ⟨e',typed,shown⟩ := okAnd_iff.mp result
  have both := typed_like_file (fun _ => 0) noUnknowns.buffers (fun _ => noUnknowns) (fun _ => some tenText)
    (fun _ => true) []
    "riscvsim".toList "commands".toList tenText [.r ['1']] ⟨none,1,0,false⟩ rfl rfl rfl
    (fun l among => of_decide_eq_true (Bool.and_elim_left (List.all_eq_true.mp short l among)))
    (fun l among => by simpa using Bool.and_elim_right (List.all_eq_true.mp short l among))
  rw [typed] at both
  generalize filed : main _ _ _ _ _ [] _ _ = r at both
  cases both with
  | ok related =>
    obtain ⟨-,s,t,first,second,alike⟩ := related
    rw [second] at shown
    exact ⟨_,e',s,t,filed,typed,first,second,of_decide_eq_true shown,alike.written (by decide)⟩

end RiscvSim
