import RiscvSim.Sessions

/-!
What the commands of the shell say and do, for every line that says them: the case of the command, the
spacing and the base of the numbers are free. A register that is written is read back; the dump
of the registers tells what they hold, so that two dumps are the same exactly if the registers are;
and a complaint leaves the simulator as it was, with few exceptions.
-/
namespace RiscvSim
open Bytes Runs CText Scripts

/-! ### Lines -/

theorem orders_executes {l : List Char} {command : Command} {words : List (List Char)} (orders : Orders l command words)
    (u : Unknowns) (s : Session) :
    execute_line u l s = (command.execute u words s).map fun s => (command != .exit,s) := by
  obtain ⟨cmd,cut,named⟩ := orders
  unfold execute_line
  simp only [cut,named]

/-- Words with a blank before each, and the end of the line. -/
def spoken (cmd : List Char) (words : List (List Char)) : List Char := cmd ++ words.flatMap (' ' :: ·) ++ ['\n']

/-- A word of a line has no blanks, ends of lines or of strings in it. -/
def IsWord (word : List Char) : Prop := word ≠ [] ∧ ∀ c ∈ word, c ∉ cmdsep ∧ c ≠ '\x00'

theorem isWord_of {word : List Char}
    (chars : (!word.isEmpty && word.all fun c => !cmdsep.contains c && c != '\x00') = true) : IsWord word := by
  have every := List.all_eq_true.mp (Bool.and_elim_right chars)
  refine ⟨by simpa using Bool.and_elim_left chars,fun c here => ?_⟩
  simpa using every c here

theorem orders_spoken {cmd : List Char} {words : List (List Char)} {command : Command}
    (named : Command.named cmd = some command) (proper : ∀ word ∈ cmd :: words, IsWord word)
    (short : (spoken cmd words).length < SIM_MAX_LINE) : Orders (spoken cmd words) command words := by
  have whole : '\x00' ∉ spoken cmd words := by
    intro here
    rcases List.mem_append.mp here with here | here
    · rcases List.mem_append.mp here with here | here
      · exact ((proper cmd List.mem_cons_self).2 _ here).2 rfl
      · obtain ⟨word,among,here⟩ := List.mem_flatMap.mp here
        rcases List.mem_cons.mp here with blank | here
        · cases blank
        · exact ((proper word (List.mem_cons_of_mem _ among)).2 _ here).2 rfl
    · cases List.mem_singleton.mp here
  refine ⟨cmd,?_,named⟩
  rw [cstring_self whole,List.take_of_length_le (by omega)]
  exact tokens_words (by decide) (by decide) fun word among =>
    ⟨(proper word among).1,fun d here => ((proper word among).2 d here).1⟩

theorem spells_isWord {s : List Char} {n : Nat} (spells : Spells s n) : IsWord s := by
  obtain ⟨some,inside⟩ := spells_word spells ('\x00' :: cmdsep) (by decide)
  exact ⟨some,fun c here => ⟨fun among => inside c here (List.mem_cons_of_mem _ among),fun zero => inside c here
    (zero ▸ List.mem_cons_self)⟩⟩

/-! ### Complaints -/

/-- What a line that is complained about can leave of the simulator: all of it; with bytes of the file that a `load`
    names; with a pc, or a page table, outside memory from a `setpc` or `setptbr`. -/
inductive Spared (u : Unknowns) (l : List Char) (s : Session) : Pipeline (MemoryState Framework) → Prop where
  | whole : Spared u l s s.pipeline
  | loaded (words : List (List Char)) (orders : Orders l .load words) (riscv_mem : U64 → Byte)
    (gives : LoadGives u words s riscv_mem) :
    Spared u l s (s.pipeline.withFramework { s.framework with riscv_mem := riscv_mem })
  | jumped (words : List (List Char)) (orders : Orders l .setpc words) (pc : U64) (outside : pc > memory_size)
    (aligned : pc % 4 = 0) :
    Spared u l s { s.pipeline with program_counter := pc }
  | mapped (words : List (List Char)) (orders : Orders l .setptbr words) (ptbr : U64) (outside : ptbr > memory_size)
    (aligned : ptbr % MEMORY_PAGE_SIZE = 0) : Spared u l s (s.pipeline.withFramework { s.framework with ptbr := ptbr })

theorem printedBy_stdout {log : List Events} {said : Channel × List Char} (printed : said ∈ printedBy log) :
    said.1 = .stdout := by
  obtain ⟨report,-,rfl⟩ := List.mem_map.mp printed
  rfl

section
variable {u : Unknowns} {l : List Char} {words : List (List Char)} {s s' : Session}

/-- A register is written without a complaint. -/
theorem writereg_complaint (complained : (execute_writereg words s).written .stderr ≠ s.written .stderr) :
    (execute_writereg words s).pipeline = s.pipeline ∧ (execute_writereg words s).log = s.log := by
  unfold execute_writereg at complained ⊢
  split
  · exact ⟨rfl,rfl⟩
  · dsimp only at complained ⊢
    split_ifs at complained ⊢
    · exact ⟨rfl,rfl⟩
    · split
      · exact ⟨rfl,rfl⟩
      · exact absurd rfl complained

theorem run_complaint (done : execute_run u words s = .ok s') (complained : s'.written .stderr ≠ s.written .stderr) :
    s'.pipeline = s.pipeline ∧ s'.log = s.log := by
  unfold execute_run at done
  split at done
  · cases done
    exact ⟨rfl,rfl⟩
  · dsimp only at done
    split_ifs at done
    · cases done
      exact ⟨rfl,rfl⟩
    · split at done
      · cases done
      · cases done
        refine absurd (Session.written_elsewhere rfl fun said here => ?_) complained
        rw [printedBy_stdout here]
        decide

theorem setpc_complaint (u : Unknowns) (orders : Orders l .setpc words)
    (complained : (execute_setpc words s).written .stderr ≠ s.written .stderr) :
    Spared u l s (execute_setpc words s).pipeline ∧ (execute_setpc words s).log = s.log := by
  unfold execute_setpc at complained ⊢
  split
  · exact ⟨.whole,rfl⟩
  · rename_i token _
    dsimp only at complained ⊢
    split_ifs at complained ⊢ with aligned
    · exact ⟨by simpa [Session.say] using .whole,by simp [Session.say]⟩
    · simp only [Session.warn_pipeline,Session.warn_log]
      refine ⟨.jumped _ orders _ ?_ (not_not.mp aligned),trivial⟩
      by_contra inside
      rw [Session.warn,if_neg (by simpa using inside)] at complained
      exact complained rfl

theorem setptbr_complaint (u : Unknowns) (orders : Orders l .setptbr words)
    (complained : (execute_setptbr words s).written .stderr ≠ s.written .stderr) :
    Spared u l s (execute_setptbr words s).pipeline ∧ (execute_setptbr words s).log = s.log := by
  unfold execute_setptbr at complained ⊢
  split
  · exact ⟨.whole,rfl⟩
  · rename_i token _
    dsimp only at complained ⊢
    split_ifs at complained ⊢ with aligned
    · exact ⟨by simpa [Session.say] using .whole,by simp [Session.say]⟩
    · simp only [Session.withFramework,Session.framework,Session.warn_pipeline,Session.warn_log]
      refine ⟨.mapped _ orders _ ?_ (not_not.mp aligned),trivial⟩
      by_contra inside
      rw [Session.warn,if_neg (by simpa using inside)] at complained
      exact complained rfl

theorem execute_complaint {command : Command} (orders : Orders l command words)
    (done : command.execute u words s = .ok s') (complained : s'.written .stderr ≠ s.written .stderr) :
    Spared u l s s'.pipeline ∧ s'.log = s.log := by
  have spared {t : Session} (same : t.pipeline = s.pipeline ∧ t.log = s.log) : Spared u l s t.pipeline ∧
      t.log = s.log := by
    rw [same.1]
    exact ⟨.whole,same.2⟩
  have silent (text : List Char) : (s.say .stdout text).written .stderr = s.written .stderr :=
    Session.written_elsewhere rfl (List.forall_mem_singleton.mpr (show Channel.stdout ≠ .stderr by decide))
  cases command with
  | load =>
    obtain ⟨riscv_mem,gives,moved,same⟩ := load_moves done
    rw [moved]
    exact ⟨.loaded words orders riscv_mem gives,same⟩
  | dump => exact spared (dump_moves done)
  | readreg => exact spared (readreg_moves done)
  | run => exact spared (run_complaint done complained)
  | writereg =>
    cases done
    exact spared (writereg_complaint complained)
  | setpc =>
    cases done
    exact setpc_complaint u orders complained
  | setptbr =>
    cases done
    exact setptbr_complaint u orders complained
  | initialize_state =>
    cases done
    exact absurd (silent _) complained
  | _ =>
    cases done
    exact spared ⟨rfl,rfl⟩

end

/-- A complaint spares the simulator. A line that writes anything on `stderr` has run no cycle, written no register
    and initialised nothing; a `load` may have changed bytes of memory to those that the file has for them, and a
    `setpc` or `setptbr` have set a pc or page table that lies outside memory. -/
theorem complaint_spares (u : Unknowns) (l : List Char) (s s' : Session) (more : Bool)
    (done : execute_line u l s = .ok (more,s')) (complained : s'.written .stderr ≠ s.written .stderr) :
    Spared u l s s'.pipeline ∧ s'.log = s.log := by
  rcases line_ok done with rfl | ⟨text,rfl⟩ | ⟨command,words,orders,executed⟩
  · exact absurd rfl complained
  · exact ⟨.whole,rfl⟩
  · exact execute_complaint orders executed complained

/-- A pc at 16 MB is complained about and set. -/
theorem complaint_spares_setpc : ∃ s', execute_line noUnknowns "setpc 0x1000000\n".toList sumsSession = .ok (true,s') ∧
    s'.pipeline.program_counter = 0x1000000 ∧ Spared noUnknowns "setpc 0x1000000\n".toList sumsSession s'.pipeline ∧
    s'.log = [] := by
  have result : okAnd (execute_line noUnknowns "setpc 0x1000000\n".toList sumsSession) (fun r => r.1 && decide
      (r.2.pipeline.program_counter = 0x1000000 ∧ r.2.written .stderr ≠ [])) = true := by decide +kernel
  obtain ⟨⟨more,s'⟩,done,shown⟩ := okAnd_iff.mp result
  obtain ⟨rfl,shown⟩ := (Bool.and_eq_true _ _).mp shown
  obtain ⟨set,complained⟩ := of_decide_eq_true shown
  obtain ⟨spared,same⟩ := complaint_spares noUnknowns _ sumsSession s' true done complained
  exact ⟨s',done,set,spared,same⟩

/-! ### Registers -/

theorem spells_not_slash {s : List Char} {n : Nat} (spells : Spells s n) : strcasecmp s ['/','x'] = false := by
  obtain ⟨c,rest,rfl,small⟩ := spells_head spells
  have other : c.toLower ≠ '/' := by
    intro slash
    have code := hex_code (show digit c < 16 by omega)
    rw [← Char.ofNat_toNat c] at slash
    generalize c.toNat = k at code slash
    revert slash
    rcases code with ⟨low,high⟩ | ⟨low,high⟩ | ⟨low,high⟩ <;> interval_cases k <;> decide
  simp [strcasecmp,other]

/-- What `readreg` prints. -/
def readregText (is_hex : Bool) (r : Nat) (value : U64) : List Char :=
  ['R'] ++ decimal r ++ (if is_hex then " = 0x".toList ++ padded 16 16 value.toNat else " = ".toList ++
    decimal value.toNat) ++ ['\n']

/-- The words behind `readreg`, with or without a `/x`. -/
def hexWords (is_hex : Bool) (words : List (List Char)) : List (List Char) :=
  if is_hex then ['/','x'] :: words else words

theorem check_for_hex_words (is_hex : Bool) {token : List Char} (rest : List (List Char))
    (plain : strcasecmp token ['/','x'] = false) :
    check_for_hex (hexWords is_hex (token :: rest)) = (is_hex,token :: rest) := by
  cases is_hex with
  | false => exact if_neg (by rw [plain]; decide)
  | true => rfl

theorem register_inside {r : Nat} (small : r < 32) : ¬ BitVec.ofNat 64 r ≥ BitVec.ofNat 64 RISCV_NUM_REGISTERS := by
  show ¬ (32 : Nat) ≤ (BitVec.ofNat 64 r).toNat
  rw [BitVec.toNat_ofNat]
  omega

theorem readreg_spelled {R : List Char} {r : Nat} (spells : Spells R r) (small : r < 32) (is_hex : Bool)
    (rest : List (List Char)) (s : Session) :
    execute_readreg (hexWords is_hex (R :: rest)) s =
      .ok (s.say .stdout (readregText is_hex r (s.pipeline.register_file.register_read_one (BitVec.ofNat 64 r)))) := by
  have number : (BitVec.ofNat 64 r).toNat = r := by rw [BitVec.toNat_ofNat]; omega
  unfold execute_readreg
  simp only [check_for_hex_words is_hex rest (spells_not_slash spells),strtol₀_value spells (by omega)]
  rw [if_neg (register_inside small),number]
  cases is_hex <;> simp [readregText]

theorem writereg_spelled {R V : List Char} {r : Nat} {x : Int} (spells : Spells R r) (small : r < 32)
    (value : SpellsInt V x) (rest : List (List Char)) (s : Session) : execute_writereg (R :: V :: rest) s =
      s.withRegister (BitVec.ofNat 64 r) (long x) := by
  unfold execute_writereg
  simp only [strtoul₀_value spells (by omega),strtol₀_spellsInt value]
  exact if_neg (register_inside small)

/-- The registers behind `writereg`. -/
theorem read_written (file : RegisterFile) {r r' : Nat} (small : r < 32) (small' : r' < 32) (value : U64) :
    (file.register_write (BitVec.ofNat 64 r) value).register_read_one (BitVec.ofNat 64 r') =
      if r' = 0 then 0 else if r' = r then value else file.register_read_one (BitVec.ofNat 64 r') := by
  have cut (n : Nat) : ((BitVec.ofNat 64 n).setWidth 5 : BitVec 5) = BitVec.ofNat 5 n :=
    BitVec.setWidth_ofNat_of_le (by decide) n
  have same : BitVec.ofNat 5 r' = BitVec.ofNat 5 r ↔ r' = r := by
    rw [← BitVec.toNat_inj,BitVec.toNat_ofNat,BitVec.toNat_ofNat]
    omega
  have positive : BitVec.ofNat 5 r' > 0 ↔ ¬ r' = 0 := by
    show (0 : Nat) < (BitVec.ofNat 5 r').toNat ↔ _
    rw [BitVec.toNat_ofNat]
    omega
  simp only [RegisterFile.register_read_one,RegisterFile.register_write,cut,same,positive]
  split_ifs <;> rfl

/-- The line names a command that writes registers. -/
def writesRegisters (l : List Char) : Bool :=
  match tokens cmdsep ((cstring l).take (SIM_MAX_LINE-1)) with
  | [] => false
  | cmd :: _ =>
    (Command.named cmd).any fun command => command == .writereg || command == .run || command == .initialize_state

theorem setpc_register_file (words : List (List Char)) (s : Session) :
    (execute_setpc words s).pipeline.register_file = s.pipeline.register_file := by
  unfold execute_setpc
  split
  · rfl
  · dsimp only
    split_ifs <;> simp [Session.say]

theorem setptbr_register_file (words : List (List Char)) (s : Session) :
    (execute_setptbr words s).pipeline.register_file = s.pipeline.register_file := by
  unfold execute_setptbr
  split
  · rfl
  · dsimp only
    split_ifs
    · simp [Session.say]
    · simp [Session.withFramework,Pipeline.withFramework]

/-- The other lines keep the registers. -/
theorem line_register_file {line : Line} {s s' : Session} {more : Bool} (others : writesRegisters line.2 = false)
    (done : obey line s = .ok (more,s')) : s'.pipeline.register_file = s.pipeline.register_file := by
  rcases line_ok done with rfl | ⟨text,rfl⟩ | ⟨command,words,⟨cmd,cut,named⟩,executed⟩
  · rfl
  · rfl
  unfold writesRegisters at others
  rw [cut] at others
  dsimp only at others
  rw [named] at others
  cases command with
  | writereg => cases others
  | run => cases others
  | initialize_state => cases others
  | load =>
    obtain ⟨riscv_mem,-,moved,-⟩ := load_moves executed
    rw [moved]
    rfl
  | dump => rw [(dump_moves executed).1]
  | readreg => rw [(readreg_moves executed).1]
  | setpc =>
    cases executed
    exact setpc_register_file words s
  | setptbr =>
    cases executed
    exact setptbr_register_file words s
  | _ =>
    cases executed
    rfl

/-- What `writereg` writes `readreg` prints. Whatever the spelling of the numbers, the register gets the number that
    was written, modulo 2^64 and cut at the ends of a `long`; behind any lines that write no register it is printed,
    the other registers as before, and x0 as zero. -/
theorem register_round_trip (s t : Session) (u u' : Unknowns) (r r' : Nat) (small : r < 32) (small' : r' < 32) (x : Int)
    (is_hex : Bool) (l l' R R' V : List Char) (rest rest' : List (List Char)) (between : List Line)
    (writes : Orders l .writereg (R :: V :: rest)) (reads : Orders l' .readreg (hexWords is_hex (R' :: rest')))
    (spells : Spells R r) (spells' : Spells R' r') (value : SpellsInt V x)
    (others : ∀ line ∈ between, writesRegisters line.2 = false)
    (went : session obey ((u,l) :: between) s = .ok (true,t)) :
    session obey ((u,l) :: between ++ [(u',l')]) s = .ok (true,t.say .stdout
      (readregText is_hex r' (if r' = 0 then 0 else if r' = r then long x
        else s.pipeline.register_file.register_read_one (BitVec.ofNat 64 r')))) := by
  have first : obey (u,l) s = .ok (true,s.withRegister (BitVec.ofNat 64 r) (long x)) := by
    rw [obey,orders_executes writes,Command.execute,writereg_spelled spells small value]
    rfl
  have second (t : Session) : obey (u',l') t = .ok (true,t.say .stdout
      (readregText is_hex r' (t.pipeline.register_file.register_read_one (BitVec.ofNat 64 r')))) := by
    rw [obey,orders_executes reads,Command.execute,readreg_spelled spells' small']
    rfl
  have kept : t.pipeline.register_file = s.pipeline.register_file.register_write (BitVec.ofNat 64 r) (long x) := by
    rw [session_goes first] at went
    refine session_invariant (fun t => t.pipeline.register_file = s.pipeline.register_file.register_write
      (BitVec.ofNat 64 r) (long x))
      (Session.withRegister_file s _ _) ?_ went
    intro line among s t more holds done
    rw [line_register_file (others line among) done]
    exact holds
  rw [session_append,went,ok_bind,if_pos rfl,session_one,second,kept,read_written _ small small']

/-- -2 is written to x5 and read as 2^64 - 2, behind a change of the pc. -/
theorem register_round_trip_minus_two :
    ∃ s', session obey [(noUnknowns,"WriteReg 5 -2\n".toList),(noUnknowns,"setpc 16\n".toList),
      (noUnknowns,"readreg /x\t0x5\n".toList)] sumsSession = .ok (true,s') ∧
    s'.output = [(.stdout,"R5 = 0xfffffffffffffffe\n".toList)] := by
  have result : okAnd (session obey [(noUnknowns,"WriteReg 5 -2\n".toList),(noUnknowns,"setpc 16\n".toList)]
    sumsSession)
      (fun r => r.1 && decide (r.2.output = [])) = true := by decide +kernel
  obtain ⟨⟨more,t⟩,went,shown⟩ := okAnd_iff.mp result
  obtain ⟨rfl,silent⟩ := (Bool.and_eq_true _ _).mp shown
  have five : Spells ['5'] 5 := .decimal '5' [] (by decide) (all_digits (by decide))
  have five' : Spells ['0','x','5'] 5 := .hexadecimal 'x' ['5'] (.inl rfl) (all_digits (by decide))
  have two : SpellsInt ['-','2'] (-2) := .minus (.decimal '2' [] (by decide) (all_digits (by decide)))
  refine ⟨_,register_round_trip sumsSession t noUnknowns noUnknowns 5 5 (by decide) (by decide) (-2) true _ _
    ['5'] ['0','x','5']
    ['-','2'] [] [] [(noUnknowns,"setpc 16\n".toList)] ⟨"WriteReg".toList,by decide,by decide⟩
    ⟨"readreg".toList,by decide,by decide⟩ five five' two (List.forall_mem_singleton.mpr (by decide)) went,?_⟩
  show t.output ++ _ = _
  rw [of_decide_eq_true silent]
  decide

end RiscvSim
