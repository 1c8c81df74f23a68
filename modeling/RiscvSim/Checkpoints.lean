import RiscvSim.Commands
import RiscvSim.HexDump

/-!
Files and memory in a session. A binary file is loaded in blocks, of which those that fit arrive whole and the
others not at all. A range of memory that was dumped in hex is a checkpoint: whatever the
session does after it, short of dumping to the same file, loading the file puts the bytes back.
-/
namespace RiscvSim
open Bytes Runs CText Scripts

/-! ### Binary files -/

/-- A byte of a file, as `memcpy` takes it from the buffer. -/
def fileByte (file : List Char) (i : Nat) : Byte := BitVec.ofNat 8 (file.getD i '\x00').toNat

/-- Where the block ends that a byte of the file is read in. -/
def blockEnd (file : List Char) (i : Nat) : Nat := min (4096 * (i/4096 + 1)) file.length

/-- Memory with the blocks of a file that fit, from an address on. -/
def blocksLoaded (s : Framework) (start : Nat) (file : List Char) (o : U64) : Byte :=
  if start ≤ o.toNat ∧ o.toNat < start + file.length ∧ start + blockEnd file (o.toNat - start) ≤
    s.riscv_mem_size.toNat then
    fileByte file (o.toNat - start)
  else s.riscv_mem o

theorem fileByte_drop (file : List Char) {i : Nat} (later : 4096 ≤ i) :
    fileByte (file.drop 4096) (i - 4096) = fileByte file i := by
  unfold fileByte
  rw [List.getD_eq_getElem?_getD,List.getElem?_drop,Nat.add_sub_of_le later,List.getD_eq_getElem?_getD]

theorem fileByte_take (file : List Char) {i : Nat} (first : i < 4096) :
    fileByte (file.take 4096) i = fileByte file i := by
  unfold fileByte
  rw [List.getD_eq_getElem?_getD,List.getElem?_take_of_lt first,List.getD_eq_getElem?_getD]

/-- One call of `memory_load` that does not go round the end of the address space. -/
theorem memory_load_byte (s : Framework) (region : Buffer) {base size : U64} (fits : base.toNat + size.toNat < 2^64)
    (o : U64) :
    (s.memory_load region base size).2.riscv_mem o =
      if base.toNat ≤ o.toNat ∧ o.toNat < base.toNat + size.toNat ∧ base.toNat + size.toNat ≤
        s.riscv_mem_size.toNat then
        region (o.toNat - base.toNat)
      else s.riscv_mem o := by
  by_cases passes : base + size ≤ s.riscv_mem_size
  · have room : base.toNat + size.toNat ≤ s.riscv_mem_size.toNat := by bv_omega
    rw [Framework.memory_load_passed passes]
    by_cases inside : base.toNat ≤ o.toNat ∧ o.toNat < base.toNat + size.toNat
    · have place : (o - base).toNat = o.toNat - base.toNat := by bv_omega
      have within : o.toNat - base.toNat < size.toNat := by omega
      simp only [place,within,inside,room,and_self,if_true]
    · have beyond : ¬ (o - base).toNat < size.toNat := by bv_omega
      rw [if_neg (by omega)]
      exact if_neg beyond
  · have full : ¬ base.toNat + size.toNat ≤ s.riscv_mem_size.toNat := by bv_omega
    rw [Framework.memory_load_refused passes,if_neg (by omega)]

theorem memory_load_size (s : Framework) (region : Buffer) (base size : U64) :
    (s.memory_load region base size).2.riscv_mem_size = s.riscv_mem_size := by
  obtain ⟨riscv_mem,same⟩ := rewritten_memory_load s region base size
  rw [same]

/-- The first block and the others. -/
theorem blocksLoaded_step {s s' : Framework} {start k : Nat} {file : List Char} (block : k = (file.take 4096).length)
    (size : s'.riscv_mem_size = s.riscv_mem_size)
    (first : ∀ o, s'.riscv_mem o = if start ≤ o.toNat ∧ o.toNat < start + k ∧ start + k ≤ s.riscv_mem_size.toNat then
      fileByte (file.take 4096) (o.toNat - start) else s.riscv_mem o) :
    blocksLoaded s' (start + k) (file.drop 4096) = blocksLoaded s start file := by
  rw [List.length_take] at block
  funext o
  unfold blocksLoaded
  rw [size,List.length_drop]
  by_cases later : start + k ≤ o.toNat ∧ o.toNat < start + file.length
  · have whole : k = 4096 := by omega
    have ends : k + blockEnd (file.drop 4096) (o.toNat - (start + k)) = blockEnd file (o.toNat - start) := by
      unfold blockEnd
      rw [List.length_drop]
      omega
    have byte : fileByte (file.drop 4096) (o.toNat - (start + k)) = fileByte file (o.toNat - start) := by
      rw [← fileByte_drop file (show 4096 ≤ o.toNat - start by omega),whole,Nat.sub_sub]
    rw [byte,first o,if_neg (show ¬ (start ≤ o.toNat ∧ o.toNat < start + k ∧ _) by omega)]
    refine if_congr ?_ rfl rfl
    omega
  · rw [if_neg (by omega),first o]
    by_cases early : start ≤ o.toNat ∧ o.toNat < start + k
    · have ends : blockEnd file (o.toNat - start) = k := by
        unfold blockEnd
        omega
      rw [ends,fileByte_take file (by omega)]
      refine if_congr ?_ rfl rfl
      omega
    · rw [if_neg (by omega),if_neg (by omega)]

/-- The loop over the blocks, in as many calls as there are characters. -/
theorem blocks_loaded (addr : U64) (calls : Nat) (total : U64) (file : List Char) (s : Framework)
    (enough : file.length ≤ calls) (fits : (addr + total).toNat + file.length < 2^64) :
    (load_blocks addr calls total file s).riscv_mem = blocksLoaded s (addr + total).toNat file := by
  have ended (s : Framework) (start : Nat) : s.riscv_mem = blocksLoaded s start [] := by
    funext o
    exact (if_neg (by rw [List.length_nil]; omega)).symm
  induction calls generalizing total file s with
  | zero =>
    rw [List.eq_nil_of_length_eq_zero (Nat.le_zero.mp enough)]
    exact ended s _
  | succ calls ih =>
    have block := List.length_take (i := 4096) (l := file)
    rw [load_blocks]
    split_ifs with some
    · have count : (BitVec.ofNat 64 (file.take 4096).length).toNat = (file.take 4096).length := by
        rw [BitVec.toNat_ofNat]
        omega
      have next : (addr + (total + BitVec.ofNat 64 (file.take 4096).length)).toNat = (addr + total).toNat +
          (file.take 4096).length := by
        rw [← BitVec.add_assoc,BitVec.toNat_add,count]
        omega
      rw [ih _ _ _ (by rw [List.length_drop]; omega) (by rw [next,List.length_drop]; omega),next]
      refine blocksLoaded_step rfl (memory_load_size s _ _ _) fun o => ?_
      rw [memory_load_byte s _ (by rw [count]; omega),count]
      rfl
    · have none : file = [] := by
        rw [← List.length_eq_zero_iff]
        omega
      rw [none]
      exact ended s _

theorem load_blocks_eq (addr offset : U64) (file : List Char) (s : Framework)
    (fits : (addr + offset).toNat + file.length < 2^64) :
    load_blocks addr file.length offset file s = { s with riscv_mem := blocksLoaded s (addr + offset).toNat file } := by
  obtain ⟨riscv_mem,same⟩ := rewritten_load_blocks addr file.length offset file s
  have blocks := blocks_loaded addr file.length offset file s (Nat.le_refl _) fits
  rw [same] at blocks ⊢
  exact mem_congr fun o => congrFun blocks o

/-! ### The load command -/

theorem verify_spelled {A : List Char} {a : Nat} (spells : Spells A a) : verify_base A 16 = true := by
  have plain {s : List Char} (digits : ∀ c ∈ s, digit c < 16) : verify_base s 16 = true := by
    unfold verify_base
    rw [if_pos rfl,unprefixed_digits (by decide) digits]
    exact List.all_eq_true.mpr fun c here => decide_eq_true (digits c here)
  cases spells with
  | decimal c s head digits =>
    refine plain fun d here => ?_
    have small := digits d here
    omega
  | hexadecimal x s mark digits =>
    have rest : unprefixed ('0' :: x :: s) = s := by rcases mark with rfl | rfl <;> rfl
    unfold verify_base
    rw [if_pos rfl,rest]
    exact List.all_eq_true.mpr fun c here => decide_eq_true (digits c here)
  | octal s digits =>
    refine plain fun c here => ?_
    rcases List.mem_cons.mp here with rfl | here
    · decide
    · have small := digits c here
      omega

/-- A file is loaded at an address in memory. -/
theorem load_spelled {A F : List Char} {a : Nat} (spells : Spells A a) (inside : a ≤ memory_size.toNat) (is_hex : Bool)
    (rest : List (List Char)) (u : Unknowns) (s : Session) {l : Loaded}
    (loaded : load_data_from_file s.files (s.stdin.getD []) u.offset (some (String.ofList F)) is_hex (BitVec.ofNat 64 a)
      s.framework = l)
    (ok : l.ok = true) : execute_load u (hexWords is_hex (A :: F :: rest)) s = .ok (s.loaded false l) := by
  have few : memory_size.toNat < 2^63 := by decide
  have within : ¬ BitVec.ofNat 64 a > memory_size := by
    show ¬ memory_size.toNat < (BitVec.ofNat 64 a).toNat
    rw [BitVec.toNat_ofNat]
    omega
  unfold execute_load
  simp only [check_for_hex_words is_hex _ (spells_not_slash spells),verify_spelled spells,Bool.true_eq_false,if_false,
    strtol₀_value spells (by omega),if_neg
    within,List.head?_cons,Option.map_some,Option.isNone_some,Bool.false_and,Bool.false_eq_true,loaded,ok,if_true]

/-- What is said before a file is loaded. -/
def loadingText (filename : String) (addr : U64) (is_hex : Bool) : String :=
  "Loading " ++ filename ++ " at 0x" ++ String.ofList (padded 16 16 addr.toNat) ++ " using " ++
  (if is_hex then "hex" else "binary") ++ "\n"

theorem binary_loaded {fopen : String → Option (List Char)} {filename : String} {file : List Char}
    (opens : fopen filename = some file) {offset addr : U64} (fits : (addr + offset).toNat + file.length < 2^64)
    (stdin : List Char) (s : Framework) :
    load_data_from_file fopen stdin offset (some filename) false addr s =
      ⟨true,[loadingText filename addr false],{ s with riscv_mem := blocksLoaded s (addr + offset).toNat file }⟩ := by
  rw [← load_blocks_eq _ _ _ _ fits]
  simp only [load_data_from_file,opened,opens,Bool.false_eq_true,if_false,reduceCtorEq]
  rfl

/-- A binary file is loaded block by block. Each block of 4096 bytes that lies in memory arrives whole and nothing
    else changes; a block that does not fit is dropped, and no complaint is made about it. The place is moved by
    what `offset` happens to hold. -/
theorem binary_load_blocks (s : Session) (u : Unknowns) (l A F : List Char) (rest : List (List Char)) (a : Nat)
    (file : List Char) (orders : Orders l .load (A :: F :: rest)) (spells : Spells A a) (inside : a ≤ memory_size.toNat)
    (opens : s.files (String.ofList F) = some file) (fits : (BitVec.ofNat 64 a + u.offset).toNat + file.length < 2^64) :
    ∃ s', execute_line u l s = .ok (true,s') ∧
      s'.pipeline = s.pipeline.withFramework { s.framework with
        riscv_mem := blocksLoaded s.framework (BitVec.ofNat 64 a + u.offset).toNat file } ∧
      s'.output = s.output ++ [(.stderr,(loadingText (String.ofList F) (BitVec.ofNat 64 a) false).toList)] := by
  have executed := load_spelled spells inside false rest u s (binary_loaded opens fits (s.stdin.getD []) s.framework)
    rfl
  have done := orders_executes orders u s
  rw [Command.execute,show A :: F :: rest = hexWords false (A :: F :: rest) from rfl,executed] at done
  exact ⟨_,done,rfl,rfl⟩

/-- Four bytes at two below the end of memory are dropped without a word. -/
theorem binary_load_blocks_dropped : ∃ s', execute_line noUnknowns "load 0x7FFFFE four\n".toList
      { sumsSession with files := fun _ => some "four".toList } = .ok (true,s') ∧
    s'.framework.riscv_mem 0x7FFFFE = 0 ∧
    s'.output = [(.stderr,"Loading four at 0x00000000007ffffe using binary\n".toList)] := by
  have place : Spells "0x7FFFFE".toList 0x7FFFFE := .hexadecimal 'x' "7FFFFE".toList (.inl rfl) (all_digits (by decide))
  obtain ⟨s',done,loaded,said⟩ :=
    binary_load_blocks { sumsSession with files := fun _ => some "four".toList } noUnknowns
    "load 0x7FFFFE four\n".toList "0x7FFFFE".toList "four".toList [] 0x7FFFFE "four".toList
    ⟨"load".toList,by decide,by decide⟩ place
    (by decide) rfl (by decide)
  refine ⟨s',done,?_,?_⟩
  · rw [Session.framework,loaded]
    decide
  · rw [said]
    decide

/-! ### Files -/

/-- The file that a line dumps to, if it does. -/
def dumpsTo (l : List Char) : Option String :=
  match tokens cmdsep ((cstring l).take (SIM_MAX_LINE-1)) with
  | [] => none
  | cmd :: words =>
    if Command.named cmd = some .dump then
      match check_for_hex words with
      | (_,_ :: _ :: name :: _) => some (String.ofList name)
      | _ => none
    else none

section
variable {u : Unknowns} {words : List (List Char)} {s s' : Session}

theorem load_files (done : execute_load u words s = .ok s') : s'.files = s.files := by
  unfold execute_load at done
  split at done
  · cases done
    rfl
  · dsimp only at done
    split_ifs at done <;> cases done <;> rfl

theorem readreg_files (done : execute_readreg words s = .ok s') : s'.files = s.files := by
  unfold execute_readreg at done
  split at done
  · cases done
  · dsimp only at done
    split_ifs at done <;> cases done <;> rfl

theorem run_files (done : execute_run u words s = .ok s') : s'.files = s.files := by
  unfold execute_run at done
  split at done
  · cases done
    rfl
  · dsimp only at done
    split_ifs at done
    · cases done
      rfl
    · split at done <;> cases done
      rfl

theorem writereg_files (words : List (List Char)) (s : Session) : (execute_writereg words s).files = s.files := by
  unfold execute_writereg
  split
  · rfl
  · dsimp only
    split_ifs
    · rfl
    · split <;> rfl

theorem warn_files (s : Session) (bad : Bool) (text : List Char) : (s.warn bad text).files = s.files := by
  cases bad <;> rfl

theorem setpc_files (words : List (List Char)) (s : Session) : (execute_setpc words s).files = s.files := by
  unfold execute_setpc
  split
  · rfl
  · dsimp only
    split_ifs <;> exact warn_files _ _ _

theorem setptbr_files (words : List (List Char)) (s : Session) : (execute_setptbr words s).files = s.files := by
  unfold execute_setptbr
  split
  · rfl
  · dsimp only
    split_ifs <;> exact warn_files _ _ _

/-- A dump changes one file. -/
theorem dump_files (done : execute_dump u words s = .ok s') {name : String}
    (other : ∀ is_hex token token' word rest, check_for_hex words = (is_hex,token :: token' :: word :: rest) →
      String.ofList word ≠ name) :
    s'.files name = s.files name := by
  unfold execute_dump at done
  split at done
  · rename_i is_hex token token' rest cut
    dsimp only at done
    have same (d : Dumped) : (s.dumped (rest.head?.map String.ofList) d).files name = s.files name := by
      cases rest with
      | nil => rfl
      | cons word rest =>
        refine if_neg fun named => ?_
        exact other _ _ _ _ _ cut named.1.symm
    split_ifs at done
    · cases done
      rfl
    · split at done
      · cases done
      · split_ifs at done <;> cases done
        · exact same _
        · exact same _
  · cases done
    rfl

theorem execute_files {command : Command} (plain : command ≠ .dump) (done : command.execute u words s = .ok s') :
    s'.files = s.files := by
  cases command with
  | load => exact load_files done
  | dump => exact absurd rfl plain
  | readreg => exact readreg_files done
  | run => exact run_files done
  | writereg =>
    cases done
    exact writereg_files words s
  | setpc =>
    cases done
    exact setpc_files words s
  | setptbr =>
    cases done
    exact setptbr_files words s
  | _ =>
    cases done
    rfl

theorem line_files {line : Line} {more : Bool} {name : String} (other : dumpsTo line.2 ≠ some name)
    (done : obey line s = .ok (more,s')) :
    s'.files name = s.files name := by
  rcases line_ok done with rfl | ⟨text,rfl⟩ | ⟨command,words,⟨cmd,cut,named⟩,executed⟩
  · rfl
  · rfl
  · by_cases dumps : command = .dump
    · subst dumps
      unfold dumpsTo at other
      rw [cut] at other
      dsimp only at other
      rw [if_pos named] at other
      refine dump_files executed fun is_hex token token' word rest found same => ?_
      rw [found] at other
      exact other (congrArg some same)
    · rw [execute_files dumps executed]

end

/-! ### Checkpoints -/

/-- A range of memory is dumped in hex. -/
theorem dump_spelled {A N F : List Char} {a n : Nat} (first : Spells A a) (count : Spells N n)
    (room : a + n ≤ memory_size.toNat) (rest : List (List Char)) (u : Unknowns) (s : Session)
    (opens : s.writable (String.ofList F) = true) {text : List Char}
    (dumped : dump_lines s.framework (BitVec.ofNat 64 a) (BitVec.ofNat 64 n) (n/16 + 1) 0 u.buf = some text) :
    ∃ s', execute_dump u (hexWords true (A :: N :: F :: rest)) s = .ok s' ∧ s'.pipeline = s.pipeline ∧ s'.log = s.log ∧
      s'.files (String.ofList F) = some text := by
  have few : memory_size.toNat < 2^63 := by decide
  have number {k : Nat} (small : k ≤ memory_size.toNat) : (BitVec.ofNat 64 k).toNat = k := by
    rw [BitVec.toNat_ofNat]
    omega
  have within : ¬ (BitVec.ofNat 64 a + BitVec.ofNat 64 n > memory_size ∨ BitVec.ofNat 64 n > memory_size) := by
    rw [← BitVec.ofNat_add]
    rintro (large | large)
    · have large : memory_size.toNat < (BitVec.ofNat 64 (a + n)).toNat := large
      rw [number room] at large
      omega
    · have large : memory_size.toNat < (BitVec.ofNat 64 n).toNat := large
      rw [number (by omega)] at large
      omega
  have openable : ∀ name ∈ some (String.ofList F), s.writable name = true := by
    intro name here
    cases here
    exact opens
  obtain ⟨said,written⟩ := dump_written openable dumped
  refine ⟨s.dumped (some (String.ofList F)) ⟨true,said,text⟩,?_,rfl,rfl,if_pos ⟨rfl,opens⟩⟩
  unfold execute_dump
  simp only [check_for_hex_words true _ (spells_not_slash first),strtol₀_value first (by omega),
    strtol₀_value count (by omega),if_neg within,
    List.head?_cons,Option.map_some,number (show n ≤ memory_size.toNat by omega),written,if_true]

/-- What is dumped loads back, from any buffer and into any memory of the size. -/
theorem dump_text {s : Framework} {a n b : Nat} (size : s.riscv_mem_size = memory_size)
    (room : b + a + n ≤ memory_size.toNat) (buf : Buffer) :
    ∃ text, dump_lines s (BitVec.ofNat 64 a) (BitVec.ofNat 64 n) (n/16 + 1) 0 buf = some text ∧
      ∀ filename (t : Framework), t.riscv_mem_size = memory_size →
        load_lines filename (BitVec.ofNat 64 b) 0 (lines 4095 text) t =
          (none,restored t s (BitVec.ofNat 64 b) a (a + n)) := by
  have few : memory_size.toNat < 2^63 := by decide
  have zero : (0 : U64).toNat = 0 := rfl
  have number {k : Nat} (small : k ≤ memory_size.toNat) : (BitVec.ofNat 64 k).toNat = k := by
    rw [BitVec.toNat_ofNat]
    omega
  have first : (BitVec.ofNat 64 a).toNat = a := number (by omega)
  have count : (BitVec.ofNat 64 n).toNat = n := number (by omega)
  have base : (BitVec.ofNat 64 b).toNat = b := number (by omega)
  have within : (BitVec.ofNat 64 a).toNat + (BitVec.ofNat 64 n).toNat ≤ s.riscv_mem_size.toNat := by rw [size]; omega
  have enough : (BitVec.ofNat 64 n).toNat ≤ (0 : U64).toNat + 16 * (n/16 + 1) := by omega
  obtain ⟨text,dumped,loads⟩ := dump_lines_load within (BitVec.ofNat 64 b) enough (by omega) buf
  refine ⟨text,dumped,fun filename t size' => ?_⟩
  have loaded := loads filename 0 t (by rw [size']; omega)
  rw [first,count,zero,Nat.add_zero] at loaded
  exact loaded

/-- A hex dump is a checkpoint. In any session, a range of memory is dumped to a file; then come any commands, as
    long as none dumps to that file. Loading the file at some base puts every byte of the range at its place from
    the base, as it was at the dump; nothing else changes, and there is no complaint. -/
theorem checkpoint_restores (outside : U64 → Byte) (read_latency write_latency : U64) (buffers : LoopLocals)
    (files : String → Option (List Char)) (writable : String → Bool) (stdin : List Char) (before middle : List Line)
    (s t : Session) (u u' : Unknowns) (l l' A N F B : List Char) (rest rest' : List (List Char)) (a n b : Nat)
    (began : session obey before (.initial outside read_latency write_latency buffers files writable stdin) =
      .ok (true,s))
    (dumps : Orders l .dump (hexWords true (A :: N :: F :: rest)))
    (loads : Orders l' .load (hexWords true (B :: F :: rest'))) (first : Spells A a) (count : Spells N n)
    (base : Spells B b) (room : b + a + n ≤ memory_size.toNat) (opens : s.writable (String.ofList F) = true)
    (others : ∀ line ∈ middle, dumpsTo line.2 ≠ some (String.ofList F))
    (went : session obey ((u,l) :: middle) s = .ok (true,t)) :
    ∃ riscv_mem, execute_line u' l' t =
      .ok (true,(t.withFramework { t.framework with riscv_mem := riscv_mem }).say .stderr
        (loadingText (String.ofList F) (BitVec.ofNat 64 b) true).toList) ∧
      (∀ i : U64, a ≤ i.toNat → i.toNat < a + n → riscv_mem (BitVec.ofNat 64 b + i) = s.framework.riscv_mem i) ∧
      ∀ o : U64, ¬ (b + a ≤ o.toNat ∧ o.toNat < b + a + n) → riscv_mem o = t.framework.riscv_mem o := by
  have start := sound_session (sound_initial outside buffers files writable stdin) began
  have size : s.framework.riscv_mem_size = memory_size := start.configured.size
  have size' : t.framework.riscv_mem_size = memory_size := (sound_session start went).configured.size
  -- the file holds the dump, and is left alone
  obtain ⟨text,dumped,loaded⟩ := dump_text size room u.buf
  obtain ⟨s',done,-,-,written⟩ := dump_spelled first count (by omega) rest u s opens dumped
  have obeyed : obey (u,l) s = .ok (true,s') := by
    rw [obey,orders_executes dumps,Command.execute,done]
    rfl
  rw [session_goes obeyed] at went
  have kept : t.files (String.ofList F) = some text := by
    refine session_invariant (fun s => s.files (String.ofList F) = some text) written ?_ went
    intro line among s t more holds ran
    rw [line_files (others line among) ran]
    exact holds
  have read : load_data_from_file t.files (t.stdin.getD []) u'.offset (some (String.ofList F)) true
    (BitVec.ofNat 64 b) t.framework =
      ⟨true,[loadingText (String.ofList F) (BitVec.ofNat 64 b) true],restored t.framework s.framework
        (BitVec.ofNat 64 b) a (a + n)⟩ := by
    simp only [load_data_from_file,opened,kept,if_true,show 4096 - 1 = 4095 from rfl,loaded _ _ size']
    rfl
  have place : (BitVec.ofNat 64 b).toNat = b := by
    have few : memory_size.toNat < 2^63 := by decide
    rw [BitVec.toNat_ofNat]
    omega
  refine ⟨(restored t.framework s.framework (BitVec.ofNat 64 b) a (a + n)).riscv_mem,?_,?_,?_⟩
  · rw [orders_executes loads,Command.execute,load_spelled base (by omega) true rest' u' t rfl (by rw [read]),read]
    rfl
  · intro i above below
    exact restored_inside t.framework s.framework (by rw [place]; omega) above below
  · intro o apart
    exact restored_outside t.framework s.framework (by rw [place]; omega)

/-- A session with an image, and a file of zeros to write over it. -/
def blankSession : Session :=
  .initial (fun _ => 0) 1 1 noUnknowns.buffers (fun name => some (if name = "blank" then "0 00 00 00 00\n"
    else sumsImage).toList) (fun _ => true) []

/-- The first word is dumped, written over with zeros and loaded back 16 bytes further. -/
theorem checkpoint_restores_sums :
    ∃ s t t', session obey [(noUnknowns,"load /x 0 image\n".toList)] blankSession = .ok (true,s) ∧
    session obey [(noUnknowns,"dump /x 0 4 save\n".toList),(noUnknowns,"load /x 0 blank\n".toList)] s = .ok (true,t) ∧
    execute_line noUnknowns "load /x 0x10 save\n".toList t = .ok (true,t') ∧
    t.framework.riscv_mem 0 = 0 ∧ s.framework.riscv_mem 0 = 0x93 ∧ t'.framework.riscv_mem 0x10 = 0x93 := by
  have result : okAnd (session obey [(noUnknowns,"load /x 0 image\n".toList)] blankSession) (fun r => r.1 && (decide
        (r.2.framework.riscv_mem 0 = 0x93 ∧ r.2.writable "save" = true) &&
      okAnd (session obey [(noUnknowns,"dump /x 0 4 save\n".toList),(noUnknowns,"load /x 0 blank\n".toList)] r.2)
      (fun r' => r'.1 && decide
        (r'.2.framework.riscv_mem 0 = 0)))) = true := by decide +kernel
  obtain ⟨⟨more,s⟩,began,shown⟩ := okAnd_iff.mp result
  obtain ⟨rfl,shown⟩ := (Bool.and_eq_true _ _).mp shown
  obtain ⟨loaded,later⟩ := (Bool.and_eq_true _ _).mp shown
  obtain ⟨⟨more',t⟩,went,shown'⟩ := okAnd_iff.mp later
  obtain ⟨rfl,blank⟩ := (Bool.and_eq_true _ _).mp shown'
  obtain ⟨word,opens⟩ := of_decide_eq_true loaded
  have zero : Spells ['0'] 0 := .octal [] (all_digits rfl)
  have four : Spells ['4'] 4 := .decimal '4' [] (by decide) (all_digits (by decide))
  have sixteen : Spells "0x10".toList 0x10 := .hexadecimal 'x' "10".toList (.inl rfl) (all_digits (by decide))
  obtain ⟨riscv_mem,done,bytes,-⟩ := checkpoint_restores _ 1 1 _ _ _ _ [(noUnknowns,"load /x 0 image\n".toList)]
    [(noUnknowns,"load /x 0 blank\n".toList)] s t noUnknowns noUnknowns "dump /x 0 4 save\n".toList
    "load /x 0x10 save\n".toList
    ['0'] ['4'] "save".toList "0x10".toList [] [] 0 4 0x10 began ⟨"dump".toList,by decide,by decide⟩
    ⟨"load".toList,by decide,by decide⟩
    zero four sixteen (by decide) opens (List.forall_mem_singleton.mpr (by decide)) went
  exact ⟨s,t,_,began,went,done,of_decide_eq_true blank,word,(bytes 0 (by decide) (by decide)).trans word⟩

end RiscvSim
