import RiscvSim.Commands

/-!
The dump of the registers, which is what the tests of the repository compare. Read by its names, the text gives
the values of the registers, zero where there is no line; so two dumps are the same exactly if the
registers other than x0 are.
-/
namespace RiscvSim
open Bytes Runs CText Scripts

/-! ### Writing -/

/-- The text of a dump. -/
def registerText (file : RegisterFile) : List Char := (List.range RISCV_NUM_REGISTERS).flatMap (dump_reg_line file)

def regName (i : Nat) : List Char := (abi_regs.getD i "").toList

/-- A line without its end. -/
def regLine (file : RegisterFile) (i : Nat) : Option (List Char) :=
  let val := file.register_read_one (BitVec.ofNat 64 i)
  if val ≠ 0 then some (regName i ++ ": 0x".toList ++ capitals 16 val.toNat) else none

theorem dump_reg_line_eq (file : RegisterFile) (i : Nat) :
    dump_reg_line file i = ((regLine file i).map (· ++ ['\n'])).getD [] := by
  unfold dump_reg_line regLine
  dsimp only
  split_ifs <;> rfl

theorem dump_reg_written (channel : Channel) (s : Session) :
    (dump_reg channel s).written channel = s.written channel ++ registerText s.pipeline.register_file := by
  unfold dump_reg Session.written registerText
  rw [textOn_append]
  congr 1
  rw [textOn,List.flatMap_map]
  simp only [if_true]

/-! ### Reading -/

/-- The value for a register name in the text of a dump. -/
def readback (text name : List Char) : Nat :=
  match (tokens ['\n'] text).find? (fun line => line.takeWhile (· ≠ ':') == name) with
  | some line => number 16 (line.drop (name.length + 4))
  | none => 0

theorem capitals_digits (width n : Nat) : ∀ c ∈ capitals width n, digit c < 16 := by
  intro c here
  obtain ⟨d,among,rfl⟩ := List.mem_map.mp here
  have small : digit d < 16 := digits_padded (by decide) (by decide) width n d among
  rw [digit_toUpper small]
  exact small

theorem number_capitals (width n : Nat) : number 16 (capitals width n) = n := by
  have upper (s : List Char) (start : Nat) (digits : ∀ c ∈ s, digit c < 16) :
      (s.map Char.toUpper).foldl (fun n c => 16 * n + digit c) start = s.foldl (fun n c => 16 * n + digit c) start := by
    induction s generalizing start with
    | nil => rfl
    | cons c s ih =>
      rw [List.map_cons,List.foldl_cons,List.foldl_cons,digit_toUpper (digits c List.mem_cons_self)]
      exact ih _ fun d here => digits d (List.mem_cons_of_mem _ here)
  exact (upper _ 0 (digits_padded (by decide) (by decide) width n)).trans
    (number_padded (by decide) (by decide) width n)

/-- The names have no colons or ends of lines in them, and differ. -/
theorem regName_chars {i : Nat} (small : i < 32) : ∀ c ∈ regName i, c ≠ ':' ∧ c ≠ '\n' := by
  have all : ((List.range 32).all fun i => (regName i).all fun c => decide (c ≠ ':' ∧ c ≠ '\n')) = true := by
    decide +kernel
  intro c here
  exact of_decide_eq_true (List.all_eq_true.mp (List.all_eq_true.mp all i (List.mem_range.mpr small)) c here)

theorem regName_injective {i j : Nat} (small : i < 32) (small' : j < 32) (same : regName i = regName j) : i = j := by
  have all : ((List.range 32).all fun i => (List.range 32).all fun j => decide (regName i = regName j → i = j)) =
    true := by decide +kernel
  have row := List.all_eq_true.mp all i (List.mem_range.mpr small)
  exact of_decide_eq_true (List.all_eq_true.mp row j (List.mem_range.mpr small')) same

section
variable {file : RegisterFile} {i : Nat} {line : List Char}

theorem regLine_some (here : regLine file i = some line) :
    line = regName i ++ ": 0x".toList ++ capitals 16 (file.register_read_one (BitVec.ofNat 64 i)).toNat := by
  unfold regLine at here
  dsimp only at here
  split_ifs at here
  exact (Option.some.inj here).symm

theorem regLine_word (small : i < 32) (here : regLine file i = some line) : line ≠ [] ∧ ∀ c ∈ line, c ∉ ['\n'] := by
  rw [regLine_some here]
  constructor
  · simp
  · intro c among ending
    obtain rfl := List.mem_singleton.mp ending
    rcases List.mem_append.mp among with among | digits
    · rcases List.mem_append.mp among with name | text
      · exact (regName_chars small _ name).2 rfl
      · exact absurd text (by decide)
    · exact absurd (capitals_digits _ _ _ digits) (by decide)

theorem regLine_name (small : i < 32) (here : regLine file i = some line) : line.takeWhile (· ≠ ':') = regName i := by
  rw [regLine_some here,List.append_assoc,List.takeWhile_append_of_pos
    (by simpa using fun c among => (regName_chars small c among).1)]
  simp

/-- The words between the ends of the lines are the lines. -/
theorem tokens_registers {file : RegisterFile} {is : List Nat} (small : ∀ i ∈ is, i < 32) :
    tokens ['\n'] (is.flatMap (dump_reg_line file)) = is.filterMap (regLine file) := by
  induction is with
  | nil => rfl
  | cons i is ih =>
    have rest := ih fun j among => small j (List.mem_cons_of_mem _ among)
    rw [List.flatMap_cons,dump_reg_line_eq]
    cases here : regLine file i with
    | none =>
      rw [List.filterMap_cons_none here]
      exact rest
    | some line =>
      obtain ⟨some,inside⟩ := regLine_word (small i List.mem_cons_self) here
      rw [List.filterMap_cons_some here,← rest]
      show tokens ['\n'] (line ++ ['\n'] ++ _) = _
      rw [List.append_assoc]
      exact tokens_cons some inside List.mem_cons_self

end

/-- A line of a dump is that of the register it names. -/
theorem registers_line {file : RegisterFile} {i : Nat} {line : List Char} (small : i < 32)
    (among : line ∈ (List.range RISCV_NUM_REGISTERS).filterMap (regLine file))
    (named : line.takeWhile (· ≠ ':') = regName i) :
    regLine file i = some line := by
  obtain ⟨j,inside,here⟩ := List.mem_filterMap.mp among
  have small' : j < 32 := List.mem_range.mp inside
  have same : j = i := regName_injective small' small ((regLine_name small' here).symm.trans named)
  rw [← same]
  exact here

/-- A dump is read back. -/
theorem readback_registers (file : RegisterFile) {i : Nat} (small : i < 32) :
    readback (registerText file) (regName i) = (file.register_read_one (BitVec.ofNat 64 i)).toNat := by
  have below : ∀ j ∈ List.range RISCV_NUM_REGISTERS, j < 32 := fun _ inside => List.mem_range.mp inside
  unfold readback
  rw [registerText,tokens_registers below]
  cases found : ((List.range RISCV_NUM_REGISTERS).filterMap (regLine file)).find?
    (fun line => line.takeWhile (· ≠ ':') == regName i) with
  | none =>
    have zero : file.register_read_one (BitVec.ofNat 64 i) = 0 := by
      by_contra nonzero
      have here : regLine file i =
        some (regName i ++ ": 0x".toList ++ capitals 16 (file.register_read_one (BitVec.ofNat 64 i)).toNat) :=
        if_pos nonzero
      have among := List.mem_filterMap.mpr ⟨i,List.mem_range.mpr small,here⟩
      exact List.find?_eq_none.mp found _ among (beq_iff_eq.mpr (regLine_name small here))
    rw [zero]
    rfl
  | some line =>
    have named := List.find?_some found
    rw [beq_iff_eq] at named
    have here := registers_line small (List.mem_of_find?_eq_some found) named
    dsimp only
    rw [regLine_some here,List.drop_append_of_le_length (by simp)]
    have none : (regName i ++ ": 0x".toList).drop ((regName i).length + 4) = [] := List.drop_eq_nil_of_le (by simp)
    rw [none,List.nil_append,number_capitals]

/-- The text of a dump is that of the registers but x0. -/
theorem registerText_eq_iff (file file' : RegisterFile) :
    registerText file = registerText file' ↔ ∀ r : BitVec 5, r ≠ 0 → file r = file' r := by
  constructor
  · intro same r nonzero
    have value := (readback_registers file r.isLt).symm.trans
      ((congrArg (readback · _) same).trans (readback_registers file' r.isLt))
    have number : ((BitVec.ofNat 64 r.toNat).setWidth 5 : BitVec 5) = r := by
      rw [BitVec.setWidth_ofNat_of_le (by decide),BitVec.ofNat_toNat,BitVec.setWidth_eq]
    have positive : 0#5 < r := by bv_omega
    simpa [RegisterFile.register_read_one,number,if_pos positive,BitVec.toNat_inj] using value
  · intro same
    have reads : ∀ reg, file.register_read_one reg = file'.register_read_one reg := by
      intro reg
      unfold RegisterFile.register_read_one
      split
      · rename_i positive
        exact same _ (by bv_omega)
      · rfl
    unfold registerText dump_reg_line
    simp only [reads]

/-- The tests compare registers. Two sessions that obey `test_dump_reg` add the same text to descriptor 3 exactly if
    their registers other than x0 hold the same values, and every value can be read off the text by the register's
    name. -/
theorem register_dumps_compare (s t : Session) (u u' : Unknowns) (l l' : List Char) (words words' : List (List Char))
    (orders : Orders l .test_dump_reg words) (orders' : Orders l' .test_dump_reg words') :
    ∃ s' t' text text', execute_line u l s = .ok (true,s') ∧ execute_line u' l' t = .ok (true,t') ∧
      s'.written .fd3 = s.written .fd3 ++ text ∧ t'.written .fd3 = t.written .fd3 ++ text' ∧
      (text = text' ↔ ∀ r : BitVec 5, r ≠ 0 → s.pipeline.register_file r = t.pipeline.register_file r) ∧
      ∀ i < 32, readback text (regName i) = (s.pipeline.register_file.register_read_one (BitVec.ofNat 64 i)).toNat := by
  refine ⟨dump_reg .fd3 s,dump_reg .fd3 t,registerText s.pipeline.register_file,registerText t.pipeline.register_file,
    ?_,?_,
    dump_reg_written .fd3 s,dump_reg_written .fd3 t,registerText_eq_iff _ _,fun i small => readback_registers _ small⟩
  · rw [orders_executes orders]
    rfl
  · rw [orders_executes orders']
    rfl

/-- x5 with a 10 in it is called t0. -/
theorem register_dumps_compare_ten : ∃ s', execute_line noUnknowns "test_dump_reg\n".toList
    (sumsSession.withRegister 5 10) = .ok (true,s') ∧
    s'.written .fd3 = "t0: 0x000000000000000A\n".toList ∧ readback (s'.written .fd3) "t0".toList = 10 := by
  obtain ⟨s',t',text,text',done,-,written,-,-,values⟩ := register_dumps_compare (sumsSession.withRegister 5 10)
    sumsSession noUnknowns noUnknowns
    "test_dump_reg\n".toList "test_dump_reg\n".toList [] [] ⟨"test_dump_reg".toList,by decide,by decide⟩
    ⟨"test_dump_reg".toList,by decide,by decide⟩
  have result : okAnd (execute_line noUnknowns "test_dump_reg\n".toList (sumsSession.withRegister 5 10))
    (fun r => decide
      (r.2.written .fd3 = "t0: 0x000000000000000A\n".toList)) = true := by decide +kernel
  obtain ⟨r,done',shown⟩ := okAnd_iff.mp result
  cases done.symm.trans done'
  refine ⟨s',done,of_decide_eq_true shown,?_⟩
  rw [written]
  exact values 5 (by decide)

end RiscvSim
