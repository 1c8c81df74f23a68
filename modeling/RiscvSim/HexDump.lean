import RiscvSim.DataFiles

/-!
A hex dump loads back. Writer and reader meet in the lines: each line of a dump has an offset
and words of two digits, is read whole, and puts its bytes where they were, moved by the base.
-/
namespace RiscvSim
open Bytes CText

/-! ### Words -/

/-- An octal digit by its value. -/
theorem octal_digit {c : Char} (small : digit c < 8) : '0' ≤ c ∧ c ≤ '7' := by
  unfold digit at small
  by_cases decimal : '0' ≤ c ∧ c ≤ '9'
  · rw [if_pos decimal] at small
    refine ⟨decimal.1,?_⟩
    show c.toNat ≤ '7'.toNat
    have zero : '0'.toNat = 48 := rfl
    have seven : '7'.toNat = 55 := rfl
    omega
  · rw [if_neg decimal] at small
    split_ifs at small <;> omega

theorem verify_octal (width n : Nat) : verify_base (padded 8 width n) 8 = true := by
  refine List.all_eq_true.mpr fun c here => ?_
  exact decide_eq_true (octal_digit (digits_padded (by decide) (by decide) width n c here))

theorem verify_hex (width n : Nat) : verify_base (padded 16 width n) 16 = true := by
  have digits : ∀ c ∈ padded 16 width n, digit c < 16 := digits_padded (by decide) (by decide) width n
  unfold verify_base
  rw [if_pos rfl,unprefixed_digits (by decide) digits]
  exact List.all_eq_true.mpr fun c here => decide_eq_true (digits c here)

theorem load_byte_printed (b : Byte) : load_byte (padded 16 2 b.toNat) = some b := by
  have small := b.isLt
  have value : (BitVec.ofInt 32 (strtol (padded 16 2 b.toNat) 16)).toInt = b.toNat := by
    rw [strtol_padded (by decide) (by decide) 2 (by omega),BitVec.toInt_ofInt]
    exact Int.bmod_eq_of_le (by omega) (by omega)
  have range : ¬ ((b.toNat : Int) < 0 ∨ (b.toNat : Int) > 255 ∨ true = false) := by
    rintro (negative | large | bad)
    · omega
    · omega
    · cases bad
  unfold load_byte
  simp only [value,verify_hex]
  rw [if_neg range,BitVec.ofInt_natCast,BitVec.ofNat_toNat,BitVec.setWidth_eq]

theorem load_bytes_printed (bytes : List Byte) :
    (bytes.map fun b => padded 16 2 b.toNat).mapM load_byte = some bytes := by
  induction bytes with
  | nil => rfl
  | cons b bytes ih => rw [List.map_cons,List.mapM_cons,load_byte_printed,ih]; rfl

/-! ### Lines -/

/-- A line of a dump, without its end. -/
def dumpText (start : Nat) (bytes : List Byte) : List Char := padded 8 12 start ++ bytes.flatMap fun b => ' ' ::
    padded 16 2 b.toNat

section
variable (start : Nat) (bytes : List Byte)

/-- The characters of a line are digits and spaces. -/
theorem dumpText_chars : ∀ c ∈ dumpText start bytes, digit c < 16 ∨ c = ' ' := by
  intro c here
  rcases List.mem_append.mp here with octal | words
  · have small : digit c < 8 := digits_padded (by decide) (by decide) 12 start c octal
    exact .inl (by omega)
  · obtain ⟨b,-,word⟩ := List.mem_flatMap.mp words
    rcases List.mem_cons.mp word with space | hex
    · exact .inr space
    · exact .inl (digits_padded (by decide) (by decide) 2 b.toNat c hex)

theorem dumpText_plain : '\n' ∉ dumpText start bytes ∧ '\x00' ∉ dumpText start bytes := by
  constructor
  · intro here
    exact absurd (dumpText_chars start bytes _ here) (by decide)
  · intro here
    exact absurd (dumpText_chars start bytes _ here) (by decide)

theorem dumpText_length (small : start < 2^63) : (dumpText start bytes).length ≤ 21 + 3 * bytes.length := by
  have octal : (padded 8 12 start).length ≤ 21 := padded_length_le (by decide) (by decide)
    (show start < 8^21 from small)
  have words : (bytes.flatMap fun b => ' ' :: padded 16 2 b.toNat).length ≤ 3 * bytes.length := by
    induction bytes with
    | nil => exact Nat.le_refl 0
    | cons b bytes ih =>
      have hex : (padded 16 2 b.toNat).length ≤ 2 := padded_length_le (by decide) (by decide)
        (show b.toNat < 16^2 from b.isLt)
      rw [List.flatMap_cons,List.length_append,List.length_cons,List.length_cons]
      omega
  rw [dumpText,List.length_append]
  omega

theorem printed_word {base : Nat} (two : 1 < base) (sixteen : base ≤ 16) (width n : Nat) :
    padded base width n ≠ [] ∧ ∀ c ∈ padded base width n, c ∉ sep := by
  refine ⟨padded_ne_nil width n,fun c here listed => ?_⟩
  have space := (digit_other sixteen (digits_padded two sixteen width n c here)).1
  simp only [sep,List.mem_cons,List.not_mem_nil,or_false] at listed
  rcases listed with rfl | rfl | rfl <;> cases space

theorem tokens_dumpText : tokens sep (dumpText start bytes ++ ['\n']) = padded 8 12 start :: bytes.map fun b =>
    padded 16 2 b.toNat := by
  have words : (bytes.flatMap fun b => ' ' :: padded 16 2 b.toNat) =
    (bytes.map fun b => padded 16 2 b.toNat).flatMap (' ' :: ·) :=
    (List.flatMap_map ..).symm
  rw [dumpText,words]
  refine tokens_words (by decide) (by decide) fun w here => ?_
  rcases List.mem_cons.mp here with rfl | listed
  · exact printed_word (by decide) (by decide) 12 start
  · obtain ⟨b,-,rfl⟩ := List.mem_map.mp listed
    exact printed_word (by decide) (by decide) 2 b.toNat

/-- A line of a dump puts its bytes at its offset from the base. -/
theorem load_line_dumped (small : start < 2^63) (filename : Option String) (addr : U64) (lineno : Nat) (t : Framework) :
    load_line filename addr lineno (dumpText start bytes ++ ['\n']) t = .ok (if bytes.length > 0 then
        (t.memory_load (fun i => bytes.getD i 0) (addr + BitVec.ofNat 64 start) (BitVec.ofNat 64 bytes.length)).2
      else t) := by
  have plain : '\x00' ∉ dumpText start bytes ++ ['\n'] := by
    rw [List.mem_append,not_or]
    exact ⟨(dumpText_plain start bytes).2,by decide⟩
  unfold load_line
  rw [cstring_self plain,tokens_dumpText]
  simp only [verify_octal,Bool.true_eq_false,if_false,load_bytes_printed,strtol_padded (by decide : 1 < 8)
    (by decide) 12 small,BitVec.ofInt_natCast]
  split_ifs <;> rfl

end

/-! ### The file -/

/-- The bytes from an address on. -/
def memoryBytes (s : Framework) (start : U64) (k : Nat) : List Byte := (List.range k).map fun i => s.riscv_mem
    (start + BitVec.ofNat 64 i)

theorem memoryBytes_length (s : Framework) (start : U64) (k : Nat) : (memoryBytes s start k).length = k := by
  simp [memoryBytes]
theorem memoryBytes_getD (s : Framework) (start : U64) {k i : Nat} (inside : i < k) :
    (memoryBytes s start k).getD i 0 = s.riscv_mem (start + BitVec.ofNat 64 i) := by simp [memoryBytes,inside]

/-- Memory with the bytes between two addresses from another one, moved by a base. -/
def restored (t s : Framework) (base : U64) (low high : Nat) : Framework :=
  { t with riscv_mem := fun o =>
      if base.toNat + low ≤ o.toNat ∧ o.toNat < base.toNat + high then s.riscv_mem (o - base) else t.riscv_mem o }

theorem mem_congr {t : Framework} {mem mem' : U64 → Byte} (same : ∀ o, mem o = mem' o) :
    ({ t with riscv_mem := mem } : Framework) = { t with riscv_mem := mem' } := by
  rw [funext same]

theorem restored_empty (t s : Framework) (base : U64) {low high : Nat} (empty : high ≤ low) :
    restored t s base low high = t :=
  mem_congr fun _ => if_neg (by omega)

theorem restored_inside (t s : Framework) {base i : U64} {low high : Nat} (fits : base.toNat + high < 2^64)
    (above : low ≤ i.toNat) (below : i.toNat < high) :
    (restored t s base low high).riscv_mem (base + i) = s.riscv_mem i := by
  have place : base.toNat + low ≤ (base + i).toNat ∧ (base + i).toNat < base.toNat + high := by bv_omega
  have back : base + i - base = i := by bv_omega
  refine (if_pos place).trans ?_
  rw [back]

theorem restored_outside (t s : Framework) {base o : U64} {low high : Nat}
    (outside : ¬ (base.toNat + low ≤ o.toNat ∧ o.toNat < base.toNat + high)) :
    (restored t s base low high).riscv_mem o = t.riscv_mem o := if_neg outside

/-- A line and the lines after it. -/
theorem restored_restored (t s : Framework) (base : U64) {low next high : Nat} (order : low ≤ next) :
    restored (restored t s base low (min next high)) s base next high = restored t s base low high := by
  refine mem_congr fun o => ?_
  simp only [restored]
  split_ifs <;> first | rfl | omega

theorem dump_line_text {s : Framework} {addr length offset k : U64}
    (count : k = if length - offset < bpl then length - offset else bpl) (passes : addr + offset + k ≤ s.riscv_mem_size)
    (buf : Buffer) :
    (dump_line s addr length offset buf).1 = dumpText (addr + offset).toNat
    (memoryBytes s (addr + offset) k.toNat) ++ ['\n'] := by
  have bytes : (List.range k.toNat).map (s.memory_dump buf (addr + offset) k).2 =
      memoryBytes s (addr + offset) k.toNat := by
    refine List.map_congr_left fun i here => ?_
    have inside : i < 0 + k.toNat := by
      rw [Nat.zero_add]
      exact List.mem_range.mp here
    have byte : copy buf 0 (fun i => s.riscv_mem (addr + offset + BitVec.ofNat 64 i)) k.toNat i =
        s.riscv_mem (addr + offset + BitVec.ofNat 64 i) := copy_inside (Nat.zero_le i) inside
    rw [Framework.memory_dump_passed passes]
    exact byte
  unfold dump_line dumpText
  rw [← count,← bytes,List.flatMap_map]

theorem memory_load_bytes {t s : Framework} {base start : U64} {k : Nat}
    (fits : base.toNat + start.toNat + k ≤ t.riscv_mem_size.toNat) :
    (t.memory_load (fun i => (memoryBytes s start k).getD i 0) (base + start) (BitVec.ofNat 64 k)).2 =
      restored t s base start.toNat (start.toNat + k) := by
  have last := t.riscv_mem_size.isLt
  have passes : base + start + BitVec.ofNat 64 k ≤ t.riscv_mem_size := by bv_omega
  rw [Framework.memory_load_passed passes]
  refine mem_congr fun o => ?_
  have inside : (o - (base + start)).toNat < (BitVec.ofNat 64 k).toNat ↔
      base.toNat + start.toNat ≤ o.toNat ∧ o.toNat < base.toNat + (start.toNat + k) := by
    constructor <;> intro range <;> bv_omega
  by_cases here : base.toNat + start.toNat ≤ o.toNat ∧ o.toNat < base.toNat + (start.toNat + k)
  · have place : start + (o - (base + start)) = o - base := by bv_omega
    have below : (o - (base + start)).toNat < k := by bv_omega
    rw [if_pos (inside.mpr here),if_pos here,memoryBytes_getD _ _ below,BitVec.ofNat_toNat,BitVec.setWidth_eq,place]
  · rw [if_neg (mt inside.mp here),if_neg here]

/-- The number of bytes in a line. -/
theorem line_bytes {n offset : U64} (more : offset < n) :
    (if n - offset < bpl then n - offset else bpl).toNat = min 16 (n.toNat - offset.toNat) := by
  have bytes : bpl.toNat = 16 := rfl
  split_ifs with short <;> bv_omega

/-- A line read from a file is loaded, and the rest after it. -/
theorem load_lines_cons {start : Nat} (small : start < 2^63) {bytes : List Byte} (some : 0 < bytes.length)
    (few : bytes.length ≤ 16) (filename : Option String) (addr : U64) (lineno : Nat) (text : List Char)
    (t : Framework) :
    load_lines filename addr lineno (lines 4095 (dumpText start bytes ++ ['\n'] ++ text)) t =
      load_lines filename addr (lineno+1) (lines 4095 text)
        (t.memory_load (fun i => bytes.getD i 0) (addr + BitVec.ofNat 64 start) (BitVec.ofNat 64 bytes.length)).2 := by
  have short := dumpText_length start bytes small
  rw [List.append_assoc,List.cons_append,List.nil_append,lines_cons (dumpText_plain start bytes).1
    (by omega),load_lines,load_line_dumped start bytes small]
  simp only [if_pos some]

theorem load_lines_ended {n offset : U64} (done : ¬ offset < n) (s t : Framework) (a base : U64)
    (filename : Option String) (lineno : Nat) :
    load_lines filename base lineno (lines 4095 []) t =
      (none,restored t s base (a.toNat + offset.toNat) (a.toNat + n.toNat)) := by
  have last : n.toNat ≤ offset.toNat := Nat.le_of_not_lt done
  rw [restored_empty _ _ _ (by omega)]
  rfl

/-- The lines of a dump from an offset on, written in enough turns, load the bytes from there on. -/
theorem dump_lines_load {s : Framework} {a n : U64} (within : a.toNat + n.toNat ≤ s.riscv_mem_size.toNat)
    (base : U64) {turns : Nat} {offset : U64} (enough : n.toNat ≤ offset.toNat + 16 * turns)
    (small : a.toNat + n.toNat < 2^63) (buf : Buffer) :
    ∃ text, dump_lines s a n turns offset buf = some text ∧ ∀ filename lineno (t : Framework),
      base.toNat + a.toNat + n.toNat ≤ t.riscv_mem_size.toNat → load_lines filename base lineno (lines 4095 text) t =
        (none,restored t s base (a.toNat + offset.toNat) (a.toNat + n.toNat)) := by
  induction turns generalizing offset buf with
  | zero =>
    have done : ¬ offset < n := Nat.not_lt.mpr enough
    exact ⟨[],if_neg done,fun filename lineno t _ => load_lines_ended done s t a base filename lineno⟩
  | succ turns ih =>
    by_cases more : offset < n
    · have bytes : bpl.toNat = 16 := rfl
      have less : offset.toNat < n.toNat := more
      have count := line_bytes more
      generalize same : (if n - offset < bpl then n - offset else bpl) = k at count
      have begins : (a + offset).toNat = a.toNat + offset.toNat := by bv_omega
      have next : (offset + bpl).toNat = offset.toNat + 16 := by bv_omega
      have passes : a + offset + k ≤ s.riscv_mem_size := by bv_omega
      have reached : min (a.toNat + (offset + bpl).toNat) (a.toNat + n.toNat) = (a + offset).toNat + k.toNat := by omega
      have length := memoryBytes_length s (a + offset) k.toNat
      obtain ⟨text,dumped,loaded⟩ := @ih (offset + bpl) (by omega) (dump_line s a n offset buf).2
      refine ⟨(dump_line s a n offset buf).1 ++ text,?_,fun filename lineno t fits => ?_⟩
      · rw [dump_lines,if_pos more]
        simp only [dumped,Option.map_some]
      · rw [dump_line_text same.symm passes,load_lines_cons (by omega) (by omega) (by omega),length,
          BitVec.ofNat_toNat 64 (a + offset),
          BitVec.setWidth_eq,memory_load_bytes (by omega),loaded _ _ (restored ..) fits,←
          reached,begins,restored_restored _ _ _ (by omega)]
    · exact ⟨[],if_neg more,fun filename lineno t _ => load_lines_ended more s t a base filename lineno⟩

/-- A line that `fgets` delivers has no more bytes than `membuf`. -/
theorem bytes_fit_membuf {file buf tok : List Char} {toks : List (List Char)} (read : buf ∈ lines 4095 file)
    (split : tokens sep (cstring buf) = tok :: toks) : toks.length < 2048 := by
  have words := tokens_length sep (cstring buf)
  have line : buf.length ≤ 4094 := lines_length read
  have string := cstring_length buf
  rw [split,List.length_cons] at words
  omega

theorem dump_written {turns : Nat} {writable : String → Bool} {buf : Buffer} {filename : Option String} {a n : U64}
    {s : Framework} {text : List Char} (opens : ∀ name ∈ filename, writable name = true)
    (dumped : dump_lines s a n turns 0 buf = some text) :
    ∃ said, dump_data_to_file turns writable buf filename true a n s = some ⟨true,said,text⟩ := by
  have openable : filename.any (fun name => !writable name) = false := by
    cases filename with
    | none => rfl
    | some name => simp [opens name rfl]
  simp only [dump_data_to_file,openable,Bool.false_eq_true,if_false,if_true,dumped,Option.map_some]
  exact ⟨_,rfl⟩

theorem dump_loaded {fopen : String → Option (List Char)} {stdin : List Char} {filename : Option String} {base : U64}
    {t t' : Framework} {text : List Char} (file : opened fopen stdin filename = some text)
    (loads : load_lines filename base 0 (lines 4095 text) t = (none,t')) (offset : U64) :
    ∃ said, load_data_from_file fopen stdin offset filename true base t = ⟨true,said,t'⟩ := by
  simp only [load_data_from_file,file,if_true,show 4096 - 1 = 4095 from rfl,loads]
  exact ⟨_,rfl⟩

/-- A hex dump is written in enough turns of the loop, and loading it puts every dumped byte at its
    place from the base, leaves the other bytes and says nothing is wrong. -/
theorem hex_dump_loads_back (s t : Framework) (a n base : U64) (within : a.toNat + n.toNat ≤ s.riscv_mem_size.toNat)
    (fits : base.toNat + a.toNat + n.toNat ≤ t.riscv_mem_size.toNat) (size : t.riscv_mem_size.toNat < 2^63)
    (turns : Nat) (enough : n.toNat / 16 + 1 ≤ turns) (writable : String → Bool) (buf : Buffer)
    (filename : Option String) (opens : ∀ name ∈ filename, writable name = true) :
    ∃ d, dump_data_to_file turns writable buf filename true a n s = some d ∧ d.ok = true ∧
      ∀ fopen stdin offset filename' l, opened fopen stdin filename' = some d.text →
        load_data_from_file fopen stdin offset filename' true base t = l →
        l.ok = true ∧
        (∀ i : U64, a.toNat ≤ i.toNat → i.toNat < a.toNat + n.toNat →
          l.framework.riscv_mem (base + i) = s.riscv_mem i) ∧
        (∀ o : U64, ¬ (base.toNat + a.toNat ≤ o.toNat ∧ o.toNat < base.toNat + a.toNat + n.toNat) →
          l.framework.riscv_mem o = t.riscv_mem o) ∧
        l.framework = { t with riscv_mem := l.framework.riscv_mem } := by
  have zero : (0 : U64).toNat = 0 := rfl
  obtain ⟨text,dumped,loads⟩ := dump_lines_load within base (show n.toNat ≤ (0 : U64).toNat + 16 * turns by omega)
    (by omega) buf
  obtain ⟨said,written⟩ := dump_written opens dumped
  refine ⟨_,written,rfl,?_⟩
  rintro fopen stdin offset filename' l file rfl
  obtain ⟨said',result⟩ := dump_loaded file (loads filename' 0 t fits) offset
  rw [result,zero,Nat.add_zero]
  refine ⟨rfl,fun i low high => ?_,fun o outside => ?_,rfl⟩
  · exact restored_inside t s (by omega) low high
  · exact restored_outside t s (by omega)

/-- Twenty bytes are dumped at 0x1000 and loaded 0x2000 above. -/
theorem hex_dump_loads_back_twenty :
    ∃ d, dump_data_to_file 2 (fun _ => true) (fun _ => 0) (some "dump") true 0x1000 20
    (.initial (fun o => o.setWidth 8) 0 0 0) = some d ∧
      (load_data_from_file (fun _ => some d.text) [] 0 (some "dump") true 0x2000 (.initial (fun _ => 0) 0 0 0)).ok =
        true ∧
      (load_data_from_file (fun _ => some d.text) [] 0 (some "dump") true 0x2000
        (.initial (fun _ => 0) 0 0 0)).framework.riscv_mem 0x3011 = 0x11 := by
  obtain ⟨d,dumped,-,loads⟩ := hex_dump_loads_back (.initial (fun o => o.setWidth 8) 0 0 0)
    (.initial (fun _ => 0) 0 0 0) 0x1000 20 0x2000
    (by decide) (by decide) (by decide) 2 (by decide) (fun _ => true) (fun _ => 0) (some "dump") (fun _ _ => rfl)
  obtain ⟨accepted,bytes,-⟩ := loads (fun _ => some d.text) [] 0 (some "dump") _ rfl rfl
  exact ⟨d,dumped,accepted,bytes 0x1011 (by decide) (by decide)⟩

example : dump_lines (.initial (fun o => o.setWidth 8) 0 0 0) 0x1F 3 1 0 (fun _ => 0) =
    some "000000000037 1f 20 21\n".toList := by decide

end RiscvSim
