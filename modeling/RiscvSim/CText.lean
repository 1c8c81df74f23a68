import Mathlib.Data.List.TakeWhile
import Mathlib.Tactic

/-!
Text as the C library reads and prints it. A character is a byte of the file. `fgets` takes
a line, `tokens` are what the calls of `strtok_r` on it return, `strtol` reads a number and
`padded` prints one with leading zeros. A printed number is read back, and so are a line of
printed numbers and a file of such lines.
-/
namespace RiscvSim.CText

/-! ### Numbers -/

/-- The value of a digit or letter, and 36 for any other character. -/
def digit (c : Char) : Nat :=
  if '0' ≤ c ∧ c ≤ '9' then c.toNat - '0'.toNat
  else if 'a' ≤ c ∧ c ≤ 'z' then c.toNat - 'a'.toNat + 10
  else if 'A' ≤ c ∧ c ≤ 'Z' then c.toNat - 'A'.toNat + 10
  else 36

def isxdigit (c : Char) : Bool := digit c < 16
def isspace (c : Char) : Bool := c ∈ [' ','\t','\n','\x0b','\x0c','\r']

/-- The number that digits write, the highest first. -/
def number (base : Nat) (s : List Char) : Nat := s.foldl (fun n c => base * n + digit c) 0

/-- The text after a leading `0x` or `0X`. -/
def unprefixed : List Char → List Char
  | '0' :: 'x' :: rest => rest
  | '0' :: 'X' :: rest => rest
  | s => s

/-- The sign of a number, true for a minus, and the text after it. -/
def signed : List Char → Bool × List Char
  | '-' :: rest => (true,rest)
  | '+' :: rest => (false,rest)
  | s => (false,s)

/-- The call `strtol (s, NULL, base)`, with a `long` of 64 bits. -/
def strtol (s : List Char) (base : Nat) : Int :=
  let (negative,s) := signed (s.dropWhile isspace)
  let s := if base = 16 then unprefixed s else s
  let n : Int := number base (s.takeWhile fun c => digit c < base)
  if negative then max (-2^63) (-n) else min (2^63 - 1) n

/-- The conversions `%0wo` and `%0wx`, for a width `w`. -/
def padded (base width n : Nat) : List Char := (Nat.toDigits base n).leftpad width '0'

section
variable {base : Nat}

theorem number_append (s : List Char) (c : Char) : number base (s ++ [c]) = base * number base s + digit c :=
  List.foldl_concat _ _ _ _
theorem number_zeros (k : Nat) (s : List Char) : number base (List.replicate k '0' ++ s) = number base s := by
  rw [number,List.foldl_append]
  congr 1
  induction k with
  | zero => rfl
  | succ k ih =>
    rw [List.replicate_succ',List.foldl_concat,ih]
    rfl

theorem digit_digitChar {d : Nat} (small : d < 16) : digit d.digitChar = d := by
  interval_cases d <;> decide

variable (two : 1 < base) (sixteen : base ≤ 16)
include two sixteen

theorem number_toDigits (n : Nat) : number base (Nat.toDigits base n) = n := by
  induction n using Nat.strongRecOn with
  | ind n ih =>
    rw [Nat.toDigits_eq_if two]
    by_cases small : n < base
    · rw [if_pos small,number,List.foldl_cons,List.foldl_nil,digit_digitChar (by omega)]
      omega
    · have last : n % base < base := Nat.mod_lt _ (by omega)
      rw [if_neg small,number_append,ih (n/base) (Nat.div_lt_self (by omega) two),digit_digitChar (by omega),
        Nat.div_add_mod]
theorem digits_toDigits (n : Nat) : ∀ c ∈ Nat.toDigits base n, digit c < base := by
  induction n using Nat.strongRecOn with
  | ind n ih =>
    rw [Nat.toDigits_eq_if two]
    by_cases small : n < base
    · rw [if_pos small]
      intro c here
      rw [List.mem_singleton.mp here,digit_digitChar (by omega)]
      exact small
    · have last : n % base < base := Nat.mod_lt _ (by omega)
      rw [if_neg small]
      intro c here
      rcases List.mem_append.mp here with high | low
      · exact ih (n/base) (Nat.div_lt_self (by omega) two) c high
      · rw [List.mem_singleton.mp low,digit_digitChar (by omega)]
        exact last

theorem number_padded (width n : Nat) : number base (padded base width n) = n := by
  rw [padded,List.leftpad,number_zeros,number_toDigits two sixteen]
omit two sixteen in
theorem padded_ne_nil (width n : Nat) :
    padded base width n ≠ [] := List.append_ne_nil_of_right_ne_nil _ Nat.toDigits_ne_nil
omit sixteen in
theorem padded_length_le {digits width n : Nat} (some : 0 < digits) (fits : n < base^digits) :
    (padded base width n).length ≤ max width digits := by
  have needed : (Nat.toDigits base n).length ≤ digits := (Nat.length_toDigits_le_iff two some).mpr fits
  rw [padded,List.leftpad,List.length_append,List.length_replicate]
  omega
theorem digits_padded (width n : Nat) : ∀ c ∈ padded base width n, digit c < base := by
  intro c here
  rcases List.mem_append.mp here with zero | digits
  · rw [List.eq_of_mem_replicate zero]
    exact Nat.lt_of_lt_of_le (by decide) two.le
  · exact digits_toDigits two sixteen n c digits

omit two in
/-- Digits are no spaces, signs or prefixes. -/
theorem digit_other {c : Char} (here : digit c < base) : isspace c = false ∧ c ≠ '-' ∧ c ≠ '+' ∧ c ≠ 'x' ∧ c ≠ 'X' ∧
    c ≠ '\x00' := by
  have value : [' ','\t','\n','\x0b','\x0c','\r','-','+','x','X','\x00'].all (16 ≤ digit ·) = true := by decide
  have apart : ∀ d ∈ [' ','\t','\n','\x0b','\x0c','\r','-','+','x','X','\x00'], c ≠ d := by
    rintro d listed rfl
    have large := of_decide_eq_true (List.all_eq_true.mp value c listed)
    omega
  simp only [List.mem_cons,List.not_mem_nil,or_false,forall_eq_or_imp,forall_eq] at apart
  simpa [isspace,and_assoc] using apart

omit two in
theorem unprefixed_digits {s : List Char} (digits : ∀ c ∈ s, digit c < base) : unprefixed s = s := by
  unfold unprefixed
  split
  · exact absurd rfl (digit_other sixteen (digits 'x' (by simp))).2.2.2.1
  · exact absurd rfl (digit_other sixteen (digits 'X' (by simp))).2.2.2.2.1
  · rfl

omit two in
theorem strtol_digits {s : List Char} (digits : ∀ c ∈ s, digit c < base) (small : number base s < 2^63) :
    strtol s base = number base s := by
  have spaces : s.dropWhile isspace = s := by
    cases s with
    | nil => rfl
    | cons c rest => exact List.dropWhile_cons_of_neg (by simp [(digit_other sixteen (digits c List.mem_cons_self)).1])
  have unsigned : signed s = (false,s) := by
    unfold signed
    split
    · exact absurd rfl (digit_other sixteen (digits '-' List.mem_cons_self)).2.1
    · exact absurd rfl (digit_other sixteen (digits '+' List.mem_cons_self)).2.2.1
    · rfl
  have whole : s.takeWhile (fun c => digit c < base) = s := List.takeWhile_eq_self_iff.mpr (by simpa using digits)
  unfold strtol
  rw [spaces,unsigned]
  simp only [unprefixed_digits sixteen digits,ite_self,whole,Bool.false_eq_true,if_false]
  omega

/-- A printed number is read back. -/
theorem strtol_padded (width : Nat) {n : Nat} (small : n < 2^63) : strtol (padded base width n) base = n := by
  have value := number_padded two sixteen width n
  rw [strtol_digits sixteen (digits_padded two sixteen width n) (by rw [value]; exact small),value]

end

/-! ### Words -/

/-- The characters before the end of a string. -/
def cstring (s : List Char) : List Char := s.takeWhile (· ≠ '\x00')

/-- What `strtok_r` returns for a string, from the first call to the one that returns `NULL`. -/
def tokens (sep : List Char) (s : List Char) : List (List Char) := (s.splitOnP (· ∈ sep)).filter (· ≠ [])

theorem tokens_cons {sep word rest : List Char} {c : Char} (some : word ≠ []) (inside : ∀ d ∈ word, d ∉ sep)
    (ends : c ∈ sep) :
    tokens sep (word ++ c :: rest) = word :: tokens sep rest := by
  rw [tokens,List.splitOnP_append_cons_of_forall_mem (by simpa using inside) c (by simpa using ends),
    List.filter_cons_of_pos (by simpa using some)]
  rfl

/-- Words with a separator before each but the first, and one at the end. -/
theorem tokens_words {sep : List Char} {c last : Char} (between : c ∈ sep) (ends : last ∈ sep)
    {words : List (List Char)} {word : List Char} (proper : ∀ w ∈ word :: words, w ≠ [] ∧ ∀ d ∈ w, d ∉ sep) :
    tokens sep (word ++ words.flatMap (c :: ·) ++ [last]) = word :: words := by
  induction words generalizing word with
  | nil =>
    obtain ⟨some,inside⟩ := proper word List.mem_cons_self
    rw [List.flatMap_nil,List.append_nil,tokens_cons some inside ends]
    rfl
  | cons next words ih =>
    obtain ⟨some,inside⟩ := proper word List.mem_cons_self
    rw [List.flatMap_cons,List.append_assoc,List.append_assoc,List.cons_append,tokens_cons some inside between,
      ← List.append_assoc,ih fun w here => proper w (List.mem_cons_of_mem _ here)]

/-- There is a separator between two words. -/
theorem tokens_length (sep s : List Char) : 2 * (tokens sep s).length ≤ s.length + 1 := by
  -- without a word at the start, one character less is left for the words
  suffices both : 2 * (tokens sep s).length ≤ s.length + 1 ∧
      ((s.splitOnP (· ∈ sep)).head? = some [] → 2 * (tokens sep s).length ≤ s.length) from both.1
  induction s with
  | nil => exact ⟨Nat.zero_le 1,fun _ => Nat.le_refl 0⟩
  | cons c s ih =>
    obtain ⟨all,free⟩ := ih
    unfold tokens at all free ⊢
    rw [List.splitOnP_cons_eq_if_modifyHead]
    by_cases ends : c ∈ sep
    · simp only [ends,decide_true,if_true]
      rw [List.filter_cons_of_neg (by simp)]
      exact ⟨all.trans (Nat.le_succ _),fun _ => all⟩
    · simp only [ends,decide_false,Bool.false_eq_true,if_false]
      cases pieces : s.splitOnP (· ∈ sep) with
      | nil => exact absurd pieces (List.splitOnP_ne_nil _ _)
      | cons word rest =>
        rw [pieces] at all free
        rw [List.modifyHead_cons,List.filter_cons_of_pos (by simp)]
        refine ⟨?_,nofun⟩
        by_cases empty : word = []
        · have bound := free (by rw [empty]; rfl)
          rw [empty,List.filter_cons_of_neg (by simp)] at bound
          simp only [List.length_cons]
          omega
        · rw [List.filter_cons_of_pos (by simpa using empty)] at all
          exact all.trans (Nat.le_succ _)

theorem cstring_length (s : List Char) : (cstring s).length ≤ s.length := (List.takeWhile_sublist _).length_le
theorem cstring_self {s : List Char} (inside : '\x00' ∉ s) : cstring s = s :=
  List.takeWhile_eq_self_iff.mpr fun _ here => decide_eq_true (ne_of_mem_of_not_mem here inside)

/-! ### Lines -/

/-- At most so many characters, up to the end of the line. -/
def takeLine : Nat → List Char → List Char × List Char
  | 0,input => ([],input)
  | _,[] => ([],[])
  | room+1,c :: input => if c = '\n' then ([c],input) else ((takeLine room input).1.cons c,(takeLine room input).2)

/-- The call `fgets (buf, size, fp)`: the characters put in the buffer and the rest of the file. -/
def fgets (size : Nat) (input : List Char) : Option (List Char × List Char) :=
  if input = [] then none else some (takeLine (size-1) input)

/-- What `fgets` puts in the buffer, call after call. -/
def linesUpTo (size : Nat) : Nat → List Char → List (List Char)
  | 0,_ => []
  | calls+1,input =>
    match fgets size input with
    | none => []
    | some (line,rest) => line :: linesUpTo size calls rest
/-- All lines of a file. Each takes a character at least, so there are no more than those. -/
def lines (size : Nat) (input : List Char) : List (List Char) := linesUpTo size input.length input

theorem takeLine_line {line rest : List Char} {room : Nat} (inside : '\n' ∉ line) (fits : line.length < room) :
    takeLine room (line ++ '\n' :: rest) = (line ++ ['\n'],rest) := by
  induction line generalizing room with
  | nil =>
    obtain ⟨room,rfl⟩ := Nat.exists_eq_succ_of_ne_zero (Nat.ne_zero_of_lt fits)
    exact if_pos rfl
  | cons c line ih =>
    obtain ⟨room,rfl⟩ := Nat.exists_eq_succ_of_ne_zero (Nat.ne_zero_of_lt fits)
    have other : c ≠ '\n' := fun same => inside (same ▸ List.mem_cons_self)
    rw [List.cons_append,takeLine,if_neg other,ih (fun here => inside (List.mem_cons_of_mem _ here))
      (Nat.lt_of_succ_lt_succ fits)]
    rfl

theorem takeLine_shorter (room : Nat) (c : Char) (input : List Char) :
    (takeLine (room+1) (c :: input)).2.length ≤ input.length := by
  induction room generalizing c input with
  | zero =>
    rw [takeLine]
    split <;> exact Nat.le_refl _
  | succ room ih =>
    rw [takeLine]
    split
    · exact Nat.le_refl _
    · cases input with
      | nil => exact Nat.le_refl _
      | cons d input => exact (ih d input).trans (Nat.le_succ _)

theorem fgets_shorter {size : Nat} (room : 2 ≤ size) {input line rest : List Char}
    (read : fgets size input = some (line,rest)) :
    rest.length < input.length := by
  cases input with
  | nil => cases read
  | cons c input =>
    have taken : takeLine (size-1) (c :: input) = (line,rest) := Option.some.inj read
    obtain ⟨k,size⟩ : ∃ k, size - 1 = k + 1 := ⟨size-2,by omega⟩
    have shorter := takeLine_shorter k c input
    rw [← size,taken] at shorter
    exact Nat.lt_succ_of_le shorter

theorem takeLine_length (room : Nat) (input : List Char) : (takeLine room input).1.length ≤ room := by
  induction room generalizing input with
  | zero => exact Nat.le_refl _
  | succ room ih =>
    cases input with
    | nil => exact Nat.zero_le _
    | cons c input =>
      rw [takeLine]
      split
      · exact Nat.succ_le_succ (Nat.zero_le _)
      · exact Nat.succ_le_succ (ih input)

theorem lines_length {size : Nat} {input line : List Char} (read : line ∈ lines size input) : line.length ≤ size-1 := by
  unfold lines at read
  generalize input.length = calls at read
  induction calls generalizing input with
  | zero => cases read
  | succ calls ih =>
    rw [linesUpTo] at read
    unfold fgets at read
    by_cases empty : input = []
    · rw [if_pos empty] at read
      cases read
    · rw [if_neg empty] at read
      rcases List.mem_cons.mp read with rfl | later
      · exact takeLine_length _ _
      · exact ih later

/-- More calls than there are characters read nothing more. -/
theorem linesUpTo_enough {size : Nat} (room : 2 ≤ size) {calls calls' : Nat} {input : List Char}
    (enough : input.length ≤ calls) (enough' : input.length ≤ calls') :
    linesUpTo size calls input = linesUpTo size calls' input := by
  have empty : ∀ calls, linesUpTo size calls [] = [] := by
    intro calls
    cases calls <;> rfl
  induction calls generalizing calls' input with
  | zero =>
    rw [List.eq_nil_of_length_eq_zero (Nat.le_zero.mp enough),empty,empty]
  | succ calls ih =>
    cases calls' with
    | zero => rw [List.eq_nil_of_length_eq_zero (Nat.le_zero.mp enough'),empty,empty]
    | succ calls' =>
      rw [linesUpTo,linesUpTo]
      cases read : fgets size input with
      | none => rfl
      | some taken =>
        have shorter := fgets_shorter room read
        exact congrArg (taken.1 :: ·) (ih (by omega) (by omega))

/-- The loop `while (fgets (buf, size, fp) != NULL)`. -/
theorem lines_eq {size : Nat} (room : 2 ≤ size) (input : List Char) : lines size input =
    match fgets size input with
    | none => []
    | some (line,rest) => line :: lines size rest := by
  cases input with
  | nil => rfl
  | cons c input =>
    rw [lines,List.length_cons,linesUpTo]
    cases read : fgets size (c :: input) with
    | none => rfl
    | some taken =>
      have shorter := fgets_shorter room read
      exact congrArg (taken.1 :: ·) (linesUpTo_enough room (Nat.le_of_lt_succ shorter) (Nat.le_refl _))

theorem lines_cons {size : Nat} {line rest : List Char} (inside : '\n' ∉ line) (fits : line.length + 1 < size) :
    lines size (line ++ '\n' :: rest) = (line ++ ['\n']) :: lines size rest := by
  have read : fgets size (line ++ '\n' :: rest) = some (line ++ ['\n'],rest) := by
    rw [fgets,if_neg (by simp),takeLine_line inside (by omega)]
  rw [lines_eq (by omega),read]

/-- Lines one behind the other are read one by one. -/
theorem lines_flatten {size : Nat} {texts : List (List Char)}
    (proper : ∀ text ∈ texts, ∃ line, text = line ++ ['\n'] ∧ '\n' ∉ line ∧ line.length + 1 < size) :
    lines size texts.flatten = texts := by
  induction texts with
  | nil => rfl
  | cons text texts ih =>
    obtain ⟨line,rfl,inside,fits⟩ := proper text List.mem_cons_self
    rw [List.flatten_cons,List.append_assoc,List.singleton_append,lines_cons inside fits]
    exact congrArg _ (ih fun text here => proper text (List.mem_cons_of_mem _ here))

end RiscvSim.CText
