import RiscvSim.CText
import RiscvSim.Memory

/-!
The data files of the framework (`load_data_from_file` and `dump_data_to_file`). A hex file has
lines of an octal offset and bytes in hex; a binary file can be loaded, but not dumped. A
file is its characters, and opening one gives them or fails. What is said on `stderr`
is kept, with the texts of the source.
-/
namespace RiscvSim
open Bytes CText

/-! ### Loading -/

/-- Digits of the base only, after a `0x` if it is 16. -/
def verify_base (s : List Char) (base : Nat) : Bool :=
  (if base = 16 then unprefixed s else s).all fun c =>
    if base = 8 then '0' ≤ c ∧ c ≤ '7' else if base = 16 then isxdigit c else true

/-- The argument of `%s` for a file name, which is `NULL` for the standard streams. -/
def printed (filename : Option String) : String := filename.getD "(null)"

/-- The characters of the file to load, `stdin` if there is no name. -/
def opened (fopen : String → Option (List Char)) (stdin : List Char) : Option String → Option (List Char)
  | none => some stdin
  | some filename => fopen filename

/-- The separators of a hex file. -/
def sep : List Char := [' ','\t','\n']

/-- One byte of a line, or `none` if it is a bad one. The result of `strtol` is cut to an `int`. -/
def load_byte (tok : List Char) : Option Byte :=
  let b := (BitVec.ofInt 32 (strtol tok 16)).toInt
  if b < 0 ∨ b > 255 ∨ verify_base tok 16 = false then none else some (BitVec.ofInt 8 b)

/-- A turn of the loop over the lines of a hex file, or the complaint that ends it. A line in `buf`
    has 4094 characters at most, so that its bytes fit `membuf`. -/
def load_line (filename : Option String) (addr : U64) (lineno : Nat) (buf : List Char) (s : Framework) :
    Except String Framework :=
  match tokens sep (cstring buf) with
  | [] => .ok s
  | tok :: toks =>
    if verify_base tok 8 = false then
      .error ("load: bad offset in " ++ printed filename ++ "(" ++ toString lineno ++ "): " ++
        String.ofList (cstring buf))
    else
      let offset : U64 := BitVec.ofInt 64 (strtol tok 8)
      match toks.mapM load_byte with
      | none =>
        .error ("load: bad byte in " ++ printed filename ++ "(" ++ toString lineno ++ "): " ++
          String.ofList (cstring buf))
      | some membuf =>
        if membuf.length > 0 then
          -- a line outside memory is dropped without a word
          .ok (s.memory_load (fun i => membuf.getD i 0) (addr + offset) (BitVec.ofNat 64 membuf.length)).2
        else .ok s

/-- The loop over the lines, with the complaint if there is one. Lines before a bad one stay loaded. -/
def load_lines (filename : Option String) (addr : U64) : Nat → List (List Char) → Framework → Option String × Framework
  | _,[],s => (none,s)
  | lineno,buf :: rest,s =>
    match load_line filename addr (lineno+1) buf s with
    | .error message => (some message,s)
    | .ok s => load_lines filename addr (lineno+1) rest s

/-- The loop over blocks of 4096 bytes of a binary file, of which each takes one character at least. -/
def load_blocks (addr : U64) : Nat → U64 → List Char → Framework → Framework
  | 0,_,_,s => s
  | calls+1,total,file,s =>
    let buf := file.take 4096
    if buf.length > 0 then
      load_blocks addr calls (total + BitVec.ofNat 64 buf.length) (file.drop 4096)
        (s.memory_load (fun i => BitVec.ofNat 8 (buf.getD i '\x00').toNat) (addr + total)
          (BitVec.ofNat 64 buf.length)).2
    else s

/-- The result of a load: what is returned, what is said and memory. -/
structure Loaded where
  ok : Bool
  stderr : List String
  framework : Framework

/-- The local `offset` is set in the lines of a hex file only; for a binary file it is what was there. -/
def load_data_from_file (fopen : String → Option (List Char)) (stdin : List Char) (offset : U64)
    (filename : Option String) (is_hex : Bool) (addr : U64) (s : Framework) : Loaded :=
  match opened fopen stdin filename with
  | none => ⟨false,["load: failed to open " ++ printed filename ++ "!\n"],s⟩
  | some file =>
    let loading := "Loading " ++ printed filename ++ " at 0x" ++ String.ofList (padded 16 16 addr.toNat) ++ " using " ++
      (if is_hex then "hex" else "binary") ++ "\n"
    if is_hex then
      match load_lines filename addr 0 (lines (4096 - 1) file) s with
      | (some message,s) => ⟨false,[loading,message],s⟩
      | (none,s) => ⟨true,[loading],s⟩
    else if filename = none then ⟨false,[loading,"load: binary load from stdin not supported!\n"],s⟩
    else ⟨true,[loading],load_blocks addr file.length offset file s⟩

/-! ### Dumping -/

/-- The bytes of a line of a hex dump. -/
def bpl : U64 := 16

/-- A turn of the loop over the lines of a dump: the line and `buf`. -/
def dump_line (s : Framework) (addr length offset : U64) (buf : Buffer) : List Char × Buffer :=
  let actual_bytes := if length - offset < bpl then length - offset else bpl
  let buf := (s.memory_dump buf (addr + offset) actual_bytes).2
  (padded 8 12 (addr + offset).toNat ++ (List.range actual_bytes.toNat).flatMap
    (fun i => ' ' :: padded 16 2 (buf i).toNat) ++ ['\n'],buf)

/-- The loop, for as many turns as given; near 2^64 the offset wraps and the loop does not end. -/
def dump_lines (s : Framework) (addr length : U64) : Nat → U64 → Buffer → Option (List Char)
  | 0,offset,_ => if offset < length then none else some []
  | turns+1,offset,buf =>
    if offset < length then
      let line := dump_line s addr length offset buf
      (dump_lines s addr length turns (offset + bpl) line.2).map (line.1 ++ ·)
    else some []

/-- The result of a dump: what is returned, what is said and what is written. -/
structure Dumped where
  ok : Bool
  stderr : List String
  text : List Char

/-- The file is written if it can be opened; without a name it is `stdout`. -/
def dump_data_to_file (turns : Nat) (writable : String → Bool) (buf : Buffer) (filename : Option String) (is_hex : Bool)
    (addr length : U64) (s : Framework) : Option Dumped :=
  if filename.any (fun name => !writable name) then some ⟨false,["dump: failed to open " ++ printed filename ++ "!\n"],
    []⟩
  else
    let dumping := "Dumping " ++ (if is_hex then "hex" else "binary") ++ " to " ++ filename.getD "stdout" ++ " at 0x" ++
      String.ofList (padded 16 16 addr.toNat) ++ " for " ++ toString length.toNat ++ " bytes\n"
    if is_hex then (dump_lines s addr length turns 0 buf).map fun text => ⟨true,[dumping],text⟩
    else if filename = none then some ⟨false,[dumping,"dump: binary output to stdout not supported!\n"],[]⟩
    else some ⟨false,[dumping,"dump: output to binary not yet implemented!\n"],[]⟩

end RiscvSim
