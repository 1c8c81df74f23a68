import RiscvSim.Pipeline

/-!
The machine that takes one instruction after the other: it fetches the word at the pc,
runs its handler on the register file and performs what the handler prepared. It is the
specification of the pipeline; the handlers are those of the source, and nothing else is.
-/
namespace RiscvSim
open Bytes

/-- Register contents, with x0 zero. -/
structure Registers where
  value : BitVec 5 → U64
  zero_eq : value 0 = 0

namespace Registers

@[ext] theorem ext {r s : Registers} (same : ∀ i, r.value i = s.value i) : r = s := by
  cases r; cases s
  simpa using funext same

def ofFile (file : RegisterFile) : Registers := ⟨fun i => if i = 0 then 0 else file i,if_pos rfl⟩
/-- A write to x0 is ignored. -/
def write (r : Registers) (reg value : U64) : Registers where
  value := fun i => if i ≠ 0 ∧ i = reg.setWidth 5 then value else r.value i
  zero_eq := (if_neg fun not_zero => not_zero.1 rfl).trans r.zero_eq

end Registers

/-- Byte memory of 32-bit addresses. -/
abbrev FlatMemory := U32 → Byte

namespace FlatMemory

def word (mem : FlatMemory) (address : U32) : U32 := value 32 (fun i => mem (address + BitVec.ofNat 32 i)) 4
/-- The zero-extended value of `size` bytes. -/
def read (mem : FlatMemory) (address : U32) (size : U8) : U64 :=
  value 64 (fun i => mem (address + BitVec.ofNat 32 i)) size.toNat
def write (mem : FlatMemory) (address : U32) (size : U8) (data : U64) : FlatMemory := fun a =>
  if (a - address).toNat < size.toNat then byteAt data (a - address).toNat else mem a

end FlatMemory

/-- What an instruction does apart from moving the pc. -/
inductive Effect where
  | nothing
  | register (reg value : U64)
  | load (reg address : U64) (size : U8) (signExtend : Bool)
  | store (address : U64) (size : U8) (value : U64)
  deriving DecidableEq, Repr

/-- The register that an effect writes. -/
def Effect.target : Effect → Option U64
  | .register reg _ => some reg
  | .load reg _ _ _ => some reg
  | _ => none

/-- What a handler prepared in the M register. -/
def StageRegM.effect (m : StageRegM) : Effect :=
  match m.readWrite with
  | .nop => .nothing
  | .register_write => .register m.reg m.value
  | .memory_read => .load m.reg m.address m.size m.signExtend
  | .memory_write => .store m.address m.size m.value

structure Machine where
  pc : U64
  registers : Registers
  memory : FlatMemory
  /-- The registers other than x0 written so far, and the stores made. -/
  writes : List (U64 × U64)
  stores : List (U64 × U8 × U64)

namespace Machine

def start (pc : U64) (file : RegisterFile) (memory : FlatMemory) : Machine := ⟨pc,.ofFile file,memory,[],[]⟩

def write (s : Machine) (reg value : U64) : Machine :=
  { s with
    registers := s.registers.write reg value
    writes := if reg = 0 then s.writes else s.writes ++ [(reg,value)] }

/-- The value that a load delivers. -/
def loaded (s : Machine) (address : U64) (size : U8) (signExtend : Bool) : U64 :=
  let value := s.memory.read (address.setWidth 32) size
  if signExtend then (value.setWidth (8 * size.toNat)).signExtend 64 else value

def perform (s : Machine) : Effect → Machine
  | .nothing => s
  | .register reg value => s.write reg value
  | .load reg address size signExtend => s.write reg (s.loaded address size signExtend)
  | .store address size value =>
    { s with
      memory := s.memory.write (address.setWidth 32) size value
      stores := s.stores ++ [(address,size,value)] }

/-- The word at the pc. -/
def fetched (s : Machine) : Instruction := s.memory.word (s.pc.setWidth 32)
def operands (s : Machine) : Operands := ⟨s.registers.value s.fetched.rs1,s.registers.value s.fetched.rs2⟩

def step (s : Machine) : Except Abort Machine :=
  if s.fetched = 0 then .ok { s with pc := s.pc + 4 }
  else do
    let e ← dispatch s.fetched s.operands (s.pc + 4) .zero
    return { s.perform e.m.effect with pc := e.pc }

/-- The machine after a number of instructions. -/
def after (s : Machine) : Nat → Except Abort Machine
  | 0 => .ok s
  | k+1 => s.after k >>= step

/-- The pc of some instruction that the machine comes to. -/
def Visits (s : Machine) (pc : U64) : Prop := ∃ k t, s.after k = .ok t ∧ t.pc = pc

/-- A store changes a byte of the word at the address. -/
def Hits (store : U64 × U8 × U64) (pc : U64) : Prop :=
  ∃ i < 4, ((pc.setWidth 32 : U32) + BitVec.ofNat 32 i - store.1.setWidth 32).toNat < store.2.1.toNat

/-- No store hits a word that is fetched. -/
def Undisturbed (s : Machine) : Prop :=
  ∀ k t, s.after k = .ok t → ∀ store ∈ t.stores, ∀ pc, s.Visits pc → ¬ Hits store pc

end Machine
end RiscvSim
