import SpeechRom.Format.Basic
import SpeechRom.Mode

/-!
Decoded instructions.
-/

namespace SpeechRom

/-- An instruction at its place: what it is called, what it works on, the format that it was
read by and the mode in which it was met.
-/
structure Instruction where
  address : BitAddress
  length : UInt32
  opcode : Fin 16
  mnemonic : String
  operand : String
  format : Format
  mode : Mode
deriving DecidableEq, Repr

namespace Instruction

/-- The first bit after the instruction. -/
def finish (instruction : Instruction) : BitAddress :=
  instruction.address + instruction.length

/-- Address, mnemonic and operand in columns. -/
def text (instruction : Instruction) : String :=
  instruction.address.text ++ "  " ++ Text.alignLeft 16 instruction.mnemonic ++
    instruction.operand

end Instruction

end SpeechRom
