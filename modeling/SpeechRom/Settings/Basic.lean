import SpeechRom.Fault
import SpeechRom.Text.Quoted

/-!
Settings of a run: which files to use, where the image starts, and what to print.
-/

namespace SpeechRom

/-- The settings of a run. -/
structure Settings where
  rom : Option String := none
  annotations : Option String := none
  output : Option String := none
  origin : Option UInt32 := none
  commentChar : Char := '#'
  dumpSymbols : Bool := true
  dumpReferences : Bool := true
  exportSymbols : Option String := none
  verbosity : UInt8 := 0
  showProgress : Bool := true
deriving DecidableEq, Repr, Inhabited

namespace Settings

/-- The byte address of an image about which nothing is said. -/
def defaultOrigin : UInt32 := 0x1000

/-- What is wrong with settings. -/
inductive Fault where
  | commentChar (c : Char)
  | originTooLarge (origin : UInt32)
  | originMisaligned (origin : UInt32)
deriving DecidableEq, Repr

def Fault.message : Fault → String
  | commentChar c =>
    "comment_char must be a printable ASCII character, got " ++ Text.quotedChar c
  | originTooLarge origin =>
    "origin $" ++ Text.hex origin.toNat ++ " is outside the 16-bit address space"
  | originMisaligned origin =>
    "origin $" ++ Text.hexPadded 4 origin.toNat ++ " must be a multiple of 4 bytes"

/-- Whether a character is an ASCII character with a shape. -/
def isGraphic (c : Char) : Bool := 33 ≤ c.toNat && c.toNat ≤ 126

/-- What is wrong with an origin, if anything. -/
def originFault? (origin : UInt32) : Option Fault :=
  if 0xFFFF < origin then some (.originTooLarge origin)
  else if origin % 4 ≠ 0 then some (.originMisaligned origin)
  else none

/-- What is wrong with settings, if anything. The comment character comes before the origin. -/
def fault? (settings : Settings) : Option Fault :=
  if !isGraphic settings.commentChar then some (.commentChar settings.commentChar)
  else settings.origin.bind originFault?

/-- Accepts settings without a fault. -/
def validate (settings : Settings) : Except Fault Unit :=
  match settings.fault? with
  | some fault => .error fault
  | none => .ok ()

/-- Why a settings file cannot be used. -/
inductive LoadError where
  | notFound (path : String)
  | unreadable (fault : FileFault)
  | malformed
  | invalid (fault : Fault)
deriving DecidableEq, Repr

namespace LoadError

def message : LoadError → String
  | notFound path => "Config file not found: " ++ Text.quotedPath path
  | unreadable fault => "IO error: " ++ fault.message
  | malformed => "Parse error: not a valid settings object"
  | invalid fault => "Validation error: " ++ fault.message

def causes (error : LoadError) : List String :=
  match error with
  | unreadable fault => [error.message, fault.message]
  | _ => [error.message]

end LoadError

end Settings

end SpeechRom
