import SpeechRom.Format.Basic

/-!
The instruction formats of the SP0256 speech processor. Every instruction starts with four bits of
immediate value and the four bits of its opcode. What follows are filter parameters: the amplitude,
the pitch period, and for each filter stage a bandwidth `B` and a frequency `F`. The upper bit of
the operand mode selects wider parameters, the lower one adds the sixth stage.
-/

namespace SpeechRom.Sp0256

open SpeechRom.Field

/-- Whether the operand mode selects wider parameters. -/
def isWide (mode : Fin 4) : Bool := 2 ≤ mode.val

/-- Whether the operand mode adds the sixth stage. -/
def hasSixth (mode : Fin 4) : Bool := mode.val % 2 = 1

/-- A mnemonic with its operand mode. -/
def inMode (name : String) (mode : Fin 4) : String := name ++ "." ++ Text.binary 2 mode.val

/-- The repeat count and the opcode. -/
def opening (name : String) : Format := [reversed 4 "Repeat", mnemonic 4 name]

/-- The amplitude in six bits. -/
def amplitude : Format := [reversed 3 "AmpMant", reversed 3 "AmpExp"]

/-- The pitch period. -/
def period : Format := [reversed 8 "Period"]

/-- The interpolation of amplitude and period. -/
def interpolation : Format := [reversed 5 "Ampl Interp", reversed 5 "Period Interp"]

/-- The first three stages; the sign of their bandwidths is implied. -/
def lowStages (mode : Fin 4) : Format :=
  if isWide mode then
    [reversed 6 "B0 [S=0]", reversed 6 "F0", reversed 6 "B1 [S=0]", reversed 6 "F1",
      reversed 6 "B2 [S=0]", reversed 6 "F2"]
  else
    [reversed 3 "B0 [S=0]", reversed 5 "F0", reversed 3 "B1 [S=0]", reversed 5 "F1",
      reversed 3 "B2 [S=0]", reversed 5 "F2"]

/-- The fourth and the fifth stage. -/
def highStages (mode : Fin 4) : Format :=
  if isWide mode then
    [reversed 6 "B3 [S=0]", reversed 7 "F3", reversed 8 "B4", reversed 8 "F4"]
  else
    [reversed 4 "B3 [S=0]", reversed 6 "F3", reversed 7 "B4", reversed 6 "F4"]

/-- The sixth stage, where the mode has one. -/
def sixthStage (mode : Fin 4) : Format :=
  if hasSixth mode then [reversed 8 "B5", reversed 8 "F5"] else []

/-- The upper bits of the first three frequencies. -/
def lowFrequencies (mode : Fin 4) : Format :=
  if isWide mode then
    [reversed 6 "F0 6 MSBs", reversed 6 "F1 6 MSBs", reversed 6 "F2 6 MSBs"]
  else
    [reversed 5 "F0 5 MSBs", reversed 5 "F1 5 MSBs", reversed 5 "F2 5 MSBs"]

/-- The upper bits of the other frequencies. -/
def highFrequencies (mode : Fin 4) : Format :=
  (if isWide mode then [reversed 7 "F3 7 MSBs", reversed 8 "F4 8 MSBs"]
    else [reversed 6 "F3 6 MSBs", reversed 6 "F4 6 MSBs"]) ++
    if hasSixth mode then [reversed 8 "F5 8 MSBs"] else []

/-- Changes of amplitude and period. -/
def sourceDeltas : Format := [reversed 4 "+/- AmpMant", reversed 5 "+/- Period"]

/-- Changes of the first three stages. -/
def lowDeltas (mode : Fin 4) : Format :=
  if isWide mode then
    [reversed 4 "+/- B0 7 MSBs", reversed 4 "+/- F0 6 MSBs", reversed 4 "+/- B1 7 MSBs",
      reversed 4 "+/- F1 6 MSBs", reversed 4 "+/- B2 7 MSBs", reversed 4 "+/- F2 6 MSBs"]
  else
    [reversed 3 "+/- B0 4 MSBs", reversed 3 "+/- F0 5 MSBs", reversed 3 "+/- B1 4 MSBs",
      reversed 3 "+/- F1 5 MSBs", reversed 3 "+/- B2 4 MSBs", reversed 3 "+/- F2 5 MSBs"]

/-- Changes of the fourth and the fifth stage. In the narrow modes the field for the fifth
bandwidth is named by the instruction.
-/
def highDeltas (mode : Fin 4) (narrowB4 : String) : Format :=
  if isWide mode then
    [reversed 4 "+/- B3 7 MSBs", reversed 5 "+/- F3 7 MSBs", reversed 5 "+/- B4 8 MSBs",
      reversed 5 "+/- F4 8 MSBs"]
  else
    [reversed 3 "+/- B3 5 MSBs", reversed 4 "+/- F3 6 MSBs", reversed 4 narrowB4,
      reversed 4 "+/- F4 6 MSBs"]

/-- Changes of the sixth stage, where the mode has one. -/
def sixthDeltas (mode : Fin 4) : Format :=
  if hasSixth mode then [reversed 5 "+/- B5 8 MSBs", reversed 5 "+/- F5 8 MSBs"] else []

/-- All parameters of the first five stages in full. -/
def fullStages : Format :=
  [reversed 8 "B0", reversed 8 "F0", reversed 8 "B1", reversed 8 "F1", reversed 8 "B2",
    reversed 8 "F2", reversed 8 "B3", reversed 8 "F3", reversed 8 "B4", reversed 8 "F4"]

/-- Return, or with an immediate value the setting of the page. -/
def returnOrPage : Format := [mnemonic 8 "RTS/PAGE", padding]

/-- All parameters in full. -/
def loadAll (mode : Fin 4) : Format :=
  opening (inMode "LOADALL" mode) ++
    [reversed 5 "AmpMant", reversed 3 "AmpExp", reversed 8 "Period"] ++ fullStages ++
    sixthStage mode ++ [reversed 8 "Ampl Interp", reversed 8 "Period Interp"]

/-- All parameters with interpolation. The first mode goes without a suffix. -/
def load2 (mode : Fin 4) : Format :=
  opening (if mode.val = 0 then "LOAD_2" else inMode "LOAD_2" mode) ++ amplitude ++ period ++
    lowStages mode ++ highStages mode ++ sixthStage mode ++ interpolation

/-- Amplitude, low frequencies and interpolation. -/
def setMsb3 (mode : Fin 4) : Format :=
  opening (inMode "SETMSB_3" mode) ++ amplitude ++ lowFrequencies mode ++ interpolation

/-- Amplitude, period and the high stages. -/
def load4 (mode : Fin 4) : Format :=
  opening (inMode "LOAD_4" mode) ++ amplitude ++ period ++ highStages mode ++ sixthStage mode

/-- Amplitude, period and low frequencies. -/
def setMsb5 (mode : Fin 4) : Format :=
  opening (inMode "SETMSB_5" mode) ++ amplitude ++ period ++ lowFrequencies mode

/-- Amplitude and high frequencies. -/
def opcode6 (mode : Fin 4) : Format :=
  opening "OPCODE_6" ++ amplitude ++ highFrequencies mode

/-- A branch to a byte address, of which four bits precede the opcode. -/
def branch (name : String) : Format :=
  [plain 4 "BTrg MSBs", mnemonic 4 name, plain 8 "BTrg LSBs", padding]

/-- The setting of operand mode and repeat bits. -/
def setMode : Format := [plain 2 "Rpt MSBs", plain 2 "Mode", mnemonic 4 "SETMODE"]

/-- Changes of all parameters. -/
def delta9 (mode : Fin 4) : Format :=
  opening (inMode "DELTA_9" mode) ++ sourceDeltas ++ lowDeltas mode ++
    highDeltas mode "+/- B4 6 MSBs" ++ sixthDeltas mode

/-- Amplitude and low frequencies. -/
def setMsbA (mode : Fin 4) : Format :=
  opening (inMode "SETMSB_A" mode) ++ amplitude ++ lowFrequencies mode

/-- All parameters without interpolation. -/
def loadC (mode : Fin 4) : Format :=
  opening (inMode "LOAD_C" mode) ++ amplitude ++ period ++ lowStages mode ++ highStages mode ++
    sixthStage mode

/-- Changes of the high stages. -/
def deltaD (mode : Fin 4) : Format :=
  opening (inMode "DELTA_D" mode) ++ sourceDeltas ++ highDeltas mode "+/- B4 7 MSBs" ++
    sixthDeltas mode

/-- Amplitude and period. -/
def loadE : Format := opening "LOAD_E" ++ amplitude ++ period

/-- Silence. -/
def pause : Format := opening "PAUSE"

/-- The format table of the processor. -/
def table : FormatTable where
  format
    | 0, _ => returnOrPage
    | 1, mode => loadAll mode
    | 2, mode => load2 mode
    | 3, mode => setMsb3 mode
    | 4, mode => load4 mode
    | 5, mode => setMsb5 mode
    | 6, mode => opcode6 mode
    | 7, _ => branch "JMP"
    | 8, _ => setMode
    | 9, mode => delta9 mode
    | 10, mode => setMsbA mode
    | 11, _ => branch "JSR"
    | 12, mode => loadC mode
    | 13, mode => deltaD mode
    | 14, _ => loadE
    | _, _ => pause

end SpeechRom.Sp0256
