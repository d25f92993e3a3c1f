import SpeechRom.Notice

/-!
Colours of messages on a terminal, as escape sequences around the coloured text.
-/

namespace SpeechRom.CommandLine

/-- Which parts of messages are coloured. -/
structure Palette where
  marks : Bool
  levels : Bool
deriving DecidableEq, Repr

/-- Text in a style given by its codes. -/
def styled (codes text : String) : String :=
  String.ofList [Char.ofNat 27, '['] ++ codes ++ "m" ++ text ++
    String.ofList [Char.ofNat 27, '['] ++ "0m"

namespace Palette

/-- The palette that environment variables ask for. Forcing colours wins over refusing them,
except for the levels of notices. Otherwise there are colours on a terminal only.
-/
def ofVariables (lookup : String → Option String) (isTerminal : Bool) : Palette :=
  let refused := (lookup "NO_COLOR").isSome
  let forced := (lookup "CLICOLOR_FORCE").any (· != "0")
  let marks := forced || (!refused && isTerminal && (lookup "CLICOLOR") != some "0")
  ⟨marks, marks && !refused⟩

/-- Coloured text, where the palette colours it. -/
def paint (palette : Palette) (codes text : String) : String :=
  if palette.marks then styled codes text else text

/-- The mark of work in progress. -/
def working (palette : Palette) : String := palette.paint "34" "[*]"

/-- The mark of work that is done. -/
def done (palette : Palette) : String := palette.paint "32" "[+]"

/-- The mark of a failure. -/
def failed (palette : Palette) : String := palette.paint "31" "[!]"

/-- The codes of a level. -/
def levelCodes : Level → String
  | .off | .error => "1;31"
  | .warn => "1;33"
  | .info => "1;32"
  | .debug => "1;34"
  | .trace => "1;35"

/-- The name of a level in a column of five. -/
def levelText (palette : Palette) (level : Level) : String :=
  let text := Text.alignLeft 5 level.name
  if palette.levels then styled (levelCodes level) text else text

/-- The line of a notice. -/
def noticeLine (palette : Palette) (notice : Notice) : String :=
  palette.levelText notice.level ++ " " ++ palette.paint "2" ("[" ++ notice.source ++ "]") ++
    " " ++ notice.text

end Palette

end SpeechRom.CommandLine
