import SpeechRom.CommandLine.Arguments
import SpeechRom.CommandLine.Palette
import SpeechRom.Disassembly
import SpeechRom.Settings.File

/-!
A run of the program: from a command line to a listing. Files, output and the clock are reached
through a host, so that a run means the same on a real machine and on a folder of given files.
-/

namespace SpeechRom.CommandLine

-----------------------------------------------------------------------------------------
-- Hosts
-----------------------------------------------------------------------------------------

/-- What a run needs from the machine: files, standard output, messages line by line, and a clock
in nanoseconds. Writing a file creates it or replaces what it held.
-/
structure Host (m : Type → Type) where
  read : String → m (Except FileFault Bytes)
  write : String → String → m (Except FileFault Unit)
  print : String → m Unit
  report : String → m Unit
  clock : m Nat

/-- What a run knows of its surroundings. -/
structure Surroundings where
  palette : Palette
  silent : Bool
deriving DecidableEq, Repr

/-- The surroundings that environment variables describe. A filter of its own for the log takes
the place of the levels, and all that is known of it is that it is there.
-/
def Surroundings.ofVariables (lookup : String → Option String) (isTerminal : Bool) :
    Surroundings where
  palette := Palette.ofVariables lookup isTerminal
  silent := (lookup "RUST_LOG").isSome

/-- Why a run fails: the failed step and what lies behind it. -/
abbrev Causes := List String

/-- The part of a run that can fail. -/
abbrev Steps (m : Type → Type) := ExceptT Causes m

-----------------------------------------------------------------------------------------
-- Messages
-----------------------------------------------------------------------------------------

section Messages

variable {m : Type → Type} [Monad m]

/-- Reports a line after a mark. -/
def say (host : Host m) (mark text : String) : Steps m Unit :=
  host.report (mark ++ " " ++ text)

/-- Reports the notices that the surroundings and the level let through. -/
def tell (host : Host m) (surroundings : Surroundings) (level : Level)
    (notices : List Notice) : Steps m Unit :=
  if surroundings.silent then pure ()
  else
    (notices.filter fun notice => level.admits notice.level).forM fun notice =>
      host.report (surroundings.palette.noticeLine notice)

/-- A result whose error has been put into the causes of a failed step. -/
def orFail {α ε : Type} (step : String) (causes : ε → Causes) (result : Except ε α) :
    Steps m α :=
  match result with
  | .ok value => pure value
  | .error error => throw (step :: causes error)

end Messages

/-- The causes of a failure with a file. -/
def fileCauses (fault : FileFault) : Causes := [fault.message]

-----------------------------------------------------------------------------------------
-- Steps
-----------------------------------------------------------------------------------------

section Work

variable {m : Type → Type} [Monad m]

/-- The settings of a run: those of the settings file, if one is named, with those of the command
line.
-/
def gatherSettings (host : Host m) (arguments : Arguments) : Steps m Settings := do
  let base ←
    match arguments.config with
    | none => pure {}
    | some path =>
      let contents ← host.read path
      orFail ("failed to load config " ++ path) Settings.LoadError.causes
        (Settings.load path contents)
  let settings := arguments.override base
  match settings.fault? with
  | some fault => throw ["invalid configuration: " ++ fault.message]
  | none => pure settings

/-- The bytes of the ROM. -/
def loadRom (host : Host m) (palette : Palette) (settings : Settings) : Steps m Bytes := do
  match settings.rom with
  | none => throw ["no ROM image given"]
  | some path =>
    say host palette.working ("Loading ROM: " ++ path)
    let rom ← orFail ("failed to read ROM " ++ path) fileCauses (← host.read path)
    say host palette.done s!"Read {rom.size} bytes"
    pure rom

/-- The annotations, if a file with some is named. -/
def loadAnnotations (host : Host m) (surroundings : Surroundings) (level : Level)
    (settings : Settings) : Steps m (Option Annotations) := do
  match settings.annotations with
  | none => pure none
  | some path =>
    say host surroundings.palette.working ("Loading annotations: " ++ path)
    let reading := Annotations.parseFile (← host.read path)
    tell host surroundings level reading.notices
    let annotations ←
      orFail ("failed to load annotations " ++ path) AnnotationError.causes reading.outcome
    say host surroundings.palette.done s!"{annotations.length} annotations"
    pure (some annotations)

/-- Writes the listing and the tables to the output file or to standard output. What has been
listed before an error is written all the same.
-/
def writeListing (host : Host m) (surroundings : Surroundings) (level : Level)
    (settings : Settings) (disassembly : Disassembly) : Steps m Disassembly := do
  let write : String → m Unit :=
    match settings.output with
    | none => host.print
    | some path => fun text => do
      let _ ← host.write path text
  match settings.output with
  | none => pure ()
  | some path => orFail ("failed to create " ++ path) fileCauses (← host.write path "")
  let started ← host.clock
  let rendered := disassembly.render
  let finished ← host.clock
  tell host surroundings level (rendered.report.allNotices (finished - started))
  match rendered.printed.error with
  | some error =>
    write (Text.unlines rendered.printed.lines)
    throw ("pass 2 failed" :: error.causes)
  | none =>
    write (Text.unlines rendered.printed.lines ++ rendered.disassembly.renderSymbols)
    pure rendered.disassembly

/-- Writes the symbols to a file, if one is named. -/
def exportSymbols (host : Host m) (palette : Palette) (settings : Settings)
    (disassembly : Disassembly) : Steps m Unit := do
  match settings.exportSymbols with
  | none => pure ()
  | some path =>
    orFail ("failed to export symbols to " ++ path)
      (fun fault => (SymbolError.unwritable fault).causes)
      (← host.write path disassembly.symbols.exportText)
    say host palette.done ("Symbols exported to " ++ path)

/-- All steps of a run. -/
def disassemble (host : Host m) (surroundings : Surroundings) (arguments : Arguments) :
    Steps m Unit := do
  let palette := surroundings.palette
  let settings ← gatherSettings host arguments
  let level := Level.ofVerbosity settings.verbosity
  let begun ← host.clock
  let rom ← loadRom host palette settings
  let annotations ← loadAnnotations host surroundings level settings
  let setup := Disassembly.setup rom annotations settings
  tell host surroundings level setup.notices
  let disassembly ← orFail "failed to set up disassembler" SetupError.causes setup.outcome
  let started ← host.clock
  let decoding := disassembly.decodeAll
  let finished ← host.clock
  tell host surroundings level (decoding.report.allNotices (finished - started))
  let count ← orFail "pass 1 failed" DecodeError.causes decoding.outcome
  let disassembly ← writeListing host surroundings level settings decoding.disassembly
  say host palette.done
    s!"Decoded {count} instructions, {disassembly.symbols.size} symbols"
  exportSymbols host palette settings disassembly
  match settings.output with
  | none => pure ()
  | some path => say host palette.done ("Listing written to " ++ path)
  let ended ← host.clock
  say host palette.working ("Done in " ++ Duration.text (ended - begun))

/-- The summary of the command line. -/
def usage : String :=
  Text.unlines [
    "Bit-level disassembler for the SP0256 speech processor",
    "",
    "Usage: bitdasm [OPTIONS] [ROM] [ANNOTATIONS]",
    "",
    "  -o, --output <FILE>            write the listing to a file",
    "      --config <FILE>            take settings from a JSON file",
    "      --origin <HEX>             load address of the image",
    "      --comment-char <CHAR>      character that starts a comment",
    "      --no-symbols               leave out the symbol tables",
    "      --no-xrefs                 leave out the cross references",
    "      --export-symbols <FILE>    write the symbols to a JSON file",
    "  -v, --verbose...               say more",
    "      --no-progress              show no progress",
    "  -h, --help                     print this summary",
    "  -V, --version                  print the version"]

/-- Carries out a command line and gives its exit status: zero when all went well, one after a
failure, and two when the command line is refused.
-/
def run (host : Host m) (surroundings : Surroundings) (words : List String) : m UInt8 := do
  match Arguments.parse words with
  | .error .version =>
    host.print "bitdasm 1.0.0\n"
    pure 0
  | .error .help =>
    host.print usage
    pure 0
  | .error .refused =>
    host.report "error: invalid command line, see --help"
    pure 2
  | .ok arguments =>
    match ← (disassemble host surroundings arguments).run with
    | .ok () => pure 0
    | .error causes =>
      host.report (surroundings.palette.failed ++ " " ++ String.intercalate ": " causes)
      pure 1

end Work

end SpeechRom.CommandLine
