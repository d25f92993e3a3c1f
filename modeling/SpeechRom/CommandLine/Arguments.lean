import SpeechRom.Settings.Basic

/-!
The command line. Options come in any order among at most two file names. A long option takes its
value after an equals sign or from the next word; short options can be written together, and the
last of them can have its value attached. After a lone double dash all words are file names.
-/

namespace SpeechRom.CommandLine

-----------------------------------------------------------------------------------------
-- Arguments
-----------------------------------------------------------------------------------------

/-- What the command line asks for. -/
structure Arguments where
  rom : Option String := none
  annotations : Option String := none
  output : Option String := none
  config : Option String := none
  origin : Option UInt32 := none
  commentChar : Option Char := none
  noSymbols : Bool := false
  noReferences : Bool := false
  exportSymbols : Option String := none
  verbose : UInt8 := 0
  noProgress : Bool := false
deriving DecidableEq, Repr

/-- The options. -/
inductive Flag where
  | output
  | config
  | origin
  | commentChar
  | noSymbols
  | noReferences
  | exportSymbols
  | verbose
  | noProgress
  | help
  | version
deriving DecidableEq, Repr

namespace Flag

/-- Whether an option has a value. -/
def takesValue : Flag → Bool
  | output | config | origin | commentChar | exportSymbols => true
  | _ => false

/-- The long names of the options. -/
def longNames : List (String × Flag) :=
  [("output", output), ("config", config), ("origin", origin), ("comment-char", commentChar),
    ("no-symbols", noSymbols), ("no-xrefs", noReferences), ("export-symbols", exportSymbols),
    ("verbose", verbose), ("no-progress", noProgress), ("help", help), ("version", version)]

/-- The option with a long name. -/
def ofLong? (name : String) : Option Flag := longNames.lookup name

/-- The option with a short name. -/
def ofShort? (name : Char) : Option Flag :=
  if name = 'o' then some output
  else if name = 'v' then some verbose
  else if name = 'h' then some help
  else if name = 'V' then some version
  else none

end Flag

/-- Why the command line is not carried out. -/
inductive Stop where
  | refused
  | help
  | version
deriving DecidableEq, Repr

-----------------------------------------------------------------------------------------
-- Values
-----------------------------------------------------------------------------------------

/-- A path. It cannot be empty. -/
def readPath (value : List Char) : Except Stop String :=
  if value.isEmpty then .error .refused else .ok (String.ofList value)

/-- A single character. -/
def readChar : List Char → Except Stop Char
  | [c] => .ok c
  | _ => .error .refused

/-- The digits of an origin, after `0x` or a dollar sign, if there is one, and a plus sign, if
there is one.
-/
def originDigits (value : List Char) : List Char :=
  let unmarked :=
    match value with
    | '0' :: 'x' :: rest => rest
    | '$' :: rest => rest
    | rest => rest
  match unmarked with
  | '+' :: rest => rest
  | rest => rest

/-- An origin in hexadecimal, below 2 ^ 32. -/
def readOrigin (value : List Char) : Except Stop UInt32 :=
  match Text.readHex? (originDigits value) with
  | some origin => if origin < 4294967296 then .ok (UInt32.ofNat origin) else .error .refused
  | none => .error .refused

-----------------------------------------------------------------------------------------
-- Words
-----------------------------------------------------------------------------------------

/-- How far the words have been read: what they ask for, the options that have been seen, the
option that waits for its value, and whether only file names follow.
-/
structure Progress where
  arguments : Arguments := {}
  seen : List Flag := []
  pending : Option Flag := none
  namesOnly : Bool := false
deriving DecidableEq, Repr

namespace Progress

/-- Notes that an option has been used. Only `verbose` can be used again. -/
def use (progress : Progress) (flag : Flag) : Except Stop Progress :=
  if flag ≠ .verbose ∧ progress.seen.contains flag then .error .refused
  else .ok { progress with seen := flag :: progress.seen, pending := none }

/-- Gives an option its value. -/
def setValue (progress : Progress) (flag : Flag) (value : List Char) : Except Stop Progress := do
  let progress ← progress.use flag
  let arguments := progress.arguments
  let arguments ←
    match flag with
    | .output => pure { arguments with output := some (← readPath value) }
    | .config => pure { arguments with config := some (← readPath value) }
    | .origin => pure { arguments with origin := some (← readOrigin value) }
    | .commentChar => pure { arguments with commentChar := some (← readChar value) }
    | .exportSymbols => pure { arguments with exportSymbols := some (← readPath value) }
    | _ => .error .refused
  pure { progress with arguments }

/-- Sets an option that has no value. -/
def setFlag (progress : Progress) (flag : Flag) : Except Stop Progress := do
  let progress ← progress.use flag
  let arguments := progress.arguments
  match flag with
  | .noSymbols => pure { progress with arguments := { arguments with noSymbols := true } }
  | .noReferences => pure { progress with arguments := { arguments with noReferences := true } }
  | .noProgress => pure { progress with arguments := { arguments with noProgress := true } }
  | .verbose =>
    let verbose := if arguments.verbose = 255 then 255 else arguments.verbose + 1
    pure { progress with arguments := { arguments with verbose } }
  | .help => .error .help
  | .version => .error .version
  | _ => .error .refused

/-- Takes a file name. There are at most two. -/
def addName (progress : Progress) (name : List Char) : Except Stop Progress := do
  let name ← readPath name
  let arguments := progress.arguments
  match arguments.rom, arguments.annotations with
  | none, _ => pure { progress with arguments := { arguments with rom := some name } }
  | some _, none => pure { progress with arguments := { arguments with annotations := some name } }
  | some _, some _ => .error .refused

/-- Takes a long option, without its dashes. -/
def takeLong (progress : Progress) (word : List Char) : Except Stop Progress :=
  let name := String.ofList (word.takeWhile (· != '='))
  let value :=
    match word.dropWhile (· != '=') with
    | [] => none
    | _ :: value => some value
  match Flag.ofLong? name, value with
  | none, _ => .error .refused
  | some flag, some value =>
    if flag.takesValue then progress.setValue flag value else .error .refused
  | some flag, none =>
    if flag.takesValue then .ok { progress with pending := some flag }
    else progress.setFlag flag

/-- Takes short options that are written together, without their dash. -/
def takeShort (progress : Progress) : List Char → Except Stop Progress
  | [] => .ok progress
  | name :: rest =>
    match Flag.ofShort? name with
    | none => .error .refused
    | some flag =>
      if flag.takesValue then
        match rest with
        | [] => .ok { progress with pending := some flag }
        | '=' :: value => progress.setValue flag value
        | value => progress.setValue flag value
      else
        match progress.setFlag flag with
        | .error stop => .error stop
        | .ok progress => takeShort progress rest

/-- Takes the next word. A word that starts with a dash is not the value of an option, unless it
is the dash alone.
-/
def take (progress : Progress) (word : List Char) : Except Stop Progress :=
  if progress.namesOnly then progress.addName word
  else
    match word, progress.pending with
    | '-' :: _ :: _, some _ => .error .refused
    | ['-', '-'], none => .ok { progress with namesOnly := true }
    | '-' :: '-' :: rest, none => progress.takeLong rest
    | '-' :: c :: rest, none => progress.takeShort (c :: rest)
    | value, some flag => progress.setValue flag value
    | name, none => progress.addName name

end Progress

/-- Reads all words. -/
def takeAll (progress : Progress) : List String → Except Stop Progress
  | [] => .ok progress
  | word :: rest =>
    match progress.take word.toList with
    | .error stop => .error stop
    | .ok progress => takeAll progress rest

/-- Reads a command line. No option may be left without its value. -/
def Arguments.parse (words : List String) : Except Stop Arguments :=
  match takeAll {} words with
  | .error stop => .error stop
  | .ok progress => if progress.pending.isSome then .error .refused else .ok progress.arguments

-----------------------------------------------------------------------------------------
-- Settings
-----------------------------------------------------------------------------------------

/-- Settings with those that the command line gives. -/
def Arguments.override (arguments : Arguments) (settings : Settings) : Settings :=
  { settings with
    rom := arguments.rom <|> settings.rom
    annotations := arguments.annotations <|> settings.annotations
    output := arguments.output <|> settings.output
    origin := arguments.origin <|> settings.origin
    commentChar := arguments.commentChar.getD settings.commentChar
    dumpSymbols := settings.dumpSymbols && !arguments.noSymbols
    dumpReferences := settings.dumpReferences && !arguments.noReferences
    exportSymbols := arguments.exportSymbols <|> settings.exportSymbols
    verbosity := if arguments.verbose = 0 then settings.verbosity else arguments.verbose
    showProgress := settings.showProgress && !arguments.noProgress }

end SpeechRom.CommandLine
