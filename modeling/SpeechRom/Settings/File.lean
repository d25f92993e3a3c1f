import SpeechRom.Json.Printer
import SpeechRom.Json.Reader
import SpeechRom.Settings.Basic

/-!
Settings files. Settings are written as a JSON object with all of them. They are read from an
object with any of them, in any order and each at most once, or from a list of values in the order
in which they are written; what is missing has its default.
-/

namespace SpeechRom.Settings

/-- The JSON value of something optional. -/
def optional {α : Type} (json : α → Json.Value) (value : Option α) : Json.Value :=
  match value with
  | some value => json value
  | none => .null

/-- The JSON object of settings. -/
def json (settings : Settings) : Json.Value :=
  .object [
    ("rom", optional .string settings.rom),
    ("annotations", optional .string settings.annotations),
    ("output", optional .string settings.output),
    ("origin", optional (fun origin => .number origin.toNat) settings.origin),
    ("comment_char", .string (String.ofList [settings.commentChar])),
    ("dump_symbols", .bool settings.dumpSymbols),
    ("dump_xrefs", .bool settings.dumpReferences),
    ("export_symbols", optional .string settings.exportSymbols),
    ("verbosity", .number settings.verbosity.toNat),
    ("show_progress", .bool settings.showProgress)]

/-- The text of a settings file. -/
def text (settings : Settings) : String := settings.json.text

/-- The settings that a file can give. -/
inductive Key where
  | rom
  | annotations
  | output
  | origin
  | commentChar
  | dumpSymbols
  | dumpReferences
  | exportSymbols
  | verbosity
  | showProgress
deriving DecidableEq, Repr

namespace Key

/-- The spelling of a key. -/
def name : Key → String
  | rom => "rom"
  | annotations => "annotations"
  | output => "output"
  | origin => "origin"
  | commentChar => "comment_char"
  | dumpSymbols => "dump_symbols"
  | dumpReferences => "dump_xrefs"
  | exportSymbols => "export_symbols"
  | verbosity => "verbosity"
  | showProgress => "show_progress"

/-- All keys in the order in which they are written. -/
def all : List Key :=
  [rom, annotations, output, origin, commentChar, dumpSymbols, dumpReferences, exportSymbols,
    verbosity, showProgress]

/-- The key with a spelling. -/
def ofName? (name : String) : Option Key := all.find? fun key => key.name = name

end Key

/-- A path, which may be absent. -/
def pathOf? : Json.Scalar → Option (Option String)
  | .null => some none
  | .string text => some (some (String.ofList text))
  | _ => none

/-- A byte address, which may be absent. -/
def addressOf? : Json.Scalar → Option (Option UInt32)
  | .null => some none
  | .natural value => if value < 4294967296 then some (some (UInt32.ofNat value)) else none
  | _ => none

/-- A single character. -/
def charOf? : Json.Scalar → Option Char
  | .string [c] => some c
  | _ => none

/-- A truth value. -/
def boolOf? : Json.Scalar → Option Bool
  | .bool value => some value
  | _ => none

/-- A small number. -/
def smallOf? : Json.Scalar → Option UInt8
  | .natural value => if value < 256 then some (UInt8.ofNat value) else none
  | _ => none

/-- Settings with one of them given by a value, if the value is of the right kind. -/
def set? (settings : Settings) (key : Key) (value : Json.Scalar) : Option Settings :=
  match key with
  | .rom => (pathOf? value).map fun rom => { settings with rom }
  | .annotations => (pathOf? value).map fun annotations => { settings with annotations }
  | .output => (pathOf? value).map fun output => { settings with output }
  | .origin => (addressOf? value).map fun origin => { settings with origin }
  | .commentChar => (charOf? value).map fun commentChar => { settings with commentChar }
  | .dumpSymbols => (boolOf? value).map fun dumpSymbols => { settings with dumpSymbols }
  | .dumpReferences => (boolOf? value).map fun dumpReferences => { settings with dumpReferences }
  | .exportSymbols => (pathOf? value).map fun exportSymbols => { settings with exportSymbols }
  | .verbosity => (smallOf? value).map fun verbosity => { settings with verbosity }
  | .showProgress => (boolOf? value).map fun showProgress => { settings with showProgress }

/-- Settings from the members of an object. No key may come twice. -/
def ofMembers? (settings : Settings) (seen : List Key) :
    List (String × Json.Scalar) → Option Settings
  | [] => some settings
  | (name, value) :: rest =>
    match Key.ofName? name with
    | none => ofMembers? settings seen rest
    | some key =>
      if seen.contains key then none
      else
        match settings.set? key value with
        | none => none
        | some settings => ofMembers? settings (key :: seen) rest

/-- Settings from a list of values for the given keys. There may be fewer values than keys. -/
def ofItems? (settings : Settings) : List Key → List Json.Scalar → Option Settings
  | _, [] => some settings
  | [], _ :: _ => none
  | key :: keys, value :: rest =>
    match settings.set? key value with
    | none => none
    | some settings => ofItems? settings keys rest

/-- Settings from a document. -/
def ofDocument? : Json.Document → Option Settings
  | .object members => ofMembers? {} [] members
  | .list items => ofItems? {} Key.all items

/-- Reads the text of a settings file. -/
def parse? (text : String) : Option Settings :=
  match Json.parse? (fun name => (Key.ofName? name).isSome) text with
  | some document => ofDocument? document
  | none => none

/-- Reads the text of a settings file and checks the settings. -/
def ofText (text : String) : Except LoadError Settings :=
  match parse? text with
  | none => .error .malformed
  | some settings =>
    match settings.fault? with
    | some fault => .error (.invalid fault)
    | none => .ok settings

/-- Loads a settings file. A path that leads nowhere is told apart from a file that cannot be
read.
-/
def load (path : String) (contents : Except FileFault Bytes) : Except LoadError Settings :=
  match contents with
  | .error .missing | .error .notDirectory | .error .nameTooLong | .error .nulInName =>
    .error (.notFound path)
  | .error fault => .error (.unreadable fault)
  | .ok bytes =>
    match bytes.text? with
    | .error fault => .error (.unreadable fault)
    | .ok text => ofText text

end SpeechRom.Settings
