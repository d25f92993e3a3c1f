import SpeechRom.Address
import SpeechRom.Duration
import SpeechRom.Text.Lowercase

/-!
Notices: what the library has to say about its own work. Each has a level, the part of the program
that speaks, and a text.
-/

namespace SpeechRom

/-- How much is to be heard, from nothing to everything. -/
inductive Level where
  | off
  | error
  | warn
  | info
  | debug
  | trace
deriving DecidableEq, Repr

namespace Level

/-- The place of a level, the quietest first. -/
def rank : Level → Nat
  | off => 0
  | error => 1
  | warn => 2
  | info => 3
  | debug => 4
  | trace => 5

/-- Whether a listener set to the first level hears what is said at the second. -/
def admits (limit level : Level) : Bool := level.rank ≤ limit.rank

/-- The name of a level. -/
def name : Level → String
  | off => "OFF"
  | error => "ERROR"
  | warn => "WARN"
  | info => "INFO"
  | debug => "DEBUG"
  | trace => "TRACE"

/-- Reads the name of a level in any letter case. Unknown names mean `info`. -/
def ofName (text : String) : Level :=
  match Text.lowercase text with
  | "error" => error
  | "warn" => warn
  | "warning" => warn
  | "debug" => debug
  | "trace" => trace
  | "off" => off
  | _ => info

/-- The level for a number of requests for more output. -/
def ofVerbosity (count : UInt8) : Level :=
  if count = 0 then warn
  else if count = 1 then info
  else if count = 2 then debug
  else trace

end Level

/-- The two passes of a disassembly. -/
inductive Pass where
  | decoding
  | listing
deriving DecidableEq, Repr

/-- The name of a pass. -/
def Pass.name : Pass → String
  | decoding => "pass 1"
  | listing => "pass 2"

/-- One thing worth saying. -/
inductive Notice where
  | imageCreated (words : Nat) (origin : BitAddress) (sizeBits : Nat)
  | imageOverfull (capacity ignored : Nat)
  | symbolDefined (name : String) (address : BitAddress)
  | symbolAliased (name : String) (address : BitAddress) (sequence : Nat)
  | extraArguments (line : Nat) (command : String) (rest : String)
  | unknownCommand (line : Nat) (keyword : String)
  | annotationsRead (count : Nat)
  | loaded (bytes : Nat) (origin : BitAddress) (symbols : Nat)
  | passBegun (pass : Pass)
  | timerStarted (pass : Pass)
  | timerTook (pass : Pass) (nanoseconds : Nat)
  | decoded (address : BitAddress) (mnemonic operand : String) (length : Nat)
  | decodingDone (instructions symbols : Nat)
deriving DecidableEq, Repr

namespace Notice

/-- How loudly a notice is given. -/
def level : Notice → Level
  | imageOverfull .. | extraArguments .. | unknownCommand .. => .warn
  | loaded .. | passBegun .. => .info
  | imageCreated .. | symbolAliased .. | annotationsRead .. | timerStarted .. | timerTook ..
  | decodingDone .. => .debug
  | symbolDefined .. | decoded .. => .trace

/-- The part of the program that gives a notice. -/
def source : Notice → String
  | imageCreated .. | imageOverfull .. => "bitdasm::memory::bitmem"
  | symbolDefined .. | symbolAliased .. => "bitdasm::symbol::table"
  | extraArguments .. | unknownCommand .. | annotationsRead .. => "bitdasm::disasm::annotate"
  | loaded .. | passBegun .. | decodingDone .. => "bitdasm::disasm"
  | timerStarted .. | timerTook .. => "bitdasm::utils::logging"
  | decoded .. => "bitdasm::disasm::engine"

/-- Whether a notice only tells the time. -/
def isTiming : Notice → Bool
  | timerStarted .. | timerTook .. => true
  | _ => false

/-- The words of a notice. -/
def text : Notice → String
  | imageCreated words origin sizeBits =>
    s!"bitmem: {words} words at {origin.text} ({sizeBits} bits)"
  | imageOverfull capacity ignored =>
    s!"bitmem: image holds {capacity} bytes, ignoring the last {ignored}"
  | symbolDefined name address => s!"symtab: defined {name} at {address.text}"
  | symbolAliased name address sequence =>
    s!"symtab: {name} aliases {address.text} (sequence {sequence})"
  | extraArguments line command rest =>
    s!"annotations: line {line}: ignoring extra arguments to {command}: {rest}"
  | unknownCommand line keyword => s!"annotations: line {line}: unknown command '{keyword}'"
  | annotationsRead count => s!"annotations: {count} commands"
  | loaded bytes origin symbols =>
    s!"Loaded {bytes} bytes at {origin.text}, {symbols} predefined symbols"
  | passBegun .decoding => "Pass 1: decoding instructions"
  | passBegun .listing => "Pass 2: displaying output"
  | timerStarted pass => s!"[TIMER] {pass.name} started"
  | timerTook pass nanoseconds => s!"[TIMER] {pass.name} took {Duration.text nanoseconds}"
  | decoded address mnemonic operand length =>
    s!"decode: {address.text} {mnemonic} {operand} ({length} bits)"
  | decodingDone instructions symbols =>
    s!"Pass 1: {instructions} instructions, {symbols} symbols"

end Notice

end SpeechRom
