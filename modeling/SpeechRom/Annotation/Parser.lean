import SpeechRom.Annotation.Basic
import SpeechRom.Text.Blank

/-!
Annotation files. A line holds a keyword and its arguments, separated by white space, and ends at a
semicolon. Unknown keywords are passed over with a warning, and bad arguments end the reading.
-/

namespace SpeechRom

-----------------------------------------------------------------------------------------
-- Errors
-----------------------------------------------------------------------------------------

/-- What is wrong with the arguments of a line. -/
inductive ArgumentFault where
  | needsRange
  | needsNumber
  | needsNameAndNumber
  | notNumber (word : String)
  | reversedRange
deriving DecidableEq, Repr

def ArgumentFault.message : ArgumentFault → String
  | needsRange => "requires 1 or 2 numeric args"
  | needsNumber => "requires 1 numeric arg"
  | needsNameAndNumber => "requires 2 args, and the second must be numeric"
  | notNumber word => s!"'{word}' is not a 16-bit hex number"
  | reversedRange => "range ends before it starts"

/-- Why an annotation file cannot be used. -/
inductive AnnotationError where
  | badArgument (line : Nat) (command : String) (fault : ArgumentFault)
  | unreadable (fault : FileFault)
deriving DecidableEq, Repr

namespace AnnotationError

def message : AnnotationError → String
  | badArgument line command fault => s!"Line {line}: {command} {fault.message}"
  | unreadable fault => "IO error: " ++ fault.message

def causes (error : AnnotationError) : List String :=
  match error with
  | unreadable fault => [error.message, fault.message]
  | _ => [error.message]

end AnnotationError

-----------------------------------------------------------------------------------------
-- Numbers
-----------------------------------------------------------------------------------------

namespace Annotations

/-- The digits of a number, after a dollar sign or a leading `0x`, if there is one. -/
def numberDigits : List Char → List Char
  | '$' :: digits => digits
  | '0' :: 'x' :: digits => digits
  | '0' :: 'X' :: digits => digits
  | digits => digits

/-- A byte address in hexadecimal, at most `FFFF`. -/
def readByte? (word : List Char) : Option UInt32 :=
  match Text.readHex? (numberDigits word) with
  | some value => if value ≤ 0xFFFF then some (UInt32.ofNat value) else none
  | none => none

/-- A byte address, or the fault that names the word. -/
def readByte (word : List Char) : Except ArgumentFault UInt32 :=
  match readByte? word with
  | some byte => .ok byte
  | none => .error (.notNumber (String.ofList word))

/-- The two sides of a single dash with something on either side of it. -/
def rangeSides? (word : List Char) : Option (List Char × List Char) :=
  match Text.splitOn (· == '-') word with
  | [first, last] => if first.isEmpty || last.isEmpty then none else some (first, last)
  | _ => none

/-- A range from its two ends. The first fault counts. -/
def readEnds (first last : List Char) : Except ArgumentFault ByteRange :=
  match readByte first with
  | .error fault => .error fault
  | .ok first =>
    match readByte last with
    | .error fault => .error fault
    | .ok last => if last < first then .error .reversedRange else .ok ⟨first, last⟩

/-- A range: one byte, two bytes joined by a dash, or two words. -/
def readRange : List (List Char) → Except ArgumentFault ByteRange
  | [] => .error .needsRange
  | [word] =>
    match rangeSides? word with
    | some (first, last) => readEnds first last
    | none => readEnds word word
  | first :: last :: _ => readEnds first last

-----------------------------------------------------------------------------------------
-- Lines
-----------------------------------------------------------------------------------------

/-- The keywords that start an annotation. -/
inductive Keyword where
  | code
  | data
  | operand
  | origin
  | symbol
deriving DecidableEq, Repr

namespace Keyword

/-- The spelling of a keyword. -/
def name : Keyword → String
  | code => "code"
  | data => "data"
  | operand => "oper"
  | origin => "org"
  | symbol => "sym"

/-- Reads a keyword in small letters. -/
def ofName? : String → Option Keyword
  | "code" => some code
  | "data" => some data
  | "oper" => some operand
  | "org" => some origin
  | "sym" => some symbol
  | _ => none

/-- How many arguments are used when that many are given. -/
def arity : Keyword → Nat
  | origin => 1
  | _ => 2

/-- The annotation that a keyword and its arguments make. -/
def read (keyword : Keyword) (arguments : List (List Char)) : Except ArgumentFault Annotation :=
  match keyword, arguments with
  | code, arguments => (readRange arguments).map .code
  | data, arguments => (readRange arguments).map .data
  | operand, arguments => (readRange arguments).map .operand
  | origin, value :: _ => (readByte value).map .origin
  | origin, [] => .error .needsNumber
  | symbol, name :: value :: _ => (readByte value).map (.symbol (String.ofList name))
  | symbol, _ => .error .needsNameAndNumber

end Keyword

/-- The words of a line, up to the first semicolon. -/
def lineWords (line : List Char) : List (List Char) :=
  Text.words (line.takeWhile (· != ';'))

/-- What a line says. -/
inductive Line where
  | blank
  | unknown (keyword : String)
  | command (keyword : Keyword) (arguments : List (List Char))

/-- Splits a line into its keyword, in small letters, and its arguments. -/
def Line.ofChars (line : List Char) : Line :=
  match lineWords line with
  | [] => .blank
  | word :: arguments =>
    let keyword := String.ofList (Text.lowerChars word)
    match Keyword.ofName? keyword with
    | some keyword => .command keyword arguments
    | none => .unknown keyword

/-- The warning about arguments that are not used. -/
def extraNotices (number : Nat) (keyword : Keyword) (arguments : List (List Char)) :
    List Notice :=
  match arguments.drop keyword.arity with
  | [] => []
  | rest =>
    [.extraArguments number keyword.name (String.intercalate " " (rest.map String.ofList))]

-----------------------------------------------------------------------------------------
-- Files
-----------------------------------------------------------------------------------------

/-- What reading gives: the annotations or an error, and the notices up to that point. -/
structure Reading where
  outcome : Except AnnotationError Annotations
  notices : List Notice

/-- Reads lines, the first of which has the given number. Annotations and notices of earlier
lines are passed along, the latest first.
-/
def readLines (number : Nat) (annotations : List Annotation) (notices : List Notice) :
    List (List Char) → Reading
  | [] =>
    ⟨.ok annotations.reverse, (.annotationsRead annotations.length :: notices).reverse⟩
  | line :: rest =>
    match Line.ofChars line with
    | .blank => readLines (number + 1) annotations notices rest
    | .unknown keyword =>
      readLines (number + 1) annotations (.unknownCommand number keyword :: notices) rest
    | .command keyword arguments =>
      let notices := (extraNotices number keyword arguments) ++ notices
      match keyword.read arguments with
      | .error fault => ⟨.error (.badArgument number keyword.name fault), notices.reverse⟩
      | .ok read => readLines (number + 1) (read :: annotations) notices rest

/-- Reads the text of an annotation file. -/
def parse (text : String) : Reading := readLines 1 [] [] (Text.lines text)

/-- Reads an annotation file. -/
def parseFile (contents : Except FileFault Bytes) : Reading :=
  match contents with
  | .error fault => ⟨.error (.unreadable fault), []⟩
  | .ok bytes =>
    match bytes.text? with
    | .error fault => ⟨.error (.unreadable fault), []⟩
    | .ok text => parse text

end Annotations

end SpeechRom
