/-!
What can go wrong with a file, with the words in which the operating system reports it.
-/

namespace SpeechRom

/-- A failure to read or to create a file. -/
inductive FileFault where
  | missing
  | denied
  | notDirectory
  | isDirectory
  | nameTooLong
  | nulInName
  | notText
  | other (message : String)
deriving DecidableEq, Repr

/-- The report of a failure. -/
def FileFault.message : FileFault → String
  | missing => "No such file or directory (os error 2)"
  | denied => "Permission denied (os error 13)"
  | notDirectory => "Not a directory (os error 20)"
  | isDirectory => "Is a directory (os error 21)"
  | nameTooLong => "File name too long (os error 36)"
  | nulInName => "file name contained an unexpected NUL byte"
  | notText => "stream did not contain valid UTF-8"
  | other message => message

/-- The contents of a file. -/
abbrev Bytes := Array UInt8

/-- The text that bytes spell in UTF-8. -/
def Bytes.text? (bytes : Bytes) : Except FileFault String :=
  match String.fromUTF8? (ByteArray.mk bytes) with
  | some text => .ok text
  | none => .error .notText

end SpeechRom
