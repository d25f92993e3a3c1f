import SpeechRom.Address
import SpeechRom.Annotation.Basic
import SpeechRom.Annotation.Parser
import SpeechRom.Avl.Index
import SpeechRom.Avl.Tree
import SpeechRom.Avl.Walk
import SpeechRom.CommandLine.Arguments
import SpeechRom.CommandLine.Folder
import SpeechRom.CommandLine.Palette
import SpeechRom.CommandLine.Run
import SpeechRom.Decode
import SpeechRom.Disassembly
import SpeechRom.Duration
import SpeechRom.Fault
import SpeechRom.Format.Basic
import SpeechRom.Format.Sp0256
import SpeechRom.Image.Basic
import SpeechRom.Image.Tags
import SpeechRom.Instruction
import SpeechRom.Json.Printer
import SpeechRom.Json.Reader
import SpeechRom.Listing
import SpeechRom.Main
import SpeechRom.Mode
import SpeechRom.Notice
import SpeechRom.Settings.Basic
import SpeechRom.Settings.File
import SpeechRom.Symbol.Basic
import SpeechRom.Symbol.Dump
import SpeechRom.Symbol.Export
import SpeechRom.Symbol.Table
import SpeechRom.Tag
import SpeechRom.Text.Blank
import SpeechRom.Text.Cased
import SpeechRom.Text.Digits
import SpeechRom.Text.Lowercase
import SpeechRom.Text.Printable
import SpeechRom.Text.Quoted
import SpeechRom.Text.Ranges
import SpeechRom.Text.Split
import SpeechRom.Proofs.Avl.Heights
import SpeechRom.Proofs.Avl.Runs
import SpeechRom.Proofs.Avl.Sorted
import SpeechRom.Proofs.Avl.Search
import SpeechRom.Proofs.Text.Utf8
import SpeechRom.Proofs.Symbol.Ledger
import SpeechRom.Proofs.Address
import SpeechRom.Proofs.Format.Lengths
import SpeechRom.Proofs.Decode.Steps
import SpeechRom.Proofs.Image.Tags
import SpeechRom.Proofs.Decode.Tiling
import SpeechRom.Proofs.Symbol.Named
import SpeechRom.Proofs.Decode.Labels
import SpeechRom.Proofs.Symbol.Refinement
import SpeechRom.Proofs.Image.Bits
import SpeechRom.Proofs.Image.Bytes
import SpeechRom.Proofs.Decode.Branches
import SpeechRom.Proofs.Decode.TargetSites
import SpeechRom.Proofs.Decode.Modes
import SpeechRom.Proofs.Decode.Wrapping
import SpeechRom.Proofs.Listing.Captions
import SpeechRom.Proofs.Decode.Replay
import SpeechRom.Proofs.Listing.Repetition
import SpeechRom.Proofs.Listing.Rows
import SpeechRom.Proofs.Listing.Lossless
import SpeechRom.Proofs.Image.Flags
import SpeechRom.Proofs.Decode.Coverage
import SpeechRom.Proofs.Decode.Agreement
import SpeechRom.Proofs.Decode.Prefixes
import SpeechRom.Proofs.Listing.Counts
import SpeechRom.Proofs.Text.Words
import SpeechRom.Proofs.Text.Digits
import SpeechRom.Proofs.Symbol.Restoring
import SpeechRom.Proofs.Annotation.Grammar
import SpeechRom.Proofs.Annotation.Writing
import SpeechRom.Proofs.Avl.LinearSearch
import SpeechRom.Proofs.Avl.HeightBound
import SpeechRom.Proofs.Decode.Frame
import SpeechRom.Proofs.Decode.Letters
import SpeechRom.Proofs.Listing.Blocks
import SpeechRom.Proofs.Listing.Pieces
import SpeechRom.Proofs.Symbol.Dumps
import SpeechRom.Proofs.Listing.Partition
import SpeechRom.Proofs.Avl.Soundness
import SpeechRom.Proofs.Annotation.Overlay
import SpeechRom.Proofs.Annotation.Mentions
import SpeechRom.Proofs.Decode.Setup
import SpeechRom.Proofs.Json.RoundTrip
import SpeechRom.Proofs.Settings.Saved
import SpeechRom.Proofs.Avl.Answers
