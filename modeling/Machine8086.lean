import Machine8086.Main
import Machine8086.Proofs.Word
import Machine8086.Proofs.Encoding
import Machine8086.Proofs.Memory
import Machine8086.Proofs.Reader
import Machine8086.Proofs.Decoding
import Machine8086.Proofs.WellFormed
import Machine8086.Proofs.RegisterFile
import Machine8086.Proofs.Arithmetic
import Machine8086.Proofs.Meaning
import Machine8086.Proofs.Text
import Machine8086.Proofs.Listing
import Machine8086.Proofs.Simulator
import Machine8086.Proofs.Run
import Machine8086.Proofs.StraightLine
import Machine8086.Proofs.Stepping
import Machine8086.Proofs.ProgramEnd
import Machine8086.Proofs.RunLimit
import Machine8086.Proofs.Estimation
import Machine8086.Proofs.FieldSizes
import Machine8086.Proofs.DecodeErrors
import Machine8086.Proofs.FailedDecoding
import Machine8086.Proofs.Tiling
import Machine8086.Proofs.Concatenation
import Machine8086.Proofs.Relocation
import Machine8086.Proofs.Safety
import Machine8086.Proofs.Continuation
import Machine8086.Proofs.Atomicity
import Machine8086.Proofs.MovedListing
import Machine8086.Proofs.SingleEncoding
import Machine8086.Proofs.Reassembly
import Machine8086.Proofs.Json
import Machine8086.Proofs.Record
import Machine8086.Proofs.Snapshot
import Machine8086.Logged.Action
import Machine8086.Logged.Simulator
import Machine8086.Logged.Session
import Machine8086.Proofs.Logged.Action
import Machine8086.Proofs.Logged.Simulator
import Machine8086.Proofs.Logged.Run
import Machine8086.Proofs.Logged.Listing
import Machine8086.Proofs.Logged.Session
import Machine8086.Proofs.Truncation
import Machine8086.Proofs.Footprint
import Machine8086.Checked.Sink
import Machine8086.Proofs.Checked.Sink
import Machine8086.Proofs.Ascii
import Machine8086.Proofs.CommandLine.Outcome
import Machine8086.Proofs.CommandLine.Arguments
import Machine8086.Proofs.CommandLine.Trace
import Machine8086.Proofs.CutListing
import Machine8086.Proofs.Outcomes
import Machine8086.Proofs.Undoing
import Machine8086.Proofs.Numeral
import Machine8086.Proofs.JumpTarget
import Machine8086.Proofs.CompareBranch
import Machine8086.Proofs.RegisterWrites
import Machine8086.Proofs.Changes
import Machine8086.Proofs.Summary
import Machine8086.Proofs.StoreLoop
import Machine8086.Proofs.WordAccess
import Machine8086.Proofs.Loading
import Machine8086.Proofs.Numeral.Reading
import Machine8086.Proofs.CommandLine.Address
