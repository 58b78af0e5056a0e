import LittleMan.Text.Blank
import LittleMan.Text.Lines
import LittleMan.Text.Quoted
import LittleMan.Text.Integer
import LittleMan.Text.Utf8
import LittleMan.Text.Distance
import LittleMan.Opcode
import LittleMan.Memory
import LittleMan.Run
import LittleMan.Source.Statement
import LittleMan.TagTable
import LittleMan.Program
import LittleMan.Snapshot.Text
import LittleMan.Snapshot.Binary
import LittleMan.Listing
import LittleMan.Packing
import LittleMan.Path
import LittleMan.Settings
import LittleMan.Grading.Case
import LittleMan.Grading.Polynomial
import LittleMan.Debugger.Rehearsal
import LittleMan.Text.Resemblance
import LittleMan.CommandLine.Transcript
import LittleMan.Main
import LittleMan.Proofs.Text.Lines
import LittleMan.Proofs.Text.Fields
import LittleMan.Proofs.Text.Decimal
import LittleMan.Proofs.Parsing
import LittleMan.Proofs.Survey
import LittleMan.Proofs.Assembly
import LittleMan.Proofs.AssembledProgram
import LittleMan.Proofs.Packing.Lines
import LittleMan.Proofs.Packing.Statements
import LittleMan.Proofs.Packing
import LittleMan.Proofs.Machine
import LittleMan.Proofs.Run
import LittleMan.Proofs.Snapshot.Binary
import LittleMan.Proofs.Snapshot.Text
import LittleMan.Proofs.Session
import LittleMan.Proofs.Listing
import LittleMan.Proofs.SourceListing
import LittleMan.Proofs.Grading.Grade
import LittleMan.Proofs.Grading.Script
import LittleMan.Proofs.Grading.Report
import LittleMan.Proofs.Grading.Pool
import LittleMan.Proofs.Steps
import LittleMan.Proofs.Budget
import LittleMan.Proofs.Imitation
import LittleMan.Proofs.Grading.Case
import LittleMan.Proofs.Stopping
import LittleMan.Proofs.Debugger.Progress
import LittleMan.Proofs.Debugger.Halting
import LittleMan.Proofs.Debugger.Stepping
import LittleMan.Proofs.Truncation
import LittleMan.Proofs.Faults
import LittleMan.Proofs.Verdict
import LittleMan.Proofs.LongLiterals
import LittleMan.Proofs.Debugger.Rejection
import LittleMan.Proofs.Debugger.Points
import LittleMan.Proofs.Debugger.Checkpoints
import LittleMan.Proofs.CommandLine.Extent
import LittleMan.Proofs.CommandLine.Actions
import LittleMan.Proofs.CommandLine.PolynomialTest
import LittleMan.Proofs.Rendering
import LittleMan.Proofs.Packing.Layout
import LittleMan.Proofs.Packing.Settled
import LittleMan.Proofs.Packing.PackedTags
import LittleMan.Proofs.NegativeFlag
import LittleMan.Proofs.Relayout
import LittleMan.Proofs.Renaming
import LittleMan.Proofs.Locations
import LittleMan.Proofs.UnreadInput
import LittleMan.Proofs.Snapshot.Diagnosis
import LittleMan.Proofs.Text.Pieces
import LittleMan.Proofs.Grading.Record
import LittleMan.Proofs.Grading.TestFile
import LittleMan.Proofs.Debugger.Labels
import LittleMan.Proofs.Loading
import LittleMan.Proofs.Images
import LittleMan.Proofs.Assembler
import LittleMan.Proofs.Text.Edits
import LittleMan.Proofs.Similarity
import LittleMan.Proofs.Naming
import LittleMan.Proofs.Accumulation
