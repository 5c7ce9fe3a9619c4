import Redstone.Assembly.Program
import Redstone.CommandLine.Commands
import Redstone.Image.Format
import Redstone.Listing
import Redstone.Machine.Report
import Redstone.Main
import Redstone.Ports.Console
import Redstone.Ports.Handoff
import Redstone.Ports.Script
import Redstone.Terminal.Window
import Redstone.Proofs.Instruction.Codec
import Redstone.Proofs.Instruction.Padding
import Redstone.Proofs.Instruction.Agreement
import Redstone.Proofs.Instruction.Text
import Redstone.Proofs.Text.Numeral
import Redstone.Proofs.Text.Blank
import Redstone.Proofs.Text.Lines
import Redstone.Proofs.Program.Basic
import Redstone.Proofs.Program.Statement
import Redstone.Proofs.Program.Names
import Redstone.Proofs.Program.Overflow
import Redstone.Proofs.Program.Declarations
import Redstone.Proofs.Program.Session
import Redstone.Proofs.Program.Operand
import Redstone.Proofs.Program.Image
import Redstone.Proofs.Program.Arrangement
import Redstone.Proofs.Program.Faults
import Redstone.Proofs.Program.Feeding
import Redstone.Proofs.Program.Numbering
import Redstone.Proofs.Program.Tiling
import Redstone.Proofs.Program.Partition
import Redstone.Proofs.Program.Spans
import Redstone.Proofs.Program.LetterCase
import Redstone.Proofs.Program.Literal
import Redstone.Proofs.Program.Alias
import Redstone.Proofs.Program.Spelling
import Redstone.Proofs.Program.Respelled
import Redstone.Proofs.Program.Token
import Redstone.Proofs.Program.Written
import Redstone.Proofs.Program.Quoting
import Redstone.Proofs.Machine.Table
import Redstone.Proofs.Machine.Refinement
import Redstone.Proofs.Machine.Code
import Redstone.Proofs.Machine.Label
import Redstone.Proofs.Machine.Reachable
import Redstone.Proofs.Machine.Calls
import Redstone.Proofs.Machine.Run
import Redstone.Proofs.Machine.Resume
import Redstone.Proofs.Machine.Pieces
import Redstone.Proofs.Machine.Limit
import Redstone.Proofs.Machine.Memory
import Redstone.Proofs.Machine.Unread
import Redstone.Proofs.Machine.NewestCalls
import Redstone.Proofs.Machine.StopReasons
import Redstone.Proofs.Image.Detect
import Redstone.Proofs.Image.Annotated
import Redstone.Proofs.Image.Language
import Redstone.Proofs.Listing.Lines
import Redstone.Proofs.Listing.Columns
import Redstone.Proofs.Listing.Reassembly
import Redstone.Proofs.Ports.Delivery
import Redstone.Proofs.Ports.Console
import Redstone.Proofs.Ports.Requests
import Redstone.Proofs.Terminal.Scrollback
import Redstone.Proofs.Terminal.Typing
import Redstone.Proofs.Terminal.History
import Redstone.Proofs.Terminal.Pending
import Redstone.Proofs.CommandLine.FileTree
import Redstone.Proofs.CommandLine.Assembling
import Redstone.Proofs.CommandLine.Input
import Redstone.Proofs.Machine.Console
