import InfixCalculator.CommandLine.Program
import InfixCalculator.Main
import InfixCalculator.Proofs.Simulation
import InfixCalculator.Proofs.Formula
import InfixCalculator.Proofs.Convention
import InfixCalculator.Proofs.Acceptance
import InfixCalculator.Proofs.Lockstep
import InfixCalculator.Proofs.Pulls
import InfixCalculator.Proofs.Reachable
import InfixCalculator.Proofs.Outcome
import InfixCalculator.Proofs.Isolation
import InfixCalculator.Proofs.Conversation
import InfixCalculator.Proofs.Stalling
import InfixCalculator.Proofs.CsvReading
import InfixCalculator.Proofs.Wording
import InfixCalculator.Proofs.SavedTable
import InfixCalculator.Proofs.Doubles
import InfixCalculator.Proofs.ExactReading
import InfixCalculator.Proofs.Literals
import InfixCalculator.Proofs.Lossless
import InfixCalculator.Proofs.Conservation
import InfixCalculator.Proofs.Inventory
import InfixCalculator.Proofs.Wrapping
import InfixCalculator.Proofs.Increments
import InfixCalculator.Proofs.Postorder
import InfixCalculator.Proofs.ReadBack
import InfixCalculator.Proofs.TextFiles
import InfixCalculator.Proofs.PrintedLines
import InfixCalculator.Proofs.LastParenthesis
import InfixCalculator.Proofs.Progress
import InfixCalculator.Proofs.Meaning
