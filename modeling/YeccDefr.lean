import YeccDefr.CommandLine.Workspace
import YeccDefr.Main
import YeccDefr.Proofs.Source.Points
import YeccDefr.Proofs.Grammar.Flattening
import YeccDefr.Proofs.Lexing.RuleTable
import YeccDefr.Proofs.Lexing.Printing
import YeccDefr.Proofs.Lexing.Unrecognized
import YeccDefr.Proofs.Grammar.Sequence
import YeccDefr.Proofs.Grammar.Unplaced
import YeccDefr.Proofs.Grammar.Rereading
import YeccDefr.Proofs.Output.Agreement
import YeccDefr.Proofs.Output.Growth
import YeccDefr.Proofs.Translation.Separate
import YeccDefr.Proofs.Grammar.Gaps
import YeccDefr.Proofs.Translation.Session
import YeccDefr.Proofs.Output.Parameters
import YeccDefr.Proofs.Output.Requests
import YeccDefr.Proofs.Output.Statements
import YeccDefr.Proofs.Output.Warnings
import YeccDefr.Proofs.Output.Layouts
import YeccDefr.Proofs.Output.Assembly
import YeccDefr.Proofs.Output.SymbolLists
import YeccDefr.Proofs.Output.CharacterLiterals
import YeccDefr.Proofs.Output.Neighbours
import YeccDefr.Proofs.Output.QuotedAtoms
import YeccDefr.Proofs.Output.NameTable
import YeccDefr.Proofs.Translation.Bindings
import YeccDefr.Proofs.Translation.Keywords
import YeccDefr.Proofs.Translation.Places
import YeccDefr.Proofs.Safety.Translation
import YeccDefr.Proofs.CommandLine.Effects
import YeccDefr.Proofs.CommandLine.Sources
