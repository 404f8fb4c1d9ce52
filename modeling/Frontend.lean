import Frontend.Language.Lexer
import Frontend.Language.Grammar
import Frontend.Language.Table
import Frontend.Script.Lexer
import Frontend.Grammar.SlrText
import Frontend.Parse.Pipeline
import Frontend.Predictive.Analysis
import Frontend.Text.Box
import Frontend.Main
import Frontend.Proofs.Grammar.ReadingOrders
import Frontend.Proofs.Grammar.FirstSets
import Frontend.Proofs.Grammar.FollowSets
import Frontend.Proofs.Language.LongestMatch
import Frontend.Proofs.Language.Lines
import Frontend.Proofs.Predictive.Derivation
import Frontend.Proofs.Predictive.Termination
import Frontend.Proofs.Parse.Calls
import Frontend.Proofs.Parse.Children
import Frontend.Proofs.Parse.Loading
import Frontend.Proofs.Parse.Stack
import Frontend.Proofs.Tree.Walk
import Frontend.Proofs.Predictive.Bounds
import Frontend.Proofs.Scanner.Outcomes
import Frontend.Proofs.Language.DigitLimit
import Frontend.Proofs.Script.Shadowing
import Frontend.Proofs.Text.Columns
