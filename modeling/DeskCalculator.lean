import DeskCalculator.Main
import DeskCalculator.Proofs.Expression
import DeskCalculator.Proofs.Precedence
import DeskCalculator.Proofs.TreeValue
import DeskCalculator.Proofs.MachineSteps
import DeskCalculator.Proofs.TreeOfRun
import DeskCalculator.Proofs.Reordering
import DeskCalculator.Proofs.Stages
import DeskCalculator.Proofs.Writings
import DeskCalculator.Proofs.InfixPlaces
import DeskCalculator.Proofs.Token.Runs
import DeskCalculator.Proofs.Number.Display
import DeskCalculator.Proofs.Keypad.History
import DeskCalculator.Proofs.Keypad.Results
import DeskCalculator.Proofs.Keypad.Screen
import DeskCalculator.Proofs.Keypad.Spelling
import DeskCalculator.Proofs.Keypad.StartOver
import DeskCalculator.Proofs.Keypad.TypedExpression
import DeskCalculator.Proofs.Number.Zero
import DeskCalculator.Proofs.Token.Printing
import DeskCalculator.Proofs.Keypad.Buffers
import DeskCalculator.Proofs.Keypad.Continued
import DeskCalculator.Proofs.Nesting
import DeskCalculator.Proofs.OperandCount
import DeskCalculator.Proofs.WordsKept
import DeskCalculator.Proofs.StackBase
import DeskCalculator.Proofs.Groups
import DeskCalculator.Proofs.Console.Feed
import DeskCalculator.Proofs.Console.Session
import DeskCalculator.Proofs.Console.TypedLine
import DeskCalculator.Proofs.Console.HistoryNumbers
import DeskCalculator.Proofs.Margins
import DeskCalculator.Proofs.Keypad.Calculation
import DeskCalculator.Proofs.Keypad.PointGuard
import DeskCalculator.Proofs.Keypad.Replay
import DeskCalculator.Proofs.Minuses
import DeskCalculator.Proofs.Token.Lexemes
import DeskCalculator.Proofs.Keypad.Keystrokes
import DeskCalculator.Proofs.Number.Trace
import DeskCalculator.Proofs.Console.DumpedOrder
