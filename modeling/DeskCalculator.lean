import DeskCalculator.Preferences.Stored
import DeskCalculator.Proofs.Equation.Shown
import DeskCalculator.Proofs.Formula.Evaluation
import DeskCalculator.Window.Frame
import DeskCalculator.Proofs.Calculation.Faults
import DeskCalculator.Proofs.Session.Effect
import DeskCalculator.Proofs.Keypad.Line
import DeskCalculator.Proofs.Session.Preview
import DeskCalculator.Proofs.Keypad.Keyed
import DeskCalculator.Proofs.Keypad.Typing
import DeskCalculator.Proofs.Session.Prompt
import DeskCalculator.Proofs.Window.Isolation
import DeskCalculator.Proofs.Session.Confirmation
import DeskCalculator.Proofs.Window.Keys
import DeskCalculator.Proofs.Window.Labels
import DeskCalculator.Proofs.Window.BothOpen
import DeskCalculator.Proofs.Window.Clearing
import DeskCalculator.Proofs.Formula.BareValue
import DeskCalculator.Proofs.Formula.CleanLine
import DeskCalculator.Proofs.Keypad.Sound
import DeskCalculator.Proofs.Equation.Exact
import DeskCalculator.Proofs.Display.Stable
import DeskCalculator.Proofs.Equation.Swapped
import DeskCalculator.Proofs.Equation.Witness
import DeskCalculator.Proofs.Formula.Simultaneous
import DeskCalculator.Proofs.Display.Lossless
import DeskCalculator.Proofs.Formula.PercentSign
import DeskCalculator.Proofs.Display.Shape
import DeskCalculator.Proofs.Display.Fraction
import DeskCalculator.Proofs.Formula.Listing
import DeskCalculator.Proofs.Display.Thousands
import DeskCalculator.Proofs.Formula.LeadingNumber
import DeskCalculator.Proofs.Preferences.Scale
import DeskCalculator.Proofs.Calculation.Answers
