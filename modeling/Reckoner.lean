import Reckoner.Http.Router
import Reckoner.Main
import Reckoner.Programmer.Keypad
import Reckoner.Proofs.Expression.Grammar
import Reckoner.Proofs.Expression.Unambiguous
import Reckoner.Proofs.Expression.Parser
import Reckoner.Proofs.Expression.Size
import Reckoner.Proofs.Numeral
import Reckoner.Proofs.Programmer.Word
import Reckoner.Proofs.Programmer.Machine
import Reckoner.Proofs.Programmer.Chain
import Reckoner.Proofs.Programmer.Pending
import Reckoner.Proofs.Programmer.Display
import Reckoner.Proofs.Programmer.Recovery
import Reckoner.Proofs.Decimal.Notation
import Reckoner.Proofs.Rounding
import Reckoner.Proofs.Amount
import Reckoner.Proofs.Settings.Disk
import Reckoner.Proofs.Settings.Sound
import Reckoner.Proofs.Json.Reading
import Reckoner.Proofs.Settings.Store
import Reckoner.Proofs.CommandLine.Keeping
import Reckoner.Proofs.Http.Response
import Reckoner.Proofs.Units.Lookup
import Reckoner.Proofs.Units.Conversion
import Reckoner.Proofs.Http.Conversion
import Reckoner.Proofs.CommandLine.Agreement
import Reckoner.Proofs.Programmer.Arithmetic
import Reckoner.Proofs.Programmer.Reading
import Reckoner.Proofs.Double.Rounding
import Reckoner.Proofs.Double.Arithmetic
import Reckoner.Proofs.Units.Range
import Reckoner.Proofs.Http.Range
import Reckoner.Proofs.Decimal.Reading
import Reckoner.Proofs.Decimal.Grammar
import Reckoner.Proofs.Expression.Layout
import Reckoner.Proofs.Quantity
import Reckoner.Proofs.Expression.Variable
import Reckoner.Proofs.Quantity.Split
import Reckoner.Proofs.Quantity.Forms
import Reckoner.Proofs.Quantity.Alone
import Reckoner.Proofs.Amount.Order
import Reckoner.Proofs.Amount.Reread
import Reckoner.Proofs.Text.Fold
import Reckoner.Proofs.Units.Naming
import Reckoner.Proofs.Units.Outcome
import Reckoner.Proofs.Units.Exact
import Reckoner.Proofs.CommandLine.Locating
import Reckoner.Proofs.Settings.Field
import Reckoner.Proofs.Json.Grammar
import Reckoner.Proofs.Settings.Assigning
import Reckoner.Proofs.Settings.Loading
import Reckoner.Proofs.Graph.Sample
import Reckoner.Proofs.Graph.Plot
import Reckoner.Proofs.Graph.Window
import Reckoner.Proofs.Double.Nearest
import Reckoner.Proofs.Graph.Fitting
import Reckoner.Proofs.Json.Skipping
import Reckoner.Proofs.Request.Values
import Reckoner.Proofs.Request.Body
import Reckoner.Proofs.Request.Rearranged
