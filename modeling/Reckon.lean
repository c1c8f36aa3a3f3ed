import Reckon.Evaluator.Task
import Reckon.Grammar
import Reckon.Main
import Reckon.Session.Desk
import Reckon.Token
import Reckon.Proofs.Precedence
import Reckon.Proofs.Double
import Reckon.Proofs.NearestDouble
import Reckon.Proofs.DecimalDouble
import Reckon.Proofs.LexerSteps
import Reckon.Proofs.LiteralReading
import Reckon.Proofs.PrintedTree
import Reckon.Proofs.LiteralPower
import Reckon.Proofs.PowerSign
import Reckon.Proofs.BarePoint
import Reckon.Proofs.Transparency
import Reckon.Proofs.LatestQueries
import Reckon.Proofs.LastResult
import Reckon.Proofs.ErrorContract
import Reckon.Proofs.FoldedText
import Reckon.Proofs.LiteralPercent
import Reckon.Proofs.WrittenNumber
import Reckon.Proofs.SpelledKeys
import Reckon.Proofs.OpenConversation
import Reckon.Proofs.StackDiscipline
import Reckon.Proofs.Rearrangement
import Reckon.Proofs.PrintedBatch
import Reckon.Proofs.CanceledSigns
import Reckon.Proofs.SpelledLexemes
import Reckon.Proofs.FlankedPoints
import Reckon.Proofs.UnwrittenProduct
import Reckon.Proofs.MemoryAccounts
import Reckon.Proofs.LoweredCapacity
import Reckon.Proofs.NumberCells
import Reckon.Proofs.ToggledSign
import Reckon.Proofs.HistoryLog
import Reckon.Proofs.ThousandGroups
import Reckon.Proofs.LetterCase
import Reckon.Proofs.KeyFailures
import Reckon.Proofs.SavedResults
