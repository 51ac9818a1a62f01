import OpeningHand.Text.Blank
import OpeningHand.Text.Digit
import OpeningHand.Text.Quoted
import OpeningHand.Text.Word
import OpeningHand.Number.Shortest
import OpeningHand.Number.Whole
import OpeningHand.Document.Shown
import OpeningHand.Fault
import OpeningHand.Condition.Basic
import OpeningHand.Json.Reader
import OpeningHand.Json.Writer
import OpeningHand.Condition.OfTokens
import OpeningHand.Condition.Written
import OpeningHand.Condition.Tree
import OpeningHand.Card.DeckList
import OpeningHand.Condition.Draft
import OpeningHand.Search.Simulation
import OpeningHand.Trial.Run
import OpeningHand.Report.Table
import OpeningHand.Main
import OpeningHand.Proofs.Condition.Orders
import OpeningHand.Proofs.Condition.SettingAside
import OpeningHand.Proofs.Condition.Grammar
import OpeningHand.Proofs.Search.Legality
import OpeningHand.Proofs.Play.Conservation
import OpeningHand.Proofs.Play.Costs
import OpeningHand.Proofs.Search.Truncation
import OpeningHand.Proofs.Condition.Conjunction
import OpeningHand.Proofs.Play.Losses
import OpeningHand.Proofs.Report.Shares
import OpeningHand.Proofs.Condition.Growth
import OpeningHand.Proofs.Search.Termination
import OpeningHand.Proofs.DeckFile.Json
import OpeningHand.Proofs.Search.Depth
import OpeningHand.Proofs.Condition.Regrouping
import OpeningHand.Proofs.Trial.Audit
import OpeningHand.Proofs.Search.Copies
import OpeningHand.Proofs.Report.Existence
import OpeningHand.Proofs.DeckFile.Faults
import OpeningHand.Proofs.Condition.Usefulness
import OpeningHand.Proofs.Play.Spending
import OpeningHand.Proofs.Play.Excavation
import OpeningHand.Proofs.Report.Rows
import OpeningHand.Proofs.Search.Successes
import OpeningHand.Proofs.Report.Accounts
import OpeningHand.Proofs.Condition.Decoding
import OpeningHand.Proofs.DeckFile.Audit
import OpeningHand.Proofs.DeckFile.Rules
import OpeningHand.Proofs.DeckFile.Csv
import OpeningHand.Proofs.Condition.Pieces
import OpeningHand.Proofs.Condition.Respacing
import OpeningHand.Proofs.Condition.Nesting
import OpeningHand.Proofs.DeckFile.Trees
import OpeningHand.Proofs.Play.Copying
import OpeningHand.Proofs.Trial.Workers
