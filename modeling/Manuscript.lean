import Manuscript.FileTree.Edit
import Manuscript.Main
import Manuscript.Proofs.Document.Environments
import Manuscript.Proofs.Document.Braces
import Manuscript.Proofs.Inline.Markup
import Manuscript.Proofs.Document.MarkupFree
import Manuscript.Proofs.Document.EventOrder
import Manuscript.Proofs.Document.Fenced
import Manuscript.Proofs.Document.Trace
import Manuscript.Proofs.Document.Unterminated
import Manuscript.Proofs.Document.Session
import Manuscript.Proofs.Batch.Streaming
import Manuscript.Proofs.Batch.Results
import Manuscript.Proofs.FileTree.Way
import Manuscript.Proofs.Batch.Vanishing
import Manuscript.Proofs.Batch.Isolation
import Manuscript.Proofs.CommandLine.Agreement
import Manuscript.Proofs.Inline.Precedence
import Manuscript.Proofs.Inline.Surroundings
import Manuscript.Proofs.Inline.Citations
import Manuscript.Proofs.Destinations
import Manuscript.Proofs.Enumeration
import Manuscript.Proofs.Document.Textless
import Manuscript.Proofs.CommandLine.Reporting
import Manuscript.Proofs.Document.RuleOrder
import Manuscript.Proofs.LastSetting
import Manuscript.Proofs.Inline.CodeParts
import Manuscript.Proofs.Report.Survival
