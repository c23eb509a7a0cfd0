import LogInterface.Generation.Catalogue
import LogInterface.Generation.Directory
import LogInterface.Proofs.Companion.Binding
import LogInterface.Proofs.Companion.Bridge
import LogInterface.Proofs.Companion.Capture
import LogInterface.Proofs.Companion.Conversions
import LogInterface.Proofs.Companion.Forms
import LogInterface.Proofs.Companion.LawfulView
import LogInterface.Proofs.Companion.Message
import LogInterface.Proofs.Companion.Rejection
import LogInterface.Proofs.Companion.Rerooting
import LogInterface.Proofs.Companion.Session
import LogInterface.Proofs.Companion.Shadowing
import LogInterface.Proofs.Companion.Unreferenced
import LogInterface.Proofs.Companion.View
import LogInterface.Proofs.Generation.Atomic
import LogInterface.Proofs.Generation.EntryPoints
import LogInterface.Proofs.Generation.FixedPoint
import LogInterface.Proofs.Generation.Legal
import LogInterface.Proofs.Generation.LoaderLine
import LogInterface.Proofs.Interface.Culprit
import LogInterface.Proofs.Interface.MessageArguments
import LogInterface.Proofs.Interface.Once
import LogInterface.Proofs.Interface.Pointing
import LogInterface.Proofs.Logging.Entries
import LogInterface.Proofs.Logging.Primitive
import LogInterface.Proofs.Logging.Unambiguous
import LogInterface.Proofs.Template.RoundTrip
import LogInterface.Proofs.Template.Unterminated
import LogInterface.Proofs.Text.Alignment
import LogInterface.Proofs.Text.Inside
import LogInterface.Proofs.Interface.SnakeCase
import LogInterface.Proofs.Template.Replacement
import LogInterface.Proofs.Interface.Suggestion
import LogInterface.Proofs.Parser.PlainPath
import LogInterface.Proofs.Interface.ExtensionArguments
import LogInterface.Proofs.Companion.Manifest
