import CallSignature.Diagnostic
import CallSignature.Options.Document
import CallSignature.Proofs.Checked.Description
import CallSignature.Proofs.Comment.Splitting
import CallSignature.Proofs.Cursor.Indexed
import CallSignature.Proofs.Description.Arity
import CallSignature.Proofs.Description.Bodies
import CallSignature.Proofs.Description.Names
import CallSignature.Proofs.Description.Origins
import CallSignature.Proofs.Description.PrivateFields
import CallSignature.Proofs.Diagnostic.Caret
import CallSignature.Proofs.Head.ClassRecognition
import CallSignature.Proofs.Head.Restored
import CallSignature.Proofs.Literal.Tracking
import CallSignature.Proofs.Nesting.Acceptance
import CallSignature.Proofs.Nesting.Ends
import CallSignature.Proofs.Parameter.Bindings
import CallSignature.Proofs.Parameter.FurtherOn
import CallSignature.Proofs.Position.Places
import CallSignature.Proofs.Segment.Signs
import CallSignature.Proofs.Shape.Atoms
import CallSignature.Proofs.Shape.Inquiries
import CallSignature.Proofs.Shape.Produced
import CallSignature.Proofs.Shape.Room
import CallSignature.Proofs.Supertype.Lookups
import CallSignature.Trace
