import FlowCanvas.Command.World
import FlowCanvas.Main
import FlowCanvas.Proofs.Arrangement.Agreement
import FlowCanvas.Proofs.Arrangement.Clean
import FlowCanvas.Proofs.Arrangement.Copy
import FlowCanvas.Proofs.Arrangement.Fallback
import FlowCanvas.Proofs.Arrangement.Fitting
import FlowCanvas.Proofs.Arrangement.Idempotence
import FlowCanvas.Proofs.Arrangement.Idle
import FlowCanvas.Proofs.Arrangement.Removal
import FlowCanvas.Proofs.Arrangement.Rename
import FlowCanvas.Proofs.Arrangement.Rigid
import FlowCanvas.Proofs.Arrangement.Route
import FlowCanvas.Proofs.Arrangement.Spacing
import FlowCanvas.Proofs.Arrangement.Structure
import FlowCanvas.Proofs.Arrangement.Violation
import FlowCanvas.Proofs.Checked.Arrangement
import FlowCanvas.Proofs.Command.Outcome
import FlowCanvas.Proofs.Diagram.RoundTrip
import FlowCanvas.Proofs.Flow.Contraction
import FlowCanvas.Proofs.Flow.Transpose
import FlowCanvas.Proofs.Layer.Component
import FlowCanvas.Proofs.Layer.Crossing
import FlowCanvas.Proofs.Layer.Feedback
import FlowCanvas.Proofs.Layer.Height
import FlowCanvas.Proofs.Layer.Sweep
import FlowCanvas.Proofs.Picture.Border
import FlowCanvas.Proofs.Picture.Delimiter
import FlowCanvas.Proofs.Picture.View
import FlowCanvas.Proofs.Request.Entry
import FlowCanvas.Proofs.Settings.Merge
import FlowCanvas.Proofs.Text.Decode
import FlowCanvas.Request
