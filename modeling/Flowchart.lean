import Flowchart.Numeric.Exact
import Flowchart.Numeric.Double
import Flowchart.Sorting.Rising
import Flowchart.Data.Reader
import Flowchart.Data.Display
import Flowchart.Text.Accent
import Flowchart.Text.Caseless
import Flowchart.Random
import Flowchart.Vocabulary
import Flowchart.Geometry.Curve
import Flowchart.Geometry.Grid
import Flowchart.Hook.Editing
import Flowchart.Hook.Anchor
import Flowchart.Variant
import Flowchart.Graph
import Flowchart.Connection.Route
import Flowchart.Payload.Connection
import Flowchart.Toolbar
import Flowchart.Outline.Line
import Flowchart.Container.Fitting
import Flowchart.Placement.Search
import Flowchart.Interpretation.Run
import Flowchart.Layered.Coordinates
import Flowchart.Arrangement.Arrange
import Flowchart.Proofs.Interpretation.Answers
import Flowchart.Proofs.Interpretation.Containment
import Flowchart.Proofs.Interpretation.Separation
import Flowchart.Proofs.Interpretation.Fitted
import Flowchart.Proofs.Interpretation.Prefix
import Flowchart.Proofs.Interpretation.Flow
import Flowchart.Proofs.Interpretation.Identity
import Flowchart.Proofs.Interpretation.Ending
import Flowchart.Proofs.Interpretation.Spacing
import Flowchart.Proofs.Numeric.Finite
import Flowchart.Proofs.Placement.Failing
import Flowchart.Proofs.Interpretation.Permissive
import Flowchart.Proofs.Hook.Editing
import Flowchart.Proofs.Connection.Drawing
import Flowchart.Proofs.Arrangement.Separation
import Flowchart.Proofs.Arrangement.Idempotence
import Flowchart.Proofs.Arrangement.Mirror
import Flowchart.Proofs.Arrangement.Kept
import Flowchart.Proofs.Interpretation.Accumulated
import Flowchart.Proofs.Container.Refitting
import Flowchart.Proofs.Placement.Order
import Flowchart.Proofs.Placement.Straight
import Flowchart.Proofs.Interpretation.Row
import Flowchart.Proofs.Interpretation.Relabeled
import Flowchart.Proofs.Interpretation.OutlineNumbers
import Flowchart.Proofs.Geometry.Plane
import Flowchart.Proofs.Geometry.Polyline
import Flowchart.Proofs.Connection.Reversal
import Flowchart.Proofs.Connection.Curve
import Flowchart.Proofs.Connection.Drawn
import Flowchart.Proofs.Payload.Reading
import Flowchart.Proofs.Outline.Labels
import Flowchart.Proofs.Outline.Rules
import Flowchart.Proofs.Hook.Spreading
import Flowchart.Proofs.Hook.Sharing
import Flowchart.Proofs.Hook.Nearest
import Flowchart.Proofs.Hook.Refusing
import Flowchart.Proofs.Hook.Removing
import Flowchart.Proofs.Hook.Stacking
import Flowchart.Proofs.Cloning
import Flowchart.Proofs.Outline.Capitals
import Flowchart.Proofs.Payload.Accepting
import Flowchart.Proofs.Placement.Lattice
