import Easing.Path.Nearest
import Easing.Session.Gesture
import Easing.Main
import Easing.Proofs.Binary64.Encoding
import Easing.Proofs.Binary64.Rounding
import Easing.Proofs.Binary64.Arithmetic
import Easing.Proofs.Curve.Joint
import Easing.Proofs.Curve.Requests
import Easing.Proofs.Decimal.Binary
import Easing.Proofs.Decimal.Interval
import Easing.Proofs.Decimal.Shortest
import Easing.Proofs.Decimal.Text
import Easing.Proofs.Handle
import Easing.Proofs.Path.Room
import Easing.Proofs.Path.Snapshot
import Easing.Proofs.Scalar.Binary64
import Easing.Proofs.Session.Coherence
import Easing.Proofs.Session.Dragging
import Easing.Proofs.Session.Integrity
import Easing.Proofs.Session.Order
import Easing.Proofs.Curve.Interpolation
import Easing.Proofs.Script.Execution
import Easing.Proofs.Script.Tokens
import Easing.Proofs.Script.Reader
import Easing.Proofs.Script.Grammar
import Easing.Proofs.Script.Layout
import Easing.Proofs.Script.ReadBack
import Easing.Proofs.Script.Solver
import Easing.Proofs.Script.Maker
import Easing.Proofs.Script.Curve
import Easing.Proofs.Script.Source
import Easing.Proofs.Curve.Acceptance
import Easing.Proofs.Curve.Fingerprint
import Easing.Proofs.Path.Agreement
import Easing.Proofs.Path.Modify
import Easing.Proofs.Reach
import Easing.Proofs.Session.Carrying
import Easing.Proofs.Session.Latest
import Easing.Proofs.Session.Deletion
import Easing.Proofs.Session.Settled
import Easing.Proofs.Curve.Locality
import Easing.Proofs.Binary64.Whole
import Easing.Proofs.Curve.Tables
import Easing.Proofs.Script.Arrays
import Easing.Proofs.Script.Lookup
import Easing.Proofs.Script.LookupSource
import Easing.Proofs.Path.Scaling
import Easing.Proofs.Session.Scaling
import Easing.Proofs.Session.ScaleInvariance
import Easing.Proofs.Decimal.ReadBack
import Easing.Proofs.Json.Grammar
import Easing.Proofs.Json.Rules
import Easing.Proofs.Json.Record
import Easing.Proofs.Json.Library
import Easing.Proofs.Path.Reading
import Easing.Proofs.Curve.Retention
import Easing.Proofs.Cubic.Monotone
import Easing.Proofs.Cubic.Bracket
import Easing.Proofs.Cubic.Newton
import Easing.Proofs.Cubic.Guess
import Easing.Proofs.Cubic.Accuracy
import Easing.Proofs.Session.Clicking
import Easing.Proofs.Session.Restoring
import Easing.Proofs.Session.Cutting
import Easing.Proofs.Curve.Sweeping
import Easing.Proofs.Binary64.Distance
import Easing.Proofs.Session.Hitting
import Easing.Proofs.Command.Grammar
import Easing.Proofs.Script.Erasure
import Easing.Proofs.Script.Twins
import Easing.Proofs.Script.Annotations
import Easing.Proofs.Script.Wrapping
