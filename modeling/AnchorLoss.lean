import AnchorLoss.Config.Assemble
import AnchorLoss.Criterion
import AnchorLoss.Main
import AnchorLoss.Tensor.Select
import AnchorLoss.Proofs.Engine.Step
import AnchorLoss.Proofs.Criterion.Replay
import AnchorLoss.Proofs.Binary.Zero
import AnchorLoss.Proofs.Engine.Masking
import AnchorLoss.Proofs.Binary.Masking
import AnchorLoss.Proofs.Exact.Basic
import AnchorLoss.Proofs.Exact.Huber
import AnchorLoss.Proofs.Exact.Loss
import AnchorLoss.Proofs.Exact.BoxGradient
import AnchorLoss.Proofs.Engine.Positive
import AnchorLoss.Proofs.Exact.Accepted
import AnchorLoss.Proofs.Exact.OneAnchor
import AnchorLoss.Proofs.Exact.ClassGradient
import AnchorLoss.Proofs.Engine.Run
import AnchorLoss.Proofs.Exact.ClosedForm
import AnchorLoss.Proofs.Mining.Count
import AnchorLoss.Proofs.Matching.Matched
import AnchorLoss.Proofs.Binary.Sign
import AnchorLoss.Proofs.Config.Admissible
import AnchorLoss.Proofs.Item.Consistent
import AnchorLoss.Proofs.Binary.Consistent
import AnchorLoss.Proofs.Binary.Nearest
import AnchorLoss.Proofs.Binary.Overflow
import AnchorLoss.Proofs.Binary.Count
import AnchorLoss.Proofs.Binary.Anchors
import AnchorLoss.Proofs.Binary.Total
import AnchorLoss.Proofs.Config.Section
import AnchorLoss.Proofs.Tensor.Concat
import AnchorLoss.Proofs.Engine.Concat
import AnchorLoss.Proofs.Exact.Mean
import AnchorLoss.Proofs.Engine.Alike
import AnchorLoss.Proofs.Engine.Shares
import AnchorLoss.Proofs.Exact.Shift
import AnchorLoss.Proofs.Item.Order
import AnchorLoss.Proofs.Engine.Order
import AnchorLoss.Proofs.Binary.Rank
import AnchorLoss.Proofs.Binary.Order
import AnchorLoss.Proofs.Config.Sound
import AnchorLoss.Proofs.Binary.Inert
import AnchorLoss.Proofs.Engine.Form
import AnchorLoss.Proofs.Synthetic.Batch
import AnchorLoss.Proofs.Synthetic.Decode
import AnchorLoss.Proofs.Matching.Standing
import AnchorLoss.Proofs.Matching.Cover
import AnchorLoss.Proofs.Matching.Resolved
import AnchorLoss.Proofs.Mining.Rank
import AnchorLoss.Proofs.Mining.Hardest
import AnchorLoss.Proofs.Anchor.Place
import AnchorLoss.Proofs.Exact.Overlap
import AnchorLoss.Proofs.Mining.Confidence
import AnchorLoss.Proofs.Mining.Blind
import AnchorLoss.Proofs.Matching.Kept
import AnchorLoss.Proofs.Config.RoundTrip
import AnchorLoss.Proofs.Tensor.Align
import AnchorLoss.Proofs.Engine.Atomic
import AnchorLoss.Proofs.Tensor.Table
import AnchorLoss.Proofs.Tensor.Corners
import AnchorLoss.Proofs.Tensor.Overlap
import AnchorLoss.Proofs.Binary.Number
import AnchorLoss.Proofs.Matching.Comparable
import AnchorLoss.Proofs.Tensor.Numbers
import AnchorLoss.Proofs.Tensor.Rows
import AnchorLoss.Proofs.Engine.Front
import AnchorLoss.Proofs.Anchor.Order
