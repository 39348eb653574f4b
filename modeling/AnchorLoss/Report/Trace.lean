import AnchorLoss.Report.Event

namespace AnchorLoss.Trace

variable {F : Precision → Type} [Arithmetic F] {p : Precision} {n k : Nat}

def image (d : Detector (Wide F)) (anchors : Vector (Box (F p)) n) (index : Nat)
    (image : Image (F p) n k) : List (Event (Wide F)) × Bool :=
  let truths := Truth.ofRows image.rows
  let positive := Match.positives (Item.assign d anchors truths)
  let positives := countTrue positive
  let matched := Event.matched truths.length positives
  match Item.mine d image.heads positive, Item.forward d anchors image.heads truths with
  | .ok mining, .ok item =>
    ([matched, .mined mining.kept positives mining.filtered,
      .item index item.numPositives item.numNegatives item.breakdown], true)
  | _, _ => ([matched], false)

def images (d : Detector (Wide F)) (anchors : Vector (Box (F p)) n) (index : Nat) :
    List (Image (F p) n k) → List (Event (Wide F))
  | [] => []
  | i :: is =>
    match image d anchors index i with
    | (events, true) => events ++ images d anchors (index + 1) is
    | (events, false) => events

def forward (d : Detector (Wide F)) (predictions labels : TypedTensor F) : List (Event (Wide F)) :=
  match validate d predictions labels, Grid.anchors (F := F) d.grid with
  | .ok batch, .ok anchors =>
    images d (anchors.map fun (b : Box (F .single)) => b.map (convert : _ → F batch.precision)) 0
      batch.images
  | _, _ => []

end AnchorLoss.Trace
