import AnchorLoss.Item
import AnchorLoss.Tensor.Box
import AnchorLoss.Tensor.Loss

namespace AnchorLoss

inductive SelectError where
  | threshold
  | ratio
  | tensor (e : TensorError)
  | limit (e : FloorError)

def SelectError.message? : SelectError → Option String
  | threshold => some Match.thresholdMessage
  | ratio => some Mining.ratioMessage
  | tensor _ | limit _ => none

namespace Tensor

def doubles (t : TypedTensor Binary) : Tensor Float := t.toFloat .double

def length (t : TypedTensor Binary) : Except TensorError Nat :=
  match t.shape with
  | [] => .error .index
  | n :: _ => .ok n

structure Truths where
  centers : TypedTensor Binary
  sizes : TypedTensor Binary
  classes : TypedTensor Binary

def Truths.ofRows (rows : TypedTensor Binary) : Except TensorError Truths :=
  (groundTruth rows).map fun truths =>
    ⟨truths.centers.typed, truths.sizes.typed, .int64 (truths.classes.map Int.ofNat)⟩

/-- The matches of anchors to boxes, with the class and the target box of every anchor. Numbers of all
types are held in double precision. -/
structure Assignment where
  type : ElementType
  anchors : Nat
  truths : Nat
  matched : Vector (Match Float truths) anchors
  targets : Vector (Box Float) anchors
  classes : TypedTensor Binary

def axesAt (t : TypedTensor Binary) (b : Nat) : Except TensorError (Axes Float) := do
  let part := doubles (← t.select 0 b)
  match part.shape, part.data.toList with
  | [], [x] | [1], [x] => return ⟨x, x⟩
  | [2], [y, x] => return ⟨y, x⟩
  | _, _ => throw .mismatch

def boxAt (truths : Truths) (b : Nat) : Except TensorError (Box Float) :=
  return ⟨← axesAt truths.centers b, ← axesAt truths.sizes b⟩

def column (n b : Nat) (table : TypedTensor Binary) : Except TensorError (Vector Float n) := do
  let entries := doubles (← table.select 1 b)
  if h : entries.data.size = n then
    if entries.shape.length = 1 then return ⟨entries.data, h⟩
  let _ ← orMismatch (broadcastShape entries.shape [n])
  throw .index

/-- Confronts all anchors with the next box. Overlaps are kept in the type of the anchors; where it is
not their own type, only a single one can be converted. -/
def meet {n g : Nat} (threshold : Float) (type : ElementType) (table : TypedTensor Binary)
    (truths : Truths) (state : Vector (Match Float g) n × List (Box Float)) (b : Fin g) :
    Except TensorError (Vector (Match Float g) n × List (Box Float)) := do
  let (ms, boxes) := state
  let overlaps ← column n b.val table
  let improved := countTrue (Vector.ofFn fun a => Scalar.lt (ms.get a).overlap (overlaps.get a))
  if table.elementType ≠ type && improved ≠ 1 then throw .mismatch
  let box ← boxAt truths b.val
  if n = 0 then throw .index
  let keep (x : Float) : Float :=
    ((doubles ((TypedTensor.float .double (ofScalar x) : TypedTensor Binary).cast type)).data[0]?).getD 0
  let met := Match.meetAll threshold b overlaps ms
  return (met.map fun m => { m with overlap := keep m.overlap }, boxes ++ [box])

def classesOf {n g : Nat} (classes : TypedTensor Binary) (ms : Vector (Match Float g) n) :
    Except TensorError (TypedTensor Binary) := do
  let places := ms.toList.map fun m => (m.truth.map Fin.val).getD 0
  let count ← length classes
  if places.any (count ≤ ·) then throw .index
  let block := volume classes.shape.tail
  let taken ← classes.rearrange fun t => do
    let data ← places.flatMapM fun place => (List.range block).mapM fun i => t.data[place * block + i]?
    ofArray? (places.length :: t.shape.tail) data.toArray
  let found : Tensor Bool := ofVector (ms.map fun m => m.truth.isSome)
  let chosen ← orMismatch (zipWith? (fun isFound c => if isFound then c else 0) found taken.toInts)
  return .int64 chosen

def assign (threshold : Float) (centers sizes : TypedTensor Binary)
    (truths : Except TensorError Truths) : Except SelectError Assignment := do
  if !Match.admits threshold then throw .threshold
  let truths ← truths.mapError .tensor
  let n ← (length centers).mapError .tensor
  let type := centers.elementType
  let truths : Truths := ⟨truths.centers.cast type, truths.sizes.cast type, truths.classes⟩
  let g ← (length truths.centers).mapError .tensor
  let zero : Box Float := ⟨⟨0, 0⟩, ⟨0, 0⟩⟩
  if g = 0 then
    return ⟨type, n, 0, .replicate n .unmatched, .replicate n zero, .int64 (ofVector (.replicate n 0))⟩
  let table ← (pairwiseOverlap centers sizes truths.centers truths.sizes).mapError .tensor
  let limit := ((doubles ((TypedTensor.float .double (ofScalar threshold) : TypedTensor Binary).cast
    (.float table.precision))).data[0]?).getD 0
  let (ms, boxes) ← ((List.finRange g).foldlM (meet limit type table.typed truths)
    (.replicate n .unmatched, [])).mapError .tensor
  let classes ← (classesOf truths.classes ms).mapError .tensor
  let target (m : Match Float g) : Box Float := ((m.truth.map Fin.val).bind (boxes[·]?)).getD zero
  return ⟨type, n, g, ms, ms.map target, classes⟩

def maskAt (n : Nat) (positions : List Int) : Except TensorError (Vector Bool n) :=
  positions.foldlM (fun mask (i : Int) =>
    let j : Int := if i < 0 then i + n else i
    if h : 0 ≤ j ∧ j.toNat < n then .ok (mask.set j.toNat true) else .error .index)
    (Vector.replicate n false)

structure Mined where
  negatives : List Nat
  used : List Nat
  kept : Nat
  filtered : Nat

def places (mask : Tensor Bool) : List Nat :=
  let coordinates (i : Nat) : List Nat :=
    (mask.shape.foldr (fun d (rest, i) => (i % d :: rest, i / d)) (([] : List Nat), i)).1
  (mask.data.toList.zipIdx.filter Prod.fst).flatMap fun (_, i) => coordinates i

/-- Mines logits that are not one row an anchor: confident places are filtered, and more negatives than
the limit cannot be ranked. -/
def mineSpread {n : Nat} (limit : Except FloorError Int) (confident : Tensor Bool)
    (positive : Vector Bool n) : Except SelectError Mined := do
  let negative := ofVector (positive.map not)
  let filtered ← (orMismatch (zipWith? (· && ·) negative confident)).mapError .tensor
  let remaining ← (orMismatch (zipWith? (fun a b => a && !b) negative filtered)).mapError .tensor
  let count := remaining.data.toList.count true
  if (← limit.mapError .limit) < count then throw (.tensor .mismatch)
  let used ← (orMismatch (zipWith? (· || ·) (ofVector positive) remaining)).mapError .tensor
  return ⟨places remaining, places used, count, filtered.data.toList.count true⟩

/-- Selects the hard negatives of logits. A single column has no label for positives, which is noticed
when losses are compared. -/
def mine (threshold ratio eps : Float) (logits : TypedTensor Binary) (positions : List Int) :
    Except SelectError Mined := do
  if !Mining.admits ratio then throw .ratio
  let n ← (length logits).mapError .tensor
  let positive ← (maskAt n positions).mapError .tensor
  if !hasSoftmax logits then throw (.tensor .mismatch)
  let limit := Mining.limit Binary ratio (countTrue positive)
  let ⟨p, entries⟩ := logits.toFractional
  let threshold := convert (F := Binary) (p := .double) (q := p) threshold
  match logits.shape with
  | [] | [_] | _ :: 0 :: _ => throw (.tensor .index)
  | [_, k + 1] =>
    if h : volume entries.shape = n * (k + 1) then
      let rows := entries.rows n (k + 1) h
      let limit ← limit.mapError .limit
      let candidates := countTrue (Mining.candidates threshold rows positive)
      if k = 0 && countTrue positive ≠ 0 && limit < candidates then throw (.tensor .mismatch)
      let mined := Mining.select threshold (convert (F := Binary) (p := .double) eps) limit rows positive
      let used := positive.zipWith (· || ·) mined.negative
      return ⟨(Mining.positions mined.negative).map Fin.val, (Mining.positions used).map Fin.val,
        mined.kept, mined.filtered⟩
    else throw (.tensor .mismatch)
  | _ =>
    let shares ← (orMismatch (entries.vectors? (lastLength entries.shape))).mapError .tensor
    let softened := ofVectors (shares.map softmax)
    let first ← (orMismatch (softened.select? 1 0)).mapError .tensor
    mineSpread limit (first.map (Scalar.lt threshold)) positive

def label (mask : TypedTensor Binary) (value : Int) (labels : Tensor Int) :
    Except TensorError (Tensor Int) := do
  match mask with
  | .bool mask =>
    if mask.shape.isPrefixOf labels.shape then
      let block := volume (labels.shape.drop mask.shape.length)
      let selects (i : Nat) : Bool := (mask.data[i / block]?).getD false
      return ⟨labels.shape, labels.data.mapIdx fun i x => if selects i then value else x,
        by simp [labels.size_data]⟩
    else throw .index
  | .int64 places | .int32 places =>
    match labels.shape with
    | [] => throw .index
    | n :: rest =>
      let selected ← maskAt n places.data.toList
      let block := volume rest
      let selects (i : Nat) : Bool := (selected[i / block]?).getD false
      return ⟨labels.shape, labels.data.mapIdx fun i x => if selects i then value else x,
        by simp [labels.size_data]⟩
  | .float _ _ => throw .index

def without (a b : Int) : Int := (Int64.ofInt a &&& ~~~(Int64.ofInt b)).toInt

def anchorLabels (positive used classes : TypedTensor Binary) : Except TensorError (Tensor Int) := do
  let ignored := classes.toInts.map fun _ => AnchorLabel.ignored.code
  let marked ← label used AnchorLabel.negative.code ignored
  label positive AnchorLabel.positive.code marked

def numNegatives (positive used : TypedTensor Binary) : Except TensorError Int :=
  match positive, used with
  | .bool p, .bool u =>
    (orMismatch (zipWith? (fun u p => u && !p) u p)).map fun t => (t.data.toList.count true : Int)
  | .float _ _, _ | _, .float _ _ => .error .mismatch
  | .bool p, u =>
    (orMismatch (zipWith? (fun u p => if p then 0 else u % 2) u.toInts p)).map fun t =>
      t.data.toList.foldl (· + ·) 0
  | p, u =>
    (orMismatch (zipWith? without u.toInts p.toInts)).map fun t => t.data.toList.foldl (· + ·) 0

end Tensor

end AnchorLoss
