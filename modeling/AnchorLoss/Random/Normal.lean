import AnchorLoss.Binary
import AnchorLoss.Random.Source
import AnchorLoss.Random.Twister

namespace AnchorLoss.Twister

def share : StateM Twister Float32 := do
  let w ← word
  return (w &&& 0xffffff).toFloat32 / 0x1000000

def uniform (low high : Float32) : StateM Twister Float32 := do
  let x ← share
  return x * (high - low) + low

def natural (low high : Nat) : StateM Twister Nat := do
  let w ← word
  return low + w.toNat % (high - low)

def twoPi : Float32 := Binary.toSingle (Binary.ofDouble 6.283185307179586)

def radius (u : Float32) : Float32 := Float32.sqrt (-2 * Float32.log (1 - u))

def normalBlock (us : List Float32) : List Float32 :=
  let polar := (us.take 8).zip (us.drop 8)
  polar.map (fun (u, v) => radius u * Float32.cos (twoPi * v)) ++
    polar.map (fun (u, v) => radius u * Float32.sin (twoPi * v))

def blocks (us : List Float32) : Nat → List (List Float32)
  | 0 => []
  | n + 1 => us.take 16 :: blocks (us.drop 16) n

/-- As many normally distributed numbers as asked for. Where that is no multiple of sixteen, the last
sixteen are drawn as a block of their own. -/
def normals (count : Nat) : StateM Twister (Vector Float32 count) := do
  let us ← drawMany share count
  let full := (blocks us (count / 16)).flatMap normalBlock
  let values ←
    if count % 16 = 0 then pure full
    else do
      let last ← drawMany share 16
      pure (full.take (count - 16) ++ normalBlock last)
  let values := values.toArray
  return Vector.ofFn fun i => values.getD i.val 0

instance : RandomSource Twister Float32 where
  uniform := uniform
  normals := normals
  natural := natural

end AnchorLoss.Twister
