namespace AnchorLoss

/-- The Mersenne twister: the words of the current round, and how many of them have been used. -/
structure Twister where
  words : Vector UInt32 624
  used : Nat

namespace Twister

def seedStep (word i : UInt32) : UInt32 :=
  (0x6c078965 : UInt32) * (word ^^^ (word >>> 30)) + i

def ofWord (seed : UInt32) : Twister where
  words := (List.finRange 624).foldl
    (fun (ws : Vector UInt32 624) (i : Fin 624) =>
      if i = 0 then ws else ws.set i.val (seedStep ws[i - 1] (UInt32.ofNat i.val)))
    (Vector.replicate 624 seed)
  used := 624

/-- Seeds are words of 64 bits, signed or unsigned, of which the lower half counts. -/
def ofSeed? (seed : Int) : Option Twister :=
  if -0x8000000000000000 ≤ seed ∧ seed < 0x10000000000000000 then
    some (ofWord (UInt32.ofNat (seed % 0x100000000).toNat))
  else none

def twist (a b : UInt32) : UInt32 :=
  let y := (a &&& 0x80000000) ||| (b &&& 0x7fffffff)
  (y >>> 1) ^^^ (if y &&& 1 = 0 then 0 else 0x9908b0df)

def nextRound (words : Vector UInt32 624) : Vector UInt32 624 :=
  (List.finRange 624).foldl
    (fun (ws : Vector UInt32 624) (i : Fin 624) =>
      ws.set i.val (ws[i + 397] ^^^ twist ws[i] ws[i + 1]))
    words

def temper (y : UInt32) : UInt32 :=
  let y := y ^^^ (y >>> 11)
  let y := y ^^^ ((y <<< 7) &&& 0x9d2c5680)
  let y := y ^^^ ((y <<< 15) &&& 0xefc60000)
  y ^^^ (y >>> 18)

def next (g : Twister) : UInt32 × Twister :=
  if h : g.used < 624 then (temper g.words[g.used], { g with used := g.used + 1 })
  else
    let words := nextRound g.words
    (temper words[0], ⟨words, 1⟩)

def word : StateM Twister UInt32 := next

end Twister

end AnchorLoss
