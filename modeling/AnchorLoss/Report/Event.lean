import AnchorLoss.Breakdown
import AnchorLoss.Decimal.Scientific
import AnchorLoss.Engine
import AnchorLoss.Report.Level

namespace AnchorLoss

inductive Event (ρ : Type) where
  | reading (path : String)
  | read (path : String)
  | anchors (anchors scales : Nat)
  | created (anchors classes truths : Nat)
  | matched (truths positives : Nat)
  | mined (kept positives filtered : Nat)
  | item (index positives negatives : Nat) (terms : Breakdown ρ)
  | loss (loss : ρ) (terms : Breakdown ρ)
  | positives (counts : List Nat)
  | gradient (shape : List Nat) (norm : ρ)

inductive Channel where
  | program
  | settings
  | anchors
  | assembly
  | matching
  | mining
  | criterion
deriving DecidableEq, Repr

def Channel.name : Channel → String
  | program => "__main__"
  | settings => "gai_refinedet.utils"
  | anchors => "gai_refinedet.anchors"
  | assembly => "gai_refinedet.factory"
  | matching => "gai_refinedet.matching"
  | mining => "gai_refinedet.mining"
  | criterion => "gai_refinedet.criterion"

inductive Figure (ρ : Type) where
  | count (n : Nat)
  | real (x : ρ)
  | path (s : String)
  | counts (ns : List Nat)
  | shape (ns : List Nat)

namespace Event

variable {ρ : Type}

def level : Event ρ → Level
  | read .. | matched .. | mined .. | item .. => .debug
  | reading .. | anchors .. | created .. | loss .. | positives .. | gradient .. => .info

def channel : Event ρ → Channel
  | read .. => .settings
  | anchors .. => .anchors
  | created .. => .assembly
  | matched .. => .matching
  | mined .. => .mining
  | item .. => .criterion
  | reading .. | loss .. | positives .. | gradient .. => .program

/-- The text of an event; a percent sign and a letter, with a number of decimal places where the figure
is real, is the place of a figure. -/
def template : Event ρ → String
  | reading .. => "Loading configuration from %s"
  | read .. => "Loaded configuration from %s"
  | anchors .. => "Generated %d anchors over %d scales"
  | created .. => "Created RefineDet loss | anchors=%d | classes=%d | max_gt_boxes=%d"
  | matched .. => "Matched %d ground-truth boxes to %d positive anchors"
  | mined .. => "Mining kept %d negatives for %d positives (%d filtered by background confidence)"
  | item .. => "Item %d | positives=%d negatives=%d | " ++
      "arm_conf=%.4f arm_loc=%.4f odm_conf=%.4f odm_loc=%.4f"
  | loss .. => "Loss=%.4f | arm_conf=%.4f | arm_loc=%.4f | odm_conf=%.4f | odm_loc=%.4f"
  | positives .. => "Positive anchors per image: %s"
  | gradient .. => "Gradient shape=%s | norm=%.6f"

def figures : Event ρ → List (Figure ρ)
  | reading path | read path => [.path path]
  | anchors a s => [.count a, .count s]
  | created a c t => [.count a, .count c, .count t]
  | matched t p => [.count t, .count p]
  | mined k p f => [.count k, .count p, .count f]
  | item i p n b => [.count i, .count p, .count n] ++ b.terms.map .real
  | loss x b => .real x :: b.terms.map .real
  | positives ns => [.counts ns]
  | gradient s x => [.shape s, .real x]

end Event

def Figure.text (places : Nat) : Figure Float → String
  | count n => toString n
  | real x => Decimal.fixed places (Binary.ofDouble x)
  | path s => s
  | counts ns => "[" ++ ", ".intercalate (ns.map toString) ++ "]"
  | shape ns => renderShape ns

def fillTemplate : List Char → List (Figure Float) → List Char
  | '%' :: 'd' :: cs, f :: fs | '%' :: 's' :: cs, f :: fs => (f.text 0).toList ++ fillTemplate cs fs
  | '%' :: '.' :: d :: 'f' :: cs, f :: fs =>
    (f.text (d.toNat - 48)).toList ++ fillTemplate cs fs
  | c :: cs, fs => c :: fillTemplate cs fs
  | [], _ => []

def Event.text (e : Event Float) : String := String.ofList (fillTemplate e.template.toList e.figures)

end AnchorLoss
