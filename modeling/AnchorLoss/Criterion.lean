import AnchorLoss.Engine

namespace AnchorLoss

open Scalar

/-- What a call leaves behind for its derivative: the predictions it was called with, in precision and
shape, and the pass it saved, until that has been handed over. -/
structure Context where
  precision : Precision
  shape : List Nat
  pass : Option Nat

structure Criterion (F : Precision → Type) (d : Detector (Wide F)) where
  engine : Engine F d
  contexts : List Context

inductive DerivativeError where
  | backward (e : BackwardError)
  | notDifferentiable
  | incompatibleShape
deriving DecidableEq, Repr

namespace Criterion

variable {F : Precision → Type} {d : Detector (Wide F)}

def initial (d : Detector (Wide F)) : Criterion F d := ⟨.initial d, []⟩

variable [Arithmetic F]

def call (c : Criterion F d) (predictions labels : TypedTensor F) :
    Except ForwardError (FloatScalar F) × Criterion F d :=
  match c.engine.forward predictions labels with
  | (.error e, engine) => (.error e, { c with engine := engine })
  | (.ok loss, engine) =>
    (.ok loss, ⟨engine, c.contexts ++ [⟨loss.precision, predictions.shape, engine.current⟩]⟩)

/-- Brings a gradient into the shape and the precision of the predictions of a context, adding up
what was repeated. -/
def accumulate (context : Context) (g : FloatTensor F) : Option (FloatTensor F) :=
  (if g.tensor.shape = context.shape then some g.tensor else g.tensor.sumTo? context.shape).map
    fun t => ⟨context.precision, t.map convert⟩

/-- The derivative of the loss of a call by its predictions, times a factor. A context whose pass has
been handed over already asks for the current pass of the machine. -/
def derivative (c : Criterion F d) (id : Nat) (factor : Wide F) :
    Except DerivativeError (FloatTensor F) × Criterion F d :=
  match c.contexts[id]? with
  | none => (.error .notDifferentiable, c)
  | some context =>
    let factor : Factor F :=
      .tensor (.float context.precision (.ofScalar (convert factor)))
    match c.engine.backward context.pass factor with
    | (.error e, engine) => (.error (.backward e), { c with engine := engine })
    | (.ok g, engine) =>
      let forgotten := c.contexts.set id { context with pass := none }
      match accumulate context g with
      | none => (.error .incompatibleShape, ⟨engine, forgotten⟩)
      | some t => (.ok t, ⟨engine, forgotten⟩)

end Criterion

end AnchorLoss
