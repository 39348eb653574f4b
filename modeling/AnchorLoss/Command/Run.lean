import AnchorLoss.Command.Options
import AnchorLoss.Config.File
import AnchorLoss.Random.Normal
import AnchorLoss.Report.Trace
import AnchorLoss.Synthetic

namespace AnchorLoss.Command

inductive RunError where
  | noLevel
  | level (e : LevelError)
  | file (e : Config.FileError)
  | config (e : ConfigError)
  | form (e : GridFormError)
  | grid (e : GridError)
  | seed
  | noNumber
  | synthetic (e : SyntheticError)
  | forward (e : ForwardError)
  | backward (e : BackwardError)

inductive Ending where
  | finished
  | help
  | usage (e : UsageError)
  | failed (e : RunError)

structure Report where
  events : List (Event Float)
  ending : Ending

namespace Report

def finish (events : List (Event Float)) : Report := ⟨events, .finished⟩

def fail (e : RunError) : Report := ⟨[], .failed e⟩

def after (events : List (Event Float)) (r : Report) : Report := { r with events := events ++ r.events }

end Report

def orFail {ε α : Type} (wrap : ε → RunError) (r : Except ε α) (next : α → Report) : Report :=
  match r with
  | .error e => .fail (wrap e)
  | .ok a => next a

def norm (g : FloatTensor Binary) : Float :=
  let squares := g.tensor.data.toList.map fun x =>
    let x : Float := convert (F := Binary) (q := .double) x
    x * x
  Float.sqrt (Scalar.sum squares)

def runPasses (d : Detector Float) (predictions labels : TypedTensor Binary) : Report :=
  .after (Trace.forward d predictions labels)
    (match (Engine.initial (F := Binary) d).forward predictions labels with
    | (.error e, _) => .fail (.forward e)
    | (.ok loss, engine) =>
      let terms := engine.lastBreakdown.getD .empty
      let positives := match engine.state with
        | some s => s.pass.images.map fun i => i.item.numPositives
        | none => []
      orFail .backward (engine.backward none (.number 1)).1 fun g =>
        .finish [.loss (convert (F := Binary) (q := .double) loss.value) terms, .positives positives,
          .gradient g.tensor.shape (norm g)])

/-- Both passes on a batch that is drawn from a source, of as many images and boxes as asked for. An
image has to be there before its boxes are counted. -/
def runBatch (d : Detector Float) (images boxes : Option Int) (source : Twister) : Report :=
  match images, boxes with
  | none, _ => .fail .noNumber
  | some n, none =>
    match Synthetic.error? (F := Binary) d (max 1 n) 0 with
    | some e => .fail (.synthetic e)
    | none => .fail .noNumber
  | some n, some wanted =>
    orFail .synthetic (Synthetic.batch? (F := Binary) d (max 1 n) wanted source)
      fun ((predictions, labels), _) => runPasses d predictions labels

def runDocument (r : Request) (document : Value) : Report :=
  orFail .config (Config.read document) fun c =>
  orFail .form (Detector.ofConfig c) fun d =>
  match Grid.error? (F := Binary) d.grid with
  | some e => .fail (.grid e)
  | none =>
    .after [.anchors d.numAnchors d.grid.scales.length,
      .created d.numAnchors (d.classes + 1) d.maxTruths]
    (match r.seed.bind Twister.ofSeed? with
    | none => .fail .seed
    | some source => runBatch d r.batchSize r.numBoxes source)

def runRequest (fileText : String → Option String) (r : Request) : Report :=
  match r.config with
  | none => runDocument r (.map [])
  | some "" => runDocument r (.map [])
  | some path =>
    .after [.reading path] (orFail .file (Config.ofFile (fileText path)) fun document =>
      .after [.read path] (runDocument r document))

def Report.shown (level : Level) (r : Report) : Report :=
  { r with events := r.events.filter fun e => level.shows e.level }

def run (fileText : String → Option String) (words : List String) : Report :=
  match readArguments words with
  | .error e => ⟨[], .usage e⟩
  | .ok none => ⟨[], .help⟩
  | .ok (some r) =>
    match r.logLevel with
    | none => .fail .noLevel
    | some name => orFail .level (Level.ofName name) fun level => (runRequest fileText r).shown level

end AnchorLoss.Command
