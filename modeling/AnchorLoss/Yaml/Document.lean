import AnchorLoss.Yaml.Kind

namespace AnchorLoss.Yaml

/-- The first fault at each depth below a node, the node itself coming first. -/
abbrev Faults : Type := List (Option Error)

namespace Faults

def here (e : Error) : Faults := [some e]

def inside (fs : Faults) : Faults := none :: fs

/-- The faults of two nodes beside each other. -/
def join : Faults → Faults → Faults
  | [], gs => gs
  | fs, [] => fs
  | f :: fs, g :: gs => (f <|> g) :: join fs gs

def joinAll (fss : List Faults) : Faults := fss.foldr join []

def first? (fs : Faults) : Option Error := fs.findSome? id

end Faults

structure Entries where
  entries : List (Value × Value)
  faults : Faults

namespace Entries

def empty : Entries := ⟨[], []⟩

def append (es fs : Entries) : Entries := ⟨es.entries ++ fs.entries, es.faults.join fs.faults⟩

def concat (ess : List Entries) : Entries := ess.foldr append empty

end Entries

/-- What a node stands for wherever it is named: its value; the faults in it; its text, if it is a
scalar or has a default that is one; the entries that it gives to a mapping under which it is laid; and
whether it is a mapping, with its entry if that is the only one. -/
structure Meaning where
  kind : Kind
  value : Value
  faults : Faults
  text : Option Text
  entries : Option Entries
  isMapping : Bool
  single : Option Entries

def Meaning.unfinished : Meaning := ⟨.unknown, .list [], [], none, some .empty, true, none⟩

structure Outcome where
  value : Value
  faults : Faults

namespace Outcome

def ofText (kind : Kind) (text : Option Text) : Outcome :=
  match text.elim (.error .malformed) (scalarValue kind) with
  | .ok v => ⟨v, []⟩
  | .error e => ⟨.null, .here e⟩

def wrongCollection : Outcome := ⟨.list [], .inside (.here .malformed)⟩

end Outcome

def Meaning.ofScalar (kind : Kind) (t : Text) : Meaning :=
  let ⟨value, faults⟩ : Outcome :=
    if kind.isCollection then .wrongCollection else .ofText kind (some t)
  ⟨kind, value, faults, some t, none, false, none⟩

def Outcome.ofPairs (items : List Meaning) : Outcome :=
  let es := Entries.concat (items.map fun m => m.single.getD ⟨[], .here .malformed⟩)
  ⟨.list (es.entries.map fun (k, v) => .list [k, v]), .inside es.faults⟩

def layered (items : List Meaning) : Option Entries :=
  let layer (m : Meaning) : Option Entries := if m.isMapping then m.entries else none
  (items.reverse.mapM layer).map Entries.concat

def Meaning.ofSequence (kind : Kind) (items : List Meaning) : Meaning :=
  let ⟨value, faults⟩ : Outcome := match kind with
    | .sequence => ⟨.list (items.map value), .inside (.joinAll (items.map faults))⟩
    | .pairs => .ofPairs items
    | .mapping | .set => .wrongCollection
    | kind => .ofText kind none
  ⟨kind, value, faults, none, layered items, false, none⟩

structure Entry where
  key : Meaning
  value : Meaning

def isKey : Value → Bool
  | .list _ | .set _ | .map _ => false
  | _ => true

namespace Entry

def isMerge (e : Entry) : Bool := e.key.kind = .merge

def isDefault (e : Entry) : Bool := e.key.kind = .default

def pair (e : Entry) : Entries :=
  ⟨[(e.key.value, e.value.value)], e.key.faults.join e.value.faults⟩

def own (e : Entry) : Entries :=
  let ⟨key, faults⟩ : Outcome :=
    if e.isDefault then .ofText .text e.key.text else ⟨e.key.value, e.key.faults⟩
  let faults := if isKey key then faults else faults.join (.here .malformed)
  ⟨[(key, e.value.value)], faults.join e.value.faults⟩

end Entry

def mergedEntries (es : List Entry) : Option Entries := do
  let layers ← (es.filter (·.isMerge)).mapM (·.value.entries)
  return .concat (layers ++ (es.filter (!·.isMerge)).map Entry.own)

/-- Sets an entry. Of all keys that are not numbers there is only one. -/
def putEntry (entries : List (Value × Value)) (e : Value × Value) : List (Value × Value) :=
  match e.1 with
  | .float x =>
    if x.isNaN && entries.any (·.1.isNotANumber) then
      entries.map fun (k, v) => if k.isNotANumber then (k, e.2) else (k, v)
    else Value.insert e.1 e.2 entries
  | key => Value.insert key e.2 entries

def Meaning.ofMapping (kind : Kind) (es : List Entry) : Meaning :=
  let text := (es.find? (·.isDefault)).bind (·.value.text)
  let merged := mergedEntries es
  let ⟨entries, faults⟩ := merged.getD ⟨[], .here .malformed⟩
  let collected := entries.foldl putEntry []
  let ⟨value, faults⟩ : Outcome := match kind with
    | .mapping => ⟨.map collected, .inside faults⟩
    | .set => ⟨.set (collected.map Prod.fst), .inside faults⟩
    | .sequence | .pairs => .wrongCollection
    | kind => .ofText kind text
  let single := match es with
    | [e] => some e.pair
    | _ => none
  ⟨kind, value, faults, text, merged, true, single⟩

abbrev Anchors : Type := List (String × Meaning)

def keep (p : Properties) (m : Meaning) : StateM Anchors Meaning := do
  if let some name := p.anchor then modify ((name, m) :: ·)
  return m

mutual

/-- What a node stands for, given what an alias inside the node that it names stands for. -/
def meaning (inner : String → Meaning) : Node → StateM Anchors Meaning
  | .alias name => do return ((← get).lookup name).getD (inner name)
  | .scalar p plain t => keep p (.ofScalar (.ofScalar p.tag plain t) t)
  | .sequence p items => do
    keep p (.ofSequence (.ofTag p.tag .sequence) (← meanings inner items))
  | .mapping p entries => do
    keep p (.ofMapping (.ofTag p.tag .mapping) (← entryMeanings inner entries))

def meanings (inner : String → Meaning) : List Node → StateM Anchors (List Meaning)
  | [] => return []
  | n :: ns => do
    let m ← meaning inner n
    return m :: (← meanings inner ns)

def entryMeanings (inner : String → Meaning) : List (Node × Node) → StateM Anchors (List Entry)
  | [] => return []
  | (k, v) :: ns => do
    let key ← meaning inner k
    let value ← meaning inner v
    return ⟨key, value⟩ :: (← entryMeanings inner ns)

end

def unfolded (root : Node) : Nat → String → Meaning
  | 0, _ => .unfinished
  | n + 1, name => (((meaning (unfolded root n) root).run []).2.lookup name).getD .unfinished

/-- How often a node is unfolded inside of itself: no reader of a document looks further into it. -/
def unfoldings : Nat := 4

/-- The value of a node, if there is no fault in it. The fault that counts is the outermost one, and among those
the first one. -/
def valueOf (root : Node) : Except Error Value :=
  let m := ((meaning (unfolded root unfoldings) root).run []).1
  match m.faults.first? with
  | some e => .error e
  | none => .ok m.value

def parse (text : String) : Except Error Value := do
  match ← document (tokens (normalizeLines text.toList)) with
  | none => return .null
  | some root => valueOf root

end AnchorLoss.Yaml
