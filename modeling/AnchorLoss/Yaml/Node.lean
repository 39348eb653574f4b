import AnchorLoss.Yaml.Token

namespace AnchorLoss.Yaml

structure Properties where
  anchor : Option String
  tag : Option String
deriving DecidableEq, Repr

def Properties.none : Properties := ⟨Option.none, Option.none⟩

inductive Node where
  | alias (name : String)
  | scalar (p : Properties) (plain : Bool) (text : Text)
  | sequence (p : Properties) (items : List Node)
  | mapping (p : Properties) (entries : List (Node × Node))

def Node.empty (p : Properties) : Node := .scalar p true ⟨[]⟩

def fault : List Token → Error
  | .failure e :: _ => e
  | _ => .malformed

def spoilt (ts : List Token) : List Token := [.failure (fault ts)]

/-- Makes a fault of an alias without an anchor before it, and of what follows an anchor whose name has
been given already. -/
def checkNames (given : List String) : List Token → List Token
  | [] => []
  | .alias name :: ts =>
    if given.contains name then .alias name :: checkNames given ts else spoilt []
  | .anchor name :: ts =>
    if given.contains name then
      .anchor name :: match ts with
        | .tag t :: ts => .tag t :: spoilt ts
        | ts => spoilt ts
    else .anchor name :: checkNames (name :: given) ts
  | t :: ts => t :: checkNames given ts

abbrev Handles : Type := List (String × String)

def commonTags : String := "tag:yaml.org,2002:"

def defaultHandles : Handles := [("!", "!"), ("!!", commonTags)]

def WrittenTag.resolve (t : WrittenTag) (handles : Handles) : Except Error String :=
  match t.handle with
  | none => .ok t.suffix
  | some h => match (handles ++ defaultHandles).lookup h with
    | some uri => .ok (uri ++ t.suffix)
    | none => .error .malformed

structure Scope where
  handles : Handles
  room : Nat

/-- Collections are nested in each other up to this depth. -/
def maxDepth : Nat := 488

def Scope.enter (s : Scope) : Except Error Scope :=
  match s.room with
  | 0 => .error .depth
  | n + 1 => .ok { s with room := n }

abbrev AtMost (ts : List Token) : Type := { rest : List Token // rest.length ≤ ts.length }

/-- What a reader leaves of its tokens. -/
abbrev Fewer (ts : List Token) : Type := { rest : List Token // rest.length < ts.length }

/-- Where a node stands: only outside brackets there are block collections, and only beside a key or
its value an unindented sequence. -/
inductive Place where
  | flow
  | block
  | besideKey
deriving DecidableEq, Repr

def endsEntry : List Token → Bool
  | .entry :: _ | .blockEnd :: _ => true
  | _ => false

def endsPair : List Token → Bool
  | .key :: _ | .value :: _ | .blockEnd :: _ => true
  | _ => false

def separator (first : Bool) (ts : List Token) : Except Error (AtMost ts) :=
  match first, ts with
  | true, ts => .ok ⟨ts, Nat.le_refl _⟩
  | false, .separator :: ts => .ok ⟨ts, by simp⟩
  | false, ts => .error (fault ts)

def properties (handles : Handles) (ts : List Token) : Except Error (Properties × AtMost ts) :=
  match ts with
  | .anchor name :: .tag t :: rest => do
    .ok (⟨some name, some (← t.resolve handles)⟩, ⟨rest, by simp; omega⟩)
  | .anchor name :: rest => .ok (⟨some name, none⟩, ⟨rest, by simp⟩)
  | .tag t :: .anchor name :: rest => do
    .ok (⟨some name, some (← t.resolve handles)⟩, ⟨rest, by simp; omega⟩)
  | .tag _ :: .failure e :: _ => .error e
  | .tag t :: rest => do .ok (⟨none, some (← t.resolve handles)⟩, ⟨rest, by simp⟩)
  | ts => .ok (.none, ⟨ts, Nat.le_refl _⟩)

mutual

/-- Reads a node, of which properties alone are enough. -/
def node (scope : Scope) (place : Place) (ts : List Token) : Except Error (Node × Fewer ts) :=
  match ts with
  | .alias name :: ts => .ok (.alias name, ⟨ts, by simp⟩)
  | ts => do
    let (p, ⟨rest, h⟩) ← properties scope.handles ts
    match ← content scope place p rest with
    | some (n, ⟨rest, h'⟩) => .ok (n, ⟨rest, by omega⟩)
    | none => match rest with
      | .failure e :: _ => .error e
      | rest =>
        if h' : rest.length < ts.length then .ok (.empty p, ⟨rest, h'⟩) else .error .malformed
termination_by 3 * ts.length + 1

def content (scope : Scope) (place : Place) (p : Properties) (ts : List Token) :
    Except Error (Option (Node × Fewer ts)) :=
  match ts with
  | .scalar plain text :: ts => .ok (some (.scalar p plain text, ⟨ts, by simp⟩))
  | .flowSequence :: ts => do
    let (items, ⟨rest, h⟩) ← flowItems (← scope.enter) true ts
    .ok (some (.sequence p items, ⟨rest, by simp; omega⟩))
  | .flowMapping :: ts => do
    let (entries, ⟨rest, h⟩) ← flowEntries (← scope.enter) true ts
    .ok (some (.mapping p entries, ⟨rest, by simp; omega⟩))
  | .blockSequence :: ts =>
    if place = .flow then .ok none
    else do
      let (items, ⟨rest, h⟩) ← blockItems (← scope.enter) ts
      .ok (some (.sequence p items, ⟨rest, by simp; omega⟩))
  | .blockMapping :: ts =>
    if place = .flow then .ok none
    else do
      let (entries, ⟨rest, h⟩) ← blockEntries (← scope.enter) ts
      .ok (some (.mapping p entries, ⟨rest, by simp; omega⟩))
  | .entry :: ts =>
    if place = .besideKey then do
      let (item, ⟨rest, h⟩) ← unindentedItem (← scope.enter) ts
      let (items, ⟨rest, h'⟩) ← unindentedItems (← scope.enter) rest
      .ok (some (.sequence p (item :: items), ⟨rest, by simp; omega⟩))
    else .ok none
  | _ => .ok none
termination_by 3 * ts.length

def blockItems (scope : Scope) (ts : List Token) : Except Error (List Node × Fewer ts) :=
  match ts with
  | .entry :: ts =>
    if endsEntry ts then do
      let (items, ⟨rest, h⟩) ← blockItems scope ts
      .ok (.empty .none :: items, ⟨rest, by simp; omega⟩)
    else do
      let (item, ⟨rest, h⟩) ← node scope .block ts
      let (items, ⟨rest, h'⟩) ← blockItems scope rest
      .ok (item :: items, ⟨rest, by simp; omega⟩)
  | .blockEnd :: ts => .ok ([], ⟨ts, by simp⟩)
  | ts => .error (fault ts)
termination_by 3 * ts.length

def unindentedItem (scope : Scope) (ts : List Token) : Except Error (Node × AtMost ts) :=
  if endsEntry ts || endsPair ts then .ok (.empty .none, ⟨ts, by simp⟩)
  else do
    let (item, ⟨rest, h⟩) ← node scope .block ts
    .ok (item, ⟨rest, by omega⟩)
termination_by 3 * ts.length + 2

def unindentedItems (scope : Scope) (ts : List Token) : Except Error (List Node × AtMost ts) :=
  match ts with
  | .entry :: ts => do
    let (item, ⟨rest, h⟩) ← unindentedItem scope ts
    let (items, ⟨rest, h'⟩) ← unindentedItems scope rest
    .ok (item :: items, ⟨rest, by simp; omega⟩)
  | ts => .ok ([], ⟨ts, by simp⟩)
termination_by 3 * ts.length

def blockEntries (scope : Scope) (ts : List Token) : Except Error (List (Node × Node) × Fewer ts) :=
  match ts with
  | .key :: ts => do
    let (key, ⟨rest, h⟩) ← blockPart scope ts
    let (value, ⟨rest, h'⟩) ← blockValue scope rest
    let (entries, ⟨rest, h''⟩) ← blockEntries scope rest
    .ok ((key, value) :: entries, ⟨rest, by simp; omega⟩)
  | .blockEnd :: ts => .ok ([], ⟨ts, by simp⟩)
  | ts => .error (fault ts)
termination_by 3 * ts.length

def blockValue (scope : Scope) (ts : List Token) : Except Error (Node × AtMost ts) :=
  match ts with
  | .value :: ts => do
    let (value, ⟨rest, h⟩) ← blockPart scope ts
    .ok (value, ⟨rest, by simp; omega⟩)
  | ts => .ok (.empty .none, ⟨ts, by simp⟩)
termination_by 3 * ts.length

def blockPart (scope : Scope) (ts : List Token) : Except Error (Node × AtMost ts) :=
  if endsPair ts then .ok (.empty .none, ⟨ts, by simp⟩)
  else do
    let (part, ⟨rest, h⟩) ← node scope .besideKey ts
    .ok (part, ⟨rest, by omega⟩)
termination_by 3 * ts.length + 2

def flowItems (scope : Scope) (first : Bool) (ts : List Token) :
    Except Error (List Node × Fewer ts) :=
  match ts with
  | .flowSequenceEnd :: ts => .ok ([], ⟨ts, by simp⟩)
  | ts => do
    let ⟨rest, h⟩ ← separator first ts
    match rest, h with
    | .flowSequenceEnd :: rest, h => .ok ([], ⟨rest, h⟩)
    | .key :: rest, h => do
      have h : rest.length < ts.length := h
      let inside ← scope.enter
      let (key, ⟨rest, h'⟩) ← flowPart inside .flowSequenceEnd rest
      let (value, ⟨rest, h''⟩) ← flowValue inside .flowSequenceEnd rest
      let (items, ⟨rest, h'''⟩) ← flowItems scope false rest
      .ok (.mapping .none [(key, value)] :: items, ⟨rest, by omega⟩)
    | rest, h => do
      let (item, ⟨rest, h'⟩) ← node scope .flow rest
      let (items, ⟨rest, h''⟩) ← flowItems scope false rest
      .ok (item :: items, ⟨rest, by omega⟩)
termination_by 3 * ts.length + 2
decreasing_by all_goals omega

def flowEntries (scope : Scope) (first : Bool) (ts : List Token) :
    Except Error (List (Node × Node) × Fewer ts) :=
  match ts with
  | .flowMappingEnd :: ts => .ok ([], ⟨ts, by simp⟩)
  | ts => do
    let ⟨rest, h⟩ ← separator first ts
    match rest, h with
    | .flowMappingEnd :: rest, h => .ok ([], ⟨rest, h⟩)
    | .key :: rest, h => do
      have h : rest.length < ts.length := h
      let (key, ⟨rest, h'⟩) ← flowPart scope .flowMappingEnd rest
      let (value, ⟨rest, h''⟩) ← flowValue scope .flowMappingEnd rest
      let (entries, ⟨rest, h'''⟩) ← flowEntries scope false rest
      .ok ((key, value) :: entries, ⟨rest, by omega⟩)
    | rest, h => do
      let (key, ⟨rest, h'⟩) ← node scope .flow rest
      let (entries, ⟨rest, h''⟩) ← flowEntries scope false rest
      .ok ((key, .empty .none) :: entries, ⟨rest, by omega⟩)
termination_by 3 * ts.length + 2
decreasing_by all_goals omega

def flowPart (scope : Scope) (close : Token) (ts : List Token) : Except Error (Node × AtMost ts) :=
  if ts.head?.any fun t => t = .value || t = .separator || t = close then
    .ok (.empty .none, ⟨ts, by simp⟩)
  else do
    let (part, ⟨rest, h⟩) ← node scope .flow ts
    .ok (part, ⟨rest, by omega⟩)
termination_by 3 * ts.length + 2

def flowValue (scope : Scope) (close : Token) (ts : List Token) : Except Error (Node × AtMost ts) :=
  match ts with
  | .value :: ts => do
    let (value, ⟨rest, h⟩) ← flowPart scope close ts
    .ok (value, ⟨rest, by simp; omega⟩)
  | ts => .ok (.empty .none, ⟨ts, by simp⟩)
termination_by 3 * ts.length

end

def directives (versioned : Bool) (handles : Handles) :
    List Token → Except Error (Handles × List Token)
  | .directive d :: ts => match d with
    | .version major =>
      if versioned || major ≠ 1 then .error .malformed else directives true handles ts
    | .handle h uri =>
      if (handles.lookup h).isSome then .error .malformed
      else directives versioned ((h, uri) :: handles) ts
    | .reserved => directives versioned handles ts
  | ts => .ok (handles, ts)

def endDocument : List Token → Except Error Unit
  | [] => .ok ()
  | .documentEnd :: ts => endDocument ts
  | ts => do
    let (_, rest) ← directives false [] ts
    .error (fault rest)

def endsDocument : List Token → Bool
  | [] | .directive _ :: _ | .documentStart :: _ | .documentEnd :: _ => true
  | _ => false

def onlyNode (handles : Handles) (ts : List Token) : Except Error Node := do
  let (root, ⟨rest, _⟩) ← node ⟨handles, maxDepth⟩ .block ts
  endDocument rest
  return root

def document (ts : List Token) : Except Error (Option Node) := do
  match checkNames [] ts with
  | [] => return none
  | .directive d :: ts =>
    let (handles, rest) ← directives false [] (.directive d :: ts)
    let .documentStart :: ts := rest | throw (fault rest)
    opened handles ts
  | .documentStart :: ts => opened [] ts
  | ts => return some (← onlyNode [] ts)
where
  opened (handles : Handles) (ts : List Token) : Except Error (Option Node) := do
    if endsDocument ts then
      endDocument ts
      return some (.empty .none)
    else return some (← onlyNode handles ts)

end AnchorLoss.Yaml
