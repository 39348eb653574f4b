import AnchorLoss.Yaml.BlockScalar
import AnchorLoss.Yaml.Property

namespace AnchorLoss.Yaml

inductive Token where
  | documentStart
  | documentEnd
  | blockSequence
  | blockMapping
  | blockEnd
  | flowSequence
  | flowSequenceEnd
  | flowMapping
  | flowMappingEnd
  | entry
  | separator
  | key
  | value
  | scalar (plain : Bool) (text : Text)
  | anchor (name : String)
  | alias (name : String)
  | tag (t : WrittenTag)
  | directive (d : Directive)
  | failure (e : Error)
deriving DecidableEq, Repr

/-- A place in the text: the characters still to come, their number, and how many lines and columns lie
before them. -/
structure Cursor where
  rest : List Char
  left : Nat
  line : Nat
  column : Nat
  left_eq : left = rest.length

namespace Cursor

def start (cs : List Char) : Cursor := ⟨cs, cs.length, 0, 0, rfl⟩

def next (c : Cursor) : Cursor :=
  match c with
  | ⟨[], left, line, column, h⟩ => ⟨[], left, line, column, h⟩
  | ⟨ch :: cs, left, line, column, h⟩ =>
    have h' : left - 1 = cs.length := by simp [h]
    if isBreak ch then ⟨cs, left - 1, line + 1, 0, h'⟩
    else if ch = byteOrderMark then ⟨cs, left - 1, line, column, h'⟩
    else ⟨cs, left - 1, line, column + 1, h'⟩

def advance (c : Cursor) : Nat → Cursor
  | 0 => c
  | n + 1 => c.next.advance n

def goto (c : Cursor) (rest : List Char) : Cursor := c.advance (c.left - rest.length)

end Cursor

/-- A node that becomes a key if a colon follows it on its line. -/
structure Candidate where
  position : Nat
  required : Bool
  left : Nat
  line : Nat
  column : Nat

def maxKeyLength : Nat := 1024

def maxBrackets : Nat := 2048

/-- What is known in the middle of a text: the tokens so far, the last one first; the columns of the
open block collections; one candidate for each open bracket and one for the text outside; and
whether a key may begin here. -/
structure Lexer where
  cursor : Cursor
  tokens : List Token
  indents : List Nat
  candidates : List (Option Candidate)
  keyAllowed : Bool

namespace Lexer

def start (cs : List Char) : Lexer := ⟨.start cs, [], [], [none], true⟩

def inFlow (l : Lexer) : Bool := l.candidates.length > 1

def emit (l : Lexer) (t : Token) : Lexer := { l with tokens := t :: l.tokens }

def emitAt (l : Lexer) (position : Nat) (t : Token) : Lexer :=
  { l with tokens := l.tokens.insertIdx (l.tokens.length - position) t }

def isStale (l : Lexer) (c : Candidate) : Bool :=
  c.line ≠ l.cursor.line || maxKeyLength < c.left - l.cursor.left

/-- How many tokens nothing can come in between any more. -/
def settled (l : Lexer) : Nat :=
  l.candidates.foldl (fun n c => match c with
    | some c => if l.isStale c then n else min n c.position
    | none => n) l.tokens.length

def endWith (l : Lexer) (e : Error) : List Token := l.tokens.reverse.take l.settled ++ [.failure e]

def dropStale (l : Lexer) : Except Error Lexer := do
  let candidates ← l.candidates.mapM fun
    | none => Except.ok none
    | some c =>
      if l.isStale c then if c.required then .error .malformed else .ok none
      else .ok (some c)
  .ok { l with candidates := candidates }

/-- Gives up the candidate of the innermost bracket. -/
def dropCandidate (l : Lexer) : Except Error Lexer :=
  match l.candidates with
  | some c :: cs => if c.required then .error .malformed else .ok { l with candidates := none :: cs }
  | _ => .ok l

/-- Makes the coming node a candidate. In the column of its block collection it has to be a key. -/
def saveCandidate (l : Lexer) : Except Error Lexer :=
  if !l.keyAllowed then .ok l
  else do
    let l ← l.dropCandidate
    let c := l.cursor
    let required := !l.inFlow && l.indents.head? = some c.column
    .ok { l with
      candidates := some ⟨l.tokens.length, required, c.left, c.line, c.column⟩ ::
        l.candidates.drop 1 }

def closeBlocks (column : Nat) : List Nat → List Token → List Nat × List Token
  | [], ts => ([], ts)
  | i :: is, ts => if column < i then closeBlocks column is (.blockEnd :: ts) else (i :: is, ts)

def unwind (l : Lexer) : Lexer :=
  if l.inFlow then l
  else
    let (indents, tokens) := closeBlocks l.cursor.column l.indents l.tokens
    { l with indents := indents, tokens := tokens }

def unwindAll (l : Lexer) : Lexer :=
  if l.inFlow then l
  else { l with indents := [], tokens := l.indents.map (fun _ => .blockEnd) ++ l.tokens }

def openBlock (l : Lexer) (column position : Nat) (t : Token) : Lexer :=
  if l.indents.head?.all (· < column) then
    { l.emitAt position t with indents := column :: l.indents }
  else l

def pass (l : Lexer) (count : Nat) (t : Token) : Lexer :=
  { l.emit t with cursor := l.cursor.advance count }

def accept (l : Lexer) (r : Option (Token × List Char)) : Except Error Lexer :=
  match r with
  | some (t, rest) => .ok { l.emit t with cursor := l.cursor.goto rest }
  | none => .error .malformed

def documentMarker (l : Lexer) (t : Token) : Except Error Lexer := do
  let l ← l.unwindAll.dropCandidate
  .ok { l.pass 3 t with keyAllowed := false }

def openFlow (l : Lexer) (t : Token) : Except Error Lexer := do
  if maxBrackets < l.candidates.length then throw .depth
  let l ← l.saveCandidate
  .ok { l.pass 1 t with candidates := none :: l.candidates, keyAllowed := true }

def closeFlow (l : Lexer) (t : Token) : Except Error Lexer := do
  if !l.inFlow then throw .malformed
  let l ← l.dropCandidate
  .ok { l.pass 1 t with candidates := l.candidates.drop 1, keyAllowed := false }

def separate (l : Lexer) : Except Error Lexer := do
  let l ← l.dropCandidate
  .ok { l.pass 1 .separator with keyAllowed := true }

def blockIndicator (l : Lexer) (opens marks : Token) (keyAllowed : Bool) : Except Error Lexer := do
  let l ←
    if l.inFlow then pure l
    else if l.keyAllowed then pure (l.openBlock l.cursor.column l.tokens.length opens)
    else throw .malformed
  let l ← l.dropCandidate
  .ok { l.pass 1 marks with keyAllowed := keyAllowed }

/-- A colon. The candidate before it, if there is one, becomes a key. -/
def colon (l : Lexer) : Except Error Lexer :=
  match l.candidates with
  | some c :: cs =>
    let l := { l with candidates := none :: cs }.emitAt c.position .key
    let l := if l.inFlow then l else l.openBlock c.column c.position .blockMapping
    .ok { l.pass 1 .value with keyAllowed := false }
  | _ => l.blockIndicator .blockMapping .value !l.inFlow

def innerColumn (l : Lexer) : Nat :=
  match l.indents with
  | i :: _ => i + 1
  | [] => 0

def plainScalar (l : Lexer) : Except Error Lexer := do
  let l ← l.saveCandidate
  let s := plain l.inFlow l.innerColumn l.cursor.rest
  .ok { l.emit (.scalar true (.ofChars s.text)) with
    cursor := l.cursor.goto s.rest, keyAllowed := s.newLine }

def quotedScalar (l : Lexer) (double : Bool) : Except Error Lexer := do
  let l ← l.saveCandidate
  let (points, rest) ← quoted double (l.cursor.rest.drop 1)
  .ok { l.emit (.scalar false ⟨points⟩) with cursor := l.cursor.goto rest, keyAllowed := false }

def blockScalar (l : Lexer) (folded : Bool) : Except Error Lexer := do
  let l ← l.dropCandidate
  let scalar := (blockScalar? folded (max 1 l.innerColumn) (l.cursor.rest.drop 1)).map
    fun (text, rest) => (Token.scalar false (.ofChars text), rest)
  { l with keyAllowed := true }.accept scalar

def property (l : Lexer) (read : List Char → Option (Token × List Char)) : Except Error Lexer := do
  let l ← l.saveCandidate
  { l with keyAllowed := false }.accept (read (l.cursor.rest.drop 1))

def directiveLine (l : Lexer) : Except Error Lexer := do
  let l ← l.unwindAll.dropCandidate
  let directive := (Directive.read? (l.cursor.rest.drop 1)).map fun (d, rest) => (.directive d, rest)
  { l with keyAllowed := false }.accept directive

def indicators : List Char :=
  ['-', '?', ':', ',', '[', ']', '\x7b', '\x7d', '#', '&', '*', '!', '|', '>', '\'', '"', '%', '@',
    '\x60']

def startsPlain (flow : Bool) (c : Char) (cs : List Char) : Bool :=
  !(isBlank c || isBreak c || indicators.contains c) ||
    (!endsWord cs && (c == '-' || (!flow && (c == '?' || c == ':'))))

def step (l : Lexer) (c : Char) (cs : List Char) : Except Error Lexer :=
  if l.cursor.column = 0 && c = '%' then l.directiveLine
  else if l.cursor.column = 0 && startsMarker '-' (c :: cs) then l.documentMarker .documentStart
  else if l.cursor.column = 0 && startsMarker '.' (c :: cs) then l.documentMarker .documentEnd
  else if c = '[' then l.openFlow .flowSequence
  else if c = '\x7b' then l.openFlow .flowMapping
  else if c = ']' then l.closeFlow .flowSequenceEnd
  else if c = '\x7d' then l.closeFlow .flowMappingEnd
  else if c = ',' then l.separate
  else if c = '-' && endsWord cs then l.blockIndicator .blockSequence .entry true
  else if c = '?' && (l.inFlow || endsWord cs) then l.blockIndicator .blockMapping .key !l.inFlow
  else if c = ':' && (l.inFlow || endsWord cs) then l.colon
  else if c = '*' then l.property fun cs => (anchor? cs).map fun (name, rest) => (.alias name, rest)
  else if c = '&' then l.property fun cs => (anchor? cs).map fun (name, rest) => (.anchor name, rest)
  else if c = '!' then l.property fun cs => (tag? cs).map fun (tag, rest) => (.tag tag, rest)
  else if c = '|' && !l.inFlow then l.blockScalar false
  else if c = '>' && !l.inFlow then l.blockScalar true
  else if c = '\'' then l.quotedScalar false
  else if c = '"' then l.quotedScalar true
  else if startsPlain l.inFlow c cs then l.plainScalar
  else .error .malformed

def skip (l : Lexer) : Lexer :=
  let (count, newLine) := skipSpace false l.cursor.rest
  { l with
    cursor := l.cursor.advance count, keyAllowed := l.keyAllowed || (newLine && !l.inFlow) }

def finish (l : Lexer) (complete : Bool) : Except Error (List Token) := do
  if !complete then throw .malformed
  return (← l.unwindAll.dropCandidate).tokens.reverse

def run (l : Lexer) (complete : Bool) : List Token :=
  match l.skip.dropStale with
  | .error e => l.endWith e
  | .ok l' => match l'.cursor.rest with
    | [] => match l'.finish complete with
      | .error e => l.endWith e
      | .ok ts => ts
    | c :: cs => match l'.unwind.step c cs with
      | .error e => l.endWith e
      | .ok next =>
        if _h : next.cursor.left < l.cursor.left then next.run complete else l.endWith .malformed
termination_by l.cursor.left

end Lexer

/-- The tokens of a text, whose lines end in line feeds. A fault in the text is itself a token, the last one, which
does no harm to a reader that finds another fault before it. -/
def tokens (cs : List Char) : List Token :=
  let (text, complete) := readable cs
  let text := if text.head? = some byteOrderMark then text.drop 1 else text
  (Lexer.start text).run complete

end AnchorLoss.Yaml
