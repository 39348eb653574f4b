import AnchorLoss.Yaml.Scalar

namespace AnchorLoss.Yaml

inductive Chomping where
  | strip
  | clip
  | keep
deriving DecidableEq, Repr

structure BlockHeader where
  chomping : Chomping
  increment : Option Nat

namespace BlockHeader

def chomping? : Char → Option Chomping
  | '+' => some .keep
  | '-' => some .strip
  | _ => none

def increment? (c : Char) : Option Nat :=
  if '1' ≤ c ∧ c ≤ '9' then some (c.toNat - 48) else none

def read (cs : List Char) : BlockHeader × List Char :=
  match cs with
  | [] => (⟨.clip, none⟩, [])
  | c :: cs => match chomping? c, increment? c with
    | some k, _ => match cs with
      | [] => (⟨k, none⟩, [])
      | d :: ds => match increment? d with
        | some n => (⟨k, some n⟩, ds)
        | none => (⟨k, none⟩, d :: ds)
    | none, some n => match cs with
      | [] => (⟨.clip, some n⟩, [])
      | d :: ds => match chomping? d with
        | some k => (⟨k, some n⟩, ds)
        | none => (⟨.clip, some n⟩, d :: ds)
    | none, none => (⟨.clip, none⟩, c :: cs)

end BlockHeader

/-- The empty lines before a line of a block scalar, and the column in which that line starts. -/
structure BlockGap where
  breaks : List Char
  column : Nat
  rest : List Char

def blockGap (indent column : Nat) : List Char → BlockGap
  | [] => ⟨[], column, []⟩
  | c :: cs =>
    if c = ' ' && column < indent then blockGap indent (column + 1) cs
    else if isBreak c then
      let gap := blockGap indent 0 cs
      { gap with breaks := breakValue c :: gap.breaks }
    else ⟨[], column, c :: cs⟩

/-- Passes all spaces and empty lines; the widest indentation among them comes last. -/
def widestGap (column : Nat) : List Char → BlockGap × Nat
  | [] => (⟨[], column, []⟩, 0)
  | c :: cs =>
    if c = ' ' then
      let (gap, widest) := widestGap (column + 1) cs
      (gap, max (column + 1) widest)
    else if isBreak c then
      let (gap, widest) := widestGap 0 cs
      ({ gap with breaks := breakValue c :: gap.breaks }, widest)
    else (⟨[], column, c :: cs⟩, 0)

structure BlockEnd where
  lineBreak : List Char
  breaks : List Char
  rest : List Char

def joinLines (folded : Bool) (c b : Char) (gap : BlockGap) : List Char :=
  if folded && breakValue b == '\n' && !isBlank c && !gap.rest.head?.any isBlank then
    if gap.breaks.isEmpty then [' '] else []
  else [breakValue b]

def blockLines (folded : Bool) (indent : Nat) (gap : BlockGap) : List Char × BlockEnd :=
  match gap.rest with
  | [] => ([], ⟨[], gap.breaks, []⟩)
  | c :: cs =>
    if gap.column ≠ indent then ([], ⟨[], gap.breaks, c :: cs⟩)
    else
      let line := gap.breaks ++ (c :: cs).takeWhile (!isBreak ·)
      match cs.dropWhile (!isBreak ·) with
      | [] => (line, ⟨[], [], []⟩)
      | b :: more =>
        let next := blockGap indent 0 more
        if _h : next.column = indent ∧ next.rest ≠ [] ∧ next.rest.length < gap.rest.length then
          let (text, ending) := blockLines folded indent next
          (line ++ joinLines folded c b next ++ text, ending)
        else (line, ⟨[breakValue b], next.breaks, next.rest⟩)
termination_by gap.rest.length
decreasing_by exact _h.2.2

def BlockEnd.kept (e : BlockEnd) : Chomping → List Char
  | .strip => []
  | .clip => e.lineBreak
  | .keep => e.lineBreak ++ e.breaks

/-- Reads a block scalar after its sign. Its lines have to reach a column. -/
def blockScalar? (folded : Bool) (column : Nat) (cs : List Char) : Option (List Char × List Char) := do
  let (header, cs) := BlockHeader.read cs
  if !endsWord cs || cs.head? = some '\t' then none
  let cs ← endLine? cs
  let (indent, gap) := match header.increment with
    | some n => (column + n - 1, blockGap (column + n - 1) 0 cs)
    | none =>
      let (gap, widest) := widestGap 0 cs
      (max column widest, gap)
  let (text, ending) := blockLines folded indent gap
  some (text ++ ending.kept header.chomping, ending.rest)

end AnchorLoss.Yaml
