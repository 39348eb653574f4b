import AnchorLoss.Text.Basic
import AnchorLoss.Text.Digit
import AnchorLoss.Yaml.Character
import AnchorLoss.Yaml.Error

namespace AnchorLoss.Yaml

def foldBreak (b : Char) (more : List Char) : List Char :=
  if breakValue b ≠ '\n' then breakValue b :: more
  else if more.isEmpty then [' ']
  else more

def isFlowIndicator (c : Char) : Bool :=
  c == ',' || c == '?' || c == '[' || c == ']' || c == '\x7b' || c == '\x7d'

def endsKey (flow : Bool) (cs : List Char) : Bool :=
  endsWord cs || (flow && cs.head?.any fun c => isFlowIndicator c && c != '?')

def plainWord (flow : Bool) : List Char → List Char
  | [] => []
  | c :: cs =>
    if isBlank c || isBreak c || (c == ':' && endsKey flow cs) || (flow && isFlowIndicator c) then []
    else c :: plainWord flow cs

/-- The lines between two parts of a plain scalar. -/
structure LineGap where
  breaks : List Char
  rest : List Char
  column : Nat
  marker : Bool

def lineGap (column : Nat) : List Char → LineGap
  | [] => ⟨[], [], column, false⟩
  | c :: cs =>
    if c = ' ' then lineGap (column + 1) cs
    else if isBreak c then
      if startsAnyMarker cs then ⟨[], cs, 0, true⟩
      else
        let gap := lineGap 0 cs
        { gap with breaks := breakValue c :: gap.breaks }
    else ⟨[], c :: cs, column, false⟩

structure Plain where
  text : List Char
  rest : List Char
  newLine : Bool

def plain (flow : Bool) (column : Nat) (cs : List Char) : Plain :=
  let word := plainWord flow cs
  let after := (cs.drop word.length).dropWhile (· == ' ')
  match after with
  | [] => ⟨word, [], false⟩
  | b :: lines =>
    if isBreak b then
      let gap := if startsAnyMarker lines then ⟨[], lines, 0, true⟩ else lineGap 0 lines
      if gap.marker || gap.rest.head? = some '#' || (!flow && gap.column < column) ||
          (plainWord flow gap.rest).isEmpty then
        ⟨word, gap.rest, true⟩
      else if _h : gap.rest.length < cs.length then
        let further := plain flow column gap.rest
        { further with text := word ++ foldBreak b gap.breaks ++ further.text }
      else ⟨word, gap.rest, true⟩
    else
      let spaces := (cs.drop word.length).takeWhile (· == ' ')
      if spaces.isEmpty || b = '#' || (plainWord flow after).isEmpty then ⟨word, after, false⟩
      else if _h : after.length < cs.length then
        let further := plain flow column after
        { further with text := word ++ spaces ++ further.text }
      else ⟨word, after, false⟩
termination_by cs.length

/-- The breaks after the first one in a quoted scalar. No line of it may be a document marker. -/
def quotedBreaks (lineStart : Bool) : List Char → Option (List Char × List Char)
  | [] => some ([], [])
  | c :: cs =>
    if lineStart && startsAnyMarker (c :: cs) then none
    else if isBlank c then quotedBreaks false cs
    else if isBreak c then (quotedBreaks true cs).map fun (bs, rest) => (breakValue c :: bs, rest)
    else some ([], c :: cs)

def escapeValue? : Char → Option Char
  | '0' => some '\x00'
  | 'a' => some '\x07'
  | 'b' => some '\x08'
  | 't' => some '\t'
  | '\t' => some '\t'
  | 'n' => some '\n'
  | 'v' => some '\x0b'
  | 'f' => some '\x0c'
  | 'r' => some '\r'
  | 'e' => some '\x1b'
  | ' ' => some ' '
  | '"' => some '"'
  | '\\' => some '\\'
  | '/' => some '/'
  | 'N' => some (Char.ofNat 0x85)
  | '_' => some (Char.ofNat 0xa0)
  | 'L' => some (Char.ofNat 0x2028)
  | 'P' => some (Char.ofNat 0x2029)
  | _ => none

def codeLength? : Char → Option Nat
  | 'x' => some 2
  | 'u' => some 4
  | 'U' => some 8
  | _ => none

def hexValue (ds : List Nat) : Nat := ds.foldl (fun n d => 16 * n + d) 0

def codePoint (n : Nat) : Except Error CodePoint :=
  if 0x7fffffff < n then .error .codePointRange
  else if h : n < 0x110000 then .ok ⟨n, h⟩
  else .error .codePoint

abbrev Read : Type := Except Error (List CodePoint × List Char)

def escape : List Char → Read
  | [] => .error .malformed
  | c :: cs =>
    match escapeValue? c, codeLength? c with
    | some v, _ => .ok ([.ofChar v], cs)
    | none, some n =>
      match (cs.take n).mapM Text.hexDigitValue? with
      | some ds =>
        if ds.length = n then (codePoint (hexValue ds)).map fun p => ([p], cs.drop n)
        else .error .malformed
      | none => .error .malformed
    | none, none =>
      if isBreak c then
        match quotedBreaks true cs with
        | some (bs, rest) => .ok (bs.map .ofChar, rest)
        | none => .error .malformed
      else .error .malformed

def isOrdinary (c : Char) : Bool :=
  !(isBlank c || isBreak c || c == '"' || c == '\'' || c == '\\')

def quotedPiece (double : Bool) : List Char → Read
  | [] => .error .malformed
  | c :: cs =>
    if isBlank c then
      let blanks := c :: cs.takeWhile isBlank
      match cs.dropWhile isBlank with
      | [] => .error .malformed
      | b :: lines =>
        if isBreak b then lineBreak b lines else .ok (blanks.map .ofChar, b :: lines)
    else if isBreak c then lineBreak c cs
    else if double && c = '\\' then escape cs
    else .ok ((c :: cs.takeWhile isOrdinary).map .ofChar, cs.dropWhile isOrdinary)
where
  lineBreak (b : Char) (lines : List Char) : Read :=
    match quotedBreaks true lines with
    | some (bs, rest) => .ok ((foldBreak b bs).map .ofChar, rest)
    | none => .error .malformed

/-- Reads a quoted scalar after its opening quote. Between single quotes a quote is written twice. -/
def quoted (double : Bool) (cs : List Char) : Read :=
  match double, cs with
  | _, [] => .error .malformed
  | true, '"' :: rest => .ok ([], rest)
  | false, '\'' :: '\'' :: rest => (quoted false rest).map fun (ps, r) => (.ofChar '\'' :: ps, r)
  | false, '\'' :: rest => .ok ([], rest)
  | double, c :: cs => do
    let (piece, rest) ← quotedPiece double (c :: cs)
    if _h : rest.length < (c :: cs).length then
      let (further, rest) ← quoted double rest
      .ok (piece ++ further, rest)
    else .error .malformed
termination_by cs.length
decreasing_by
  all_goals simp only [List.length_cons] at *
  all_goals omega

end AnchorLoss.Yaml
