import AnchorLoss.Text.Digit
import AnchorLoss.Yaml.Character

namespace AnchorLoss.Yaml

def isNameChar (c : Char) : Bool := c.isAlphanum || c == '-' || c == '_'

def name? (cs : List Char) : Option (String × List Char) :=
  let name := cs.takeWhile isNameChar
  if name.isEmpty then none else some (String.ofList name, cs.dropWhile isNameChar)

def endsField : List Char → Bool
  | [] => true
  | c :: _ => c == ' ' || isBreak c

def endsAnchor (c : Char) : Bool :=
  c == '?' || c == ':' || c == ',' || c == ']' || c == '\x7d' || c == '%' || c == '@' || c == '\x60'

def anchor? (cs : List Char) : Option (String × List Char) := do
  let (name, rest) ← name? cs
  if endsWord rest || rest.head?.any endsAnchor then some (name, rest) else none

/-- A tag as it is written: a whole one, or a suffix to be put behind what its handle stands for. -/
structure WrittenTag where
  handle : Option String
  suffix : String
deriving DecidableEq, Repr

def nonSpecificTag : String := "!"

def isUriChar (c : Char) : Bool :=
  c.isAlphanum || "-;/?:@&=+$,_.!~*'()[]".toList.contains c

def escapedBytes? : List Char → Option (List UInt8 × List Char)
  | '%' :: a :: b :: cs => do
    let m ← Text.hexDigitValue? a
    let n ← Text.hexDigitValue? b
    let (bytes, rest) ← escapedBytes? cs
    some (.ofNat (16 * m + n) :: bytes, rest)
  | '%' :: _ => none
  | cs => some ([], cs)

/-- Reads the characters of a locator, whose escaped bytes are in UTF-8. -/
def uriChars? (cs : List Char) : Option (List Char × List Char) :=
  match cs with
  | [] => some ([], [])
  | c :: cs =>
    if isUriChar c then (uriChars? cs).map fun (uri, rest) => (c :: uri, rest)
    else if c = '%' then do
      let (bytes, rest) ← escapedBytes? (c :: cs)
      let text ← String.fromUTF8? ⟨bytes.toArray⟩
      if _h : rest.length < (c :: cs).length then
        let (uri, rest) ← uriChars? rest
        some (text.toList ++ uri, rest)
      else none
    else some ([], c :: cs)
termination_by cs.length
decreasing_by
  all_goals simp only [List.length_cons] at *
  all_goals omega

def uri? (cs : List Char) : Option (String × List Char) := do
  if !cs.head?.any fun c => isUriChar c || c == '%' then none
  let (uri, rest) ← uriChars? cs
  some (String.ofList uri, rest)

def handle? : List Char → Option (String × List Char)
  | '!' :: cs =>
    let name := cs.takeWhile isNameChar
    match cs.dropWhile isNameChar with
    | '!' :: rest => some (String.ofList ('!' :: name ++ ['!']), rest)
    | rest => if cs.head? = some ' ' then some ("!", rest) else none
  | _ => none

def tag? (cs : List Char) : Option (WrittenTag × List Char) := do
  let (tag, rest) ← match cs with
    | '<' :: cs => do
      let (uri, rest) ← uri? cs
      let '>' :: rest := rest | none
      some (WrittenTag.mk none uri, rest)
    | cs =>
      if endsWord cs then some (⟨none, nonSpecificTag⟩, cs)
      else if (cs.takeWhile fun c => !(c == ' ' || isBreak c)).contains '!' then do
        let (handle, rest) ← handle? ('!' :: cs)
        let (suffix, rest) ← uri? rest
        some (⟨some handle, suffix⟩, rest)
      else do
        let (suffix, rest) ← uri? cs
        some (⟨some "!", suffix⟩, rest)
  if endsField rest then some (tag, rest) else none

inductive Directive where
  | version (major : Nat)
  | handle (handle uri : String)
  | reserved
deriving DecidableEq, Repr

namespace Directive

def skipSpaces (cs : List Char) : List Char := cs.dropWhile (· == ' ')

def numeral? (cs : List Char) : Option (Nat × List Char) :=
  let ds := cs.takeWhile Char.isDigit
  if ds.isEmpty then none
  else some (ds.foldl (fun n c => 10 * n + (c.toNat - 48)) 0, cs.dropWhile Char.isDigit)

def version? (cs : List Char) : Option (Directive × List Char) := do
  let (major, rest) ← numeral? (skipSpaces cs)
  let '.' :: rest := rest | none
  let (_, rest) ← numeral? rest
  if endsField rest then some (version major, rest) else none

def handle? (cs : List Char) : Option (Directive × List Char) := do
  let (h, rest) ← Yaml.handle? (skipSpaces cs)
  if rest.head? ≠ some ' ' then none
  let (uri, rest) ← uri? (skipSpaces rest)
  if endsField rest then some (handle h uri, rest) else none

def read? (cs : List Char) : Option (Directive × List Char) := do
  let (name, rest) ← name? cs
  if !endsField rest then none
  let (directive, rest) ← match name with
    | "YAML" => version? rest
    | "TAG" => handle? rest
    | _ => some (reserved, rest.dropWhile (!isBreak ·))
  some (directive, ← endLine? rest)

end Directive

end AnchorLoss.Yaml
