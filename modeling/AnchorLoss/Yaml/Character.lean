namespace AnchorLoss.Yaml

def isPrintable (c : Char) : Bool :=
  let n := c.toNat
  n == 9 || n == 10 || n == 13 || (0x20 ≤ n && n ≤ 0x7e) || n == 0x85 || (0xa0 ≤ n && n ≤ 0xd7ff) ||
    (0xe000 ≤ n && n ≤ 0xfffd) || 0x10000 ≤ n

def firstBlock : Nat := 8192

def blockSize : Nat := 4096

/-- The characters that can be read, and whether they are all that there are: nothing of a block is
read that holds a character which may not stand in a document. -/
def readable (cs : List Char) : List Char × Bool :=
  match cs.findIdx? (!isPrintable ·) with
  | none => (cs, true)
  | some i =>
    if i < firstBlock then ([], false)
    else (cs.take (firstBlock + (i - firstBlock) / blockSize * blockSize), false)

def byteOrderMark : Char := Char.ofNat 0xfeff

def normalizeLines : List Char → List Char
  | [] => []
  | '\r' :: '\n' :: cs => '\n' :: normalizeLines cs
  | '\r' :: cs => '\n' :: normalizeLines cs
  | c :: cs => c :: normalizeLines cs

def isBreak (c : Char) : Bool :=
  c == '\n' || c.toNat == 0x85 || c.toNat == 0x2028 || c.toNat == 0x2029

def breakValue (c : Char) : Char := if c.toNat = 0x85 then '\n' else c

def isBlank (c : Char) : Bool := c == ' ' || c == '\t'

def endsWord : List Char → Bool
  | [] => true
  | c :: _ => isBlank c || isBreak c

def startsMarker (sign : Char) : List Char → Bool
  | a :: b :: c :: cs => a == sign && b == sign && c == sign && endsWord cs
  | _ => false

def startsAnyMarker (cs : List Char) : Bool := startsMarker '-' cs || startsMarker '.' cs

def endLine? (cs : List Char) : Option (List Char) :=
  match cs.dropWhile (· == ' ') with
  | [] => some []
  | c :: cs =>
    if isBreak c then some cs
    else if c = '#' then some ((cs.dropWhile (!isBreak ·)).drop 1)
    else none

/-- How many characters spaces, comments and line breaks take up, and whether a line ends among them. -/
def skipSpace (inComment : Bool) : List Char → Nat × Bool
  | [] => (0, false)
  | c :: cs =>
    if isBreak c then ((skipSpace false cs).1 + 1, true)
    else if inComment || c = ' ' || c = '#' then
      let (count, newLine) := skipSpace (inComment || c = '#') cs
      (count + 1, newLine)
    else (0, false)

end AnchorLoss.Yaml
