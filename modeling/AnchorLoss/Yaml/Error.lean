namespace AnchorLoss.Yaml

inductive Error where
  | malformed
  | depth
  | codePoint
  | codePointRange
  | noValue
  /-- A sexagesimal fraction has a part whose place is out of range. -/
  | placeRange
  | noDigit
  | noTruthValue
  | timeForm
deriving DecidableEq, Repr

end AnchorLoss.Yaml
