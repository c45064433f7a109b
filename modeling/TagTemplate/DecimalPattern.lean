import TagTemplate.Binary64.Text

/-!
Decimal patterns such as `0.000`, `#.##` or `#,##0.00`.

A zero stands for a digit that is always written and a hash for one that is written if it is
needed.  A comma in the part before the point groups digits by the number of marks after the
last comma.  Numbers are rounded to as many places as the pattern has marks after its point.
-/

namespace TagTemplate

structure DecimalPattern where
  minWhole : Nat
  grouping : Option Nat
  minFraction : Nat
  maxFraction : Nat
  deriving DecidableEq, Repr

namespace DecimalPattern

/-! ## Reading -/

def isWholeMark (c : Char) : Bool := c == '#' || c == '0' || c == ','

def isFraction (marks : List Char) : Bool :=
  (marks.dropWhile (· == '0')).all (· == '#')

/-- Number of marks after the last comma; zero means that digits are not grouped. -/
def groupSize (whole : List Char) : Nat :=
  if ',' ∈ whole then (whole.reverse.takeWhile (· != ',')).length else 0

def ofParts (whole fraction : List Char) : DecimalPattern where
  minWhole := whole.count '0'
  grouping := if groupSize whole = 0 then none else some (groupSize whole)
  minFraction := fraction.count '0'
  maxFraction := fraction.length

/-- A pattern needs at least one mark. -/
def parse? (pattern : List Char) : Option DecimalPattern :=
  let whole := pattern.takeWhile isWholeMark
  match pattern.dropWhile isWholeMark with
  | [] => if whole.isEmpty then none else some (ofParts whole [])
  | '.' :: fraction =>
      if isFraction fraction && !(whole.isEmpty && fraction.isEmpty) then
        some (ofParts whole fraction)
      else none
  | _ => none

/-! ## Formatting -/

/-- Drops zeros from the end, but none of the first `keep` digits. -/
def trimZeros (keep : Nat) (digits : List Char) : List Char :=
  digits.take keep ++ ((digits.drop keep).reverse.dropWhile (· == '0')).reverse

def padZeros (width : Nat) (digits : List Char) : List Char :=
  List.replicate (width - digits.length) '0' ++ digits

/-- A comma stands wherever a multiple of `size` digits follows. -/
def groupDigits (size : Nat) : List Char → List Char
  | [] => []
  | c :: rest =>
      if !rest.isEmpty && rest.length % size == 0 then c :: ',' :: groupDigits size rest
      else c :: groupDigits size rest

def isNonzeroDigit (c : Char) : Bool := c.isDigit && c != '0'

def wholePart (pattern : DecimalPattern) (d : Decimal) : List Char :=
  let digits := padZeros pattern.minWhole (d.wholeDigits.dropWhile (· == '0'))
  match pattern.grouping with
  | some size => groupDigits size digits
  | none => digits

def fractionPart (pattern : DecimalPattern) (d : Decimal) : List Char :=
  trimZeros pattern.minFraction d.fractionDigits

/-- The sign is written only before a nonzero digit, and a lone zero only if nothing else is. -/
def formatFinite (pattern : DecimalPattern) (x : Binary64) : List Char :=
  let d := Binary64.fixed x.magnitude pattern.maxFraction
  let whole := pattern.wholePart d
  let fraction := pattern.fractionPart d
  let sign := if x.isNegative && (whole ++ fraction).any isNonzeroDigit then ['-'] else []
  let point := if fraction.isEmpty then [] else ['.']
  let written := sign ++ whole ++ point ++ fraction
  if written.isEmpty then ['0'] else written

def format (pattern : DecimalPattern) (x : Binary64) : String :=
  if x.isFinite then String.ofList (pattern.formatFinite x) else x.text

end DecimalPattern

end TagTemplate
