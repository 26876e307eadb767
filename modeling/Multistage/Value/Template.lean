/-
Multistage.Value.Template — texts with places for values.

A percent sign opens a place:

    % [(name)] [flags] [width] [.precision] [size] kind

The flags are a minus sign (fill on the right), a plus sign or a blank (in
place of a missing sign), a number sign (the other form) and a zero (fill with
zeros).  A width or precision is a number, or a star that takes the next value.
The size is ignored.  The kind says how the value is written.  Two percent signs
stand for one.

Places take their values in order, or by name out of a record.  Filling fails
when a value is missing or does not fit its place, when values in order are
left over, and when a place is not complete.
-/
import Multistage.Value.Shown

namespace Multistage

-- Powers are the plain ones, also where a library of algebra offers its own.
attribute [local instance (high)] instPowNat

/-! ## Templates -/

/-- The width or precision of a place. -/
inductive Extent where
  | exactly (n : Nat)
  | next
  deriving Repr, DecidableEq

/-- A place for a value. -/
structure Place where
  name : Option String
  flags : List Char
  width : Option Extent
  precision : Option Extent
  kind : Char
  deriving Repr, DecidableEq

/-- A part of a template. -/
inductive Piece where
  | letter (c : Char)
  | place (p : Place)
  deriving Repr, DecidableEq

namespace Template

/-! ## Reading -/

/-- The name up to the parenthesis that closes it, and what follows. -/
def readName (depth : Nat) (name : List Char) : List Char → Option (String × List Char)
  | [] => none
  | c :: rest =>
    if c = ')' then
      if depth = 0 then some (String.ofList name.reverse, rest)
      else readName (depth - 1) (c :: name) rest
    else readName (if c = '(' then depth + 1 else depth) (c :: name) rest

/-- A width or precision, if there is one, and what follows. -/
def readExtent (cs : List Char) : Option Extent × List Char :=
  match cs with
  | '*' :: rest => (some .next, rest)
  | _ =>
    match cs.takeWhile Char.isDigit with
    | [] => (none, cs)
    | digits =>
      (some (.exactly (digits.foldl (fun n c => n * 10 + (c.toNat - '0'.toNat)) 0)),
        cs.dropWhile Char.isDigit)

/-- The precision, if there is one, and what follows; a point alone is a
precision of zero. -/
def readPrecision (cs : List Char) : Option Extent × List Char :=
  match cs with
  | '.' :: rest =>
    let (precision, rest) := readExtent rest
    (some (precision.getD (.exactly 0)), rest)
  | _ => (none, cs)

/-- What follows a size, if there is one. -/
def skipSize (cs : List Char) : List Char :=
  match cs with
  | c :: rest => if "hlL".contains c then rest else cs
  | [] => []

/-- True of a flag. -/
def isFlag (c : Char) : Bool := "-+ #0".contains c

/-- The place after a percent sign, and what follows it. -/
def readPlace (cs : List Char) : Option (Place × List Char) := do
  let (name, cs) ← match cs with
    | '(' :: rest => (readName 0 [] rest).map fun (name, rest) => (some name, rest)
    | _ => some (none, cs)
  let flags := cs.takeWhile isFlag
  let (width, cs) := readExtent (cs.dropWhile isFlag)
  let (precision, cs) := readPrecision cs
  match skipSize cs with
  | [] => none
  | kind :: rest => some (⟨name, flags, width, precision, kind⟩, rest)

/-- Reads the parts of a template, each of which takes at least one of a
number of characters. -/
def readWithin : Nat → List Char → Option (List Piece)
  | 0, cs => if cs.isEmpty then some [] else none
  | _ + 1, [] => some []
  | fuel + 1, '%' :: '%' :: rest => return .letter '%' :: (← readWithin fuel rest)
  | fuel + 1, '%' :: rest => do
    let (place, rest) ← readPlace rest
    return .place place :: (← readWithin fuel rest)
  | fuel + 1, c :: rest => return .letter c :: (← readWithin fuel rest)

/-- The parts of a template; none if a place is not complete. -/
def read (s : String) : Option (List Piece) := readWithin s.length s.toList

/-! ## Values for places -/

/-- The values that are left: some in order, or a record out of which names
are looked up and the value that comes next. -/
inductive Supply where
  | inOrder (values : List Value)
  | byName (record : Value) (next : Option Value)

/-- Filling, which uses up values and may fail. -/
abbrev Filling := StateT Supply Option

/-- The next value. -/
def takeValue : Filling Value := do
  match ← get with
  | .inOrder (v :: rest) =>
    set (Supply.inOrder rest)
    return v
  | .byName record (some v) =>
    set (Supply.byName record none)
    return v
  | .inOrder [] | .byName _ none => failure

/-- Looks up a name, whose value comes next. -/
def lookUp (name : String) : Filling Unit := do
  match ← get with
  | .byName record _ =>
    set (Supply.byName record (some (← (record.field? name : Option Value))))
  | .inOrder _ => failure

/-- The largest width and precision. -/
def largestExtent : Nat := 2 ^ (31 : Nat) - 1

/-- A width or precision out of a place or the next value, which has to be
whole. -/
def resolve : Extent → Filling Int
  | .exactly n => if n ≤ largestExtent then return n else failure
  | .next => do
    match (← takeValue).number with
    | .ok (.whole n) => if n.natAbs ≤ largestExtent then return n else failure
    | _ => failure

/-! ## Writing -/

/-- A value as it is written: numbers have a sign and, in another form, a mark
of their base in front of their digits. -/
structure Written where
  isNumber : Bool
  sign : String := ""
  mark : String := ""
  body : String

/-- The sign of a number: a minus sign, or what the flags put in place of
none. -/
def signText (flags : List Char) (isNegative : Bool) : String :=
  if isNegative then "-"
  else if flags.contains '+' then "+"
  else if flags.contains ' ' then " "
  else ""

/-- A whole number in a base, with at least so many digits as the precision
says. -/
def whole (p : Place) (base : Nat) (precision : Option Nat) (i : Int) : Written :=
  let digits := String.ofList (Nat.toDigits base i.natAbs)
  let body := Decimal.zeros (precision.getD 0 - digits.length) ++ digits
  let mark := if base = 10 || !p.flags.contains '#' then "" else if base = 8 then "0o" else "0x"
  { isNumber := true
    sign := signText p.flags (decide (i < 0))
    mark := if p.kind.isUpper then mark.toUpper else mark
    body := if p.kind.isUpper then body.toUpper else body }

/-- A double in one of three formats. -/
def real (p : Place) (precision : Option Nat) (x : Float) : Written :=
  let digits := precision.getD 6
  let other := p.flags.contains '#'
  let text := Decimal.signed
    (match p.kind.toLower with
      | 'e' => Decimal.scientificText digits other
      | 'f' => Decimal.fixedText digits other
      | _ => Decimal.generalText digits other) x
  let isNegative := text.startsWith "-"
  let body := if isNegative then (text.drop 1).toString else text
  { isNumber := true
    sign := signText p.flags isNegative
    body := if p.kind.isUpper then body.toUpper else body }

/-- The whole number that a value is, doubles not counted. -/
def wholeOf (v : Value) : Option Int :=
  match v.number with
  | .ok (.whole i) => some i
  | _ => none

/-- The whole number that a number is cut off to. -/
def cutOff (v : Value) : Option Int :=
  match v with
  | .float x => (Value.truncate x).toOption
  | v => wholeOf v

/-- The character that a value is, or whose number it is. -/
def charOf (v : Value) : Option String :=
  match v with
  | .string s => if s.length = 1 then some s else none
  | v => do
    let i ← wholeOf v
    let c := Char.ofNat i.toNat
    if i = c.toNat then some (String.singleton c) else none

/-- A value in its place. -/
def write (p : Place) (precision : Option Nat) (v : Value) : Option Written :=
  let cut (s : String) : String := match precision with
    | none => s
    | some n => (s.take n).toString
  match p.kind with
  | 's' => some { isNumber := false, body := cut v.text }
  | 'r' => some { isNumber := false, body := cut v.quoted }
  | 'a' => some { isNumber := false, body := cut (Text.asciiOnly v.quoted) }
  | 'c' => (charOf v).map fun s => { isNumber := false, body := s }
  | 'd' | 'i' | 'u' => (cutOff v).map (whole p 10 precision)
  | 'o' => (wholeOf v).map (whole p 8 precision)
  | 'x' | 'X' => (wholeOf v).map (whole p 16 precision)
  | 'e' | 'E' | 'f' | 'F' | 'g' | 'G' =>
    (v.number.bind Number.toFloat).toOption.map (real p precision)
  | _ => none

/-- A written value filled up to a width. -/
def layOut (p : Place) (width : Int) (w : Written) : String :=
  let text := w.sign ++ w.mark ++ w.body
  let missing := width.natAbs - text.length
  if width < 0 || p.flags.contains '-' then
    text ++ String.ofList (List.replicate missing ' ')
  else if w.isNumber && p.flags.contains '0' then
    w.sign ++ w.mark ++ Decimal.zeros missing ++ w.body
  else String.ofList (List.replicate missing ' ') ++ text

/-- The text of a place. -/
def fillPlace (p : Place) : Filling String := do
  if let some name := p.name then lookUp name
  let width ← p.width.mapM resolve
  let precision ← p.precision.mapM resolve
  let written ← (write p (precision.map Int.toNat) (← takeValue) : Option Written)
  return layOut p (width.getD 0) written

/-- The text of the parts of a template. -/
def fillPieces : List Piece → Filling String
  | [] => return ""
  | .letter c :: rest => return String.singleton c ++ (← fillPieces rest)
  | .place p :: rest => do
    let text ← fillPlace p
    return text ++ (← fillPieces rest)

/-- The values for a template: a single record with fields is looked up by
name. -/
def Supply.ofValues (values : List Value) : Supply :=
  match values with
  | [.record (f :: fs)] => .byName (.record (f :: fs)) (some (.record (f :: fs)))
  | _ => .inOrder values

/-- The text of a template filled with values, if they fit. -/
def fill (template : String) (values : List Value) : Option String := do
  let (text, rest) ← (fillPieces (← read template)).run (.ofValues values)
  match rest with
  | .inOrder (_ :: _) => none
  | .inOrder [] | .byName _ _ => some text

end Template

end Multistage
