import Dagmar.Text

/-! The time field of the web client. A JavaScript string is a list of UTF-16 code
units, in which `\d` admits the ten ASCII digits and `$` stands at the end alone. -/

namespace Dagmar.Web

abbrev JsString := List UInt16

def colon : UInt16 := 0x3a
def dot : UInt16 := 0x2e

def isDigit (unit : UInt16) : Bool := 0x30 ≤ unit && unit ≤ 0x39

/-- The white space and line terminators that `String.prototype.trim` takes off. -/
def isSpace (unit : UInt16) : Bool :=
  unit ∈ ([0x9, 0xa, 0xb, 0xc, 0xd, 0x20, 0xa0, 0x1680, 0x2000, 0x2001, 0x2002, 0x2003, 0x2004, 0x2005, 0x2006, 0x2007,
    0x2008, 0x2009, 0x200a, 0x2028, 0x2029, 0x202f, 0x205f, 0x3000, 0xfeff] : List UInt16)

def trim (raw : JsString) : JsString := ((raw.dropWhile isSpace).reverse.dropWhile isSpace).reverse

/-- `String.prototype.replace` with a one-unit pattern: only the first occurrence goes. -/
def replaceFirst (unit : UInt16) (other : JsString) : JsString → JsString
  | [] => []
  | first :: rest => if first = unit then other ++ rest else first :: replaceFirst unit other rest

/-- `Number` of a text of digits. -/
def number (digits : JsString) : Nat := digits.foldl (fun value unit => value * 10 + (unit.toNat - 0x30)) 0

/-- `String` of a number. -/
def decimalText (value : Nat) : JsString := (Nat.toDigits 10 value).map fun digit => digit.toNat.toUInt16

def padStart (length : Nat) (filler : UInt16) (text : JsString) : JsString :=
  List.replicate (length - text.length) filler ++ text

/-- `null` is `none`. A number of digits is never below 0, so only the upper bounds are asked. -/
def normalizeTimeInput (raw : JsString) : Option JsString :=
  let value := replaceFirst dot [colon] (trim raw)
  if value = [] then some []
  else
    let compact := replaceFirst colon [] value
    if ¬ (compact.all isDigit ∧ 1 ≤ compact.length ∧ compact.length ≤ 4) then none
    else
      let hour := if compact.length ≤ 2 then number compact else number (compact.take (compact.length - 2))
      let minute := if compact.length ≤ 2 then 0 else number (compact.drop (compact.length - 2))
      if 23 < hour ∨ 59 < minute then none
      else some (padStart 2 0x30 (decimalText hour) ++ [colon] ++ padStart 2 0x30 (decimalText minute))

/-- The text that a request of the client carries. -/
def JsString.text (value : JsString) : String := String.ofList (value.map fun unit => Char.ofNat unit.toNat)

end Dagmar.Web
