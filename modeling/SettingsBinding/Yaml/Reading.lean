import SettingsBinding.Binary64.Basic
import SettingsBinding.Yaml.Scalar

/-!
What a plain scalar stands for where no type is asked of it: nothing, a truth value, a number or a
text.
-/

namespace SettingsBinding.Yaml

inductive PlainReading where
  | null
  | boolean (value : Bool)
  | integer (value : Int)
  | float
  | text
  deriving DecidableEq, Repr

def natOfDigits? (base : Nat) (digits : List Char) : Option Nat :=
  if digits = [] then none
  else
    digits.foldlM (fun n d => ((hexDigit? d).filter (· < base)).map (base * n + ·)) 0

/-- The bases that are written in front of a number, behind a zero. -/
def bases : List (Char × Nat) := [('x', 16), ('o', 8), ('b', 2)]

/-- Whether digits start with a zero that does not stand alone. -/
def isZeroPadded : List Char → Bool
  | '0' :: d :: rest => d.isDigit && rest.all Char.isDigit
  | _ => false

def magnitude? (cs : List Char) : Option Nat :=
  match cs with
  | '0' :: letter :: digits =>
    (bases.lookup letter).bind fun base => natOfDigits? base digits
  | _ => natOfDigits? 10 cs

def natural? : List Char → Option Nat
  | '+' :: cs => magnitude? cs
  | cs => magnitude? cs

/-- The least power of two that no natural number reaches, and no negative one exceeds. -/
def naturalBound : Nat := Nat.pow 2 128

def negativeBound : Nat := Nat.pow 2 127

def integer? : List Char → Option Int
  | '-' :: cs => ((magnitude? cs).filter (· ≤ negativeBound)).map fun n => -(n : Int)
  | cs => ((natural? cs).filter (· < naturalBound)).map Int.ofNat

def withoutSign : List Char → List Char
  | '+' :: cs => cs
  | '-' :: cs => cs
  | cs => cs

def exponent? : List Char → Option Int
  | [] => some 0
  | e :: cs =>
    if e == 'e' || e == 'E' then
      (natOfDigits? 10 (withoutSign cs)).map fun n =>
        if cs.head? = some '-' then -(n : Int) else n
    else none

/-- The most digits in front of the point of a finite number. -/
def mostFloatDigits : Int := 309

def isFiniteDecimal (digits : List Char) (exponent : Int) : Bool :=
  let digits := digits.dropWhile (· == '0')
  let size := (digits.length : Int) + exponent
  if digits = [] ∨ size < 0 then true
  else if mostFloatDigits < size then false
  else
    let n := (natOfDigits? 10 digits).getD 0
    let quotient := Binary64.dividedByPower n 1 10 (-exponent)
    (Binary64.ofQuotient? quotient.1 quotient.2).isSome

/-- Whether a text without sign is a finite number with a point or an exponent, or either left
out. -/
def isDecimal (cs : List Char) : Bool :=
  let whole := cs.takeWhile Char.isDigit
  let rest := cs.drop whole.length
  let fraction := if rest.head? = some '.' then (rest.drop 1).takeWhile Char.isDigit else []
  let rest := if rest.head? = some '.' then rest.drop (1 + fraction.length) else rest
  let digits := whole ++ fraction
  match exponent? rest with
  | some exponent => digits ≠ [] && isFiniteDecimal digits (exponent - fraction.length)
  | none => false

def infinities : List String := [".inf", ".Inf", ".INF"]

def notNumbers : List String := [".nan", ".NaN", ".NAN"]

def isFloat (cs : List Char) : Bool :=
  let unsigned := withoutSign cs
  infinities.contains (String.ofList unsigned) || notNumbers.contains (String.ofList cs) ||
    isDecimal unsigned

def nulls : List String := ["", "null", "Null", "NULL", "~"]

def truths : List String := ["true", "True", "TRUE"]

def falsehoods : List String := ["false", "False", "FALSE"]

/-- What a plain scalar stands for. Digits behind a zero are a text. -/
def PlainReading.ofText (s : String) : PlainReading :=
  if nulls.contains s then .null
  else if truths.contains s then .boolean true
  else if falsehoods.contains s then .boolean false
  else
    match integer? s.toList with
    | some n => .integer n
    | none =>
      if !isZeroPadded (withoutSign s.toList) && isFloat s.toList then .float else .text

/-- Whether a text has to be quoted to be read back as a text. -/
def isAmbiguous (s : String) : Bool :=
  PlainReading.ofText s ≠ .text || isZeroPadded (withoutSign s.toList)

end SettingsBinding.Yaml
