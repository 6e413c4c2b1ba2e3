import SettingsBinding.Binary64.Shortest
import SettingsBinding.Json.Basic
import SettingsBinding.Json.Fault

/-!
Numbers in JSON texts. An integer of 64 bits is read and written exactly. Any other number is read
as a double in two roundings: of its leading digits, as far as they fit 64 bits, and of their
product with a power of ten. A double is written with the fewest digits that round to it.
-/

namespace SettingsBinding.JsonNumber

open Json (Problem Fault)

/-- The largest significand that is collected. -/
def greatestSignificand : Nat := Nat.pow 2 64 - 1

def greatestPower : Nat := Nat.pow 2 31 - 1

def digitValue (c : Char) : Nat := c.toNat - '0'.toNat

/-- Appends digits to a number as long as it stays within `limit`; the digits behind are left. -/
def takeFitting (limit : Nat) : Nat → List Char → Nat × List Char
  | n, [] => (n, [])
  | n, d :: digits =>
    if 10 * n + digitValue d ≤ limit then takeFitting limit (10 * n + digitValue d) digits
    else (n, d :: digits)

def doubleOfNat (n : Nat) : Binary64 := (Binary64.ofNat? n).getD (Binary64.zero false)

/-- The double `± significand · 10 ^ power`. -/
def finish (negative : Bool) (significand : Nat) (power : Int) (rest : List Char) :
    Except (Fault Problem) (JsonNumber × List Char) :=
  match (doubleOfNat significand).timesPowerOfTen? power with
  | some x => .ok (.double (x.withSign negative), rest)
  | none => .error (.here .numberTooLarge rest)

def readExponentDigits (negative : Bool) (significand : Nat) (power : Int) (downwards : Bool)
    (cs : List Char) : Except (Fault Problem) (JsonNumber × List Char) :=
  let rest := cs.dropWhile Char.isDigit
  match cs.takeWhile Char.isDigit with
  | [] => .error (if cs = [] then .here .unfinishedValue cs else .next .badNumber cs)
  | digits =>
    match takeFitting greatestPower 0 digits with
    | (n, []) => finish negative significand (if downwards then power - n else power + n) rest
    | (_, _ :: unread) =>
      if significand ≠ 0 ∧ !downwards then .error (.here .numberTooLarge (unread ++ rest))
      else .ok (.double (Binary64.zero negative), rest)

def readExponent (negative : Bool) (significand : Nat) (power : Int) :
    List Char → Except (Fault Problem) (JsonNumber × List Char)
  | [] => finish negative significand power []
  | c :: rest =>
    if c = 'e' ∨ c = 'E' then
      match rest with
      | '+' :: rest => readExponentDigits negative significand power false rest
      | '-' :: rest => readExponentDigits negative significand power true rest
      | rest => readExponentDigits negative significand power false rest
    else finish negative significand power (c :: rest)

def readFraction (negative : Bool) (significand : Nat) (power : Int) (cs : List Char) :
    Except (Fault Problem) (JsonNumber × List Char) :=
  let rest := cs.dropWhile Char.isDigit
  match cs.takeWhile Char.isDigit with
  | [] => .error (.next (if cs = [] then .unfinishedValue else .badNumber) cs)
  | digits =>
    let (extended, unread) := takeFitting greatestSignificand significand digits
    readExponent negative extended (power + unread.length - digits.length) rest

/-- The number of an integer text that fits 64 bits without its sign. A negative one that does not
fit with its sign, and a negative zero, are doubles. -/
def ofSigned (negative : Bool) (n : Nat) : JsonNumber :=
  if !negative then .integer n
  else if 0 < n ∧ n ≤ Nat.pow 2 63 then .integer (-(n : Int))
  else .double ((doubleOfNat n).withSign true)

def readTail (negative : Bool) (significand : Nat) (unread : List Char) (rest : List Char) :
    Except (Fault Problem) (JsonNumber × List Char) :=
  match rest with
  | '.' :: fraction => readFraction negative significand unread.length fraction
  | 'e' :: _ => readExponent negative significand unread.length rest
  | 'E' :: _ => readExponent negative significand unread.length rest
  | rest =>
    if unread = [] then .ok (ofSigned negative significand, rest)
    else finish negative significand unread.length rest

def read (negative : Bool) : List Char → Except (Fault Problem) (JsonNumber × List Char)
  | [] => .error (.here .unfinishedValue [])
  | '0' :: rest =>
    match rest with
    | c :: _ => if c.isDigit then .error (.next .badNumber rest) else readTail negative 0 [] rest
    | [] => readTail negative 0 [] rest
  | c :: rest =>
    if c.isDigit then
      let (significand, unread) :=
        takeFitting greatestSignificand 0 (c :: rest.takeWhile Char.isDigit)
      readTail negative significand unread (rest.dropWhile Char.isDigit)
    else .error (.next .badNumber (c :: rest))

/-- How doubles are laid out: the decimal points up to `lastPoint` places behind the first digit and
less than `leadingZeros` places before it are written in place, with at least one digit behind them;
else the number has one digit before the point, and a signed power of ten. -/
structure Layout where
  leadingZeros : Int
  lastPoint : Int

def layout : Layout := ⟨5, 16⟩

def powerChars (power : Int) : List Char :=
  'e' :: (if 0 ≤ power then '+' else '-') :: Nat.toDigits 10 power.natAbs

def decimalChars (d : Binary64.Decimal) : List Char :=
  if -layout.leadingZeros < d.point ∧ d.point ≤ layout.lastPoint then
    let whole := d.point.toNat
    let leading := List.replicate (-d.point).toNat '0'
    if whole = 0 then '0' :: '.' :: leading ++ d.digits
    else if d.digits.length ≤ whole then
      d.digits ++ List.replicate (whole - d.digits.length) '0' ++ ['.', '0']
    else d.digits.take whole ++ '.' :: d.digits.drop whole
  else
    match d.digits with
    | [] => []
    | [digit] => digit :: powerChars (d.point - 1)
    | digit :: digits => digit :: '.' :: digits ++ powerChars (d.point - 1)

def doubleChars (x : Binary64) : List Char :=
  let magnitude := if x.isZero then ['0', '.', '0'] else decimalChars x.shortest
  if x.negative then '-' :: magnitude else magnitude

def chars : JsonNumber → List Char
  | .integer (.ofNat n) => Nat.toDigits 10 n
  | .integer (.negSucc n) => '-' :: Nat.toDigits 10 (n + 1)
  | .double x => doubleChars x

end SettingsBinding.JsonNumber
