/- Module: Hub/RequestId
   source: internal/api/hub_mcp_request_id.go
   digest: The comparable key of a JSON-RPC id. -/

import McpLocalHub.Foundation.Decimal
import McpLocalHub.Foundation.GoText

set_option autoImplicit false

/-! Texts are lists of characters. The text of a number is ASCII, so that the indices of the
source, which count bytes, agree with positions in the list. -/

namespace McpLocalHub.Hub.RequestId

open McpLocalHub.Foundation.Decimal Foundation.GoText

abbrev Text := List Char

def maxCanonicalExponentMagnitude : ℕ := 2 ^ 20

inductive NumberError
  | empty
  | loneMinus
  | malformed (text : Text)
  | integerPart (text : Text)
  | fractionalPart (text : Text)
  | emptyExponent
  | exponent (text : Text)
  | magnitudeLength (text : Text)
  | magnitude (parsed : ℕ)
  deriving DecidableEq

inductive RequestIDError
  | empty
  | null
  | json (text : String)
  | secondValue
  | trailingData (text : String)
  | notStringOrNumber
  | leadingPlus
  | number (error : NumberError)
  deriving DecidableEq

def quoted (text : Text) : String := "\"" ++ String.ofList text ++ "\""

def NumberError.message : NumberError → String
  | .empty => "invalid number: empty"
  | .loneMinus => "invalid number: lone minus"
  | .malformed text => "invalid number: " ++ quoted text
  | .integerPart text => "invalid number: integer part " ++ quoted text
  | .fractionalPart text => "invalid number: fractional part " ++ quoted text
  | .emptyExponent => "invalid number: empty exponent"
  | .exponent text => "invalid number: exponent " ++ quoted text
  | .magnitudeLength text =>
    "invalid number: exponent magnitude " ++ quoted text ++ " exceeds canonicalizer bound"
  | .magnitude parsed =>
    "invalid number: exponent magnitude " ++ toString parsed ++ " exceeds canonicalizer bound " ++
      toString maxCanonicalExponentMagnitude

def RequestIDError.message : RequestIDError → String
  | .empty => "invalid request: empty id"
  | .null => "invalid request: MCP requires non-null id"
  | .json text => "invalid request: " ++ text
  | .secondValue => "invalid request: id contains a second JSON value"
  | .trailingData text => "invalid request: id contains trailing data: " ++ text
  | .notStringOrNumber => "invalid request: id must be string or number"
  | .leadingPlus => "invalid request: number id may not have leading +"
  | .number error => error.message

def allDigits (text : Text) : Bool := decide (text ≠ []) && text.all Char.isDigit

def scanMarks : Text → ℕ → Option ℕ → Option ℕ → Option ℕ × Option ℕ
  | [], _, dotIdx, expIdx => (dotIdx, expIdx)
  | c :: rest, i, dotIdx, expIdx =>
    if c = '.' ∧ dotIdx = none ∧ expIdx = none then scanMarks rest (i + 1) (some i) expIdx
    else if (c = 'e' ∨ c = 'E') ∧ expIdx = none then scanMarks rest (i + 1) dotIdx (some i)
    else scanMarks rest (i + 1) dotIdx expIdx

structure Parts where
  intPart : Text
  fracPart : Text
  expPart : Text

def splitJSONNumber (s : Text) : Parts :=
  match scanMarks s 0 none none with
  | (none, none) => ⟨s, [], []⟩
  | (none, some expIdx) => ⟨s.take expIdx, [], s.drop (expIdx + 1)⟩
  | (some dotIdx, none) => ⟨s.take dotIdx, s.drop (dotIdx + 1), []⟩
  | (some dotIdx, some expIdx) =>
    ⟨s.take dotIdx, (s.take expIdx).drop (dotIdx + 1), s.drop (expIdx + 1)⟩

def splitExponent (expPart : Text) : Except NumberError (Option Char × Text) :=
  match expPart with
  | [] => .ok (none, [])
  | c :: tail =>
    let (sign, rest) := if c = '+' ∨ c = '-' then (some c, tail) else (none, c :: tail)
    if rest = [] then .error .emptyExponent
    else if allDigits rest = false then .error (.exponent expPart)
    else .ok (sign, rest)

/-- Step 4 of `canonicalizeJSONNumber`, the parsed exponent. `strconv.Atoi` does not fail on at
most eight digits. -/
def parseExponent (expSign : Option Char) (expMag : Text) : Except NumberError ℤ :=
  let expMag := expMag.dropWhile (· = '0')
  if expMag = [] then .ok 0
  else if 8 < expMag.length then .error (.magnitudeLength expMag)
  else
    let parsed := value expMag
    if maxCanonicalExponentMagnitude < parsed then .error (.magnitude parsed)
    else .ok (if expSign = some '-' then -(parsed : ℤ) else parsed)

def stripTrailingZeros (mantissa : Text) (stripped : ℕ) : Text × ℕ :=
  if trailing : mantissa.getLast? = some '0' then
    stripTrailingZeros mantissa.dropLast (stripped + 1)
  else (mantissa, stripped)
termination_by mantissa.length
decreasing_by
  have nonempty : mantissa ≠ [] := by
    rintro rfl
    cases trailing
  have positive := List.length_pos_iff.mpr nonempty
  rw [List.length_dropLast]
  omega

def exponentSuffix (mantExp : ℤ) : Text :=
  if mantExp = 0 then []
  else if mantExp < 0 then 'e' :: '-' :: Nat.toDigits 10 (-mantExp).toNat
  else 'e' :: Nat.toDigits 10 mantExp.toNat

def emit (neg : Bool) (mantissa : Text) (mantExp : ℤ) : Text :=
  (if neg then ['-'] else []) ++ mantissa ++ exponentSuffix mantExp

def canonicalForm (neg : Bool) (mantissa : Text) (mantExp : ℤ) : Text :=
  let mantissa := mantissa.dropWhile (· = '0')
  if mantissa = [] then ['0']
  else
    let (mantissa, stripped) := stripTrailingZeros mantissa 0
    emit neg mantissa (mantExp + stripped)

def canonicalizeUnsigned (neg : Bool) (s : Text) : Except NumberError Text :=
  let parts := splitJSONNumber s
  if parts.intPart = [] then .error (.malformed s)
  else if allDigits parts.intPart = false then .error (.integerPart parts.intPart)
  else if parts.fracPart ≠ [] ∧ allDigits parts.fracPart = false then
    .error (.fractionalPart parts.fracPart)
  else do
    let (expSign, expMag) ← splitExponent parts.expPart
    let parsed ← parseExponent expSign expMag
    return canonicalForm neg (parts.intPart ++ parts.fracPart) (parsed - parts.fracPart.length)

def canonicalizeJSONNumber (s : Text) : Except NumberError Text :=
  match s with
  | [] => .error .empty
  | ['-'] => .error .loneMinus
  | '-' :: rest => canonicalizeUnsigned true rest
  | _ => canonicalizeUnsigned false s

structure JSONNumber where
  neg : Bool
  int : Text
  frac : Option Text
  exp : Option (Bool × Option Bool × Text)
  int_digits : Digits int ∧ int ≠ [] ∧ (int.head? = some '0' → int = ['0'])
  frac_digits : ∀ digits, frac = some digits → Digits digits ∧ digits ≠ []
  exp_digits : ∀ letter sign digits, exp = some (letter, sign, digits) → Digits digits ∧ digits ≠ []

namespace JSONNumber

def fracText (n : JSONNumber) : Text := (n.frac.map ('.' :: ·)).getD []

def expText (n : JSONNumber) : Text :=
  match n.exp with
  | none => []
  | some (capital, sign, digits) =>
    (if capital then 'E' else 'e') ::
      ((sign.map (fun negative => [if negative then '-' else '+'])).getD [] ++ digits)

def unsigned (n : JSONNumber) : Text := n.int ++ n.fracText ++ n.expText

def text (n : JSONNumber) : Text := (if n.neg then ['-'] else []) ++ n.unsigned

def fracDigits (n : JSONNumber) : Text := n.frac.getD []

def magnitude (n : JSONNumber) : ℕ :=
  match n.exp with
  | none => 0
  | some (_, _, digits) => value digits

def exponent (n : JSONNumber) : ℤ :=
  match n.exp with
  | some (_, some true, _) => -(n.magnitude : ℤ)
  | _ => n.magnitude

def denotes (n : JSONNumber) : ℚ :=
  (if n.neg then -1 else 1) *
    ((value n.int : ℚ) + (value n.fracDigits : ℚ) / 10 ^ n.fracDigits.length) * 10 ^ n.exponent

end JSONNumber

inductive Decoded
  | number (text : Text)
  | other

inductive Rest
  | eof
  | value
  | error (text : String)

/-- What the code takes from `encoding/json`. A number is handed over as its text. -/
structure JSON where
  unmarshalString : Text → Except String Text
  decode : Text → Except String Decoded
  decodeRest : Text → Rest
  hands_over : ∀ n : JSONNumber, decode n.text = .ok (.number n.text) ∧ decodeRest n.text = .eof

abbrev RequestIDKey := Text

def numberIDKey (s : Text) : Except RequestIDError RequestIDKey :=
  match canonicalizeJSONNumber s with
  | .error error => .error (.number error)
  | .ok canon => .ok ('n' :: ':' :: canon)

def newRequestIDKey (json : JSON) (raw : Text) : Except RequestIDError RequestIDKey :=
  let trimmed := trimRunes raw
  match trimmed with
  | [] => .error .empty
  | ['n', 'u', 'l', 'l'] => .error .null
  | '"' :: _ =>
    match json.unmarshalString trimmed with
    | .error text => .error (.json text)
    | .ok s => .ok ('s' :: ':' :: s)
  | _ =>
    match json.decode trimmed with
    | .error text => .error (.json text)
    | .ok decoded =>
      match json.decodeRest trimmed with
      | .value => .error .secondValue
      | .error text => .error (.trailingData text)
      | .eof =>
        match decoded with
        | .other => .error .notStringOrNumber
        | .number ('+' :: _) => .error .leadingPlus
        | .number s => numberIDKey s

end McpLocalHub.Hub.RequestId
