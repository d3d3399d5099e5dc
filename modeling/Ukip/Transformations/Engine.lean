import Ukip.Analytics.Corpus
import Ukip.Foundation.Words

/-!
# The transformation language

`apply_expression` reads `value.function(args)`, with a subscript or without, and applies it
to one value.  `TransformError` is a `ValueError`, but not every `ValueError` is one.
-/

namespace Ukip.Transformations

open Foundation.Words (words)
open Analytics.Corpus (strip isPythonSpace)

/-- Tables of the interpreter's text functions, and its limit on the digits that `int` reads
(0 for none). -/
structure PythonText where
  upper : List Char → List Char
  lower : List Char → List Char
  title : List Char → List Char
  /-- `\d` -/
  isDecimal : Char → Bool
  digitValue : Char → Nat
  maxStrDigits : Nat
  /-- `html.unescape`, where every character reference can be read. -/
  unescaped : List Char → List Char
  repr : List Char → String

def asciiText : PythonText where
  upper := List.map Char.toUpper
  lower := List.map Char.toLower
  title := id
  isDecimal := Char.isDigit
  digitValue c := c.toNat - 48
  maxStrDigits := 4300
  unescaped := id
  repr text := "'" ++ String.ofList text ++ "'"

inductive PyError
  | transformError (message : String)
  | valueError (message : String)
  deriving DecidableEq

/-- `text.split(sep)` of a separator that is not empty; `skipped` characters of the last
separator are still to be passed over. -/
def splitOn (sep : List Char) : (current : List Char) → (skipped : Nat) → List Char → List (List Char)
  | current, _, [] => [current.reverse]
  | current, skipped + 1, _ :: rest => splitOn sep current skipped rest
  | current, 0, c :: rest =>
    if sep.isPrefixOf (c :: rest) then current.reverse :: splitOn sep [] (sep.length - 1) rest
    else splitOn sep (c :: current) 0 rest

def pySplit (text sep : List Char) : Except PyError (List (List Char)) :=
  if sep = [] then .error (.valueError "empty separator") else .ok (splitOn sep [] 0 text)

def pyReplace (text old new : List Char) : List Char :=
  if old = [] then new ++ text.flatMap (fun c => c :: new)
  else new.intercalate (splitOn old [] 0 text)

/-- A bound of a slice of `length` items. -/
def sliceBound (length : Nat) (bound : Int) : Nat :=
  if bound < 0 then (bound + length).toNat else min bound.toNat length

def pySlice (text : List Char) (start : Int) (stop : Option Int) : List Char :=
  (text.take (stop.elim text.length (sliceBound text.length))).drop (sliceBound text.length start)

/-- `none` is an `IndexError`. -/
def pyItem {Item : Type} (items : List Item) (index : Int) : Option Item :=
  let position := if index < 0 then index + items.length else index
  if position < 0 then none else items[position.toNat]?

/-- `re.sub(r'<[^>]+>', '', text)` -/
def removeTags : (skipped : Nat) → List Char → List Char
  | _, [] => []
  | skipped + 1, _ :: rest => removeTags skipped rest
  | 0, c :: rest =>
    let inside := rest.takeWhile fun d => d ≠ '>'
    if c = '<' ∧ inside ≠ [] ∧ inside.length < rest.length then removeTags (inside.length + 1) rest
    else c :: removeTags 0 rest

section Engine

variable (python : PythonText)

def tooLong (digits : Nat) : Bool := 0 < python.maxStrDigits && python.maxStrDigits < digits

/-- What `int` says to too many digits. -/
def exceedsLimit (digits : Nat) : PyError :=
  .valueError ("Exceeds the limit (" ++ toString python.maxStrDigits ++
    " digits) for integer string conversion: value has " ++ toString digits ++
      " digits; use sys.set_int_max_str_digits() to increase the limit")

def charrefDigits : List Char → Nat
  | '&' :: '#' :: rest => (rest.takeWhile Char.isDigit).length
  | _ => 0

/-- `html.unescape`: decimal character references are read with `int`. -/
def htmlUnescape (text : List Char) : Except PyError (List Char) :=
  match text.tails.find? fun tail => tooLong python (charrefDigits tail) with
  | some tail => .error (exceedsLimit python (charrefDigits tail))
  | none => .ok (python.unescaped text)

/-- `float` reads a text of digits, dots and hyphens. -/
def readsFloat (text : List Char) : Bool :=
  let unsigned := if text.head? = some '-' then text.tail else text
  match unsigned.dropWhile python.isDecimal with
  | [] => unsigned ≠ []
  | c :: fraction => c = '.' && fraction.all python.isDecimal && unsigned.length ≠ 1

def isQuote (c : Char) : Bool := c = '"' || c = '\''

/-- `_QSTR_RE` on a stripped text. -/
def quoted : List Char → Option (List Char)
  | [] => none
  | first :: rest =>
    if isQuote first && rest.getLast?.any isQuote then some rest.dropLast else none

/-- `_INT_RE` on a stripped text: the sign and the digits. -/
def integerDigits (raw : List Char) : Option (Bool × List Char) :=
  let negative := raw.head? = some '-'
  let digits := if negative then raw.tail else raw
  if digits ≠ [] ∧ digits.all python.isDecimal = true then some (negative, digits) else none

def parseStrArg (raw : List Char) : Except PyError (List Char) :=
  match quoted (strip isPythonSpace raw) with
  | some text => .ok text
  | none =>
    .error (.transformError
      ("Expected a quoted string, got: " ++ python.repr (strip isPythonSpace raw)))

def parseIntArg (raw : List Char) : Except PyError Int :=
  match integerDigits python (strip isPythonSpace raw) with
  | none =>
    .error (.transformError
      ("Expected an integer, got: " ++ python.repr (strip isPythonSpace raw)))
  | some (negative, digits) =>
    if tooLong python digits.length then .error (exceedsLimit python digits.length)
    else
      let value : Nat := digits.foldl (fun value digit => value * 10 + python.digitValue digit) 0
      .ok (if negative then -value else value)

structure ArgScan where
  args : List (List Char)
  depth : Int
  /-- reversed -/
  current : List Char
  inQuote : Option Char

/-- One character of the loop of `_split_args`. -/
def ArgScan.read (scan : ArgScan) (ch : Char) : ArgScan :=
  if isQuote ch && scan.inQuote.isNone then
    { scan with inQuote := some ch, current := ch :: scan.current }
  else if scan.inQuote = some ch then
    { scan with inQuote := none, current := ch :: scan.current }
  else if ch = ',' ∧ scan.inQuote = none ∧ scan.depth = 0 then
    { scan with args := scan.args ++ [strip isPythonSpace scan.current.reverse], current := [] }
  else if ch = '(' ∧ scan.inQuote = none then
    { scan with depth := scan.depth + 1, current := ch :: scan.current }
  else if ch = ')' ∧ scan.inQuote = none then
    { scan with depth := scan.depth - 1, current := ch :: scan.current }
  else { scan with current := ch :: scan.current }

def splitArgs (raw : List Char) : List (List Char) :=
  let scan := raw.foldl ArgScan.read ⟨[], 0, [], none⟩
  if scan.current = [] then scan.args
  else scan.args ++ [strip isPythonSpace scan.current.reverse]

/-- `_split_args(args_raw) if args_raw.strip() else []` -/
def callArgs (argsRaw : List Char) : List (List Char) :=
  if strip isPythonSpace argsRaw = [] then [] else splitArgs argsRaw

def sliceOf (args : List (List Char)) (value : List Char) : Except PyError (List Char) :=
  match args with
  | [start] => (parseIntArg python start).map fun start => pySlice value start none
  | [start, stop] =>
    (parseIntArg python start).bind fun start =>
      (parseIntArg python stop).map fun stop => pySlice value start (some stop)
  | _ =>
    .error (.transformError
      "slice() requires 1 or 2 integer arguments: slice(start) or slice(start,end)")

def applyFunc (funcName argsRaw value : List Char) : Except PyError (List Char) :=
  let args := callArgs argsRaw
  let fn := String.ofList (funcName.map Char.toLower)
  if fn = "trim" then .ok (strip isPythonSpace value)
  else if fn = "upper" then .ok (python.upper value)
  else if fn = "lower" then .ok (python.lower value)
  else if fn = "title" then .ok (python.title value)
  else if fn = "replace" then
    match args with
    | [old, new] =>
      (parseStrArg python old).bind fun old =>
        (parseStrArg python new).map fun new => pyReplace value old new
    | _ =>
      .error (.transformError "replace() requires exactly 2 arguments: replace('old','new')")
  else if fn = "prefix" then
    match args with
    | [prefixArg] =>
      (parseStrArg python prefixArg).map fun pfx =>
        if pfx.isPrefixOf value then value else pfx ++ value
    | _ => .error (.transformError "prefix() requires exactly 1 argument")
  else if fn = "suffix" then
    match args with
    | [suffixArg] =>
      (parseStrArg python suffixArg).map fun sfx =>
        if sfx.isSuffixOf value then value else value ++ sfx
    | _ => .error (.transformError "suffix() requires exactly 1 argument")
  else if fn = "strip_html" then
    (htmlUnescape python (removeTags 0 value)).map (strip isPythonSpace)
  else if fn = "to_number" then
    let cleaned := value.filter fun c => python.isDecimal c || c = '.' || c = '-'
    .ok (if readsFloat python cleaned then cleaned else [])
  else if fn = "slice" then sliceOf python args value
  else if fn = "split" then
    match args with
    | [delimArg] =>
      (parseStrArg python delimArg).bind fun delim =>
        (pySplit value delim).map delim.intercalate
    | _ => .error (.transformError "split() requires exactly 1 argument: split(',')")
  else if fn = "strip" then
    match args with
    | [] => .ok (strip isPythonSpace value)
    | charsArg :: _ => (parseStrArg python charsArg).map fun chars => strip chars.contains value
  else
    .error (.transformError ("Unknown function '" ++ String.ofList funcName ++
      "'. Supported: trim, upper, lower, title, replace, prefix, suffix, strip_html, " ++
        "to_number, slice, split, strip"))

/-- `_SUBSCRIPT_RE` on a stripped text, read from its end: the last bracket that leaves an
index of at least one character. -/
def subscriptMatch (expr : List Char) : Option (List Char × List Char) :=
  match expr.reverse with
  | ']' :: last :: before =>
    let inside := before.takeWhile fun c => c ≠ '[' && c ≠ ']'
    if last = ']' ∨ (before.drop inside.length).head? ≠ some '[' then none
    else some ((before.drop (inside.length + 1)).reverse, (last :: inside).reverse)
  | _ => none

def isNameStart (c : Char) : Bool := c.isAlpha || c = '_'

def isNameChar (c : Char) : Bool := c.isAlphanum || c = '_'

/-- `_EXPR_RE` on a stripped text: the function's name and its arguments. -/
def exprMatch (expr : List Char) : Option (List Char × List Char) :=
  if "value".toList.isPrefixOf expr then
    match (expr.drop 5).dropWhile isPythonSpace with
    | '.' :: afterDot =>
      let named := afterDot.dropWhile isPythonSpace
      let name := named.takeWhile isNameChar
      match (named.drop name.length).dropWhile isPythonSpace with
      | '(' :: argsAndClose =>
        if name.head?.any isNameStart && argsAndClose.getLast? = some ')' then
          some (name, argsAndClose.dropLast)
        else none
      | _ => none
    | _ => none
  else none

def invalidExpression (expr : List Char) : PyError :=
  .transformError ("Invalid expression: " ++ python.repr expr ++ ". Must be value.function(args) — " ++
    "e.g. value.trim(), value.replace('old','new')")

def readSubscript (expr : List Char) : Except PyError (List Char × Option Int) :=
  match subscriptMatch expr with
  | none => .ok (expr, none)
  | some (inner, index) =>
    (parseIntArg python (strip isPythonSpace index)).map fun index =>
      (strip isPythonSpace inner, some index)

/-- `split` with a subscript. -/
def splitItem (argsRaw value : List Char) (index : Int) : Except PyError (List Char) :=
  match splitArgs argsRaw with
  | [delimArg] =>
    (parseStrArg python delimArg).bind fun delim =>
      (pySplit value delim).map fun parts => ((pyItem parts index).map (strip isPythonSpace)).getD []
  | _ => .error (.transformError "split() requires exactly 1 argument")

def applyCall (funcName argsRaw : List Char) (subscript : Option Int) (value : List Char) :
    Except PyError (List Char) :=
  match subscript with
  | none => applyFunc python funcName argsRaw value
  | some index =>
    if String.ofList (funcName.map Char.toLower) = "split" then splitItem python argsRaw value index
    else
      (applyFunc python funcName argsRaw value).map fun result =>
        (pyItem (words isPythonSpace result) index).getD []

def applyRead (expr : List Char) (subscript : Option Int) (value : List Char) :
    Except PyError (List Char) :=
  match exprMatch expr with
  | none => .error (invalidExpression python expr)
  | some (funcName, argsRaw) => applyCall python funcName argsRaw subscript value

/-- `apply_expression`; the value is `str(value)`, or `None`. -/
def applyExpression (expr : String) (value : Option String) : Except PyError String :=
  match value with
  | none => .ok ""
  | some value =>
    (readSubscript python (strip isPythonSpace expr.toList)).bind fun read =>
      (applyRead python read.1 read.2 value.toList).map String.ofList

def validateExpression (expr : String) : Except PyError Unit :=
  (applyExpression python expr (some "test_value")).map fun _ => ()

end Engine

end Ukip.Transformations
