import Ukip.Foundation.JsonValue
import Ukip.Analytics.Corpus

/-!
# Identity of authors

`coauthorship/identity.py`: the key of a surface form, the author it stands for, and the
author names of a record (`authors_from_attrs`).
-/

namespace Ukip.Coauthorship.Identity

open Foundation.JsonValue
open Analytics.Corpus (strip isPythonSpace)

abbrev Text := List Char

/-- The character database behind `unicodedata`, `str.isalpha` and `str.lower`, and `str`
of a value that is no text. -/
structure Python where
  nfd : Text → Text
  nfc : Text → Text
  combining : Char → Bool
  isAlpha : Char → Bool
  lower : Text → Text
  shown : Json → String

variable (python : Python)

def stripParts : List Text :=
  ["dr", "dr.", "prof", "prof.", "mr", "mr.", "mrs", "mrs.", "ms", "ms.", "phd", "ph.d", "md",
    "m.d", "jr", "jr.", "sr", "sr.", "iii", "iv", "ii"].map String.toList

def particles : List Text :=
  ["van", "der", "den", "de", "du", "la", "del", "da", "dos", "el", "al", "von", "di"].map
    String.toList

def stripDiacritics (text : Text) : Text :=
  python.nfc ((python.nfd text).filter fun char => !python.combining char)

def tokenize (surface : Text) : List Text :=
  (surface.splitOnP isPythonSpace).filter fun token => token ≠ []

/-- `tok.rstrip(".")` -/
def rstripDots (token : Text) : Text := token.rdropWhile fun char => char == '.'

def alphaLower (token : Text) : Text :=
  python.lower (token.filter fun char => python.isAlpha char || char == '-')

/-- `_is_cjk_char`: Han ideographs, compatibility ideographs, Hangul syllables. -/
def isCjkChar (char : Char) : Bool :=
  let code := char.toNat
  (0x3400 ≤ code && code ≤ 0x9fff) || (0xf900 ≤ code && code ≤ 0xfaff) ||
    (0xac00 ≤ code && code ≤ 0xd7a3)

def isCjkToken (token : Text) : Bool :=
  let letters := token.filter python.isAlpha
  !letters.isEmpty && letters.all isCjkChar

/-- `t.rstrip(".").lower() not in _STRIP_PARTS` -/
def isMeaningful (token : Text) : Bool := !stripParts.contains (python.lower (rstripDots token))

def isParticle (token : Text) : Bool := particles.contains (rstripDots (python.lower token))

/-- `s.split(",", 1)` of a text with a comma. -/
def splitComma (text : Text) : Text × Text :=
  (text.takeWhile fun char => char != ',', (text.dropWhile fun char => char != ',').drop 1)

/-- The tokens of an uninverted name: family name first in an East-Asian one, else the last
token with the particles before it.  The family name comes first in the pair. -/
def uninverted (text : Text) : Option (List Text × List Text) :=
  let tokens := (tokenize text).filter (isMeaningful python)
  match tokens with
  | [] => none
  | first :: rest =>
    if 2 ≤ tokens.length && tokens.all (isCjkToken python) then some ([first], rest)
    else
      let family := tokens.getLast?.toList
      let given := tokens.dropLast
      some (given.rtakeWhile (isParticle python) ++ family,
        given.rdropWhile (isParticle python))

def nameTokens (surface : Text) : Option (List Text × List Text) :=
  if ',' ∈ surface then
    let (left, right) := splitComma surface
    if ((tokenize right).filter (isMeaningful python)).isEmpty && 1 < (tokenize left).length then
      uninverted python left
    else some (tokenize left, tokenize right)
  else uninverted python surface

def firstName (given : List Text) : Text :=
  match (given.map fun token => rstripDots (alphaLower python token)).find? fun cleaned =>
      2 ≤ cleaned.length with
  | some cleaned => cleaned
  | none =>
    match given with
    | [] => []
    | token :: _ => (alphaLower python token).take 1

def nameKey (surfaceForm : String) : String :=
  if strip isPythonSpace surfaceForm.toList = [] then ""
  else
    match nameTokens python (stripDiacritics python surfaceForm.toList) with
    | none => ""
    | some (family, given) =>
      match family.filter (isMeaningful python) with
      | [] => ""
      | head :: rest =>
        let joined := ((head :: rest).map (alphaLower python)).flatten
        let last := if joined = [] then python.lower head else joined
        String.ofList (last ++ '_' :: firstName python (given.filter (isMeaningful python)))

structure Author where
  id : Nat
  nameKey : String
  displayName : String
  aliases : List String
  orcid : Option String
  deriving DecidableEq

inductive Raised where
  | valueError
  | attributeError
  | integrityError
  deriving DecidableEq

def aliasCap : Nat := 50

def setAliases (items : List String) : List String :=
  ((items.filter fun item => item ≠ "").eraseDups).take aliasCap

def seenAs (aliases : List String) (surfaceForm : String) : List String :=
  if surfaceForm ∈ aliases then aliases else setAliases (surfaceForm :: aliases)

structure AuthorTable where
  rows : List Author
  lastId : Nat
  deriving DecidableEq

def newAuthor (table : AuthorTable) (key surfaceForm : String) : Author where
  id := table.lastId + 1
  nameKey := key
  displayName := surfaceForm
  aliases := setAliases [surfaceForm]
  orcid := none

def AuthorTable.find (table : AuthorTable) (key : String) : Option Author :=
  table.rows.find? fun row => row.nameKey == key

/-- `get_or_create_author`, which commits, with the id of the row it returns.  No caller passes
an ORCID. -/
def getOrCreateAuthor (table : AuthorTable) (surfaceForm : String) :
    Except Raised (Nat × AuthorTable) :=
  let key := nameKey python surfaceForm
  if key = "" then .error .valueError
  else
    match table.find key with
    | some existing =>
      .ok (existing.id, { table with rows := table.rows.map fun row =>
        if row.nameKey = key then { row with aliases := seenAs row.aliases surfaceForm }
        else row })
    | none =>
      .ok (table.lastId + 1,
        ⟨table.rows ++ [newAuthor table key surfaceForm], table.lastId + 1⟩)

/-- `s.strip()` -/
def stripText (text : String) : String := String.ofList (strip isPythonSpace text.toList)

def Python.str : Json → String
  | .text value => value
  | other => python.shown other

/-- `first or second or …` -/
def firstTruthy (values : List (Option Json)) : Json :=
  ((values.filterMap id).find? Json.truthy).getD .null

mutual

def normalizeAuthorPayload : Json → List String
  | .text raw =>
    (((raw.toList.splitOnP fun char => char == '|' || char == ';').map fun part =>
      stripText (String.ofList part)).filter fun name => name ≠ "")
  | .object entries =>
    let name := firstTruthy [get? entries "name", get? entries "author_name",
      get? entries "display_name", get? entries "full_name"]
    if name.truthy && stripText (python.str name) ≠ "" then [stripText (python.str name)] else []
  | .array items => (normalizeAuthorPayloads items).eraseDups
  | _ => []

def normalizeAuthorPayloads : List Json → List String
  | [] => []
  | item :: rest => normalizeAuthorPayload item ++ normalizeAuthorPayloads rest

end

/-- The candidates of `authors_from_attrs`, in its order. -/
def authorCandidates (attrs : Entries) : List Json :=
  let own := ["enrichment_authors", "authors", "canonical_authors", "author_affiliations"].map
    fun key => (get? attrs key).getD .null
  match get? attrs "raw_record" with
  | some (.object record) =>
    own ++ ["authors", "author", "AU", "AF"].map fun key => (get? record key).getD .null
  | _ => own

/-- `authors_from_attrs`: a JSON value that is truthy and no object has no `get`. -/
def authorsFromAttrs (attributesJson : JsonColumn) : Except Raised (List String) :=
  match attributesJson with
  | .null => .ok []
  | .malformed _ => .ok []
  | .parsed value =>
    if !value.truthy then .ok []
    else
      match value with
      | .object attrs =>
        .ok (((authorCandidates attrs).map (normalizeAuthorPayload python)).find?
          (fun authors => decide (2 ≤ authors.length)) |>.getD [])
      | _ => .error .attributeError

end Ukip.Coauthorship.Identity
