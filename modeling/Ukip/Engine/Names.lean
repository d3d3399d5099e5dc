import Ukip.Analytics.Corpus
import Ukip.Foundation.Tally
import Ukip.Foundation.Words

/-!
# Names in the engine

The normal form of a name and the similarity of two: accents stripped, everything but
letters and digits taken for a space, lower case, tokens sorted.  The Unicode tables and
the edit distance come from libraries.
-/

namespace Ukip.Engine

open Analytics.Corpus (isWhiteSpace)
open Foundation.Tally

/-- What the Unicode tables of the `unicode_normalization` crate and of Rust's `char` and
`str` say. -/
structure UnicodeTables where
  nfd : List Char → List Char
  isCombiningMark : Char → Bool
  isAlphanumeric : Char → Bool
  toLowercase : List Char → List Char

/-- The `strsim` crate on two texts; `one` is 1.0 and `asF32` the cast. -/
structure Strsim (Score Score32 : Type) where
  normalizedLevenshtein : String → String → Score
  one : Score
  asF32 : Score → Score32

def splitWhitespace (text : List Char) : List (List Char) := Foundation.Words.words isWhiteSpace text

variable (tables : UnicodeTables)

def stripDiacritics (text : List Char) : List Char :=
  (tables.nfd text).filter fun c => !tables.isCombiningMark c

def normalizeName (name : String) : String :=
  let spaced := (stripDiacritics tables name.toList).map fun c =>
    if tables.isAlphanumeric c || isWhiteSpace c then c else ' '
  String.ofList (tables.toLowercase ([' '].intercalate (splitWhitespace spaced)))

def sortTokens (text : String) : String :=
  " ".intercalate (sortedBy (fun a b => decide (a ≤ b)) ((splitWhitespace text.toList).map String.ofList))

def tokenSortRatio {Score Score32 : Type} (strsim : Strsim Score Score32) (a b : String) : Score :=
  if sortTokens a = "" ∧ sortTokens b = "" then strsim.one
  else strsim.normalizedLevenshtein (sortTokens a) (sortTokens b)

def sampleTables : UnicodeTables where
  nfd text := text.flatMap fun c => if c = 'í' then ['i', '\u0301'] else [c]
  isCombiningMark c := 0x300 ≤ c.toNat && c.toNat ≤ 0x36f
  isAlphanumeric c := c.isAlphanum || c = 'í' || (0x4e00 ≤ c.toNat && c.toNat ≤ 0x9fff)
  toLowercase text := text.map Char.toLower

example : normalizeName sampleTables "  García,  John O'Brien" = "garcia john o brien" := by
  decide

end Ukip.Engine
