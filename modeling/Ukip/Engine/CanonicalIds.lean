import Ukip.Engine.Names
import Ukip.Graph.Plan

/-!
# Canonical ids in the engine

A canonical id is a scheme and either an identifier as it stands or the slug of a text:
its runs of ASCII letters and digits once accents and case are gone, joined by hyphens.
So two slugs differ exactly where the words of the texts do.
-/

namespace Ukip.Engine

open Analytics.Corpus (isWhiteSpace)
open Foundation.Words
open Graph.Plan (isSlugChar)

structure Author where
  name : String
  order : Option Int
  orcid : Option String
  externalId : Option String
  affiliations : List String

structure Affiliation where
  name : String
  country : Option String
  externalId : Option String

structure Identifier where
  scheme : String
  value : String

structure Publication where
  entityId : Int
  title : String
  doi : Option String := none
  year : Option Int := none
  sourceTitle : Option String := none
  publisher : Option String := none
  publicationType : Option String := none
  citationCount : Option Int := none
  referenceCount : Option Int := none
  authors : List Author := []
  affiliations : List Affiliation := []
  identifiers : List Identifier := []
  concepts : List String := []
  enrichmentSource : Option String := none
  enrichmentDoi : Option String := none

section Ids

variable (tables : UnicodeTables)

def folded (value : String) : List Char := tables.toLowercase (stripDiacritics tables value.toList)

/-- `[^a-z0-9]` -/
def isGap (c : Char) : Bool := !isSlugChar c

/-- `SLUG_RE.replace_all(&lower, "-")`, trimmed. -/
def slug (value : String) : String :=
  String.ofList (trim (fun c => c == '-')
    (collapse isGap '-' false (folded tables value)))

/-- `Some` of a text that is not empty. -/
def filled (text : Option String) : Option String := text.filter fun text => text ≠ ""

def authorCanonicalId (author : Author) : String :=
  match filled author.orcid with
  | some orcid => "orcid:" ++ orcid
  | none =>
    match filled author.externalId with
    | some ext => "author:" ++ ext
    | none => "author:" ++ slug tables author.name

def affiliationNameCanonicalId (name : String) : String := "affiliation:" ++ slug tables name

def affiliationCanonicalId (aff : Affiliation) : String :=
  match filled aff.externalId with
  | some ext => "affiliation:" ++ ext
  | none => affiliationNameCanonicalId tables aff.name

/-- `text.trim().is_empty()` -/
def isBlank (text : String) : Bool := trim isWhiteSpace text.toList = []

def doiOf (publication : Publication) : Option String :=
  (publication.doi.filter fun doi => !isBlank doi).or
    (publication.enrichmentDoi.filter fun doi => !isBlank doi)

def publicationCanonicalId (publication : Publication) : String :=
  match doiOf publication with
  | some doi => "publication:doi:" ++ slug tables doi
  | none => "pub:" ++ toString publication.entityId

def journalCanonicalId (sourceTitle : String) : String := "journal:" ++ slug tables sourceTitle

def conceptCanonicalId (concept : String) : String := "concept:" ++ slug tables concept

def identifierCanonicalId (scheme value : String) : String := scheme ++ ":" ++ value

end Ids

section Slugs

variable (tables : UnicodeTables)

def slugWords (value : String) : List (List Char) :=
  words isGap (folded tables value)

theorem isGap_hyphen : isGap '-' = true := by decide

theorem toList_slug (value : String) :
    (slug tables value).toList = ['-'].intercalate (slugWords tables value) := by
  rw [slug, String.toList_ofList, trim_collapse isGap_hyphen]
  rfl

theorem slug_eq_iff (first second : String) :
    slug tables first = slug tables second ↔ slugWords tables first = slugWords tables second := by
  constructor
  · intro same
    have joined := congrArg String.toList same
    rw [toList_slug, toList_slug] at joined
    exact joined_injective (plain_words isGap_hyphen _) (plain_words isGap_hyphen _) joined
  · intro same
    apply String.toList_injective
    rw [toList_slug, toList_slug, same]

theorem scheme_append_inj (scheme first second : String) :
    scheme ++ first = scheme ++ second ↔ first = second := by
  constructor
  · intro same
    have lists := congrArg String.toList same
    rw [String.toList_append, String.toList_append, List.append_cancel_left_eq] at lists
    exact String.toList_injective lists
  · intro same
    rw [same]

end Slugs

/-- Two publications whose DOIs differ by more than case. -/
def DoisDiffer (tables : UnicodeTables) (first second : Publication) : Prop :=
  ∃ firstDoi secondDoi, doiOf first = some firstDoi ∧ doiOf second = some secondDoi ∧
    tables.toLowercase firstDoi.toList ≠ tables.toLowercase secondDoi.toList

def nameLetters (tables : UnicodeTables) (name : String) : List Char :=
  (folded tables name).filter tables.isAlphanumeric

/-- Two authors without identifiers whose names differ by more than case, accents, spacing
and punctuation. -/
def NamesDiffer (tables : UnicodeTables) (first second : Author) : Prop :=
  filled first.orcid = none ∧ filled first.externalId = none ∧ filled second.orcid = none ∧
    filled second.externalId = none ∧ nameLetters tables first.name ≠ nameLetters tables second.name

def doiWords (tables : UnicodeTables) (publication : Publication) : List (List Char) :=
  slugWords tables ((doiOf publication).getD "")

/-- Two such publications, and two such authors, have different ids exactly if the words of
the DOIs, or of the names, differ. -/
theorem canonicalIds_differ_iff (tables : UnicodeTables) :
    (∀ first second : Publication, DoisDiffer tables first second →
      (publicationCanonicalId tables first ≠ publicationCanonicalId tables second ↔
        doiWords tables first ≠ doiWords tables second)) ∧
      ∀ first second : Author, NamesDiffer tables first second →
        (authorCanonicalId tables first ≠ authorCanonicalId tables second ↔
          slugWords tables first.name ≠ slugWords tables second.name) := by
  constructor
  · intro first second differ
    obtain ⟨firstDoi, secondDoi, firstHas, secondHas, _⟩ := differ
    simp only [publicationCanonicalId, doiWords, firstHas, secondHas, Option.getD_some, ne_eq,
      scheme_append_inj, slug_eq_iff]
  · intro first second differ
    obtain ⟨noOrcid, noExt, noOtherOrcid, noOtherExt, _⟩ := differ
    simp only [authorCanonicalId, noOrcid, noExt, noOtherOrcid, noOtherExt, ne_eq,
      scheme_append_inj, slug_eq_iff]

def withDoi (doi : String) : Publication where
  entityId := 1
  title := "Paper"
  doi := some doi

def byName (name : String) : Author := ⟨name, none, none, none, []⟩

theorem canonicalIds_differ_found :
    publicationCanonicalId sampleTables (withDoi "10.1000/a") ≠
        publicationCanonicalId sampleTables (withDoi "10.1000/b") ∧
      authorCanonicalId sampleTables (byName "García") ≠
        authorCanonicalId sampleTables (byName "Smith") :=
  ⟨((canonicalIds_differ_iff sampleTables).1 (withDoi "10.1000/a") (withDoi "10.1000/b")
      ⟨"10.1000/a", "10.1000/b", by decide, by decide, by decide⟩).mpr
      (by decide),
    ((canonicalIds_differ_iff sampleTables).2 (byName "García") (byName "Smith")
      ⟨rfl, rfl, rfl, rfl, by decide⟩).mpr (by decide)⟩

/-- A separator of a DOI makes no difference, and neither does a script without ASCII letters. -/
theorem canonicalIds_merge :
    (∃ first second : Publication, DoisDiffer sampleTables first second ∧
      publicationCanonicalId sampleTables first = publicationCanonicalId sampleTables second) ∧
      ∃ first second : Author, NamesDiffer sampleTables first second ∧
        authorCanonicalId sampleTables first = authorCanonicalId sampleTables second := by
  refine ⟨⟨withDoi "10.1000/1.2", withDoi "10.1000/1-2", ⟨"10.1000/1.2", "10.1000/1-2", ?_, ?_, ?_⟩,
    ?_⟩, byName "李明", byName "王芳", ⟨rfl, rfl, rfl, rfl, ?_⟩, ?_⟩
  all_goals decide

end Ukip.Engine
