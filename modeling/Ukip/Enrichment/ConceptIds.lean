import Ukip.Enrichment.FailureEvidence
import Ukip.Foundation.KeyedTable
import Ukip.Foundation.Words

/-!
# Concept names and their identifiers

A provider's concepts are stored as one text of names and a parallel list of identifiers.  The
concept hierarchy splits the text at `[;,|]` and takes the identifier at the place of each part.
-/

namespace Ukip.Enrichment.ConceptIds

open Foundation.JsonValue Foundation.KeyedTable
open Foundation.Words (not_out_of_mem_pieces trim_split trim_trim)
open Analytics.Corpus (isPythonSpace isSeparator parseConcepts parseParts strip)
open FailureEvidence SingleRecord

def conceptIdsKey : String := "enrichment_concept_ids"

/-- The names that `_gather_corpus_concepts` counts for one row. -/
def conceptNames (row : RawEntity) : List String := parseConcepts row.enrichmentConcepts

/-- `attrs.get("enrichment_concept_ids", [])`, which only the enrichment writes, as a list. -/
def conceptIds (attrs : Entries) : List Json :=
  match get? attrs conceptIdsKey with
  | some (.array ids) => ids
  | _ => []

/-- `_gather_concept_ids_from_attrs` for one row: the last identifier of a name wins. -/
def nameToId (row : RawEntity) : String → Option (String × Json) :=
  upsertAll Prod.fst (fun _ => none)
    (((conceptNames row).zip (conceptIds (parseAttrs row.attributesJson))).filter (·.2.truthy))

/-- Every recovered name is one of the concepts and has no other identifier than theirs. -/
structure PairsKept (row : RawEntity) (concepts : List (String × Option String)) : Prop where
  names : ∀ name ∈ conceptNames row, name ∈ concepts.map Prod.fst
  own : ∀ name entry, nameToId row name = some entry →
    ∃ id, entry.2 = .text id ∧ (name, some id) ∈ concepts
  mapped : ∀ name ∈ conceptNames row, ∀ id ≠ "", (name, some id) ∈ concepts →
    (nameToId row name).isSome

def parts (text : List Char) : List (List Char) :=
  ((text.splitOnP isSeparator).map (strip isPythonSpace)).filter (· ≠ [])

variable {names : List String}

variable (environment : Environment) (answers : Answers) (entity : RawEntity) (attrs : Entries)
  (record : EnrichedRecord) (source : String)

/-- The branch of a found record of `enrich_single_record`, for an entity with these attributes
and a provider with these concepts. -/
def enriched (names : List String) (ids : List (Option String)) : Except (Raised × RawEntity) RawEntity :=
  persistRecord environment answers { entity with attributesJson := .parsed (.object attrs) }
    { record with concepts := names, conceptIds := ids } source

/-- The identifiers behind the names: those of an earlier enrichment where none has come. -/
def idsAfter (ids : List (Option String)) : List Json :=
  if anyText ids then ids.map optionalText else conceptIds attrs

/-- The pairs of an enrichment with these identifiers are kept. -/
def Kept (names : List String) (ids : List (Option String)) : Prop :=
  ∃ row, enriched environment answers entity attrs record source names ids = .ok row ∧
    PairsKept row (names.zip ids)

/-- The parts with the identifiers at their places. -/
def shownIds (names : List String) (ids : List (Option String)) : List (String × Json) :=
  ((names.flatMap (parseParts isPythonSpace)).zip (idsAfter attrs ids)).filter (·.2.truthy)

/-- Each part is a name, and the last identifier at its places is one of that name. -/
structure Aligned (names : List String) (ids : List (Option String)) : Prop where
  listed : ∀ part ∈ names.flatMap (parseParts isPythonSpace), part ∈ names
  own : ∀ part entry, lastFor Prod.fst part (shownIds attrs names ids) = some entry →
    ∃ id, entry.2 = .text id ∧ (part, some id) ∈ names.zip ids
  mapped : ∀ part ∈ names.flatMap (parseParts isPythonSpace), ∀ id ≠ "",
    (part, some id) ∈ names.zip ids → (lastFor Prod.fst part (shownIds attrs names ids)).isSome

variable {attrs} {ids : List (Option String)}

theorem Aligned.owned (aligned : Aligned attrs names ids) {pair : String × Json}
    (truthy : pair.2.truthy = true)
    (member : pair ∈ (names.flatMap (parseParts isPythonSpace)).zip (idsAfter attrs ids)) :
    ∃ id ≠ "", (pair.1, some id) ∈ names.zip ids := by
  have listed : pair ∈ shownIds attrs names ids := List.mem_filter.mpr ⟨member, truthy⟩
  obtain ⟨last, inShown, _, found⟩ := lastFor_of_mem Prod.fst listed
  obtain ⟨id, isText, given⟩ := aligned.own pair.1 last found
  have filled : last.2.truthy = true := (List.mem_filter.mp inShown).2
  rw [isText] at filled
  exact ⟨id, of_decide_eq_true filled, given⟩

end Ukip.Enrichment.ConceptIds
