import Ukip.Analytics.TopicModeling

/-!
# Correlation of categorical columns

Cramér's V as both implementations define it, in exact arithmetic and in units of its
fourth decimal, and `CorrelationAnalyzer.top_correlations`.
-/

namespace Ukip.Analytics.Correlation

open Foundation.Tally Corpus TopicModeling Tenancy.Access

/-- The sum of `(observed - expected)² / expected` over the contingency table. -/
def chiSquared (x y : List String) : Rat :=
  ((x.dedup.flatMap fun first => y.dedup.map fun second =>
    let observed : Rat := (x.zip y).count (first, second)
    let expected : Rat := x.count first * y.count second / x.length
    (observed - expected) ^ 2 / expected)).sum

/-- `round(min(sqrt(chi2 / (n * (k - 1))), 1), 4)`, in ten-thousandths. -/
def cramersV (x y : List String) : Nat :=
  let k := min x.dedup.length y.dedup.length
  if k ≤ 1 ∨ x.length ≤ 1 then 0
  else
    let square : Rat := chiSquared x y / (x.length * (k - 1 : Nat))
    min ((Nat.sqrt (square * 400000000).floor.toNat + 1) / 2) 10000

def strengthLabel (v : Nat) : String :=
  if 5000 ≤ v then "strong" else if 2000 ≤ v then "moderate" else "weak"

structure CorrelationPair where
  fieldA : String
  fieldB : String
  /-- in ten-thousandths -/
  cramersV : Nat
  strength : String

structure CorrelationResult where
  domainId : String
  nEntities : Nat
  fieldsAnalyzed : Nat
  correlations : List CorrelationPair

def maxCardinality : Nat := 50

def correlationEntry (fieldA fieldB : String) (x y : List String) : Option CorrelationPair :=
  if x.length < 5 then none
  else
    let v := cramersV x y
    if v < 500 then none else some ⟨fieldA, fieldB, v, strengthLabel v⟩

def strongestFirst (entries : List CorrelationPair) : List CorrelationPair :=
  sortedBy (fun first second => decide (second.cramersV ≤ first.cramersV)) entries

def skipFields : List String :=
  ["entity_name", "title", "sku", "gtin", "doi", "nct_id", "enrichment_concepts",
    "normalized_json", "enrichment_doi", "id", "enrichment_citation_count", "enrichment_status",
    "enrichment_source", "validation_status", "creation_date", "barcode", "branches",
    "gtin_reason", "gtin_empty_reason_1", "gtin_empty_reason_2", "gtin_empty_reason_3",
    "gtin_entity_reason", "gtin_reason_lower", "gtin_empty_reason_typo", "equipment", "measure",
    "union_type", "entity_code_universal_1", "entity_code_universal_2",
    "entity_code_universal_3", "entity_code_universal_4", "brand_lower", "model",
    "unit_of_measure", "entity_key", "variant_status", "variant", "taxes",
    "allow_sales_without_stock", "control_stock", "is_decimal_sellable"]

/-- A selected column under its name. -/
abbrev NamedColumn := String × (RawEntity → Option String)

def isUsable (corpus : List RawEntity) (field : NamedColumn) : Bool :=
  let values := corpus.filterMap field.2
  !values.isEmpty && values.dedup.length ≤ maxCardinality

def pairedValues (corpus : List RawEntity) (first second : NamedColumn) :
    List (String × String) :=
  corpus.filterMap fun row =>
    match first.2 row, second.2 row with
    | some a, some b => some (a, b)
    | _, _ => none

def correlationsOf (domainId : String) (topN : Nat) (corpus : List RawEntity)
    (fields : List NamedColumn) : CorrelationResult :=
  let usable := fields.filter (isUsable corpus)
  let entries := (combinations usable).filterMap fun pair =>
    let values := pairedValues corpus pair.1 pair.2
    correlationEntry pair.1.1 pair.2.1 (values.map Prod.fst) (values.map Prod.snd)
  { domainId := domainId
    nEntities := corpus.length
    fieldsAnalyzed := usable.length
    correlations := (strongestFirst entries).take topN }

/-- `top_correlations`; a name that is no column, and an empty selection, are SQL
errors. -/
def topCorrelations (registry : Registry) (rows : List RawEntity) (domainId : String)
    (topN : Nat) (scope : Option Int) : Except AnalyzerError CorrelationResult :=
  match registry domainId with
  | none => .error (domainNotFound domainId)
  | some attributes =>
    let names := attributes.filter fun name => name ∉ skipFields
    match names.mapM fun name => (column name).map fun cell => (name, cell) with
    | none => .error .other
    | some [] => .error .other
    | some fields =>
      .ok (correlationsOf domainId topN
        (rows.filter fun row => inDomain domainId row && inScope scope row.orgId) fields)

end Ukip.Analytics.Correlation
