import Ukip.Analytics.TopicModeling

/-!
# What a batch's graph needs

The nodes and edges that `materialize_scientific_import_graph` asks for, in the order in
which it does.  They are read off the publications alone: a node is named by its key, and
whether it is already stored is the session's concern.
-/

namespace Ukip.Graph.Plan

open Foundation.Tally Analytics.Corpus

abbrev Attrs := List (String × Json)

structure GraphPython extends Python where
  lower : String → String
  upper : String → String

variable (python : GraphPython)

def safeJson (raw : Option String) : Attrs :=
  match raw with
  | none => []
  | some text =>
    if text = "" then []
    else
      match python.loads text with
      | some (.object entries) => entries
      | _ => []

def cleanText : Json → Option String
  | .null => none
  | value =>
    let text := String.ofList (strip isPythonSpace (python.str value).toList)
    if text = "" then none else some text

/-- `first or second` -/
def orElse (first second : Json) : Json := if first.truthy then first else second

def columnJson : Option String → Json
  | none => .null
  | some value => .text value

def items : Json → List Json
  | .array values => values
  | _ => []

def entries? : Json → Option Attrs
  | .object entries => some entries
  | _ => none

/-- `[a-z0-9]` -/
def isSlugChar (char : Char) : Bool :=
  ('a' ≤ char && char ≤ 'z') || ('0' ≤ char && char ≤ '9')

/-- The runs of `[a-z0-9]` of a text, in order. -/
def slugRuns (text : String) : List String :=
  ((text.toList.splitOnP fun char => !isSlugChar char).filter (· ≠ [])).map String.ofList

def slug (text : String) : String := "-".intercalate (slugRuns (python.lower text))

def normalizeConcept (text : String) : String := " ".intercalate (slugRuns (python.lower text))

/-- `_concept_initials`: the first characters of the runs of `[A-Za-z0-9]`. -/
def conceptInitials (text : String) : String :=
  let isToken := fun char : Char => isSlugChar char || ('A' ≤ char && char ≤ 'Z')
  "".intercalate (((text.toList.splitOnP fun char => !isToken char).filter (· ≠ [])).map
    fun token => python.lower (String.ofList (token.take 1)))

/-- `_canonical_id` -/
def canonicalIdOf (head : String) (values : List Json) : Option String :=
  let usable := values.filterMap (cleanText python)
  if usable = [] then none else some (head ++ ":" ++ slug python (":".intercalate usable))

/-- `label.lower() not in {c.lower() for c in concepts}` -/
def addConcept (concepts : List String) (candidate : Json) : List String :=
  match cleanText python candidate with
  | none => concepts
  | some label =>
    if (concepts.map python.lower).contains (python.lower label) then concepts
    else concepts ++ [label]

def conceptCandidates : Json → List Json
  | .array values => values
  | .text value => (value.toList.splitOnP isSeparator).map fun part => .text (String.ofList part)
  | _ => []

def splitConcepts (publication : RawEntity) (attrs : Attrs) : List String :=
  let recorded :=
    match entries? (lookup attrs "raw_record") with
    | some record => ["keywords", "concepts", "DE", "ID"].map (lookup record)
    | none => []
  let rawValues := [lookup attrs "concepts", lookup attrs "keywords",
    columnJson publication.enrichmentConcepts] ++ recorded
  ((rawValues.flatMap conceptCandidates).foldl (addConcept python) []).take 20

/-- `identifiers[scheme] = value` -/
def setEntry {Entry : Type} (entries : List (String × Entry)) (key : String) (entry : Entry) :
    List (String × Entry) :=
  if entries.any fun present => present.1 == key then
    entries.map fun present => if present.1 == key then (key, entry) else present
  else entries ++ [(key, entry)]

def stripped (text : String) : String := String.ofList (strip isPythonSpace text.toList)

/-- `canonical_id.split(":", 1)`, where there is a colon. -/
def splitScheme (canonicalId : String) : Option (String × String) :=
  let scheme := canonicalId.toList.takeWhile fun char => char != ':'
  let rest := canonicalId.toList.dropWhile fun char => char != ':'
  if rest = [] then none else some (String.ofList scheme, String.ofList (rest.drop 1))

def schemeAndValue (identifier : Attrs) : Option (String × String) :=
  (cleanText python (lookup identifier "scheme")).bind fun scheme =>
    (cleanText python (lookup identifier "value")).map fun value => (scheme, value)

def recordIdentifierValues (publication : RawEntity) (attrs : Attrs) : List (String × String) :=
  let doi :=
    match publication.enrichmentDoi with
    | some doi => if doi = "" then [] else [("doi", python.lower (stripped doi))]
    | none => []
  let own :=
    match publication.canonicalId.bind splitScheme with
    | some (scheme, value) =>
      if scheme ≠ "" ∧ value ≠ "" then
        [(python.lower (stripped scheme), python.lower (stripped value))]
      else []
    | none => []
  let listed := ((items (lookup attrs "canonical_identifiers")).filterMap fun identifier =>
    (entries? identifier).bind (schemeAndValue python)).map fun identifier =>
      (python.lower identifier.1, python.lower identifier.2)
  let keyed := ["openalex_id", "scopus_eid", "wos_uid", "ut"].filterMap fun key =>
    (cleanText python (lookup attrs key)).map fun value => (key, python.lower value)
  (doi ++ own ++ listed ++ keyed).foldl (fun found pair => setEntry found pair.1 pair.2) []

/-- One of `enrichment_authors`; an object keeps its other fields. -/
def enrichedAuthor (orcids : List Json) (author : Json × Nat) : Option Attrs :=
  match author.1 with
  | .object fields =>
    (cleanText python (orElse (orElse (lookup fields "name") (lookup fields "display_name"))
      (lookup fields "author"))).map fun name => fields ++ [("name", .text name)]
  | value =>
    (cleanText python value).map fun name =>
      [("name", .text name), ("orcid", (orcids[author.2]?).getD .null)]

def authorsFromEnrichment (attrs : Attrs) : List Attrs :=
  let canonical := items (lookup attrs "canonical_authors")
  if canonical ≠ [] then canonical.filterMap entries?
  else
    (items (lookup attrs "enrichment_authors")).zipIdx.filterMap
      (enrichedAuthor python (items (lookup attrs "enrichment_author_orcids")))

structure NodeKey where
  domain : String
  entityType : String
  canonicalId : String
  deriving DecidableEq

structure NodeDemand where
  key : NodeKey
  primaryLabel : String
  secondaryLabel : Option String

inductive Endpoint where
  | publication (id : Nat)
  | node (key : NodeKey)

/-- A weight as the call computes it: a constant, or `round(min(10.0, part / whole * 10), 4)`. -/
inductive EdgeWeight where
  | tenths (count : Nat)
  | scaled (part whole : Nat)

structure Edge where
  source : Endpoint
  target : Endpoint
  relationType : String
  publicationId : Option Nat
  weight : EdgeWeight

/-- `_get_or_create_node` and `_create_relationship`. -/
inductive Action where
  | node (demand : NodeDemand)
  | relate (edge : Edge)

def attach (publicationId : Nat) (relationType : String) (weight : EdgeWeight)
    (demand : NodeDemand) : List Action :=
  [.node demand, .relate ⟨.publication publicationId, .node demand.key, relationType,
    some publicationId, weight⟩]

structure PlannedAuthor where
  fields : Attrs
  demand : NodeDemand

section Publication

variable (publication : RawEntity) (attrs : Attrs)

/-- `publication.domain or "science"` -/
def domainOf : String :=
  match publication.domain with
  | some domain => if domain = "" then "science" else domain
  | none => "science"

def providerOf : Option String :=
  cleanText python (orElse (lookup attrs "provider") (columnJson publication.enrichmentSource))

def demandOf (entityType canonicalId label : String) (secondary : Option String) : NodeDemand where
  key := ⟨domainOf publication, entityType, canonicalId⟩
  primaryLabel := label
  secondaryLabel := secondary

def plannedAuthors : List PlannedAuthor :=
  (authorsFromEnrichment python attrs).filterMap fun author =>
    (cleanText python (lookup author "name")).bind fun name =>
      (((canonicalIdOf python "orcid" [lookup author "orcid"]).or
        (canonicalIdOf python "author" [lookup author "external_id"])).or
          (canonicalIdOf python "author" [.text name])).map fun canonicalId =>
            ⟨author, demandOf publication "author" canonicalId name
              (providerOf python publication attrs)⟩

def plannedAffiliations : List (String × NodeDemand) :=
  (items (lookup attrs "canonical_affiliations")).filterMap fun affiliation =>
    (entries? affiliation).bind fun fields =>
      (cleanText python (lookup fields "name")).bind fun name =>
        ((canonicalIdOf python "affiliation" [lookup fields "external_id"]).or
          (canonicalIdOf python "affiliation" [.text name])).map fun canonicalId =>
            (python.lower name, demandOf publication "affiliation" canonicalId name
              (cleanText python (lookup fields "country")))

def belongsTo : List Action :=
  let nodes := (plannedAffiliations python publication attrs).foldl
    (fun found pair => setEntry found pair.1 pair.2.key) []
  (plannedAuthors python publication attrs).flatMap fun author =>
    (items (lookup author.fields "affiliations")).filterMap fun affiliation =>
      (nodes.find? fun entry =>
        entry.1 == python.lower (stripped (python.str affiliation))).map fun entry =>
          .relate ⟨.node author.demand.key, .node entry.2, "belongs-to", some publication.id,
            .tenths 10⟩

def journalTitle : Option String :=
  let title := cleanText python (orElse (orElse (lookup attrs "journal")
    (lookup attrs "source_title")) (lookup attrs "venue"))
  match title, entries? (lookup attrs "raw_record") with
  | some title, _ => some title
  | none, some record =>
    cleanText python (orElse (orElse (lookup record "journal") (lookup record "source"))
      (lookup record "SO"))
  | none, none => none

def journalActions : List Action :=
  match journalTitle python attrs with
  | none => []
  | some title =>
    match canonicalIdOf python "journal" [.text title] with
    | none => []
    | some canonicalId =>
      attach publication.id "published-in" (.tenths 10) (demandOf publication "journal" canonicalId title
        (providerOf python publication attrs))

def plannedConcepts : List (String × NodeDemand) :=
  (splitConcepts python publication attrs).filterMap fun concept =>
    (canonicalIdOf python "concept" [.text concept]).map fun canonicalId =>
      (concept, demandOf publication "concept" canonicalId concept
        (providerOf python publication attrs))

/-- `canonical_identifiers`, after the DOI of the enrichment. -/
def identifierFields : List Attrs :=
  let listed := (items (lookup attrs "canonical_identifiers")).filterMap entries?
  match publication.enrichmentDoi with
  | some doi =>
    if doi = "" then listed else [("scheme", .text "doi"), ("value", .text doi)] :: listed
  | none => listed

def plannedIdentifiers : List NodeDemand :=
  (identifierFields publication attrs).foldl
    (fun planned identifier =>
      match schemeAndValue python identifier with
      | none => planned
      | some (scheme, value) =>
        match canonicalIdOf python scheme [.text value] with
        | none => planned
        | some canonicalId =>
          if planned.any fun demand => demand.key.canonicalId == canonicalId then planned
          else planned ++ [demandOf publication "identifier" canonicalId value
            (some (python.upper scheme))]) []

def publicationActions : List Action :=
  ((plannedAuthors python publication attrs).flatMap fun author =>
      attach publication.id "authored-by" (.tenths 10) author.demand) ++
    ((plannedAffiliations python publication attrs).map fun affiliation => .node affiliation.2) ++
    belongsTo python publication attrs ++ journalActions python publication attrs ++
    ((plannedConcepts python publication attrs).flatMap fun concept =>
      attach publication.id "has-concept" (.tenths 7) concept.2) ++
    (plannedIdentifiers python publication attrs).flatMap fun demand =>
      attach publication.id "identified-by" (.tenths 5) demand

end Publication

section Batch

variable (publications : List RawEntity)

def attrsOf (publication : RawEntity) : Attrs := safeJson python publication.attributesJson

/-- `concept_nodes_by_publication[pub_id]` -/
def conceptNodes (publication : RawEntity) : List (String × NodeKey) :=
  (plannedConcepts python publication (attrsOf python publication)).foldl
    (fun nodes concept => setEntry nodes (normalizeConcept python concept.1) concept.2.key) []

/-- `concept_labels_by_key` -/
def conceptLabels : List (String × String) :=
  (publications.flatMap fun publication =>
    plannedConcepts python publication (attrsOf python publication)).foldl
      (fun labels concept => setEntry labels (normalizeConcept python concept.1) concept.1) []

/-- `concept_occurrences[key]` -/
def occurrences (key : String) : List Nat :=
  (publications.filter fun publication =>
    (conceptNodes python publication).any fun entry => entry.1 == key).map RawEntity.id

def coauthorActions : List Action :=
  publications.flatMap fun publication =>
    (combinations (plannedAuthors python publication (attrsOf python publication))).map fun pair =>
      .relate ⟨.node pair.1.demand.key, .node pair.2.demand.key, "coauthor-with",
        some publication.id, .tenths 8⟩

def sortedTexts (texts : List String) : List String :=
  sortedBy (fun first second => decide (first ≤ second)) texts

def cooccurrenceActions : List Action :=
  publications.flatMap fun publication =>
    let nodes := conceptNodes python publication
    (combinations (sortedTexts (nodes.map Prod.fst))).filterMap fun pair =>
      let left := occurrences python publications pair.1
      let right := occurrences python publications pair.2
      let support := left.filter right.contains
      if support.length < 2 then none
      else
        (nodes.lookup pair.1).bind fun leftNode =>
          (nodes.lookup pair.2).map fun rightNode =>
            .relate ⟨.node leftNode, .node rightNode, "keyword-co-occurs-with", none,
              .scaled support.length (max 1 (left.length * right.length))⟩

def sortedIds (ids : List Nat) : List Nat := sortedBy (fun first second => decide (first ≤ second)) ids

def relatedActions : List Action :=
  let keys := fun id => ((publications.find? fun publication => publication.id == id).map
    fun publication => (conceptNodes python publication).map Prod.fst).getD []
  (combinations (sortedIds (publications.map RawEntity.id))).filterMap fun pair =>
    let shared := (keys pair.1).filter (keys pair.2).contains
    let union := keys pair.1 ++ (keys pair.2).filter fun key => !(keys pair.1).contains key
    if shared.length < 2 then none
    else
      some (.relate ⟨.publication pair.1, .publication pair.2, "related-to", none,
        .scaled shared.length (max 1 union.length)⟩)

def identifierPublications : List ((String × String) × List Nat) :=
  let pairs := publications.flatMap fun publication =>
    (recordIdentifierValues python publication (attrsOf python publication)).map fun pair =>
      (pair, publication.id)
  (pairs.map Prod.fst).eraseDups.map fun identifier =>
    (identifier, (pairs.filter fun pair => pair.1 == identifier).map Prod.snd)

def sameAsActions : List Action :=
  (identifierPublications python publications).flatMap fun entry =>
    (combinations (sortedIds entry.2.eraseDups)).map fun pair =>
      .relate ⟨.publication pair.1, .publication pair.2, "same-as", none,
        .tenths (if entry.1.1 = "doi" then 100 else 80)⟩

/-- `concept_node_by_key[key]`: the node in the first publication with the concept. -/
def conceptNodeByKey (key : String) : Option NodeKey :=
  publications.findSome? fun publication => (conceptNodes python publication).lookup key

def acronymActions : List Action :=
  let labels := conceptLabels python publications
  (labels.filter fun short => 2 ≤ short.1.length && short.1.length ≤ 8 &&
      !short.1.toList.contains ' ').flatMap fun short =>
    (labels.filter fun long => short.1 != long.1 && short.1.length < long.1.length &&
        conceptInitials python long.2 == short.1).filterMap fun long =>
      (conceptNodeByKey python publications short.1).bind fun left =>
        (conceptNodeByKey python publications long.1).map fun right =>
          .relate ⟨.node left, .node right, "equivalent-to", none, .tenths 90⟩

def plan : List Action :=
  (publications.flatMap fun publication =>
      publicationActions python publication (attrsOf python publication)) ++
    coauthorActions python publications ++ cooccurrenceActions python publications ++
    relatedActions python publications ++ sameAsActions python publications ++
    acronymActions python publications

end Batch

end Ukip.Graph.Plan
