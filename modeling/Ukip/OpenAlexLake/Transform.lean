import Mathlib

/-!
# From an OpenAlex work to rows

`transform.py` and the keys of `schema.py`.  A work gives rows of five fact tables and four
dimension tables.  Every fact row carries the work's id as the first column of its key.
-/

namespace Ukip.OpenAlexLake.Transform

/-- In these records a field that is missing or null is `none`, and such a list is empty. -/
structure RawFacet where
  id : Option String := none
  displayName : Option String := none
  deriving DecidableEq

structure RawTopic where
  id : Option String := none
  displayName : Option String := none
  score : Option Rat := none
  subfield : Option RawFacet := none
  field : Option RawFacet := none
  domain : Option RawFacet := none
  deriving DecidableEq

structure RawSource where
  id : Option String := none
  issnL : Option String := none
  displayName : Option String := none
  hostOrganizationName : Option String := none
  isInDoaj : Option Bool := none
  type : Option String := none
  countryCode : Option String := none
  deriving DecidableEq

structure RawInstitution where
  id : Option String := none
  ror : Option String := none
  displayName : Option String := none
  countryCode : Option String := none
  type : Option String := none
  deriving DecidableEq

structure RawAuthor where
  id : Option String := none
  orcid : Option String := none
  displayName : Option String := none
  deriving DecidableEq

structure RawAuthorship where
  author : Option RawAuthor := none
  authorPosition : Option String := none
  institutions : List RawInstitution := []
  deriving DecidableEq

structure RawCount where
  year : Option Int := none
  citedByCount : Option Int := none
  deriving DecidableEq

structure RawOpenAccess where
  isOa : Option Bool := none
  oaStatus : Option String := none
  deriving DecidableEq

/-- `primarySource` is the `source` of `primary_location`. -/
structure RawWork where
  id : Option String := none
  doi : Option String := none
  title : Option String := none
  displayName : Option String := none
  publicationYear : Option Int := none
  publicationDate : Option String := none
  type : Option String := none
  citedByCount : Option Int := none
  primarySource : Option RawSource := none
  openAccess : Option RawOpenAccess := none
  primaryTopic : Option RawTopic := none
  topics : List RawTopic := []
  countsByYear : List RawCount := []
  authorships : List RawAuthorship := []
  referencedWorks : List (Option String) := []
  updatedDate : Option String := none
  deriving DecidableEq

inductive LakeTable where
  | factWorks
  | factWorkCountsByYear
  | factAuthorship
  | factWorkTopic
  | factCitation
  | dimSource
  | dimInstitution
  | dimAuthor
  | dimTopic
  deriving DecidableEq

def factTables : List LakeTable :=
  [.factWorks, .factWorkCountsByYear, .factAuthorship, .factWorkTopic, .factCitation]

def primaryKeys : LakeTable → List String
  | .factWorks => ["work_id"]
  | .factWorkCountsByYear => ["work_id", "year"]
  | .factAuthorship => ["work_id", "author_id", "institution_id"]
  | .factWorkTopic => ["work_id", "topic_id"]
  | .factCitation => ["work_id", "referenced_work_id"]
  | .dimSource => ["source_id"]
  | .dimInstitution => ["institution_id"]
  | .dimAuthor => ["author_id"]
  | .dimTopic => ["topic_id"]

inductive Value where
  | null
  | text (text : String)
  | integer (number : Int)
  | number (number : Rat)
  | boolean (flag : Bool)
  deriving DecidableEq

def ofText : Option String → Value
  | none => .null
  | some text => .text text

def ofInteger : Option Int → Value
  | none => .null
  | some number => .integer number

def ofNumber : Option Rat → Value
  | none => .null
  | some number => .number number

def ofBoolean : Option Bool → Value
  | none => .null
  | some flag => .boolean flag

/-- A row is a dictionary by column names. -/
abbrev Row := List (String × Value)

def Row.get (row : Row) (column : String) : Value := (row.lookup column).getD .null

abbrev Key := List Value

/-- `tuple(row.get(c) for c in pk)` -/
def primaryKey (table : LakeTable) (row : Row) : Key := (primaryKeys table).map row.get

def filled (text : Option String) : Option String := text.filter fun text => text ≠ ""

def shortId (url : Option String) : Option String :=
  (filled url).bind fun url =>
    let trimmed := url.toList.reverse.dropWhile fun char => char == '/'
    filled (some (String.ofList (trimmed.takeWhile fun char => char != '/').reverse))

/-- `replace(pattern, "")`; `skip` characters belong to the occurrence before. -/
def removeAll (pattern : List Char) : Nat → List Char → List Char
  | _, [] => []
  | skip + 1, _ :: rest => removeAll pattern skip rest
  | 0, char :: rest =>
    if pattern.isPrefixOf (char :: rest) then removeAll pattern (pattern.length - 1) rest
    else char :: removeAll pattern 0 rest

def bare (host : String) (text : String) : String :=
  String.ofList (removeAll ("http://" ++ host).toList 0
    (removeAll ("https://" ++ host).toList 0 text.toList))

def bareOrcid (orcid : Option String) : Option String :=
  (filled orcid).bind fun orcid => filled (some (bare "orcid.org/" orcid))

def bareRor (ror : Option String) : Option String :=
  (filled ror).bind fun ror => filled (some (bare "ror.org/" ror))

/-- `int(short)` of a text of digits. -/
def digitsToInt (digits : List Char) : Int :=
  digits.foldl (fun number digit => 10 * number + (digit.toNat - '0'.toNat : Nat)) 0

def fieldInt (field : Option RawFacet) : Option Int :=
  (shortId (field.bind (·.id))).bind fun short =>
    if short.toList.all Char.isDigit then some (digitsToInt short.toList) else none

example : shortId (some "https://openalex.org/W2755950973/") = some "W2755950973" := by
  decide

/-- `lower` is `str.lower`. -/
def bareDoi (lower : String → String) (doi : Option String) : Option String :=
  (filled doi).bind fun doi => filled (some (lower (bare "doi.org/" doi)))

def displayNameOf (facet : Option RawFacet) : Option String := facet.bind (·.displayName)

/-- The columns of `_topic_facets` that both kinds of rows carry. -/
def fieldColumns (topic : RawTopic) : Row :=
  [("field_id", ofInteger (fieldInt topic.field)),
    ("field", ofText (displayNameOf topic.field)),
    ("domain", ofText (displayNameOf topic.domain))]

def worksRow (lower : String → String) (workId : String) (work : RawWork) : Row :=
  [("work_id", .text workId),
    ("doi", ofText (bareDoi lower work.doi)),
    ("title", ofText ((filled work.title).or work.displayName)),
    ("publication_year", ofInteger work.publicationYear),
    ("publication_date", ofText work.publicationDate),
    ("type", ofText work.type),
    ("source_issn_l", ofText (work.primarySource.bind (·.issnL))),
    ("source_id", ofText (shortId (work.primarySource.bind (·.id)))),
    ("cited_by_count", ofInteger work.citedByCount),
    ("is_oa", ofBoolean (work.openAccess.bind (·.isOa))),
    ("oa_status", ofText (work.openAccess.bind (·.oaStatus))),
    ("primary_topic_id", ofText (shortId (work.primaryTopic.bind (·.id))))] ++
  fieldColumns (work.primaryTopic.getD {}) ++
  [("referenced_count", .integer (work.referencedWorks.filterMap filled).length),
    ("updated_date", ofText work.updatedDate)]

def sourceRows (work : RawWork) : List Row :=
  match work.primarySource with
  | none => []
  | some source =>
    match shortId source.id with
    | none => []
    | some sourceId =>
      [[("source_id", .text sourceId),
        ("issn_l", ofText source.issnL),
        ("display_name", ofText source.displayName),
        ("host_org", ofText source.hostOrganizationName),
        ("is_in_doaj", ofBoolean source.isInDoaj),
        ("type", ofText source.type),
        ("country_code", ofText source.countryCode)]]

def countRows (workId : String) (work : RawWork) : List Row :=
  work.countsByYear.filterMap fun count =>
    count.year.map fun year =>
      [("work_id", .text workId),
        ("year", .integer year),
        ("cited_by_count", ofInteger count.citedByCount)]

/-- One turn of the loop over the institutions of an authorship. -/
structure Affiliation where
  authorId : String
  orcid : Option String
  position : Option String
  institutionId : String
  institution : RawInstitution

def authorOf (authorship : RawAuthorship) : RawAuthor := authorship.author.getD {}

def affiliationsOf (authorship : RawAuthorship) : List Affiliation :=
  match shortId (authorOf authorship).id with
  | none => []
  | some authorId =>
    (if authorship.institutions = [] then [{}] else authorship.institutions).map
      fun institution =>
        { authorId := authorId
          orcid := bareOrcid (authorOf authorship).orcid
          position := authorship.authorPosition
          institutionId := (shortId institution.id).getD ""
          institution := institution }

/-- The turns that `seen_authorship` lets through. -/
def unseen : List (String × String) → List Affiliation → List Affiliation
  | _, [] => []
  | seen, affiliation :: rest =>
    if (affiliation.authorId, affiliation.institutionId) ∈ seen then unseen seen rest
    else
      affiliation ::
        unseen ((affiliation.authorId, affiliation.institutionId) :: seen) rest

def affiliations (work : RawWork) : List Affiliation :=
  unseen [] (work.authorships.flatMap affiliationsOf)

def authorRows (work : RawWork) : List Row :=
  work.authorships.filterMap fun authorship =>
    (shortId (authorOf authorship).id).map fun authorId =>
      [("author_id", .text authorId),
        ("orcid", ofText (bareOrcid (authorOf authorship).orcid)),
        ("display_name", ofText (authorOf authorship).displayName)]

def authorshipRow (workId : String) (affiliation : Affiliation) : Row :=
  [("work_id", .text workId),
    ("author_position", ofText affiliation.position),
    ("author_id", .text affiliation.authorId),
    ("orcid", ofText affiliation.orcid),
    ("institution_ror", ofText (bareRor affiliation.institution.ror)),
    ("institution_id", .text affiliation.institutionId),
    ("country_code", ofText affiliation.institution.countryCode)]

def institutionRows (work : RawWork) : List Row :=
  ((affiliations work).filter fun affiliation => affiliation.institutionId ≠ "").map
    fun affiliation =>
      [("institution_id", .text affiliation.institutionId),
        ("ror", ofText (bareRor affiliation.institution.ror)),
        ("display_name", ofText affiliation.institution.displayName),
        ("country_code", ofText affiliation.institution.countryCode),
        ("type", ofText affiliation.institution.type)]

def topicRows (workId : String) (work : RawWork) : List Row :=
  work.topics.filterMap fun topic =>
    (shortId topic.id).map fun topicId =>
      [("work_id", .text workId),
        ("topic_id", .text topicId),
        ("score", ofNumber topic.score),
        ("is_primary",
          .boolean (decide (some topicId = shortId (work.primaryTopic.bind (·.id)))))]

def topicDimensionRows (work : RawWork) : List Row :=
  work.topics.filterMap fun topic =>
    (shortId topic.id).map fun topicId =>
      [("topic_id", .text topicId),
        ("display_name", ofText topic.displayName),
        ("subfield", ofText (displayNameOf topic.subfield))] ++ fieldColumns topic

def citationRows (workId : String) (work : RawWork) : List Row :=
  work.referencedWorks.filterMap fun reference =>
    (shortId reference).map fun referenceId =>
      [("work_id", .text workId), ("referenced_work_id", .text referenceId)]

def identifiedRows (lower : String → String) (includeCitations : Bool) (workId : String)
    (work : RawWork) : LakeTable → List Row
  | .factWorks => [worksRow lower workId work]
  | .factWorkCountsByYear => countRows workId work
  | .factAuthorship => (affiliations work).map (authorshipRow workId)
  | .factWorkTopic => topicRows workId work
  | .factCitation => if includeCitations then citationRows workId work else []
  | .dimSource => sourceRows work
  | .dimInstitution => institutionRows work
  | .dimAuthor => authorRows work
  | .dimTopic => topicDimensionRows work

def transformWork (lower : String → String) (includeCitations : Bool) (work : RawWork)
    (table : LakeTable) : List Row :=
  match shortId work.id with
  | none => []
  | some workId => identifiedRows lower includeCitations workId work table

theorem get_first (column : String) (value : Value) (rest : Row) :
    Row.get ((column, value) :: rest) column = value := by
  rw [Row.get, List.lookup_cons_self, Option.getD_some]

theorem primaryKey_head {table : LakeTable} (fact : table ∈ factTables) (row : Row) :
    (primaryKey table row).head? = some (row.get "work_id") := by
  cases table
  case factWorks => rfl
  case factWorkCountsByYear => rfl
  case factAuthorship => rfl
  case factWorkTopic => rfl
  case factCitation => rfl
  all_goals exact absurd fact (by decide)

variable {lower : String → String} {includeCitations : Bool} {work : RawWork}

theorem work_of_row {table : LakeTable} {row : Row} (fact : table ∈ factTables)
    (yields : row ∈ transformWork lower includeCitations work table) :
    ∃ workId, shortId work.id = some workId ∧ row.get "work_id" = .text workId := by
  unfold transformWork at yields
  split at yields
  · cases yields
  rename_i workId identified
  refine ⟨workId, identified, ?_⟩
  cases table with
  | factWorks =>
    rw [List.mem_singleton.mp yields]
    exact get_first _ _ _
  | factWorkCountsByYear =>
    obtain ⟨count, _, counted⟩ := List.mem_filterMap.mp yields
    obtain ⟨year, _, rfl⟩ := Option.map_eq_some_iff.mp counted
    exact get_first _ _ _
  | factAuthorship =>
    obtain ⟨affiliation, _, rfl⟩ := List.mem_map.mp yields
    exact get_first _ _ _
  | factWorkTopic =>
    obtain ⟨topic, _, listed⟩ := List.mem_filterMap.mp yields
    obtain ⟨topicId, _, rfl⟩ := Option.map_eq_some_iff.mp listed
    exact get_first _ _ _
  | factCitation =>
    obtain ⟨_, cited⟩ := List.mem_ite_nil_right.mp yields
    obtain ⟨reference, _, resolved⟩ := List.mem_filterMap.mp cited
    obtain ⟨referenceId, _, rfl⟩ := Option.map_eq_some_iff.mp resolved
    exact get_first _ _ _
  | dimSource => exact absurd fact (by decide)
  | dimInstitution => exact absurd fact (by decide)
  | dimAuthor => exact absurd fact (by decide)
  | dimTopic => exact absurd fact (by decide)

end Ukip.OpenAlexLake.Transform
