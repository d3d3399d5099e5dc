import Ukip.Engine.CanonicalIds

/-!
# One identity in two materializers

The engine and the Python materializer, which stands in for it, name the same entities.
The engine keeps identifiers as they stand and folds accents before it makes a slug; the
materializer makes slugs of identifiers too and folds no accents.
-/

namespace Ukip.Engine

open Analytics.Corpus Foundation.Words
open Graph.Plan hiding slug

/-- What both materializers make nodes of, apart from publications. -/
inductive Entity
  | author (name : String) (orcid externalId : Option String)
  | affiliation (name : String) (externalId : Option String)
  | journal (title : String)
  | concept (label : String)
  | identifier (scheme value : String)

def engineId (tables : UnicodeTables) : Entity → String
  | .author name orcid externalId => authorCanonicalId tables ⟨name, none, orcid, externalId, []⟩
  | .affiliation name externalId => affiliationCanonicalId tables ⟨name, none, externalId⟩
  | .journal title => journalCanonicalId tables title
  | .concept label => conceptCanonicalId tables label
  | .identifier scheme value => identifierCanonicalId scheme value

section Fallback

variable (python : GraphPython)

def fallbackId : Entity → Option String
  | .author name orcid externalId =>
    (cleanText python (.text name)).bind fun name =>
      ((canonicalIdOf python "orcid" [columnJson orcid]).or
        (canonicalIdOf python "author" [columnJson externalId])).or
          (canonicalIdOf python "author" [.text name])
  | .affiliation name externalId =>
    (cleanText python (.text name)).bind fun name =>
      (canonicalIdOf python "affiliation" [columnJson externalId]).or
        (canonicalIdOf python "affiliation" [.text name])
  | .journal title =>
    (cleanText python (.text title)).bind fun title => canonicalIdOf python "journal" [.text title]
  | .concept label =>
    (cleanText python (.text label)).bind fun label => canonicalIdOf python "concept" [.text label]
  | .identifier scheme value =>
    (schemeAndValue python [("scheme", .text scheme), ("value", .text value)]).bind fun pair =>
      canonicalIdOf python pair.1 [.text pair.2]

def attrsWith : Entity → Attrs
  | .author name orcid externalId =>
    [("canonical_authors", .array [.object [("name", .text name), ("orcid", columnJson orcid),
      ("external_id", columnJson externalId)]])]
  | .affiliation name externalId =>
    [("canonical_affiliations", .array [.object [("name", .text name),
      ("external_id", columnJson externalId)]])]
  | .journal title => [("journal", .text title)]
  | .concept label => [("concepts", .array [.text label])]
  | .identifier scheme value =>
    [("canonical_identifiers", .array [.object [("scheme", .text scheme), ("value", .text value)]])]

def nodeId : Action → Option String
  | .node demand => some demand.key.canonicalId
  | .relate _ => none

def plannedIds (publication : RawEntity) (attrs : Attrs) : List String :=
  (publicationActions python publication attrs).filterMap nodeId

theorem plannedIds_eq (publication : RawEntity) (attrs : Attrs) :
    plannedIds python publication attrs =
      (plannedAuthors python publication attrs).map (fun author => author.demand.key.canonicalId) ++
        (plannedAffiliations python publication attrs).map (fun entry => entry.2.key.canonicalId) ++
        ((journalTitle python attrs).bind fun title =>
          canonicalIdOf python "journal" [.text title]).toList ++
        (plannedConcepts python publication attrs).map (fun entry => entry.2.key.canonicalId) ++
        (plannedIdentifiers python publication attrs).map fun demand => demand.key.canonicalId := by
  have attached : ∀ {Source : Type} (sources : List Source) (relationType : String)
      (weight : EdgeWeight) (demandOf : Source → NodeDemand),
      (sources.flatMap fun source =>
        attach publication.id relationType weight (demandOf source)).filterMap nodeId = sources.map fun source => (demandOf source).key.canonicalId := by
    intro Source sources relationType weight demandOf
    induction sources with
    | nil => rfl
    | cons source rest ih =>
      rw [List.flatMap_cons, List.filterMap_append, ih]
      rfl
  have nodes : ∀ entries : List (String × NodeDemand),
      (entries.map fun entry => Action.node entry.2).filterMap nodeId =
        entries.map fun entry => entry.2.key.canonicalId := by
    intro entries
    rw [List.filterMap_map, ← List.filterMap_eq_map]
    rfl
  have noNodes : (belongsTo python publication attrs).filterMap nodeId = [] := by
    rw [List.filterMap_eq_nil_iff]
    intro action member
    obtain ⟨author, _, inAuthor⟩ := List.mem_flatMap.mp member
    obtain ⟨affiliation, _, made⟩ := List.mem_filterMap.mp inAuthor
    obtain ⟨entry, _, rfl⟩ := Option.map_eq_some_iff.mp made
    rfl
  have journal : (journalActions python publication attrs).filterMap nodeId =
      ((journalTitle python attrs).bind fun title =>
        canonicalIdOf python "journal" [.text title]).toList := by
    unfold journalActions
    cases journalTitle python attrs with
    | none => rfl
    | some title =>
      simp only [Option.bind_some]
      cases canonicalIdOf python "journal" [.text title] <;> rfl
  simp only [plannedIds, publicationActions, List.filterMap_append, attached, nodes, noNodes, journal,
    List.append_nil]

section Absent

variable {python} {publication : RawEntity} {attrs : Attrs}

theorem plannedAuthors_absent (canonical : lookup attrs "canonical_authors" = .null)
    (enriched : lookup attrs "enrichment_authors" = .null) :
    plannedAuthors python publication attrs = [] := by
  simp [plannedAuthors, authorsFromEnrichment, canonical, enriched, items]

theorem plannedAffiliations_absent (canonical : lookup attrs "canonical_affiliations" = .null) :
    plannedAffiliations python publication attrs = [] := by
  simp [plannedAffiliations, canonical, items]

theorem journalTitle_absent (journal : lookup attrs "journal" = .null)
    (title : lookup attrs "source_title" = .null) (venue : lookup attrs "venue" = .null)
    (record : lookup attrs "raw_record" = .null) : journalTitle python attrs = none := by
  simp [journalTitle, journal, title, venue, record, orElse, Json.truthy, cleanText, entries?]

theorem plannedConcepts_absent (concepts : lookup attrs "concepts" = .null)
    (keywords : lookup attrs "keywords" = .null) (record : lookup attrs "raw_record" = .null)
    (noConcepts : publication.enrichmentConcepts = none) :
    plannedConcepts python publication attrs = [] := by
  simp [plannedConcepts, splitConcepts, concepts, keywords, record, noConcepts, columnJson,
    conceptCandidates, entries?]

theorem plannedIdentifiers_absent (canonical : lookup attrs "canonical_identifiers" = .null)
    (noDoi : publication.enrichmentDoi = none) : plannedIdentifiers python publication attrs = [] := by
  simp [plannedIdentifiers, identifierFields, canonical, noDoi, items]

end Absent

theorem filterMap_one {Source Target : Type} (pick : Source → Option Target) (source : Source) :
    [source].filterMap pick = (pick source).toList := by
  cases found : pick source <;> simp [found]

theorem map_toList {Source Target : Type} (rename : Source → Target) (found : Option Source) :
    found.toList.map rename = (found.map rename).toList := by
  cases found <;> rfl

theorem plannedIds_attrsWith (publication : RawEntity) (noDoi : publication.enrichmentDoi = none)
    (noConcepts : publication.enrichmentConcepts = none) (entity : Entity) :
    plannedIds python publication (attrsWith entity) = (fallbackId python entity).toList := by
  rw [plannedIds_eq]
  cases entity with
  | author name orcid externalId =>
    rw [plannedAffiliations_absent rfl, journalTitle_absent rfl rfl rfl rfl,
      plannedConcepts_absent rfl rfl rfl noConcepts, plannedIdentifiers_absent rfl noDoi]
    have authors : authorsFromEnrichment python (attrsWith (.author name orcid externalId)) =
        [[("name", .text name), ("orcid", columnJson orcid), ("external_id", columnJson externalId)]] :=
      rfl
    rw [plannedAuthors, authors, filterMap_one, map_toList, Option.map_bind]
    simp only [Function.comp_def, Option.map_map, demandOf, Option.map_id', List.map_nil,
      List.append_nil, Option.bind_none, Option.toList_none]
    rfl
  | affiliation name externalId =>
    rw [plannedAuthors_absent rfl rfl, journalTitle_absent rfl rfl rfl rfl,
      plannedConcepts_absent rfl rfl rfl noConcepts, plannedIdentifiers_absent rfl noDoi]
    let fields := [("name", Json.text name), ("external_id", columnJson externalId)]
    have affiliations : items (lookup (attrsWith (.affiliation name externalId)) "canonical_affiliations") =
        [.object fields] := rfl
    have ofFields : entries? (.object fields) = some fields := rfl
    have named : lookup fields "name" = .text name := rfl
    have external : lookup fields "external_id" = columnJson externalId := rfl
    rw [plannedAffiliations, affiliations, filterMap_one, map_toList]
    simp only [Function.comp_def, Option.map_bind, Option.map_map, demandOf, Option.map_id', List.map_nil,
      List.append_nil, List.nil_append, Option.bind_none, Option.toList_none, ofFields,
      Option.bind_some, named, external, fallbackId]
  | journal title =>
    rw [plannedAuthors_absent rfl rfl, plannedAffiliations_absent rfl,
      plannedConcepts_absent rfl rfl rfl noConcepts, plannedIdentifiers_absent rfl noDoi]
    have titled : journalTitle python (attrsWith (.journal title)) = cleanText python (.text title) := by
      by_cases empty : title = ""
      · subst empty
        rfl
      · have first : orElse (orElse (lookup (attrsWith (.journal title)) "journal")
            (lookup (attrsWith (.journal title)) "source_title"))
            (lookup (attrsWith (.journal title)) "venue") = .text title := by
          have isText : lookup (attrsWith (.journal title)) "journal" = .text title := rfl
          simp [isText, orElse, Json.truthy, empty]
        have noRecord : entries? (lookup (attrsWith (.journal title)) "raw_record") = none := rfl
        rw [journalTitle, first, noRecord]
        cases cleanText python (.text title) <;> rfl
    rw [titled]
    simp only [List.map_nil, List.append_nil, List.nil_append, fallbackId]
  | concept label =>
    rw [plannedAuthors_absent rfl rfl, plannedAffiliations_absent rfl,
      journalTitle_absent rfl rfl rfl rfl, plannedIdentifiers_absent rfl noDoi]
    have concepts : splitConcepts python publication (attrsWith (.concept label)) =
        (cleanText python (.text label)).toList := by
      have candidates : [lookup (attrsWith (.concept label)) "concepts",
          lookup (attrsWith (.concept label)) "keywords", columnJson publication.enrichmentConcepts] =
            [.array [.text label], .null, .null] := by
        rw [noConcepts]
        rfl
      have noRecord : entries? (lookup (attrsWith (.concept label)) "raw_record") = none := rfl
      simp only [splitConcepts, noRecord, candidates]
      cases found : cleanText python (.text label) <;>
        simp [conceptCandidates, addConcept, found]
    rw [plannedConcepts, concepts]
    cases found : cleanText python (.text label) with
    | none => simp [fallbackId, found]
    | some name =>
      rw [Option.toList_some, filterMap_one, map_toList]
      simp [fallbackId, found, demandOf, Function.comp_def]
  | identifier scheme value =>
    rw [plannedAuthors_absent rfl rfl, plannedAffiliations_absent rfl,
      journalTitle_absent rfl rfl rfl rfl, plannedConcepts_absent rfl rfl rfl noConcepts]
    have listed : identifierFields publication (attrsWith (.identifier scheme value)) =
        [[("scheme", .text scheme), ("value", .text value)]] := by
      rw [identifierFields, noDoi]
      rfl
    rw [plannedIdentifiers, listed, List.foldl_cons, List.foldl_nil]
    cases found : schemeAndValue python [("scheme", .text scheme), ("value", .text value)] with
    | none => simp [fallbackId, found]
    | some pair =>
      cases named : canonicalIdOf python pair.1 [.text pair.2] <;>
        simp [fallbackId, found, named, demandOf]

end Fallback

/-- Words of ASCII small letters and digits, joined by single hyphens. -/
def IsSlug (text : String) : Prop :=
  ∃ list : List (List Char), list ≠ [] ∧
    (∀ word ∈ list, word ≠ [] ∧ ∀ c ∈ word, isSlugChar c = true) ∧
      text.toList = ['-'].intercalate list

/-- More than white space. -/
def Written (text : String) : Prop := strip isPythonSpace text.toList ≠ []

instance (text : String) : Decidable (Written text) :=
  inferInstanceAs (Decidable (strip isPythonSpace text.toList ≠ []))

/-- The runs of ASCII letters and digits are the same with the accents folded or not. -/
def FoldsAlike (tables : UnicodeTables) (python : GraphPython) (text : String) : Prop :=
  slugWords tables text = words isGap (python.lower (stripped text)).toList

/-- A name makes the same slug. -/
def NameAgrees (tables : UnicodeTables) (python : GraphPython) (name : String) : Prop :=
  Written name ∧ FoldsAlike tables python name

/-- An identifier that the engine keeps is a slug, a name that it slugs folds alike, and a
scheme has no white space around it. -/
def Agrees (tables : UnicodeTables) (python : GraphPython) : Entity → Prop
  | .author name orcid externalId =>
    match (filled orcid).or (filled externalId) with
    | some kept => Written name ∧ IsSlug kept
    | none => NameAgrees tables python name
  | .affiliation name externalId =>
    match filled externalId with
    | some kept => Written name ∧ IsSlug kept
    | none => NameAgrees tables python name
  | .journal title => NameAgrees tables python title
  | .concept label => NameAgrees tables python label
  | .identifier scheme value => scheme ≠ "" ∧ stripped scheme = scheme ∧ IsSlug value

/-- `str.lower` leaves small ASCII letters, digits and hyphens as they are. -/
def LowersPlain (python : GraphPython) : Prop :=
  ∀ text : String, (∀ c ∈ text.toList, isSlugChar c = true ∨ c = '-') → python.lower text = text

section Agreement

variable {tables : UnicodeTables} {python : GraphPython} (text : String)

theorem toList_fallbackSlug : (Graph.Plan.slug python text).toList =
    ['-'].intercalate (words isGap (python.lower text).toList) := by
  have lists : ∀ list : List (List Char), (list.map String.ofList).map String.toList = list := by
    intro list
    rw [List.map_map]
    exact (List.map_congr_left fun word _ => String.toList_ofList).trans (List.map_id list)
  rw [Graph.Plan.slug, String.toList_intercalate, slugRuns, lists]
  rfl

theorem isPythonSpace_slugChar {c : Char} (plain : isSlugChar c = true ∨ c = '-') :
    isPythonSpace c = false := by
  have code : (97 ≤ c.toNat ∧ c.toNat ≤ 122) ∨ (48 ≤ c.toNat ∧ c.toNat ≤ 57) ∨ c.toNat = 45 := by
    rcases plain with isSlug | isHyphen
    · simp only [isSlugChar, Bool.or_eq_true, Bool.and_eq_true, decide_eq_true_eq] at isSlug
      rcases isSlug with small | digit
      · exact .inl ⟨small.1, small.2⟩
      · exact .inr (.inl ⟨digit.1, digit.2⟩)
    · exact .inr (.inr (by rw [isHyphen]; rfl))
  simp only [isPythonSpace, isWhiteSpace, Bool.or_eq_false_iff, Bool.and_eq_false_iff,
    decide_eq_false_iff_not, List.mem_cons, List.not_mem_nil, or_false]
  omega

theorem written_iff : Written text ↔ stripped text ≠ "" := by
  rw [Written, stripped, Ne, Ne, String.ofList_eq_empty_iff]

theorem cleanText_text :
    cleanText python (.text text) = if stripped text = "" then none else some (stripped text) := rfl

theorem stripped_stripped : stripped (stripped text) = stripped text := by
  rw [stripped, stripped, String.toList_ofList]
  exact congrArg String.ofList (trim_trim text.toList)

theorem canonicalIdOf_text (head text : String) : canonicalIdOf python head [.text text] =
    if stripped text = "" then none
    else some (head ++ ":" ++ Graph.Plan.slug python (stripped text)) := by
  unfold canonicalIdOf
  by_cases blank : stripped text = ""
  · simp [cleanText_text, blank]
  · simp [cleanText_text, blank]

theorem canonicalIdOf_column (head : String) (text : Option String) :
    canonicalIdOf python head [columnJson text] =
      (filled text).bind fun text => canonicalIdOf python head [.text text] := by
  cases text with
  | none => rfl
  | some text =>
    by_cases empty : text = ""
    · subst empty
      rfl
    · simp [filled, Option.filter, empty, columnJson]

variable {text : String}

theorem isSlug_fallbackSlug (someSlug : Graph.Plan.slug python text ≠ "") :
    IsSlug (Graph.Plan.slug python text) := by
  refine ⟨_, ?_, ?_, toList_fallbackSlug text⟩
  · intro noWords
    apply someSlug
    apply String.toList_injective
    rw [toList_fallbackSlug, noWords]
    rfl
  · intro word member
    refine ⟨words_ne_nil member, fun c inWord => ?_⟩
    have kept := (not_out_of_mem_words member inWord).2
    simpa [isGap] using kept

theorem IsSlug.plain (isSlug : IsSlug text) : ∀ c ∈ text.toList, isSlugChar c = true ∨ c = '-' := by
  obtain ⟨list, someWords, letters, joined⟩ := isSlug
  rw [joined]
  clear joined someWords
  induction list with
  | nil =>
    intro c member
    cases member
  | cons word rest ih =>
    intro c member
    have later := ih (fun other isLater => letters other (List.mem_cons_of_mem word isLater))
    by_cases alone : rest = []
    · rw [alone, List.intercalate_singleton] at member
      exact .inl ((letters word List.mem_cons_self).2 c member)
    · rw [List.intercalate_cons_of_ne_nil alone, List.mem_append, List.mem_append,
        List.mem_singleton] at member
      rcases member with (inWord | isHyphen) | inRest
      · exact .inl ((letters word List.mem_cons_self).2 c inWord)
      · exact .inr isHyphen
      · exact later c inRest

theorem IsSlug.ne_empty (isSlug : IsSlug text) : text ≠ "" := by
  obtain ⟨list, someWords, letters, joined⟩ := isSlug
  intro empty
  have plain : Plain '-' list := by
    intro word member
    refine ⟨(letters word member).1, fun hyphen => ?_⟩
    have isSlugHyphen := (letters word member).2 '-' hyphen
    exact absurd isSlugHyphen (by decide)
  obtain ⟨first, back, starts, _⟩ := (joined_ends plain someWords).1
  rw [starts, empty] at joined
  cases joined

theorem IsSlug.stripped_eq (isSlug : IsSlug text) : stripped text = text := by
  have whole : strip isPythonSpace text.toList = text.toList :=
    trim_eq_self fun c member => isPythonSpace_slugChar (isSlug.plain c member)
  rw [stripped, whole, String.ofList_toList]

theorem IsSlug.slug_eq (lowers : LowersPlain python) (isSlug : IsSlug text) :
    Graph.Plan.slug python text = text := by
  apply String.toList_injective
  rw [toList_fallbackSlug, lowers text isSlug.plain]
  obtain ⟨list, _, letters, joined⟩ := isSlug
  rw [joined, words_joined isGap_hyphen]
  intro word member
  refine ⟨(letters word member).1, fun c inWord => ?_⟩
  rw [isGap, (letters word member).2 c inWord]
  rfl

theorem keptId_iff (lowers : LowersPlain python) (head : String) {kept : String} (someText : kept ≠ "") :
    canonicalIdOf python head [.text kept] = some (head ++ ":" ++ kept) ↔ IsSlug kept := by
  rw [canonicalIdOf_text]
  constructor
  · intro same
    by_cases blank : stripped kept = ""
    · rw [if_pos blank] at same
      cases same
    · rw [if_neg blank, Option.some.injEq, scheme_append_inj] at same
      have isSlug : IsSlug (Graph.Plan.slug python (stripped kept)) :=
        isSlug_fallbackSlug (by rw [same]; exact someText)
      rwa [same] at isSlug
  · intro isSlug
    rw [isSlug.stripped_eq, if_neg someText, isSlug.slug_eq lowers]

theorem nameSlug_iff (name : String) : Graph.Plan.slug python (stripped name) = slug tables name ↔
    FoldsAlike tables python name := by
  constructor
  · intro same
    have joined := congrArg String.toList same
    rw [toList_fallbackSlug, toList_slug] at joined
    exact (joined_injective (plain_words isGap_hyphen _) (plain_words isGap_hyphen _) joined).symm
  · intro alike
    apply String.toList_injective
    rw [toList_fallbackSlug, toList_slug, alike]

theorem namedId_iff (head name : String) :
    ((cleanText python (.text name)).bind fun name => canonicalIdOf python head [.text name]) =
      some (head ++ ":" ++ slug tables name) ↔ NameAgrees tables python name := by
  rw [cleanText_text, NameAgrees, written_iff]
  by_cases blank : stripped name = ""
  · simp [blank]
  · simp only [blank, if_neg, not_false_eq_true, Option.bind_some, canonicalIdOf_text,
      stripped_stripped, Option.some.injEq, scheme_append_inj, nameSlug_iff, ne_eq, true_and]

theorem keptId_or_iff (lowers : LowersPlain python) (head : String) {kept : String}
    (someText : kept ≠ "") {other : Option String}
    (otherwise : other = some (head ++ ":" ++ kept) → IsSlug kept) :
    (canonicalIdOf python head [.text kept]).or other = some (head ++ ":" ++ kept) ↔ IsSlug kept := by
  rw [← keptId_iff lowers head someText]
  cases found : canonicalIdOf python head [.text kept] with
  | some id => rw [Option.some_or]
  | none =>
    rw [Option.none_or]
    constructor
    · intro same
      rw [← found, keptId_iff lowers head someText]
      exact otherwise same
    · intro missing
      cases missing

theorem slugId_isSlug {head kept text : String} (someText : kept ≠ "")
    (same : canonicalIdOf python head [.text text] = some (head ++ ":" ++ kept)) : IsSlug kept := by
  rw [canonicalIdOf_text] at same
  split at same
  · cases same
  · rw [Option.some.injEq, scheme_append_inj] at same
    have isSlug : IsSlug (Graph.Plan.slug python (stripped text)) :=
      isSlug_fallbackSlug (by rw [same]; exact someText)
    rwa [same] at isSlug

theorem author_ne_orcid (text kept : String) :
    canonicalIdOf python "author" [.text text] ≠ some ("orcid" ++ ":" ++ kept) := by
  intro same
  rw [canonicalIdOf_text] at same
  split at same
  · cases same
  · have lists := congrArg (fun id => (id.getD "").toList.head?) same
    simp at lists

theorem filled_ne_empty {text : Option String} {kept : String} (found : filled text = some kept) :
    kept ≠ "" := by
  simpa using (Option.filter_eq_some_iff.mp found).2

theorem cleanText_written {name : String} (written : Written name) :
    cleanText python (.text name) = some (stripped name) := by
  rw [cleanText_text, if_neg ((written_iff name).mp written)]

theorem cleanText_unwritten {name : String} (unwritten : ¬ Written name) :
    cleanText python (.text name) = none := by
  rw [written_iff, not_not] at unwritten
  rw [cleanText_text, if_pos unwritten]

theorem orcidHead : "orcid" ++ ":" = "orcid:" := rfl

theorem authorHead : "author" ++ ":" = "author:" := rfl

theorem author_agrees_iff (lowers : LowersPlain python) (name : String) (orcid externalId : Option String) :
    fallbackId python (.author name orcid externalId) =
      some (engineId tables (.author name orcid externalId)) ↔
        Agrees tables python (.author name orcid externalId) := by
  simp only [fallbackId, engineId, authorCanonicalId, Agrees, canonicalIdOf_column]
  cases hasOrcid : filled orcid with
  | some kept =>
    by_cases written : Written name
    · rw [cleanText_written written, Option.bind_some, Option.bind_some, Option.or_assoc, ← orcidHead,
        keptId_or_iff lowers "orcid" (filled_ne_empty hasOrcid)]
      · simp [written]
      · intro same
        rcases Option.or_eq_some_iff.mp same with external | named
        · obtain ⟨text, _, made⟩ := Option.bind_eq_some_iff.mp external
          exact absurd made (author_ne_orcid text kept)
        · exact absurd named.2 (author_ne_orcid (stripped name) kept)
    · simp [cleanText_unwritten written, written]
  | none =>
    cases hasExternal : filled externalId with
    | some kept =>
      by_cases written : Written name
      · rw [cleanText_written written, Option.bind_some, Option.bind_some, Option.bind_none,
          Option.none_or, ← authorHead,
          keptId_or_iff lowers "author" (filled_ne_empty hasExternal)
            (slugId_isSlug (filled_ne_empty hasExternal))]
        simp [written]
      · simp [cleanText_unwritten written, written]
    | none =>
      simp only [Option.bind_none, Option.none_or]
      rw [← authorHead]
      exact namedId_iff "author" name

theorem affiliation_agrees_iff (lowers : LowersPlain python) (name : String)
    (externalId : Option String) :
    fallbackId python (.affiliation name externalId) =
      some (engineId tables (.affiliation name externalId)) ↔
        Agrees tables python (.affiliation name externalId) := by
  have head : "affiliation" ++ ":" = "affiliation:" := rfl
  simp only [fallbackId, engineId, affiliationCanonicalId, affiliationNameCanonicalId, Agrees,
    canonicalIdOf_column]
  cases hasExternal : filled externalId with
  | some kept =>
    by_cases written : Written name
    · rw [cleanText_written written, Option.bind_some, Option.bind_some, ← head,
        keptId_or_iff lowers "affiliation" (filled_ne_empty hasExternal)
          (slugId_isSlug (filled_ne_empty hasExternal))]
      simp [written]
    · simp [cleanText_unwritten written, written]
  | none =>
    simp only [Option.bind_none, Option.none_or]
    rw [← head]
    exact namedId_iff "affiliation" name

theorem scheme_eq_of_colon {scheme slugged value : String} (someScheme : stripped scheme ≠ "")
    (same : stripped scheme ++ ":" ++ slugged = scheme ++ ":" ++ value) : stripped scheme = scheme := by
  obtain ⟨lead, trail, split, leadOut, trailOut⟩ := @trim_split _ isPythonSpace scheme.toList
  have lists := congrArg String.toList same
  have colon : ":".toList = [':'] := by decide
  simp only [String.toList_append, colon] at lists
  have isTrimmed : (stripped scheme).toList = trim isPythonSpace scheme.toList := String.toList_ofList
  obtain ⟨first, rest, starts⟩ : ∃ first rest, trim isPythonSpace scheme.toList = first :: rest := by
    apply List.exists_cons_of_ne_nil
    intro blank
    apply someScheme
    apply String.toList_injective
    rw [isTrimmed, blank]
    rfl
  rw [starts] at split
  rw [isTrimmed, starts, split] at lists
  -- the first character is no space, and neither is the colon
  cases lead with
  | cons space lead =>
    have first := (List.cons.inj lists).1
    have isSpace := leadOut space List.mem_cons_self
    rw [← first, trim_head starts] at isSpace
    cases isSpace
  | nil =>
    simp only [List.nil_append, List.append_assoc, List.append_cancel_left_eq] at lists
    cases trail with
    | cons space trail =>
      have isColon := (List.cons.inj lists).1
      have isSpace := trailOut space List.mem_cons_self
      rw [← isColon] at isSpace
      exact absurd isSpace (by decide)
    | nil =>
      apply String.toList_injective
      rw [isTrimmed, starts, split]
      simp

theorem identifier_agrees_iff (lowers : LowersPlain python) (scheme value : String) :
    fallbackId python (.identifier scheme value) =
      some (engineId tables (.identifier scheme value)) ↔
        Agrees tables python (.identifier scheme value) := by
  have fields : schemeAndValue python [("scheme", .text scheme), ("value", .text value)] =
      (cleanText python (.text scheme)).bind fun scheme =>
        (cleanText python (.text value)).map fun value => (scheme, value) := rfl
  simp only [fallbackId, engineId, identifierCanonicalId, Agrees, fields, cleanText_text]
  by_cases someScheme : stripped scheme = ""
  · rw [if_pos someScheme]
    constructor
    · intro same
      cases same
    · intro agrees
      exact absurd (agrees.2.1.symm.trans someScheme) agrees.1
  · rw [if_neg someScheme, Option.bind_some]
    by_cases someValue : stripped value = ""
    · rw [if_pos someValue]
      constructor
      · intro same
        cases same
      · intro agrees
        exact absurd (agrees.2.2.stripped_eq.symm.trans someValue) agrees.2.2.ne_empty
    · rw [if_neg someValue, Option.map_some, Option.bind_some, canonicalIdOf_text, stripped_stripped,
        if_neg someValue, Option.some.injEq]
      constructor
      · intro same
        have whole := scheme_eq_of_colon someScheme same
        rw [whole, scheme_append_inj] at same
        have someSlug : Graph.Plan.slug python (stripped value) ≠ "" := by
          rw [same]
          intro empty
          exact someValue (by rw [empty]; rfl)
        have isSlug := isSlug_fallbackSlug someSlug
        rw [same] at isSlug
        exact ⟨whole ▸ someScheme, whole, isSlug⟩
      · intro agrees
        rw [agrees.2.1, agrees.2.2.stripped_eq, agrees.2.2.slug_eq lowers]

end Agreement

/-- The engine and the materializer give an entity the same id exactly if an identifier that
the engine keeps is a slug, a name that it slugs folds alike, and a scheme stands alone. -/
theorem canonicalIds_agree_iff (tables : UnicodeTables) (python : GraphPython)
    (lowers : LowersPlain python) (entity : Entity) :
    fallbackId python entity = some (engineId tables entity) ↔ Agrees tables python entity := by
  cases entity with
  | author name orcid externalId => exact author_agrees_iff lowers name orcid externalId
  | affiliation name externalId => exact affiliation_agrees_iff lowers name externalId
  | journal title =>
    have head : "journal" ++ ":" = "journal:" := rfl
    simp only [engineId, journalCanonicalId]
    rw [← head]
    exact namedId_iff "journal" title
  | concept label =>
    have head : "concept" ++ ":" = "concept:" := rfl
    simp only [engineId, conceptCanonicalId]
    rw [← head]
    exact namedId_iff "concept" label
  | identifier scheme value => exact identifier_agrees_iff lowers scheme value

def samplePython : GraphPython where
  loads _ := none
  shown _ := ""
  casefold text := String.ofList (text.toList.map Char.toLower)
  lower text := String.ofList (text.toList.map Char.toLower)
  upper text := String.ofList (text.toList.map Char.toUpper)

theorem toLower_plain {c : Char} (plain : isSlugChar c = true ∨ c = '-') : c.toLower = c := by
  have small : ¬ (65 ≤ c.toNat ∧ c.toNat ≤ 90) := by
    rcases plain with isSlug | isHyphen
    · simp only [isSlugChar, Bool.or_eq_true, Bool.and_eq_true, decide_eq_true_eq] at isSlug
      rcases isSlug with letter | digit
      · have low : 97 ≤ c.toNat := letter.1
        omega
      · have high : c.toNat ≤ 57 := digit.2
        omega
    · rw [isHyphen]
      decide
  unfold Char.toLower
  rw [dif_neg]
  intro capital
  exact small ⟨capital.1, capital.2⟩

theorem samplePython_lowersPlain : LowersPlain samplePython := by
  intro text plain
  have kept : text.toList.map Char.toLower = text.toList := by
    rw [List.map_congr_left fun c member => toLower_plain (plain c member), List.map_id']
  change String.ofList (text.toList.map Char.toLower) = text
  rw [kept, String.ofList_toList]

/-- An author with an ORCID of digits and hyphens. -/
theorem canonicalIds_agree_orcid :
    fallbackId samplePython (.author "García" (some "0000-0001-0000-0001") none) =
      some (engineId sampleTables (.author "García" (some "0000-0001-0000-0001") none)) :=
  (canonicalIds_agree_iff sampleTables samplePython samplePython_lowersPlain _).mpr
    ⟨by decide, [['0', '0', '0', '0'], ['0', '0', '0', '1'], ['0', '0', '0', '0'],
      ['0', '0', '0', '1']], by decide, by simp [isSlugChar], by decide⟩

/-- An accent in a name and the separators of a DOI each make two ids of one. -/
theorem canonicalIds_disagree :
    fallbackId samplePython (.author "García" none none) ≠
        some (engineId sampleTables (.author "García" none none)) ∧
      fallbackId samplePython (.identifier "doi" "10.1000/1") ≠
        some (engineId sampleTables (.identifier "doi" "10.1000/1")) := by
  decide

end Ukip.Engine
