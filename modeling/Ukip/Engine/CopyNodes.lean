import Ukip.Foundation.CopyText

/-!
# The nodes of a flush as COPY text

`copy_nodes` of the engine's bulk writer sends the staged nodes in chunks, one line a node.  What
the server reads out of the chunks is one row of the stage table for each node, with its columns
as they were.
-/

namespace Ukip.Engine.CopyNodes

open Foundation.CopyText

/-- `db::schema::PendingNode` -/
structure PendingNode where
  orgId : Option Int64
  importBatchId : Option Int64
  domain : String
  entityType : String
  primaryLabel : String
  secondaryLabel : Option String
  canonicalId : String
  attributesJson : String
  source : String
  enrichmentSource : Option String
  enrichmentConcepts : Option String

/-- `i64::to_string` -/
def digitsOf (value : Int64) : Text :=
  if value.toInt < 0 then '-' :: Nat.toDigits 10 value.toInt.natAbs
  else Nat.toDigits 10 value.toInt.natAbs

def pushOptI64 (buffer : Text) (value : Option Int64) : Text :=
  match value with
  | some value => buffer ++ digitsOf value
  | none => buffer ++ ['\\', 'N']

def pushCopyText (buffer : Text) (value : Option String) : Text :=
  match value with
  | some value =>
    value.toList.foldl (fun buffer ch =>
      if ch = '\\' then buffer ++ ['\\', '\\']
      else if ch = '\t' then buffer ++ ['\\', 't']
      else if ch = '\n' then buffer ++ ['\\', 'n']
      else if ch = '\r' then buffer ++ ['\\', 'r']
      else buffer ++ [ch]) buffer
  | none => buffer ++ ['\\', 'N']

/-- One turn of the inner loop of `copy_nodes`. -/
def pushNode (buffer : Text) (node : PendingNode) : Text :=
  let buffer := pushOptI64 buffer node.orgId ++ ['\t']
  let buffer := pushOptI64 buffer node.importBatchId ++ ['\t']
  let buffer := pushCopyText buffer (some node.domain) ++ ['\t']
  let buffer := pushCopyText buffer (some node.entityType) ++ ['\t']
  let buffer := pushCopyText buffer (some node.primaryLabel) ++ ['\t']
  let buffer := pushCopyText buffer node.secondaryLabel ++ ['\t']
  let buffer := pushCopyText buffer (some node.canonicalId) ++ ['\t']
  let buffer := pushCopyText buffer (some node.attributesJson) ++ ['\t']
  let buffer := pushCopyText buffer (some node.source) ++ ['\t']
  let buffer := pushCopyText buffer node.enrichmentSource ++ ['\t']
  pushCopyText buffer node.enrichmentConcepts ++ ['\n']

/-- `slice::chunks`; a chunk takes one of the items at least. -/
def chunksWithin {Item : Type} (size : Nat) : (fuel : Nat) → List Item → List (List Item)
  | 0, _ => []
  | fuel + 1, items =>
    if items.isEmpty then []
    else items.take size :: chunksWithin size fuel (items.drop size)

def chunks {Item : Type} (size : Nat) (items : List Item) : List (List Item) :=
  chunksWithin size items.length items

/-- The chunks that `copy_nodes` sends; without nodes there is no COPY. -/
def copyNodes (nodes : List PendingNode) : List Text :=
  if nodes.isEmpty then []
  else (chunks 10000 nodes).map fun chunk => chunk.foldl pushNode []

def bigintIn (text : Text) : Option Int64 :=
  let negative := text.head? = some '-'
  let digits := if negative then text.tail else text
  if digits ≠ [] ∧ digits.all Char.isDigit = true then
    let magnitude : Int := Nat.ofDigitChars 10 digits 0
    let value := if negative then -magnitude else magnitude
    if Int64.minValue.toInt ≤ value ∧ value ≤ Int64.maxValue.toInt then some (Int64.ofInt value)
    else none
  else none

def bigintColumn : Field → Option (Option Int64)
  | none => some none
  | some text => (bigintIn text).map some

def textColumn (field : Field) : Option (Option String) := some (field.map String.ofList)

def requiredColumn (field : Field) : Option String := field.map String.ofList

/-- A row of `ukip_stage_nodes`, whose columns are those of a node. -/
def stageRow : List Field → Option PendingNode
  | [orgId, importBatchId, domain, entityType, primaryLabel, secondaryLabel, canonicalId,
      attributesJson, source, enrichmentSource, enrichmentConcepts] => do
      some
        { orgId := ← bigintColumn orgId
          importBatchId := ← bigintColumn importBatchId
          domain := ← requiredColumn domain
          entityType := ← requiredColumn entityType
          primaryLabel := ← requiredColumn primaryLabel
          secondaryLabel := ← textColumn secondaryLabel
          canonicalId := ← requiredColumn canonicalId
          attributesJson := ← requiredColumn attributesJson
          source := ← requiredColumn source
          enrichmentSource := ← textColumn enrichmentSource
          enrichmentConcepts := ← textColumn enrichmentConcepts }
  | _ => none

def staged (sent : List Text) : Option (List PendingNode) :=
  (readRows sent.flatten).bind fun rows => rows.mapM stageRow

theorem digitsOf_chars {value : Int64} {char : Char} (member : char ∈ digitsOf value) :
    char = '-' ∨ char.isDigit = true := by
  have digit : ∀ magnitude, char ∈ Nat.toDigits 10 magnitude → char.isDigit = true :=
    fun magnitude => Nat.isDigit_of_mem_toDigits (by decide) (by decide)
  unfold digitsOf at member
  split at member
  · rcases List.mem_cons.mp member with sign | later
    · exact .inl sign
    · exact .inr (digit _ later)
  · exact .inr (digit _ member)

theorem digitsOf_plain {value : Int64} {char : Char} (member : char ∈ digitsOf value) : Plain char := by
  have apart : ∀ other : Char, other ≠ '-' → other.isDigit = false → char ≠ other := by
    intro other notSign notDigit same
    rcases digitsOf_chars member with sign | digit
    · exact notSign (same ▸ sign)
    · rw [same, notDigit] at digit
      exact Bool.false_ne_true digit
  exact ⟨apart _ (by decide) (by decide), apart _ (by decide) (by decide),
    apart _ (by decide) (by decide), apart _ (by decide) (by decide),
    apart _ (by decide) (by decide)⟩

theorem fieldText_digits (value : Int64) : fieldText (some (digitsOf value)) = digitsOf value := by
  have itself : ∀ char ∈ digitsOf value, escapeChar char = [char] := by
    intro char member
    have plain := digitsOf_plain member
    simp [escapeChar, plain.backslash, plain.tab, plain.newline, plain.carriageReturn]
  rw [fieldText, List.flatMap_congr itself]
  simp

theorem bigintIn_digitsOf (value : Int64) : bigintIn (digitsOf value) = some value := by
  have digits : ∀ magnitude, (Nat.toDigits 10 magnitude).all Char.isDigit = true := fun magnitude =>
    List.all_eq_true.mpr fun char => Nat.isDigit_of_mem_toDigits (by decide) (by decide)
  have filled : ∀ magnitude, Nat.toDigits 10 magnitude ≠ [] := fun magnitude => Nat.toDigits_ne_nil
  have low := Int64.minValue_le_toInt value
  have high := Int64.toInt_le value
  unfold digitsOf
  split
  · next negative =>
      have magnitude : -(value.toInt.natAbs : Int) = value.toInt := by omega
      simp only [bigintIn, List.head?_cons, if_true, List.tail_cons, filled, digits,
        ne_eq, not_false_eq_true, and_self, Nat.ofDigitChars_ten_toDigits, magnitude]
      rw [if_pos ⟨low, high⟩, Int64.ofInt_toInt]
  · next positive =>
      have magnitude : (value.toInt.natAbs : Int) = value.toInt := by omega
      have unsigned : (Nat.toDigits 10 value.toInt.natAbs).head? ≠ some '-' := by
        intro sign
        have isDigit := List.all_eq_true.mp (digits value.toInt.natAbs) '-' (List.mem_of_mem_head? sign)
        exact absurd isDigit (by decide)
      simp only [bigintIn, unsigned, if_false, filled, digits, ne_eq,
        not_false_eq_true, and_self, if_true, Nat.ofDigitChars_ten_toDigits, magnitude]
      rw [if_pos ⟨low, high⟩, Int64.ofInt_toInt]

def fieldsOf (node : PendingNode) : List Field :=
  [node.orgId.map digitsOf, node.importBatchId.map digitsOf, some node.domain.toList,
    some node.entityType.toList, some node.primaryLabel.toList,
    node.secondaryLabel.map String.toList, some node.canonicalId.toList,
    some node.attributesJson.toList, some node.source.toList,
    node.enrichmentSource.map String.toList, node.enrichmentConcepts.map String.toList]

variable (buffer : Text) (value : Option Int64)

theorem pushOptI64_eq :
    pushOptI64 buffer value = buffer ++ fieldText (value.map digitsOf) := by
  cases value with
  | none => rfl
  | some value => rw [Option.map_some, fieldText_digits, pushOptI64]

theorem pushCopyText_eq (value : Option String) :
    pushCopyText buffer value = buffer ++ fieldText (value.map String.toList) := by
  cases value with
  | none => rfl
  | some value =>
    have turn : ∀ (buffer : Text) (ch : Char),
        (if ch = '\\' then buffer ++ ['\\', '\\']
        else if ch = '\t' then buffer ++ ['\\', 't']
        else if ch = '\n' then buffer ++ ['\\', 'n']
        else if ch = '\r' then buffer ++ ['\\', 'r']
        else buffer ++ [ch]) = buffer ++ escapeChar ch := by
      intro buffer ch
      simp only [escapeChar, apply_ite (buffer ++ ·)]
    simp only [pushCopyText, turn, Option.map_some, fieldText]
    induction value.toList generalizing buffer with
    | nil => simp
    | cons ch rest ih => rw [List.foldl_cons, ih, List.flatMap_cons, List.append_assoc]

theorem pushNode_eq (node : PendingNode) :
    pushNode buffer node = buffer ++ rowText (fieldsOf node) := by
  simp only [pushNode, pushOptI64_eq, pushCopyText_eq, rowText, fieldsOf, List.map_cons, List.map_nil,
    List.intercalate_cons_cons, List.intercalate_singleton, List.append_assoc, Option.map_some]

theorem pushNodes_eq (nodes : List PendingNode) :
    nodes.foldl pushNode buffer = buffer ++ nodes.flatMap fun node => rowText (fieldsOf node) := by
  induction nodes generalizing buffer with
  | nil => simp
  | cons node rest ih => rw [List.foldl_cons, ih, pushNode_eq, List.flatMap_cons, List.append_assoc]

theorem chunks_flatten {Item : Type} {size : Nat} (positive : 0 < size) (items : List Item) :
    (chunks size items).flatten = items := by
  have within : ∀ fuel (items : List Item), items.length ≤ fuel →
      (chunksWithin size fuel items).flatten = items := by
    intro fuel
    induction fuel with
    | zero =>
      intro items enough
      rw [List.length_eq_zero_iff.mp (Nat.le_zero.mp enough)]
      rfl
    | succ fuel ih =>
      intro items enough
      rw [chunksWithin]
      split
      · next empty => rw [List.isEmpty_iff.mp empty, List.flatten_nil]
      · have rest : (items.drop size).length ≤ fuel := by
          rw [List.length_drop]
          omega
        rw [List.flatten_cons, ih _ rest, List.take_append_drop]
  exact within items.length items le_rfl

theorem copyNodes_flatten (nodes : List PendingNode) :
    (copyNodes nodes).flatten = nodes.flatMap fun node => rowText (fieldsOf node) := by
  unfold copyNodes
  split
  · next empty =>
      rw [List.isEmpty_iff.mp empty]
      rfl
  · simp only [pushNodes_eq, List.nil_append]
    conv_rhs => rw [← chunks_flatten (show 0 < 10000 by decide) nodes]
    simp only [List.flatMap_def, List.map_flatten, List.flatten_flatten, List.map_map,
      Function.comp_def]

/-- No text field has the character that the server cannot store. -/
structure NulFree (node : PendingNode) : Prop where
  domain : NoNul node.domain.toList
  entityType : NoNul node.entityType.toList
  primaryLabel : NoNul node.primaryLabel.toList
  secondaryLabel : ∀ text ∈ node.secondaryLabel, NoNul text.toList
  canonicalId : NoNul node.canonicalId.toList
  attributesJson : NoNul node.attributesJson.toList
  source : NoNul node.source.toList
  enrichmentSource : ∀ text ∈ node.enrichmentSource, NoNul text.toList
  enrichmentConcepts : ∀ text ∈ node.enrichmentConcepts, NoNul text.toList

theorem storable_digits : Storable (value.map digitsOf) := by
  cases value with
  | none => trivial
  | some value => exact fun member => (digitsOf_plain member).nul rfl

theorem storable_text {value : Option String} (noNul : ∀ text ∈ value, NoNul text.toList) :
    Storable (value.map String.toList) := by
  cases value with
  | none => trivial
  | some text => exact noNul text rfl

theorem storable_fieldsOf {node : PendingNode} (nulFree : NulFree node) :
    ∀ field ∈ fieldsOf node, Storable field := by
  simp only [fieldsOf, List.forall_mem_cons]
  exact ⟨storable_digits _, storable_digits _, nulFree.domain, nulFree.entityType,
    nulFree.primaryLabel, storable_text nulFree.secondaryLabel, nulFree.canonicalId,
    nulFree.attributesJson, nulFree.source, storable_text nulFree.enrichmentSource,
    storable_text nulFree.enrichmentConcepts, by simp⟩

theorem bigintColumn_digits :
    bigintColumn (value.map digitsOf) = some value := by
  cases value with
  | none => rfl
  | some value => simp only [Option.map_some, bigintColumn, bigintIn_digitsOf]

theorem textColumn_toList (value : Option String) :
    textColumn (value.map String.toList) = some value := by
  cases value <;> simp [textColumn]

theorem stageRow_fieldsOf (node : PendingNode) : stageRow (fieldsOf node) = some node := by
  simp [stageRow, fieldsOf, bigintColumn_digits, textColumn_toList, requiredColumn]

/-- The server reads the nodes out of what `copy_nodes` sends, and NULL is no text. -/
theorem copyNodes_roundTrip (nodes : List PendingNode) (nulFree : ∀ node ∈ nodes, NulFree node) :
    staged (copyNodes nodes) = some nodes ∧
      ∀ text : String, NoNul text.toList → pushCopyText [] (some text) ≠ pushCopyText [] none := by
  constructor
  · have rows : readRows ((nodes.map fieldsOf).flatMap rowText) = some (nodes.map fieldsOf) := by
      apply readRows_written
      · intro fields member
        obtain ⟨node, _, rfl⟩ := List.mem_map.mp member
        exact List.cons_ne_nil _ _
      · intro fields member
        obtain ⟨node, listed, rfl⟩ := List.mem_map.mp member
        exact storable_fieldsOf (nulFree node listed)
    rw [List.flatMap_map] at rows
    rw [staged, copyNodes_flatten, rows, Option.bind_some]
    clear rows nulFree
    induction nodes with
    | nil => rfl
    | cons node rest ih =>
      rw [List.map_cons, List.mapM_cons, stageRow_fieldsOf, ih]
      rfl
  · intro text noNul
    rw [pushCopyText_eq, pushCopyText_eq]
    exact fieldText_ne_null noNul

def awkwardNode : PendingNode where
  orgId := none
  importBatchId := some (-7)
  domain := "\\N"
  entityType := "publication"
  primaryLabel := "a\tb\nc\rd\\e"
  secondaryLabel := some ""
  canonicalId := "doi:10.1/x"
  attributesJson := "\x7b\x7d"
  source := "graph_materializer"
  enrichmentSource := none
  enrichmentConcepts := some "\\N"

theorem copyNodes_roundTrip_awkward :
    staged (copyNodes [awkwardNode]) = some [awkwardNode] ∧
      ∀ text : String, NoNul text.toList → pushCopyText [] (some text) ≠ pushCopyText [] none := by
  refine copyNodes_roundTrip [awkwardNode] fun node member => ?_
  obtain rfl := List.mem_singleton.mp member
  exact ⟨by decide, by decide, by decide, by simp [awkwardNode, NoNul], by decide, by decide,
    by decide, by simp [awkwardNode], by simp [awkwardNode, NoNul]⟩

end Ukip.Engine.CopyNodes
